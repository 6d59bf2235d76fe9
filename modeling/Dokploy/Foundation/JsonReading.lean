import Mathlib.Data.List.TakeWhile
import Dokploy.Foundation.Json

namespace Dokploy
namespace Foundation
namespace Json

/-!
# Reading a JSON text does not look past it

What stands behind a value does not change how it is read, as long as no character of it
could belong to one.  And a reader needs no more fuel than it has read characters.
-/

/-- A character that no JSON text holds outside of its strings, but for space. -/
def quiet (char : Char) : Bool :=
  !(('0' ≤ char && char ≤ '9') || ('a' ≤ char && char ≤ 'z') || ('A' ≤ char && char ≤ 'Z') ||
    "\"\\/,:[]\x7b\x7d+-.".toList.contains char)

/-- The same value, with something behind what is left of the text. -/
def carry {Value : Type} (behind : List Char) (result : Option (Value × List Char)) : Option (Value × List Char) :=
  result.map fun (value, rest) => (value, rest ++ behind)

section Behind

variable {behind : List Char}

variable {char : Char}

theorem not_quiet (isQuiet : quiet char = true) {other : Char} (loud : quiet other = false) : char ≠ other := by
  rintro rfl
  rw [isQuiet] at loud
  cases loud

theorem hexValue_quiet (isQuiet : quiet char = true) : hexValue char = none := by
  simp only [quiet, Bool.not_eq_true', Bool.or_eq_false_iff, Bool.and_eq_false_imp, decide_eq_true_eq, decide_eq_false_iff_not] at isQuiet
  obtain ⟨⟨⟨noDigit, noSmall⟩, noBig⟩, _⟩ := isQuiet
  unfold hexValue
  rw [if_neg fun range => noDigit range.1 range.2,
    if_neg fun range => noSmall range.1 (Char.le_trans range.2 (by decide)),
    if_neg fun range => noBig range.1 (Char.le_trans range.2 (by decide))]

theorem isDigit_quiet (isQuiet : quiet char = true) : isDigit char = false := by
  simp only [quiet, Bool.not_eq_true', Bool.or_eq_false_iff] at isQuiet
  exact isQuiet.1.1.1

theorem escaped_quiet (isQuiet : quiet char = true) : escaped char = none := by
  unfold escaped
  split
  all_goals first | rfl | exact absurd isQuiet (by decide)

theorem readDigits_append (isQuiet : forall char, char ∈ behind -> quiet char = true) (text : List Char) :
    readDigits (text ++ behind) = carry behind (readDigits text) := by
  have noDigits : behind.takeWhile isDigit = [] := by
    cases behind with
    | nil => rfl
    | cons char rest => rw [List.takeWhile_cons, isDigit_quiet (isQuiet char List.mem_cons_self)]; rfl
  have kept : behind.dropWhile isDigit = behind := by
    cases behind with
    | nil => rfl
    | cons char rest => rw [List.dropWhile_cons, isDigit_quiet (isQuiet char List.mem_cons_self)]; rfl
  have isTaken : (text ++ behind).takeWhile isDigit = text.takeWhile isDigit := by
    rw [List.takeWhile_append, noDigits, List.append_nil]
    split
    · rename_i isAll
      exact ((List.takeWhile_prefix isDigit).eq_of_length isAll).symm
    · rfl
  have isDropped : (text ++ behind).dropWhile isDigit = text.dropWhile isDigit ++ behind := by
    rw [List.dropWhile_append, kept]
    split
    · rename_i isAll
      rw [List.isEmpty_iff.mp isAll, List.nil_append]
    · rfl
  unfold readDigits carry
  rw [isTaken, isDropped]
  split <;> rfl

variable {rest : List Char}

theorem quiet_cons (isQuiet : forall other, other ∈ char :: rest -> quiet other = true) {other : Char}
    (loud : quiet other = false) : char ≠ other :=
  not_quiet (isQuiet char List.mem_cons_self) loud

theorem readDigits_quiet (isQuiet : forall char, char ∈ behind -> quiet char = true) : readDigits behind = none := by
  have nothing := readDigits_append isQuiet []
  rw [List.nil_append] at nothing
  exact nothing

theorem readInteger_other (notZero : char ≠ '0') : readInteger (char :: rest) = readDigits (char :: rest) := by
  unfold readInteger
  split
  · rename_i same
    exact absurd (List.cons.inj same).1 notZero
  · rfl

theorem readInteger_append (isQuiet : forall char, char ∈ behind -> quiet char = true) (text : List Char) :
    readInteger (text ++ behind) = carry behind (readInteger text) := by
  cases text with
  | nil =>
    rw [List.nil_append]
    cases behind with
    | nil => rfl
    | cons char rest => exact (readInteger_other (quiet_cons isQuiet (by decide))).trans (readDigits_quiet isQuiet)
  | cons char rest =>
    by_cases isZero : char = '0'
    · rw [isZero]
      rfl
    · rw [List.cons_append, readInteger_other isZero, readInteger_other isZero, ← List.cons_append]
      exact readDigits_append isQuiet _

theorem readFraction_other (noDot : char ≠ '.') : readFraction (char :: rest) = some ([], char :: rest) := by
  unfold readFraction
  split
  · rename_i same
    exact absurd (List.cons.inj same).1 noDot
  · rfl

theorem readFraction_append (isQuiet : forall char, char ∈ behind -> quiet char = true) (text : List Char) :
    readFraction (text ++ behind) = carry behind (readFraction text) := by
  cases text with
  | nil =>
    rw [List.nil_append]
    cases behind with
    | nil => rfl
    | cons char rest => exact readFraction_other (quiet_cons isQuiet (by decide))
  | cons char rest =>
    by_cases isDot : char = '.'
    · rw [isDot]
      have digits := readDigits_append isQuiet rest
      simp only [List.cons_append, readFraction, digits, carry, Option.map_map]
      rfl
    · rw [List.cons_append, readFraction_other isDot, readFraction_other isDot]
      rfl

theorem readExponent_other (noSmall : char ≠ 'e') (noBig : char ≠ 'E') :
    readExponent (char :: rest) = some ([], char :: rest) := by
  unfold readExponent
  split
  all_goals first
    | exact absurd (List.cons.inj (by assumption)).1 noSmall
    | exact absurd (List.cons.inj (by assumption)).1 noBig
    | rfl

def exponentDigits (letter : Char) : List Char -> Option (List Char × List Char)
  | '+' :: rest => (readDigits rest).map fun (digits, rest) => (letter :: '+' :: digits, rest)
  | '-' :: rest => (readDigits rest).map fun (digits, rest) => (letter :: '-' :: digits, rest)
  | rest => (readDigits rest).map fun (digits, rest) => (letter :: digits, rest)

theorem readExponent_letter {letter : Char} (isLetter : letter = 'e' ∨ letter = 'E') (rest : List Char) :
    readExponent (letter :: rest) = exponentDigits letter rest := by
  rcases isLetter with rfl | rfl
  · unfold exponentDigits
    split <;> simp [readExponent]
  · unfold exponentDigits
    split <;> simp [readExponent]

theorem exponentDigits_other {letter : Char} (noPlus : char ≠ '+') (noMinus : char ≠ '-') :
    exponentDigits letter (char :: rest) = (readDigits (char :: rest)).map fun (digits, rest) => (letter :: digits, rest) := by
  unfold exponentDigits
  split
  · rename_i same
    exact absurd (List.cons.inj same).1 noPlus
  · rename_i same
    exact absurd (List.cons.inj same).1 noMinus
  · rfl

theorem readExponent_append (isQuiet : forall char, char ∈ behind -> quiet char = true) (text : List Char) :
    readExponent (text ++ behind) = carry behind (readExponent text) := by
  cases text with
  | nil =>
    rw [List.nil_append]
    cases behind with
    | nil => rfl
    | cons char rest => exact readExponent_other (quiet_cons isQuiet (by decide)) (quiet_cons isQuiet (by decide))
  | cons letter rest =>
    by_cases isLetter : letter = 'e' ∨ letter = 'E'
    · rw [List.cons_append, readExponent_letter isLetter, readExponent_letter isLetter]
      cases rest with
      | nil =>
        rw [List.nil_append]
        have nothing : exponentDigits letter [] = none := rfl
        rw [nothing]
        cases behind with
        | nil => rfl
        | cons char rest =>
          rw [exponentDigits_other (quiet_cons isQuiet (by decide)) (quiet_cons isQuiet (by decide)), readDigits_quiet isQuiet]
          rfl
      | cons char rest =>
        by_cases isPlus : char = '+'
        · rw [isPlus]
          simp only [List.cons_append, exponentDigits, readDigits_append isQuiet rest, carry, Option.map_map]
          rfl
        · by_cases isMinus : char = '-'
          · rw [isMinus]
            simp only [List.cons_append, exponentDigits, readDigits_append isQuiet rest, carry, Option.map_map]
            rfl
          · have digits := readDigits_append isQuiet (char :: rest)
            rw [List.cons_append] at digits ⊢
            rw [exponentDigits_other isPlus isMinus, exponentDigits_other isPlus isMinus, digits]
            simp only [carry, Option.map_map]
            rfl
    · obtain ⟨noSmall, noBig⟩ := not_or.mp isLetter
      rw [List.cons_append, readExponent_other noSmall noBig, readExponent_other noSmall noBig]
      rfl

def unsigned (sign text : List Char) : Option (List Char × List Char) := do
  let (integer, text) <- readInteger text
  let (fraction, text) <- readFraction text
  let (exponent, text) <- readExponent text
  some (sign ++ integer ++ fraction ++ exponent, text)

theorem readNumber_minus (rest : List Char) : readNumber ('-' :: rest) = unsigned ['-'] rest := rfl

theorem readNumber_other {text : List Char} (noMinus : forall rest, text ≠ '-' :: rest) : readNumber text = unsigned [] text := by
  unfold readNumber
  split
  rename_i isSign
  split at isSign
  · exact absurd rfl (noMinus _)
  · cases isSign
    rfl

theorem unsigned_append (isQuiet : forall char, char ∈ behind -> quiet char = true) (sign text : List Char) :
    unsigned sign (text ++ behind) = carry behind (unsigned sign text) := by
  unfold unsigned
  rw [readInteger_append isQuiet]
  cases readInteger text with
  | none => rfl
  | some integer =>
    simp only [carry, Option.map_some, Option.bind_eq_bind, Option.bind_some, readFraction_append isQuiet]
    cases readFraction integer.2 with
    | none => rfl
    | some fraction =>
      simp only [carry, Option.map_some, Option.bind_some, readExponent_append isQuiet]
      cases readExponent fraction.2 with
      | none => rfl
      | some exponent => rfl

theorem readNumber_append (isQuiet : forall char, char ∈ behind -> quiet char = true) (text : List Char) :
    readNumber (text ++ behind) = carry behind (readNumber text) := by
  have plain (rest : List Char) : behind ≠ '-' :: rest := by
    intro same
    exact absurd (isQuiet '-' (same ▸ List.mem_cons_self)) (by decide)
  cases text with
  | nil =>
    rw [List.nil_append, readNumber_other plain, readNumber_other fun _ same => by cases same]
    exact unsigned_append isQuiet [] []
  | cons char rest =>
    by_cases isMinus : char = '-'
    · rw [isMinus, List.cons_append, readNumber_minus, readNumber_minus]
      exact unsigned_append isQuiet _ _
    · rw [List.cons_append, readNumber_other fun other same => isMinus (List.cons.inj same).1,
        readNumber_other fun other same => isMinus (List.cons.inj same).1, ← List.cons_append]
      exact unsigned_append isQuiet _ _

theorem readString_quiet (isQuiet : forall char, char ∈ behind -> quiet char = true) : readString behind = none := by
  induction behind with
  | nil => rfl
  | cons char rest ih =>
    have later := ih fun other among => isQuiet other (List.mem_cons_of_mem char among)
    have noQuote : char ≠ '"' := quiet_cons isQuiet (by decide)
    have noBackslash : char ≠ '\\' := quiet_cons isQuiet (by decide)
    unfold readString
    split
    · rfl
    · rename_i same
      exact absurd (List.cons.inj same).1 noQuote
    · rename_i same
      exact absurd (List.cons.inj same).1 noBackslash
    · rename_i same
      exact absurd (List.cons.inj same).1 noBackslash
    · rename_i same
      obtain ⟨rfl, rfl⟩ := List.cons.inj same
      rw [later]
      split <;> rfl

theorem readString_escape (notHex : char ≠ 'u') (rest : List Char) : readString ('\\' :: char :: rest) =
    (escaped char).bind fun char => (readString rest).bind fun (text, rest) => some (char :: text, rest) := by
  rw [readString]
  · rfl
  · exact fun _ _ _ _ _ same => absurd same notHex

theorem readString_plain (noQuote : char ≠ '"') (noBackslash : char ≠ '\\') (rest : List Char) :
    readString (char :: rest) = if char.toNat < 32 ∨ char = '\\' then none
      else (readString rest).bind fun (text, rest) => some (char :: text, rest) := by
  rw [readString]
  · rfl
  · exact noQuote
  · exact fun _ _ _ _ _ same => absurd same noBackslash
  · exact fun _ _ same => absurd same noBackslash

theorem codeUnit_none {first second third fourth : Char} (notHex : hexValue fourth = none) : codeUnit first second third fourth = none := by
  unfold codeUnit
  rw [notHex]
  cases hexValue first <;> cases hexValue second <;> cases hexValue third <;> rfl

theorem readString_cut (isQuiet : forall char, char ∈ behind -> quiet char = true) {rest : List Char}
    (short : forall first second third fourth others, rest ≠ first :: second :: third :: fourth :: others) :
    readString ('\\' :: 'u' :: (rest ++ behind)) = none := by
  by_cases isHex : Exists fun first => Exists fun second => Exists fun third => Exists fun fourth => Exists fun others =>
      rest ++ behind = first :: second :: third :: fourth :: others
  · obtain ⟨first, second, third, fourth, others, isText⟩ := isHex
    have isBehind : fourth ∈ behind := by
      match rest, short with
      | [], _ =>
        rw [List.nil_append] at isText
        rw [isText]
        simp
      | [_], _ =>
        have isBehind : behind = second :: third :: fourth :: others := (List.cons.inj isText).2
        simp [isBehind]
      | [_, _], _ =>
        have isBehind : behind = third :: fourth :: others := (List.cons.inj (List.cons.inj isText).2).2
        simp [isBehind]
      | [_, _, _], _ =>
        have isBehind : behind = fourth :: others := (List.cons.inj (List.cons.inj (List.cons.inj isText).2).2).2
        simp [isBehind]
      | one :: two :: three :: four :: more, short => exact absurd rfl (short one two three four more)
    rw [isText, readString, codeUnit_none (hexValue_quiet (isQuiet fourth isBehind))]
    rfl
  · rw [readString]
    · rfl
    · exact fun first second third fourth others _ same => isHex ⟨first, second, third, fourth, others, same⟩

theorem readString_append (isQuiet : forall char, char ∈ behind -> quiet char = true) (text : List Char) :
    readString (text ++ behind) = carry behind (readString text) := by
  induction text using readString.induct with
  | case1 => exact readString_quiet isQuiet
  | case2 rest => rfl
  | case3 first second third fourth rest ih =>
    simp only [List.cons_append, readString, ih]
    cases codeUnit first second third fourth <;> cases readString rest <;> rfl
  | case4 char rest notHex ih =>
    by_cases isHex : char = 'u'
    · subst isHex
      have short first second third fourth others : rest ≠ first :: second :: third :: fourth :: others :=
        fun same => notHex first second third fourth others rfl same
      have cut := @readString_cut [] (fun _ among => absurd among List.not_mem_nil) rest short
      rw [List.append_nil] at cut
      rw [List.cons_append, List.cons_append, readString_cut isQuiet short, cut]
      rfl
    · rw [List.cons_append, List.cons_append, readString_escape isHex, readString_escape isHex, ih]
      cases escaped char <;> cases readString rest <;> rfl
  | case5 char rest noQuote noHex noEscape bad =>
    have nothing : readString (char :: rest) = none := by
      rw [readString, if_pos bad] <;> assumption
    rw [nothing, List.cons_append]
    by_cases isBackslash : char = '\\'
    · subst isBackslash
      cases rest with
      | cons other rest => exact absurd rfl (noEscape other rest rfl)
      | nil =>
        rw [List.nil_append]
        cases behind with
        | nil => exact nothing
        | cons other rest =>
          rw [readString_escape (quiet_cons isQuiet (by decide)), escaped_quiet (isQuiet other List.mem_cons_self)]
          rfl
    · rw [readString_plain noQuote isBackslash, if_pos bad]
      rfl
  | case6 char rest noQuote noHex noEscape good ih =>
    have noBackslash : char ≠ '\\' := (not_or.mp good).2
    rw [List.cons_append, readString_plain noQuote noBackslash, readString_plain noQuote noBackslash, if_neg good, if_neg good, ih]
    cases readString rest <;> rfl

def plainValue : List Char -> Option (Json × List Char)
  | 'n' :: 'u' :: 'l' :: 'l' :: rest => some (.null, rest)
  | 't' :: 'r' :: 'u' :: 'e' :: rest => some (.bool true, rest)
  | 'f' :: 'a' :: 'l' :: 's' :: 'e' :: rest => some (.bool false, rest)
  | text => (readNumber text).map fun (literal, rest) => (.number literal, rest)

/-- No string, array or object begins here. -/
def Plain (text : List Char) : Prop := forall char rest, text = char :: rest -> char ≠ '"' ∧ char ≠ '[' ∧ char ≠ '\x7b'

theorem value_begins (text : List Char) : (Exists fun more => text = '"' :: more) ∨ (Exists fun more => text = '[' :: more) ∨
    (Exists fun more => text = '\x7b' :: more) ∨ Plain text := by
  by_cases isPlain : Plain text
  · exact Or.inr (Or.inr (Or.inr isPlain))
  · simp only [Plain, not_forall] at isPlain
    obtain ⟨char, rest, rfl, begins⟩ := isPlain
    by_cases isQuote : char = '"'
    · exact Or.inl ⟨rest, by rw [isQuote]⟩
    · by_cases isBracket : char = '['
      · exact Or.inr (Or.inl ⟨rest, by rw [isBracket]⟩)
      · by_cases isBrace : char = '\x7b'
        · exact Or.inr (Or.inr (Or.inl ⟨rest, by rw [isBrace]⟩))
        · exact absurd ⟨isQuote, isBracket, isBrace⟩ begins

theorem plainValue_number {text : List Char} (noNull : forall rest, text ≠ 'n' :: 'u' :: 'l' :: 'l' :: rest)
    (noTrue : forall rest, text ≠ 't' :: 'r' :: 'u' :: 'e' :: rest) (noFalse : forall rest, text ≠ 'f' :: 'a' :: 'l' :: 's' :: 'e' :: rest) :
    plainValue text = (readNumber text).map fun (literal, rest) => (.number literal, rest) := by
  unfold plainValue
  split
  · exact absurd rfl (noNull _)
  · exact absurd rfl (noTrue _)
  · exact absurd rfl (noFalse _)
  · rfl

theorem readValue_plain {text : List Char} (plain : Plain text) (fuel : Nat) : readValue (fuel + 1) text = plainValue text := by
  rw [readValue.eq_def]
  simp only
  split
  · rfl
  · rfl
  · rfl
  · exact absurd rfl (plain _ _ rfl).1
  · exact absurd rfl (plain _ _ rfl).2.1
  · exact absurd rfl (plain _ _ rfl).2.2
  · rename_i noNull noTrue noFalse _ _ _
    exact (plainValue_number noNull noTrue noFalse).symm

theorem loud_front (isQuiet : forall char, char ∈ behind -> quiet char = true) {text word rest : List Char}
    (loud : word.any quiet = false) (same : text ++ behind = word ++ rest) : Exists fun more => text = word ++ more := by
  rcases List.append_eq_append_iff.mp same with ⟨more, isWord, isBehind⟩ | ⟨more, isText, _⟩
  · cases more with
    | nil => exact ⟨[], by rw [isWord, List.append_nil, List.append_nil]⟩
    | cons char more =>
      have hears := isQuiet char (isBehind ▸ List.mem_cons_self)
      exact absurd hears (List.any_eq_false.mp loud char (isWord ▸ List.mem_append_right text List.mem_cons_self))
  · exact ⟨more, isText⟩

theorem plainValue_append (isQuiet : forall char, char ∈ behind -> quiet char = true) (text : List Char) :
    plainValue (text ++ behind) = carry behind (plainValue text) := by
  by_cases isNull : Exists fun rest => text = 'n' :: 'u' :: 'l' :: 'l' :: rest
  · obtain ⟨rest, rfl⟩ := isNull
    rfl
  · by_cases isTrue : Exists fun rest => text = 't' :: 'r' :: 'u' :: 'e' :: rest
    · obtain ⟨rest, rfl⟩ := isTrue
      rfl
    · by_cases isFalse : Exists fun rest => text = 'f' :: 'a' :: 'l' :: 's' :: 'e' :: rest
      · obtain ⟨rest, rfl⟩ := isFalse
        rfl
      · rw [plainValue_number (fun rest same => isNull ⟨rest, same⟩) (fun rest same => isTrue ⟨rest, same⟩)
          fun rest same => isFalse ⟨rest, same⟩, plainValue_number ?_ ?_ ?_, readNumber_append isQuiet]
        · simp only [carry, Option.map_map]
          rfl
        · exact fun rest same => isNull (@loud_front behind isQuiet text "null".toList rest (by decide) same)
        · exact fun rest same => isTrue (@loud_front behind isQuiet text "true".toList rest (by decide) same)
        · exact fun rest same => isFalse (@loud_front behind isQuiet text "false".toList rest (by decide) same)

theorem skipSpace_append (text : List Char) : skipSpace (text ++ behind) =
    if skipSpace text = [] then skipSpace behind else skipSpace text ++ behind := by
  unfold skipSpace
  rw [List.dropWhile_append]
  cases text.dropWhile isSpace <;> rfl

theorem quiet_skipSpace (isQuiet : forall char, char ∈ behind -> quiet char = true) :
    forall char, char ∈ skipSpace behind -> quiet char = true :=
  fun char among => isQuiet char ((List.dropWhile_sublist isSpace).mem among)

def itemEnd (fuel : Nat) (item : Json) : List Char -> Option (List Json × List Char)
  | ',' :: rest => (readItems fuel (skipSpace rest)).map fun (items, rest) => (item :: items, rest)
  | ']' :: rest => some ([item], rest)
  | _ => none

theorem readItems_succ (fuel : Nat) (text : List Char) :
    readItems (fuel + 1) text = (readValue fuel text).bind fun (item, rest) => itemEnd fuel item (skipSpace rest) := by
  rw [readItems]
  cases readValue fuel text with
  | none => rfl
  | some result =>
    simp only [Option.bind_eq_bind, Option.bind_some]
    split
    · rename_i isRest
      rw [isRest, itemEnd]
      cases readItems fuel (skipSpace _) <;> rfl
    · rename_i isRest
      rw [isRest, itemEnd]
    · rename_i noComma noBracket
      unfold itemEnd
      split
      · exact absurd (by assumption) (noComma _)
      · exact absurd (by assumption) (noBracket _)
      · rfl

def entryEnd (fuel : Nat) (key : List Char) (value : Json) : List Char -> Option (List (List Char × Json) × List Char)
  | ',' :: rest => (readEntries fuel (skipSpace rest)).map fun (entries, rest) => ((key, value) :: entries, rest)
  | '\x7d' :: rest => some ([(key, value)], rest)
  | _ => none

def entryValue (fuel : Nat) (key : List Char) : List Char -> Option (List (List Char × Json) × List Char)
  | ':' :: rest => (readValue fuel (skipSpace rest)).bind fun (value, rest) => entryEnd fuel key value (skipSpace rest)
  | _ => none

theorem readEntries_succ (fuel : Nat) (rest : List Char) :
    readEntries (fuel + 1) ('"' :: rest) = (readString rest).bind fun (key, rest) => entryValue fuel key (skipSpace rest) := by
  rw [readEntries]
  cases readString rest with
  | none => rfl
  | some key =>
    simp only [Option.bind_eq_bind, Option.bind_some]
    split
    · rename_i isRest
      rw [isRest, entryValue]
      cases readValue fuel (skipSpace _) with
      | none => rfl
      | some value =>
        simp only [Option.bind_some]
        split
        · rename_i isEnd
          rw [isEnd, entryEnd]
          cases readEntries fuel (skipSpace _) <;> rfl
        · rename_i isEnd
          rw [isEnd, entryEnd]
        · rename_i noComma noBrace
          unfold entryEnd
          split
          · exact absurd (by assumption) (noComma _)
          · exact absurd (by assumption) (noBrace _)
          · rfl
    · rename_i noColon
      unfold entryValue
      split
      · exact absurd (by assumption) (noColon _)
      · rfl

theorem readEntries_other {text : List Char} (noQuote : forall rest, text ≠ '"' :: rest) (fuel : Nat) : readEntries fuel text = none := by
  cases fuel with
  | zero => rfl
  | succ fuel =>
    unfold readEntries
    split
    · exact absurd rfl (noQuote _)
    · rfl

/-- What follows the bracket of an array. -/
def arrayRest (fuel : Nat) : List Char -> Option (Json × List Char)
  | ']' :: rest => some (.array [], rest)
  | rest => (readItems fuel rest).map fun (items, rest) => (.array items, rest)

def objectRest (fuel : Nat) : List Char -> Option (Json × List Char)
  | '\x7d' :: rest => some (.object [], rest)
  | rest => (readEntries fuel rest).map fun (entries, rest) => (.object entries, rest)

theorem arrayRest_other {text : List Char} (noBracket : forall rest, text ≠ ']' :: rest) (fuel : Nat) :
    arrayRest fuel text = (readItems fuel text).map fun (items, rest) => (.array items, rest) := by
  unfold arrayRest
  split
  · exact absurd rfl (noBracket _)
  · rfl

theorem objectRest_other {text : List Char} (noBrace : forall rest, text ≠ '\x7d' :: rest) (fuel : Nat) :
    objectRest fuel text = (readEntries fuel text).map fun (entries, rest) => (.object entries, rest) := by
  unfold objectRest
  split
  · exact absurd rfl (noBrace _)
  · rfl

theorem readValue_string (fuel : Nat) (rest : List Char) :
    readValue (fuel + 1) ('"' :: rest) = (readString rest).map fun (text, rest) => (.string text, rest) := by
  rw [readValue]

theorem readValue_array (fuel : Nat) (rest : List Char) : readValue (fuel + 1) ('[' :: rest) = arrayRest fuel (skipSpace rest) := by
  rw [readValue]
  split
  · rename_i isRest
    rw [isRest, arrayRest]
  · exact (arrayRest_other (by assumption) fuel).symm

theorem readValue_object (fuel : Nat) (rest : List Char) : readValue (fuel + 1) ('\x7b' :: rest) = objectRest fuel (skipSpace rest) := by
  rw [readValue]
  split
  · rename_i isRest
    rw [isRest, objectRest]
  · exact (objectRest_other (by assumption) fuel).symm

/-- A reader that reads nothing of quiet characters, and nothing past the end of a text. -/
structure Local {Value : Type} (behind : List Char) (reader : List Char -> Option (Value × List Char)) : Prop where
  silent : forall text, (forall char, char ∈ text -> quiet char = true) -> reader text = none
  same : forall text, reader (text ++ behind) = carry behind (reader text)

namespace Local

variable {Value Other : Type}

variable {reader : List Char -> Option (Value × List Char)}

theorem afterSpace (isLocal : Local behind reader)
    (isQuiet : forall char, char ∈ behind -> quiet char = true) : Local behind fun text => reader (skipSpace text) where
  silent text silence := isLocal.silent _ (quiet_skipSpace silence)
  same text := by
    rw [skipSpace_append]
    split
    · rename_i isEmpty
      rw [isEmpty, isLocal.silent _ (quiet_skipSpace isQuiet), isLocal.silent [] fun _ among => absurd among List.not_mem_nil]
      rfl
    · exact isLocal.same _

theorem map (isLocal : Local behind reader) (build : Value -> Other) :
    Local behind fun text => (reader text).map fun (value, rest) => (build value, rest) where
  silent text silence := by
    simp only
    rw [isLocal.silent text silence]
    rfl
  same text := by
    simp only
    rw [isLocal.same]
    cases reader text <;> rfl

theorem bind {next : Value -> List Char -> Option (Other × List Char)}
    (isLocal : Local behind reader) (nextLocal : forall value, Local behind (next value)) :
    Local behind fun text => (reader text).bind fun (value, rest) => next value rest where
  silent text silence := by
    simp only
    rw [isLocal.silent text silence]
    rfl
  same text := by
    simp only
    rw [isLocal.same]
    cases reader text with
    | none => rfl
    | some result => exact (nextLocal result.1).same result.2

theorem ofCons (isQuiet : forall char, char ∈ behind -> quiet char = true)
    (silent : forall text, (forall char, char ∈ text -> quiet char = true) -> reader text = none)
    (same : forall char rest, reader (char :: rest ++ behind) = carry behind (reader (char :: rest))) : Local behind reader where
  silent := silent
  same text := by
    cases text with
    | nil =>
      rw [List.nil_append, silent behind isQuiet, silent [] fun _ among => absurd among List.not_mem_nil]
      rfl
    | cons char rest => exact same char rest

end Local

theorem local_readString (isQuiet : forall char, char ∈ behind -> quiet char = true) : Local behind readString :=
  ⟨fun _ => readString_quiet, readString_append isQuiet⟩

variable {fuel : Nat}

theorem local_itemEnd (isQuiet : forall char, char ∈ behind -> quiet char = true) (items : Local behind (readItems fuel))
    (item : Json) : Local behind (itemEnd fuel item) := by
  have other {char : Char} (noComma : char ≠ ',') (noBracket : char ≠ ']') (rest : List Char) : itemEnd fuel item (char :: rest) = none := by
    unfold itemEnd
    split
    · exact absurd (List.cons.inj (by assumption)).1 noComma
    · exact absurd (List.cons.inj (by assumption)).1 noBracket
    · rfl
  refine Local.ofCons isQuiet (fun text silence => ?_) fun char rest => ?_
  · cases text with
    | nil => rfl
    | cons char rest => exact other (quiet_cons silence (by decide)) (quiet_cons silence (by decide)) rest
  · by_cases isComma : char = ','
    · rw [isComma]
      exact ((items.afterSpace isQuiet).map (item :: ·)).same rest
    · by_cases isBracket : char = ']'
      · rw [isBracket]
        rfl
      · rw [List.cons_append, other isComma isBracket, other isComma isBracket]
        rfl

theorem local_entryEnd (isQuiet : forall char, char ∈ behind -> quiet char = true) (entries : Local behind (readEntries fuel))
    (key : List Char) (value : Json) : Local behind (entryEnd fuel key value) := by
  have other {char : Char} (noComma : char ≠ ',') (noBrace : char ≠ '\x7d') (rest : List Char) :
      entryEnd fuel key value (char :: rest) = none := by
    unfold entryEnd
    split
    · exact absurd (List.cons.inj (by assumption)).1 noComma
    · exact absurd (List.cons.inj (by assumption)).1 noBrace
    · rfl
  refine Local.ofCons isQuiet (fun text silence => ?_) fun char rest => ?_
  · cases text with
    | nil => rfl
    | cons char rest => exact other (quiet_cons silence (by decide)) (quiet_cons silence (by decide)) rest
  · by_cases isComma : char = ','
    · rw [isComma]
      exact ((entries.afterSpace isQuiet).map ((key, value) :: ·)).same rest
    · by_cases isBrace : char = '\x7d'
      · rw [isBrace]
        rfl
      · rw [List.cons_append, other isComma isBrace, other isComma isBrace]
        rfl

theorem local_entryValue (isQuiet : forall char, char ∈ behind -> quiet char = true) (values : Local behind (readValue fuel))
    (entries : Local behind (readEntries fuel)) (key : List Char) : Local behind (entryValue fuel key) := by
  have other {char : Char} (noColon : char ≠ ':') (rest : List Char) : entryValue fuel key (char :: rest) = none := by
    unfold entryValue
    split
    · exact absurd (List.cons.inj (by assumption)).1 noColon
    · rfl
  refine Local.ofCons isQuiet (fun text silence => ?_) fun char rest => ?_
  · cases text with
    | nil => rfl
    | cons char rest => exact other (quiet_cons silence (by decide)) rest
  · by_cases isColon : char = ':'
    · rw [isColon]
      exact ((values.afterSpace isQuiet).bind fun value => (local_entryEnd isQuiet entries key value).afterSpace isQuiet).same rest
    · rw [List.cons_append, other isColon, other isColon]
      rfl

theorem local_arrayRest (isQuiet : forall char, char ∈ behind -> quiet char = true) (items : Local behind (readItems fuel)) :
    Local behind (arrayRest fuel) := by
  refine Local.ofCons isQuiet (fun text silence => ?_) fun char rest => ?_
  · rw [@arrayRest_other text fun rest same => absurd (silence ']' (same ▸ List.mem_cons_self)) (by decide), items.silent text silence]
    rfl
  · by_cases isBracket : char = ']'
    · rw [isBracket]
      rfl
    · rw [List.cons_append, arrayRest_other fun _ same => isBracket (List.cons.inj same).1,
        arrayRest_other fun _ same => isBracket (List.cons.inj same).1]
      exact (items.map Json.array).same (char :: rest)

theorem local_objectRest (isQuiet : forall char, char ∈ behind -> quiet char = true) (entries : Local behind (readEntries fuel)) :
    Local behind (objectRest fuel) := by
  refine Local.ofCons isQuiet (fun text silence => ?_) fun char rest => ?_
  · rw [@objectRest_other text fun rest same => absurd (silence '\x7d' (same ▸ List.mem_cons_self)) (by decide), entries.silent text silence]
    rfl
  · by_cases isBrace : char = '\x7d'
    · rw [isBrace]
      rfl
    · rw [List.cons_append, objectRest_other fun _ same => isBrace (List.cons.inj same).1,
        objectRest_other fun _ same => isBrace (List.cons.inj same).1]
      exact (entries.map Json.object).same (char :: rest)

theorem local_readers (isQuiet : forall char, char ∈ behind -> quiet char = true) (fuel : Nat) :
    Local behind (readValue fuel) ∧ Local behind (readItems fuel) ∧ Local behind (readEntries fuel) := by
  induction fuel with
  | zero =>
    refine ⟨⟨fun _ _ => ?_, fun _ => ?_⟩, ⟨fun _ _ => ?_, fun _ => ?_⟩, ⟨fun _ _ => ?_, fun _ => ?_⟩⟩
    · rw [readValue]
    · rw [readValue, readValue]
      rfl
    · rw [readItems]
    · rw [readItems, readItems]
      rfl
    · rw [readEntries]
    · rw [readEntries, readEntries]
      rfl
  | succ fuel ih =>
    obtain ⟨values, items, entries⟩ := ih
    refine ⟨Local.ofCons isQuiet (fun text silence => ?_) fun char rest => ?_, ?_, Local.ofCons isQuiet (fun text silence => ?_) fun char rest => ?_⟩
    · have plain : Plain text := fun char rest isText => by
        subst isText
        exact ⟨quiet_cons silence (by decide), quiet_cons silence (by decide), quiet_cons silence (by decide)⟩
      rw [readValue_plain plain]
      have nothing := plainValue_append silence []
      rw [List.nil_append] at nothing
      exact nothing
    · rcases value_begins (char :: rest) with ⟨more, isText⟩ | ⟨more, isText⟩ | ⟨more, isText⟩ | plain
      · rw [isText, List.cons_append, readValue_string, readValue_string]
        exact ((local_readString isQuiet).map Json.string).same more
      · rw [isText, List.cons_append, readValue_array, readValue_array]
        exact ((local_arrayRest isQuiet items).afterSpace isQuiet).same more
      · rw [isText, List.cons_append, readValue_object, readValue_object]
        exact ((local_objectRest isQuiet entries).afterSpace isQuiet).same more
      · rw [readValue_plain plain, readValue_plain fun other more same => plain other rest (by rw [(List.cons.inj same).1])]
        exact plainValue_append isQuiet _
    · have isItems : readItems (fuel + 1) = fun text => (readValue fuel text).bind fun (item, rest) => itemEnd fuel item (skipSpace rest) :=
        funext (readItems_succ fuel)
      rw [isItems]
      exact values.bind fun item => (local_itemEnd isQuiet items item).afterSpace isQuiet
    · exact @readEntries_other text (fun rest same => absurd (silence '"' (same ▸ List.mem_cons_self)) (by decide)) _
    · by_cases isQuote : char = '"'
      · rw [isQuote, List.cons_append, readEntries_succ, readEntries_succ]
        exact ((local_readString isQuiet).bind fun key => (local_entryValue isQuiet values entries key).afterSpace isQuiet).same rest
      · rw [List.cons_append, readEntries_other fun _ same => isQuote (List.cons.inj same).1, readEntries_other fun _ same => isQuote (List.cons.inj same).1]
        rfl

end Behind

theorem length_skipSpace (text : List Char) : (skipSpace text).length ≤ text.length := (List.dropWhile_sublist isSpace).length_le

theorem suffix_skipSpace (text : List Char) : skipSpace text <:+ text := List.dropWhile_suffix isSpace

/-- Something was read of a text, and a character of a kind stands before what is left of it. -/
def Ends (closes : Char -> Prop) (text rest : List Char) : Prop := Exists fun char => closes char ∧ char :: rest <:+ text

def anything (_ : Char) : Prop := True

namespace Ends

variable {closes : Char -> Prop} {text rest : List Char}

theorem within {whole : List Char} (ends : Ends closes text rest) (suffix : text <:+ whole) : Ends closes whole rest := by
  obtain ⟨char, isClosing, isEnd⟩ := ends
  exact ⟨char, isClosing, isEnd.trans suffix⟩

theorem suffix (ends : Ends closes text rest) : rest <:+ text := by
  obtain ⟨char, _, isEnd⟩ := ends
  exact (List.suffix_cons char rest).trans isEnd

theorem shorter (ends : Ends closes text rest) : rest.length < text.length := by
  obtain ⟨char, _, isEnd⟩ := ends
  exact isEnd.length_le

theorem of_shorter (isEnd : rest <:+ text) (isShorter : rest.length < text.length) : Ends anything text rest := by
  obtain ⟨front, rfl⟩ := isEnd
  rcases List.eq_nil_or_concat front with rfl | ⟨before, char, rfl⟩
  · exact absurd isShorter (Nat.lt_irrefl _)
  · exact ⟨char, trivial, before, by rw [List.concat_eq_append, List.append_assoc]; rfl⟩

theorem after {left : List Char} (ends : Ends closes text rest) (isEnd : left <:+ rest) : Ends anything text left :=
  of_shorter (isEnd.trans ends.suffix) (Nat.lt_of_le_of_lt isEnd.length_le ends.shorter)

theorem cons (char : Char) (rest : List Char) : Ends anything (char :: rest) rest := ⟨char, trivial, List.suffix_rfl⟩

theorem behind {more : List Char} (isEnd : rest <:+ more) (char : Char) : Ends anything (char :: more) rest := (cons char more).after isEnd

end Ends

variable {rest : List Char}

theorem rest_of_map {Value Other : Type} {result : Option (Value × List Char)} {build : Value × List Char -> Other × List Char}
    {value : Other} (isRead : result.map build = some (value, rest)) (keeps : forall found, (build found).2 = found.2) :
    Exists fun found => result = some (found, rest) := by
  obtain ⟨⟨found, left⟩, isFound, same⟩ := Option.map_eq_some_iff.mp isRead
  have isRest : left = rest := (keeps (found, left)).symm.trans (congrArg Prod.snd same)
  exact ⟨found, isRest ▸ isFound⟩

variable {text : List Char}

theorem ends_readDigits {digits : List Char} (isRead : readDigits text = some (digits, rest)) : Ends anything text rest := by
  unfold readDigits at isRead
  split at isRead
  · cases isRead
  · rename_i some
    cases isRead
    have whole := congrArg List.length (List.takeWhile_append_dropWhile (p := isDigit) (l := text))
    have first : 0 < (text.takeWhile isDigit).length := List.length_pos_iff.mpr fun empty => some (by rw [empty]; rfl)
    rw [List.length_append] at whole
    exact Ends.of_shorter (List.dropWhile_suffix isDigit) (by omega)

theorem ends_readString {chars : List Char} (isRead : readString text = some (chars, rest)) : Ends anything text rest := by
  induction text using readString.induct generalizing chars rest with
  | case1 => cases isRead
  | case2 text =>
    cases isRead
    exact Ends.cons _ _
  | case3 first second third fourth text ih =>
    rw [readString] at isRead
    obtain ⟨char, _, isRead⟩ := Option.bind_eq_some_iff.mp isRead
    obtain ⟨result, isResult, isRead⟩ := Option.bind_eq_some_iff.mp isRead
    cases isRead
    exact (ih isResult).within (List.suffix_append ['\\', 'u', first, second, third, fourth] text)
  | case4 char text notHex ih =>
    rw [readString] at isRead
    · obtain ⟨char, _, isRead⟩ := Option.bind_eq_some_iff.mp isRead
      obtain ⟨result, isResult, isRead⟩ := Option.bind_eq_some_iff.mp isRead
      cases isRead
      exact (ih isResult).within (List.suffix_append ['\\', _] text)
    · exact notHex
  | case5 char text noQuote noHex noEscape bad =>
    rw [readString, if_pos bad] at isRead
    · cases isRead
    · exact noQuote
    · exact noHex
    · exact noEscape
  | case6 char text noQuote noHex noEscape good ih =>
    rw [readString, if_neg good] at isRead
    · obtain ⟨result, isResult, isRead⟩ := Option.bind_eq_some_iff.mp isRead
      cases isRead
      exact (ih isResult).within (List.suffix_cons _ _)
    · exact noQuote
    · exact noHex
    · exact noEscape

theorem ends_readInteger {digits : List Char} (isRead : readInteger text = some (digits, rest)) : Ends anything text rest := by
  unfold readInteger at isRead
  split at isRead
  · cases isRead
    exact Ends.cons _ _
  · exact ends_readDigits isRead

theorem suffix_readFraction {chars : List Char} (isRead : readFraction text = some (chars, rest)) : rest <:+ text := by
  unfold readFraction at isRead
  split at isRead
  · obtain ⟨digits, isDigits⟩ := rest_of_map isRead fun _ => rfl
    exact ((ends_readDigits isDigits).within (List.suffix_cons _ _)).suffix
  · cases isRead
    exact List.suffix_rfl

theorem suffix_readExponent {chars : List Char} (isRead : readExponent text = some (chars, rest)) : rest <:+ text := by
  unfold readExponent at isRead
  split at isRead
  all_goals first
    | (cases isRead; exact List.suffix_rfl)
    | (obtain ⟨digits, isDigits⟩ := rest_of_map isRead fun _ => rfl
       first
         | exact ((ends_readDigits isDigits).within (List.suffix_append [_, _] _)).suffix
         | exact ((ends_readDigits isDigits).within (List.suffix_cons _ _)).suffix)

theorem ends_unsigned {sign chars : List Char} (isRead : unsigned sign text = some (chars, rest)) : Ends anything text rest := by
  obtain ⟨integer, isInteger, isRead⟩ := Option.bind_eq_some_iff.mp isRead
  obtain ⟨fraction, isFraction, isRead⟩ := Option.bind_eq_some_iff.mp isRead
  obtain ⟨exponent, isExponent, same⟩ := Option.bind_eq_some_iff.mp isRead
  cases same
  exact (ends_readInteger isInteger).after ((suffix_readExponent isExponent).trans (suffix_readFraction isFraction))

theorem ends_readNumber {chars : List Char} (isRead : readNumber text = some (chars, rest)) : Ends anything text rest := by
  by_cases isMinus : Exists fun more => text = '-' :: more
  · obtain ⟨more, rfl⟩ := isMinus
    rw [readNumber_minus] at isRead
    exact (ends_unsigned isRead).within (List.suffix_cons _ _)
  · rw [readNumber_other fun more same => isMinus ⟨more, same⟩] at isRead
    exact ends_unsigned isRead

variable {value : Json}

theorem ends_plainValue (isRead : plainValue text = some (value, rest)) : Ends anything text rest := by
  unfold plainValue at isRead
  split at isRead
  · cases isRead
    exact Ends.behind (List.suffix_append "ull".toList _) 'n'
  · cases isRead
    exact Ends.behind (List.suffix_append "rue".toList _) 't'
  · cases isRead
    exact Ends.behind (List.suffix_append "alse".toList _) 'f'
  · obtain ⟨number, isNumber⟩ := rest_of_map isRead fun _ => rfl
    exact ends_readNumber isNumber

/-- A reader with fuel that reads at least one character, and needs no more fuel than it reads characters. -/
def Sparing {Value : Type} (closes : Char -> Prop) (reader : Nat -> List Char -> Option (Value × List Char)) (fuel : Nat) : Prop :=
  forall text value rest, reader fuel text = some (value, rest) -> Ends closes text rest ∧
    forall other, text.length ≤ other + rest.length -> reader other text = some (value, rest)

variable {fuel : Nat}

theorem itemEnd_sparing (items : Sparing anything readItems fuel) {item : Json} {value : List Json}
    (isRead : itemEnd fuel item text = some (value, rest)) : Ends anything text rest ∧
      forall other, text.length ≤ other + 1 + rest.length -> itemEnd other item text = some (value, rest) := by
  unfold itemEnd at isRead
  split at isRead
  · rename_i more
    obtain ⟨result, isResult, same⟩ := Option.map_eq_some_iff.mp isRead
    cases same
    obtain ⟨ends, again⟩ := items _ _ _ isResult
    have space := length_skipSpace more
    refine ⟨Ends.behind (ends.suffix.trans (suffix_skipSpace more)) ',', fun other enough => ?_⟩
    rw [List.length_cons] at enough
    rw [itemEnd, again other (by omega)]
    rfl
  · cases isRead
    exact ⟨Ends.cons _ _, fun other _ => by rw [itemEnd]⟩
  · cases isRead

theorem entryEnd_sparing (entries : Sparing (· = '\x7d') readEntries fuel) {key : List Char}
    {result : List (List Char × Json)} (isRead : entryEnd fuel key value text = some (result, rest)) : Ends (· = '\x7d') text rest ∧
      forall other, text.length ≤ other + 1 + rest.length -> entryEnd other key value text = some (result, rest) := by
  unfold entryEnd at isRead
  split at isRead
  · rename_i more
    obtain ⟨found, isFound, same⟩ := Option.map_eq_some_iff.mp isRead
    cases same
    obtain ⟨ends, again⟩ := entries _ _ _ isFound
    have space := length_skipSpace more
    refine ⟨(ends.within (suffix_skipSpace more)).within (List.suffix_cons _ _), fun other enough => ?_⟩
    rw [List.length_cons] at enough
    rw [entryEnd, again other (by omega)]
    rfl
  · cases isRead
    exact ⟨⟨_, rfl, List.suffix_rfl⟩, fun other _ => by rw [entryEnd]⟩
  · cases isRead

theorem entryValue_sparing (values : Sparing anything readValue fuel) (entries : Sparing (· = '\x7d') readEntries fuel)
    {key : List Char} {result : List (List Char × Json)} (isRead : entryValue fuel key text = some (result, rest)) :
    Ends (· = '\x7d') text rest ∧
      forall other, text.length ≤ other + 1 + rest.length -> entryValue other key text = some (result, rest) := by
  unfold entryValue at isRead
  split at isRead
  · rename_i more
    obtain ⟨⟨value, behind⟩, isValue, isRead⟩ := Option.bind_eq_some_iff.mp isRead
    obtain ⟨ends, again⟩ := values _ _ _ isValue
    obtain ⟨endsEnd, againEnd⟩ := entryEnd_sparing entries isRead
    have shorter := ends.shorter
    have shorterEnd := endsEnd.shorter
    have space := length_skipSpace more
    have spaceEnd := length_skipSpace behind
    refine ⟨endsEnd.within ((suffix_skipSpace behind).trans (Ends.behind (ends.suffix.trans (suffix_skipSpace more)) ':').suffix), fun other enough => ?_⟩
    rw [List.length_cons] at enough
    rw [entryValue, again other (by omega), Option.bind_some]
    exact againEnd other (by omega)
  · cases isRead

theorem arrayRest_sparing (items : Sparing anything readItems fuel)
    (isRead : arrayRest fuel text = some (value, rest)) : Ends anything text rest ∧
      forall other, text.length ≤ other + rest.length -> arrayRest other text = some (value, rest) := by
  by_cases isBracket : Exists fun more => text = ']' :: more
  · obtain ⟨more, rfl⟩ := isBracket
    rw [arrayRest] at isRead
    cases isRead
    exact ⟨Ends.cons _ _, fun other _ => by rw [arrayRest]⟩
  · have isItems (fuel : Nat) := @arrayRest_other text (fun more same => isBracket ⟨more, same⟩) fuel
    rw [isItems] at isRead
    obtain ⟨result, isResult, same⟩ := Option.map_eq_some_iff.mp isRead
    cases same
    obtain ⟨ends, again⟩ := items _ _ _ isResult
    exact ⟨ends, fun other enough => by rw [isItems, again other enough]; rfl⟩

theorem objectRest_sparing (entries : Sparing (· = '\x7d') readEntries fuel)
    (isRead : objectRest fuel text = some (value, rest)) : Ends (· = '\x7d') text rest ∧
      forall other, text.length ≤ other + rest.length -> objectRest other text = some (value, rest) := by
  by_cases isBrace : Exists fun more => text = '\x7d' :: more
  · obtain ⟨more, rfl⟩ := isBrace
    rw [objectRest] at isRead
    cases isRead
    exact ⟨⟨_, rfl, List.suffix_rfl⟩, fun other _ => by rw [objectRest]⟩
  · have isEntries (fuel : Nat) := @objectRest_other text (fun more same => isBrace ⟨more, same⟩) fuel
    rw [isEntries] at isRead
    obtain ⟨result, isResult, same⟩ := Option.map_eq_some_iff.mp isRead
    cases same
    obtain ⟨ends, again⟩ := entries _ _ _ isResult
    exact ⟨ends, fun other enough => by rw [isEntries, again other enough]; rfl⟩

theorem spends {Value : Type} {reader : Nat -> List Char -> Option (Value × List Char)} {value : Value}
    (isShorter : rest.length < text.length)
    (again : forall other, text.length ≤ other + 1 + rest.length -> reader (other + 1) text = some (value, rest)) :
    forall other, text.length ≤ other + rest.length -> reader other text = some (value, rest) := by
  intro other enough
  cases other with
  | zero => omega
  | succ other => exact again other enough

theorem sparing_readers (fuel : Nat) :
    Sparing anything readValue fuel ∧ Sparing anything readItems fuel ∧ Sparing (· = '\x7d') readEntries fuel := by
  induction fuel with
  | zero =>
    refine ⟨fun text value rest isRead => ?_, fun text value rest isRead => ?_, fun text value rest isRead => ?_⟩
    · rw [readValue] at isRead
      cases isRead
    · rw [readItems] at isRead
      cases isRead
    · rw [readEntries] at isRead
      cases isRead
  | succ fuel ih =>
    obtain ⟨values, items, entries⟩ := ih
    refine ⟨fun text value rest isRead => ?_, fun text value rest isRead => ?_, fun text value rest isRead => ?_⟩
    · rcases value_begins text with ⟨more, rfl⟩ | ⟨more, rfl⟩ | ⟨more, rfl⟩ | plain
      · rw [readValue_string] at isRead
        obtain ⟨chars, isString⟩ := rest_of_map isRead fun _ => rfl
        have ends := (ends_readString isString).within (List.suffix_cons '"' more)
        exact ⟨ends, spends ends.shorter fun other _ => by rw [readValue_string, isRead]⟩
      · rw [readValue_array] at isRead
        obtain ⟨ends, again⟩ := arrayRest_sparing items isRead
        have inner := (ends.within (suffix_skipSpace more)).within (List.suffix_cons '[' more)
        have space := length_skipSpace more
        refine ⟨inner, spends inner.shorter fun other enough => ?_⟩
        rw [List.length_cons] at enough
        rw [readValue_array]
        exact again other (by omega)
      · rw [readValue_object] at isRead
        obtain ⟨ends, again⟩ := objectRest_sparing entries isRead
        have inner := Ends.behind (ends.suffix.trans (suffix_skipSpace more)) '\x7b'
        have space := length_skipSpace more
        refine ⟨inner, spends inner.shorter fun other enough => ?_⟩
        rw [List.length_cons] at enough
        rw [readValue_object]
        exact again other (by omega)
      · rw [readValue_plain plain] at isRead
        have ends := ends_plainValue isRead
        exact ⟨ends, spends ends.shorter fun other _ => by rw [readValue_plain plain, isRead]⟩
    · rw [readItems_succ] at isRead
      obtain ⟨⟨item, behind⟩, isItem, isRead⟩ := Option.bind_eq_some_iff.mp isRead
      obtain ⟨ends, again⟩ := values _ _ _ isItem
      obtain ⟨endsEnd, againEnd⟩ := itemEnd_sparing items isRead
      have inner := ends.after (endsEnd.suffix.trans (suffix_skipSpace behind))
      have shorter := ends.shorter
      have shorterEnd := endsEnd.shorter
      have space := length_skipSpace behind
      refine ⟨inner, spends inner.shorter fun other enough => ?_⟩
      rw [readItems_succ, again other (by omega), Option.bind_some]
      exact againEnd other (by omega)
    · by_cases isQuote : Exists fun more => text = '"' :: more
      · obtain ⟨more, rfl⟩ := isQuote
        rw [readEntries_succ] at isRead
        obtain ⟨⟨key, behind⟩, isKey, isRead⟩ := Option.bind_eq_some_iff.mp isRead
        have endsKey := ends_readString isKey
        obtain ⟨endsEnd, againEnd⟩ := entryValue_sparing values entries isRead
        have inner := endsEnd.within ((suffix_skipSpace behind).trans (endsKey.suffix.trans (List.suffix_cons '"' more)))
        have shorter := endsKey.shorter
        have space := length_skipSpace behind
        refine ⟨inner, spends inner.shorter fun other enough => ?_⟩
        rw [List.length_cons] at enough
        rw [readEntries_succ, isKey, Option.bind_some]
        exact againEnd other (by omega)
      · rw [readEntries_other fun more same => isQuote ⟨more, same⟩] at isRead
        cases isRead

theorem readValue_fuel {other : Nat} (enough : text.length ≤ fuel) (enoughOther : text.length ≤ other) :
    readValue fuel text = readValue other text := by
  cases isRead : readValue fuel text with
  | some result => exact (((sparing_readers fuel).1 _ _ _ isRead).2 other (by omega)).symm
  | none =>
    cases isOther : readValue other text with
    | none => rfl
    | some result =>
      have again := ((sparing_readers other).1 _ _ _ isOther).2 fuel (by omega)
      rw [isRead] at again
      cases again

theorem plainValue_quiet {char : Char} (isQuiet : quiet char = true) (rest : List Char) : plainValue (char :: rest) = none := by
  have noDigits : readDigits (char :: rest) = none := by
    unfold readDigits
    rw [List.takeWhile_cons, isDigit_quiet isQuiet]
    rfl
  have notNumber : readNumber (char :: rest) = none := by
    rw [readNumber_other fun _ same => not_quiet isQuiet (by decide) (List.cons.inj same).1]
    unfold unsigned
    rw [readInteger_other (not_quiet isQuiet (by decide)), noDigits]
    rfl
  rw [plainValue_number, notNumber]
  · rfl
  · exact fun _ same => not_quiet isQuiet (by decide) (List.cons.inj same).1
  · exact fun _ same => not_quiet isQuiet (by decide) (List.cons.inj same).1
  · exact fun _ same => not_quiet isQuiet (by decide) (List.cons.inj same).1

theorem skipSpace_eq_nil : skipSpace text = [] <-> text.all isSpace = true := by
  unfold skipSpace
  rw [List.dropWhile_eq_nil_iff, List.all_eq_true]

theorem parse_eq (text : List Char) : parse text = (readValue (text.length + 1) (skipSpace text)).bind fun (value, rest) =>
    if (skipSpace rest).isEmpty then some value else none := rfl

theorem parse_quiet_front {before : List Char} (isQuiet : forall char, char ∈ before -> quiet char = true) (loud : before.all isSpace = false)
    (rest : List Char) : parse (before ++ rest) = none := by
  have filled : skipSpace before ≠ [] := fun empty => by
    rw [skipSpace_eq_nil, loud] at empty
    cases empty
  obtain ⟨char, more, isFront⟩ := List.exists_cons_of_ne_nil filled
  have quietChar : quiet char = true := quiet_skipSpace isQuiet char (isFront ▸ List.mem_cons_self)
  have plain : Plain (char :: (more ++ rest)) := fun other others same => by
    obtain ⟨rfl, _⟩ := List.cons.inj same
    exact ⟨not_quiet quietChar (by decide), not_quiet quietChar (by decide), not_quiet quietChar (by decide)⟩
  rw [parse_eq, skipSpace_append, if_neg filled, isFront, List.cons_append, readValue_plain plain, plainValue_quiet quietChar]
  rfl

/-- A text before quiet characters is read as it is when these are space, and not at all otherwise. -/
theorem parse_quiet_behind {behind : List Char} (isQuiet : forall char, char ∈ behind -> quiet char = true) (text : List Char) :
    parse (text ++ behind) = if behind.all isSpace then parse text else none := by
  by_cases isEmpty : skipSpace text = []
  · have nothing (fuel : Nat) : readValue fuel [] = none := (local_readers isQuiet fuel).1.silent [] fun _ among => absurd among List.not_mem_nil
    rw [parse_eq, parse_eq, skipSpace_append, if_pos isEmpty, isEmpty, nothing, (local_readers isQuiet _).1.silent _ (quiet_skipSpace isQuiet)]
    split <;> rfl
  · have space := length_skipSpace text
    have enough : (skipSpace text).length ≤ (text ++ behind).length + 1 := by
      rw [List.length_append]
      omega
    rw [parse_eq, parse_eq, skipSpace_append, if_neg isEmpty, (local_readers isQuiet _).1.same,
      readValue_fuel enough (Nat.le_succ_of_le space)]
    cases readValue (text.length + 1) (skipSpace text) with
    | none => split <;> rfl
    | some result =>
      simp only [carry, Option.map_some, Option.bind_some]
      rw [skipSpace_append]
      by_cases isLast : skipSpace result.2 = []
      · rw [if_pos isLast, isLast, List.isEmpty_nil, if_pos rfl]
        by_cases isSpaces : behind.all isSpace = true
        · rw [skipSpace_eq_nil.mpr isSpaces, if_pos isSpaces]
          rfl
        · rw [if_neg isSpaces, if_neg fun empty => isSpaces (skipSpace_eq_nil.mp (List.isEmpty_iff.mp empty))]
      · have filled : ¬ (skipSpace result.2 ++ behind).isEmpty = true :=
          fun empty => isLast (List.append_eq_nil_iff.mp (List.isEmpty_iff.mp empty)).1
        rw [if_neg isLast, if_neg filled, if_neg fun empty => isLast (List.isEmpty_iff.mp empty)]
        split <;> rfl

theorem parse_space_front {before : List Char} (isSpaces : before.all isSpace = true) (text : List Char) : parse (before ++ text) = parse text := by
  have same : skipSpace (before ++ text) = skipSpace text := by
    rw [skipSpace_append, if_pos (skipSpace_eq_nil.mpr isSpaces)]
  have space := length_skipSpace text
  have enough : (skipSpace text).length ≤ (before ++ text).length + 1 := by
    rw [List.length_append]
    omega
  rw [parse_eq, parse_eq, same, readValue_fuel enough (Nat.le_succ_of_le space)]

/-- A text between quiet characters is read as it is when these are space, and not at all otherwise. -/
theorem parse_between {before behind : List Char} (quietBefore : forall char, char ∈ before -> quiet char = true)
    (quietBehind : forall char, char ∈ behind -> quiet char = true) (text : List Char) :
    parse (before ++ text ++ behind) = if before.all isSpace && behind.all isSpace then parse text else none := by
  cases isSpaces : before.all isSpace with
  | true => rw [List.append_assoc, parse_space_front isSpaces, parse_quiet_behind quietBehind, Bool.true_and]
  | false =>
    rw [List.append_assoc, parse_quiet_front quietBefore isSpaces]
    rfl

theorem plainValue_ne_object {entries : List (List Char × Json)} :
    plainValue text ≠ some (.object entries, rest) := by
  intro isRead
  unfold plainValue at isRead
  split at isRead
  · cases isRead
  · cases isRead
  · cases isRead
  · obtain ⟨result, _, same⟩ := Option.map_eq_some_iff.mp isRead
    cases same

theorem parse_object {entries : List (List Char × Json)} (isObject : parse text = some (.object entries)) :
    Exists fun inner => Exists fun rest => skipSpace text = '\x7b' :: (inner ++ '\x7d' :: rest) ∧ skipSpace rest = [] := by
  rw [parse_eq] at isObject
  obtain ⟨⟨value, rest⟩, isRead, isObject⟩ := Option.bind_eq_some_iff.mp isObject
  simp only at isObject
  split at isObject
  · rename_i isEnd
    cases isObject
    rcases value_begins (skipSpace text) with ⟨more, isText⟩ | ⟨more, isText⟩ | ⟨more, isText⟩ | plain
    · rw [isText, readValue_string] at isRead
      obtain ⟨result, _, same⟩ := Option.map_eq_some_iff.mp isRead
      cases same
    · rw [isText, readValue_array] at isRead
      unfold arrayRest at isRead
      split at isRead
      · cases isRead
      · obtain ⟨result, _, same⟩ := Option.map_eq_some_iff.mp isRead
        cases same
    · rw [isText, readValue_object] at isRead
      obtain ⟨_, rfl, isLast⟩ := (objectRest_sparing (sparing_readers _).2.2 isRead).1
      obtain ⟨inner, isInner⟩ := isLast.trans (suffix_skipSpace more)
      exact ⟨inner, rest, by rw [isText, isInner], List.isEmpty_iff.mp isEnd⟩
    · rw [readValue_plain plain] at isRead
      exact absurd isRead plainValue_ne_object
  · cases isObject

theorem object_of_brace {more : List Char} (isRead : parse ('\x7b' :: more) = some value) :
    Exists fun entries => value = .object entries := by
  rw [parse_eq, show skipSpace ('\x7b' :: more) = '\x7b' :: more from rfl, readValue_object] at isRead
  obtain ⟨⟨found, rest⟩, isFound, isRead⟩ := Option.bind_eq_some_iff.mp isRead
  simp only at isRead
  split at isRead
  · cases isRead
    unfold objectRest at isFound
    split at isFound
    · cases isFound
      exact ⟨[], rfl⟩
    · obtain ⟨result, _, same⟩ := Option.map_eq_some_iff.mp isFound
      cases same
      exact ⟨_, rfl⟩
  · cases isRead

end Json
end Foundation
end Dokploy
