import Mathlib.Data.List.DropRight
import Dokploy.RegistryRetention.Responses

namespace Dokploy
namespace ComposeImages

open RegistryRetention (Text)

/-!
# The name of a repository

A built service is pushed to a repository that is named after the app and the
service.  The name is made of small letters, digits and single separators, so
several names become the same: `sanitizeImageRepoName_eq_iff` says which.
-/

/-- A letter in its small form.  Of the letters outside ASCII two become an ASCII letter; the others
become none and are replaced, whatever they become. -/
def lowerChar (char : Char) : Text :=
  if char.toNat = 0x212A then ['k']
  else if char.toNat = 0x130 then ['i', Char.ofNat 0x307]
  else [char.toLower]

def toLowerCase (text : Text) : Text := text.flatMap lowerChar

def isWordChar (char : Char) : Bool := ('a' ≤ char && char ≤ 'z') || ('0' ≤ char && char ≤ '9')

def isSeparator (char : Char) : Bool := char == '.' || char == '_' || char == '-'

def isReplaced (char : Char) : Bool := !(isWordChar char || isSeparator char)

/-- What a run becomes that no further character belongs to. -/
def closeRun (least : Nat) (run : Text) : Text := if least ≤ run.length then ['-'] else run

/-- Every run of such characters that is long enough becomes one dash; `run` is the run that was just read. -/
def replaceRuns (test : Char -> Bool) (least : Nat) (run : Text) : Text -> Text
  | [] => closeRun least run
  | char :: rest =>
      if test char then replaceRuns test least (run ++ [char]) rest
      else closeRun least run ++ char :: replaceRuns test least [] rest

def sanitizeImageRepoName (name : Text) : Text :=
  let replaced := replaceRuns isReplaced 1 [] (toLowerCase name)
  let collapsed := replaceRuns isSeparator 2 [] replaced
  (collapsed.dropWhile isSeparator).rdropWhile isSeparator

def getBuiltImageRepoName (appName service : Text) : Text := sanitizeImageRepoName (appName ++ '-' :: service)

/-- A letter or digit of a word, or what joins two words. -/
inductive Sound where
  | letter (char : Char)
  | joint (char : Char)
  deriving DecidableEq, Repr

def Sound.char : Sound -> Char
  | .letter char | .joint char => char

/-- What was read since the last word: nothing is a gap before the first word. -/
inductive Gap where
  | outside
  | none
  | single (char : Char)
  | several
  deriving DecidableEq, Repr

def Gap.add : Gap -> Char -> Gap
  | .outside, _ => .outside
  | .none, char => .single char
  | .single _, _ => .several
  | .several, _ => .several

/-- Two words are joined by a separator that stands alone, and by a dash otherwise. -/
def Gap.sounds : Gap -> List Sound
  | .outside => []
  | .none => []
  | .single char => [.joint (if isSeparator char then char else '-')]
  | .several => [.joint '-']

/-- The words of a text in small letters and what joins them. -/
def sounds : Gap -> Text -> List Sound
  | _, [] => []
  | gap, char :: rest =>
      if isWordChar char then gap.sounds ++ .letter char :: sounds .none rest else sounds (gap.add char) rest

/-- Two names have the same words, but for the case of their letters, and the same joints. -/
def Alike (first second : Text) : Prop :=
  sounds .outside (toLowerCase first) = sounds .outside (toLowerCase second)

instance (first second : Text) : Decidable (Alike first second) :=
  inferInstanceAs (Decidable (_ = _))

def Gap.text (gap : Gap) : Text := gap.sounds.map Sound.char

/-- The text with its gaps made short, at both of its ends as well. -/
def squeezed : Gap -> Text -> Text
  | gap, [] => gap.text
  | gap, char :: rest => if isWordChar char then gap.text ++ char :: squeezed .none rest else squeezed (gap.add char) rest

variable {gap : Gap} {char : Char}

theorem isSeparator_of_mem_text (member : char ∈ gap.text) : isSeparator char = true := by
  cases gap with
  | outside => cases member
  | none => cases member
  | single single =>
      have same : char = if isSeparator single then single else '-' := List.mem_singleton.mp member
      rw [same]
      split
      · assumption
      · rfl
  | several =>
      have same : char = '-' := List.mem_singleton.mp member
      rw [same]
      rfl

theorem not_isSeparator (word : isWordChar char = true) : isSeparator char = false := by
  cases separates : isSeparator char with
  | false => rfl
  | true =>
      have cases : char = '.' ∨ char = '_' ∨ char = '-' := by simpa [isSeparator, or_assoc] using separates
      rcases cases with dot | underscore | dash
      · rw [dot] at word; exact absurd word (by decide)
      · rw [underscore] at word; exact absurd word (by decide)
      · rw [dash] at word; exact absurd word (by decide)

/-- What the two replacements have read of a gap: what the second one holds, and what the first one holds. -/
def Gap.Holds (passed blocked : Text) : Gap -> Prop
  | .outside => False
  | .none => passed = [] ∧ blocked = []
  | .single char => (isSeparator char = true ∧ passed = [char] ∧ blocked = []) ∨
      (isSeparator char = false ∧ passed = [] ∧ blocked = [char])
  | .several => 2 ≤ passed.length + blocked.length

theorem closeRun_empty (least : Nat) : closeRun (least + 1) [] = [] := rfl

theorem closeRun_one {run : Text} (some : run ≠ []) : closeRun 1 run = ['-'] :=
  if_pos (List.length_pos_iff.mpr some)

theorem Gap.Holds.closes {passed blocked : Text} (holds : gap.Holds passed blocked) :
    closeRun 2 (passed ++ closeRun 1 blocked) = gap.text := by
  cases gap with
  | outside => exact holds.elim
  | none =>
      rw [holds.1, holds.2]
      rfl
  | single char =>
      rcases holds with ⟨separates, isPassed, isBlocked⟩ | ⟨replaced, isPassed, isBlocked⟩
      · rw [isPassed, isBlocked, Gap.text, Gap.sounds, if_pos separates]
        rfl
      · rw [isPassed, isBlocked, Gap.text, Gap.sounds, if_neg (by simp [replaced])]
        rfl
  | several =>
      by_cases empty : blocked = []
      · rw [empty, closeRun_empty, List.append_nil]
        rw [Gap.Holds, empty] at holds
        exact if_pos holds
      · rw [closeRun_one empty]
        cases passed with
        | nil => rfl
        | cons first more => exact if_pos (by simp)

theorem Gap.Holds.pass {passed blocked : Text} (holds : gap.Holds passed blocked)
    (separates : isSeparator char = true) : (gap.add char).Holds (passed ++ closeRun 1 blocked ++ [char]) [] := by
  cases gap with
  | outside => exact holds.elim
  | none =>
      refine Or.inl ⟨separates, ?_, rfl⟩
      rw [holds.1, holds.2]
      rfl
  | single single =>
      rcases holds with ⟨_, isPassed, isBlocked⟩ | ⟨_, isPassed, isBlocked⟩ <;>
        simp [Gap.add, Gap.Holds, isPassed, isBlocked, closeRun]
  | several =>
      by_cases empty : blocked = []
      · rw [Gap.Holds, empty] at holds
        simp only [Gap.add, Gap.Holds, empty, closeRun_empty, List.length_append, List.length_nil] at holds ⊢
        omega
      · simp [Gap.add, Gap.Holds, closeRun_one empty]

theorem Gap.Holds.block {passed blocked : Text} (holds : gap.Holds passed blocked)
    (replaced : isSeparator char = false) : (gap.add char).Holds passed (blocked ++ [char]) := by
  cases gap with
  | outside => exact holds.elim
  | none =>
      refine Or.inr ⟨replaced, holds.1, ?_⟩
      rw [holds.2, List.nil_append]
  | single single =>
      rcases holds with ⟨_, isPassed, isBlocked⟩ | ⟨_, isPassed, isBlocked⟩ <;>
        simp [Gap.add, Gap.Holds, isPassed, isBlocked]
  | several =>
      simp only [Gap.add, Gap.Holds, List.length_append, List.length_singleton] at holds ⊢
      omega

theorem replaceRuns_closeRun (passed blocked more : Text) :
    replaceRuns isSeparator 2 passed (closeRun 1 blocked ++ more) =
      replaceRuns isSeparator 2 (passed ++ closeRun 1 blocked) more := by
  by_cases empty : blocked = []
  · rw [empty, closeRun_empty, List.nil_append, List.append_nil]
  · rw [closeRun_one empty]
    rfl

/-- The two replacements together: the induction is on what is still to read, with what both of them hold. -/
theorem replaceRuns_replaceRuns (text : Text) {passed blocked : Text}
    (holds : gap.Holds passed blocked) :
    replaceRuns isSeparator 2 passed (replaceRuns isReplaced 1 blocked text) = squeezed gap text := by
  induction text generalizing passed blocked gap with
  | nil =>
      have closed := replaceRuns_closeRun passed blocked []
      rw [List.append_nil] at closed
      rw [replaceRuns, closed]
      exact holds.closes
  | cons char rest ih =>
      by_cases word : isWordChar char = true
      · have stays : isReplaced char = false := by simp [isReplaced, word]
        have next : Gap.none.Holds [] [] := ⟨rfl, rfl⟩
        rw [replaceRuns, if_neg (by simp [stays]), replaceRuns_closeRun, replaceRuns,
          if_neg (by simp [not_isSeparator word]), ih next, holds.closes, squeezed, if_pos word]
      · rw [squeezed, if_neg word]
        by_cases separates : isSeparator char = true
        · have stays : isReplaced char = false := by simp [isReplaced, separates]
          rw [replaceRuns, if_neg (by simp [stays]), replaceRuns_closeRun, replaceRuns, if_pos separates]
          exact ih (holds.pass separates)
        · have replaced : isReplaced char = true := by simp [isReplaced, word, separates]
          rw [replaceRuns, if_pos replaced]
          exact ih (holds.block (Bool.eq_false_iff.mpr separates))

theorem dropWhile_text (gap : Gap) (more : Text) :
    (gap.text ++ more).dropWhile isSeparator = more.dropWhile isSeparator := by
  rw [List.dropWhile_append_of_pos fun char member => isSeparator_of_mem_text member]

theorem dropWhile_squeezed (text : Text) (gap : Gap) :
    (squeezed gap text).dropWhile isSeparator = squeezed .outside text := by
  induction text generalizing gap with
  | nil =>
      have dropped := dropWhile_text gap []
      rw [List.append_nil] at dropped
      exact dropped
  | cons char rest ih =>
      rw [squeezed, squeezed]
      by_cases word : isWordChar char = true
      · rw [if_pos word, if_pos word, dropWhile_text, List.dropWhile_cons_of_neg (by simp [not_isSeparator word])]
        rfl
      · rw [if_neg word, if_neg word]
        exact ih _

theorem rdropWhile_behind {test : Char -> Bool} (stays : test char = false) (front rest : Text) :
    (front ++ char :: rest).rdropWhile test = front ++ char :: rest.rdropWhile test := by
  induction rest using List.reverseRecOn with
  | nil => rw [List.rdropWhile_concat_neg _ _ _ (by simp [stays]), List.rdropWhile_nil]
  | append_singleton rest last ih =>
      have grouped : front ++ char :: (rest ++ [last]) = (front ++ char :: rest) ++ [last] := by simp
      rw [grouped]
      by_cases dropped : test last = true
      · rw [List.rdropWhile_concat_pos _ _ _ dropped, List.rdropWhile_concat_pos _ _ _ dropped]
        exact ih
      · rw [List.rdropWhile_concat_neg _ _ _ dropped, List.rdropWhile_concat_neg _ _ _ dropped]
        exact grouped.symm

theorem rdropWhile_squeezed (text : Text) (gap : Gap) :
    (squeezed gap text).rdropWhile isSeparator = (sounds gap text).map Sound.char := by
  induction text generalizing gap with
  | nil => exact List.rdropWhile_eq_nil_iff.mpr fun char member => isSeparator_of_mem_text member
  | cons char rest ih =>
      rw [squeezed, sounds]
      by_cases word : isWordChar char = true
      · rw [if_pos word, if_pos word, rdropWhile_behind (not_isSeparator word), ih, List.map_append]
        rfl
      · rw [if_neg word, if_neg word]
        exact ih _

theorem sanitizeImageRepoName_eq (name : Text) :
    sanitizeImageRepoName name = (sounds .outside (toLowerCase name)).map Sound.char := by
  have next : Gap.none.Holds [] [] := ⟨rfl, rfl⟩
  rw [sanitizeImageRepoName, replaceRuns_replaceRuns _ next, dropWhile_squeezed, rdropWhile_squeezed]

theorem mem_sounds {text : Text} {sound : Sound} (member : sound ∈ sounds gap text) :
    (isWordChar sound.char = true ∧ sound = .letter sound.char) ∨
      (isSeparator sound.char = true ∧ sound = .joint sound.char) := by
  induction text generalizing gap with
  | nil => cases member
  | cons char rest ih =>
      rw [sounds] at member
      split at member
      · rename_i word
        rcases List.mem_append.mp member with joins | letter
        · have separates := isSeparator_of_mem_text (List.mem_map_of_mem joins)
          refine Or.inr ⟨separates, ?_⟩
          cases gap with
          | outside => cases joins
          | none => cases joins
          | single char =>
              rw [List.mem_singleton.mp joins]
              rfl
          | several =>
              rw [List.mem_singleton.mp joins]
              rfl
        · rcases List.mem_cons.mp letter with here | later
          · rw [here]
            exact Or.inl ⟨word, rfl⟩
          · exact ih later
      · exact ih member

/-- What a character of a repository name sounds like. -/
def soundOf (char : Char) : Sound := if isWordChar char then .letter char else .joint char

theorem map_soundOf (text : Text) (gap : Gap) : ((sounds gap text).map Sound.char).map soundOf = sounds gap text := by
  rw [List.map_map]
  refine (List.map_congr_left fun sound member => ?_).trans (List.map_id _)
  rcases mem_sounds member with ⟨word, isLetter⟩ | ⟨separates, isJoint⟩
  · exact (if_pos word).trans isLetter.symm
  · have noWord : ¬ isWordChar sound.char = true := fun word => by
      rw [not_isSeparator word] at separates
      cases separates
    exact (if_neg noWord).trans isJoint.symm

theorem sanitizeImageRepoName_eq_iff (first second : Text) :
    sanitizeImageRepoName first = sanitizeImageRepoName second <-> Alike first second := by
  rw [sanitizeImageRepoName_eq, sanitizeImageRepoName_eq, Alike]
  constructor
  · intro same
    rw [← map_soundOf, same, map_soundOf]
  · intro same
    rw [same]

/-- What was read since the last word, after more of the text. -/
def Gap.after : Gap -> Text -> Gap
  | gap, [] => gap
  | gap, char :: rest => if isWordChar char then Gap.none.after rest else (gap.add char).after rest

theorem sounds_append (front back : Text) (gap : Gap) :
    sounds gap (front ++ back) = sounds gap front ++ sounds (gap.after front) back := by
  induction front generalizing gap with
  | nil => rfl
  | cons char rest ih =>
      rw [List.cons_append, sounds, sounds, Gap.after]
      by_cases word : isWordChar char = true
      · rw [if_pos word, if_pos word, if_pos word, ih, List.append_assoc, List.cons_append]
      · rw [if_neg word, if_neg word, if_neg word, ih]

theorem sounds_several (text : Text) :
    sounds .several text = if sounds .outside text = [] then [] else .joint '-' :: sounds .outside text := by
  induction text with
  | nil => rfl
  | cons char rest ih =>
      rw [sounds, sounds]
      by_cases word : isWordChar char = true
      · rw [if_pos word, if_pos word]
        rfl
      · rw [if_neg word, if_neg word]
        exact ih

theorem sounds_dash (text : Text) : sounds (.single '-') text = sounds .several text := by
  cases text with
  | nil => rfl
  | cons char rest => rfl

theorem alike_behind (front first second : Text) :
    Alike (front ++ '-' :: first) (front ++ '-' :: second) <-> Alike first second := by
  have parts (text : Text) : toLowerCase (front ++ '-' :: text) = toLowerCase front ++ '-' :: toLowerCase text :=
    List.flatMap_append
  have dash (gap : Gap) (text : Text) : sounds gap ('-' :: text) = sounds (gap.add '-') text := rfl
  rw [Alike, Alike, parts, parts, sounds_append, sounds_append, List.append_cancel_left_eq, dash, dash]
  have joined (left right : List Sound) :
      (if left = [] then [] else .joint '-' :: left) = (if right = [] then [] else .joint '-' :: right) <->
        left = right := by
    cases left <;> cases right <;> simp
  cases Gap.outside.after (toLowerCase front) with
  | outside => exact Iff.rfl
  | none => rw [Gap.add, sounds_dash, sounds_dash, sounds_several, sounds_several, joined]
  | single char => rw [Gap.add, sounds_several, sounds_several, joined]
  | several => rw [Gap.add, sounds_several, sounds_several, joined]

end ComposeImages
end Dokploy
