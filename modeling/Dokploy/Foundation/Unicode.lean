import Mathlib.Data.List.Basic

namespace Dokploy
namespace Foundation

/-!
# Texts as code units and as bytes

A text of the language is a list of UTF-16 code units, in which a surrogate may
stand alone.  Bytes are written and read as UTF-8: a lone surrogate is written
as the replacement character, and bytes that are no UTF-8 are read as one, once
for each longest beginning of a character.  A text of whole characters comes
through both ways unchanged.
-/

/-- A text of the language: its UTF-16 code units. -/
abbrev Units : Type := List UInt16

namespace Unicode

/-- What stands for everything unreadable. -/
def replacement : Char := Char.ofNat 0xFFFD

def utf16Char (char : Char) : Units :=
  if char.toNat < 0x10000 then [UInt16.ofNat char.toNat]
  else
    [UInt16.ofNat (0xD800 + (char.toNat - 0x10000) / 0x400),
      UInt16.ofNat (0xDC00 + (char.toNat - 0x10000) % 0x400)]

/-- The code units of a list of characters. -/
def utf16 (chars : List Char) : Units := chars.flatMap utf16Char

def isLead (unit : UInt16) : Bool := decide (0xD800 ≤ unit.toNat ∧ unit.toNat < 0xDC00)

def isTrail (unit : UInt16) : Bool := decide (0xDC00 ≤ unit.toNat ∧ unit.toNat < 0xE000)

/-- The character of a unit that is not half of a pair. -/
def single (unit : UInt16) : Char :=
  if isLead unit || isTrail unit then replacement else Char.ofNat unit.toNat

def pair (lead trail : UInt16) : Char :=
  Char.ofNat (0x10000 + (lead.toNat - 0xD800) * 0x400 + (trail.toNat - 0xDC00))

/-- The characters of a text; a lone surrogate is replaced. -/
def characters : Units -> List Char
  | [] => []
  | [unit] => [single unit]
  | first :: second :: rest =>
      if isLead first && isTrail second then pair first second :: characters rest
      else single first :: characters (second :: rest)

theorem characters_cons {unit : UInt16} (notLead : isLead unit = false) (rest : Units) :
    characters (unit :: rest) = single unit :: characters rest := by
  cases rest with
  | nil => rfl
  | cons second rest => simp only [characters, notLead, Bool.false_and, Bool.false_eq_true, if_false]

theorem toNat_ofNat {value : Nat} (valid : value.isValidChar) : (Char.ofNat value).toNat = value := by
  rw [Char.ofNat, dif_pos valid]
  rfl

theorem char_bounds (char : Char) : char.toNat < 0xD800 ∨ 0xDFFF < char.toNat ∧ char.toNat < 0x110000 :=
  char.valid

theorem characters_utf16Char (char : Char) (rest : Units) :
    characters (utf16Char char ++ rest) = char :: characters rest := by
  have bounds := char_bounds char
  unfold utf16Char
  split
  · rename_i small
    have value : (UInt16.ofNat char.toNat).toNat = char.toNat := by
      rw [UInt16.toNat_ofNat']
      omega
    have notLead : isLead (UInt16.ofNat char.toNat) = false := by
      rw [isLead, value]
      exact decide_eq_false (by omega)
    have notTrail : isTrail (UInt16.ofNat char.toNat) = false := by
      rw [isTrail, value]
      exact decide_eq_false (by omega)
    rw [List.singleton_append, characters_cons notLead, single, notLead, notTrail, value]
    exact congrArg (· :: _) char.ofNat_toNat
  · rename_i large
    have high : (UInt16.ofNat (0xD800 + (char.toNat - 0x10000) / 0x400)).toNat =
        0xD800 + (char.toNat - 0x10000) / 0x400 := by
      rw [UInt16.toNat_ofNat']
      omega
    have low : (UInt16.ofNat (0xDC00 + (char.toNat - 0x10000) % 0x400)).toNat =
        0xDC00 + (char.toNat - 0x10000) % 0x400 := by
      rw [UInt16.toNat_ofNat']
      omega
    have lead : isLead (UInt16.ofNat (0xD800 + (char.toNat - 0x10000) / 0x400)) = true := by
      rw [isLead, high]
      exact decide_eq_true (by omega)
    have trail : isTrail (UInt16.ofNat (0xDC00 + (char.toNat - 0x10000) % 0x400)) = true := by
      rw [isTrail, low]
      exact decide_eq_true (by omega)
    have value : 0x10000 + (0xD800 + (char.toNat - 0x10000) / 0x400 - 0xD800) * 0x400 +
        (0xDC00 + (char.toNat - 0x10000) % 0x400 - 0xDC00) = char.toNat := by omega
    simp only [List.cons_append, List.nil_append, characters, lead, trail, Bool.and_self, if_true, pair, high, low,
      value, Char.ofNat_toNat]

theorem characters_utf16_append (chars : List Char) (rest : Units) :
    characters (utf16 chars ++ rest) = chars ++ characters rest := by
  induction chars with
  | nil => rfl
  | cons char chars ih =>
      rw [utf16, List.flatMap_cons, List.append_assoc, characters_utf16Char, List.cons_append,
        ← ih]
      rfl

theorem characters_utf16 (chars : List Char) : characters (utf16 chars) = chars := by
  have read := characters_utf16_append chars []
  rwa [List.append_nil, characters, List.append_nil] at read

/-- A text that is cut, but not inside a pair. -/
def Apart (front rest : Units) : Prop :=
  forall lead, lead ∈ front.getLast? -> forall trail, trail ∈ rest.head? -> (isLead lead && isTrail trail) = false

theorem characters_append {front rest : Units} (apart : Apart front rest) :
    characters (front ++ rest) = characters front ++ characters rest := by
  induction front using characters.induct with
  | case1 => rfl
  | case2 unit =>
      cases rest with
      | nil => simp [characters]
      | cons second rest =>
          have whole := apart unit rfl second rfl
          simp [characters, whole]
  | case3 first second front isPair ih =>
      have later : Apart front rest := by
        intro lead isLast
        cases front with
        | nil => exact absurd isLast (by simp)
        | cons third front => exact apart lead (by simpa using isLast)
      simp only [List.cons_append, characters, isPair, if_true, ih later]
  | case4 first second front single ih =>
      have later : Apart (second :: front) rest := fun lead isLast => apart lead (by simpa using isLast)
      rw [List.cons_append] at ih
      simp only [List.cons_append, characters, single, Bool.false_eq_true, if_false, ih later]

theorem isLead_of_isTrail {unit : UInt16} (trails : isTrail unit = true) : isLead unit = false := by
  simp only [isTrail, decide_eq_true_eq] at trails
  simp only [isLead, decide_eq_false_iff_not]
  omega

theorem isTrail_of_isLead {unit : UInt16} (leads : isLead unit = true) : isTrail unit = false := by
  simp only [isLead, decide_eq_true_eq] at leads
  simp only [isTrail, decide_eq_false_iff_not]
  omega

section Pairs

variable {lead trail : UInt16} (leads : isLead lead = true) (trails : isTrail trail = true) (front rest : Units)

include leads

theorem characters_lead : characters (front ++ [lead]) = characters front ++ [replacement] := by
  rw [characters_append]
  · simp [characters, single, leads]
  · intro last _ next isNext
    rw [← Option.some.inj isNext, isTrail_of_isLead leads, Bool.and_false]

include trails

theorem characters_pair : characters (front ++ lead :: trail :: rest) = characters front ++ pair lead trail :: characters rest := by
  rw [characters_append]
  · simp [characters, leads, trails]
  · intro last _ next isNext
    rw [← Option.some.inj isNext, isTrail_of_isLead leads, Bool.and_false]

end Pairs

def utf8 (chars : List Char) : List UInt8 := chars.flatMap String.utf8EncodeChar

theorem utf8_append (first second : List Char) : utf8 (first ++ second) = utf8 first ++ utf8 second := List.flatMap_append

/-- How a text is written: Buffer.from(text, "utf8"). -/
def encode (text : Units) : List UInt8 := utf8 (characters text)

theorem encode_utf16 (chars : List Char) : encode (utf16 chars) = utf8 chars := by
  rw [encode, characters_utf16]

theorem encode_append {front rest : Units} (apart : Apart front rest) : encode (front ++ rest) = encode front ++ encode rest := by
  rw [encode, characters_append apart, utf8_append]
  rfl

theorem length_pair {lead trail : UInt16} (leads : isLead lead = true) (trails : isTrail trail = true) :
    (String.utf8EncodeChar (pair lead trail)).length = 4 := by
  simp only [isLead, isTrail, decide_eq_true_eq] at leads trails
  have value : (pair lead trail).val.toNat = 0x10000 + (lead.toNat - 0xD800) * 0x400 + (trail.toNat - 0xDC00) :=
    toNat_ofNat (Or.inr ⟨by omega, by omega⟩)
  simp only [String.utf8EncodeChar, value]
  rw [if_neg (by omega), if_neg (by omega), if_neg (by omega)]
  rfl

theorem encode_length (front rest : Units) :
    (encode front ++ encode rest).length = (encode (front ++ rest)).length ∧ Apart front rest ∨
      (encode front ++ encode rest).length = (encode (front ++ rest)).length + 2 ∧ ¬ Apart front rest := by
  by_cases apart : Apart front rest
  · exact Or.inl ⟨by rw [encode_append apart], apart⟩
  · refine Or.inr ⟨?_, apart⟩
    have split : Exists fun lead => lead ∈ front.getLast? ∧ Exists fun trail => trail ∈ rest.head? ∧
        (isLead lead && isTrail trail) = true := by
      simpa [Apart] using apart
    rcases split with ⟨lead, isLast, trail, isFirst, isPair⟩
    rcases Bool.and_eq_true_iff.mp isPair with ⟨leads, trails⟩
    rcases List.getLast?_eq_some_iff.mp isLast with ⟨front, rfl⟩
    rcases List.head?_eq_some_iff.mp isFirst with ⟨rest, rfl⟩
    have whole := characters_pair leads trails front rest
    have half : characters (trail :: rest) = replacement :: characters rest := by
      rw [characters_cons (isLead_of_isTrail trails), single, trails, Bool.or_true, if_pos rfl]
    have replaced : (String.utf8EncodeChar replacement).length = 3 := by decide
    have paired := length_pair leads trails
    rw [List.append_assoc, List.singleton_append, encode, encode, encode, whole, half, characters_lead leads]
    simp only [utf8, List.flatMap_append, List.flatMap_cons, List.flatMap_nil, List.length_append, replaced, paired,
      List.length_nil]
    omega

/-- A character that has been read in part: how many bytes it still needs, what
they have come to, and between which bounds the next one lies. -/
structure Begun where
  needed : Nat
  value : Nat
  lower : Nat
  upper : Nat

/-- What a byte means at the beginning of a character. -/
def firstByte (byte : UInt8) : List Char × Option Begun :=
  let value := byte.toNat
  if value ≤ 0x7F then ([Char.ofNat value], none)
  else if 0xC2 ≤ value ∧ value ≤ 0xDF then ([], some ⟨1, value % 0x20, 0x80, 0xBF⟩)
  else if 0xE0 ≤ value ∧ value ≤ 0xEF then
    ([], some ⟨2, value % 0x10, if value = 0xE0 then 0xA0 else 0x80, if value = 0xED then 0x9F else 0xBF⟩)
  else if 0xF0 ≤ value ∧ value ≤ 0xF4 then
    ([], some ⟨3, value % 0x08, if value = 0xF0 then 0x90 else 0x80, if value = 0xF4 then 0x8F else 0xBF⟩)
  else ([replacement], none)

/-- Read one byte.  One that does not go on with the character begins a new one. -/
def nextByte (state : Option Begun) (byte : UInt8) : List Char × Option Begun :=
  match state with
  | none => firstByte byte
  | some begun =>
      if byte.toNat < begun.lower ∨ begun.upper < byte.toNat then
        (replacement :: (firstByte byte).1, (firstByte byte).2)
      else if begun.needed = 1 then ([Char.ofNat (begun.value * 0x40 + byte.toNat % 0x40)], none)
      else ([], some ⟨begun.needed - 1, begun.value * 0x40 + byte.toNat % 0x40, 0x80, 0xBF⟩)

def readFrom : Option Begun -> List UInt8 -> List Char
  | none, [] => []
  | some _, [] => [replacement]
  | state, byte :: rest => (nextByte state byte).1 ++ readFrom (nextByte state byte).2 rest

/-- The characters of a list of bytes; what is no UTF-8 is replaced. -/
def read (bytes : List UInt8) : List Char := readFrom none bytes

theorem readFrom_cons (state : Option Begun) (byte : UInt8) (rest : List UInt8) :
    readFrom state (byte :: rest) = (nextByte state byte).1 ++ readFrom (nextByte state byte).2 rest := by
  cases state <;> rfl

variable {byte : UInt8}

theorem nextByte_more {needed value lower upper : Nat} (more : needed ≠ 1)
    (above : lower ≤ byte.toNat) (below : byte.toNat ≤ upper) :
    nextByte (some ⟨needed, value, lower, upper⟩) byte =
      ([], some ⟨needed - 1, value * 0x40 + byte.toNat % 0x40, 0x80, 0xBF⟩) := by
  rw [nextByte, if_neg (not_or.mpr ⟨Nat.not_lt.mpr above, Nat.not_lt.mpr below⟩), if_neg more]

theorem nextByte_last {value lower upper : Nat} (above : lower ≤ byte.toNat)
    (below : byte.toNat ≤ upper) :
    nextByte (some ⟨1, value, lower, upper⟩) byte = ([Char.ofNat (value * 0x40 + byte.toNat % 0x40)], none) := by
  rw [nextByte, if_neg (not_or.mpr ⟨Nat.not_lt.mpr above, Nat.not_lt.mpr below⟩), if_pos rfl]

theorem nextByte_none (byte : UInt8) : nextByte none byte = firstByte byte := rfl

theorem firstByte_two {byte : UInt8} (above : 0xC2 ≤ byte.toNat) (below : byte.toNat ≤ 0xDF) :
    firstByte byte = ([], some ⟨1, byte.toNat % 0x20, 0x80, 0xBF⟩) := by
  rw [firstByte, if_neg (by omega), if_pos ⟨above, below⟩]

theorem firstByte_three {byte : UInt8} (above : 0xE0 ≤ byte.toNat) (below : byte.toNat ≤ 0xEF) :
    firstByte byte = ([], some ⟨2, byte.toNat % 0x10, if byte.toNat = 0xE0 then 0xA0 else 0x80,
      if byte.toNat = 0xED then 0x9F else 0xBF⟩) := by
  rw [firstByte, if_neg (by omega), if_neg (by omega), if_pos ⟨above, below⟩]

theorem firstByte_four {byte : UInt8} (above : 0xF0 ≤ byte.toNat) (below : byte.toNat ≤ 0xF4) :
    firstByte byte = ([], some ⟨3, byte.toNat % 0x08, if byte.toNat = 0xF0 then 0x90 else 0x80,
      if byte.toNat = 0xF4 then 0x8F else 0xBF⟩) := by
  rw [firstByte, if_neg (by omega), if_neg (by omega), if_neg (by omega), if_pos ⟨above, below⟩]

theorem readFrom_utf8EncodeChar (char : Char) (rest : List UInt8) :
    readFrom none (String.utf8EncodeChar char ++ rest) = char :: readFrom none rest := by
  have bounds := char_bounds char
  have size : forall number, number < 0x100 -> (UInt8.ofNat number).toNat = number := fun number small =>
    UInt8.toNat_ofNat_of_lt' small
  have toNat : char.val.toNat = char.toNat := rfl
  simp only [String.utf8EncodeChar, toNat]
  split
  · rename_i one
    have first := size char.toNat (by omega)
    simp only [List.cons_append, List.nil_append, readFrom_cons, nextByte, firstByte, first, if_pos one,
      Char.ofNat_toNat]
  · split
    · rename_i two
      have first := size (char.toNat / 64 % 0x20 + 0xc0) (by omega)
      have second := size (char.toNat % 0x40 + 0x80) (by omega)
      have value : (char.toNat / 64 % 0x20 + 0xc0) % 0x20 * 0x40 + (char.toNat % 0x40 + 0x80) % 0x40 =
          char.toNat := by omega
      have begins := @firstByte_two (UInt8.ofNat (char.toNat / 64 % 0x20 + 0xc0)) (by omega) (by omega)
      simp only [List.cons_append, List.nil_append, readFrom_cons, nextByte_none, begins]
      rw [nextByte_last (by omega) (by omega), first, second, value, Char.ofNat_toNat]
      rfl
    · split
      · rename_i three
        have first := size (char.toNat / 4096 % 0x10 + 0xe0) (by omega)
        have second := size (char.toNat / 64 % 0x40 + 0x80) (by omega)
        have third := size (char.toNat % 0x40 + 0x80) (by omega)
        have value : ((char.toNat / 4096 % 0x10 + 0xe0) % 0x10 * 0x40 +
            (char.toNat / 64 % 0x40 + 0x80) % 0x40) * 0x40 + (char.toNat % 0x40 + 0x80) % 0x40 = char.toNat := by omega
        have begins := @firstByte_three (UInt8.ofNat (char.toNat / 4096 % 0x10 + 0xe0)) (by omega) (by omega)
        simp only [List.cons_append, List.nil_append, readFrom_cons, nextByte_none, begins]
        rw [nextByte_more (by decide) (by split <;> omega) (by split <;> omega), List.nil_append,
          nextByte_last (by omega) (by omega), first, second, third, value, Char.ofNat_toNat]
        rfl
      · rename_i four
        have first := size (char.toNat / 262144 % 0x08 + 0xf0) (by omega)
        have second := size (char.toNat / 4096 % 0x40 + 0x80) (by omega)
        have third := size (char.toNat / 64 % 0x40 + 0x80) (by omega)
        have fourth := size (char.toNat % 0x40 + 0x80) (by omega)
        have value : (((char.toNat / 262144 % 0x08 + 0xf0) % 0x08 * 0x40 +
            (char.toNat / 4096 % 0x40 + 0x80) % 0x40) * 0x40 + (char.toNat / 64 % 0x40 + 0x80) % 0x40) * 0x40 +
              (char.toNat % 0x40 + 0x80) % 0x40 = char.toNat := by omega
        have begins := @firstByte_four (UInt8.ofNat (char.toNat / 262144 % 0x08 + 0xf0)) (by omega) (by omega)
        simp only [List.cons_append, List.nil_append, readFrom_cons, nextByte_none, begins]
        rw [nextByte_more (by decide) (by split <;> omega) (by split <;> omega), List.nil_append,
          nextByte_more (by decide) (by omega) (by omega), List.nil_append,
          nextByte_last (by omega) (by omega), first, second, third, fourth, value, Char.ofNat_toNat]
        rfl

theorem read_utf8 (chars : List Char) : read (utf8 chars) = chars := by
  induction chars with
  | nil => rfl
  | cons char rest ih =>
      rw [read, utf8, List.flatMap_cons, readFrom_utf8EncodeChar]
      exact congrArg _ ih

/-- What has been read of a character is no part of one with a small number. -/
structure Begun.Sound (begun : Begun) : Prop where
  lower : 0x80 ≤ begun.lower
  upper : begun.upper ≤ 0xBF
  last : begun.needed = 1 -> 2 ≤ begun.value
  more : begun.needed ≠ 1 -> 1 ≤ begun.value ∨ 0x90 ≤ begun.lower

theorem firstByte_sound {begun : Begun} (begins : (firstByte byte).2 = some begun) : begun.Sound := by
  unfold firstByte at begins
  simp only at begins
  split at begins
  · cases begins
  · split at begins
    · cases begins
      exact ⟨Nat.le_refl _, Nat.le_refl _, fun _ => by simp only; omega, fun more => absurd rfl more⟩
    · split at begins
      · cases begins
        refine ⟨?_, ?_, fun last => ?_, fun _ => ?_⟩
        · simp only
          split <;> omega
        · simp only
          split <;> omega
        · cases last
        · simp only
          split <;> omega
      · split at begins
        · cases begins
          refine ⟨?_, ?_, fun last => ?_, fun _ => ?_⟩
          · simp only
            split <;> omega
          · simp only
            split <;> omega
          · cases last
          · simp only
            split <;> omega
        · cases begins

variable {state : Option Begun}

theorem nextByte_sound {begun : Begun} (sound : forall begun, state = some begun -> begun.Sound)
    (goes : (nextByte state byte).2 = some begun) : begun.Sound := by
  cases state with
  | none => exact firstByte_sound goes
  | some former =>
    have former_sound := sound former rfl
    unfold nextByte at goes
    simp only at goes
    split at goes
    · exact firstByte_sound goes
    · rename_i inside
      split at goes
      · cases goes
      · rename_i several
        cases goes
        have large := former_sound.more several
        have upper := former_sound.upper
        have lower := former_sound.lower
        refine ⟨Nat.le_refl _, Nat.le_refl _, fun _ => ?_, fun _ => Or.inl ?_⟩
        · simp only
          omega
        · simp only
          omega

theorem char_ofNat_ne_feed {value : Nat} (large : value ≠ 10) : Char.ofNat value ≠ '\n' := by
  intro same
  have number := congrArg Char.toNat same
  by_cases valid : value.isValidChar
  · exact large ((toNat_ofNat valid).symm.trans number)
  · rw [Char.ofNat, dif_neg valid] at number
    exact absurd number (by decide)

theorem firstByte_noFeed (noFeed : byte ≠ 0x0a) : '\n' ∉ (firstByte byte).1 := by
  have number : byte.toNat ≠ 10 := fun same => noFeed (UInt8.toNat_inj.mp same)
  unfold firstByte
  simp only
  split
  · intro among
    exact char_ofNat_ne_feed number (List.mem_singleton.mp among).symm
  · split
    · exact List.not_mem_nil
    · split
      · exact List.not_mem_nil
      · split
        · exact List.not_mem_nil
        · decide

theorem nextByte_noFeed (sound : forall begun, state = some begun -> begun.Sound) (noFeed : byte ≠ 0x0a) :
    '\n' ∉ (nextByte state byte).1 := by
  cases state with
  | none => exact firstByte_noFeed noFeed
  | some begun =>
    unfold nextByte
    simp only
    split
    · exact List.not_mem_cons_of_ne_of_not_mem (by decide) (firstByte_noFeed noFeed)
    · split
      · rename_i isLast
        have large := (sound begun rfl).last isLast
        intro among
        exact char_ofNat_ne_feed (by omega) (List.mem_singleton.mp among).symm
      · exact List.not_mem_nil

theorem readFrom_noFeed (sound : forall begun, state = some begun -> begun.Sound) {bytes : List UInt8}
    (noFeed : 0x0a ∉ bytes) : '\n' ∉ readFrom state bytes := by
  induction bytes generalizing state with
  | nil =>
    cases state with
    | none => exact List.not_mem_nil
    | some begun => exact fun among => absurd (List.mem_singleton.mp among) (by decide)
  | cons byte rest ih =>
    rw [readFrom_cons, List.mem_append, not_or]
    exact ⟨nextByte_noFeed sound fun same => noFeed (same ▸ List.mem_cons_self),
      ih (fun begun goes => nextByte_sound sound goes) fun among => noFeed (List.mem_cons_of_mem byte among)⟩

theorem readFrom_feed (sound : forall begun, state = some begun -> begun.Sound) (front rest : List UInt8) :
    readFrom state (front ++ 0x0a :: rest) = readFrom state front ++ '\n' :: readFrom none rest := by
  induction front generalizing state with
  | nil =>
    rw [List.nil_append, readFrom_cons]
    cases state with
    | none => rfl
    | some begun =>
      have lower := (sound begun rfl).lower
      have outside : nextByte (some begun) 0x0a = ([replacement, '\n'], none) := by
        unfold nextByte
        simp only
        rw [if_pos (Or.inl (by simp; omega))]
        rfl
      rw [outside]
      rfl
  | cons byte front ih =>
    rw [List.cons_append, readFrom_cons, readFrom_cons, ih fun begun goes => nextByte_sound sound goes, List.append_assoc]

theorem splitOn_read (bytes : List UInt8) : (read bytes).splitOn '\n' = (bytes.splitOn 0x0a).map read := by
  have none_sound : forall begun, (none : Option Begun) = some begun -> begun.Sound := fun _ impossible => by cases impossible
  induction size : bytes.length using Nat.strongRecOn generalizing bytes with
  | ind size ih =>
    by_cases isFeed : 0x0a ∈ bytes
    · obtain ⟨front, rest, rfl⟩ := List.append_of_mem isFeed
      rw [List.length_append, List.length_cons] at size
      rw [read, readFrom_feed none_sound, List.splitOn_append_cons_self, List.splitOn_append_cons_self, List.map_append]
      exact congrArg₂ (· ++ ·) (ih front.length (by omega) front rfl) (ih rest.length (by omega) rest rfl)
    · have noFeed : '\n' ∉ read bytes := readFrom_noFeed none_sound isFeed
      rw [List.splitOn_eq_singleton isFeed, List.splitOn_eq_singleton noFeed]
      rfl

end Unicode
end Foundation
end Dokploy
