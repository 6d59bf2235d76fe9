import Dokploy.Foundation.Json
import Dokploy.Foundation.Unicode

namespace Dokploy
namespace Foundation

/-!
# Texts written as JSON

A text is written between quotes, with an escape for every unit that may not
stand there as it is.  A surrogate that stands alone is escaped as well, so the
result consists of whole characters and is written as bytes without loss.

A written text is read back from its front.  Texts that are written one after
the other are therefore told apart whatever they contain.
-/

namespace Stringify

open Unicode

/-- One unit by its number, with four digits. -/
def numbered (unit : UInt16) : List Char :=
  ['\\', 'u', Nat.digitChar (unit.toNat / 4096), Nat.digitChar (unit.toNat / 256 % 16),
    Nat.digitChar (unit.toNat / 16 % 16), Nat.digitChar (unit.toNat % 16)]

def escapeUnit (unit : UInt16) : List Char :=
  if unit = 0x22 then ['\\', '"']
  else if unit = 0x5C then ['\\', '\\']
  else if unit = 0x08 then ['\\', 'b']
  else if unit = 0x09 then ['\\', 't']
  else if unit = 0x0A then ['\\', 'n']
  else if unit = 0x0C then ['\\', 'f']
  else if unit = 0x0D then ['\\', 'r']
  else if unit.toNat < 0x20 || isLead unit || isTrail unit then numbered unit
  else [Char.ofNat unit.toNat]

def escape : Units -> List Char
  | [] => []
  | [unit] => escapeUnit unit
  | first :: second :: rest =>
      if isLead first && isTrail second then pair first second :: escape rest
      else escapeUnit first ++ escape (second :: rest)

def quote (text : Units) : List Char := '"' :: (escape text ++ ['"'])

/-- JSON.stringify of an array, from the texts of its items. -/
def array (items : List (List Char)) : List Char := '[' :: ([','].intercalate items ++ [']'])

def escapedUnit : Char -> Option UInt16
  | '"' => some 0x22
  | '\\' => some 0x5C
  | 'b' => some 0x08
  | 't' => some 0x09
  | 'n' => some 0x0A
  | 'f' => some 0x0C
  | 'r' => some 0x0D
  | _ => none

def numberedUnit (first second third fourth : Char) : Option UInt16 := do
  let first <- Json.hexValue first
  let second <- Json.hexValue second
  let third <- Json.hexValue third
  let fourth <- Json.hexValue fourth
  some (UInt16.ofNat (((first * 16 + second) * 16 + third) * 16 + fourth))

/-- Put units before a text that has been read. -/
def prepend (units : Units) (read : Option (Units × List Char)) : Option (Units × List Char) :=
  read.map fun result => (units ++ result.1, result.2)

/-- The units up to the closing quote, and what follows it. -/
def read : List Char -> Option (Units × List Char)
  | [] => none
  | '"' :: rest => some ([], rest)
  | '\\' :: 'u' :: first :: second :: third :: fourth :: rest =>
      (numberedUnit first second third fourth).bind fun unit => prepend [unit] (read rest)
  | '\\' :: mark :: rest => (escapedUnit mark).bind fun unit => prepend [unit] (read rest)
  | char :: rest => prepend (utf16Char char) (read rest)

theorem hexValue_digitChar : forall digit, digit < 16 -> Json.hexValue (Nat.digitChar digit) = some digit := by
  decide

theorem numberedUnit_numbered (unit : UInt16) :
    numberedUnit (Nat.digitChar (unit.toNat / 4096)) (Nat.digitChar (unit.toNat / 256 % 16))
      (Nat.digitChar (unit.toNat / 16 % 16)) (Nat.digitChar (unit.toNat % 16)) = some unit := by
  have bound : unit.toNat < 65536 := unit.toNat_lt
  have value : ((unit.toNat / 4096 * 16 + unit.toNat / 256 % 16) * 16 + unit.toNat / 16 % 16) * 16 +
      unit.toNat % 16 = unit.toNat := by omega
  simp only [numberedUnit, hexValue_digitChar _ (show unit.toNat / 4096 < 16 by omega),
    hexValue_digitChar _ (show unit.toNat / 256 % 16 < 16 by omega),
    hexValue_digitChar _ (show unit.toNat / 16 % 16 < 16 by omega),
    hexValue_digitChar _ (show unit.toNat % 16 < 16 by omega), Option.bind_eq_bind, Option.bind_some, value,
    UInt16.ofNat_toNat]

theorem read_plain {char : Char} (noQuote : char ≠ '"') (noBackslash : char ≠ '\\') (rest : List Char) :
    read (char :: rest) = prepend (utf16Char char) (read rest) := by
  rw [read.eq_def]
  split
  · rename_i empty
    cases empty
  · rename_i same
    exact absurd (List.cons.inj same).1 noQuote
  · rename_i same
    exact absurd (List.cons.inj same).1 noBackslash
  · rename_i same
    exact absurd (List.cons.inj same).1 noBackslash
  · rename_i same
    rw [(List.cons.inj same).1, (List.cons.inj same).2]

theorem utf16Char_single {unit : UInt16} (notLead : isLead unit = false) (notTrail : isTrail unit = false) :
    (Char.ofNat unit.toNat).toNat = unit.toNat ∧ utf16Char (Char.ofNat unit.toNat) = [unit] := by
  have bound : unit.toNat < 65536 := unit.toNat_lt
  have below := of_decide_eq_false notLead
  have above := of_decide_eq_false notTrail
  have valid : unit.toNat.isValidChar := by
    unfold Nat.isValidChar
    omega
  have value : (Char.ofNat unit.toNat).toNat = unit.toNat := toNat_ofNat valid
  refine ⟨value, ?_⟩
  rw [utf16Char, value, if_pos bound, UInt16.ofNat_toNat]

theorem utf16Char_pair {lead trail : UInt16} (leads : isLead lead = true) (trails : isTrail trail = true) :
    0x10000 ≤ (pair lead trail).toNat ∧ utf16Char (pair lead trail) = [lead, trail] := by
  have first := of_decide_eq_true leads
  have second := of_decide_eq_true trails
  have valid : (0x10000 + (lead.toNat - 0xD800) * 0x400 + (trail.toNat - 0xDC00)).isValidChar := by
    unfold Nat.isValidChar
    omega
  have value : (pair lead trail).toNat = 0x10000 + (lead.toNat - 0xD800) * 0x400 + (trail.toNat - 0xDC00) :=
    toNat_ofNat valid
  have high : 0xD800 + ((pair lead trail).toNat - 0x10000) / 0x400 = lead.toNat := by omega
  have low : 0xDC00 + ((pair lead trail).toNat - 0x10000) % 0x400 = trail.toNat := by omega
  refine ⟨by omega, ?_⟩
  rw [utf16Char, if_neg (by omega), high, low, UInt16.ofNat_toNat, UInt16.ofNat_toNat]

theorem read_escapeUnit (unit : UInt16) (rest : List Char) :
    read (escapeUnit unit ++ rest) = prepend [unit] (read rest) := by
  unfold escapeUnit
  split_ifs with quote backslash backspace tab newline feed carriage odd
  · rw [quote]; rfl
  · rw [backslash]; rfl
  · rw [backspace]; rfl
  · rw [tab]; rfl
  · rw [newline]; rfl
  · rw [feed]; rfl
  · rw [carriage]; rfl
  · have found := numberedUnit_numbered unit
    change (numberedUnit _ _ _ _).bind _ = _
    rw [found]
    rfl
  · have plain : isLead unit = false ∧ isTrail unit = false := by
      simp only [Bool.or_eq_true, not_or, Bool.not_eq_true] at odd
      exact ⟨odd.1.2, odd.2⟩
    have units := utf16Char_single plain.1 plain.2
    have other : forall char : Char, char.toNat ≠ unit.toNat -> Char.ofNat unit.toNat ≠ char := by
      rintro char different rfl
      exact different units.1
    have noQuote : Char.ofNat unit.toNat ≠ '"' := other _ fun same => quote (UInt16.toNat_inj.mp same.symm)
    have noBackslash : Char.ofNat unit.toNat ≠ '\\' := other _ fun same => backslash (UInt16.toNat_inj.mp same.symm)
    rw [List.singleton_append, read_plain noQuote noBackslash, units.2]

theorem read_escape (text : Units) (rest : List Char) :
    read (escape text ++ '"' :: rest) = some (text, rest) := by
  induction text using escape.induct with
  | case1 => rfl
  | case2 unit => rw [escape, read_escapeUnit, read]; rfl
  | case3 first second more isPair ih =>
      have pairs := Bool.and_eq_true_iff.mp isPair
      have units := utf16Char_pair pairs.1 pairs.2
      have large : forall char : Char, char.toNat < 0x10000 -> pair first second ≠ char := by
        rintro char small rfl
        omega
      rw [escape, if_pos isPair, List.cons_append, read_plain (large _ (by decide)) (large _ (by decide)),
        ih, units.2]
      rfl
  | case4 first second more notPair ih =>
      rw [escape, if_neg notPair, List.append_assoc, read_escapeUnit, ih]
      rfl

theorem quote_append_inj {first second : Units} {rest other : List Char}
    (same : quote first ++ rest = quote second ++ other) : first = second ∧ rest = other := by
  have bodies : escape first ++ '"' :: rest = escape second ++ '"' :: other := by
    simpa only [quote, List.cons_append, List.append_assoc, List.nil_append, List.cons.injEq, true_and] using same
  have results := (read_escape first rest).symm.trans ((congrArg read bodies).trans (read_escape second other))
  exact Prod.mk.inj (Option.some.inj results)

end Stringify
end Foundation
end Dokploy
