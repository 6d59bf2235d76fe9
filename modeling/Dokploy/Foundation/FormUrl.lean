import Mathlib.Data.List.TakeWhile
import Dokploy.Foundation.Unicode

namespace Dokploy
namespace Foundation

/-!
# Parameters in a query string

The parameters are written as bytes, every byte of a name or a value either
plainly or by its number, and joined by separators that are never written
plainly.  Reading splits at the separators first and decodes afterwards, so
that whatever the names and values contain comes back.
-/

namespace FormUrl

open Unicode

def AMPERSAND : UInt8 := 0x26

def EQUALS : UInt8 := 0x3D

def PERCENT : UInt8 := 0x25

def PLUS : UInt8 := 0x2B

def SPACE : UInt8 := 0x20

def HASH : UInt8 := 0x23

def isPlain (byte : UInt8) : Bool :=
  (0x30 ≤ byte && byte ≤ 0x39) || (0x41 ≤ byte && byte ≤ 0x5A) || (0x61 ≤ byte && byte ≤ 0x7A) ||
    byte == 0x2A || byte == 0x2D || byte == 0x2E || byte == 0x5F

def hexDigit (digit : Nat) : UInt8 := UInt8.ofNat (if digit < 10 then 0x30 + digit else 0x37 + digit)

def encodeByte (byte : UInt8) : List UInt8 :=
  if byte = SPACE then [PLUS]
  else if isPlain byte then [byte]
  else [PERCENT, hexDigit (byte.toNat / 16), hexDigit (byte.toNat % 16)]

def encode (text : List Char) : List UInt8 := (utf8 text).flatMap encodeByte

def entryBytes (entry : List Char × List Char) : List UInt8 := encode entry.1 ++ EQUALS :: encode entry.2

def serialize (entries : List (List Char × List Char)) : List UInt8 :=
  [AMPERSAND].intercalate (entries.map entryBytes)

def ascii (bytes : List UInt8) : List Char := bytes.map fun byte => Char.ofNat byte.toNat

def hexValue (byte : UInt8) : Option Nat :=
  if 0x30 ≤ byte ∧ byte ≤ 0x39 then some (byte.toNat - 0x30)
  else if 0x41 ≤ byte ∧ byte ≤ 0x46 then some (byte.toNat - 0x37)
  else if 0x61 ≤ byte ∧ byte ≤ 0x66 then some (byte.toNat - 0x57)
  else none

/-- The byte that a percent sign and two digits stand for. -/
def numberedByte (sign high low : UInt8) : Option UInt8 :=
  if sign = PERCENT then do
    let high <- hexValue high
    let low <- hexValue low
    some (UInt8.ofNat (high * 16 + low))
  else none

def percentDecode : List UInt8 -> List UInt8
  | sign :: high :: low :: rest =>
      match numberedByte sign high low with
      | some byte => byte :: percentDecode rest
      | none => sign :: percentDecode (high :: low :: rest)
  | byte :: rest => byte :: percentDecode rest
  | [] => []

def plusToSpace (byte : UInt8) : UInt8 := if byte = PLUS then SPACE else byte

def decode (bytes : List UInt8) : List Char := Unicode.read (percentDecode (bytes.map plusToSpace))

def readEntry (bytes : List UInt8) : List Char × List Char :=
  (decode (bytes.takeWhile (· ≠ EQUALS)), decode ((bytes.dropWhile (· ≠ EQUALS)).drop 1))

def parse (text : List Char) : List (List Char × List Char) :=
  (((utf8 text).splitOn AMPERSAND).filter (· ≠ [])).map readEntry

theorem hexValue_hexDigit : forall digit, digit < 16 -> hexValue (hexDigit digit) = some digit := by
  decide

theorem encodeByte_bytes : forall value, value < 256 -> forall byte, byte ∈ encodeByte (UInt8.ofNat value) ->
    byte ≠ AMPERSAND ∧ byte ≠ EQUALS ∧ byte ≠ HASH ∧ byte.toNat < 128 := by
  intro value bound byte member
  have checked : ((List.range 256).all fun value => (encodeByte (UInt8.ofNat value)).all fun byte =>
      byte != AMPERSAND && byte != EQUALS && byte != HASH && byte.toNat < 128) = true := by decide +kernel
  have written := List.all_eq_true.mp (List.all_eq_true.mp checked value (List.mem_range.mpr bound)) byte member
  simpa only [Bool.and_eq_true, bne_iff_ne, decide_eq_true_eq, and_assoc] using written

theorem mem_encode {text : List Char} {byte : UInt8} (member : byte ∈ encode text) :
    byte ≠ AMPERSAND ∧ byte ≠ EQUALS ∧ byte ≠ HASH ∧ byte.toNat < 128 := by
  rcases List.mem_flatMap.mp member with ⟨source, _, written⟩
  rw [← UInt8.ofNat_toNat (x := source)] at written
  exact encodeByte_bytes source.toNat source.toNat_lt byte written

theorem percentDecode_other {byte : UInt8} (other : byte ≠ PERCENT) (rest : List UInt8) :
    percentDecode (byte :: rest) = byte :: percentDecode rest := by
  match rest with
  | [] => rfl
  | [_] => rfl
  | high :: low :: more => rw [percentDecode, numberedByte, if_neg other]

theorem decode_encodeByte (byte : UInt8) (rest : List UInt8) :
    percentDecode ((encodeByte byte ++ rest).map plusToSpace) = byte :: percentDecode (rest.map plusToSpace) := by
  unfold encodeByte
  split_ifs with space plain
  · rw [space]
    exact percentDecode_other (by decide) _
  · have notPlus : byte ≠ PLUS := by
      rintro rfl
      exact absurd plain (by decide)
    have notPercent : byte ≠ PERCENT := by
      rintro rfl
      exact absurd plain (by decide)
    rw [List.singleton_append, List.map_cons, plusToSpace, if_neg notPlus, percentDecode_other notPercent]
  · have bound : byte.toNat < 256 := byte.toNat_lt
    have kept : forall digit, digit < 16 -> plusToSpace (hexDigit digit) = hexDigit digit := by decide
    have sign : plusToSpace PERCENT = PERCENT := by decide
    have value : byte.toNat / 16 * 16 + byte.toNat % 16 = byte.toNat := by omega
    have found : numberedByte PERCENT (hexDigit (byte.toNat / 16)) (hexDigit (byte.toNat % 16)) = some byte := by
      simp only [numberedByte, if_true, hexValue_hexDigit _ (show byte.toNat / 16 < 16 by omega),
        hexValue_hexDigit _ (show byte.toNat % 16 < 16 by omega), Option.bind_eq_bind, Option.bind_some, value,
        UInt8.ofNat_toNat]
    simp only [List.cons_append, List.nil_append, List.map_cons, sign, kept _ (show byte.toNat / 16 < 16 by omega),
      kept _ (show byte.toNat % 16 < 16 by omega), percentDecode, found]

theorem decode_encode (text : List Char) : decode (encode text) = text := by
  have bytes : forall source : List UInt8,
      percentDecode ((source.flatMap encodeByte).map plusToSpace) = source := by
    intro source
    induction source with
    | nil => rfl
    | cons byte rest ih =>
        rw [List.flatMap_cons, decode_encodeByte, ih]
  rw [decode, encode, bytes, read_utf8]

theorem readEntry_entryBytes (entry : List Char × List Char) : readEntry (entryBytes entry) = entry := by
  have name : forall byte, byte ∈ encode entry.1 -> decide (byte ≠ EQUALS) = true := fun byte member =>
    decide_eq_true (mem_encode member).2.1
  unfold readEntry entryBytes
  rw [List.takeWhile_append_of_pos name, List.dropWhile_append_of_pos name]
  have stops : decide (EQUALS ≠ EQUALS) = false := by decide
  rw [List.takeWhile_cons_of_neg (by decide), List.dropWhile_cons_of_neg (by decide), List.append_nil, List.drop_one,
    List.tail_cons, decode_encode, decode_encode]

theorem utf8_ascii {bytes : List UInt8} (small : forall byte, byte ∈ bytes -> byte.toNat < 128) :
    utf8 (ascii bytes) = bytes := by
  induction bytes with
  | nil => rfl
  | cons byte rest ih =>
      have bound := small byte List.mem_cons_self
      have value : (Char.ofNat byte.toNat).val.toNat = byte.toNat :=
        toNat_ofNat (by unfold Nat.isValidChar; omega)
      have first : String.utf8EncodeChar (Char.ofNat byte.toNat) = [byte] := by
        simp only [String.utf8EncodeChar, value, if_pos (show byte.toNat ≤ 127 by omega), UInt8.ofNat_toNat]
      have others := ih fun other member => small other (List.mem_cons_of_mem _ member)
      rw [ascii, List.map_cons, utf8, List.flatMap_cons, first]
      exact congrArg (byte :: ·) others

theorem mem_entryBytes {entry : List Char × List Char} {byte : UInt8} (member : byte ∈ entryBytes entry) :
    byte ≠ AMPERSAND ∧ byte ≠ HASH ∧ byte.toNat < 128 := by
  rcases List.mem_append.mp member with name | rest
  · exact ⟨(mem_encode name).1, (mem_encode name).2.2⟩
  · rcases List.mem_cons.mp rest with separator | value
    · rw [separator]
      decide
    · exact ⟨(mem_encode value).1, (mem_encode value).2.2⟩

theorem mem_serialize (entries : List (List Char × List Char)) :
    forall byte, byte ∈ serialize entries -> byte ≠ HASH ∧ byte.toNat < 128 := by
  induction entries with
  | nil => exact fun _ member => by cases member
  | cons entry rest ih =>
      intro byte member
      rw [serialize, List.map_cons] at member
      cases rest with
      | nil =>
          rw [List.map_nil, List.intercalate_singleton] at member
          exact (mem_entryBytes member).2
      | cons second more =>
          rw [List.map_cons, List.intercalate_cons_cons] at member
          rcases List.mem_append.mp member with before | others
          · rcases List.mem_append.mp before with first | separator
            · exact (mem_entryBytes first).2
            · rw [List.mem_singleton.mp separator]
              decide
          · exact ih byte others

theorem parse_serialize (entries : List (List Char × List Char)) : parse (ascii (serialize entries)) = entries := by
  have nonempty : forall bytes, bytes ∈ entries.map entryBytes -> bytes ≠ [] := by
    intro bytes member
    rcases List.mem_map.mp member with ⟨entry, _, written⟩
    rw [← written]
    exact List.append_ne_nil_of_right_ne_nil _ (List.cons_ne_nil _ _)
  have whole : forall bytes, bytes ∈ entries.map entryBytes -> AMPERSAND ∉ bytes := by
    intro bytes member inside
    rcases List.mem_map.mp member with ⟨entry, _, written⟩
    rw [← written] at inside
    exact (mem_entryBytes inside).1 rfl
  have back : (entries.map entryBytes).map readEntry = entries := by
    rw [List.map_map]
    exact List.map_id'' readEntry_entryBytes entries
  unfold parse
  rw [utf8_ascii fun byte member => (mem_serialize entries byte member).2]
  cases entries with
  | nil => rfl
  | cons entry rest =>
      rw [serialize, List.splitOn_intercalate AMPERSAND whole (List.cons_ne_nil _ _),
        List.filter_eq_self.mpr fun bytes member => decide_eq_true (nonempty bytes member), back]

end FormUrl
end Foundation
end Dokploy
