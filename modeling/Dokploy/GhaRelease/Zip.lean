import Mathlib.Data.Rat.Defs
import Mathlib.Logic.Function.Iterate
import Dokploy.Foundation.Bytes
import Dokploy.GhaRelease.LogManifest

namespace Dokploy
namespace GhaRelease

open Foundation
open Foundation.Unicode

/-!
# Reading one entry of a zip archive

The archive of a workflow artifact is untrusted bytes.  The reader finds the
end-of-directory record from the end, walks the directory records it announces,
and reads the first entry of the requested name.  Every number in the archive
may be anything, so the walk may leave the directory, and a record may overlap
the data or the end record; what is read is only what a bounds check allows.

The name of an entry is a slice, which stops at the end of the buffer.
-/

namespace Zip

def EOCD : Nat := 0x06054b50

def CENTRAL : Nat := 0x02014b50

def LOCAL : Nat := 0x04034b50

/-- A size limit is a number of the language. -/
inductive Limit where
  | nan
  | negativeInfinity
  | finite (value : Rat)
  | infinity
  deriving DecidableEq

def Limit.exceededBy (size : Nat) : Limit -> Bool
  | .nan => false
  | .negativeInfinity => true
  | .finite value => decide (value < size)
  | .infinity => false

def Limit.Admits (size : Nat) : Limit -> Prop
  | .nan => False
  | .negativeInfinity => False
  | .finite value => (size : Rat) ≤ value
  | .infinity => True

/-- The bytes of the entry, or the reason why there are none. -/
abbrev ZipRead : Type := Except Units (List UInt8)

def fail (reason : String) : ZipRead := .error (units reason)

section Reading

variable (zip : List UInt8)

def readUInt16LE (offset : Nat) : Except OutOfRange Nat := Bytes.readNumber zip 2 offset

def readUInt32LE (offset : Nat) : Except OutOfRange Nat := Bytes.readNumber zip 4 offset

/-- buf.toString("utf8", start, stop) -/
def textAt (start stop : Nat) : Units := utf16 (Unicode.read (Bytes.slice zip start stop))

/-- The search for the end record, downwards from an offset. -/
def findEocd (lowest : Nat) : Nat -> Except OutOfRange (Option Nat)
  | 0 => do
      if 0 < lowest then pure none
      else if (← readUInt32LE zip 0) = EOCD then pure (some 0)
      else pure none
  | offset + 1 => do
      if offset + 1 < lowest then pure none
      else if (← readUInt32LE zip (offset + 1)) = EOCD then pure (some (offset + 1))
      else findEocd lowest offset

/-- No whole header with the signature is at the offset. -/
def isDamaged (signature headerLength offset : Nat) : Except OutOfRange Bool := do
  if zip.length < offset + headerLength then pure true
  else pure ((← readUInt32LE zip offset) != signature)

structure CentralRecord where
  flags : Nat
  method : Nat
  crc : Nat
  compressed : Nat
  size : Nat
  nameLength : Nat
  extraLength : Nat
  commentLength : Nat
  localOffset : Nat

def readCentral (pos : Nat) : Except OutOfRange CentralRecord := do
  let flags ← readUInt16LE zip (pos + 8)
  let method ← readUInt16LE zip (pos + 10)
  let crc ← readUInt32LE zip (pos + 16)
  let compressed ← readUInt32LE zip (pos + 20)
  let size ← readUInt32LE zip (pos + 24)
  let nameLength ← readUInt16LE zip (pos + 28)
  let extraLength ← readUInt16LE zip (pos + 30)
  let commentLength ← readUInt16LE zip (pos + 32)
  let localOffset ← readUInt32LE zip (pos + 42)
  pure ⟨flags, method, crc, compressed, size, nameLength, extraLength, commentLength, localOffset⟩

-- It throws or returns bytes, and is left open.
variable (inflateRawSync : List UInt8 -> Limit -> Option (List UInt8))

def decompress (method : Nat) (raw : List UInt8) (maxBytes : Limit) : ZipRead :=
  if method = 0 then .ok raw
  else if method = 8 then
    match inflateRawSync raw maxBytes with
    | some bytes => .ok bytes
    | none => fail "The entry could not be inflated within the size limit"
  else fail "The entry uses an unsupported compression method"

/-- The size and the checksum of what was read. -/
def verify (record : CentralRecord) (bytes : List UInt8) : ZipRead :=
  if bytes.length ≠ record.size then fail "The entry size does not match"
  else if Bytes.crc32 bytes ≠ record.crc then fail "The entry checksum does not match"
  else .ok bytes

/-- The entry of a directory record whose name is the requested one. -/
def readEntry (name : Units) (maxBytes : Limit) (record : CentralRecord) : Except OutOfRange ZipRead := do
  if record.flags &&& 1 ≠ 0 then pure (fail "Encrypted entries are not accepted")
  else if record.compressed = 0xffffffff ∨ record.size = 0xffffffff then
    pure (fail "zip64 entries are not accepted")
  else if maxBytes.exceededBy record.size = true then pure (fail "The entry is larger than allowed")
  else if (← isDamaged zip LOCAL 30 record.localOffset) = true then pure (fail "The entry header is damaged")
  else
    let localNameLength ← readUInt16LE zip (record.localOffset + 26)
    if textAt zip (record.localOffset + 30) (record.localOffset + 30 + localNameLength) ≠ name then
      pure (fail "The entry header names another file")
    else
      let dataStart := record.localOffset + 30 + localNameLength + (← readUInt16LE zip (record.localOffset + 28))
      if zip.length < dataStart + record.compressed then pure (fail "The entry data is out of range")
      else
        pure ((decompress inflateRawSync record.method (Bytes.slice zip dataStart (dataStart + record.compressed))
          maxBytes).bind (verify record))

def walk (name : Units) (maxBytes : Limit) : Nat -> Nat -> Except OutOfRange ZipRead
  | 0, _ => pure (.error (units "The archive has no entry named " ++ name))
  | remaining + 1, pos => do
      if (← isDamaged zip CENTRAL 46 pos) = true then pure (fail "The directory is damaged")
      else
        let record ← readCentral zip pos
        if textAt zip (pos + 46) (pos + 46 + record.nameLength) = name then
          readEntry zip inflateRawSync name maxBytes record
        else
          walk name maxBytes remaining
            (pos + (46 + record.nameLength + record.extraLength + record.commentLength))

def readZipEntry (name : Units) (maxBytes : Limit) : Except OutOfRange ZipRead := do
  if zip.length < 22 then pure (fail "The archive is too small to be a zip")
  else
    match ← findEocd zip (zip.length - 22 - 0xffff) (zip.length - 22) with
    | none => pure (fail "The archive has no end-of-directory record")
    | some eocd =>
        let entries ← readUInt16LE zip (eocd + 10)
        let directorySize ← readUInt32LE zip (eocd + 12)
        let pos ← readUInt32LE zip (eocd + 16)
        if entries = 0xffff ∨ directorySize = 0xffffffff ∨ pos = 0xffffffff then
          pure (fail "zip64 archives are not accepted")
        else if eocd < pos + directorySize then pure (fail "The directory is out of range")
        else walk zip inflateRawSync name maxBytes entries pos

end Reading

/-- The directory record at an offset, as the format stores it. -/
def centralAt (zip : List UInt8) (pos : Nat) : CentralRecord where
  flags := Bytes.numberAt zip 2 (pos + 8)
  method := Bytes.numberAt zip 2 (pos + 10)
  crc := Bytes.numberAt zip 4 (pos + 16)
  compressed := Bytes.numberAt zip 4 (pos + 20)
  size := Bytes.numberAt zip 4 (pos + 24)
  nameLength := Bytes.numberAt zip 2 (pos + 28)
  extraLength := Bytes.numberAt zip 2 (pos + 30)
  commentLength := Bytes.numberAt zip 2 (pos + 32)
  localOffset := Bytes.numberAt zip 4 (pos + 42)

/-- Where the record after the one at an offset begins. -/
def nextRecord (zip : List UInt8) (pos : Nat) : Nat :=
  pos + (46 + (centralAt zip pos).nameLength + (centralAt zip pos).extraLength + (centralAt zip pos).commentLength)

/-- The offset of the data behind a local header. -/
def dataStart (zip : List UInt8) (localOffset : Nat) : Nat :=
  localOffset + 30 + Bytes.numberAt zip 2 (localOffset + 26) + Bytes.numberAt zip 2 (localOffset + 28)

/-- The directory that an end record announces lists a record at `pos`. -/
def Listed (zip : List UInt8) (pos : Nat) : Prop :=
  Exists fun eocd => Exists fun index =>
    eocd + 22 ≤ zip.length ∧ Bytes.numberAt zip 4 eocd = EOCD ∧
      index < Bytes.numberAt zip 2 (eocd + 10) ∧
      pos = (nextRecord zip)^[index] (Bytes.numberAt zip 4 (eocd + 16))

/-- The bytes are those of the entry whose directory record is at `pos`. -/
structure EntryOf (zip : List UInt8) (inflateRawSync : List UInt8 -> Limit -> Option (List UInt8)) (name : Units)
    (maxBytes : Limit) (pos : Nat) (bytes : List UInt8) : Prop where
  central : pos + 46 ≤ zip.length ∧ Bytes.numberAt zip 4 pos = CENTRAL
  centralName : textAt zip (pos + 46) (pos + 46 + (centralAt zip pos).nameLength) = name
  unencrypted : (centralAt zip pos).flags &&& 1 = 0
  notZip64 : (centralAt zip pos).compressed ≠ 0xffffffff ∧ (centralAt zip pos).size ≠ 0xffffffff
  header : (centralAt zip pos).localOffset + 30 ≤ zip.length ∧
    Bytes.numberAt zip 4 (centralAt zip pos).localOffset = LOCAL
  localName : textAt zip ((centralAt zip pos).localOffset + 30)
    ((centralAt zip pos).localOffset + 30 + Bytes.numberAt zip 2 ((centralAt zip pos).localOffset + 26)) = name
  inside : dataStart zip (centralAt zip pos).localOffset + (centralAt zip pos).compressed ≤ zip.length
  data :
    let raw := Bytes.slice zip (dataStart zip (centralAt zip pos).localOffset)
      (dataStart zip (centralAt zip pos).localOffset + (centralAt zip pos).compressed)
    (centralAt zip pos).method = 0 ∧ bytes = raw ∨
      (centralAt zip pos).method = 8 ∧ inflateRawSync raw maxBytes = some bytes
  size : bytes.length = (centralAt zip pos).size
  limit : maxBytes = .nan ∨ maxBytes.Admits (centralAt zip pos).size
  checksum : Bytes.crc32 bytes = (centralAt zip pos).crc

/-- No number is read outside the buffer, and what is accepted satisfies the condition. -/
def Safe (read : Except OutOfRange ZipRead) (accepted : List UInt8 -> Prop) : Prop :=
  Exists fun answer => read = .ok answer ∧ forall bytes, answer = .ok bytes -> accepted bytes

theorem Safe.fails (reason : Units) (accepted : List UInt8 -> Prop) :
    Safe (.ok (.error reason)) accepted :=
  ⟨_, rfl, fun _ impossible => by cases impossible⟩

section Spec

variable {zip : List UInt8} {inflateRawSync : List UInt8 -> Limit -> Option (List UInt8)} {name : Units}
  {maxBytes : Limit}

theorem Limit.admits_or_nan {size : Nat} {limit : Limit} (fits : limit.exceededBy size = false) :
    limit = .nan ∨ limit.Admits size := by
  cases limit with
  | nan => exact Or.inl rfl
  | negativeInfinity => cases fits
  | finite value => exact Or.inr (Rat.not_lt.mp (of_decide_eq_false (p := value < size) fits))
  | infinity => exact Or.inr trivial

theorem readUInt16LE_inside {offset : Nat} (inside : offset + 2 ≤ zip.length) :
    readUInt16LE zip offset = .ok (Bytes.numberAt zip 2 offset) :=
  Bytes.readNumber_inside inside

theorem readUInt32LE_inside {offset : Nat} (inside : offset + 4 ≤ zip.length) :
    readUInt32LE zip offset = .ok (Bytes.numberAt zip 4 offset) :=
  Bytes.readNumber_inside inside

theorem isDamaged_eq {signature headerLength offset : Nat} (signed : 4 ≤ headerLength) :
    isDamaged zip signature headerLength offset =
      .ok (decide (zip.length < offset + headerLength ∨ Bytes.numberAt zip 4 offset ≠ signature)) := by
  unfold isDamaged
  by_cases short : zip.length < offset + headerLength
  · rw [if_pos short, decide_eq_true (Or.inl short)]
    rfl
  · rw [if_neg short, readUInt32LE_inside (by omega)]
    by_cases signature' : Bytes.numberAt zip 4 offset = signature
    · rw [decide_eq_false (by tauto), signature']
      exact congrArg Except.ok (bne_self_eq_false _)
    · rw [decide_eq_true (Or.inr signature')]
      exact congrArg Except.ok (bne_iff_ne.mpr signature')

theorem readCentral_inside {pos : Nat} (inside : pos + 46 ≤ zip.length) :
    readCentral zip pos = .ok (centralAt zip pos) := by
  unfold readCentral
  rw [readUInt16LE_inside (by omega), readUInt16LE_inside (by omega), readUInt32LE_inside (by omega),
    readUInt32LE_inside (by omega), readUInt32LE_inside (by omega), readUInt16LE_inside (by omega),
    readUInt16LE_inside (by omega), readUInt16LE_inside (by omega), readUInt32LE_inside (by omega)]
  rfl

theorem findEocd_inside (zip : List UInt8) (lowest offset : Nat) (inside : offset + 22 ≤ zip.length) :
    Exists fun found => findEocd zip lowest offset = .ok found ∧
      forall eocd, found = some eocd -> eocd + 22 ≤ zip.length ∧ Bytes.numberAt zip 4 eocd = EOCD := by
  induction offset with
  | zero =>
      unfold findEocd
      split
      · exact ⟨none, rfl, fun _ impossible => by cases impossible⟩
      · rw [readUInt32LE_inside (by omega), Bytes.ok_bind]
        by_cases signature : Bytes.numberAt zip 4 0 = EOCD
        · refine ⟨some 0, if_pos signature, ?_⟩
          rintro eocd ⟨⟩
          exact ⟨inside, signature⟩
        · exact ⟨none, if_neg signature, fun _ impossible => by cases impossible⟩
  | succ offset ih =>
      unfold findEocd
      split
      · exact ⟨none, rfl, fun _ impossible => by cases impossible⟩
      · rw [readUInt32LE_inside (by omega), Bytes.ok_bind]
        by_cases signature : Bytes.numberAt zip 4 (offset + 1) = EOCD
        · refine ⟨some (offset + 1), if_pos signature, ?_⟩
          rintro eocd ⟨⟩
          exact ⟨inside, signature⟩
        · rcases ih (by omega) with ⟨found, search, whole⟩
          exact ⟨found, (if_neg signature).trans search, whole⟩

theorem accepted_data {record : CentralRecord} {raw bytes : List UInt8}
    (accepted : (decompress inflateRawSync record.method raw maxBytes).bind (verify record) = .ok bytes) :
    (record.method = 0 ∧ bytes = raw ∨ record.method = 8 ∧ inflateRawSync raw maxBytes = some bytes) ∧
      bytes.length = record.size ∧ Bytes.crc32 bytes = record.crc := by
  have verified : forall {data : List UInt8}, verify record data = .ok bytes ->
      bytes = data ∧ bytes.length = record.size ∧ Bytes.crc32 bytes = record.crc := by
    intro data passed
    unfold verify at passed
    by_cases size : data.length = record.size
    · by_cases checksum : Bytes.crc32 data = record.crc
      · rw [if_neg (not_not.mpr size), if_neg (not_not.mpr checksum)] at passed
        cases passed
        exact ⟨rfl, size, checksum⟩
      · rw [if_neg (not_not.mpr size), if_pos checksum] at passed
        cases passed
    · rw [if_pos size] at passed
      cases passed
  unfold decompress at accepted
  by_cases stored : record.method = 0
  · rw [if_pos stored] at accepted
    have passed := verified accepted
    exact ⟨Or.inl ⟨stored, passed.1⟩, passed.2⟩
  · rw [if_neg stored] at accepted
    by_cases deflated : record.method = 8
    · rw [if_pos deflated] at accepted
      cases inflated : inflateRawSync raw maxBytes with
      | none =>
          rw [inflated] at accepted
          cases accepted
      | some data =>
          rw [inflated] at accepted
          have passed := verified accepted
          exact ⟨Or.inr ⟨deflated, congrArg some passed.1.symm⟩, passed.2⟩
    · rw [if_neg deflated] at accepted
      cases accepted

theorem readEntry_safe (inflateRawSync : List UInt8 -> Limit -> Option (List UInt8)) (maxBytes : Limit) {pos : Nat}
    (central : pos + 46 ≤ zip.length ∧ Bytes.numberAt zip 4 pos = CENTRAL)
    (centralName : textAt zip (pos + 46) (pos + 46 + (centralAt zip pos).nameLength) = name) :
    Safe (readEntry zip inflateRawSync name maxBytes (centralAt zip pos))
      (EntryOf zip inflateRawSync name maxBytes pos) := by
  unfold readEntry
  by_cases encrypted : (centralAt zip pos).flags &&& 1 ≠ 0
  · rw [if_pos encrypted]
    exact Safe.fails _ _
  rw [if_neg encrypted]
  by_cases zip64 : (centralAt zip pos).compressed = 0xffffffff ∨ (centralAt zip pos).size = 0xffffffff
  · rw [if_pos zip64]
    exact Safe.fails _ _
  rw [if_neg zip64]
  by_cases large : maxBytes.exceededBy (centralAt zip pos).size = true
  · rw [if_pos large]
    exact Safe.fails _ _
  rw [if_neg large, isDamaged_eq (by omega), Bytes.ok_bind]
  by_cases damaged : zip.length < (centralAt zip pos).localOffset + 30 ∨
      Bytes.numberAt zip 4 (centralAt zip pos).localOffset ≠ LOCAL
  · rw [decide_eq_true damaged]
    exact Safe.fails _ _
  rw [decide_eq_false damaged, if_neg Bool.false_ne_true]
  have header := not_or.mp damaged
  have fits : (centralAt zip pos).localOffset + 30 ≤ zip.length := not_lt.mp header.1
  rw [readUInt16LE_inside (by omega), Bytes.ok_bind]
  by_cases otherName : textAt zip ((centralAt zip pos).localOffset + 30)
      ((centralAt zip pos).localOffset + 30 + Bytes.numberAt zip 2 ((centralAt zip pos).localOffset + 26)) ≠ name
  · rw [if_pos otherName]
    exact Safe.fails _ _
  rw [if_neg otherName, readUInt16LE_inside (by omega), Bytes.ok_bind]
  by_cases outside : zip.length <
      dataStart zip (centralAt zip pos).localOffset + (centralAt zip pos).compressed
  · exact (if_pos outside).symm ▸ Safe.fails _ _
  refine ⟨_, if_neg outside, fun bytes accepted => ?_⟩
  have data := accepted_data accepted
  exact
    { central := central
      centralName := centralName
      unencrypted := not_not.mp encrypted
      notZip64 := not_or.mp zip64
      header := ⟨fits, not_not.mp header.2⟩
      localName := not_not.mp otherName
      inside := not_lt.mp outside
      data := data.1
      size := data.2.1
      limit := Limit.admits_or_nan (Bool.eq_false_iff.mpr large)
      checksum := data.2.2 }

theorem walk_safe (inflateRawSync : List UInt8 -> Limit -> Option (List UInt8)) (name : Units) (maxBytes : Limit)
    (remaining pos : Nat) :
    Safe (walk zip inflateRawSync name maxBytes remaining pos) fun bytes => Exists fun index =>
      index < remaining ∧ EntryOf zip inflateRawSync name maxBytes ((nextRecord zip)^[index] pos) bytes := by
  induction remaining generalizing pos with
  | zero => exact Safe.fails _ _
  | succ remaining ih =>
      unfold walk
      rw [isDamaged_eq (by omega), Bytes.ok_bind]
      by_cases damaged : zip.length < pos + 46 ∨ Bytes.numberAt zip 4 pos ≠ CENTRAL
      · rw [decide_eq_true damaged]
        exact Safe.fails _ _
      rw [decide_eq_false damaged, if_neg Bool.false_ne_true]
      have central := not_or.mp damaged
      rw [readCentral_inside (not_lt.mp central.1), Bytes.ok_bind]
      by_cases named : textAt zip (pos + 46) (pos + 46 + (centralAt zip pos).nameLength) = name
      · rw [if_pos named]
        rcases readEntry_safe inflateRawSync maxBytes
          ⟨not_lt.mp central.1, not_not.mp central.2⟩ named with ⟨answer, read, accepted⟩
        exact ⟨answer, read, fun bytes ok => ⟨0, Nat.succ_pos _, accepted bytes ok⟩⟩
      · rw [if_neg named]
        rcases ih (nextRecord zip pos) with ⟨answer, read, accepted⟩
        refine ⟨answer, read, fun bytes ok => ?_⟩
        rcases accepted bytes ok with ⟨index, below, entry⟩
        exact ⟨index + 1, Nat.succ_lt_succ below, entry⟩

/-- Every archive is read without leaving it, and what is accepted are the
checked bytes of a listed entry of the requested name. -/
theorem readZipEntry_safe (zip : List UInt8) (inflateRawSync : List UInt8 -> Limit -> Option (List UInt8))
    (name : Units) (maxBytes : Limit) :
    Safe (readZipEntry zip inflateRawSync name maxBytes) fun bytes => Exists fun pos =>
      Listed zip pos ∧ EntryOf zip inflateRawSync name maxBytes pos bytes := by
  unfold readZipEntry
  by_cases small : zip.length < 22
  · rw [if_pos small]
    exact Safe.fails _ _
  rw [if_neg small]
  rcases findEocd_inside zip (zip.length - 22 - 0xffff) (zip.length - 22) (by omega) with ⟨found, search, whole⟩
  rw [search, Bytes.ok_bind]
  cases found with
  | none => exact Safe.fails _ _
  | some eocd =>
      have record := whole eocd rfl
      dsimp only
      rw [readUInt16LE_inside (by omega), Bytes.ok_bind, readUInt32LE_inside (by omega), Bytes.ok_bind,
        readUInt32LE_inside (by omega), Bytes.ok_bind]
      split
      · exact Safe.fails _ _
      split
      · exact Safe.fails _ _
      rcases walk_safe inflateRawSync name maxBytes
        (Bytes.numberAt zip 2 (eocd + 10)) (Bytes.numberAt zip 4 (eocd + 16)) with ⟨answer, read, accepted⟩
      refine ⟨answer, read, fun bytes ok => ?_⟩
      rcases accepted bytes ok with ⟨index, below, entry⟩
      exact ⟨_, ⟨eocd, index, record.1, record.2, below, rfl⟩, entry⟩

end Spec

/-- A number stored with its lowest byte first. -/
def stored (width value : Nat) : List UInt8 :=
  (List.range width).map fun index => UInt8.ofNat (value >>> (8 * index))

/-- A directory record of the one byte that is stored at the start of the archive. -/
def storedRecord (nameLength commentLength : Nat) (byteOfName : UInt8) : List UInt8 :=
  stored 4 CENTRAL ++ stored 12 0 ++ stored 4 (Bytes.crc32 [120]) ++ stored 4 1 ++ stored 4 1 ++
    stored 2 nameLength ++ stored 2 0 ++ stored 2 commentLength ++ stored 12 0 ++ [byteOfName]

/-- The second record stands in the comment of the end record, and its name is
announced to be longer than the archive. -/
def overhanging : List UInt8 :=
  stored 4 LOCAL ++ stored 22 0 ++ stored 2 1 ++ stored 2 0 ++ [97, 120] ++ storedRecord 1 22 98 ++
    (stored 4 EOCD ++ stored 6 0 ++ stored 2 2 ++ stored 4 47 ++ stored 4 32 ++ stored 2 47) ++ storedRecord 5 0 97

/-- No limit holds a size that is compared with NaN, and a name that runs past
the end of the archive is compared as far as it goes. -/
theorem readZipEntry_lenient :
    (¬ forall zip inflateRawSync name maxBytes bytes,
      readZipEntry zip inflateRawSync name maxBytes = .ok (.ok bytes) ->
      Exists fun pos => Listed zip pos ∧ EntryOf zip inflateRawSync name maxBytes pos bytes ∧
        maxBytes.Admits bytes.length) ∧
    ¬ forall zip inflateRawSync name maxBytes bytes,
      readZipEntry zip inflateRawSync name maxBytes = .ok (.ok bytes) ->
      Exists fun pos => Listed zip pos ∧ EntryOf zip inflateRawSync name maxBytes pos bytes ∧
        pos + 46 + (centralAt zip pos).nameLength ≤ zip.length := by
  constructor
  · intro claimed
    rcases claimed overhanging (fun _ _ => none) (units "a") .nan [120] (by decide +kernel) with ⟨_, _, _, admitted⟩
    exact admitted
  · intro claimed
    rcases claimed overhanging (fun _ _ => none) (units "a") .infinity [120] (by decide +kernel) with
      ⟨pos, ⟨eocd, index, whole, signature, below, reached⟩, entry, complete⟩
    have unique : forall offset, offset < 127 -> Bytes.numberAt overhanging 4 offset = EOCD -> offset = 79 := by
      decide +kernel
    have length : overhanging.length = 148 := by decide +kernel
    have found := unique eocd (by omega) signature
    subst found
    have entries : Bytes.numberAt overhanging 2 (79 + 10) = 2 := by decide +kernel
    have first : Bytes.numberAt overhanging 4 (79 + 16) = 32 := by decide +kernel
    have second : nextRecord overhanging 32 = 101 := by decide +kernel
    rw [entries] at below
    rw [first] at reached
    have records : pos = 32 ∨ pos = 101 := by
      rcases Nat.lt_succ_iff_lt_or_eq.mp below with isFirst | isSecond
      · exact Or.inl (by rw [reached, Nat.lt_one_iff.mp isFirst, Function.iterate_zero_apply])
      · exact Or.inr (by rw [reached, isSecond, Function.iterate_one, second])
    rcases records with isFirst | isSecond
    · have other : textAt overhanging (32 + 46) (32 + 46 + (centralAt overhanging 32).nameLength) ≠ units "a" := by
        decide +kernel
      exact other (isFirst ▸ entry.centralName)
    · have outside : ¬ 101 + 46 + (centralAt overhanging 101).nameLength ≤ overhanging.length := by decide +kernel
      exact outside (isSecond ▸ complete)

end Zip
end GhaRelease
end Dokploy
