import Dokploy.GhaRelease.Zip

namespace Dokploy
namespace GhaRelease

open Foundation
open Foundation.Unicode

/-!
# Archives that a writer has laid out

The records of a zip archive as the format describes them: a local header before
the data of each entry, a directory with a record for each entry, and the end
record.  What a reader of one entry does not need is left to the writer: times,
versions, attributes, extra fields, comments, whatever stands before the first
header, behind the data of an entry and before the end record.

The data may contain anything.  The search for the end record begins at the only
place where the end record of such an archive can be, and from there each record is
reached by the lengths of those before it, so a signature inside the data is never
looked at.
-/

namespace Zip

theorem stored_succ (width value : Nat) :
    stored (width + 1) value = UInt8.ofNat value :: stored width (value / 256) := by
  unfold stored
  rw [List.range_succ_eq_map, List.map_cons, List.map_map]
  refine congrArg₂ List.cons rfl (List.map_congr_left fun index _ => ?_)
  have split : 8 * (index + 1) = 8 + 8 * index := by omega
  rw [Function.comp_apply, Nat.succ_eq_add_one, split, Nat.shiftRight_add, Nat.shiftRight_eq_div_pow value 8]

@[simp] theorem length_stored (width value : Nat) : (stored width value).length = width := by
  rw [stored, List.length_map, List.length_range]

theorem littleEndian_stored {width value : Nat} (small : value < 256 ^ width) :
    Bytes.littleEndian (stored width value) = value := by
  induction width generalizing value with
  | zero =>
      have zero : value = 0 := by simpa using small
      rw [zero]
      rfl
  | succ width ih =>
      rw [stored_succ, Bytes.littleEndian, List.foldr_cons]
      change (UInt8.ofNat value).toNat + 256 * Bytes.littleEndian (stored width (value / 256)) = value
      rw [ih (Nat.div_lt_of_lt_mul (by rwa [Nat.pow_succ, Nat.mul_comm] at small)), UInt8.toNat_ofNat']
      omega

theorem numberAt_stored {zip : List UInt8} {offset width value : Nat} (here : Bytes.At zip offset (stored width value))
    (small : value < 256 ^ width) : Bytes.numberAt zip width offset = value := by
  have slice := here.slice_eq
  rw [length_stored] at slice
  rw [Bytes.numberAt, slice, littleEndian_stored small]

inductive Method where
  | stored
  | deflated
deriving DecidableEq

def Method.number : Method -> Nat
  | .stored => 0
  | .deflated => 8

/-- An entry as a writer stores it.  `Deflated` relates data to the compressed forms that it may have. -/
structure Entry (Deflated : List UInt8 -> List UInt8 -> Prop) where
  name : List Char
  data : List UInt8
  method : Method
  raw : List UInt8
  isRaw : match method with
    | .stored => raw = data
    | .deflated => Deflated raw data
  /-- Bit 0 is for encrypted entries. -/
  flags : Nat
  unencrypted : flags &&& 1 = 0
  localFields : List UInt8
  localExtra : List UInt8
  descriptor : List UInt8
  versions : List UInt8
  time : List UInt8
  attributes : List UInt8
  extra : List UInt8
  comment : List UInt8
  lengths : localFields.length = 22 ∧ versions.length = 4 ∧ time.length = 4 ∧ attributes.length = 8
  fits : flags < 256 ^ 2 ∧ (utf8 name).length < 256 ^ 2 ∧ localExtra.length < 256 ^ 2 ∧ extra.length < 256 ^ 2 ∧
    comment.length < 256 ^ 2
  small : data.length < 0xffffffff ∧ raw.length < 0xffffffff

variable {Deflated : List UInt8 -> List UInt8 -> Prop}

namespace Entry

def localHeader (entry : Entry Deflated) : List (List UInt8) :=
  [stored 4 LOCAL, entry.localFields, stored 2 (utf8 entry.name).length, stored 2 entry.localExtra.length,
    utf8 entry.name, entry.localExtra, entry.raw, entry.descriptor]

def localRecord (entry : Entry Deflated) : List UInt8 := entry.localHeader.flatten

def centralFields (entry : Entry Deflated) (localOffset : Nat) : List (List UInt8) :=
  [stored 4 CENTRAL, entry.versions, stored 2 entry.flags, stored 2 entry.method.number, entry.time,
    stored 4 (Bytes.crc32 entry.data), stored 4 entry.raw.length, stored 4 entry.data.length,
    stored 2 (utf8 entry.name).length, stored 2 entry.extra.length, stored 2 entry.comment.length, entry.attributes,
    stored 4 localOffset, utf8 entry.name, entry.extra, entry.comment]

def centralFile (entry : Entry Deflated) (localOffset : Nat) : List UInt8 := (entry.centralFields localOffset).flatten

end Entry

def localRecords (entries : List (Entry Deflated)) : List UInt8 := entries.flatMap Entry.localRecord

/-- The directory of entries whose first local header is at an offset. -/
def directory : List (Entry Deflated) -> Nat -> List UInt8
  | [], _ => []
  | entry :: rest, offset => entry.centralFile offset ++ directory rest (offset + entry.localRecord.length)

/-- An archive without a comment behind its end record, and without zip64 records. -/
structure Archive (Deflated : List UInt8 -> List UInt8 -> Prop) where
  entries : List (Entry Deflated)
  distinct : (entries.map Entry.name).Nodup
  fewer : entries.length < 65535
  leading : List UInt8
  beforeDirectory : List UInt8
  behindDirectory : List UInt8
  disks : List UInt8
  isDisks : disks.length = 4
  plain : (leading ++ localRecords entries ++ beforeDirectory).length < 0xffffffff ∧
    (directory entries leading.length).length < 0xffffffff

namespace Archive

def beforeRecords (archive : Archive Deflated) : List UInt8 :=
  archive.leading ++ localRecords archive.entries ++ archive.beforeDirectory

def directoryBytes (archive : Archive Deflated) : List UInt8 := directory archive.entries archive.leading.length

def endRecord (archive : Archive Deflated) : List (List UInt8) :=
  [stored 4 EOCD, archive.disks, stored 2 archive.entries.length, stored 2 archive.entries.length,
    stored 4 archive.directoryBytes.length, stored 4 archive.beforeRecords.length, stored 2 0]

def bytes (archive : Archive Deflated) : List UInt8 :=
  archive.beforeRecords ++ archive.directoryBytes ++ archive.behindDirectory ++ archive.endRecord.flatten

end Archive

theorem at_field {zip bytes : List UInt8} {fields : List (List UInt8)} {offset length : Nat}
    (here : Bytes.At zip offset fields.flatten) (index : Nat) (isField : fields[index]? = some bytes)
    (before : (fields.take index).flatten.length = length) : Bytes.At zip (offset + length) bytes :=
  before ▸ here.field index isField

theorem textAt_name {zip : List UInt8} {offset : Nat} {name : List Char} (here : Bytes.At zip offset (utf8 name)) :
    textAt zip offset (offset + (utf8 name).length) = utf16 name := by
  rw [textAt, here.slice_eq, read_utf8]

theorem utf16_inj {first second : List Char} (same : utf16 first = utf16 second) : first = second := by
  rw [← characters_utf16 first, same, characters_utf16]

section Reads

variable {zip : List UInt8} {entry : Entry Deflated} {pos localOffset : Nat}

def Entry.record (entry : Entry Deflated) (localOffset : Nat) : CentralRecord where
  flags := entry.flags
  method := entry.method.number
  crc := Bytes.crc32 entry.data
  compressed := entry.raw.length
  size := entry.data.length
  nameLength := (utf8 entry.name).length
  extraLength := entry.extra.length
  commentLength := entry.comment.length
  localOffset := localOffset

theorem centralFile_header (here : Bytes.At zip pos (entry.centralFile localOffset)) :
    pos + 46 ≤ zip.length ∧ Bytes.numberAt zip 4 pos = CENTRAL := by
  constructor
  · have last : Bytes.At zip (pos + 42) (stored 4 localOffset) :=
      at_field here 12 rfl (by simp [Entry.centralFields, entry.lengths])
    have inside := last.inside
    rwa [length_stored, Nat.add_assoc] at inside
  · have first : Bytes.At zip (pos + 0) (stored 4 CENTRAL) := at_field here 0 rfl rfl
    exact numberAt_stored first (by decide)

theorem centralAt_file (here : Bytes.At zip pos (entry.centralFile localOffset)) (reachable : localOffset < 256 ^ 4) :
    centralAt zip pos = entry.record localOffset := by
  have number : forall (index width value length : Nat),
      (entry.centralFields localOffset)[index]? = some (stored width value) -> value < 256 ^ width ->
        ((entry.centralFields localOffset).take index).flatten.length = length ->
          Bytes.numberAt zip width (pos + length) = value :=
    fun index width value length isField small before => numberAt_stored (at_field here index isField before) small
  have lengths := entry.lengths
  have fits := entry.fits
  have small := entry.small
  rw [centralAt, Entry.record]
  congr 1
  · exact number 2 2 _ 8 rfl fits.1 (by simp [Entry.centralFields, lengths])
  · exact number 3 2 _ 10 rfl (by cases entry.method <;> decide) (by simp [Entry.centralFields, lengths])
  · exact number 5 4 _ 16 rfl (Bytes.crc32_small _) (by simp [Entry.centralFields, lengths])
  · exact number 6 4 _ 20 rfl (small.2.trans (by decide)) (by simp [Entry.centralFields, lengths])
  · exact number 7 4 _ 24 rfl (small.1.trans (by decide)) (by simp [Entry.centralFields, lengths])
  · exact number 8 2 _ 28 rfl fits.2.1 (by simp [Entry.centralFields, lengths])
  · exact number 9 2 _ 30 rfl fits.2.2.2.1 (by simp [Entry.centralFields, lengths])
  · exact number 10 2 _ 32 rfl fits.2.2.2.2 (by simp [Entry.centralFields, lengths])
  · exact number 12 4 _ 42 rfl reachable (by simp [Entry.centralFields, lengths])

theorem length_centralFile (entry : Entry Deflated) (localOffset : Nat) : (entry.centralFile localOffset).length =
    46 + (entry.record localOffset).nameLength + (entry.record localOffset).extraLength +
      (entry.record localOffset).commentLength := by
  have lengths := entry.lengths
  simp only [Entry.centralFile, Entry.centralFields, Entry.record, List.flatten_cons, List.flatten_nil,
    List.length_append, List.length_nil, length_stored, lengths, Nat.add_zero]
  simp only [← Nat.add_assoc, Nat.reduceAdd]

theorem textAt_centralFile (here : Bytes.At zip pos (entry.centralFile localOffset)) :
    textAt zip (pos + 46) (pos + 46 + (utf8 entry.name).length) = utf16 entry.name :=
  textAt_name (at_field here 13 rfl (by simp [Entry.centralFields, entry.lengths]))

variable {inflateRawSync : List UInt8 -> Limit -> Option (List UInt8)} {maxBytes : Limit}

/-- Within the limit, what was deflated is inflated again. -/
def InvertsDeflate (Deflated : List UInt8 -> List UInt8 -> Prop)
    (inflateRawSync : List UInt8 -> Limit -> Option (List UInt8)) (maxBytes : Limit) : Prop :=
  forall raw data, Deflated raw data -> maxBytes.Admits data.length -> inflateRawSync raw maxBytes = some data

theorem Limit.not_exceededBy {size : Nat} {limit : Limit} (admits : limit.Admits size) :
    limit.exceededBy size = false := by
  cases limit with
  | finite value => exact decide_eq_false (Rat.not_lt.mpr admits)
  | infinity => rfl
  | nan => exact admits.elim
  | negativeInfinity => exact admits.elim

theorem decompress_entry (entry : Entry Deflated) (inverts : InvertsDeflate Deflated inflateRawSync maxBytes)
    (admits : maxBytes.Admits entry.data.length) :
    decompress inflateRawSync entry.method.number entry.raw maxBytes = .ok entry.data := by
  have isRaw := entry.isRaw
  cases method : entry.method with
  | stored =>
      rw [method] at isRaw
      exact congrArg Except.ok isRaw
  | deflated =>
      rw [method] at isRaw
      unfold decompress
      rw [inverts entry.raw entry.data isRaw admits]
      rfl

theorem verify_entry (entry : Entry Deflated) : verify (entry.record localOffset) entry.data = .ok entry.data := by
  have size : ¬ entry.data.length ≠ (entry.record localOffset).size := not_not.mpr rfl
  have checksum : ¬ Bytes.crc32 entry.data ≠ (entry.record localOffset).crc := not_not.mpr rfl
  rw [verify, if_neg size, if_neg checksum]

theorem readEntry_entry (here : Bytes.At zip localOffset entry.localRecord)
    (inverts : InvertsDeflate Deflated inflateRawSync maxBytes) (admits : maxBytes.Admits entry.data.length) :
    readEntry zip inflateRawSync (utf16 entry.name) maxBytes (entry.record localOffset) = .ok (.ok entry.data) := by
  have lengths := entry.lengths.1
  have fits := entry.fits
  have small := entry.small
  have signature : Bytes.At zip (localOffset + 0) (stored 4 LOCAL) := at_field here 0 rfl rfl
  have nameLength : Bytes.At zip (localOffset + 26) (stored 2 (utf8 entry.name).length) :=
    at_field here 2 rfl (by simp [Entry.localHeader, lengths])
  have extraLength : Bytes.At zip (localOffset + 28) (stored 2 entry.localExtra.length) :=
    at_field here 3 rfl (by simp [Entry.localHeader, lengths])
  have name : Bytes.At zip (localOffset + 30) (utf8 entry.name) :=
    at_field here 4 rfl (by simp [Entry.localHeader, lengths])
  have raw : Bytes.At zip (localOffset + (30 + (utf8 entry.name).length + entry.localExtra.length)) entry.raw :=
    at_field here 6 rfl (by simp [Entry.localHeader, lengths]; omega)
  have header : localOffset + 30 ≤ zip.length := le_trans (Nat.le_add_right _ _) name.inside
  have dataInside := raw.inside
  have start : localOffset + (30 + (utf8 entry.name).length + entry.localExtra.length) =
      localOffset + 30 + (utf8 entry.name).length + entry.localExtra.length := by omega
  rw [start] at raw dataInside
  have whole : ¬ (zip.length < localOffset + 30 ∨ Bytes.numberAt zip 4 localOffset ≠ LOCAL) := by
    have isLocal : Bytes.numberAt zip 4 localOffset = LOCAL := numberAt_stored signature (by decide)
    rw [isLocal]
    simpa using header
  have unencrypted : ¬ (entry.record localOffset).flags &&& 1 ≠ 0 := not_not.mpr entry.unencrypted
  have notZip64 : ¬ ((entry.record localOffset).compressed = 0xffffffff ∨
      (entry.record localOffset).size = 0xffffffff) := not_or.mpr ⟨small.2.ne, small.1.ne⟩
  have notLarge : ¬ maxBytes.exceededBy (entry.record localOffset).size = true :=
    Bool.eq_false_iff.mp (Limit.not_exceededBy admits)
  have isOffset : (entry.record localOffset).localOffset = localOffset := rfl
  have isCompressed : (entry.record localOffset).compressed = entry.raw.length := rfl
  have isMethod : (entry.record localOffset).method = entry.method.number := rfl
  unfold readEntry
  rw [if_neg unencrypted, if_neg notZip64, if_neg notLarge, isOffset, isCompressed, isMethod,
    isDamaged_eq (by omega), Bytes.ok_bind, decide_eq_false whole, if_neg Bool.false_ne_true,
    readUInt16LE_inside (by omega), Bytes.ok_bind, numberAt_stored nameLength fits.2.1, textAt_name name, if_neg (not_not.mpr rfl), readUInt16LE_inside (by omega),
    Bytes.ok_bind, numberAt_stored extraLength fits.2.2.1, if_neg (Nat.not_lt.mpr dataInside), raw.slice_eq,
    decompress_entry entry inverts admits]
  exact congrArg Except.ok (verify_entry entry)

theorem walk_directory (entries : List (Entry Deflated)) {offset : Nat}
    (here : Bytes.At zip pos (directory entries offset)) (locals : Bytes.At zip offset (localRecords entries))
    (reachable : offset + (localRecords entries).length < 256 ^ 4) (distinct : (entries.map Entry.name).Nodup)
    (member : entry ∈ entries) (inverts : InvertsDeflate Deflated inflateRawSync maxBytes)
    (admits : maxBytes.Admits entry.data.length) :
    walk zip inflateRawSync (utf16 entry.name) maxBytes entries.length pos = .ok (.ok entry.data) := by
  induction entries generalizing pos offset with
  | nil => cases member
  | cons first rest ih =>
      have record := here.left
      have header := centralFile_header record
      have localRecord := locals.left
      have length : (localRecords (first :: rest)).length = first.localRecord.length + (localRecords rest).length := by
        rw [localRecords, List.flatMap_cons, List.length_append]
        rfl
      have known := centralAt_file record (by omega)
      have whole : ¬ (zip.length < pos + 46 ∨ Bytes.numberAt zip 4 pos ≠ CENTRAL) := by
        rw [header.2]
        simpa using header.1
      rw [List.length_cons, walk, isDamaged_eq (by omega), Bytes.ok_bind, decide_eq_false whole,
        if_neg Bool.false_ne_true, readCentral_inside header.1, Bytes.ok_bind, known]
      have named : textAt zip (pos + 46) (pos + 46 + (first.record offset).nameLength) = utf16 first.name :=
        textAt_centralFile record
      rw [named]
      have distinct' := List.nodup_cons.mp distinct
      by_cases same : first.name = entry.name
      · have isFirst : entry = first := by
          rcases List.mem_cons.mp member with isFirst | later
          · exact isFirst
          · exact absurd (List.mem_map.mpr ⟨entry, later, same.symm⟩) distinct'.1
        rw [if_pos (congrArg utf16 same), isFirst]
        exact readEntry_entry localRecord inverts (isFirst ▸ admits)
      · rw [if_neg fun equal => same (utf16_inj equal)]
        have later : entry ∈ rest := by
          rcases List.mem_cons.mp member with isFirst | later
          · exact absurd (congrArg Entry.name isFirst).symm same
          · exact later
        have next := here.right
        rw [length_centralFile] at next
        exact ih next locals.right (by omega) distinct'.2 later

theorem findEocd_here {lowest offset : Nat} (above : lowest ≤ offset) (inside : offset + 4 ≤ zip.length)
    (signature : Bytes.numberAt zip 4 offset = EOCD) : findEocd zip lowest offset = .ok (some offset) := by
  cases offset with
  | zero =>
      rw [findEocd, if_neg (Nat.not_lt.mpr above), readUInt32LE_inside inside, Bytes.ok_bind, if_pos signature]
      rfl
  | succ offset =>
      rw [findEocd, if_neg (Nat.not_lt.mpr above), readUInt32LE_inside inside, Bytes.ok_bind, if_pos signature]
      rfl

end Reads

/-- Every entry within the limit is read, whatever its data and that of the others. -/
theorem readZipEntry_complete (Deflated : List UInt8 -> List UInt8 -> Prop) (archive : Archive Deflated)
    (inflateRawSync : List UInt8 -> Limit -> Option (List UInt8)) (maxBytes : Limit)
    (inverts : InvertsDeflate Deflated inflateRawSync maxBytes) (entry : Entry Deflated)
    (member : entry ∈ archive.entries) (admits : maxBytes.Admits entry.data.length) :
    readZipEntry archive.bytes inflateRawSync (utf16 entry.name) maxBytes = .ok (.ok entry.data) := by
  have whole : Bytes.At archive.bytes 0 archive.bytes := ⟨[], [], by rw [List.nil_append, List.append_nil], rfl⟩
  have isEnd := whole.right
  have isDirectory := whole.left.left.right
  have locals : Bytes.At archive.bytes (0 + archive.leading.length) (localRecords archive.entries) :=
    whole.left.left.left.left.right
  have endLength : archive.endRecord.flatten.length = 22 := by simp [Archive.endRecord, archive.isDisks]
  have plain := archive.plain
  have few := archive.fewer
  generalize isEocd : 0 + (archive.beforeRecords ++ archive.directoryBytes ++ archive.behindDirectory).length = eocd
    at isEnd
  have length : archive.bytes.length = eocd + 22 := by
    rw [← isEocd, Archive.bytes, List.length_append, endLength, Nat.zero_add]
  have signature : Bytes.At archive.bytes (eocd + 0) (stored 4 EOCD) := at_field isEnd 0 rfl rfl
  have count : Bytes.At archive.bytes (eocd + 10) (stored 2 archive.entries.length) :=
    at_field isEnd 3 rfl (by simp [Archive.endRecord, archive.isDisks])
  have size : Bytes.At archive.bytes (eocd + 12) (stored 4 archive.directoryBytes.length) :=
    at_field isEnd 4 rfl (by simp [Archive.endRecord, archive.isDisks])
  have start : Bytes.At archive.bytes (eocd + 16) (stored 4 archive.beforeRecords.length) :=
    at_field isEnd 5 rfl (by simp [Archive.endRecord, archive.isDisks])
  have isPlain : archive.beforeRecords.length < 0xffffffff ∧ archive.directoryBytes.length < 0xffffffff := plain
  have announced : ¬ (archive.entries.length = 0xffff ∨ archive.directoryBytes.length = 0xffffffff ∨
      archive.beforeRecords.length = 0xffffffff) := by omega
  have inRange : ¬ eocd < archive.beforeRecords.length + archive.directoryBytes.length := by
    rw [← isEocd, List.length_append, List.length_append]
    omega
  have isSignature : Bytes.numberAt archive.bytes 4 eocd = EOCD := numberAt_stored signature (by decide)
  unfold readZipEntry
  rw [if_neg (by omega), length, Nat.add_sub_cancel, findEocd_here (by omega) (by omega) isSignature, Bytes.ok_bind]
  dsimp only
  rw [readUInt16LE_inside (by omega), Bytes.ok_bind, readUInt32LE_inside (by omega), Bytes.ok_bind,
    readUInt32LE_inside (by omega), Bytes.ok_bind, numberAt_stored count (by omega), numberAt_stored size (by omega),
    numberAt_stored start (by omega), if_neg announced, if_neg inRange]
  rw [Nat.zero_add] at locals isDirectory
  have reachable : archive.leading.length + (localRecords archive.entries).length ≤ archive.beforeRecords.length := by
    rw [Archive.beforeRecords, List.length_append, List.length_append]
    exact Nat.le_add_right _ _
  exact walk_directory archive.entries isDirectory locals (by omega) archive.distinct member inverts admits

def StoredBlock (raw data : List UInt8) : Prop :=
  data.length < 65536 ∧ raw = 1 :: (stored 2 data.length ++ (stored 2 (65535 - data.length) ++ data))

/-- Inflates one block that is not compressed. -/
def inflateStoredBlock (raw : List UInt8) (limit : Limit) : Option (List UInt8) :=
  let data := raw.drop 5
  if raw.head? = some 1 ∧ Bytes.numberAt raw 2 1 = data.length ∧ Bytes.numberAt raw 2 3 = 65535 - data.length ∧
      limit.exceededBy data.length = false then some data
  else none

theorem inflateStoredBlock_inverts (limit : Limit) : InvertsDeflate StoredBlock inflateStoredBlock limit := by
  rintro raw data ⟨short, isRaw⟩ admits
  have whole : Bytes.At raw 0 ([1] ++ (stored 2 data.length ++ (stored 2 (65535 - data.length) ++ data))) :=
    ⟨[], [], by rw [isRaw]; simp, rfl⟩
  have isLength : Bytes.numberAt raw 2 1 = data.length := numberAt_stored whole.right.left (by omega)
  have isComplement : Bytes.numberAt raw 2 3 = 65535 - data.length := numberAt_stored whole.right.right.left (by omega)
  have isData : raw.drop 5 = data := by
    rw [isRaw, ← List.append_assoc]
    exact List.drop_left' (by simp)
  have first : raw.head? = some 1 := by rw [isRaw]; rfl
  rw [inflateStoredBlock, isData, if_pos ⟨first, isLength, isComplement, Limit.not_exceededBy admits⟩]

/-- Data that looks like the end of an archive. -/
def lookalike : List UInt8 := stored 4 EOCD ++ stored 18 0 ++ stored 4 CENTRAL ++ stored 4 LOCAL

def lookalikeEntry : Entry StoredBlock where
  name := "lookalike".toList
  data := lookalike
  method := .stored
  raw := lookalike
  isRaw := rfl
  flags := 0
  unencrypted := rfl
  localFields := stored 22 0
  localExtra := stored 3 0
  descriptor := []
  versions := stored 4 20
  time := stored 4 0
  attributes := stored 8 0
  extra := []
  comment := lookalike
  lengths := by decide
  fits := by decide
  small := by decide

def manifestEntry : Entry StoredBlock where
  name := "release.json".toList
  data := lookalike
  method := .deflated
  raw := 1 :: (stored 2 lookalike.length ++ (stored 2 (65535 - lookalike.length) ++ lookalike))
  isRaw := ⟨by decide, rfl⟩
  flags := 8
  unencrypted := rfl
  localFields := stored 22 0
  localExtra := []
  descriptor := stored 16 0
  versions := stored 4 20
  time := stored 4 0
  attributes := stored 8 0
  extra := stored 5 0
  comment := []
  lengths := by decide
  fits := by decide
  small := by decide

def lookalikes : Archive StoredBlock where
  entries := [lookalikeEntry, manifestEntry]
  distinct := by decide
  fewer := by decide
  leading := lookalike
  beforeDirectory := []
  behindDirectory := lookalike
  disks := stored 4 0
  isDisks := rfl
  plain := by decide +kernel

theorem lookalikes_read :
    readZipEntry lookalikes.bytes inflateStoredBlock (utf16 "release.json".toList) (.finite 64) =
      .ok (.ok lookalike) :=
  readZipEntry_complete StoredBlock lookalikes inflateStoredBlock (.finite 64) (inflateStoredBlock_inverts _)
    manifestEntry (List.mem_cons_of_mem _ List.mem_cons_self)
    (show ((lookalike.length : Nat) : Rat) ≤ 64 by decide +kernel)

end Zip
end GhaRelease
end Dokploy
