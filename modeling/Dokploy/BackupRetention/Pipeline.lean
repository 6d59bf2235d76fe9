import Dokploy.BackupRetention.Names
import Mathlib.Data.List.Dedup
import Mathlib.Data.List.Sort

namespace Dokploy
namespace BackupRetention

open Foundation
open RegistryRetention (Text)

/-!
# Listing, sorting and deleting

The retention step is one pipe: the names in a folder that pass a filter, sorted
backwards, without the first lines, each given to a delete.  It sees names only.  A
destination is what it holds at each path; which row wrote a file, and when, stands
beside the file for the statements and is read by nothing here.

A listing may also show the folders in a folder, with a slash; a delete of such a
line takes everything under it.  Both kinds of listing are modelled.
-/

structure StoredFile where
  path : Text
  /-- The row that wrote it and the time of the run. -/
  writer : Option (Nat × Instant)
deriving DecidableEq

abbrev Destination := List StoredFile

def copyto (file : StoredFile) (files : Destination) : Destination :=
  file :: files.filter fun other => other.path ≠ file.path

/-- A filter of rclone: a start, anything, and an end. -/
def includes (start ending name : Text) : Bool :=
  start.isPrefixOf name && ending.isSuffixOf name && decide (start.length + ending.length ≤ name.length)

/-- The line that a path gives in the listing of a folder. -/
def lineOf (showsFolders : Bool) (included : Text -> Bool) (folder path : Text) : Option Text :=
  if folder.isPrefixOf path then
    let rest := path.drop folder.length
    if '/' ∈ rest then
      if showsFolders then some (rest.takeWhile (· ≠ '/') ++ ['/']) else none
    else if included rest then some rest
    else none
  else none

def lsf (showsFolders : Bool) (included : Text -> Bool) (folder : Text) (files : Destination) : List Text :=
  (files.filterMap fun file => lineOf showsFolders included folder file.path).dedup

def sortReversed (lines : List Text) : List Text := lines.insertionSort (· ≥ ·)

/-- tail -n +number, which refuses a number below zero. -/
def tailFrom (number : Int) (lines : List Text) : List Text :=
  if number < 0 then [] else lines.drop (number - 1).toNat

/-- Whether rclone delete of a target takes a path: the file of that path, or one in that folder. -/
def takes (target path : Text) : Bool :=
  decide (path = target) || (decide (target.getLast? = some '/') && target.isPrefixOf path)

def rcloneDelete (target : Text) (files : Destination) : Destination :=
  files.filter fun file => !takes target file.path

def retentionCommand (showsFolders : Bool) (included : Text -> Bool) (folder : Text) (count : Int)
    (files : Destination) : Destination :=
  (tailFrom (count + 1) (sortReversed (lsf showsFolders included folder files))).foldl
    (fun left name => rcloneDelete (folder ++ name) left) files

def BackupSchedule.included (backup : BackupSchedule) (name : Text) : Bool :=
  if backup.databaseType = .webServer then includes [] ".zip".toList name
  else includes [] ".sql.gz".toList name || includes [] ".bson.gz".toList name

def keepLatestNBackups (showsFolders : Bool) (backup : BackupSchedule) (files : Destination) : Destination :=
  match backup.keepLatestCount with
  | none => files
  | some count =>
      if count = 0 then files
      else retentionCommand showsFolders backup.included (normalizeS3Path backup.backupPrefix) count files

def VolumeBackup.included (volumeBackup : VolumeBackup) (name : Text) : Bool :=
  includes (volumeBackup.volumeName ++ ['-']) ".tar".toList name

def cleanupOldVolumeBackups (showsFolders : Bool) (volumeBackup : VolumeBackup) (files : Destination) : Destination :=
  match volumeBackup.keepLatestCount with
  | none => files
  | some count =>
      if count = 0 then files
      else retentionCommand showsFolders volumeBackup.included volumeBackup.effectivePrefix count files

/-- What runVolumeBackup asks before the cleanup. -/
def VolumeBackup.cleansUp (volumeBackup : VolumeBackup) : Bool :=
  match volumeBackup.keepLatestCount with
  | none => false
  | some count => decide (count ≠ 0 ∧ 0 < count)

namespace BackupRow

/-- The folder that the retention step lists. -/
def listedFolder : BackupRow -> Text
  | backup row => normalizeS3Path row.backupPrefix
  | volumeBackup row => row.effectivePrefix

def included : BackupRow -> Text -> Bool
  | backup row => row.included
  | volumeBackup row => row.included

def retention (showsFolders : Bool) (row : BackupRow) (files : Destination) : Destination :=
  match row with
  | backup row => keepLatestNBackups showsFolders row files
  | volumeBackup row => if row.cleansUp then cleanupOldVolumeBackups showsFolders row files else files

/-- The count of the retention step, for a row that has one. -/
def retentionCount : BackupRow -> Option Int
  | backup row => row.keepLatestCount.filter fun count => decide (count ≠ 0)
  | volumeBackup row => row.keepLatestCount.filter fun count => decide (0 < count)

theorem retention_of_none {showsFolders : Bool} {row : BackupRow} (no : row.retentionCount = none)
    (files : Destination) : row.retention showsFolders files = files := by
  cases row with
  | backup row =>
      rw [retention, keepLatestNBackups]
      cases isCount : row.keepLatestCount with
      | none => rfl
      | some count =>
          rw [retentionCount, isCount, Option.filter_eq_none_iff] at no
          exact if_pos (of_not_not fun notZero => no count rfl (decide_eq_true notZero))
  | volumeBackup row =>
      rw [retention, VolumeBackup.cleansUp]
      cases isCount : row.keepLatestCount with
      | none => rfl
      | some count =>
          rw [retentionCount, isCount, Option.filter_eq_none_iff] at no
          have notPositive : ¬ (count ≠ 0 ∧ 0 < count) := fun both => no count rfl (decide_eq_true both.2)
          exact if_neg fun cleans => notPositive (of_decide_eq_true cleans)

theorem retention_of_some {showsFolders : Bool} {row : BackupRow} {count : Int} (has : row.retentionCount = some count)
    (files : Destination) :
    row.retention showsFolders files = retentionCommand showsFolders row.included row.listedFolder count files := by
  cases row with
  | backup row =>
      rcases Option.filter_eq_some_iff.mp has with ⟨isCount, notZero⟩
      rw [retention, keepLatestNBackups, isCount]
      exact if_neg (of_decide_eq_true notZero)
  | volumeBackup row =>
      rcases Option.filter_eq_some_iff.mp has with ⟨isCount, positive⟩
      have more := of_decide_eq_true positive
      have notZero : count ≠ 0 := by omega
      have cleans : row.cleansUp = true := by
        rw [VolumeBackup.cleansUp, isCount]
        exact decide_eq_true ⟨notZero, more⟩
      rw [retention, if_pos cleans, cleanupOldVolumeBackups, isCount]
      exact if_neg notZero

end BackupRow

theorem mem_copyto {file other : StoredFile} {files : Destination} :
    other ∈ copyto file files <-> other = file ∨ other ∈ files ∧ other.path ≠ file.path := by
  rw [copyto, List.mem_cons, List.mem_filter, decide_eq_true_iff]

theorem mem_deleteAll (folder : Text) (names : List Text) (files : Destination) (file : StoredFile) :
    file ∈ names.foldl (fun left name => rcloneDelete (folder ++ name) left) files <->
      file ∈ files ∧ forall name, name ∈ names -> takes (folder ++ name) file.path = false := by
  induction names generalizing files with
  | nil => exact ⟨fun member => ⟨member, fun _ none => absurd none List.not_mem_nil⟩, And.left⟩
  | cons name names ih =>
      rw [List.foldl_cons, ih, rcloneDelete, List.mem_filter, List.forall_mem_cons,
        Bool.not_eq_true', and_assoc]

theorem sortReversed_eq {lines sorted : List Text} (once : lines.Nodup) (descending : sorted.Pairwise (· > ·))
    (same : forall line, line ∈ lines <-> line ∈ sorted) : sortReversed lines = sorted := by
  have sortedOnce : sorted.Nodup := descending.imp fun greater => (ne_of_lt greater).symm
  have perm : (sortReversed lines).Perm sorted :=
    (List.perm_insertionSort _ lines).trans ((List.perm_ext_iff_of_nodup once sortedOnce).mpr same)
  refine perm.eq_of_pairwise (fun _ _ _ _ first second => le_antisymm second first)
    (List.pairwise_insertionSort _ lines) (descending.imp le_of_lt)

section OneRow

variable {showsFolders : Bool} {row : BackupRow}

theorem includes_append (start middle ending : Text) : includes start ending (start ++ middle ++ ending) = true := by
  rw [includes, List.append_assoc, List.isPrefixOf_iff_prefix.mpr (List.prefix_append _ _), ← List.append_assoc,
    List.isSuffixOf_iff_suffix.mpr (List.suffix_append _ _), Bool.true_and, Bool.true_and]
  refine decide_eq_true ?_
  rw [List.length_append, List.length_append]
  omega

theorem included_fileName (row : BackupRow) (time : Instant) : row.included (row.fileName time) = true := by
  cases row with
  | backup row =>
      rw [BackupRow.included, BackupRow.fileName, BackupSchedule.included, BackupSchedule.backupFileName]
      rcases isType : row.databaseType <;> dsimp only
      case webServer =>
        rw [if_pos rfl]
        exact includes_append [] ("webserver-backup-".toList ++ getBackupTimestamp time) _
      case mongo =>
        rw [if_neg (by decide)]
        exact Bool.or_eq_true_iff.mpr (Or.inr (includes_append [] _ _))
      all_goals
        rw [if_neg (by decide)]
        exact Bool.or_eq_true_iff.mpr (Or.inl (includes_append [] _ _))
  | volumeBackup row => exact includes_append _ _ _

theorem folder_eq_listedFolder (notLibsql : row.isLibsql = false) : row.folder = row.listedFolder := by
  cases row with
  | backup row =>
      have no : row.isLibsql = false := notLibsql
      rw [BackupRow.folder, BackupSchedule.getBackupFolder, no, if_neg Bool.false_ne_true, List.nil_append]
      rfl
  | volumeBackup row => rfl

theorem lineOf_own (notLibsql : row.isLibsql = false) {time : Instant} (fourDigits : time.year ≤ 9999) :
    lineOf showsFolders row.included row.listedFolder (row.bucketDestination time) = some (row.fileName time) := by
  rw [BackupRow.bucketDestination, folder_eq_listedFolder notLibsql, lineOf,
    if_pos (List.isPrefixOf_iff_prefix.mpr (List.prefix_append _ _)), List.drop_left]
  dsimp only
  rw [if_neg (row.slash_not_mem_fileName fourDigits), included_fileName, if_pos rfl]

theorem fileName_ne_nil (row : BackupRow) (time : Instant) : row.fileName time ≠ [] := by
  have more : forall extension, extension ∈ BackupRow.extensions -> extension ≠ [] := by decide
  rw [BackupRow.fileName_eq]
  exact fun none => more _ row.extension_mem (List.append_eq_nil_iff.mp none).2

theorem takes_own {time : Instant} (fourDigits : time.year ≤ 9999) (folder path : Text) :
    takes (folder ++ row.fileName time) path = decide (path = folder ++ row.fileName time) := by
  have noSlash : (folder ++ row.fileName time).getLast? ≠ some '/' := by
    rw [List.getLast?_append_of_ne_nil _ (fileName_ne_nil row time)]
    exact fun last => row.slash_not_mem_fileName fourDigits (List.mem_of_getLast? last)
  rw [takes, decide_eq_false noSlash, Bool.false_and, Bool.or_false]

theorem mem_retentionCommand (notLibsql : row.isLibsql = false) {count : Int} (atLeast : -1 ≤ count)
    {times : List Instant} (descending : times.Pairwise (· > ·))
    (fourDigits : forall time, time ∈ times -> time.year ≤ 9999) {files : Destination}
    (shows : forall line, line ∈ lsf showsFolders row.included row.listedFolder files <->
      Exists fun time => time ∈ times ∧ row.fileName time = line) (file : StoredFile) :
    file ∈ retentionCommand showsFolders row.included row.listedFolder count files <->
      file ∈ files ∧ forall time, time ∈ times.drop count.toNat -> file.path ≠ row.bucketDestination time := by
  have sorted : sortReversed (lsf showsFolders row.included row.listedFolder files) = times.map row.fileName := by
    refine sortReversed_eq (List.nodup_dedup _) (List.pairwise_map.mpr ?_) fun line => ?_
    · refine descending.imp_of_mem fun isTime isOther later => ?_
      exact row.fileName_lt (fourDigits _ isOther) (fourDigits _ isTime) later
    · rw [shows, List.mem_map]
  have notBelow : ¬ count + 1 < 0 := by omega
  rw [retentionCommand, sorted, tailFrom, if_neg notBelow, Int.add_sub_cancel, ← List.map_drop, mem_deleteAll]
  refine and_congr_right fun _ => ?_
  constructor
  · intro spared time isOld isPath
    have kept := spared _ (List.mem_map_of_mem isOld)
    rw [takes_own (fourDigits _ (List.mem_of_mem_drop isOld)), ← folder_eq_listedFolder notLibsql] at kept
    exact of_decide_eq_false kept isPath
  · intro differs name isName
    rcases List.mem_map.mp isName with ⟨time, isOld, isFile⟩
    rw [← isFile, takes_own (fourDigits _ (List.mem_of_mem_drop isOld)), ← folder_eq_listedFolder notLibsql]
    exact decide_eq_false (differs time isOld)

end OneRow

end BackupRetention
end Dokploy
