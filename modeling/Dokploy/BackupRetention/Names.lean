import Dokploy.Foundation.Layouts
import Dokploy.RegistryRetention.CurlOutput
import Mathlib.Data.List.DropRight

namespace Dokploy
namespace BackupRetention

open Foundation
open RegistryRetention (Text trim)

/-!
# What a backup run names its file

A run writes one file.  Its folder comes from the prefix of the row, or from the
app name of the service, and its name from the time of the run.  Nothing in a path
says which row wrote it.
-/

/-- A moment by its fields in UTC, within what a date of the language can hold. -/
structure Instant where
  year : Nat
  month : Nat
  day : Nat
  hours : Nat
  minutes : Nat
  seconds : Nat
  milliseconds : Nat
  year_le : year ≤ 275760
  isMonth : 1 ≤ month ∧ month ≤ 12
  isDay : 1 ≤ day ∧ day ≤ 31
  isTime : hours < 24 ∧ minutes < 60 ∧ seconds < 60 ∧ milliseconds < 1000
deriving DecidableEq

namespace Instant

def fields (time : Instant) : List Nat :=
  [time.year, time.month, time.day, time.hours, time.minutes, time.seconds, time.milliseconds]

theorem fields_injective {time other : Instant} (same : time.fields = other.fields) : time = other := by
  cases time
  cases other
  simp only [fields, List.cons.injEq, and_true] at same
  simp only [mk.injEq]
  exact same

instance : LT Instant where
  lt time other := time.fields < other.fields

instance (time other : Instant) : Decidable (time < other) :=
  inferInstanceAs (Decidable (time.fields < other.fields))

theorem lt_iff {time other : Instant} : time < other <-> time.fields < other.fields := Iff.rfl

theorem ne_of_lt {time other : Instant} (less : time < other) : time ≠ other := by
  intro same
  rw [same, lt_iff] at less
  exact absurd less (lt_irrefl _)

theorem lt_trans {time other third : Instant} (less : time < other) (more : other < third) : time < third :=
  lt_iff.mpr (List.lt_trans (lt_iff.mp less) (lt_iff.mp more))

/-- The columns of an ISO text, for a year of so many digits. -/
def isoColumns (yearWidth : Nat) : List (Nat × List Char) :=
  [(yearWidth, ['-']), (2, ['-']), (2, ['T']), (2, [':']), (2, [':']), (2, ['.']), (3, ['Z'])]

/-- A year of more than four digits is written with a sign and six. -/
def toISOString (time : Instant) : Text :=
  if time.year ≤ 9999 then layout (isoColumns 4) time.fields else '+' :: layout (isoColumns 6) time.fields

end Instant

def dashed (char : Char) : Char := if char = ':' ∨ char = '.' then '-' else char

def getBackupTimestamp (time : Instant) : Text := time.toISOString.map dashed

def stampColumns : List (Nat × List Char) :=
  [(4, ['-']), (2, ['-']), (2, ['T']), (2, ['-']), (2, ['-']), (2, ['-']), (3, ['Z'])]

theorem dashed_of_isDigit (char : Char) (digit : char.isDigit = true) : dashed char = char := by
  refine if_neg fun punctuation => ?_
  rcases punctuation with colon | dot
  · rw [colon] at digit
    exact absurd digit (by decide)
  · rw [dot] at digit
    exact absurd digit (by decide)

variable {time : Instant}

theorem fits_stampColumns (fourDigits : time.year ≤ 9999) : Fits stampColumns time.fields := by
  have month := time.isMonth
  have day := time.isDay
  have clock := time.isTime
  refine ⟨?_, ?_, ?_, ?_, ?_, ?_, ?_, trivial⟩ <;> omega

theorem getBackupTimestamp_eq (fourDigits : time.year ≤ 9999) :
    getBackupTimestamp time = layout stampColumns time.fields := by
  rw [getBackupTimestamp, Instant.toISOString, if_pos fourDigits, map_layout dashed dashed_of_isDigit]
  rfl

theorem length_getBackupTimestamp (fourDigits : time.year ≤ 9999) :
    (getBackupTimestamp time).length = 24 := by
  rw [getBackupTimestamp_eq fourDigits, length_layout (fits_stampColumns fourDigits)]
  rfl

theorem getBackupTimestamp_lt {other : Instant} (fourDigits : other.year ≤ 9999)
    (alsoFour : time.year ≤ 9999) (less : time < other) : getBackupTimestamp time < getBackupTimestamp other := by
  rw [getBackupTimestamp_eq fourDigits, getBackupTimestamp_eq alsoFour]
  exact layout_lt (fits_stampColumns alsoFour) (fits_stampColumns fourDigits) less

theorem getBackupTimestamp_injective {other : Instant} (fourDigits : time.year ≤ 9999)
    (alsoFour : other.year ≤ 9999) (same : getBackupTimestamp time = getBackupTimestamp other) : time = other := by
  rw [getBackupTimestamp_eq fourDigits, getBackupTimestamp_eq alsoFour] at same
  exact Instant.fields_injective (layout_injective (fits_stampColumns fourDigits) (fits_stampColumns alsoFour) same)

theorem slash_not_mem_getBackupTimestamp (fourDigits : time.year ≤ 9999) :
    '/' ∉ getBackupTimestamp time := by
  intro member
  rw [getBackupTimestamp_eq fourDigits] at member
  rcases mem_layout member with digit | ⟨column, isColumn, inText⟩
  · exact absurd digit (by decide)
  · revert inText
    revert column
    decide

def trimTrailingSlashes (value : Text) : Text := value.rdropWhile (· = '/')

/-- The prefix without the blanks and slashes at its ends, and then one slash. -/
def normalizeS3Path (backupPrefix : Text) : Text :=
  let normalizedPrefix := trimTrailingSlashes ((trim backupPrefix).dropWhile (· = '/'))
  if normalizedPrefix = [] then [] else normalizedPrefix ++ ['/']

/-- [a-zA-Z0-9._-] -/
def isSegmentChar (char : Char) : Bool := char.isAlphanum || char == '.' || char == '_' || char == '-'

/-- Every run of other characters becomes one dash. -/
def dashRuns : Text -> Text
  | [] => []
  | char :: rest =>
      if isSegmentChar char then char :: dashRuns rest
      else
        match rest with
        | [] => ['-']
        | next :: _ => if isSegmentChar next then '-' :: dashRuns rest else dashRuns rest

def sanitizePrefixSegment (value : Text) : Text :=
  ((dashRuns (trim value)).dropWhile (· = '-')).rdropWhile (· = '-')

/-- The prefix that a backup policy gives the rows of a service. -/
def computeServicePrefix (basePrefix : Option Text) (projectName serviceName : Text) : Text :=
  let base := trimTrailingSlashes ((trim (basePrefix.getD [])).dropWhile (· = '/'))
  let segments := ((base.splitOn '/').map sanitizePrefixSegment ++
    [sanitizePrefixSegment projectName, sanitizePrefixSegment serviceName]).filter (· ≠ [])
  if segments ≠ [] then (segments.intersperse ['/']).flatten
  else if sanitizePrefixSegment serviceName ≠ [] then sanitizePrefixSegment serviceName
  else "backup".toList

inductive DatabaseType where
  | postgres
  | mysql
  | mariadb
  | mongo
  | libsql
  | webServer
deriving DecidableEq

inductive BackupType where
  | database
  | compose
deriving DecidableEq

/-- A row of the backups: a database, a database in a compose, or the instance itself. -/
structure BackupSchedule where
  backupType : BackupType
  databaseType : DatabaseType
  /-- The app name of the service. -/
  appName : Text
  backupPrefix : Text
  keepLatestCount : Option Int
  /-- What validateBackupServiceBinding asks of an instance backup. -/
  bound : databaseType = .webServer -> backupType = .database

namespace BackupSchedule

def isLibsql (backup : BackupSchedule) : Bool := backup.backupType = .database ∧ backup.databaseType = .libsql

def getBackupFolder (backup : BackupSchedule) : Text :=
  (if backup.isLibsql then backup.appName ++ ['/'] else []) ++ normalizeS3Path backup.backupPrefix

def backupFileName (backup : BackupSchedule) (time : Instant) : Text :=
  match backup.databaseType with
  | .webServer => "webserver-backup-".toList ++ getBackupTimestamp time ++ ".zip".toList
  | .mongo => getBackupTimestamp time ++ ".bson.gz".toList
  | _ => getBackupTimestamp time ++ ".sql.gz".toList

end BackupSchedule

def isVolumeNameChar (char : Char) : Bool := char.isAlphanum || char == '_' || char == '.' || char == '-'

def isVolumeName : Text -> Bool
  | [] => false
  | char :: rest => char.isAlphanum && rest.all isVolumeNameChar

/-- A row of the volume backups.  A text that is missing is empty. -/
structure VolumeBackup where
  volumeName : Text
  backupPrefix : Text
  composeAppName : Text
  serviceName : Text
  /-- The app name of the application or database. -/
  serviceAppName : Text
  appName : Text
  keepLatestCount : Option Int
  /-- What is checked again every time the row runs. -/
  named : isVolumeName volumeName = true

namespace VolumeBackup

def getVolumeServiceAppName (volumeBackup : VolumeBackup) : Text :=
  if volumeBackup.composeAppName ≠ [] then
    if volumeBackup.serviceName ≠ [] then volumeBackup.composeAppName ++ ['_'] ++ volumeBackup.serviceName
    else volumeBackup.composeAppName
  else if volumeBackup.serviceAppName ≠ [] then volumeBackup.serviceAppName
  else volumeBackup.appName

def effectivePrefix (volumeBackup : VolumeBackup) : Text :=
  if volumeBackup.backupPrefix ≠ [] then normalizeS3Path volumeBackup.backupPrefix
  else volumeBackup.getVolumeServiceAppName ++ ['/']

def backupFileName (volumeBackup : VolumeBackup) (time : Instant) : Text :=
  volumeBackup.volumeName ++ ['-'] ++ getBackupTimestamp time ++ ".tar".toList

end VolumeBackup

inductive BackupRow where
  | backup (row : BackupSchedule)
  | volumeBackup (row : VolumeBackup)

namespace BackupRow

def folder : BackupRow -> Text
  | backup row => row.getBackupFolder
  | volumeBackup row => row.effectivePrefix

def fileName : BackupRow -> Instant -> Text
  | backup row, time => row.backupFileName time
  | volumeBackup row, time => row.backupFileName time

def bucketDestination (row : BackupRow) (time : Instant) : Text := row.folder ++ row.fileName time

def isLibsql : BackupRow -> Bool
  | backup row => row.isLibsql
  | volumeBackup _ => false

/-- What stands before the time in a file name. -/
def lead : BackupRow -> Text
  | backup row => if row.databaseType = .webServer then "webserver-backup-".toList else []
  | volumeBackup row => row.volumeName ++ ['-']

def extension : BackupRow -> Text
  | backup row =>
      match row.databaseType with
      | .webServer => ".zip".toList
      | .mongo => ".bson.gz".toList
      | _ => ".sql.gz".toList
  | volumeBackup _ => ".tar".toList

theorem fileName_eq (row : BackupRow) (time : Instant) :
    row.fileName time = row.lead ++ getBackupTimestamp time ++ row.extension := by
  cases row with
  | backup row =>
      rcases isType : row.databaseType <;>
        simp only [fileName, lead, extension, BackupSchedule.backupFileName, isType, if_true, if_neg, reduceCtorEq,
          not_false_eq_true, List.nil_append]
  | volumeBackup row => rfl

/-- All the texts that a file name can end with. -/
def extensions : List Text := [".zip".toList, ".bson.gz".toList, ".sql.gz".toList, ".tar".toList]

theorem extension_mem (row : BackupRow) : row.extension ∈ extensions := by
  cases row with
  | backup row => rcases isType : row.databaseType <;> simp only [extension, isType] <;> decide
  | volumeBackup row => simp only [extension]; decide

theorem extension_eq_of_suffix {row other : BackupRow} {path : Text} (ends : row.extension <:+ path)
    (alsoEnds : other.extension <:+ path) : row.extension = other.extension := by
  have apart : forall first, first ∈ extensions -> forall second, second ∈ extensions -> first <:+ second ->
      first = second := by decide
  rcases Nat.le_total row.extension.length other.extension.length with shorter | longer
  · exact apart _ row.extension_mem _ other.extension_mem (List.suffix_of_suffix_length_le ends alsoEnds shorter)
  · exact (apart _ other.extension_mem _ row.extension_mem
      (List.suffix_of_suffix_length_le alsoEnds ends longer)).symm

theorem time_of_bucketDestination {row other : BackupRow} {time otherTime : Instant} (fourDigits : time.year ≤ 9999)
    (alsoFour : otherTime.year ≤ 9999)
    (same : row.bucketDestination time = other.bucketDestination otherTime) : time = otherTime := by
  rw [bucketDestination, bucketDestination, fileName_eq, fileName_eq, ← List.append_assoc, ← List.append_assoc,
    ← List.append_assoc, ← List.append_assoc] at same
  have ends : row.extension <:+ row.folder ++ row.lead ++ getBackupTimestamp time ++ row.extension :=
    List.suffix_append _ _
  have alsoEnds : other.extension <:+ row.folder ++ row.lead ++ getBackupTimestamp time ++ row.extension := by
    rw [same]
    exact List.suffix_append _ _
  have extensionEq : row.extension = other.extension := extension_eq_of_suffix ends alsoEnds
  rw [extensionEq] at same
  have stamps := List.append_inj_right' (List.append_cancel_right same)
    ((length_getBackupTimestamp fourDigits).trans (length_getBackupTimestamp alsoFour).symm)
  exact getBackupTimestamp_injective fourDigits alsoFour stamps

theorem fileName_lt (row : BackupRow) {time other : Instant} (fourDigits : time.year ≤ 9999)
    (alsoFour : other.year ≤ 9999) (less : time < other) : row.fileName time < row.fileName other := by
  rw [fileName_eq, fileName_eq, List.append_assoc, List.append_assoc]
  refine List.append_left_lt (append_lt_append (getBackupTimestamp_lt alsoFour fourDigits less) ?_ _ _)
  rw [length_getBackupTimestamp fourDigits, length_getBackupTimestamp alsoFour]

theorem slash_not_mem_volumeName (row : VolumeBackup) : '/' ∉ row.volumeName := by
  intro member
  have named := row.named
  cases isName : row.volumeName with
  | nil =>
      rw [isName] at member
      exact absurd member List.not_mem_nil
  | cons char rest =>
      rw [isName, isVolumeName, Bool.and_eq_true, List.all_eq_true] at named
      rw [isName] at member
      rcases List.mem_cons.mp member with isSlash | inRest
      · exact absurd (isSlash ▸ named.1) (by decide)
      · exact absurd (named.2 _ inRest) (by decide)

theorem slash_not_mem_fileName (row : BackupRow) {time : Instant} (fourDigits : time.year ≤ 9999) :
    '/' ∉ row.fileName time := by
  have noExtension : '/' ∉ row.extension := by
    have none : forall extension, extension ∈ extensions -> '/' ∉ extension := by decide
    exact none _ row.extension_mem
  have noLead : '/' ∉ row.lead := by
    cases row with
    | backup row =>
        rw [lead]
        split <;> decide
    | volumeBackup row =>
        rw [lead, List.mem_append]
        exact fun member => member.elim (slash_not_mem_volumeName row) (by decide)
  rw [fileName_eq, List.mem_append, List.mem_append]
  rintro ((inLead | inStamp) | inExtension)
  · exact noLead inLead
  · exact slash_not_mem_getBackupTimestamp fourDigits inStamp
  · exact noExtension inExtension

end BackupRow

end BackupRetention
end Dokploy
