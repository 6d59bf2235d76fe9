import Dokploy.BackupRetention.Pipeline
import Dokploy.Foundation.Machine

namespace Dokploy
namespace BackupRetention

open Foundation
open RegistryRetention (Text)

/-!
# Runs of rows that share a destination

The rows run in any order at increasing times.  Each run writes its file, and the
retention step of the row follows.  The history says, for every run, what the
destination held before and after that step.

A retention step that lists only its own row's files keeps that row's newest ones
and takes nothing of another row.  Whether it lists only those is decided by the
folders and names of the other rows, and nothing in the code sees to it.
-/

structure Ran where
  row : Nat
  /-- The count of the retention step, if there is one. -/
  count : Option Int
  /-- The times at which the row ran so far, the newest first. -/
  runs : List Instant
  before : Destination
  after : Destination
deriving DecidableEq

structure Shared where
  files : Destination
  runs : Nat -> List Instant
  last : Option Instant

structure RowRun where
  row : Nat
  time : Instant

def Shared.precedes (state : Shared) (time : Instant) : Bool := state.last.all fun last => decide (last < time)

def Shared.write (state : Shared) (row : BackupRow) (event : RowRun) : Destination :=
  copyto { path := row.bucketDestination event.time, writer := some (event.row, event.time) } state.files

def runRow (showsFolders : Bool) (row : BackupRow) (state : Shared) (event : RowRun) : Shared where
  files := row.retention showsFolders (state.write row event)
  runs := Function.update state.runs event.row (event.time :: state.runs event.row)
  last := some event.time

def machine (showsFolders : Bool) (rows : List BackupRow) (files : Destination) : Machine Shared RowRun Ran where
  initial := { files, runs := fun _ => [], last := none }
  step state event :=
    match rows[event.row]? with
    | none => none
    | some row =>
        if state.precedes event.time then
          some (runRow showsFolders row state event, [{
            row := event.row
            count := row.retentionCount
            runs := event.time :: state.runs event.row
            before := state.write row event
            after := row.retention showsFolders (state.write row event) }])
        else none

/-- A retention step with a count leaves the newest files of its row, no older one, and all files of other rows. -/
structure Ran.DeletesOwnOld (ran : Ran) (count : Int) : Prop where
  own : forall time, (Exists fun file => file ∈ ran.after ∧ file.writer = some (ran.row, time)) <->
    time ∈ ran.runs.take count.toNat
  others : forall file, file ∈ ran.before -> forall row time, file.writer = some (row, time) -> row ≠ ran.row ->
    file ∈ ran.after

/-- Every retention step of a history, then, deletes only old files of its own row. -/
def RetentionHolds (history : List Ran) : Prop :=
  forall ran, ran ∈ history -> forall count, ran.count = some count -> ran.DeletesOwnOld count

/-- A run before the year 10000, of a row that has no retention step, or one whose listing shows nothing but the files
of the row: not that of a libsql database, with a count that tail takes. -/
structure ListsOwn (showsFolders : Bool) (rows : List BackupRow) (state : Shared) (event : RowRun) : Prop where
  fourDigits : event.time.year ≤ 9999
  notLibsql : forall row count, rows[event.row]? = some row -> row.retentionCount = some count -> row.isLibsql = false
  atLeast : forall row count, rows[event.row]? = some row -> row.retentionCount = some count -> -1 ≤ count
  lists : forall row count, rows[event.row]? = some row -> row.retentionCount = some count ->
    forall file, file ∈ state.files -> forall line,
      lineOf showsFolders row.included row.listedFolder file.path = some line ->
        Exists fun time => file.writer = some (event.row, time)

/-- The times of the runs whose files are left. -/
def BackupRow.kept (row : BackupRow) (runs : List Instant) : List Instant :=
  match row.retentionCount with
  | none => runs
  | some count => runs.take count.toNat

structure Kept (rows : List BackupRow) (state : Shared) : Prop where
  holds : forall index row, rows[index]? = some row -> forall time,
    (Exists fun file => file ∈ state.files ∧ file.writer = some (index, time)) <-> time ∈ row.kept (state.runs index)
  written : forall file, file ∈ state.files -> forall index time, file.writer = some (index, time) ->
    Exists fun row => rows[index]? = some row ∧ file.path = row.bucketDestination time
  descending : forall index, (state.runs index).Pairwise (· > ·)
  earlier : forall index time, time ∈ state.runs index -> forall next, state.precedes next = true -> time < next
  fourDigits : forall index time, time ∈ state.runs index -> time.year ≤ 9999

theorem kept_sublist (row : BackupRow) (runs : List Instant) : (row.kept runs).Sublist runs := by
  rw [BackupRow.kept]
  split
  · exact List.Sublist.refl _
  · exact List.take_sublist _ _

theorem take_cons_take {α : Type} (first : α) (rest : List α) (count : Nat) :
    (first :: rest.take count).take count = (first :: rest).take count := by
  cases count with
  | zero => rfl
  | succ count => rw [List.take_succ_cons, List.take_succ_cons, List.take_take, Nat.min_eq_left (Nat.le_succ count)]

section Step

variable {showsFolders : Bool} {rows : List BackupRow} {state : Shared} {event : RowRun} {row : BackupRow}

variable {file : StoredFile} {time : Instant} {index : Nat}

theorem Kept.mem_runs (kept : Kept rows state) (member : file ∈ state.files) (wrote : file.writer = some (index, time)) :
    time ∈ state.runs index := by
  rcases kept.written file member index time wrote with ⟨row, isRow, _⟩
  exact (kept_sublist row _).subset ((kept.holds index row isRow time).mp ⟨file, member, wrote⟩)

theorem Kept.path_ne (kept : Kept rows state) (lists : ListsOwn showsFolders rows state event)
    (later : state.precedes event.time = true) (member : file ∈ state.files) (wrote : file.writer = some (index, time)) (row : BackupRow) :
    file.path ≠ row.bucketDestination event.time := by
  intro same
  rcases kept.written file member index time wrote with ⟨_, _, isPath⟩
  have ran := kept.mem_runs member wrote
  have sameTime := BackupRow.time_of_bucketDestination (kept.fourDigits _ _ ran) lists.fourDigits
    (isPath.symm.trans same)
  exact Instant.ne_of_lt (kept.earlier _ _ ran _ later) sameTime

theorem Kept.mem_write (kept : Kept rows state) (lists : ListsOwn showsFolders rows state event)
    (later : state.precedes event.time = true)
    (wrote : file.writer = some (index, time)) (row : BackupRow) :
    file ∈ state.write row event <->
      file = { path := row.bucketDestination event.time, writer := some (event.row, event.time) } ∨
        file ∈ state.files := by
  rw [Shared.write, mem_copyto]
  refine or_congr_right (and_iff_left_of_imp fun member => ?_)
  exact kept.path_ne lists later member wrote row

/-- The files that the row has when its retention step lists them. -/
def Shared.listedTimes (state : Shared) (row : BackupRow) (event : RowRun) : List Instant :=
  event.time :: row.kept (state.runs event.row)

theorem Kept.listedTimes_descending (kept : Kept rows state) (later : state.precedes event.time = true)
    (row : BackupRow) : (state.listedTimes row event).Pairwise (· > ·) := by
  have sublist := kept_sublist row (state.runs event.row)
  refine List.pairwise_cons.mpr ⟨fun time member => ?_, (kept.descending event.row).sublist sublist⟩
  exact kept.earlier _ _ (sublist.subset member) _ later

theorem Kept.fourDigits_listedTimes (kept : Kept rows state) (lists : ListsOwn showsFolders rows state event)
    (row : BackupRow) (member : time ∈ state.listedTimes row event) : time.year ≤ 9999 := by
  rcases List.mem_cons.mp member with isNew | isOld
  · rw [isNew]
    exact lists.fourDigits
  · exact kept.fourDigits _ _ ((kept_sublist row _).subset isOld)

theorem Kept.writer_write (kept : Kept rows state) (lists : ListsOwn showsFolders rows state event)
    (later : state.precedes event.time = true) (isRow : rows[event.row]? = some row) (time : Instant) :
    (Exists fun file => file ∈ state.write row event ∧ file.writer = some (event.row, time)) <->
      time ∈ state.listedTimes row event := by
  rw [Shared.listedTimes, List.mem_cons, ← kept.holds event.row row isRow time]
  constructor
  · rintro ⟨file, member, wrote⟩
    rcases (kept.mem_write lists later wrote row).mp member with isNew | isOld
    · rw [isNew, Option.some.injEq, Prod.mk.injEq] at wrote
      exact Or.inl wrote.2.symm
    · exact Or.inr ⟨file, isOld, wrote⟩
  · rintro (isNew | ⟨file, member, wrote⟩)
    · rw [isNew]
      exact ⟨_, (kept.mem_write lists later rfl row).mpr (Or.inl rfl), rfl⟩
    · exact ⟨file, (kept.mem_write lists later wrote row).mpr (Or.inr member), wrote⟩

theorem Kept.path_of_writer (kept : Kept rows state) (lists : ListsOwn showsFolders rows state event)
    (later : state.precedes event.time = true) (isRow : rows[event.row]? = some row)
    (member : file ∈ state.write row event) (wrote : file.writer = some (event.row, time)) :
    file.path = row.bucketDestination time := by
  rcases (kept.mem_write lists later wrote row).mp member with isNew | isOld
  · rw [isNew] at wrote ⊢
    rw [Option.some.injEq, Prod.mk.injEq] at wrote
    rw [wrote.2]
  · rcases kept.written file isOld _ time wrote with ⟨found, isFound, isPath⟩
    rw [isPath, Option.some.inj (isRow.symm.trans isFound)]

theorem ListsOwn.writer_of_line (lists : ListsOwn showsFolders rows state event) (isRow : rows[event.row]? = some row)
    {count : Int} (has : row.retentionCount = some count) (member : file ∈ state.write row event)
    {line : Text} (shown : lineOf showsFolders row.included row.listedFolder file.path = some line) :
    Exists fun time => file.writer = some (event.row, time) := by
  rcases mem_copyto.mp member with isNew | ⟨isOld, _⟩
  · rw [isNew]
    exact ⟨_, rfl⟩
  · exact lists.lists row count isRow has file isOld line shown

theorem Kept.mem_lsf (kept : Kept rows state) (lists : ListsOwn showsFolders rows state event)
    (later : state.precedes event.time = true) (isRow : rows[event.row]? = some row) {count : Int}
    (has : row.retentionCount = some count) (line : Text) :
    line ∈ lsf showsFolders row.included row.listedFolder (state.write row event) <->
      Exists fun time => time ∈ state.listedTimes row event ∧ row.fileName time = line := by
  have notLibsql := lists.notLibsql row count isRow has
  rw [lsf, List.mem_dedup, List.mem_filterMap]
  constructor
  · rintro ⟨file, member, shown⟩
    rcases lists.writer_of_line isRow has member shown with ⟨time, wrote⟩
    have isTime := (kept.writer_write lists later isRow time).mp ⟨file, member, wrote⟩
    rw [kept.path_of_writer lists later isRow member wrote,
      lineOf_own notLibsql (kept.fourDigits_listedTimes lists row isTime)] at shown
    exact ⟨time, isTime, Option.some.inj shown⟩
  · rintro ⟨time, isTime, isLine⟩
    rcases (kept.writer_write lists later isRow time).mpr isTime with ⟨file, member, wrote⟩
    refine ⟨file, member, ?_⟩
    rw [kept.path_of_writer lists later isRow member wrote,
      lineOf_own notLibsql (kept.fourDigits_listedTimes lists row isTime), isLine]

theorem Kept.mem_retention (kept : Kept rows state) (lists : ListsOwn showsFolders rows state event)
    (later : state.precedes event.time = true) (isRow : rows[event.row]? = some row) {count : Int}
    (has : row.retentionCount = some count) (file : StoredFile) :
    file ∈ row.retention showsFolders (state.write row event) <->
      file ∈ state.write row event ∧ forall time, time ∈ (state.listedTimes row event).drop count.toNat ->
        file.path ≠ row.bucketDestination time := by
  rw [BackupRow.retention_of_some has]
  exact mem_retentionCommand (lists.notLibsql row count isRow has) (lists.atLeast row count isRow has)
    (kept.listedTimes_descending later row) (fun _ member => kept.fourDigits_listedTimes lists row member)
    (kept.mem_lsf lists later isRow has) file

theorem Kept.others_left (kept : Kept rows state) (lists : ListsOwn showsFolders rows state event)
    (later : state.precedes event.time = true) (isRow : rows[event.row]? = some row)
    (member : file ∈ state.write row event) (wrote : file.writer = some (index, time))
    (other : index ≠ event.row) : file ∈ row.retention showsFolders (state.write row event) := by
  cases has : row.retentionCount with
  | none =>
      rw [BackupRow.retention_of_none has]
      exact member
  | some count =>
      refine (kept.mem_retention lists later isRow has file).mpr ⟨member, fun old isOld isPath => ?_⟩
      have shown := @lineOf_own showsFolders row (lists.notLibsql row count isRow has) old
        (kept.fourDigits_listedTimes lists row (List.mem_of_mem_drop isOld))
      rw [← isPath] at shown
      rcases lists.writer_of_line isRow has member shown with ⟨_, alsoWrote⟩
      rw [wrote, Option.some.injEq, Prod.mk.injEq] at alsoWrote
      exact other alsoWrote.1

theorem Kept.own_left (kept : Kept rows state) (lists : ListsOwn showsFolders rows state event)
    (later : state.precedes event.time = true) (isRow : rows[event.row]? = some row) (time : Instant) :
    (Exists fun file => file ∈ row.retention showsFolders (state.write row event) ∧
      file.writer = some (event.row, time)) <-> time ∈ row.kept (event.time :: state.runs event.row) := by
  cases has : row.retentionCount with
  | none =>
      have all : forall runs, row.kept runs = runs := fun runs => by rw [BackupRow.kept, has]
      rw [BackupRow.retention_of_none has, kept.writer_write lists later isRow, Shared.listedTimes, all, all]
  | some count =>
      have newest : forall runs, row.kept runs = runs.take count.toNat := fun runs => by rw [BackupRow.kept, has]
      have isTake : row.kept (event.time :: state.runs event.row) = (state.listedTimes row event).take count.toNat := by
        rw [newest, Shared.listedTimes, newest, take_cons_take]
      have apart : ((state.listedTimes row event).take count.toNat ++
          (state.listedTimes row event).drop count.toNat).Pairwise (· > ·) := by
        rw [List.take_append_drop]
        exact kept.listedTimes_descending later row
      rw [isTake]
      constructor
      · rintro ⟨file, member, wrote⟩
        rcases (kept.mem_retention lists later isRow has file).mp member with ⟨inWrite, spared⟩
        have isTime := (kept.writer_write lists later isRow time).mp ⟨file, inWrite, wrote⟩
        rw [← List.take_append_drop count.toNat (state.listedTimes row event)] at isTime
        refine (List.mem_append.mp isTime).resolve_right fun isOld => ?_
        exact spared time isOld (kept.path_of_writer lists later isRow inWrite wrote)
      · intro isNewest
        have isTime := List.mem_of_mem_take isNewest
        rcases (kept.writer_write lists later isRow time).mpr isTime with ⟨file, inWrite, wrote⟩
        refine ⟨file, (kept.mem_retention lists later isRow has file).mpr ⟨inWrite, fun old isOld isPath => ?_⟩, wrote⟩
        rw [kept.path_of_writer lists later isRow inWrite wrote] at isPath
        have same := BackupRow.time_of_bucketDestination (kept.fourDigits_listedTimes lists row isTime)
          (kept.fourDigits_listedTimes lists row (List.mem_of_mem_drop isOld)) isPath
        exact Instant.ne_of_lt ((List.pairwise_append.mp apart).2.2 time isNewest old isOld) same.symm

theorem Kept.deletesOwnOld (kept : Kept rows state) (lists : ListsOwn showsFolders rows state event)
    (later : state.precedes event.time = true) (isRow : rows[event.row]? = some row) {count : Int}
    (has : row.retentionCount = some count) :
    Ran.DeletesOwnOld {
      row := event.row
      count := row.retentionCount
      runs := event.time :: state.runs event.row
      before := state.write row event
      after := row.retention showsFolders (state.write row event) } count where
  own := by
    intro time
    have newest : row.kept (event.time :: state.runs event.row) =
        (event.time :: state.runs event.row).take count.toNat := by rw [BackupRow.kept, has]
    rw [← newest]
    exact kept.own_left lists later isRow time
  others := fun _ member _ _ wrote other => kept.others_left lists later isRow member wrote other

theorem retention_subset (showsFolders : Bool) (row : BackupRow) {files : Destination}
    (member : file ∈ row.retention showsFolders files) : file ∈ files := by
  cases has : row.retentionCount with
  | none => exact BackupRow.retention_of_none has files ▸ member
  | some count =>
      rw [BackupRow.retention_of_some has, retentionCommand, mem_deleteAll] at member
      exact member.1

theorem runs_runRow_self : (runRow showsFolders row state event).runs event.row =
    event.time :: state.runs event.row := Function.update_self _ _ _

theorem runs_runRow_of_ne (other : index ≠ event.row) :
    (runRow showsFolders row state event).runs index = state.runs index := Function.update_of_ne other _ _

theorem mem_runs_runRow
    (member : time ∈ (runRow showsFolders row state event).runs index) :
    time = event.time ∨ time ∈ state.runs index := by
  by_cases same : index = event.row
  · rw [same, runs_runRow_self] at member
    rw [same]
    exact List.mem_cons.mp member
  · rw [runs_runRow_of_ne same] at member
    exact Or.inr member

theorem Kept.runRow (kept : Kept rows state) (lists : ListsOwn showsFolders rows state event)
    (later : state.precedes event.time = true) (isRow : rows[event.row]? = some row) :
    Kept rows (runRow showsFolders row state event) where
  holds := by
    intro index other isOther time
    by_cases same : index = event.row
    · subst same
      rw [Option.some.inj (isOther.symm.trans isRow), runs_runRow_self]
      exact kept.own_left lists later isRow time
    · rw [runs_runRow_of_ne same, ← kept.holds index other isOther time]
      constructor
      · rintro ⟨file, member, wrote⟩
        rcases (kept.mem_write lists later wrote row).mp (retention_subset showsFolders row member) with isNew | isOld
        · rw [isNew, Option.some.injEq, Prod.mk.injEq] at wrote
          exact absurd wrote.1.symm same
        · exact ⟨file, isOld, wrote⟩
      · rintro ⟨file, member, wrote⟩
        have inWrite := (kept.mem_write lists later wrote row).mpr (Or.inr member)
        exact ⟨file, kept.others_left lists later isRow inWrite wrote same, wrote⟩
  written := by
    intro file member index time wrote
    rcases (kept.mem_write lists later wrote row).mp (retention_subset showsFolders row member) with isNew | isOld
    · rw [isNew, Option.some.injEq, Prod.mk.injEq] at wrote
      rw [← wrote.1, ← wrote.2, isNew]
      exact ⟨row, isRow, rfl⟩
    · exact kept.written file isOld index time wrote
  descending := by
    intro index
    by_cases same : index = event.row
    · subst same
      rw [runs_runRow_self]
      exact List.pairwise_cons.mpr
        ⟨fun time member => kept.earlier _ time member _ later, kept.descending event.row⟩
    · rw [runs_runRow_of_ne same]
      exact kept.descending index
  earlier := by
    intro index time member next precedes
    have after : event.time < next := of_decide_eq_true precedes
    rcases mem_runs_runRow member with isNew | isOld
    · rw [isNew]
      exact after
    · exact Instant.lt_trans (kept.earlier index time isOld _ later) after
  fourDigits := by
    intro index time member
    rcases mem_runs_runRow member with isNew | isOld
    · rw [isNew]
      exact lists.fourDigits
    · exact kept.fourDigits index time isOld

end Step

theorem kept_start (rows : List BackupRow) (showsFolders : Bool) {files : Destination}
    (foreign : forall file, file ∈ files -> file.writer = none) :
    Kept rows (machine showsFolders rows files).initial where
  holds := by
    intro index row isRow time
    constructor
    · rintro ⟨file, member, wrote⟩
      rw [foreign file member] at wrote
      cases wrote
    · exact fun member => absurd ((kept_sublist row []).subset member) List.not_mem_nil
  written := by
    intro file member index time wrote
    rw [foreign file member] at wrote
    cases wrote
  descending := fun _ => List.Pairwise.nil
  earlier := fun _ _ member => absurd member List.not_mem_nil
  fourDigits := fun _ _ member => absurd member List.not_mem_nil

theorem machine_step {showsFolders : Bool} {rows : List BackupRow} {files : Destination} {state after : Shared}
    {event : RowRun} {output : List Ran}
    (stepped : (machine showsFolders rows files).step state event = some (after, output)) :
    Exists fun row => rows[event.row]? = some row ∧ state.precedes event.time = true ∧
      after = runRow showsFolders row state event ∧ output = [{
        row := event.row
        count := row.retentionCount
        runs := event.time :: state.runs event.row
        before := state.write row event
        after := row.retention showsFolders (state.write row event) }] := by
  dsimp only [machine] at stepped
  split at stepped
  · cases stepped
  · rename_i row isRow
    split at stepped
    · rename_i later
      rw [Option.some.injEq, Prod.mk.injEq] at stepped
      exact ⟨row, isRow, later, stepped.1.symm, stepped.2.symm⟩
    · cases stepped

/-- The row that a policy gives the Postgres database of a name in a project. -/
def policyRow (appName projectName serviceName : Text) : BackupRow :=
  .backup {
    backupType := .database
    databaseType := .postgres
    appName
    backupPrefix := computeServicePrefix none projectName serviceName
    keepLatestCount := some 1
    bound := fun isWebServer => nomatch isWebServer }

def atNoon (day : Nat) (isDay : 1 ≤ day ∧ day ≤ 31) : Instant where
  year := 2025
  month := 6
  day
  hours := 12
  minutes := 0
  seconds := 0
  milliseconds := 0
  year_le := by decide
  isMonth := by decide
  isDay
  isTime := by decide

def sameNames : List BackupRow :=
  [policyRow "shop-db-a1".toList "Shop".toList "db".toList, policyRow "shop-db-b2".toList "Shop".toList "db".toList]

def firstRun : RowRun := { row := 0, time := atNoon 1 (by decide) }

def secondRun : RowRun := { row := 1, time := atNoon 2 (by decide) }

def listsOwn (showsFolders : Bool) (rows : List BackupRow) (state : Shared) (event : RowRun) : Bool :=
  decide (event.time.year ≤ 9999) &&
    match rows[event.row]? with
    | none => true
    | some row =>
        match row.retentionCount with
        | none => true
        | some count =>
            !row.isLibsql && decide (-1 ≤ count) && state.files.all fun file =>
              (lineOf showsFolders row.included row.listedFolder file.path).isNone ||
                (file.writer.map Prod.fst == some event.row)

theorem listsOwn_sound (showsFolders : Bool) (rows : List BackupRow) (state : Shared) (event : RowRun)
    (tested : listsOwn showsFolders rows state event = true) : ListsOwn showsFolders rows state event := by
  rw [listsOwn, Bool.and_eq_true] at tested
  have parts : forall row count, rows[event.row]? = some row -> row.retentionCount = some count ->
      (row.isLibsql = false ∧ -1 ≤ count) ∧ forall file, file ∈ state.files ->
        (lineOf showsFolders row.included row.listedFolder file.path).isNone = true ∨
          file.writer.map Prod.fst = some event.row := by
    intro row count isRow has
    have rest := tested.2
    rw [isRow] at rest
    dsimp only at rest
    rw [has] at rest
    simpa only [Bool.and_eq_true, Bool.not_eq_true', decide_eq_true_eq, List.all_eq_true, Bool.or_eq_true,
      beq_iff_eq] using rest
  refine ⟨of_decide_eq_true tested.1, fun row count isRow has => (parts row count isRow has).1.1,
    fun row count isRow has => (parts row count isRow has).1.2, ?_⟩
  intro row count isRow has file member line shown
  rcases (parts row count isRow has).2 file member with hidden | wrote
  · rw [shown] at hidden
    cases hidden
  · rcases Option.map_eq_some_iff.mp wrote with ⟨⟨index, time⟩, isWriter, isIndex⟩
    exact ⟨time, by rw [isWriter, ← isIndex]⟩

def twoProjects : List BackupRow :=
  [policyRow "shop-db-a1".toList "Shop".toList "db".toList, policyRow "blog-db-b2".toList "Blog".toList "db".toList]

def thirdRun : RowRun := { row := 0, time := atNoon 3 (by decide) }

end BackupRetention
end Dokploy
