import Dokploy.Foundation.Pending
import Dokploy.Foundation.SerialTable
import Dokploy.QueueJournal.StoredPayload

namespace Dokploy
namespace QueueJournal

open Foundation DeployQueue

/-!
# The journal table

One row for each job the queue still owes, under the journal id of the job.
The functions are the statements the code issues.  The journal of a process
issues four of them as writes that may outlast their caller; the other two are
awaited by the restore.

The entry of an id is what its row says about the job.  A write acts on the
entries one by one, and most writes act on one entry only.
-/

/-- The columns of a row besides `jobId` and `seq`. -/
structure DeploymentQueueJob where
  payload : Json
  state : JobState
  attempts : Nat
  enqueuedAt : Nat
  startedAt : Option Nat

abbrev DeploymentQueueJobRow : Type := SerialRow String DeploymentQueueJob

abbrev JournalTable : Type := SerialTable String DeploymentQueueJob

namespace JournalTable

/-- A retried insert does nothing.  `now` is the clock of the database. -/
def insertQueueJob (table : JournalTable) (jobId : String) (payload : Json) (now : Nat) : JournalTable :=
  table.insertNew jobId
    { payload := payload, state := .waiting, attempts := 0, enqueuedAt := now, startedAt := none }

/-- Replace the payload of a job that is still waiting. -/
def updateQueueJobPayload (table : JournalTable) (jobId : String) (payload : Json) : JournalTable :=
  table.updateWhere (· == jobId) fun row =>
    if row.state = .waiting then { row with payload := payload } else row

def markQueueJobActive (table : JournalTable) (jobId : String) (now : Nat) : JournalTable :=
  table.updateWhere (· == jobId) fun row => { row with state := .active, startedAt := some now }

def deleteQueueJobs (table : JournalTable) (jobIds : List String) : JournalTable :=
  table.deleteWhere fun jobId => decide (jobId ∈ jobIds)

def listQueueJobs (table : JournalTable) : List DeploymentQueueJobRow :=
  table.rows

/-- Put interrupted jobs back to waiting and count the attempt. -/
def requeueInterruptedQueueJobs (table : JournalTable) (jobIds : List String) : JournalTable :=
  table.updateWhere (fun jobId => decide (jobId ∈ jobIds)) fun row =>
    { row with state := .waiting, startedAt := none, attempts := row.attempts + 1 }

end JournalTable

/-- The calls of the store that go through the chain. -/
inductive Write where
  | insert (jobId : String) (payload : Json)
  | markActive (jobId : String)
  | updatePayload (jobId : String) (payload : Json)
  | remove (jobIds : List String)

/-- What a write does to the table when it lands there. -/
def JournalTable.perform (table : JournalTable) (now : Nat) : Write -> JournalTable
  | .insert jobId payload => table.insertQueueJob jobId payload now
  | .markActive jobId => table.markQueueJobActive jobId now
  | .updatePayload jobId payload => table.updateQueueJobPayload jobId payload
  | .remove jobIds => table.deleteQueueJobs jobIds

structure Entry where
  payload : Json
  state : JobState
  attempts : Nat

def DeploymentQueueJob.entry (row : DeploymentQueueJob) : Entry :=
  ⟨row.payload, row.state, row.attempts⟩

def JournalTable.entry (table : JournalTable) (jobId : String) : Option Entry :=
  (table.lookup jobId).map DeploymentQueueJob.entry

/-- Replace the payload of an entry that is waiting. -/
def Entry.update (payload : Json) (entry : Entry) : Entry :=
  if entry.state = .waiting then { entry with payload := payload } else entry

def Entry.activate (entry : Entry) : Entry :=
  { entry with state := .active }

/-- What a write does to the entry of one id. -/
def Write.act (jobId : String) : Write -> Option Entry -> Option Entry
  | .insert other payload, entry =>
      if jobId = other then some (entry.getD ⟨payload, .waiting, 0⟩) else entry
  | .markActive other, entry => if jobId = other then entry.map Entry.activate else entry
  | .updatePayload other payload, entry => if jobId = other then entry.map (Entry.update payload) else entry
  | .remove jobIds, entry => if jobId ∈ jobIds then none else entry

/-- The write is about the job, and not its removal. -/
def Write.writes (jobId : String) : Write -> Prop
  | .insert other _ | .markActive other | .updatePayload other _ => jobId = other
  | .remove _ => False

def Write.removes (jobId : String) : Write -> Prop
  | .remove jobIds => jobId ∈ jobIds
  | _ => False

/-- The id that the write inserts, if any. -/
def Write.inserted : Write -> List String
  | .insert jobId _ => [jobId]
  | _ => []

def insertedIds (writes : List Write) : List String :=
  writes.flatMap Write.inserted

theorem insertedIds_append (earlier later : List Write) :
    insertedIds (earlier ++ later) = insertedIds earlier ++ insertedIds later :=
  List.flatMap_append

theorem Write.mem_inserted {jobId : String} {write : Write} :
    jobId ∈ write.inserted <-> Exists fun payload => write = .insert jobId payload := by
  cases write with
  | insert other payload =>
      constructor
      · intro member
        exact ⟨payload, by rw [List.mem_singleton.mp member]⟩
      · rintro ⟨_, same⟩
        rw [(Write.insert.inj same).1]
        exact List.mem_cons_self
  | _ =>
      constructor
      · intro member
        cases member
      · rintro ⟨_, same⟩
        cases same

theorem Write.spares {jobId : String} {write : Write} (notWritten : ¬ write.writes jobId)
    (notRemoved : ¬ write.removes jobId) : Pending.Spares Write.act jobId write := by
  intro entry
  cases write with
  | insert other payload => exact if_neg notWritten
  | markActive other => exact if_neg notWritten
  | updatePayload other payload => exact if_neg notWritten
  | remove jobIds => exact if_neg notRemoved

namespace JournalTable

variable {table : JournalTable}

theorem mem_keys_iff {jobId : String} :
    jobId ∈ table.keys <-> Exists fun entry => table.entry jobId = some entry := by
  rw [SerialTable.mem_keys]
  unfold entry
  constructor
  · rintro ⟨row, found⟩
    exact ⟨row.entry, by rw [found, Option.map_some]⟩
  · rintro ⟨entry, found⟩
    rcases Option.map_eq_some_iff.mp found with ⟨row, here, _⟩
    exact ⟨row, here⟩

theorem entry_of_row {row : DeploymentQueueJobRow} (member : row ∈ table.rows) :
    table.entry row.key = some row.value.entry := by
  rw [entry, SerialTable.lookup_of_member member, Option.map_some]

private theorem entry_updateWhere (table : JournalTable) (test : String -> Bool)
    {change : DeploymentQueueJob -> DeploymentQueueJob} (onEntry : Entry -> Entry)
    (same : forall row, (change row).entry = onEntry row.entry) (jobId : String) :
    JournalTable.entry (table.updateWhere test change) jobId =
      if test jobId then (table.entry jobId).map onEntry else table.entry jobId := by
  rw [entry, SerialTable.lookup_updateWhere]
  split
  · rw [entry, Option.map_map, Option.map_map]
    congr 1
    funext row
    exact same row
  · rfl

theorem rowsWhere_perform (table : JournalTable) (now : Nat) {write : Write} {test : String -> Bool}
    (spared : forall jobId, write.writes jobId ∨ write.removes jobId -> test jobId = false) :
    SerialTable.rowsWhere (table.perform now write) test = table.rowsWhere test := by
  have other : forall {jobId : String}, write.writes jobId -> forall key, test key = true -> (key == jobId) = false := by
    intro jobId written key passes
    refine beq_eq_false_iff_ne.mpr fun same => ?_
    rw [same, spared jobId (Or.inl written)] at passes
    cases passes
  cases write with
  | insert jobId payload => exact SerialTable.rowsWhere_insertNew _ _ (spared jobId (Or.inl rfl))
  | markActive jobId => exact SerialTable.rowsWhere_updateWhere _ _ (other rfl)
  | updatePayload jobId payload => exact SerialTable.rowsWhere_updateWhere _ _ (other rfl)
  | remove jobIds =>
      refine SerialTable.rowsWhere_deleteWhere _ fun key passes => decide_eq_false fun member => ?_
      rw [spared key (Or.inr member)] at passes
      cases passes

theorem entry_perform (table : JournalTable) (now : Nat) (write : Write) (jobId : String) :
    (table.perform now write).entry jobId = write.act jobId (table.entry jobId) := by
  cases write with
  | insert other payload =>
      rw [perform, insertQueueJob, entry, SerialTable.lookup_insertNew, Write.act]
      split
      · rename_i same
        subst same
        rw [Option.map_some, entry]
        cases table.lookup jobId <;> rfl
      · rfl
  | markActive other =>
      rw [perform, markQueueJobActive, entry_updateWhere _ _ Entry.activate fun _ => rfl]
      simp only [beq_iff_eq, Write.act]
  | updatePayload other payload =>
      have same : forall row : DeploymentQueueJob, DeploymentQueueJob.entry
          (if row.state = .waiting then { row with payload := payload } else row) = row.entry.update payload := by
        intro row
        unfold Entry.update DeploymentQueueJob.entry
        split <;> rfl
      rw [perform, updateQueueJobPayload, entry_updateWhere _ _ (Entry.update payload) same]
      simp only [beq_iff_eq, Write.act]
  | remove jobIds =>
      rw [perform, deleteQueueJobs, entry, SerialTable.lookup_deleteWhere, Write.act]
      simp only [decide_eq_true_eq]
      split
      · rfl
      · rfl

theorem mem_keys_perform {now : Nat} {write : Write} {jobId : String} :
    jobId ∈ (table.perform now write).keys <->
      jobId ∈ write.inserted ∨ jobId ∈ table.keys ∧ ¬ write.removes jobId := by
  rw [mem_keys_iff, mem_keys_iff, entry_perform]
  have mapped : forall {change : Entry -> Entry} {other : String},
      (Exists fun entry => (if jobId = other then (table.entry jobId).map change else table.entry jobId) = some entry) <->
        Exists fun entry => table.entry jobId = some entry := by
    intro change other
    cases found : table.entry jobId with
    | none => simp
    | some entry => by_cases same : jobId = other <;> simp [same]
  cases write with
  | insert other payload =>
      by_cases same : jobId = other
      · simp [Write.act, Write.inserted, same]
      · simp [Write.act, Write.inserted, Write.removes, same]
  | markActive other => exact mapped.trans (by simp [Write.inserted, Write.removes])
  | updatePayload other payload => exact mapped.trans (by simp [Write.inserted, Write.removes])
  | remove jobIds =>
      by_cases removed : jobId ∈ jobIds
      · simp [Write.act, Write.inserted, Write.removes, removed]
      · simp [Write.act, Write.inserted, Write.removes, removed]

theorem keys_perform {now : Nat} {write : Write} {jobId : String}
    (member : jobId ∈ (table.perform now write).keys) : jobId ∈ table.keys ∨ write.writes jobId := by
  rcases mem_keys_perform.mp member with inserted | ⟨old, _⟩
  · rcases Write.mem_inserted.mp inserted with ⟨payload, same⟩
    subst same
    exact Or.inr rfl
  · exact Or.inl old

/-- Counting the attempt keeps the payload. -/
def requeuedEntry (entry : Entry) : Entry :=
  { entry with state := .waiting, attempts := entry.attempts + 1 }

theorem entry_requeue (table : JournalTable) (jobIds : List String) (jobId : String) :
    (table.requeueInterruptedQueueJobs jobIds).entry jobId =
      if jobId ∈ jobIds then (table.entry jobId).map requeuedEntry else table.entry jobId := by
  rw [requeueInterruptedQueueJobs, entry_updateWhere _ _ requeuedEntry fun _ => rfl]
  simp only [decide_eq_true_eq]

end JournalTable
end QueueJournal
end Dokploy
