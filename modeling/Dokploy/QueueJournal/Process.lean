import Dokploy.QueueJournal.Chain

namespace Dokploy
namespace QueueJournal

open Foundation DeployQueue

/-!
# One process: the queue, its journal and the restore

A process starts with an empty queue and the journal table that the processes
before it left behind.  It reports every change of the queue to the journal, and
once it puts back what the table still owes.  The restore awaits its own calls
of the store one after the other; a call it awaits takes effect and is answered
in two events, and everything else may happen between any two of them.

A process ends by dying.  Only the table and the ids that were ever drawn are
left for the next one.
-/

/-- A job found active after a crash is replayed at most this many times. -/
def MAX_REPLAY_ATTEMPTS : Nat := 3

/-- The leftover rows, sorted by what becomes of them. -/
structure Batch where
  keep : List DeploymentQueueJobRow
  drop : List DeploymentQueueJobRow

/-- A leftover that is not put back: its payload cannot be read, or it was
running when the process died too often. -/
def givenUp (row : DeploymentQueueJobRow) : Bool :=
  !isRestorableJob row.value.payload ||
    (row.value.state == .active && decide (MAX_REPLAY_ATTEMPTS < row.value.attempts + 1))

def sortLeftovers (leftovers : List DeploymentQueueJobRow) : Batch where
  keep := leftovers.filter fun row => !givenUp row
  drop := leftovers.filter givenUp

namespace Batch

def dropIds (batch : Batch) : List String :=
  batch.drop.map (·.key)

/-- Of the jobs put back, those that were running when the process died. -/
def interruptedIds (batch : Batch) : List String :=
  (batch.keep.filter fun row => row.value.state == .active).map (·.key)

def restoredJobs (batch : Batch) : List RestoredJob :=
  batch.keep.map fun row => ⟨row.key, asJob row.value.payload, row.value.enqueuedAt⟩

end Batch

structure RestoreResult where
  restored : Nat
  interrupted : Nat
  dropped : Nat
  deriving DecidableEq, Repr

def EMPTY_RESULT : RestoreResult := ⟨0, 0, 0⟩

/-- Where the one restore of the process stands.  The flag of a phase tells
whether the call it awaits has taken effect. -/
inductive Restoring where
  | notCalled
  | marking
  | listing
  | reading (rows : List DeploymentQueueJobRow)
  | dropping (batch : Batch) (landed : Bool)
  | requeueing (batch : Batch) (landed : Bool)
  | finished (batch : Batch) (result : RestoreResult)

inductive Report where
  | signal (signal : Signal)
  /-- The attempts of these jobs were counted, and they wait again. -/
  | requeued (jobIds : List String)
  deriving DecidableEq, Repr

structure Boot where
  table : JournalTable
  /-- Journal ids drawn by earlier processes. -/
  drawn : List String

structure Process where
  queue : InMemoryQueue
  journal : Journal
  table : JournalTable
  restoring : Restoring
  /-- Journal ids drawn so far, by this process or an earlier one. -/
  drawn : List String

namespace Process

def start (boot : Boot) : Process where
  queue := InMemoryQueue.new
  journal := Journal.new
  table := boot.table
  restoring := .notCalled
  drawn := boot.table.keys ++ boot.drawn

/-- What the process leaves behind when it dies. -/
def crash (process : Process) : Boot where
  table := process.table
  drawn := process.drawn

/-- The queue changed, and its journal hears of it. -/
def hear (process : Process) (queue : InMemoryQueue) (signals : List Signal) : Process × List Report :=
  ({ process with
      queue := queue
      journal := process.journal.notifyAll signals
      drawn := process.drawn ++ enqueuedIds signals },
    signals.map .signal)

/-- Rows that belong to no job of this process. -/
def leftovers (process : Process) (rows : List DeploymentQueueJobRow) : List DeploymentQueueJobRow :=
  rows.filter fun row =>
    !decide (row.key ∈ process.journal.liveIds.getD []) && !process.queue.hasJournalId row.key

/-- The rows arrived: tell the leftovers from the jobs of this process.  An
empty drop list is not deleted. -/
def sortRows (process : Process) (rows : List DeploymentQueueJobRow) : Process :=
  let batch := sortLeftovers (process.leftovers rows)
  { process with
    journal := { process.journal with liveIds := none }
    restoring := if batch.drop = [] then .requeueing batch false else .dropping batch false }

/-- Put the kept jobs back into the queue. -/
def putBack (process : Process) (batch : Batch) : Process × List Report :=
  let reply := process.queue.addRestored batch.restoredJobs
  let result : RestoreResult := ⟨reply.answer, batch.interruptedIds.length, batch.drop.length⟩
  { process with restoring := .finished batch result }.hear reply.queue reply.signals

end Process

inductive RestoreEvent where
  /-- `restore` is called.  Only the first call starts anything. -/
  | called
  | marked
  /-- The query reads the table. -/
  | listed
  | listReturned
  | listFailed
  | removed
  | removeReturned
  | removeFailed
  | requeued
  | requeueReturned
  | requeueFailed
  deriving DecidableEq, Repr

inductive ProcessEvent where
  | queue (event : Event)
  | startTask
  | timeout
  | land (ticket : Nat) (now : Nat)
  | answer (ticket : Nat)
  | fail (ticket : Nat)
  | restore (event : RestoreEvent)

def Process.restoreStep (process : Process) : RestoreEvent -> Option (Process × List Report)
  | .called =>
      match process.restoring with
      | .notCalled => some ({ process with restoring := .marking }, [])
      | _ => some (process, [])
  | .marked =>
      match process.restoring with
      | .marking => some ({ process with restoring := .listing }, [])
      | _ => none
  | .listed =>
      match process.restoring with
      | .listing => some ({ process with restoring := .reading process.table.listQueueJobs }, [])
      | _ => none
  | .listReturned =>
      match process.restoring with
      | .reading rows => some (process.sortRows rows, [])
      | _ => none
  | .listFailed =>
      match process.restoring with
      | .listing | .reading _ =>
          some ({ process with
              journal := { process.journal with liveIds := none }
              restoring := .finished ⟨[], []⟩ EMPTY_RESULT }, [])
      | _ => none
  | .removed =>
      match process.restoring with
      | .dropping batch false =>
          some ({ process with
              table := process.table.deleteQueueJobs batch.dropIds
              restoring := .dropping batch true }, [])
      | _ => none
  | .removeReturned =>
      match process.restoring with
      | .dropping batch true => some ({ process with restoring := .requeueing batch false }, [])
      | _ => none
  | .removeFailed =>
      match process.restoring with
      | .dropping batch _ => some ({ process with restoring := .requeueing batch false }, [])
      | _ => none
  | .requeued =>
      match process.restoring with
      | .requeueing batch false =>
          some ({ process with
              table := process.table.requeueInterruptedQueueJobs batch.interruptedIds
              restoring := .requeueing batch true }, [.requeued batch.interruptedIds])
      | _ => none
  | .requeueReturned =>
      match process.restoring with
      | .requeueing batch true => some (process.putBack batch)
      | _ => none
  | .requeueFailed =>
      match process.restoring with
      | .requeueing batch _ => some (process.putBack batch)
      | _ => none

def Process.step (process : Process) : ProcessEvent -> Option (Process × List Report)
  | .queue (.addRestored _) => none
  | .queue event =>
      match DeployQueue.step process.queue event with
      | none => none
      | some (queue, signals) => some (process.hear queue signals)
  | .startTask => process.journal.startTask.map fun journal => ({ process with journal := journal }, [])
  | .timeout => process.journal.timeout.map fun journal => ({ process with journal := journal }, [])
  | .land ticket now =>
      match process.journal.land ticket with
      | none => none
      | some (journal, write) =>
          some ({ process with journal := journal, table := process.table.perform now write }, [])
  | .answer ticket => (process.journal.answer ticket).map fun journal => ({ process with journal := journal }, [])
  | .fail ticket => (process.journal.fail ticket).map fun journal => ({ process with journal := journal }, [])
  | .restore event => process.restoreStep event

/-- A process that starts with what an earlier one left. -/
def processMachine (boot : Boot) : Machine Process ProcessEvent Report where
  initial := Process.start boot
  step := Process.step

/-- Journal ids are random: none is drawn twice. -/
def DrawsFresh (process : Process) : ProcessEvent -> Prop
  | .queue event => forall journalId, journalId ∈ event.drawnIds -> journalId ∉ process.drawn
  | _ => True

/-- Every call of the store succeeds in the end. -/
def Succeeds : ProcessEvent -> Prop
  | .fail _ => False
  | .restore .listFailed | .restore .removeFailed | .restore .requeueFailed => False
  | _ => True

def Lands (mayLand : Process -> Nat -> Prop) (process : Process) : ProcessEvent -> Prop
  | .land ticket _ => mayLand process ticket
  | _ => True

/-- What the environment of a process may do.  Results that need writes to land
in some order say which call in flight may land. -/
structure Environment (mayLand : Process -> Nat -> Prop) (process : Process) (event : ProcessEvent) : Prop where
  fresh : DrawsFresh process event
  succeeds : Succeeds event
  lands : Lands mayLand process event

instance (process : Process) (event : ProcessEvent) : Decidable (DrawsFresh process event) :=
  match event with
  | .queue event => inferInstanceAs (Decidable (forall journalId, journalId ∈ event.drawnIds -> journalId ∉ process.drawn))
  | .startTask | .timeout | .land _ _ | .answer _ | .fail _ | .restore _ => isTrue trivial

instance (event : ProcessEvent) : Decidable (Succeeds event) :=
  match event with
  | .fail _ | .restore .listFailed | .restore .removeFailed | .restore .requeueFailed => isFalse id
  | .queue _ | .startTask | .timeout | .land _ _ | .answer _ => isTrue trivial
  | .restore .called | .restore .marked | .restore .listed | .restore .listReturned | .restore .removed
  | .restore .removeReturned | .restore .requeued | .restore .requeueReturned => isTrue trivial

instance (mayLand : Process -> Nat -> Prop) [forall process ticket, Decidable (mayLand process ticket)]
    (process : Process) (event : ProcessEvent) : Decidable (Lands mayLand process event) :=
  match event with
  | .land ticket _ => inferInstanceAs (Decidable (mayLand process ticket))
  | .queue _ | .startTask | .timeout | .answer _ | .fail _ | .restore _ => isTrue trivial

instance (mayLand : Process -> Nat -> Prop) [forall process ticket, Decidable (mayLand process ticket)]
    (process : Process) (event : ProcessEvent) : Decidable (Environment mayLand process event) :=
  decidable_of_iff (DrawsFresh process event ∧ Succeeds event ∧ Lands mayLand process event)
    ⟨fun all => ⟨all.1, all.2.1, all.2.2⟩, fun allowed => ⟨allowed.fresh, allowed.succeeds, allowed.lands⟩⟩

def anyOrder (_ : Process) (_ : Nat) : Prop := True

instance (process : Process) (ticket : Nat) : Decidable (anyOrder process ticket) := isTrue trivial

def signalsOf (history : List Report) : List Signal :=
  history.filterMap fun
    | .signal signal => some signal
    | .requeued _ => none

theorem signalsOf_append (history output : List Report) :
    signalsOf (history ++ output) = signalsOf history ++ signalsOf output :=
  List.filterMap_append

@[simp] theorem signalsOf_signals (signals : List Signal) : signalsOf (signals.map .signal) = signals := by
  rw [signalsOf, List.filterMap_map]
  exact List.filterMap_some

end QueueJournal
end Dokploy
