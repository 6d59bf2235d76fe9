import Mathlib.Algebra.GroupWithZero.Nat
import Mathlib.Data.Finset.Basic
import Mathlib.Data.Finset.Insert
import Dokploy.Foundation.OrderedMap
import Dokploy.DeployQueue.Payload

namespace Dokploy
namespace DeployQueue

open Foundation

/-!
# The state of the in-memory queue

The queue object is modelled together with the part of the program that is
suspended on it: drains waiting for their concurrency or between two turns of
their loop, processor calls of released jobs, and the release closures handed
out by `holdIdleGroup`.  A job that is active stands for its own suspended
processor call, so only the calls of released jobs need a list of their own.

What the queue tells its observers is a list of signals.  Some are real calls
(of the journal and of the owner's hooks), the others only name what happened,
so that claims about a run can speak about its history.
-/

inductive JobState where
  | waiting
  | active
  deriving DecidableEq, Repr

/-- A job object.  `id` is the number N of the printed id `job-N`. -/
structure InternalJob where
  id : Nat
  journalId : String
  data : DeploymentJob
  timestamp : Nat
  processedOn : Option Nat
  finishedOn : Option Nat
  failedReason : Option String
  state : JobState
  partition : String
  group : String
  jumped : Bool
  wentAheadOf : Nat
  released : Bool
  groupLockKept : Bool
  deriving DecidableEq, Repr

/-- One lane.  `concurrency` is the cap seen by the last scheduling tick. -/
structure Partition where
  waiting : List InternalJob
  activeGroups : Finset String
  active : List InternalJob
  jumpedLast : Bool
  concurrency : Option Nat

namespace Partition

/-- A lane as it is created, and as every lane that does not exist reads. -/
def empty : Partition where
  waiting := []
  activeGroups := ∅
  active := []
  jumpedLast := false
  concurrency := none

end Partition

/-- A `drainPartition` call that has not ended.  Before its concurrency is
resolved it has no answer, afterwards it is between two turns of its loop. -/
structure PendingDrain where
  key : String
  answer : Option Int
  deriving DecidableEq, Repr

/-- The cap a resolved concurrency stands for. -/
def capOf (answer : Int) : Nat := (max 1 answer).toNat

/-- The closure returned by `holdIdleGroup`, with its private flag. -/
structure Hold where
  key : String
  group : String
  released : Bool
  deriving DecidableEq, Repr

structure InMemoryQueue where
  partitions : OrderedMap String Partition Partition.empty
  /-- Ids of released jobs whose service lock is still held. -/
  keptLocks : List Nat
  heldGroups : Finset String
  /-- Whether a processor is registered. -/
  processor : Bool
  running : Bool
  paused : Bool
  seq : Nat
  idleWaiters : List Nat
  pendingDrains : List PendingDrain
  /-- Released jobs whose processor has not returned. -/
  releasedRuns : List InternalJob
  holds : List Hold

/-- What a processor may report about a job that ended early. -/
inductive JobOutcome where
  | cancelled
  | failed
  deriving DecidableEq, Repr

inductive Signal where
  /-- A job object was created and put into a waiting list. -/
  | accepted (job : InternalJob)
  /-- `journal.enqueued` -/
  | enqueued (journalId : String) (data : DeploymentJob)
  /-- `journal.started`, directly followed by the call of the processor. -/
  | started (key : String) (job : InternalJob)
  /-- `journal.updated` -/
  | updated (journalId : String) (data : DeploymentJob)
  /-- `journal.settled` with the journal ids of these jobs. -/
  | settled (jobs : List InternalJob)
  /-- `onWaitingDropped` -/
  | waitingDropped (data : List DeploymentJob)
  /-- The processor of an active job ended. -/
  | ended (key : String) (job : InternalJob) (outcome : Option JobOutcome)
  /-- An active job was released by the watchdog. -/
  | released (key : String) (job : InternalJob)
  /-- The concurrency of a drain was resolved. -/
  | resolved (key : String) (answer : Int)
  /-- The concurrency of a drain was rejected, which ended the drain. -/
  | rejected (key : String)
  /-- A drain ended; `sawEmpty` tells that it saw no waiting job. -/
  | drainEnded (key : String) (cap : Nat) (sawEmpty : Bool)
  | held (key : String) (group : String)
  | unheld (key : String) (group : String)
  /-- A `waitForIdle` promise resolved to true. -/
  | idle (waiter : Nat)
  deriving DecidableEq, Repr

namespace InMemoryQueue

/-- A queue as the constructor leaves it. -/
def new : InMemoryQueue where
  partitions := OrderedMap.empty
  keptLocks := []
  heldGroups := ∅
  processor := false
  running := false
  paused := false
  seq := 0
  idleWaiters := []
  pendingDrains := []
  releasedRuns := []
  holds := []

def lane (q : InMemoryQueue) : String -> Partition := q.partitions.value

/-- Every access through `getPartitionState` creates a missing lane first. -/
def getPartitionState (q : InMemoryQueue) (key : String) : InMemoryQueue :=
  { q with partitions := q.partitions.ensure key }

/-- Assign to the fields of one existing lane. -/
def changeLane (q : InMemoryQueue) (key : String) (change : Partition -> Partition) : InMemoryQueue :=
  { q with partitions := q.partitions.modify key change }

/-- Assign to the fields of every existing lane. -/
def mapLanes (q : InMemoryQueue) (change : String -> Partition -> Partition) : InMemoryQueue :=
  { q with partitions := q.partitions.mapValues change }

/-- The synchronous part of `drainPartition`, up to its await. -/
def drainPartition (q : InMemoryQueue) (key : String) : InMemoryQueue :=
  if key ∈ q.partitions.keys ∧ q.processor = true then
    { q with pendingDrains := q.pendingDrains ++ [⟨key, none⟩] }
  else q

def schedule (q : InMemoryQueue) : InMemoryQueue :=
  if q.running = true ∧ q.paused = false ∧ q.processor = true then
    q.partitions.keys.foldl drainPartition q
  else q

def createJob (q : InMemoryQueue) (data : DeploymentJob) (journalId : String)
    (timestamp : Nat) : InternalJob where
  id := q.seq + 1
  journalId := journalId
  data := data
  timestamp := timestamp
  processedOn := none
  finishedOn := none
  failedReason := none
  state := .waiting
  partition := getPartition data
  group := getGroup data
  jumped := false
  wentAheadOf := 0
  released := false
  groupLockKept := false

/-- Tell the journal these jobs are gone.  An empty list is not reported. -/
def settle (jobs : List InternalJob) : List Signal :=
  if jobs = [] then [] else [.settled jobs]

def reportDropped (data : List DeploymentJob) : List Signal :=
  if data = [] then [] else [.waitingDropped data]

def discard (jobs : List InternalJob) : List Signal :=
  settle jobs ++ reportDropped (jobs.map (·.data))

def activeCount (q : InMemoryQueue) : Nat :=
  (q.partitions.keys.map fun key => (q.lane key).active.length).sum

def wakeIdleWaiters (q : InMemoryQueue) : InMemoryQueue × List Signal :=
  if q.activeCount ≠ 0 then (q, [])
  else ({ q with idleWaiters := [] }, q.idleWaiters.map .idle)

def knownJournalIds (q : InMemoryQueue) : List String :=
  q.partitions.keys.flatMap fun key =>
    (q.lane key).waiting.map (·.journalId) ++ (q.lane key).active.map (·.journalId)

def hasJournalId (q : InMemoryQueue) (journalId : String) : Bool :=
  decide (journalId ∈ q.knownJournalIds)

@[simp] theorem lane_new (key : String) : new.lane key = Partition.empty := rfl

@[simp] theorem lane_getPartitionState (q : InMemoryQueue) (key : String) :
    (q.getPartitionState key).lane = q.lane := rfl

theorem lane_changeLane (q : InMemoryQueue) (key : String) (change : Partition -> Partition)
    (present : key ∈ q.partitions.keys) :
    (q.changeLane key change).lane = Function.update q.lane key (change (q.lane key)) :=
  OrderedMap.modify_value_eq_update q.partitions key change present

@[simp] theorem keys_changeLane (q : InMemoryQueue) (key : String)
    (change : Partition -> Partition) :
    (q.changeLane key change).partitions.keys = q.partitions.keys := rfl

theorem lane_mapLanes (q : InMemoryQueue) (change : String -> Partition -> Partition)
    (neutralKept : forall key, key ∉ q.partitions.keys -> change key Partition.empty = Partition.empty) :
    (q.mapLanes change).lane = fun key => change key (q.lane key) := by
  funext key
  exact OrderedMap.mapValues_value_of q.partitions change key (neutralKept key)

@[simp] theorem keys_mapLanes (q : InMemoryQueue) (change : String -> Partition -> Partition) :
    (q.mapLanes change).partitions.keys = q.partitions.keys := rfl

variable {q : InMemoryQueue}

theorem key_present {key : String} (different : q.lane key ≠ Partition.empty) :
    key ∈ q.partitions.keys := by
  by_cases present : key ∈ q.partitions.keys
  · exact present
  · exact False.elim (different (q.partitions.outside key present))

theorem key_of_waiting {key : String} {job : InternalJob}
    (member : job ∈ (q.lane key).waiting) : key ∈ q.partitions.keys := by
  apply key_present
  intro same
  rw [same] at member
  cases member

theorem key_of_active {key : String} {job : InternalJob}
    (member : job ∈ (q.lane key).active) : key ∈ q.partitions.keys := by
  apply key_present
  intro same
  rw [same] at member
  cases member

theorem mem_knownJournalIds {journalId : String} :
    journalId ∈ q.knownJournalIds <->
      Exists fun key => Exists fun job =>
        (job ∈ (q.lane key).waiting ∨ job ∈ (q.lane key).active) ∧ job.journalId = journalId := by
  simp only [knownJournalIds, List.mem_flatMap, List.mem_append, List.mem_map]
  constructor
  · rintro ⟨key, _, ⟨job, member, same⟩ | ⟨job, member, same⟩⟩
    · exact ⟨key, job, Or.inl member, same⟩
    · exact ⟨key, job, Or.inr member, same⟩
  · rintro ⟨key, job, member | member, same⟩
    · exact ⟨key, key_of_waiting member, Or.inl ⟨job, member, same⟩⟩
    · exact ⟨key, key_of_active member, Or.inr ⟨job, member, same⟩⟩

private theorem foldl_drainPartition (keys : List String) (q : InMemoryQueue)
    (present : forall key, key ∈ keys -> key ∈ q.partitions.keys) (registered : q.processor = true) :
    keys.foldl drainPartition q =
      { q with pendingDrains := q.pendingDrains ++ keys.map fun key => ⟨key, none⟩ } := by
  induction keys generalizing q with
  | nil => simp
  | cons key keys ih =>
      have here : key ∈ q.partitions.keys ∧ q.processor = true :=
        ⟨present key List.mem_cons_self, registered⟩
      simp only [List.foldl_cons, drainPartition, if_pos here]
      rw [ih]
      · simp only [List.map_cons, List.append_assoc, List.singleton_append]
      · exact fun other member => present other (List.mem_cons_of_mem _ member)
      · exact registered

/-- The drains that `schedule` puts in flight. -/
def scheduled (q : InMemoryQueue) : List PendingDrain :=
  if q.running = true ∧ q.paused = false ∧ q.processor = true then
    q.partitions.keys.map fun key => ⟨key, none⟩
  else []

theorem schedule_eq (q : InMemoryQueue) :
    q.schedule = { q with pendingDrains := q.pendingDrains ++ q.scheduled } := by
  unfold schedule scheduled
  by_cases operational : q.running = true ∧ q.paused = false ∧ q.processor = true
  · rw [if_pos operational, if_pos operational]
    exact foldl_drainPartition q.partitions.keys q (fun _ member => member) operational.2.2
  · rw [if_neg operational, if_neg operational, List.append_nil]

/-- The drain that one call of `drainPartition` puts in flight. -/
def drained (q : InMemoryQueue) (key : String) : List PendingDrain :=
  if key ∈ q.partitions.keys ∧ q.processor = true then [⟨key, none⟩] else []

theorem drainPartition_eq (q : InMemoryQueue) (key : String) :
    q.drainPartition key = { q with pendingDrains := q.pendingDrains ++ q.drained key } := by
  unfold drainPartition drained
  by_cases called : key ∈ q.partitions.keys ∧ q.processor = true
  · rw [if_pos called, if_pos called]
  · rw [if_neg called, if_neg called, List.append_nil]

theorem wakeIdleWaiters_eq (q : InMemoryQueue) :
    Exists fun waiters => q.wakeIdleWaiters.1 = { q with idleWaiters := waiters } := by
  unfold wakeIdleWaiters
  split
  · exact ⟨q.idleWaiters, rfl⟩
  · exact ⟨[], rfl⟩

end InMemoryQueue
end DeployQueue
end Dokploy
