import Dokploy.Foundation.Machine
import Dokploy.Foundation.Sweep
import Dokploy.DeployQueue.Pick

namespace Dokploy
namespace DeployQueue

open Foundation

/-!
# The operations of the queue

Every public method is one function from a queue to its new state, the signals
it sends in order, and its answer.  A method runs to completion; what it leaves
suspended (drains, processor calls, release closures) is part of the state and
continues in events of its own.

A drain continues one turn of its loop at a time.  The code never awaits inside
the loop, but a processor is called synchronously from it and may call the
queue before its own first await, so other events are allowed between turns.
-/

inductive PriorityReason where
  | nothingWaiting
  | firstInLine
  | olderSameService
  | priorityBusy
  deriving DecidableEq, Repr

/-- What a priority request did (or will do) to the job it was asked for. -/
structure PriorityOutcome where
  requested : Bool
  applied : Bool
  wentAheadOf : Nat
  reason : Option PriorityReason
  deriving DecidableEq, Repr

/-- The new state, what was signalled, and what the caller gets back. -/
structure Reply (Answer : Type) where
  queue : InMemoryQueue
  signals : List Signal
  answer : Answer

/-- A job read back from the journal after a restart. -/
structure RestoredJob where
  journalId : String
  data : DeploymentJob
  timestamp : Nat
  deriving DecidableEq, Repr

/-- A waiting job as reported to a caller.  The enqueue time stays a number. -/
structure KeptWaitingJob where
  jobId : Nat
  enqueuedAt : Nat
  type : JobType
  deriving DecidableEq, Repr

def summarize (job : InternalJob) : KeptWaitingJob :=
  ⟨job.id, job.timestamp, job.data.type⟩

/-- Assign a payload to one job object, found by its identity. -/
def setData (id : Nat) (data : DeploymentJob) (job : InternalJob) : InternalJob :=
  if job.id = id then { job with data := data } else job

namespace InMemoryQueue

/-! ## Asking for priority -/

/-- Slots that waiting jobs are about to take anyway. -/
def freeSlots (q : InMemoryQueue) (lane : Partition) : Nat :=
  if q.running = false ∨ q.paused = true ∨ q.processor = false then 0
  else lane.concurrency.getD 1 - lane.active.length

/-- What a priority request for the job at `index` does.  The index is the end
of the list for a job that is being added. -/
def assessPriority (q : InMemoryQueue) (lane : Partition) (index : Nat) (group : String)
    (othersBehind : Bool) : PriorityOutcome :=
  let refused := fun reason : PriorityReason => (⟨true, false, 0, some reason⟩ : PriorityOutcome)
  if index = 0 then
    refused (if othersBehind then .firstInLine else .nothingWaiting)
  else if hasOlderOfGroup lane index group then
    refused .olderSameService
  else
    let wentAheadOf := startableBefore lane index - q.freeSlots lane
    if wentAheadOf = 0 then refused .firstInLine
    else if jumpBlocked lane then refused .priorityBusy
    else ⟨true, true, wentAheadOf, none⟩

/-! ## Entering the queue -/

def process (q : InMemoryQueue) : Reply Unit :=
  ⟨schedule { q with processor := true, running := true }, [], ()⟩

def run (q : InMemoryQueue) : Reply Unit :=
  ⟨schedule { q with running := true }, [], ()⟩

/-- `uuid` is the random journal id drawn for the job and `now` the clock. -/
def add (q : InMemoryQueue) (requested : DeploymentJob) (uuid : String) (now : Nat) :
    Reply (Nat × Option PriorityOutcome) :=
  let key := getPartition requested
  let created := q.getPartitionState key
  let priority :=
    if requested.priority = some true then
      some (created.assessPriority (created.lane key) (created.lane key).waiting.length
        (getGroup requested) false)
    else none
  let data :=
    if priority.bind (·.reason) = some .nothingWaiting then withoutPriority requested else requested
  let job := created.createJob data uuid now
  let queued := created.changeLane key fun lane => { lane with waiting := lane.waiting ++ [job] }
  ⟨schedule { queued with seq := q.seq + 1 }, [.accepted job, .enqueued uuid data], (job.id, priority)⟩

/-- The place of a waiting job, in the first lane that has it. -/
def findWaiting (q : InMemoryQueue) (id : Nat) : Option (String × Nat × InternalJob) :=
  q.partitions.keys.findSome? fun key =>
    match (q.lane key).waiting.findIdx? (·.id == id) with
    | none => none
    | some index => (q.lane key).waiting[index]?.map fun job => (key, index, job)

/-- Flag a job that is already waiting.  It keeps its place. -/
def prioritize (q : InMemoryQueue) (id : Nat) (requester : Option String) :
    Reply (Option PriorityOutcome) :=
  match q.findWaiting id with
  | none => ⟨q, [], none⟩
  | some (key, index, job) =>
      let lane := q.lane key
      let outcome := q.assessPriority lane index job.group (decide (1 < lane.waiting.length))
      if index = 0 then ⟨q, [], some outcome⟩
      else if job.data.priority = some true then ⟨q, [], some outcome⟩
      else
        let data :=
          match requester with
          | none | some "" => { job.data with priority := some true }
          | some name => { job.data with priority := some true, priorityBy := some name }
        ⟨q.changeLane key fun lane => { lane with waiting := lane.waiting.map (setData id data) },
          [.updated job.journalId data], some outcome⟩

/-- Create the objects of the restored jobs that are not known yet, in order. -/
def createRestored (q : InMemoryQueue) : List String -> List RestoredJob -> List InternalJob
  | _, [] => []
  | known, restored :: rest =>
      if restored.journalId ∈ known then createRestored q known rest
      else
        q.createJob restored.data restored.journalId restored.timestamp ::
          createRestored { q with seq := q.seq + 1 } (restored.journalId :: known) rest

/-- Re-add jobs read back from the journal, at the front of their lanes. -/
def addRestored (q : InMemoryQueue) (jobs : List RestoredJob) : Reply Nat :=
  let added := q.createRestored q.knownJournalIds jobs
  let created := added.foldl (fun q job => q.getPartitionState job.partition) q
  let queued : InMemoryQueue :=
    { created.mapLanes fun key lane =>
        { lane with waiting := added.filter (·.partition == key) ++ lane.waiting } with
      seq := q.seq + added.length }
  ⟨if added = [] then queued else schedule queued, added.map .accepted, added.length⟩

/-! ## Leaving the waiting lists -/

/-- Remove one job by id, only while it is still waiting. -/
def removeWaitingJob (q : InMemoryQueue) (id : Nat) : Reply Bool :=
  match q.partitions.keys.find? fun key => (q.lane key).waiting.any (·.id == id) with
  | none => ⟨q, [], false⟩
  | some key =>
      ⟨q.changeLane key fun lane => { lane with waiting := lane.waiting.filter fun job => !(job.id == id) },
        discard ((q.lane key).waiting.filter (·.id == id)), true⟩

/-- The same removal, without telling the caller whether anything left. -/
def remove (q : InMemoryQueue) (id : Nat) : Reply Unit :=
  ⟨(q.removeWaitingJob id).queue, (q.removeWaitingJob id).signals, ()⟩

/-- Replace every waiting list by what its sweep kept. -/
def keepSwept {Scan : Type} (q : InMemoryQueue) (swept : String -> Swept Scan InternalJob) :
    InMemoryQueue :=
  q.mapLanes fun key lane => { lane with waiting := (swept key).kept }

/-- Remove waiting jobs matching a predicate. -/
def removeWaiting (q : InMemoryQueue) (predicate : DeploymentJob -> Bool) : Reply Nat :=
  let swept := fun key =>
    sweep (fun (_ : Unit) (job : InternalJob) => ((), !predicate job.data)) () (q.lane key).waiting
  let dropped := q.partitions.keys.flatMap fun key => (swept key).gone
  ⟨q.keepSwept swept, discard dropped, dropped.length⟩

/-- The scan of `keepOldestWaiting` carries the survivors of its lane. -/
def keepOldestDecision (predicate : DeploymentJob -> Bool) (survivors : List InternalJob)
    (job : InternalJob) : List InternalJob × Bool :=
  if !predicate job.data then (survivors, true)
  else if survivors.any fun kept => sameJobProfile kept.data job.data true then (survivors, false)
  else (survivors ++ [job], true)

/-- Among the matching waiting jobs keep the oldest of each group of
duplicates, lane by lane. -/
def keepOldestWaiting (q : InMemoryQueue) (predicate : DeploymentJob -> Bool) :
    Reply (List KeptWaitingJob × List KeptWaitingJob) :=
  let swept := fun key => sweep (keepOldestDecision predicate) [] (q.lane key).waiting
  let dropped := q.partitions.keys.flatMap fun key => (swept key).gone
  let kept := q.partitions.keys.flatMap fun key => (swept key).state
  ⟨q.keepSwept swept, discard dropped, (kept.map summarize, dropped.map summarize)⟩

/-- Drop every waiting job across all lanes. -/
def clearWaiting (q : InMemoryQueue) : Reply Nat :=
  let swept := fun key =>
    sweep (fun (_ : Unit) (_ : InternalJob) => ((), false)) () (q.lane key).waiting
  let dropped := q.partitions.keys.flatMap fun key => (swept key).gone
  ⟨q.keepSwept swept, discard dropped, dropped.length⟩

/-! ## Push coalescing -/

/-- The jobs an incoming payload is folded over. -/
def isDuplicateOf (incoming : DeploymentJob) (predicate : DeploymentJob -> Bool)
    (job : InternalJob) : Bool :=
  predicate job.data && sameJobProfile job.data incoming false

/-- The scan of `coalesceWaiting` carries the target.  Only the incoming job's
own lane can provide one. -/
def coalesceDecision (incoming : DeploymentJob) (predicate : DeploymentJob -> Bool) (isHome : Bool)
    (target : Option InternalJob) (job : InternalJob) : Option InternalJob × Bool :=
  if !isDuplicateOf incoming predicate job then (target, true)
  else if target.isNone && isHome then (some job, true)
  else (target, false)

/-- The scan of one lane.  The home lane comes first, so it starts without a
target and no other lane can find one. -/
def coalesceSweep (q : InMemoryQueue) (incoming : DeploymentJob) (predicate : DeploymentJob -> Bool)
    (key : String) : Swept (Option InternalJob) InternalJob :=
  sweep (coalesceDecision incoming predicate (decide (key = getPartition incoming))) none
    (q.lane key).waiting

/-- The lanes in the order the scan visits them. -/
def homeFirst (q : InMemoryQueue) (home : String) : List String :=
  q.partitions.keys.filter (· == home) ++ q.partitions.keys.filter (· != home)

/-- JavaScript truthiness of an optional string. -/
def truthy : Option String -> Bool
  | none => false
  | some text => text != ""

/-- The id that the merged job is to carry. -/
def keptId (incoming : DeploymentJob) (target : Option InternalJob) (dropped : List InternalJob) :
    Option String :=
  match registeredId incoming with
  | some id => some id
  | none =>
      match target.bind fun job => registeredId job.data with
      | some id => some id
      | none => (dropped.map fun job => registeredId job.data).findSome? fun id =>
          if truthy id then id else none

def mergedPayload (incoming : DeploymentJob) (kept : Option String) : DeploymentJob :=
  if truthy kept && !truthy (registeredId incoming) then { incoming with deploymentId := kept }
  else incoming

/-- The payload's own id is registered and not the one that is kept. -/
def isLost (kept : Option String) (data : DeploymentJob) : Bool :=
  truthy (registeredId data) && registeredId data != kept

def titleOf (job : InternalJob) : List String :=
  job.data.titleLog.toList

structure CoalesceWaitingOutcome where
  merged : Option KeptWaitingJob
  removed : List KeptWaitingJob
  titles : List String
  deriving DecidableEq, Repr

/-- Fold `incoming` into the oldest waiting duplicate of its own lane and drop
the other duplicates of every lane. -/
def coalesceWaiting (q : InMemoryQueue) (incoming : DeploymentJob)
    (predicate : DeploymentJob -> Bool) : Reply CoalesceWaitingOutcome :=
  let home := getPartition incoming
  let swept := q.coalesceSweep incoming predicate
  let target := (swept home).state
  let dropped := (q.homeFirst home).flatMap fun key => (swept key).gone
  let kept := keptId incoming target dropped
  let merged := mergedPayload incoming kept
  let removed := dropped.map summarize
  let reported := settle dropped ++ reportDropped ((dropped.map (·.data)).filter (isLost kept))
  match target with
  | none => ⟨q.keepSwept swept, reported, ⟨none, removed, dropped.flatMap titleOf⟩⟩
  | some job =>
      ⟨(q.keepSwept swept).changeLane home fun lane =>
          { lane with waiting := lane.waiting.map (setData job.id merged) },
        reported ++ reportDropped ([job.data].filter (isLost kept)) ++ [.updated job.journalId merged],
        ⟨some (summarize { job with data := merged }), removed, titleOf job ++ dropped.flatMap titleOf⟩⟩

/-! ## Locks -/

/-- An active job, in the first lane that has it. -/
def findActive (q : InMemoryQueue) (id : Nat) : Option (String × InternalJob) :=
  q.partitions.keys.findSome? fun key =>
    ((q.lane key).active.find? (·.id == id)).map fun job => (key, job)

/-- Free the slot of a running job whose processor will not return. -/
def releaseActive (q : InMemoryQueue) (id : Nat) (keepGroupLock : Bool) (now : Nat) : Reply Bool :=
  match q.findActive id with
  | none => ⟨q, [], false⟩
  | some (key, found) =>
      let job : InternalJob :=
        { found with
          released := true
          finishedOn := some now
          failedReason := some "Released by the deployment watchdog"
          groupLockKept := if keepGroupLock then true else found.groupLockKept }
      let freed := q.changeLane key fun lane =>
        { lane with
          active := lane.active.filter fun other => !(other.id == job.id)
          activeGroups := if keepGroupLock then lane.activeGroups else lane.activeGroups.erase job.group
          jumpedLast := if job.jumped then false else lane.jumpedLast }
      let recorded : InMemoryQueue :=
        { freed with
          releasedRuns := freed.releasedRuns ++ [job]
          keptLocks := if keepGroupLock then freed.keptLocks ++ [job.id] else freed.keptLocks }
      let woken := recorded.wakeIdleWaiters
      ⟨woken.1.drainPartition job.partition, [.released key job] ++ settle [job] ++ woken.2, true⟩

/-- A kept lock and the released job that owns it. -/
def findKeptLock (q : InMemoryQueue) (id : Nat) : Option InternalJob :=
  if id ∈ q.keptLocks then (q.releasedRuns.find? (·.id == id)).filter (·.groupLockKept) else none

/-- True while a released job still holds its service's group lock. -/
def hasKeptGroupLock (q : InMemoryQueue) (id : Nat) : Bool :=
  (q.findKeptLock id).isSome

/-- Take a lane's group lock away and let the lane continue. -/
def dropLock (q : InMemoryQueue) (key : String) (group : String) : InMemoryQueue :=
  (q.changeLane key fun lane => { lane with activeGroups := lane.activeGroups.erase group }).drainPartition key

/-- Drop the group lock a released job kept. -/
def dropKeptGroupLock (q : InMemoryQueue) (id : Nat) : Reply Bool :=
  match q.findKeptLock id with
  | none => ⟨q, [], false⟩
  | some job =>
      let dropped : InMemoryQueue :=
        { q with
          releasedRuns := q.releasedRuns.map fun other =>
            if other.id = id then { other with groupLockKept := false } else other
          keptLocks := q.keptLocks.filter fun other => !(other == id) }
      ⟨dropped.dropLock job.partition job.group, [], true⟩

inductive HoldAnswer where
  | taken
  | busyRunning
  | busyWaiting
  | busyHeld
  deriving DecidableEq, Repr

/-- Take a service's group lock for work done outside the queue. -/
def holdIdleGroup (q : InMemoryQueue) (partitionKey : String) (group : String)
    (waitingBlocks : DeploymentJob -> Bool) : Reply HoldAnswer :=
  if group ∈ q.heldGroups then ⟨q, [], .busyHeld⟩
  else if q.partitions.keys.any fun key => decide (group ∈ (q.lane key).activeGroups) then
    ⟨q, [], .busyRunning⟩
  else if q.partitions.keys.any fun key =>
      (q.lane key).waiting.any fun job => job.group == group && waitingBlocks job.data then
    ⟨q, [], .busyWaiting⟩
  else
    let locked := (q.getPartitionState partitionKey).changeLane partitionKey fun lane =>
      { lane with activeGroups := insert group lane.activeGroups }
    ⟨{ locked with
        heldGroups := insert group q.heldGroups
        holds := q.holds ++ [⟨partitionKey, group, false⟩] },
      [.held partitionKey group], .taken⟩

/-- Call the release closure of the hold at `index`. -/
def releaseHold (q : InMemoryQueue) (index : Nat) (hold : Hold) : Reply Unit :=
  if hold.released then ⟨q, [], ()⟩
  else
    let released : InMemoryQueue :=
      { q with
        holds := q.holds.set index { hold with released := true }
        heldGroups := q.heldGroups.erase hold.group }
    ⟨released.dropLock hold.key hold.group, [.unheld hold.key hold.group], ()⟩

/-! ## Control and waiting for idleness -/

def close (q : InMemoryQueue) : Reply Unit := ⟨{ q with running := false }, [], ()⟩

def pause (q : InMemoryQueue) : Reply Unit := ⟨{ q with paused := true }, [], ()⟩

def resume (q : InMemoryQueue) : Reply Unit :=
  if q.paused = false then ⟨q, [], ()⟩ else ⟨schedule { q with paused := false }, [], ()⟩

/-- `waiter` names the promise the caller awaits. -/
def waitForIdle (q : InMemoryQueue) (waiter : Nat) : Reply Unit :=
  if q.activeCount = 0 then ⟨q, [.idle waiter], ()⟩
  else ⟨{ q with idleWaiters := q.idleWaiters ++ [waiter] }, [], ()⟩

/-- The timer of a waiter fired first: the promise resolves to false. -/
def idleTimeout (q : InMemoryQueue) (waiter : Nat) : Reply Unit :=
  ⟨{ q with idleWaiters := q.idleWaiters.filter fun other => !(other == waiter) }, [], ()⟩

/-! ## Draining a lane -/

/-- The concurrency of a drain was resolved. -/
def concurrencyResolved (q : InMemoryQueue) (index : Nat) (drain : PendingDrain) (answer : Int) :
    InMemoryQueue :=
  (q.changeLane drain.key fun lane => { lane with concurrency := some (capOf answer) })
    |> fun q => { q with pendingDrains := q.pendingDrains.set index ⟨drain.key, some answer⟩ }

def start (q : InMemoryQueue) (key : String) (pick : Pick) (waiting : InternalJob) (now : Nat) :
    Reply InternalJob :=
  let job : InternalJob :=
    { waiting with
      jumped := pick.jumped
      wentAheadOf := if pick.jumped then startableBefore (q.lane key) pick.index else 0
      state := .active
      processedOn := some now }
  let started := q.changeLane key fun lane =>
    { lane with
      waiting := lane.waiting.eraseIdx pick.index
      jumpedLast := pick.jumped
      activeGroups := insert job.group lane.activeGroups
      active := lane.active ++ [job] }
  ⟨started, [.started key job], job⟩

/-- The loop condition and the pick of one turn, or nothing when the loop ends. -/
def nextStart (q : InMemoryQueue) (key : String) (cap : Nat) : Option (Pick × InternalJob) :=
  if q.running = true ∧ q.paused = false ∧ (q.lane key).active.length < cap then
    match pickNext (q.lane key) with
    | none => none
    | some pick => (q.lane key).waiting[pick.index]?.map fun job => (pick, job)
  else none

/-- After the loop: a drained lane has nothing left to be fair to. -/
def endDrain (q : InMemoryQueue) (index : Nat) (key : String) (cap : Nat) : Reply Unit :=
  let sawEmpty := (q.lane key).waiting.isEmpty
  let cleared := q.changeLane key fun lane =>
    { lane with jumpedLast := if lane.waiting.isEmpty then false else lane.jumpedLast }
  ⟨{ cleared with pendingDrains := q.pendingDrains.eraseIdx index },
    [.drainEnded key cap sawEmpty], ()⟩

/-- One turn of the loop of a drain whose concurrency is known. -/
def drainTurn (q : InMemoryQueue) (index : Nat) (key : String) (cap : Nat) (now : Nat) : Reply Unit :=
  match q.nextStart key cap with
  | none => q.endDrain index key cap
  | some (pick, waiting) =>
      ⟨(q.start key pick waiting now).queue, (q.start key pick waiting now).signals, ()⟩

/-! ## The end of a processor call -/

inductive ProcessorEnd where
  | returned (result : Option JobOutcome)
  | threw (message : String)
  deriving DecidableEq, Repr

def ProcessorEnd.outcome : ProcessorEnd -> Option JobOutcome
  | .returned result => result
  | .threw _ => some .failed

/-- The processor of an active job ended. -/
def finishActive (q : InMemoryQueue) (found : InternalJob) (ending : ProcessorEnd) (now : Nat) :
    Reply Unit :=
  let job : InternalJob :=
    { found with
      finishedOn := some now
      failedReason := match ending with
        | .returned _ => found.failedReason
        | .threw message => some message }
  let freed := q.changeLane job.partition fun lane =>
    { lane with
      active := lane.active.filter fun other => !(other.id == job.id)
      activeGroups := lane.activeGroups.erase job.group
      jumpedLast := if job.jumped && ending.outcome.isSome then false else lane.jumpedLast }
  let woken := freed.wakeIdleWaiters
  ⟨woken.1.drainPartition job.partition,
    [.ended job.partition job ending.outcome] ++ settle [job] ++ woken.2, ()⟩

/-- The processor of a released job ended.  Only a kept lock is still its own. -/
def finishReleased (q : InMemoryQueue) (job : InternalJob) : Reply Unit :=
  let gone : InMemoryQueue :=
    { q with releasedRuns := q.releasedRuns.filter fun other => !(other.id == job.id) }
  if job.groupLockKept then
    ⟨{ gone with keptLocks := gone.keptLocks.filter fun other => !(other == job.id) }.dropLock
        job.partition job.group, [], ()⟩
  else ⟨gone, [], ()⟩

end InMemoryQueue

/-! ## Events -/

inductive Event where
  | process
  | run
  | add (requested : DeploymentJob) (uuid : String) (now : Nat)
  | prioritize (id : Nat) (requester : Option String)
  | addRestored (jobs : List RestoredJob)
  | remove (id : Nat)
  | removeWaitingJob (id : Nat)
  | releaseActive (id : Nat) (keepGroupLock : Bool) (now : Nat)
  | dropKeptGroupLock (id : Nat)
  | holdIdleGroup (partitionKey : String) (group : String) (waitingBlocks : DeploymentJob -> Bool)
  | releaseHold (index : Nat)
  | removeWaiting (predicate : DeploymentJob -> Bool)
  | keepOldestWaiting (predicate : DeploymentJob -> Bool)
  | coalesceWaiting (incoming : DeploymentJob) (predicate : DeploymentJob -> Bool)
  | clearWaiting
  | close
  | pause
  | resume
  | waitForIdle (waiter : Nat)
  | idleTimeout (waiter : Nat)
  | concurrencyResolved (index : Nat) (answer : Int)
  | concurrencyRejected (index : Nat)
  | drainTurn (index : Nat) (now : Nat)
  | processorEnded (id : Nat) (ending : InMemoryQueue.ProcessorEnd) (now : Nat)

def Reply.effect {Answer : Type} (reply : Reply Answer) : Option (InMemoryQueue × List Signal) :=
  some (reply.queue, reply.signals)

/-- The reaction of the queue to one event.  There is none when the event names
a suspended call that does not exist. -/
def step (q : InMemoryQueue) : Event -> Option (InMemoryQueue × List Signal)
  | .process => q.process.effect
  | .run => q.run.effect
  | .add requested uuid now => (q.add requested uuid now).effect
  | .prioritize id requester => (q.prioritize id requester).effect
  | .addRestored jobs => (q.addRestored jobs).effect
  | .remove id => (q.remove id).effect
  | .removeWaitingJob id => (q.removeWaitingJob id).effect
  | .releaseActive id keepGroupLock now => (q.releaseActive id keepGroupLock now).effect
  | .dropKeptGroupLock id => (q.dropKeptGroupLock id).effect
  | .holdIdleGroup partitionKey group waitingBlocks =>
      (q.holdIdleGroup partitionKey group waitingBlocks).effect
  | .releaseHold index =>
      match q.holds[index]? with
      | none => none
      | some hold => (q.releaseHold index hold).effect
  | .removeWaiting predicate => (q.removeWaiting predicate).effect
  | .keepOldestWaiting predicate => (q.keepOldestWaiting predicate).effect
  | .coalesceWaiting incoming predicate => (q.coalesceWaiting incoming predicate).effect
  | .clearWaiting => q.clearWaiting.effect
  | .close => q.close.effect
  | .pause => q.pause.effect
  | .resume => q.resume.effect
  | .waitForIdle waiter => (q.waitForIdle waiter).effect
  | .idleTimeout waiter => (q.idleTimeout waiter).effect
  | .concurrencyResolved index answer =>
      match q.pendingDrains[index]? with
      | some ⟨key, none⟩ => some (q.concurrencyResolved index ⟨key, none⟩ answer, [.resolved key answer])
      | _ => none
  | .concurrencyRejected index =>
      match q.pendingDrains[index]? with
      | some ⟨key, none⟩ =>
          some ({ q with pendingDrains := q.pendingDrains.eraseIdx index }, [.rejected key])
      | _ => none
  | .drainTurn index now =>
      match q.pendingDrains[index]? with
      | some ⟨key, some answer⟩ => (q.drainTurn index key (capOf answer) now).effect
      | _ => none
  | .processorEnded id ending now =>
      match q.findActive id with
      | some (_, job) => (q.finishActive job ending now).effect
      | none =>
          match q.releasedRuns.find? (·.id == id) with
          | some job => (q.finishReleased job).effect
          | none => none

/-- The queue of one process, from its constructor on. -/
def queueMachine : Machine InMemoryQueue Event Signal where
  initial := InMemoryQueue.new
  step := step

end DeployQueue
end Dokploy
