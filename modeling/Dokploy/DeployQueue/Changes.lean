import Dokploy.Foundation.Keyed
import Dokploy.DeployQueue.Operations

namespace Dokploy
namespace DeployQueue

open Foundation

/-!
# What one step of the queue can do

The methods of the queue overlap: six of them take waiting jobs out, three
change a payload, five start or stop the worker.  This module lists the
primitive changes behind them once, each with everything that holds when it
happens, and proves that every step of the queue is a path of such changes.
Invariants are proved about the changes only.

A change describes lanes through the function from keys to lanes, and the rest
of the state by saying which fields differ.
-/

/-- Jobs may start: the worker is registered, runs and is not paused. -/
def Operational (q : InMemoryQueue) : Prop :=
  q.running = true ∧ q.paused = false ∧ q.processor = true

/-- A job object as `createJob` makes it. -/
structure Pristine (job : InternalJob) : Prop where
  state : job.state = .waiting
  partition : job.partition = getPartition job.data
  group : job.group = getGroup job.data
  jumped : job.jumped = false
  released : job.released = false
  groupLockKept : job.groupLockKept = false

/-- New job objects with the next ids, in order. -/
structure NewJobs (q : InMemoryQueue) (added : List InternalJob) : Prop where
  ids : added.map (·.id) = List.range' (q.seq + 1) added.length
  pristine : forall job, job ∈ added -> Pristine job

def activated (waiting : InternalJob) (jumped : Bool) (wentAheadOf now : Nat) : InternalJob :=
  { waiting with jumped := jumped, wentAheadOf := wentAheadOf, state := .active, processedOn := some now }

/-- A start of a waiting job by a drain whose concurrency is known, with what
the loop and the pick have checked. -/
structure Start (q : InMemoryQueue) (key : String) where
  answer : Int
  before : List InternalJob
  behind : List InternalJob
  waiting : InternalJob
  jumped : Bool
  now : Nat
  drain : (⟨key, some answer⟩ : PendingDrain) ∈ q.pendingDrains
  operational : q.running = true ∧ q.paused = false
  room : (q.lane key).active.length < capOf answer
  split : (q.lane key).waiting = before ++ waiting :: behind
  free : waiting.group ∉ (q.lane key).activeGroups
  oldest : forall older, older ∈ before -> older.group ≠ waiting.group
  plain : jumped = false -> forall older, older ∈ before -> older.group ∈ (q.lane key).activeGroups
  jump : jumped = true -> flagged waiting.data = true ∧ jumpBlocked (q.lane key) = false

namespace Start

variable {q : InMemoryQueue} {key : String}

def job (start : Start q key) : InternalJob :=
  activated start.waiting start.jumped
    (if start.jumped then startableBefore (q.lane key) start.before.length else 0) start.now

def lane (start : Start q key) : Partition :=
  { q.lane key with
    waiting := start.before ++ start.behind
    jumpedLast := start.jumped
    activeGroups := insert start.waiting.group (q.lane key).activeGroups
    active := (q.lane key).active ++ [start.job] }

theorem member (start : Start q key) : start.waiting ∈ (q.lane key).waiting :=
  start.split ▸ List.mem_append_right _ List.mem_cons_self

theorem waited (start : Start q key) {job : InternalJob} (stays : job ∈ start.lane.waiting) :
    job ∈ (q.lane key).waiting := by
  rw [start.split]
  rcases List.mem_append.mp stays with ahead | later
  · exact List.mem_append_left _ ahead
  · exact List.mem_append_right _ (List.mem_cons_of_mem _ later)

end Start

inductive Change : InMemoryQueue -> List Signal -> InMemoryQueue -> Prop
  /-- The worker is registered, started, stopped, paused or resumed.  When
  this makes jobs startable, every lane is drained. -/
  | control {q after : InMemoryQueue} {drains : List PendingDrain}
      (frame : after = { q with
        processor := after.processor, running := after.running, paused := after.paused
        pendingDrains := q.pendingDrains ++ drains })
      (fresh : forall drain, drain ∈ drains -> drain.answer = none)
      (standing : forall drain, drain ∈ drains -> drain.key ∈ q.partitions.keys)
      (scheduled : Operational after -> Operational q ∨
        forall key, key ∈ q.partitions.keys -> (⟨key, none⟩ : PendingDrain) ∈ drains) :
      Change q [] after
  /-- A lane is created. -/
  | created (q : InMemoryQueue) (key : String) : Change q [] (q.getPartitionState key)
  /-- New jobs enter the waiting lists, at the front or at the end, and every
  lane is drained. -/
  | entered {q after : InMemoryQueue} {added : List InternalJob} {front : Bool} {extra : List Signal}
      (new : NewJobs q added)
      (placed : forall job, job ∈ added -> job.partition ∈ q.partitions.keys)
      (announced : extra = [] ∨ Exists fun job => added = [job] ∧
        extra = [.enqueued job.journalId job.data])
      (lanes : after.lane = fun key => { q.lane key with
        waiting :=
          if front then added.filter (·.partition == key) ++ (q.lane key).waiting
          else (q.lane key).waiting ++ added.filter (·.partition == key) })
      (keys : after.partitions.keys = q.partitions.keys)
      (frame : after = { q with
        partitions := after.partitions, seq := q.seq + added.length
        pendingDrains := q.pendingDrains ++ if added = [] then [] else after.scheduled }) :
      Change q (added.map .accepted ++ extra) after
  /-- Waiting jobs are taken out and settled. -/
  | dropped {q after : InMemoryQueue} {kept gone : String -> List InternalJob}
      {order : List String} {reports : List Signal}
      (visits : order.Nodup) (visited : forall key, key ∈ order <-> key ∈ q.partitions.keys)
      (sublist : forall key, (kept key).Sublist (q.lane key).waiting)
      (perm : forall key, (kept key ++ gone key).Perm (q.lane key).waiting)
      (reported : forall signal, signal ∈ reports -> Exists fun data => signal = .waitingDropped data)
      (lanes : after.lane = fun key => { q.lane key with waiting := kept key })
      (keys : after.partitions.keys = q.partitions.keys)
      (frame : after = { q with partitions := after.partitions }) :
      Change q (InMemoryQueue.settle (order.flatMap gone) ++ reports) after
  /-- The payload of a waiting job is replaced. -/
  | rewritten {q after : InMemoryQueue} {key : String} {job : InternalJob} {data : DeploymentJob}
      (member : job ∈ (q.lane key).waiting)
      (lanes : after.lane = Function.update q.lane key
        { q.lane key with waiting := (q.lane key).waiting.map (setData job.id data) })
      (keys : after.partitions.keys = q.partitions.keys)
      (frame : after = { q with partitions := after.partitions }) :
      Change q [.updated job.journalId data] after
  /-- A drain starts a waiting job. -/
  | started {q after : InMemoryQueue} {key : String} (start : Start q key)
      (lanes : after.lane = Function.update q.lane key start.lane)
      (keys : after.partitions.keys = q.partitions.keys)
      (frame : after = { q with partitions := after.partitions }) :
      Change q [.started key start.job] after
  /-- The watchdog releases an active job, with or without its lock. -/
  | released {q after : InMemoryQueue} {key : String} {found job : InternalJob} {keepGroupLock : Bool}
      (member : found ∈ (q.lane key).active) (home : found.partition = key)
      (marked : job = { found with
        released := true, finishedOn := job.finishedOn, failedReason := job.failedReason
        groupLockKept := if keepGroupLock then true else found.groupLockKept })
      (lanes : after.lane = Function.update q.lane key { q.lane key with
        active := (q.lane key).active.filter fun other => !(other.id == found.id)
        activeGroups := if keepGroupLock then (q.lane key).activeGroups
          else (q.lane key).activeGroups.erase found.group
        jumpedLast := if found.jumped then false else (q.lane key).jumpedLast })
      (keys : after.partitions.keys = q.partitions.keys)
      (frame : after = { q with
        partitions := after.partitions
        releasedRuns := q.releasedRuns ++ [job]
        keptLocks := if keepGroupLock then q.keptLocks ++ [found.id] else q.keptLocks
        pendingDrains := q.pendingDrains ++ q.drained key }) :
      Change q [.released key job, .settled [job]] after
  /-- A released job loses the lock it kept. -/
  | lockDropped {q after : InMemoryQueue} {job : InternalJob}
      (member : job ∈ q.releasedRuns) (kept : job.groupLockKept = true)
      (present : job.partition ∈ q.partitions.keys)
      (lanes : after.lane = Function.update q.lane job.partition { q.lane job.partition with
        activeGroups := (q.lane job.partition).activeGroups.erase job.group })
      (keys : after.partitions.keys = q.partitions.keys)
      (frame : after = { q with
        partitions := after.partitions
        releasedRuns := q.releasedRuns.map fun other =>
          if other.id = job.id then { other with groupLockKept := false } else other
        keptLocks := q.keptLocks.filter fun other => !(other == job.id)
        pendingDrains := q.pendingDrains ++ q.drained job.partition }) :
      Change q [] after
  /-- The processor of a released job without a lock ended. -/
  | returnedLate {q after : InMemoryQueue} {job : InternalJob}
      (member : job ∈ q.releasedRuns) (lockFree : job.groupLockKept = false)
      (frame : after = { q with
        releasedRuns := q.releasedRuns.filter fun other => !(other.id == job.id) }) :
      Change q [] after
  /-- The processor of an active job ended. -/
  | ended {q after : InMemoryQueue} {key : String} {found job : InternalJob}
      {outcome : Option JobOutcome}
      (member : found ∈ (q.lane key).active) (home : found.partition = key)
      (marked : job = { found with finishedOn := job.finishedOn, failedReason := job.failedReason })
      (lanes : after.lane = Function.update q.lane key { q.lane key with
        active := (q.lane key).active.filter fun other => !(other.id == found.id)
        activeGroups := (q.lane key).activeGroups.erase found.group
        jumpedLast := if found.jumped && outcome.isSome then false else (q.lane key).jumpedLast })
      (keys : after.partitions.keys = q.partitions.keys)
      (frame : after = { q with
        partitions := after.partitions
        pendingDrains := q.pendingDrains ++ q.drained key }) :
      Change q [.ended key job outcome, .settled [job]] after
  /-- A group is locked outside any job. -/
  | held {q after : InMemoryQueue} {key group : String}
      (unheld : group ∉ q.heldGroups)
      (unlocked : forall other, group ∉ (q.lane other).activeGroups)
      (present : key ∈ q.partitions.keys)
      (lanes : after.lane = Function.update q.lane key { q.lane key with
        activeGroups := insert group (q.lane key).activeGroups })
      (keys : after.partitions.keys = q.partitions.keys)
      (frame : after = { q with
        partitions := after.partitions
        heldGroups := insert group q.heldGroups
        holds := q.holds ++ [⟨key, group, false⟩] }) :
      Change q [.held key group] after
  /-- The first call of a release closure. -/
  | unheld {q after : InMemoryQueue} {index : Nat} {hold : Hold}
      (found : q.holds[index]? = some hold) (live : hold.released = false)
      (present : hold.key ∈ q.partitions.keys)
      (lanes : after.lane = Function.update q.lane hold.key { q.lane hold.key with
        activeGroups := (q.lane hold.key).activeGroups.erase hold.group })
      (keys : after.partitions.keys = q.partitions.keys)
      (frame : after = { q with
        partitions := after.partitions
        heldGroups := q.heldGroups.erase hold.group
        holds := q.holds.set index { hold with released := true }
        pendingDrains := q.pendingDrains ++ q.drained hold.key }) :
      Change q [.unheld hold.key hold.group] after
  /-- A drain learns its concurrency. -/
  | resolved {q after : InMemoryQueue} {index : Nat} {key : String} {answer : Int}
      (found : q.pendingDrains[index]? = some ⟨key, none⟩)
      (lanes : after.lane = Function.update q.lane key
        { q.lane key with concurrency := some (capOf answer) })
      (keys : after.partitions.keys = q.partitions.keys)
      (frame : after = { q with
        partitions := after.partitions
        pendingDrains := q.pendingDrains.set index ⟨key, some answer⟩ }) :
      Change q [.resolved key answer] after
  /-- The concurrency of a drain is rejected, which ends the drain. -/
  | rejected {q after : InMemoryQueue} {index : Nat} {key : String}
      (found : q.pendingDrains[index]? = some ⟨key, none⟩)
      (frame : after = { q with pendingDrains := q.pendingDrains.eraseIdx index }) :
      Change q [.rejected key] after
  /-- The loop of a drain ends. -/
  | drainEnded {q after : InMemoryQueue} {index : Nat} {key : String} {answer : Int}
      (found : q.pendingDrains[index]? = some ⟨key, some answer⟩)
      (stopped : ¬ (q.running = true ∧ q.paused = false) ∨ capOf answer ≤ (q.lane key).active.length ∨
        forall job, job ∈ (q.lane key).waiting -> job.group ∈ (q.lane key).activeGroups)
      (lanes : after.lane = Function.update q.lane key { q.lane key with
        jumpedLast := if (q.lane key).waiting.isEmpty then false else (q.lane key).jumpedLast })
      (keys : after.partitions.keys = q.partitions.keys)
      (frame : after = { q with
        partitions := after.partitions
        pendingDrains := q.pendingDrains.eraseIdx index }) :
      Change q [.drainEnded key (capOf answer) (q.lane key).waiting.isEmpty] after
  /-- Idle waiters come and go. -/
  | waiters {q after : InMemoryQueue} {signals : List Signal}
      (woken : forall signal, signal ∈ signals -> Exists fun waiter => signal = .idle waiter)
      (frame : after = { q with idleWaiters := after.idleWaiters }) :
      Change q signals after

theorem mem_settle {jobs : List InternalJob} {signal : Signal}
    (member : signal ∈ InMemoryQueue.settle jobs) : signal = .settled jobs := by
  unfold InMemoryQueue.settle at member
  split at member
  · cases member
  · exact List.mem_singleton.mp member

theorem mem_entered {added : List InternalJob} {extra : List Signal} {signal : Signal}
    (announced : extra = [] ∨ Exists fun job => added = [job] ∧
      extra = [.enqueued job.journalId job.data])
    (member : signal ∈ added.map .accepted ++ extra) :
    (Exists fun job => signal = .accepted job) ∨
      Exists fun journalId => Exists fun data => signal = .enqueued journalId data := by
  rcases List.mem_append.mp member with fresh | last
  · rcases List.mem_map.mp fresh with ⟨job, _, same⟩
    exact Or.inl ⟨job, same.symm⟩
  · rcases announced with empty | ⟨job, _, same⟩
    · rw [empty] at last
      cases last
    · rw [same] at last
      exact Or.inr ⟨_, _, List.mem_singleton.mp last⟩

theorem mem_dropped {jobs : List InternalJob} {reports : List Signal} {signal : Signal}
    (reported : forall signal, signal ∈ reports -> Exists fun data => signal = .waitingDropped data)
    (member : signal ∈ InMemoryQueue.settle jobs ++ reports) :
    (Exists fun jobs => signal = .settled jobs) ∨ Exists fun data => signal = .waitingDropped data := by
  rcases List.mem_append.mp member with settled | last
  · exact Or.inl ⟨jobs, mem_settle settled⟩
  · exact Or.inr (reported signal last)

def LanePlaced (key : String) (lane : Partition) : Prop :=
  (forall job, job ∈ lane.waiting -> job.partition = key) ∧
    forall job, job ∈ lane.active -> job.partition = key

/-- Jobs wait and run in their own lane, and whatever is suspended on a lane is
suspended on one that exists. -/
structure Placed (q : InMemoryQueue) : Prop where
  lanes : forall key, LanePlaced key (q.lane key)
  runs : forall job, job ∈ q.releasedRuns -> job.partition ∈ q.partitions.keys
  holds : forall hold, hold ∈ q.holds -> hold.key ∈ q.partitions.keys
  drains : forall drain, drain ∈ q.pendingDrains -> drain.key ∈ q.partitions.keys

@[simp] theorem setData_id (id : Nat) (data : DeploymentJob) (job : InternalJob) :
    (setData id data job).id = job.id := by
  unfold setData
  split <;> rfl

@[simp] theorem setData_journalId (id : Nat) (data : DeploymentJob) (job : InternalJob) :
    (setData id data job).journalId = job.journalId := by
  unfold setData
  split <;> rfl

@[simp] theorem setData_partition (id : Nat) (data : DeploymentJob) (job : InternalJob) :
    (setData id data job).partition = job.partition := by
  unfold setData
  split <;> rfl

@[simp] theorem setData_group (id : Nat) (data : DeploymentJob) (job : InternalJob) :
    (setData id data job).group = job.group := by
  unfold setData
  split <;> rfl

theorem every_lane_of_update {holds : String -> Partition -> Prop}
    {before after : String -> Partition} {key : String} {lane : Partition}
    (updated : after = Function.update before key lane) (here : holds key lane)
    (elsewhere : forall other, holds other (before other)) (other : String) :
    holds other (after other) := by
  rw [updated]
  by_cases same : other = key
  · rw [same, Function.update_self]
    exact here
  · rw [Function.update_of_ne same]
    exact elsewhere other

theorem read_of_update {Field : Type} {before after : String -> Partition} {key : String}
    {lane : Partition} (read : Partition -> Field) (updated : after = Function.update before key lane)
    (same : read lane = read (before key)) (other : String) : read (after other) = read (before other) :=
  @every_lane_of_update (fun other lane => read lane = read (before other)) _ _ _ _ updated same
    (fun _ => rfl) other

theorem lanePlaced_empty (key : String) : LanePlaced key Partition.empty :=
  ⟨fun _ member => (List.not_mem_nil member).elim, fun _ member => (List.not_mem_nil member).elim⟩

theorem placed_new : Placed InMemoryQueue.new where
  lanes := lanePlaced_empty
  runs := fun _ member => by cases member
  holds := fun _ member => by cases member
  drains := fun _ member => by cases member

theorem drained_key {q : InMemoryQueue} {key : String} {drain : PendingDrain}
    (member : drain ∈ q.drained key) : drain.key ∈ q.partitions.keys := by
  unfold InMemoryQueue.drained at member
  split at member
  · rename_i called
    rw [List.mem_singleton.mp member]
    exact called.1
  · cases member

theorem scheduled_key {q : InMemoryQueue} {drain : PendingDrain}
    (member : drain ∈ q.scheduled) : drain.key ∈ q.partitions.keys := by
  unfold InMemoryQueue.scheduled at member
  split at member
  · rcases List.mem_map.mp member with ⟨key, present, same⟩
    exact same ▸ present
  · cases member

private theorem drains_append {keys : List String} {drains more : List PendingDrain}
    (old : forall drain, drain ∈ drains -> drain.key ∈ keys)
    (new : forall drain, drain ∈ more -> drain.key ∈ keys) :
    forall drain, drain ∈ drains ++ more -> drain.key ∈ keys := by
  intro drain member
  rcases List.mem_append.mp member with before | after
  · exact old drain before
  · exact new drain after

theorem Placed.change {q after : InMemoryQueue} {output : List Signal}
    (placed : Placed q) (change : Change q output after) : Placed after := by
  have drainedKeys : forall key drain, drain ∈ q.drained key -> drain.key ∈ q.partitions.keys :=
    fun _ _ => drained_key
  cases change with
  | control frame fresh placedDrains scheduled =>
      constructor <;> rw [frame]
      · exact placed.lanes
      · exact placed.runs
      · exact placed.holds
      · exact drains_append placed.drains placedDrains
  | created key =>
      refine ⟨placed.lanes, fun job member => ?_, fun hold member => ?_, fun drain member => ?_⟩
      · exact (OrderedMap.mem_ensure_keys _ _ _).mpr (Or.inr (placed.runs job member))
      · exact (OrderedMap.mem_ensure_keys _ _ _).mpr (Or.inr (placed.holds hold member))
      · exact (OrderedMap.mem_ensure_keys _ _ _).mpr (Or.inr (placed.drains drain member))
  | @entered _ added front extra new present announced lanes keys frame =>
      constructor
      · rw [lanes]
        intro key
        refine ⟨fun job member => ?_, (placed.lanes key).2⟩
        have either : job ∈ added.filter (·.partition == key) ∨ job ∈ (q.lane key).waiting := by
          dsimp only at member
          split at member
          · exact List.mem_append.mp member
          · exact (List.mem_append.mp member).symm
        rcases either with fresh | old
        · exact beq_iff_eq.mp (List.mem_filter.mp fresh).2
        · exact (placed.lanes key).1 job old
      · rw [keys, frame]
        exact placed.runs
      · rw [keys, frame]
        exact placed.holds
      · rw [keys, frame]
        refine drains_append placed.drains fun drain member => ?_
        split at member
        · cases member
        · exact keys ▸ scheduled_key member
  | dropped visits visited sublist perm reported lanes keys frame =>
      constructor
      · rw [lanes]
        exact fun key => ⟨fun job member => (placed.lanes key).1 job ((sublist key).subset member),
          (placed.lanes key).2⟩
      all_goals rw [keys, frame]
      · exact placed.runs
      · exact placed.holds
      · exact placed.drains
  | @rewritten _ key job data member lanes keys frame =>
      constructor
      · refine every_lane_of_update lanes ⟨?_, (placed.lanes key).2⟩ placed.lanes
        intro changed inMap
        rcases List.mem_map.mp inMap with ⟨old, oldMember, same⟩
        rw [← same, setData_partition]
        exact (placed.lanes key).1 old oldMember
      all_goals rw [keys, frame]
      · exact placed.runs
      · exact placed.holds
      · exact placed.drains
  | @started _ key start lanes keys frame =>
      have here := placed.lanes key
      constructor
      · refine every_lane_of_update lanes ⟨fun job stays => here.1 job (start.waited stays), ?_⟩ placed.lanes
        intro job member
        rcases List.mem_append.mp member with old | new
        · exact here.2 job old
        · rw [List.mem_singleton.mp new]
          exact here.1 start.waiting start.member
      all_goals rw [keys, frame]
      · exact placed.runs
      · exact placed.holds
      · exact placed.drains
  | @released _ key found job keepGroupLock member home marked lanes keys frame =>
      constructor
      · exact every_lane_of_update lanes ⟨(placed.lanes key).1,
          fun other inFilter => (placed.lanes key).2 other (List.mem_filter.mp inFilter).1⟩ placed.lanes
      all_goals rw [keys, frame]
      · intro other inRuns
        rcases List.mem_append.mp inRuns with old | new
        · exact placed.runs other old
        · rw [List.mem_singleton.mp new, marked]
          exact home ▸ InMemoryQueue.key_of_active member
      · exact placed.holds
      · exact drains_append placed.drains (drainedKeys key)
  | @lockDropped _ job member kept present lanes keys frame =>
      constructor
      · exact every_lane_of_update lanes (placed.lanes job.partition) placed.lanes
      all_goals rw [keys, frame]
      · intro other inMap
        rcases List.mem_map.mp inMap with ⟨old, oldMember, same⟩
        rw [← same]
        split <;> exact placed.runs old oldMember
      · exact placed.holds
      · exact drains_append placed.drains (drainedKeys job.partition)
  | returnedLate member lockFree frame =>
      constructor <;> rw [frame]
      · exact placed.lanes
      · exact fun other inFilter => placed.runs other (List.mem_filter.mp inFilter).1
      · exact placed.holds
      · exact placed.drains
  | @ended _ key found job outcome member home marked lanes keys frame =>
      constructor
      · exact every_lane_of_update lanes ⟨(placed.lanes key).1,
          fun other inFilter => (placed.lanes key).2 other (List.mem_filter.mp inFilter).1⟩ placed.lanes
      all_goals rw [keys, frame]
      · exact placed.runs
      · exact placed.holds
      · exact drains_append placed.drains (drainedKeys key)
  | @held _ key group unheld unlocked present lanes keys frame =>
      constructor
      · exact every_lane_of_update lanes (placed.lanes key) placed.lanes
      all_goals rw [keys, frame]
      · exact placed.runs
      · intro hold inHolds
        rcases List.mem_append.mp inHolds with old | new
        · exact placed.holds hold old
        · rw [List.mem_singleton.mp new]
          exact present
      · exact placed.drains
  | @unheld _ index hold found live present lanes keys frame =>
      constructor
      · exact every_lane_of_update lanes (placed.lanes hold.key) placed.lanes
      all_goals rw [keys, frame]
      · exact placed.runs
      · intro other inHolds
        rcases List.mem_or_eq_of_mem_set inHolds with old | new
        · exact placed.holds other old
        · rw [new]
          exact present
      · exact drains_append placed.drains (drainedKeys hold.key)
  | @resolved _ index key answer found lanes keys frame =>
      constructor
      · exact every_lane_of_update lanes (placed.lanes key) placed.lanes
      all_goals rw [keys, frame]
      · exact placed.runs
      · exact placed.holds
      · intro drain inDrains
        rcases List.mem_or_eq_of_mem_set inDrains with old | new
        · exact placed.drains drain old
        · rw [new]
          exact placed.drains ⟨key, none⟩ (List.mem_of_getElem? found)
  | rejected found frame =>
      constructor <;> rw [frame]
      · exact placed.lanes
      · exact placed.runs
      · exact placed.holds
      · exact fun drain inDrains => placed.drains drain (List.mem_of_mem_eraseIdx inDrains)
  | @drainEnded _ index key answer found stopped lanes keys frame =>
      constructor
      · exact every_lane_of_update lanes (placed.lanes key) placed.lanes
      all_goals rw [keys, frame]
      · exact placed.runs
      · exact placed.holds
      · exact fun drain inDrains => placed.drains drain (List.mem_of_mem_eraseIdx inDrains)
  | waiters woken frame =>
      constructor <;> rw [frame]
      · exact placed.lanes
      · exact placed.runs
      · exact placed.holds
      · exact placed.drains

end DeployQueue
end Dokploy
