import Dokploy.DeployQueue.Decomposition

namespace Dokploy
namespace DeployQueue

open Foundation
open InMemoryQueue

/-!
# Waiting for an idle queue

A shutdown awaits the jobs that run.  Only the end of a job and its release
look whether somebody waits, so a waiter must never be left waiting in a queue
in which nothing runs, and no waiter may be told that nothing runs while a job
does.
-/

variable {q after : InMemoryQueue} {output : List Signal}

/-- Some job is active. -/
def Busy (q : InMemoryQueue) : Prop := Exists fun key => (q.lane key).active ≠ []

/-- The waiters whose promise resolves to true by these signals. -/
def told (output : List Signal) : List Nat :=
  output.filterMap fun signal =>
    match signal with
    | .idle waiter => some waiter
    | _ => none

/-- The waiter that an event adds. -/
def Event.asks : Event -> List Nat
  | .waitForIdle waiter => [waiter]
  | _ => []

/-- Does the timer of this waiter fire by the event? -/
def Event.givesUp (event : Event) (waiter : Nat) : Bool :=
  match event with
  | .idleTimeout other => waiter == other
  | _ => false

/-- Nobody waits for nothing. -/
def Attended (q : InMemoryQueue) : Prop := q.idleWaiters ≠ [] -> Busy q

/-- What becomes of the waiters in one step. -/
structure WaitersBalanced (q : InMemoryQueue) (event : Event) (output : List Signal) (after : InMemoryQueue) : Prop where
  attended : Attended after
  honest : told output ≠ [] -> ¬ Busy after
  /-- In their order, those of before and the one that came are told or wait. -/
  balance : told output ++ after.idleWaiters =
    (q.idleWaiters.filter fun waiter => !event.givesUp waiter) ++ event.asks

theorem activeCount_eq_zero : q.activeCount = 0 <-> ¬ Busy q := by
  rw [activeCount, List.sum_eq_zero_iff_forall_eq_nat, Busy, not_exists]
  constructor
  · intro none key some
    rcases List.exists_mem_of_ne_nil _ some with ⟨job, member⟩
    exact some (List.length_eq_zero_iff.mp (none _ (List.mem_map_of_mem (key_of_active member))))
  · intro idle count member
    rcases List.mem_map.mp member with ⟨key, _, rfl⟩
    exact List.length_eq_zero_iff.mpr (not_not.mp (idle key))

/-! ## Steps that free no slot -/

/-- Does the signal free a slot, or tell a waiter so? -/
def Signal.frees : Signal -> Bool
  | .ended _ _ _ | .released _ _ | .idle _ => true
  | _ => false

def Quiet (output : List Signal) : Prop := forall signal, signal ∈ output -> signal.frees = false

/-- A step that frees no slot and leaves the waiters. -/
structure Harmless (q : InMemoryQueue) (output : List Signal) (after : InMemoryQueue) : Prop where
  waiters : after.idleWaiters = q.idleWaiters
  quiet : Quiet output

theorem Quiet.append {output more : List Signal} (first : Quiet output) (second : Quiet more) : Quiet (output ++ more) :=
  fun signal member => (List.mem_append.mp member).elim (first signal) (second signal)

theorem quiet_nil : Quiet [] := fun _ member => (List.not_mem_nil member).elim

theorem Harmless.refl (q : InMemoryQueue) : Harmless q [] q := ⟨rfl, quiet_nil⟩

theorem quiet_one {signal : Signal} (noFree : signal.frees = false) : Quiet [signal] :=
  fun _ member => List.mem_singleton.mp member ▸ noFree

theorem quiet_settle (jobs : List InternalJob) : Quiet (settle jobs) :=
  fun _ member => mem_settle member ▸ rfl

theorem quiet_reportDropped (data : List DeploymentJob) : Quiet (reportDropped data) := by
  unfold reportDropped
  split
  · exact quiet_nil
  · exact quiet_one rfl

theorem quiet_discard (jobs : List InternalJob) : Quiet (discard jobs) :=
  (quiet_settle jobs).append (quiet_reportDropped _)

theorem told_of_quiet (quiet : Quiet output) : told output = [] := by
  refine List.filterMap_eq_nil_iff.mpr fun signal member => ?_
  have noFree := quiet signal member
  cases signal with
  | idle waiter => cases noFree
  | _ => rfl

theorem told_idle (waiters : List Nat) : told (waiters.map .idle) = waiters := by
  rw [told, List.filterMap_map]
  exact List.filterMap_some

theorem told_append (output more : List Signal) : told (output ++ more) = told output ++ told more :=
  List.filterMap_append

theorem Change.keepsBusy (change : Change q output after) (quiet : Quiet output) (busy : Busy q) : Busy after := by
  have kept (lanes : forall key, (q.lane key).active ≠ [] -> (after.lane key).active ≠ []) : Busy after :=
    busy.imp lanes
  have updated {key : String} {lane : Partition} (lanes : after.lane = Function.update q.lane key lane)
      (active : (q.lane key).active ≠ [] -> lane.active ≠ []) : Busy after := by
    refine kept fun other some => ?_
    rw [lanes]
    by_cases same : other = key
    · subst same
      rw [Function.update_self]
      exact active some
    · rw [Function.update_of_ne same]
      exact some
  have same (lanes : after.lane = q.lane) : Busy after := kept fun key some => lanes ▸ some
  cases change with
  | control frame => exact same (by rw [frame]; rfl)
  | created key => exact busy
  | entered _ _ _ lanes => exact kept fun key some => by rw [lanes]; exact some
  | dropped _ _ _ _ _ lanes => exact kept fun key some => by rw [lanes]; exact some
  | rewritten _ lanes => exact updated lanes id
  | started start lanes => exact updated lanes fun _ => List.append_ne_nil_of_right_ne_nil _ (List.cons_ne_nil _ _)
  | released => cases quiet _ List.mem_cons_self
  | lockDropped _ _ _ lanes => exact updated lanes id
  | returnedLate _ _ frame => exact same (by rw [frame]; rfl)
  | ended => cases quiet _ List.mem_cons_self
  | held _ _ _ lanes => exact updated lanes id
  | unheld _ _ _ lanes => exact updated lanes id
  | resolved _ lanes => exact updated lanes id
  | rejected _ frame => exact same (by rw [frame]; rfl)
  | drainEnded _ _ lanes => exact updated lanes id
  | waiters _ frame => exact same (by rw [frame]; rfl)

theorem Harmless.keepsBusy (harmless : Harmless q output after) (path : Machine.Path Change q output after) (busy : Busy q) :
    Busy after :=
  @Machine.Path.invariant _ _ _ (fun _ state => Busy state) (fun _ _ _ _ held change => change.1.keepsBusy change.2 held)
    [] _ _ _ (path.restrict harmless.quiet) busy

theorem Harmless.balanced {event : Event} (harmless : Harmless q output after) (path : Machine.Path Change q output after)
    (attended : Attended q) (asksNot : event.asks = []) (staysAll : forall waiter, event.givesUp waiter = false) :
    WaitersBalanced q event output after where
  attended some := harmless.keepsBusy path (attended (harmless.waiters ▸ some))
  honest some := absurd (told_of_quiet harmless.quiet) some
  balance := by
    simp only [told_of_quiet harmless.quiet, harmless.waiters, asksNot, staysAll, List.nil_append, List.append_nil,
      Bool.not_false, List.filter_true]

theorem waiters_schedule (q : InMemoryQueue) : q.schedule.idleWaiters = q.idleWaiters := by rw [schedule_eq]

theorem waiters_drainPartition (q : InMemoryQueue) (key : String) : (q.drainPartition key).idleWaiters = q.idleWaiters := by
  rw [drainPartition_eq]

theorem harmless_prioritize (q : InMemoryQueue) (id : Nat) (requester : Option String) :
    Harmless q (q.prioritize id requester).signals (q.prioritize id requester).queue := by
  unfold prioritize
  split
  · exact Harmless.refl q
  · dsimp only
    split
    · exact Harmless.refl q
    · split
      · exact Harmless.refl q
      · exact ⟨rfl, quiet_one rfl⟩

theorem harmless_addRestored (q : InMemoryQueue) (jobs : List RestoredJob) :
    Harmless q (q.addRestored jobs).signals (q.addRestored jobs).queue := by
  unfold addRestored
  generalize q.createRestored q.knownJournalIds jobs = added
  have same : (added.foldl (fun q job => q.getPartitionState job.partition) q).idleWaiters = q.idleWaiters := by
    rw [(foldl_getPartitionState added q).1]
  dsimp only
  constructor
  · split
    · exact same
    · rw [waiters_schedule]
      exact same
  · intro signal member
    rcases List.mem_map.mp member with ⟨job, _, rfl⟩
    rfl

theorem harmless_removeWaitingJob (q : InMemoryQueue) (id : Nat) :
    Harmless q (q.removeWaitingJob id).signals (q.removeWaitingJob id).queue := by
  unfold removeWaitingJob
  split
  · exact Harmless.refl q
  · exact ⟨rfl, quiet_discard _⟩

theorem harmless_coalesceWaiting (q : InMemoryQueue) (incoming : DeploymentJob) (predicate : DeploymentJob -> Bool) :
    Harmless q (q.coalesceWaiting incoming predicate).signals (q.coalesceWaiting incoming predicate).queue := by
  unfold coalesceWaiting
  dsimp only
  split
  · exact ⟨rfl, (quiet_settle _).append (quiet_reportDropped _)⟩
  · exact ⟨rfl, (((quiet_settle _).append (quiet_reportDropped _)).append (quiet_reportDropped _)).append (quiet_one rfl)⟩

theorem harmless_dropKeptGroupLock (q : InMemoryQueue) (id : Nat) :
    Harmless q (q.dropKeptGroupLock id).signals (q.dropKeptGroupLock id).queue := by
  unfold dropKeptGroupLock
  split
  · exact Harmless.refl q
  · exact ⟨waiters_drainPartition _ _, quiet_nil⟩

theorem harmless_holdIdleGroup (q : InMemoryQueue) (key group : String) (waitingBlocks : DeploymentJob -> Bool) :
    Harmless q (q.holdIdleGroup key group waitingBlocks).signals (q.holdIdleGroup key group waitingBlocks).queue := by
  unfold holdIdleGroup
  split
  · exact Harmless.refl q
  · split
    · exact Harmless.refl q
    · split
      · exact Harmless.refl q
      · exact ⟨rfl, quiet_one rfl⟩

theorem harmless_releaseHold (q : InMemoryQueue) (index : Nat) (hold : Hold) :
    Harmless q (q.releaseHold index hold).signals (q.releaseHold index hold).queue := by
  unfold releaseHold
  split
  · exact Harmless.refl q
  · exact ⟨waiters_drainPartition _ _, quiet_one rfl⟩

theorem harmless_drainTurn (q : InMemoryQueue) (index : Nat) (key : String) (cap now : Nat) :
    Harmless q (q.drainTurn index key cap now).signals (q.drainTurn index key cap now).queue := by
  unfold drainTurn
  split
  · exact ⟨rfl, quiet_one rfl⟩
  · exact ⟨rfl, quiet_one rfl⟩

theorem harmless_finishReleased (q : InMemoryQueue) (job : InternalJob) :
    Harmless q (q.finishReleased job).signals (q.finishReleased job).queue := by
  unfold finishReleased
  dsimp only
  split
  · exact ⟨waiters_drainPartition _ _, quiet_nil⟩
  · exact ⟨rfl, quiet_nil⟩

/-! ## Steps that do -/

/-- A slot was freed and the waiters were looked after. -/
theorem balanced_of_woken {event : Event} (freed : InMemoryQueue) (key : String) {signals : List Signal}
    (same : freed.idleWaiters = q.idleWaiters) (untold : told signals = []) (asksNot : event.asks = [])
    (staysAll : forall waiter, event.givesUp waiter = false) :
    WaitersBalanced q event (signals ++ freed.wakeIdleWaiters.2) (freed.wakeIdleWaiters.1.drainPartition key) := by
  have stay : (q.idleWaiters.filter fun waiter => !event.givesUp waiter) ++ event.asks = q.idleWaiters := by
    simp only [asksNot, staysAll, Bool.not_false, List.filter_true, List.append_nil]
  have lanes (woken : InMemoryQueue) : Busy (woken.drainPartition key) <-> Busy woken := by
    rw [drainPartition_eq]
    exact Iff.rfl
  unfold wakeIdleWaiters
  by_cases idle : freed.activeCount = 0
  · rw [if_neg (not_not.mpr idle)]
    refine ⟨fun some => ?_, fun _ => ?_, ?_⟩
    · rw [waiters_drainPartition] at some
      exact absurd rfl some
    · rw [lanes]
      exact activeCount_eq_zero.mp idle
    · rw [stay, told_append, untold, told_idle, waiters_drainPartition, same, List.nil_append, List.append_nil]
  · rw [if_pos idle]
    refine ⟨fun _ => ?_, fun some => ?_, ?_⟩
    · rw [lanes]
      exact not_not.mp fun none => idle (activeCount_eq_zero.mpr none)
    · rw [List.append_nil] at some
      exact absurd untold some
    · rw [stay, List.append_nil, untold, waiters_drainPartition, same, List.nil_append]

theorem told_freed {signal : Signal} (tellsNobody : told [signal] = []) (jobs : List InternalJob) :
    told ([signal] ++ settle jobs) = [] := by
  rw [told_append, tellsNobody, told_of_quiet (quiet_settle jobs)]
  rfl

theorem balanced_releaseActive (attended : Attended q) (id : Nat) (keepGroupLock : Bool) (now : Nat) :
    WaitersBalanced q (.releaseActive id keepGroupLock now) (q.releaseActive id keepGroupLock now).signals
      (q.releaseActive id keepGroupLock now).queue := by
  unfold releaseActive
  split
  · exact (Harmless.refl q).balanced (Machine.Path.refl q) attended rfl fun _ => rfl
  · exact balanced_of_woken _ _ rfl (told_freed rfl _) rfl fun _ => rfl

theorem balanced_waitForIdle (attended : Attended q) (waiter : Nat) :
    WaitersBalanced q (.waitForIdle waiter) (q.waitForIdle waiter).signals (q.waitForIdle waiter).queue := by
  have stay : (q.idleWaiters.filter fun other => !(Event.waitForIdle waiter).givesUp other) = q.idleWaiters :=
    List.filter_true _
  unfold waitForIdle
  split
  · rename_i idle
    have none := activeCount_eq_zero.mp idle
    have empty : q.idleWaiters = [] := not_not.mp fun some => none (attended some)
    refine ⟨attended, fun _ => none, ?_⟩
    rw [stay, empty]
    rfl
  · rename_i busy
    refine ⟨fun _ => not_not.mp fun none => busy (activeCount_eq_zero.mpr none), fun some => absurd rfl some, ?_⟩
    rw [stay]
    rfl

theorem balanced_idleTimeout (attended : Attended q) (waiter : Nat) :
    WaitersBalanced q (.idleTimeout waiter) (q.idleTimeout waiter).signals (q.idleTimeout waiter).queue where
  attended some := attended fun none => some (by rw [idleTimeout, none]; rfl)
  honest some := absurd rfl some
  balance := (List.append_nil _).symm

/-! ## The whole step -/

theorem step_balanced (placed : Placed q) (attended : Attended q) {event : Event}
    (stepped : step q event = some (after, output)) : WaitersBalanced q event output after := by
  have path := step_path placed stepped
  have exactly {Answer : Type} {holds : List Signal -> InMemoryQueue -> Prop} (reply : Reply Answer)
      (same : reply.effect = some (after, output)) (held : holds reply.signals reply.queue) : holds output after := by
    simp only [Reply.effect, Option.some.injEq, Prod.mk.injEq] at same
    exact same.1 ▸ same.2 ▸ held
  have quietly {Answer : Type} (reply : Reply Answer) (same : reply.effect = some (after, output))
      (harmless : Harmless q reply.signals reply.queue) (asksNot : event.asks = [])
      (staysAll : forall waiter, event.givesUp waiter = false) : WaitersBalanced q event output after :=
    Harmless.balanced (exactly reply same harmless) path attended asksNot staysAll
  cases event with
  | releaseActive id keepGroupLock now => exact exactly _ stepped (balanced_releaseActive attended id keepGroupLock now)
  | waitForIdle waiter => exact exactly _ stepped (balanced_waitForIdle attended waiter)
  | idleTimeout waiter => exact exactly _ stepped (balanced_idleTimeout attended waiter)
  | processorEnded id ending now =>
      simp only [step] at stepped
      split at stepped
      · exact exactly _ stepped (balanced_of_woken _ _ rfl (told_freed rfl _) rfl fun _ => rfl)
      · split at stepped
        · exact quietly _ stepped (harmless_finishReleased q _) rfl fun _ => rfl
        · cases stepped
  | process | run => exact quietly _ stepped ⟨waiters_schedule _, quiet_nil⟩ rfl fun _ => rfl
  | add requested uuid now =>
      refine quietly _ stepped ⟨waiters_schedule _, fun signal member => ?_⟩ rfl fun _ => rfl
      rcases List.mem_cons.mp member with rfl | enqueued
      · rfl
      · exact quiet_one rfl signal enqueued
  | prioritize id requester =>
      exact quietly _ stepped (harmless_prioritize q id requester) rfl fun _ => rfl
  | addRestored jobs => exact quietly _ stepped (harmless_addRestored q jobs) rfl fun _ => rfl
  | remove id | removeWaitingJob id =>
      exact quietly _ stepped (harmless_removeWaitingJob q id) rfl fun _ => rfl
  | dropKeptGroupLock id =>
      exact quietly _ stepped (harmless_dropKeptGroupLock q id) rfl fun _ => rfl
  | holdIdleGroup key group waitingBlocks =>
      exact quietly _ stepped (harmless_holdIdleGroup q key group waitingBlocks) rfl fun _ => rfl
  | releaseHold index =>
      simp only [step] at stepped
      split at stepped
      · cases stepped
      · exact quietly _ stepped (harmless_releaseHold q index _) rfl fun _ => rfl
  | removeWaiting _ | keepOldestWaiting _ | clearWaiting =>
      exact quietly _ stepped ⟨rfl, quiet_discard _⟩ rfl fun _ => rfl
  | coalesceWaiting incoming predicate =>
      exact quietly _ stepped (harmless_coalesceWaiting q incoming predicate) rfl fun _ => rfl
  | close | pause => exact quietly _ stepped ⟨rfl, quiet_nil⟩ rfl fun _ => rfl
  | resume =>
      refine quietly _ stepped ?_ rfl fun _ => rfl
      unfold resume
      split
      · exact Harmless.refl q
      · exact ⟨waiters_schedule _, quiet_nil⟩
  | concurrencyResolved index answer =>
      simp only [step] at stepped
      split at stepped
      · cases stepped
        exact Harmless.balanced ⟨rfl, quiet_one rfl⟩ path attended rfl fun _ => rfl
      · cases stepped
  | concurrencyRejected index =>
      simp only [step] at stepped
      split at stepped
      · cases stepped
        exact Harmless.balanced ⟨rfl, quiet_one rfl⟩ path attended rfl fun _ => rfl
      · cases stepped
  | drainTurn index now =>
      simp only [step] at stepped
      split at stepped
      · exact quietly _ stepped (harmless_drainTurn q index _ _ now) rfl fun _ => rfl
      · cases stepped

/-- In every run a waiter only waits while some job is active.  In every next
step the waiters of before and the one that comes are told or go on waiting, in
their order, apart from the one whose timer fires, and nobody is told unless
nothing is active afterwards. -/
theorem idle_waiters_exact {guard : InMemoryQueue -> Event -> Prop} {history : List Signal}
    (run : queueMachine.Run guard history q) :
    Attended q ∧ forall event after output, step q event = some (after, output) -> WaitersBalanced q event output after := by
  have attended : Attended q :=
    Machine.Run.invariant (fun _ q => Attended q) (fun some => absurd rfl some)
      (fun _ _ _ _ _ before held _ stepped => (step_balanced (placed_of_run before) held stepped).attended) run
  exact ⟨attended, fun event after output stepped => step_balanced (placed_of_run run) attended stepped⟩

/-- A deploy runs and two shutdowns wait for it.  Both are told when it ends. -/
theorem idle_waiters_exact_shutdown :
    let outcome := queueMachine.outcome (fun _ _ => true)
      [.process, .add (plainDeploy "a" none) "u1" 1, .concurrencyResolved 0 1, .drainTurn 0 2, .waitForIdle 7,
        .waitForIdle 8]
    (outcome.1.idleWaiters = [7, 8] ∧
      (step outcome.1 (.processorEnded 1 (.returned none) 3)).map (fun next => told next.2) = some [7, 8]) ∧
    Attended outcome.1 ∧ forall event after output, step outcome.1 event = some (after, output) ->
      WaitersBalanced outcome.1 event output after := by
  intro outcome
  exact ⟨⟨by decide, by decide⟩, idle_waiters_exact (Machine.run_of_executes (fun _ _ _ => trivial) (by decide) :
    queueMachine.Reaches outcome.2 outcome.1)⟩

end DeployQueue
end Dokploy
