import Dokploy.DeployQueue.Census

namespace Dokploy
namespace DeployQueue

open Foundation

/-!
# Only a turn of a drain starts jobs

No method starts a job itself.  What it schedules starts later, in a turn of a
drain that knows its concurrency.  So a claim about starts may speak about the
state before that turn, and everything else is a path of changes that start
nothing.
-/

namespace Signal

def startedJobs : Signal -> List InternalJob
  | .started _ job => [job]
  | _ => []

/-- The signal brings a job into the queue or into its processor. -/
def moves : Signal -> Bool
  | .accepted _ | .enqueued _ _ | .started _ _ => true
  | _ => false

end Signal

/-- Every job whose processor was called, in order. -/
def startedOf (history : List Signal) : List InternalJob :=
  history.flatMap Signal.startedJobs

@[simp] theorem startedOf_nil : startedOf [] = [] := rfl

@[simp] theorem startedOf_append (first second : List Signal) :
    startedOf (first ++ second) = startedOf first ++ startedOf second :=
  List.flatMap_append

@[simp] theorem startedOf_cons (signal : Signal) (rest : List Signal) :
    startedOf (signal :: rest) = signal.startedJobs ++ startedOf rest := rfl

@[simp] theorem startedOf_accepted (jobs : List InternalJob) : startedOf (jobs.map .accepted) = [] := by
  induction jobs with
  | nil => rfl
  | cons job rest ih => exact ih

theorem mem_startedOf {history : List Signal} {job : InternalJob} :
    job ∈ startedOf history <-> Exists fun key => Signal.started key job ∈ history := by
  rw [startedOf, List.mem_flatMap]
  constructor
  · rintro ⟨signal, member, inJobs⟩
    cases signal with
    | started key other => exact ⟨key, List.mem_singleton.mp inJobs ▸ member⟩
    | _ => cases inJobs
  · rintro ⟨key, member⟩
    exact ⟨.started key job, member, List.mem_singleton_self job⟩

variable {output : List Signal}

theorem not_started_of_nil (quiet : startedOf output = []) (key : String)
    (job : InternalJob) : Signal.started key job ∉ output := by
  intro member
  have present : job ∈ startedOf output := mem_startedOf.mpr ⟨key, member⟩
  rw [quiet] at present
  cases present

/-- These signals bring no job into the queue or into its processor. -/
def Calm (output : List Signal) : Prop :=
  forall signal, signal ∈ output -> signal.moves = false

theorem calm_nil : Calm [] := fun _ member => by cases member

theorem calm_single {signal : Signal} (still : signal.moves = false) : Calm [signal] := by
  intro other member
  rw [List.mem_singleton.mp member]
  exact still

theorem Calm.append {first second : List Signal} (left : Calm first) (right : Calm second) :
    Calm (first ++ second) :=
  fun signal member => (List.mem_append.mp member).elim (left signal) (right signal)

theorem calm_settle (jobs : List InternalJob) : Calm (InMemoryQueue.settle jobs) := by
  unfold InMemoryQueue.settle
  split
  · exact calm_nil
  · exact calm_single rfl

theorem calm_reportDropped (data : List DeploymentJob) : Calm (InMemoryQueue.reportDropped data) := by
  unfold InMemoryQueue.reportDropped
  split
  · exact calm_nil
  · exact calm_single rfl

theorem calm_discard (jobs : List InternalJob) : Calm (InMemoryQueue.discard jobs) :=
  (calm_settle jobs).append (calm_reportDropped _)

theorem calm_wake (q : InMemoryQueue) : Calm q.wakeIdleWaiters.2 := by
  unfold InMemoryQueue.wakeIdleWaiters
  split
  · exact calm_nil
  · intro signal member
    rcases List.mem_map.mp member with ⟨waiter, _, same⟩
    rw [← same]
    rfl

theorem startedOf_of_calm (calm : Calm output) : startedOf output = [] := by
  refine List.flatMap_eq_nil_iff.mpr fun signal member => ?_
  have still := calm signal member
  cases signal with
  | started key job => cases still
  | _ => rfl

variable {q : InMemoryQueue}

theorem calm_step {after : InMemoryQueue} {event : Event}
    (stepped : step q event = some (after, output))
    (notAdd : forall requested uuid now, event ≠ .add requested uuid now)
    (notRestored : forall jobs, event ≠ .addRestored jobs)
    (notTurn : forall index now, event ≠ .drainTurn index now) : Calm output := by
  have effect : forall {Answer : Type} (reply : Reply Answer), reply.effect = some (after, output) ->
      Calm reply.signals -> Calm output := by
    intro Answer reply same calm
    simp only [Reply.effect, Option.some.injEq, Prod.mk.injEq] at same
    exact same.2 ▸ calm
  cases event with
  | process => exact effect _ stepped calm_nil
  | run => exact effect _ stepped calm_nil
  | add requested uuid now => exact absurd rfl (notAdd requested uuid now)
  | prioritize id requester =>
      refine effect _ stepped ?_
      unfold InMemoryQueue.prioritize
      split
      · exact calm_nil
      · simp only
        split
        · exact calm_nil
        · split
          · exact calm_nil
          · exact calm_single rfl
  | addRestored jobs => exact absurd rfl (notRestored jobs)
  | remove id =>
      refine effect _ stepped ?_
      unfold InMemoryQueue.remove InMemoryQueue.removeWaitingJob
      split
      · exact calm_nil
      · exact calm_discard _
  | removeWaitingJob id =>
      refine effect _ stepped ?_
      unfold InMemoryQueue.removeWaitingJob
      split
      · exact calm_nil
      · exact calm_discard _
  | releaseActive id keepGroupLock now =>
      refine effect _ stepped ?_
      unfold InMemoryQueue.releaseActive
      split
      · exact calm_nil
      · exact ((calm_single rfl).append (calm_settle _)).append (calm_wake _)
  | dropKeptGroupLock id =>
      refine effect _ stepped ?_
      unfold InMemoryQueue.dropKeptGroupLock
      split <;> exact calm_nil
  | holdIdleGroup partitionKey group waitingBlocks =>
      refine effect _ stepped ?_
      unfold InMemoryQueue.holdIdleGroup
      split
      · exact calm_nil
      · split
        · exact calm_nil
        · split
          · exact calm_nil
          · exact calm_single rfl
  | releaseHold index =>
      simp only [step] at stepped
      split at stepped
      · cases stepped
      · refine effect _ stepped ?_
        unfold InMemoryQueue.releaseHold
        split
        · exact calm_nil
        · exact calm_single rfl
  | removeWaiting predicate => exact effect _ stepped (calm_discard _)
  | keepOldestWaiting predicate => exact effect _ stepped (calm_discard _)
  | coalesceWaiting incoming predicate =>
      refine effect _ stepped ?_
      simp only [InMemoryQueue.coalesceWaiting]
      split
      · exact (calm_settle _).append (calm_reportDropped _)
      · exact (((calm_settle _).append (calm_reportDropped _)).append (calm_reportDropped _)).append (calm_single rfl)
  | clearWaiting => exact effect _ stepped (calm_discard _)
  | close => exact effect _ stepped calm_nil
  | pause => exact effect _ stepped calm_nil
  | resume =>
      refine effect _ stepped ?_
      unfold InMemoryQueue.resume
      split <;> exact calm_nil
  | waitForIdle waiter =>
      refine effect _ stepped ?_
      unfold InMemoryQueue.waitForIdle
      split
      · exact calm_single rfl
      · exact calm_nil
  | idleTimeout waiter => exact effect _ stepped calm_nil
  | concurrencyResolved index answer =>
      simp only [step] at stepped
      split at stepped
      · rw [← (Prod.mk.inj (Option.some.inj stepped)).2]
        exact calm_single rfl
      · cases stepped
  | concurrencyRejected index =>
      simp only [step] at stepped
      split at stepped
      · rw [← (Prod.mk.inj (Option.some.inj stepped)).2]
        exact calm_single rfl
      · cases stepped
  | drainTurn index now => exact absurd rfl (notTurn index now)
  | processorEnded id ending now =>
      simp only [step] at stepped
      split at stepped
      · refine effect _ stepped ?_
        exact ((calm_single rfl).append (calm_settle _)).append (calm_wake _)
      · split at stepped
        · refine effect _ stepped ?_
          unfold InMemoryQueue.finishReleased
          split <;> exact calm_nil
        · cases stepped

theorem startedOf_step {after : InMemoryQueue} {event : Event}
    (stepped : step q event = some (after, output))
    (notTurn : forall index now, event ≠ .drainTurn index now) : startedOf output = [] := by
  cases event with
  | add requested uuid now =>
      rw [← (Prod.mk.inj (Option.some.inj stepped)).2]
      rfl
  | addRestored jobs =>
      rw [← (Prod.mk.inj (Option.some.inj stepped)).2]
      exact startedOf_accepted _
  | _ =>
      refine startedOf_of_calm (calm_step stepped ?_ ?_ notTurn)
      · exact fun _ _ _ impossible => Event.noConfusion impossible
      · exact fun _ impossible => Event.noConfusion impossible

/-- The lane an event takes a turn of, if it is a turn of a drain. -/
def turnOf (q : InMemoryQueue) : Event -> Option String
  | .drainTurn index _ =>
      match q.pendingDrains[index]? with
      | some ⟨key, some _⟩ => some key
      | _ => none
  | _ => none

theorem turnOf_drainTurn {index now : Nat} {key : String} {answer : Int}
    (found : q.pendingDrains[index]? = some ⟨key, some answer⟩) :
    turnOf q (.drainTurn index now) = some key := by
  simp only [turnOf, found]

theorem startedOf_reports {reports : List Signal}
    (reported : forall signal, signal ∈ reports -> Exists fun data => signal = .waitingDropped data) :
    startedOf reports = [] := by
  refine List.flatMap_eq_nil_iff.mpr fun signal member => ?_
  rcases reported signal member with ⟨data, same⟩
  rw [same]
  rfl

theorem startedOf_woken {signals : List Signal}
    (woken : forall signal, signal ∈ signals -> Exists fun waiter => signal = .idle waiter) :
    startedOf signals = [] := by
  refine List.flatMap_eq_nil_iff.mpr fun signal member => ?_
  rcases woken signal member with ⟨waiter, same⟩
  rw [same]
  rfl

theorem startedOf_announced {added : List InternalJob} {extra : List Signal}
    (announced : extra = [] ∨ Exists fun job => added = [job] ∧
      extra = [.enqueued job.journalId job.data]) : startedOf extra = [] := by
  rcases announced with empty | ⟨job, _, same⟩
  · rw [empty]
    rfl
  · rw [same]
    rfl

theorem quiet_or_start {after : InMemoryQueue} (change : Change q output after) :
    startedOf output = [] ∨ Exists fun key => Exists fun start : Start q key =>
      output = [.started key start.job] ∧ after.lane = Function.update q.lane key start.lane ∧
        after = { q with partitions := after.partitions } := by
  cases change with
  | entered new placed announced lanes keys frame =>
      exact Or.inl (by rw [startedOf_append, startedOf_accepted, startedOf_announced announced, List.append_nil])
  | dropped visits visited sublist perm reported lanes keys frame =>
      exact Or.inl (by rw [startedOf_append, startedOf_of_calm (calm_settle _), startedOf_reports reported, List.append_nil])
  | waiters woken frame => exact Or.inl (startedOf_woken woken)
  | @started _ key start lanes keys frame => exact Or.inr ⟨key, start, rfl, lanes, frame⟩
  | _ => exact Or.inl rfl

/-- What a turn of a drain starts, it starts in its own lane, while that lane
has fewer active jobs than the cap of this very drain. -/
theorem started_drainTurn {index : Nat} {key : String} {cap now : Nat} {lane : String}
    {job : InternalJob} (member : Signal.started lane job ∈ (q.drainTurn index key cap now).signals) :
    lane = key ∧ (q.lane key).active.length < cap := by
  unfold InMemoryQueue.drainTurn at member
  split at member
  · cases List.mem_singleton.mp member
  · rename_i pick waiting next
    cases List.mem_singleton.mp member
    exact ⟨rfl, (nextStart_some next).2.1⟩

def QuietChange (q : InMemoryQueue) (output : List Signal) (after : InMemoryQueue) : Prop :=
  Change q output after ∧ startedOf output = []

theorem step_turn_or_quiet {after : InMemoryQueue} {event : Event}
    (placed : Placed q) (stepped : step q event = some (after, output)) :
    (Exists fun index => Exists fun now => Exists fun key => Exists fun answer =>
      event = .drainTurn index now ∧ q.pendingDrains[index]? = some ⟨key, some answer⟩ ∧
        Change q output after ∧ forall lane job, Signal.started lane job ∈ output ->
          lane = key ∧ (q.lane key).active.length < capOf answer) ∨
    startedOf output = [] ∧ Machine.Path QuietChange q output after := by
  by_cases turn : Exists fun index => Exists fun now => event = .drainTurn index now
  · rcases turn with ⟨index, now, same⟩
    subst same
    simp only [step] at stepped
    split at stepped
    · rename_i key answer found
      simp only [Reply.effect, Option.some.injEq, Prod.mk.injEq] at stepped
      rw [← stepped.1, ← stepped.2]
      exact Or.inl ⟨index, now, key, answer, rfl, found, change_drainTurn placed found now,
        fun lane job member => started_drainTurn member⟩
    · cases stepped
  · have quiet := startedOf_step stepped fun index now same => turn ⟨index, now, same⟩
    have restricted := @Machine.Path.restrict _ _ Change (fun signal => signal.startedJobs = []) _ _ _
      (step_path placed stepped) (List.flatMap_eq_nil_iff.mp quiet)
    exact Or.inr ⟨quiet, restricted.mono fun _ _ _ both => ⟨both.1, List.flatMap_eq_nil_iff.mpr both.2⟩⟩

/-- The invariant rule for runs whose environment is restricted.  What the
guard says about a turn of a drain is known of the state before it. -/
theorem guarded_invariant {guard : InMemoryQueue -> Event -> Prop}
    (holds : List Signal -> InMemoryQueue -> Prop) (initially : holds [] InMemoryQueue.new)
    (quiet : forall history before output after, Placed before -> Census history before ->
      holds history before -> Change before output after -> startedOf output = [] ->
      holds (history ++ output) after)
    (turn : forall history before index now key answer output after, Placed before ->
      Census history before -> holds history before -> guard before (.drainTurn index now) ->
      before.pendingDrains[index]? = some ⟨key, some answer⟩ -> Change before output after ->
      (forall lane job, Signal.started lane job ∈ output -> lane = key) -> holds (history ++ output) after)
    {history : List Signal} (run : queueMachine.Run guard history q) :
    holds history q := by
  have all : Placed q ∧ Census history q ∧ holds history q := by
    refine run.invariant (fun history q => Placed q ∧ Census history q ∧ holds history q)
      ⟨placed_new, census_new, initially⟩ ?_
    intro history state event after output _ held allowed stepped
    rcases step_turn_or_quiet held.1 stepped with ⟨index, now, key, answer, same, found, change, own⟩ | ⟨_, path⟩
    · subst same
      exact ⟨held.1.change change, held.2.1.change change,
        turn _ _ index now key answer _ _ held.1 held.2.1 held.2.2 allowed found change
          fun lane job member => (own lane job member).1⟩
    · refine @Machine.Path.invariant _ _ _ (fun history q => Placed q ∧ Census history q ∧ holds history q)
        ?_ _ _ _ _ path held
      intro history before output after held change
      exact ⟨held.1.change change.1, held.2.1.change change.1,
        quiet _ _ _ _ held.1 held.2.1 held.2.2 change.1 change.2⟩
  exact all.2.2

end DeployQueue
end Dokploy
