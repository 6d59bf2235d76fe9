import Dokploy.DeployQueue.Starts

namespace Dokploy
namespace DeployQueue

open Foundation

/-!
# The order of starts

A lane starts its waiting jobs in order, with two exceptions that each start
accounts for.  A job whose service runs is passed over, and a flagged job may
jump.  A lane forgets that it has jumped for four reasons only, and the history
since the last jump contains one of them whenever the next jump starts.
-/

/-- The last jump of the lane started `jumped`, and `since` happened after. -/
def LastJump (history : List Signal) (key : String) (jumped : InternalJob) (since : List Signal) : Prop :=
  jumped.jumped = true ∧ (Exists fun before => history = before ++ .started key jumped :: since) ∧
    forall job, Signal.started key job ∈ since -> job.jumped = false

/-- What allows the lane its next jump: a plain start, a waiting list seen
empty, or the jumped job ending early. -/
inductive Clears (key : String) (jumped : InternalJob) : Signal -> Prop
  | plain (job : InternalJob) (notJumped : job.jumped = false) : Clears key jumped (.started key job)
  | empty (cap : Nat) : Clears key jumped (.drainEnded key cap true)
  | ended (job : InternalJob) (outcome : JobOutcome) (same : job.id = jumped.id) :
      Clears key jumped (.ended key job (some outcome))
  | released (job : InternalJob) (same : job.id = jumped.id) : Clears key jumped (.released key job)

def ClearedSince (key : String) (jumped : InternalJob) (since : List Signal) : Prop :=
  Exists fun signal => signal ∈ since ∧ Clears key jumped signal

theorem ClearedSince.append {key : String} {jumped : InternalJob} {since : List Signal}
    (cleared : ClearedSince key jumped since) (more : List Signal) :
    ClearedSince key jumped (since ++ more) := by
  rcases cleared with ⟨signal, member, clears⟩
  exact ⟨signal, List.mem_append_left _ member, clears⟩

theorem ClearedSince.now {key : String} {jumped : InternalJob} {more : List Signal} {signal : Signal}
    (since : List Signal) (member : signal ∈ more) (clears : Clears key jumped signal) :
    ClearedSince key jumped (since ++ more) :=
  ⟨signal, List.mem_append_right _ member, clears⟩

variable {history : List Signal}

theorem lastJump_append {output : List Signal} {key : String} {jumped : InternalJob}
    {since : List Signal} (last : LastJump (history ++ output) key jumped since)
    (noJump : forall job, Signal.started key job ∈ output -> job.jumped = false) :
    Exists fun earlier => LastJump history key jumped earlier ∧ since = earlier ++ output := by
  rcases last with ⟨isJump, ⟨before, split⟩, quiet⟩
  rcases split_of_append split with ⟨rest, inHistory, same⟩ | ⟨skipped, _, inOutput⟩
  · refine ⟨rest, ⟨isJump, ⟨before, inHistory⟩, fun job member => ?_⟩, same⟩
    exact quiet job (same ▸ List.mem_append_left _ member)
  · have member : Signal.started key jumped ∈ output :=
      inOutput ▸ List.mem_append_right _ List.mem_cons_self
    exact absurd isJump (Bool.not_eq_true _ ▸ noJump jumped member)

theorem lastJump_start {key : String} {job jumped : InternalJob}
    {since : List Signal} (last : LastJump (history ++ [.started key job]) key jumped since)
    (isJump : job.jumped = true) : jumped = job := by
  rcases last with ⟨_, ⟨before, split⟩, quiet⟩
  rcases split_of_snoc split with ⟨_, same, _⟩ | ⟨middle, atEnd, _⟩
  · cases same
    rfl
  · have member : Signal.started key job ∈ since := atEnd ▸ List.mem_append_right _ (List.mem_singleton_self _)
    exact absurd isJump (Bool.not_eq_true _ ▸ quiet job member)

/-- The fairness of every lane.  A running jump is the last one, and a lane
that may jump again has been cleared since. -/
structure Fair (history : List Signal) (q : InMemoryQueue) : Prop where
  single : forall key, (q.lane key).active.countP (·.jumped) ≤ 1
  latest : forall key job jumped since, job ∈ (q.lane key).active -> job.jumped = true ->
    LastJump history key jumped since -> job.id = jumped.id
  cleared : forall key jumped since, (q.lane key).jumpedLast = false ->
    LastJump history key jumped since -> ClearedSince key jumped since

theorem fair_new : Fair [] InMemoryQueue.new where
  single := fun _ => Nat.zero_le 1
  latest := fun _ _ _ _ member => by cases member
  cleared := by
    rintro key jumped since _ ⟨_, ⟨before, split⟩, _⟩
    cases (List.append_eq_nil_iff.mp split.symm).2

private theorem fair_of_still {output : List Signal} {q after : InMemoryQueue}
    (fair : Fair history q) (quiet : startedOf output = [])
    (active : forall key, (after.lane key).active.Sublist (q.lane key).active)
    (jumpedLast : forall key, (after.lane key).jumpedLast = false -> (q.lane key).jumpedLast = false ∨
      forall jumped since, LastJump history key jumped since -> ClearedSince key jumped (since ++ output)) :
    Fair (history ++ output) after where
  single := fun key => (active key).countP_le.trans (fair.single key)
  latest := by
    intro key job jumped since member isJump last
    rcases lastJump_append last fun other started =>
      absurd started (not_started_of_nil quiet key other) with ⟨earlier, lastEarlier, _⟩
    exact fair.latest key job jumped earlier ((active key).subset member) isJump lastEarlier
  cleared := by
    intro key jumped since allowed last
    rcases lastJump_append last fun other started =>
      absurd started (not_started_of_nil quiet key other) with ⟨earlier, lastEarlier, same⟩
    rw [same]
    rcases jumpedLast key allowed with before | cleared
    · exact (fair.cleared key jumped earlier before lastEarlier).append output
    · exact cleared jumped earlier lastEarlier

theorem fair_of_start {q after : InMemoryQueue} {lane : String}
    (fair : Fair history q) (start : Start q lane)
    (lanes : after.lane = Function.update q.lane lane start.lane) :
    Fair (history ++ [.started lane start.job]) after := by
  have jobJumped : start.job.jumped = start.jumped := rfl
  have elsewhere : forall key, key ≠ lane -> forall job,
      Signal.started key job ∈ [Signal.started lane start.job] -> job.jumped = false := by
    intro key different job member
    cases List.mem_singleton.mp member
    exact absurd rfl different
  have newActive : (after.lane lane).active = (q.lane lane).active ++ [start.job] := by
    rw [lanes, Function.update_self]
    rfl
  have noActiveJump : start.jumped = true -> forall job, job ∈ (q.lane lane).active -> job.jumped = false := by
    intro isJump job member
    have blocked := (start.jump isJump).2
    rw [jumpBlocked, Bool.or_eq_false_iff] at blocked
    simpa using List.any_eq_false.mp blocked.2 job member
  constructor
  · intro key
    by_cases same : key = lane
    · subst same
      rw [newActive, List.countP_append, List.countP_singleton]
      cases isJump : start.jumped with
      | false =>
          rw [jobJumped, isJump, if_neg Bool.false_ne_true]
          exact fair.single key
      | true =>
          have nothing : (q.lane key).active.countP (·.jumped) = 0 :=
            List.countP_eq_zero.mpr fun job member => by simp [noActiveJump isJump job member]
          rw [nothing, jobJumped, isJump, if_pos rfl]
    · rw [lanes, Function.update_of_ne same]
      exact fair.single key
  · intro key job jumped since member isJump last
    by_cases same : key = lane
    · subst same
      cases startJumps : start.jumped with
      | true =>
          rw [lastJump_start last startJumps]
          rw [newActive] at member
          rcases List.mem_append.mp member with old | new
          · exact absurd isJump (Bool.not_eq_true _ ▸ noActiveJump startJumps job old)
          · rw [List.mem_singleton.mp new]
      | false =>
          have plainStart : forall other, Signal.started key other ∈ [Signal.started key start.job] ->
              other.jumped = false := by
            intro other started
            cases List.mem_singleton.mp started
            exact startJumps
          rcases lastJump_append last plainStart with ⟨earlier, lastEarlier, _⟩
          rw [newActive] at member
          rcases List.mem_append.mp member with old | new
          · exact fair.latest key job jumped earlier old isJump lastEarlier
          · rw [List.mem_singleton.mp new, jobJumped, startJumps] at isJump
            cases isJump
    · rcases lastJump_append last (elsewhere key same) with ⟨earlier, lastEarlier, _⟩
      rw [lanes, Function.update_of_ne same] at member
      exact fair.latest key job jumped earlier member isJump lastEarlier
  · intro key jumped since allowed last
    by_cases same : key = lane
    · subst same
      rw [lanes, Function.update_self] at allowed
      have plainStart : forall other, Signal.started key other ∈ [Signal.started key start.job] ->
          other.jumped = false := by
        intro other started
        cases List.mem_singleton.mp started
        exact allowed
      rcases lastJump_append last plainStart with ⟨earlier, _, sinceEarlier⟩
      rw [sinceEarlier]
      exact ClearedSince.now earlier (List.mem_singleton_self _) (Clears.plain start.job allowed)
    · rcases lastJump_append last (elsewhere key same) with ⟨earlier, lastEarlier, sinceEarlier⟩
      rw [lanes, Function.update_of_ne same] at allowed
      rw [sinceEarlier]
      exact (fair.cleared key jumped earlier allowed lastEarlier).append _

theorem Fair.change {output : List Signal} {q after : InMemoryQueue}
    (fair : Fair history q) (change : Change q output after) : Fair (history ++ output) after := by
  rcases quiet_or_start change with quiet | ⟨lane, start, same, lanes, _⟩
  · -- Unless one lane is named below, active jobs and fairness stay as they are.
    have still : (forall key, (after.lane key).active = (q.lane key).active) ->
        (forall key, (after.lane key).jumpedLast = (q.lane key).jumpedLast) -> Fair (history ++ output) after :=
      fun active jumpedLast => fair_of_still fair quiet (fun key => (active key) ▸ List.Sublist.refl _)
        fun key allowed => Or.inl ((jumpedLast key).symm.trans allowed)
    have sameLanes : after.lane = q.lane -> Fair (history ++ output) after :=
      fun lanes => still (fun key => by rw [lanes]) fun key => by rw [lanes]
    cases change with
    | control frame fresh standing scheduled => exact sameLanes (by rw [frame]; rfl)
    | created key => exact sameLanes rfl
    | entered new placed announced lanes keys frame =>
        exact still (fun key => by rw [lanes]) fun key => by rw [lanes]
    | dropped visits visited sublist perm reported lanes keys frame =>
        exact still (fun key => by rw [lanes]) fun key => by rw [lanes]
    | rewritten member lanes keys frame =>
        exact still (read_of_update Partition.active lanes rfl) (read_of_update Partition.jumpedLast lanes rfl)
    | started start lanes keys frame => cases quiet
    | @released _ lane found job keepGroupLock member home marked lanes keys frame =>
        refine fair_of_still fair quiet (fun key => ?_) fun key allowed => ?_
        · exact @every_lane_of_update (fun key changed => changed.active.Sublist (q.lane key).active)
            _ _ _ _ lanes List.filter_sublist (fun _ => List.Sublist.refl _) key
        · by_cases here : key = lane
          · subst here
            rw [lanes, Function.update_self] at allowed
            cases isJump : found.jumped with
            | false =>
                dsimp only at allowed
                rw [isJump, if_neg Bool.false_ne_true] at allowed
                exact Or.inl allowed
            | true =>
                refine Or.inr fun jumped since last => ?_
                have sameId : job.id = jumped.id := by
                  rw [marked]
                  exact fair.latest key found jumped since member isJump last
                exact ClearedSince.now since List.mem_cons_self (Clears.released job sameId)
          · rw [lanes, Function.update_of_ne here] at allowed
            exact Or.inl allowed
    | lockDropped member kept present lanes keys frame =>
        exact still (read_of_update Partition.active lanes rfl) (read_of_update Partition.jumpedLast lanes rfl)
    | returnedLate member lockFree frame => exact sameLanes (by rw [frame]; rfl)
    | @ended _ lane found job outcome member home marked lanes keys frame =>
        refine fair_of_still fair quiet (fun key => ?_) fun key allowed => ?_
        · exact @every_lane_of_update (fun key changed => changed.active.Sublist (q.lane key).active)
            _ _ _ _ lanes List.filter_sublist (fun _ => List.Sublist.refl _) key
        · by_cases here : key = lane
          · subst here
            rw [lanes, Function.update_self] at allowed
            dsimp only at allowed
            cases isJump : found.jumped with
            | false =>
                rw [isJump, Bool.false_and, if_neg Bool.false_ne_true] at allowed
                exact Or.inl allowed
            | true =>
                cases outcome with
                | none =>
                    rw [Option.isSome_none, Bool.and_false, if_neg Bool.false_ne_true] at allowed
                    exact Or.inl allowed
                | some outcome =>
                    refine Or.inr fun jumped since last => ?_
                    have sameId : job.id = jumped.id := by
                      rw [marked]
                      exact fair.latest key found jumped since member isJump last
                    exact ClearedSince.now since List.mem_cons_self (Clears.ended job outcome sameId)
          · rw [lanes, Function.update_of_ne here] at allowed
            exact Or.inl allowed
    | held unheld unlocked present lanes keys frame =>
        exact still (read_of_update Partition.active lanes rfl) (read_of_update Partition.jumpedLast lanes rfl)
    | unheld found live present lanes keys frame =>
        exact still (read_of_update Partition.active lanes rfl) (read_of_update Partition.jumpedLast lanes rfl)
    | resolved found lanes keys frame =>
        exact still (read_of_update Partition.active lanes rfl) (read_of_update Partition.jumpedLast lanes rfl)
    | rejected found frame => exact sameLanes (by rw [frame]; rfl)
    | @drainEnded _ index lane answer found stopped lanes keys frame =>
        refine fair_of_still fair quiet
          (fun key => (read_of_update Partition.active lanes rfl key) ▸ List.Sublist.refl _) fun key allowed => ?_
        by_cases here : key = lane
        · subst here
          rw [lanes, Function.update_self] at allowed
          dsimp only at allowed
          cases empty : (q.lane key).waiting.isEmpty with
          | false =>
              rw [empty, if_neg Bool.false_ne_true] at allowed
              exact Or.inl allowed
          | true =>
              refine Or.inr fun jumped since _ => ?_
              exact ClearedSince.now since (List.mem_singleton_self _) (Clears.empty (capOf answer))
        · rw [lanes, Function.update_of_ne here] at allowed
          exact Or.inl allowed
    | waiters woken frame => exact sameLanes (by rw [frame]; rfl)
  · subst same
    exact fair_of_start fair start lanes

theorem startsFair_of_run {guard : InMemoryQueue -> Event -> Prop} {history : List Signal}
    {q : InMemoryQueue} (run : queueMachine.Run guard history q) : Fair history q :=
  (queue_invariant Fair fair_new (fun _ _ _ _ _ fair change => fair.change change) run).2

/-- What the claim about starts says of one of them: the place the job had in
its lane, and why nothing ahead of it was started instead. -/
structure StartsInOrder (history : List Signal) (q : InMemoryQueue) (key : String) (job : InternalJob) : Prop where
  place : Exists fun before => Exists fun waiting => Exists fun behind =>
    (q.lane key).waiting = before ++ waiting :: behind ∧
      (job.id = waiting.id ∧ job.data = waiting.data ∧ job.group = waiting.group) ∧
      (forall older, older ∈ before -> older.group ≠ job.group) ∧
      (job.jumped = false -> forall older, older ∈ before -> older.group ∈ (q.lane key).activeGroups)
  flagged : job.jumped = true -> job.data.priority = some true
  alone : job.jumped = true -> forall other, other ∈ (q.lane key).active -> other.jumped = false
  cooled : job.jumped = true -> forall jumped since, LastJump history key jumped since ->
    ClearedSince key jumped since

theorem startsInOrder {q : InMemoryQueue} {key : String} (fair : Fair history q)
    (start : Start q key) : StartsInOrder history q key start.job where
  place := ⟨start.before, start.waiting, start.behind, start.split, ⟨rfl, rfl, rfl⟩, start.oldest, start.plain⟩
  flagged := fun isJump => beq_iff_eq.mp (start.jump isJump).1
  alone := by
    intro isJump other member
    have blocked := (start.jump isJump).2
    rw [jumpBlocked, Bool.or_eq_false_iff] at blocked
    simpa using List.any_eq_false.mp blocked.2 other member
  cooled := by
    intro isJump jumped since last
    have blocked := (start.jump isJump).2
    rw [jumpBlocked, Bool.or_eq_false_iff] at blocked
    exact fair.cleared key jumped since blocked.1 last

/-- Every start of every run is in order, and at most one active job of a lane
has jumped. -/
theorem starts_in_order {history : List Signal} {q : InMemoryQueue}
    (run : queueMachine.Reaches history q) :
    (forall key, (q.lane key).active.countP (·.jumped) ≤ 1) ∧
    forall event after output key job, step q event = some (after, output) ->
      Signal.started key job ∈ output -> StartsInOrder history q key job := by
  have fair := startsFair_of_run run
  refine ⟨fair.single, fun event after output key job stepped member => ?_⟩
  rcases step_turn_or_quiet (placed_of_run run) stepped with ⟨_, _, _, _, _, _, change, _⟩ | ⟨quiet, _⟩
  · rcases quiet_or_start change with quiet | ⟨lane, start, same, _⟩
    · exact absurd member (not_started_of_nil quiet key job)
    · rw [same] at member
      cases List.mem_singleton.mp member
      exact startsInOrder fair start
  · exact absurd member (not_started_of_nil quiet key job)

/-- A flagged deploy of an idle service jumps the older deploy of another. -/
theorem starts_in_order_jump :
    let outcome := queueMachine.outcome (fun _ _ => true)
      [.process, .add (plainDeploy "a" none) "u1" 1, .concurrencyResolved 0 1, .drainTurn 0 2, .drainTurn 0 3,
        .add (plainDeploy "b" none) "u2" 4, .add { plainDeploy "c" none with priority := some true } "u3" 5,
        .processorEnded 1 (.returned none) 6, .concurrencyResolved 0 1]
    Exists fun after => Exists fun job =>
      step outcome.1 (.drainTurn 0 7) = some (after, [.started LOCAL_PARTITION job]) ∧
        (job.jumped = true ∧ job.group = "application:c") ∧
        StartsInOrder outcome.2 outcome.1 LOCAL_PARTITION job := by
  intro outcome
  exact ⟨_, _, rfl, by decide,
    (starts_in_order (Machine.run_of_executes (fun _ _ _ => trivial) (by decide))).2 (.drainTurn 0 7) _ _ _ _ rfl
      (List.mem_singleton_self _)⟩

end DeployQueue
end Dokploy
