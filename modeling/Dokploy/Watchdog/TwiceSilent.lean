import Dokploy.Watchdog.Silence

namespace Dokploy
namespace Watchdog

open Foundation
open Foundation.World
open Foundation.Program (Asks)

/-!
# Stops for silence over every sequence of sweeps

The follow-up of earlier stops leaves the memory of silent deployments alone.  The
checks of the rows change it each for its own deployment only, so a row that finds
itself in the memory was put there by an earlier sweep.  The end of the checks leaves
the deployments that this sweep has found silent.
-/

/-- From here on the stops are justified. -/
abbrev SweepEnsures {Result : Type} (previous : List SweepEvent) (program : Watching Result)
    (post : Post Memory WatchdogOp Answer String Result) (past : List SweepEvent) (state : Memory) : Prop :=
  silenceWorld.Ensures (StopJustified previous) program post past state

theorem not_meanwhile {before after : Memory} (meanwhile : silenceWorld.Meanwhile before after) : after = before := by
  induction meanwhile with
  | refl => rfl
  | tail _ step _ => exact step.elim

theorem stopJustified_of_aside {previous past : List SweepEvent} {event : SweepEvent} (aside : Aside event.op) :
    StopJustified previous past event :=
  fun row launcherOnly isStop => absurd isStop (not_stop_of_aside aside row launcherOnly)

/-- While earlier stops are followed up: the ones still to come are tracked. -/
structure Settling (suspects : List (String × Int)) (rest : List (String × PendingStop)) (memory : Memory) : Prop where
  suspects : memory.suspects = suspects
  well : WellTracked memory
  rest : forall entry, entry ∈ rest -> entry ∈ memory.pending

section Settle

variable {previous past : List SweepEvent} {suspects : List (String × Int)} {rest : List (String × PendingStop)}
  {state : Memory} {stopped : PendingStop}

theorem Settling.aside {before after : Memory} {op : WatchdogOp} {answer : Answer op}
    (settling : Settling suspects rest before) (aside : Aside op) (performed : recalls before op answer after) :
    Settling suspects rest after := by
  rcases recalls_aside aside performed with ⟨pending, isSuspects, _⟩
  refine ⟨isSuspects.trans settling.suspects, ⟨?_, ?_⟩, ?_⟩
  · rw [pending]
    exact settling.well.keys
  · rw [pending]
    exact settling.well.once
  · rw [pending]
    exact settling.rest

theorem Settling.trackAgain (settling : Settling suspects rest state)
    (apart : forall entry, entry ∈ rest -> entry.1 ≠ stopped.row.deploymentId) :
    Settling suspects rest (if has state.pending stopped.row.deploymentId then
      { state with pending := put state.pending stopped.row.deploymentId stopped } else state) := by
  split
  · exact ⟨settling.suspects, settling.well.put,
      fun entry member => mem_put_other (apart entry member) (settling.rest entry member)⟩
  · exact settling

theorem Settling.remove {key : String} (settling : Settling suspects rest state)
    (apart : forall entry, entry ∈ rest -> entry.1 ≠ key) :
    Settling suspects rest { state with pending := remove state.pending key } :=
  ⟨settling.suspects, settling.well.remove, fun entry member =>
    List.mem_filter.mpr ⟨settling.rest entry member, decide_eq_true (apart entry member)⟩⟩

theorem ensures_aside {Result : Type} {program : Watching Result} (asks : program.Asks Aside)
    (settling : Settling suspects rest state) :
    SweepEnsures previous program (fun _ _ last => Settling suspects rest last) past state := by
  refine Ensures.of_asks asks settling (fun _ _ _ _ moved => moved.elim) ?_
  intro _ before op answer after aside held performed
  exact ⟨stopJustified_of_aside aside, held.aside aside performed⟩

theorem ensures_tryAgain {launcherOnly : Bool} (tracked : (stopped.row.deploymentId, stopped) ∈ state.pending) :
    SweepEnsures previous (safeStop stopped.row launcherOnly)
      (fun result _ last => state = last ∧ Exists fun next => result = .ok next) past state := by
  intro before meanwhile answer after performed
  cases not_meanwhile meanwhile
  cases performed
  refine ⟨fun row launcherOnly isStop => ?_, ?_⟩
  · cases isStop
    exact Or.inl ⟨stopped, tracked, rfl⟩
  · cases answer with
    | error error => exact ⟨rfl, _, rfl⟩
    | ok next => exact ⟨rfl, next, rfl⟩

theorem ensures_retriedStop (job : Option InMemoryJob) (tracked : (stopped.row.deploymentId, stopped) ∈ state.pending)
    (settling : Settling suspects rest state)
    (apart : forall entry, entry ∈ rest -> entry.1 ≠ stopped.row.deploymentId) :
    SweepEnsures previous (retriedStop stopped job) (fun result _ last => Settling suspects rest last ∧
      forall again, result = .ok again -> again.row = stopped.row) past state := by
  have same : Settling suspects rest state ∧ forall again, (Except.ok stopped : Except String PendingStop) = .ok again ->
      again.row = stopped.row := ⟨settling, fun again isAgain => by cases isAgain; rfl⟩
  unfold retriedStop
  split
  · intro before meanwhile status after performed
    cases not_meanwhile meanwhile
    cases performed
    refine ⟨stopJustified_of_aside trivial, ?_⟩
    cases status with
    | error error => exact ⟨settling, fun _ failed => nomatch failed⟩
    | ok status =>
        change SweepEnsures previous (if status ≠ some "running" then _ else _) _ _ _
        split
        · exact same
        apply Ensures.bind
        apply (ensures_tryAgain tracked).mono
        rintro result reached last ⟨rfl, next, rfl⟩
        change SweepEnsures previous (if next.method = .none && !next.notRunning then _ else _) _ _ _
        split
        · intro before meanwhile answer after performed
          cases not_meanwhile meanwhile
          cases performed
          refine ⟨(fun _ _ isStop => nomatch isStop), settling.trackAgain apart, fun again isAgain => ?_⟩
          cases isAgain
          rfl
        · intro before meanwhile stoppedAt after performed
          cases not_meanwhile meanwhile
          cases performed
          refine ⟨stopJustified_of_aside trivial, ?_⟩
          intro before meanwhile answer after performed
          cases not_meanwhile meanwhile
          cases performed
          refine ⟨(fun _ _ isStop => nomatch isStop), ?_⟩
          intro before meanwhile answer after performed
          cases not_meanwhile meanwhile
          cases performed
          refine ⟨stopJustified_of_aside trivial, ?_⟩
          cases answer with
          | error error => exact ⟨settling.trackAgain apart, fun _ failed => nomatch failed⟩
          | ok _ =>
              refine ⟨settling.trackAgain apart, fun again isAgain => ?_⟩
              cases isAgain
              rfl
  · exact same

theorem ensures_settle (limits : Limits) (jobs : List InMemoryJob) (config : WatchdogConfig)
    (tracked : (stopped.row.deploymentId, stopped) ∈ state.pending) (settling : Settling suspects rest state)
    (apart : forall entry, entry ∈ rest -> entry.1 ≠ stopped.row.deploymentId) :
    SweepEnsures previous (settle limits stopped jobs config) (fun _ _ last => Settling suspects rest last) past
      state := by
  apply Ensures.bind
  apply (ensures_retriedStop _ tracked settling apart).mono
  rintro result reached last ⟨held, sameRow⟩
  cases result with
  | error error => exact held
  | ok again =>
      have isRow := sameRow again rfl
      have expires : forall job, (graceOver limits again job).Asks Aside := by
        intro job
        cases job with
        | none => trivial
        | some job => exact (asks_ask (.now _) trivial).bind fun _ => trivial
      apply Ensures.bind
      apply (ensures_aside (expires _) held).mono
      intro result reached last held
      cases result with
      | error error => exact held
      | ok expired =>
          cases expired with
          | false => exact held
          | true =>
              apply Ensures.bind
              intro before meanwhile answer after performed
              cases not_meanwhile meanwhile
              cases performed
              refine ⟨(fun _ _ isStop => nomatch isStop), ?_⟩
              have removed : Settling suspects rest
                  { last with pending := remove last.pending again.row.deploymentId } := held.remove (isRow ▸ apart)
              refine ensures_aside ?_ removed
              split
              · exact aside_finish _ _ _
              · refine Asks.bind (asks_ask (.markDeploymentReleased _) trivial) fun _ => ?_
                exact aside_andFinally (aside_finish _ _ _) (aside_releaseSlot _ _ _ _ _ _)

theorem ensures_settleAll (limits : Limits) (jobs : List InMemoryJob) (config : WatchdogConfig)
    (entries : List (String × PendingStop)) (once : (entries.map Prod.fst).Nodup)
    (settling : Settling suspects entries state) :
    SweepEnsures previous (inTurn (fun entry => tolerate (settle limits entry.2 jobs config)) entries)
      (fun _ _ last => Settling suspects [] last) past state := by
  induction entries generalizing past state with
  | nil => exact settling
  | cons entry rest ih =>
      have distinct := List.nodup_cons.mp once
      have tracked := settling.rest entry List.mem_cons_self
      have isKey := settling.well.keys entry tracked
      have apart : forall other, other ∈ rest -> other.1 ≠ entry.2.row.deploymentId := by
        intro other member same
        exact distinct.1 (List.mem_map.mpr ⟨other, member, same.trans isKey.symm⟩)
      have others : Settling suspects rest state :=
        ⟨settling.suspects, settling.well, fun other member => settling.rest other (List.mem_cons_of_mem _ member)⟩
      have isTracked : (entry.2.row.deploymentId, entry.2) ∈ state.pending := by
        rw [← isKey]
        exact tracked
      apply Ensures.bind
      apply Ensures.bind
      apply Ensures.attempt
      apply (ensures_settle limits jobs config isTracked others apart).mono
      intro result reached last held
      exact ih distinct.2 held

end Settle

section Rows

variable {previous own : List SweepEvent} {config : WatchdogConfig} {time : Int} {row : WatchdogDeployment}
  {state : Memory} {trigger : WatchdogTrigger}

/-- What the check of a row guarantees of its events, given those it had before. -/
structure RowKeeps (previous : List SweepEvent) (config : WatchdogConfig) (time : Int) (row : WatchdogDeployment)
    (own : List SweepEvent) (event : SweepEvent) : Prop where
  others : forall deploymentId, deploymentId ≠ row.deploymentId -> Untouched deploymentId event.before event.after
  tracked : WellTracked event.before -> WellTracked event.after
  silent : forall deploymentId, deploymentId ∈ event.after.silent -> deploymentId ∈ event.before.silent ∨
    (deploymentId = row.deploymentId ∧ Exists fun idleMs => Exists fun trigger =>
      Answered own (.readLogIdleMs row) (.ok idleMs) ∧
        evaluateWatchdog config (runningMsOf row time) idleMs = some trigger ∧ trigger.kind = .idle)
  stops : forall stoppedRow launcherOnly, event.op = .stop stoppedRow launcherOnly ->
    stoppedRow = row ∧ Justified previous config time row own

/-- The other checks leave the row alone. -/
def rowWorld (row : WatchdogDeployment) : World Memory WatchdogOp Answer :=
  silenceWorld.relying (Untouched row.deploymentId)

abbrev RowEnsures {Result : Type} (previous : List SweepEvent) (config : WatchdogConfig) (time : Int)
    (row : WatchdogDeployment) (program : Watching Result) (own : List SweepEvent) (state : Memory) : Prop :=
  (rowWorld row).Ensures (RowKeeps previous config time row) program Anyhow own state

theorem untouched_meanwhile {before : Memory} (meanwhile : (rowWorld row).Meanwhile state before) :
    Untouched row.deploymentId state before := by
  induction meanwhile with
  | refl => exact Untouched.refl _ _
  | tail _ step ih => exact ih.trans step

/-- Stops nothing and leaves the silent deployments; a stop may be tracked. -/
def Tracks : WatchdogOp -> Prop
  | .stop _ _ => False
  | .listRunning => False
  | .memorize change => forall memory, (change memory).suspects = memory.suspects ∧
      (change memory).silent = memory.silent ∧ (WellTracked memory -> WellTracked (change memory))
  | _ => True

theorem tracks_of_telling (op : WatchdogOp) (telling : Telling op) : Tracks op := by
  cases op <;> first | exact telling.elim | trivial

theorem rowKeeps_of_tracks {before after : Memory} {op : WatchdogOp} {answer : Answer op} (tracks : Tracks op)
    (performed : recalls before op answer after) : RowKeeps previous config time row own ⟨before, op, answer, after⟩ := by
  have kept : after.suspects = before.suspects ∧ after.silent = before.silent ∧
      (WellTracked before -> WellTracked after) := by
    cases op with
    | memorize change =>
        cases performed
        exact tracks before
    | memory =>
        rcases performed with ⟨_, rfl⟩
        exact ⟨rfl, rfl, id⟩
    | listRunning => exact tracks.elim
    | _ =>
        cases performed
        exact ⟨rfl, rfl, id⟩
  refine ⟨fun deploymentId _ => ⟨?_, ?_⟩, kept.2.2, fun deploymentId member => Or.inl (kept.2.1 ▸ member), ?_⟩
  · rw [kept.1]
  · rw [kept.2.1]
  · rintro stoppedRow launcherOnly rfl
    exact tracks.elim

theorem ensures_tracks {Result : Type} {program : Watching Result} (asks : program.Asks Tracks) :
    RowEnsures previous config time row program own state := by
  have ensured : (rowWorld row).Ensures (RowKeeps previous config time row) program (fun _ _ _ => True) own state :=
    Ensures.of_asks asks trivial (fun _ _ _ _ _ => trivial)
      (fun _ _ _ _ _ tracks _ performed => ⟨rowKeeps_of_tracks tracks performed, trivial⟩)
  exact ensured

theorem ensures_stopConfirmed {steps : List Asked} (job : Option InMemoryJob)
    (grounds : Grounds previous config time row trigger steps) (inOrder : steps.Sublist (own.map asked)) :
    RowEnsures previous config time row (stopConfirmed row trigger job) own state := by
  apply Ensures.bind
  apply (ensures_tracks ((telling_hostOf row).mono tracks_of_telling)).extending.mono
  rintro result longer last ⟨_, grown⟩
  cases result with
  | error error => trivial
  | ok host =>
      intro before meanwhile answer after performed
      refine ⟨rowKeeps_of_tracks trivial performed, ?_⟩
      cases answer with
      | error error => trivial
      | ok written =>
          intro reached goesOn answer last performs
          refine ⟨?_, ?_⟩
          · cases performs
            refine ⟨fun _ _ => Untouched.refl _ _, id, fun _ member => Or.inl member, fun _ _ isStop => ?_⟩
            cases isStop
            refine ⟨rfl, trigger, steps, host, grounds, ?_⟩
            rw [List.map_append]
            exact (inOrder.trans (grown.sublist.map asked)).append_right _
          · have rest : forall stop, ((do
                noteWarning host row stop
                let stoppedAt <- now
                let stopped : PendingStop := ⟨row, trigger, stop, host, job.map (·.id), stoppedAt⟩
                if job.isNone || stop.notRunning then finish stopped none false
                else ask (.memorize fun memory =>
                  { memory with pending := put memory.pending row.deploymentId stopped })) : Watching Unit).Asks
                  Tracks := by
              intro stop
              refine Asks.bind ((telling_noteWarning _ _ _).mono tracks_of_telling) fun _ => ?_
              refine Asks.bind (telling_now.mono tracks_of_telling) fun stoppedAt => Asks.ite ?_ ?_
              · exact (telling_finish _ _).mono tracks_of_telling
              · exact asks_ask (.memorize _) fun memory => ⟨rfl, rfl, fun well =>
                  @WellTracked.put memory ⟨row, trigger, stop, host, job.map (·.id), stoppedAt⟩ well⟩
            cases answer with
            | error error => exact ensures_tracks (rest _)
            | ok stop => exact ensures_tracks (rest stop)

theorem ensures_stopListed {steps : List Asked} (grounds : Grounds previous config time row trigger steps)
    (inOrder : steps.Sublist (own.map asked)) :
    RowEnsures previous config time row (do
      let jobs <- (ask .activeJobs).orThrow
      let job := findJobOf row jobs
      if job.isNone && !(jobsOfService row.service jobs).isEmpty then pure () else stopConfirmed row trigger job)
      own state := by
  intro before meanwhile answer after performed
  refine ⟨rowKeeps_of_tracks trivial performed, ?_⟩
  cases answer with
  | error error => trivial
  | ok jobs =>
      change RowEnsures _ _ _ _ (if _ then _ else _) _ _
      split
      · trivial
      · refine ensures_stopConfirmed _ grounds (inOrder.trans ?_)
        exact (List.sublist_append_left _ _).map asked

theorem ensures_stopAndTrack
    (confirmed : (trigger.kind = .wall ∧ Exists fun idleMs =>
      evaluateWatchdog config (runningMsOf row time) idleMs = some trigger) ∨
        (trigger.kind = .idle ∧ EvaluatedIdle previous row.deploymentId)) :
    RowEnsures previous config time row (stopAndTrack row trigger config) own state := by
  intro before meanwhile status after performed
  refine ⟨rowKeeps_of_tracks trivial performed, ?_⟩
  cases status with
  | error error => trivial
  | ok status =>
      change RowEnsures _ _ _ _ (if status ≠ some "running" then _ else _) _ _
      split
      · trivial
      rename_i running
      cases not_not.mp running
      rcases confirmed with ⟨isWall, idleMs, isTrigger⟩ | ⟨isIdle, evaluated⟩
      · have same : confirmTrigger row trigger config = pure (some trigger) := by rw [confirmTrigger, isWall]
        rw [same]
        refine ensures_stopListed (.wall idleMs isWall isTrigger) ?_
        rw [List.map_append]
        exact List.sublist_append_right _ _
      · have same : confirmTrigger row trigger config = (do
            let time <- now
            let idleMs <- (ask (.readLogIdleMs row)).orThrow
            pure (evaluateWatchdog config (runningMsOf row time) idleMs)) := by rw [confirmTrigger, isIdle]
        rw [same]
        intro before' meanwhile' later after' performed'
        refine ⟨rowKeeps_of_tracks trivial performed', ?_⟩
        intro before'' meanwhile'' log after'' performed''
        refine ⟨rowKeeps_of_tracks trivial performed'', ?_⟩
        cases log with
        | error error => trivial
        | ok idleMs =>
            cases isTrigger : evaluateWatchdog config (runningMsOf row later) idleMs with
            | none =>
                dsimp only [Program.bind, pure]
                rw [isTrigger]
                trivial
            | some confirmed =>
                dsimp only [Program.bind, pure]
                rw [isTrigger]
                refine ensures_stopListed (.again later idleMs (fun _ => evaluated) isTrigger) ?_
                simp only [List.map_append, List.append_assoc]
                exact List.sublist_append_right _ _

theorem ensures_actOn {idleMs : Option Int}
    (isTrigger : evaluateWatchdog config (runningMsOf row time) idleMs = some trigger)
    (read : trigger.kind = .idle -> Answered own (.readLogIdleMs row) (.ok idleMs))
    (remembered : has state.suspects row.deploymentId = true -> EvaluatedIdle previous row.deploymentId) :
    RowEnsures previous config time row (actOn row trigger time config) own state := by
  have forgets : forall {before after : Memory} {answer own},
      recalls before (.memorize fun memory => { memory with suspects := remove memory.suspects row.deploymentId }) answer
        after -> RowKeeps previous config time row own ⟨before, _, answer, after⟩ := by
    intro before after answer own performed
    cases performed
    refine ⟨fun deploymentId different => ⟨has_remove_other different, Iff.rfl⟩, fun well => ⟨well.keys, well.once⟩,
      fun _ member => Or.inl member, fun _ _ isStop => nomatch isStop⟩
  cases kind : trigger.kind with
  | wall =>
      have same : confirmedTwice row trigger time = pure true := by rw [confirmedTwice, kind]
      rw [actOn, same]
      intro before meanwhile answer after performed
      exact ⟨forgets performed, ensures_stopAndTrack (Or.inl ⟨kind, idleMs, isTrigger⟩)⟩
  | idle =>
      have same : confirmedTwice row trigger time = (do
          ask (.memorize fun memory => { memory with silent := memory.silent ++ [row.deploymentId] })
          let memory <- ask .memory
          if has memory.suspects row.deploymentId then pure true
          else do
            ask (.memorize fun memory => { memory with suspects := put memory.suspects row.deploymentId time })
            pure false) := by rw [confirmedTwice, kind]
      rw [actOn, same]
      intro before meanwhile answer after performed
      cases performed
      refine ⟨⟨fun deploymentId different => ⟨rfl, ?_⟩, fun well => ⟨well.keys, well.once⟩, fun deploymentId member => ?_,
        fun _ _ isStop => nomatch isStop⟩, ?_⟩
      · rw [List.mem_append, List.mem_singleton]
        exact or_iff_left different
      · rcases List.mem_append.mp member with old | isRow
        · exact Or.inl old
        · exact Or.inr ⟨List.mem_singleton.mp isRow, idleMs, trigger, read kind, isTrigger, kind⟩
      intro looked meanwhile' memory last performs
      have isMemory := performs.1
      refine ⟨rowKeeps_of_tracks trivial performs, ?_⟩
      have sameSuspects := (untouched_meanwhile meanwhile).suspects
      have stillSame := (untouched_meanwhile meanwhile').suspects
      change RowEnsures _ _ _ _ (Program.bind (if has memory.suspects row.deploymentId then _ else _) _) _ _
      by_cases suspected : has memory.suspects row.deploymentId = true
      · rw [if_pos suspected]
        have evaluated : EvaluatedIdle previous row.deploymentId := by
          apply remembered
          rw [← sameSuspects, ← suspected, isMemory]
          exact stillSame.symm
        intro before meanwhile answer after performed
        exact ⟨forgets performed, ensures_stopAndTrack (Or.inr ⟨kind, evaluated⟩)⟩
      · rw [if_neg suspected]
        intro before meanwhile answer after performed
        cases performed
        refine ⟨⟨fun deploymentId different => ⟨has_put_other _ different, Iff.rfl⟩, fun well => ⟨well.keys, well.once⟩,
          fun _ member => Or.inl member, fun _ _ isStop => nomatch isStop⟩, trivial⟩

theorem ensures_checkRow (jobs : List InMemoryJob)
    (remembered : has state.suspects row.deploymentId = true -> EvaluatedIdle previous row.deploymentId) :
    RowEnsures previous config time row (checkRow jobs config time row) own state := by
  intro before meanwhile service after performed
  refine ⟨rowKeeps_of_tracks trivial performed, ?_⟩
  cases performed
  have sameSuspects := (untouched_meanwhile meanwhile).suspects
  cases service with
  | error error => trivial
  | ok service =>
      cases service with
      | none => trivial
      | some service =>
          change RowEnsures _ _ _ _ (if _ then _ else (if _ then _ else _)) _ _
          split
          · trivial
          split
          · trivial
          cases wallOnly : evaluateWatchdog config (runningMsOf row time) none with
          | some trigger =>
              have same : triggerOf row time config = pure (some trigger) := by rw [triggerOf, wallOnly]
              rw [same]
              refine ensures_actOn wallOnly (fun isIdle => ?_) fun suspected => remembered (sameSuspects ▸ suspected)
              unfold evaluateWatchdog at wallOnly
              split at wallOnly
              · cases wallOnly
                cases isIdle
              · cases wallOnly
          | none =>
              have same : triggerOf row time config = (do
                  let idleMs <- (ask (.readLogIdleMs row)).orThrow
                  pure (evaluateWatchdog config (runningMsOf row time) idleMs)) := by rw [triggerOf, wallOnly]
              rw [same]
              intro looked meanwhile' log last performs
              refine ⟨rowKeeps_of_tracks trivial performs, ?_⟩
              have stillSame := (untouched_meanwhile meanwhile').suspects
              cases performs
              cases log with
              | error error => trivial
              | ok idleMs =>
                  dsimp only [Program.bind, pure]
                  cases isTrigger : evaluateWatchdog config (runningMsOf row time) idleMs with
                  | none => trivial
                  | some trigger =>
                      refine ensures_actOn isTrigger (fun _ => ?_) fun suspected =>
                        remembered (sameSuspects.symm.trans (stillSame.symm.trans suspected))
                      rw [Answered, List.map_append]
                      exact List.mem_append_right _ List.mem_cons_self

theorem ensures_watchRow (jobs : List InMemoryJob)
    (remembered : has state.suspects row.deploymentId = true -> EvaluatedIdle previous row.deploymentId) :
    RowEnsures previous config time row (watchRow jobs config time row) own state := by
  intro before meanwhile memory after performed
  refine ⟨rowKeeps_of_tracks trivial performed, ?_⟩
  rcases performed with ⟨_, isSame⟩
  cases isSame
  have sameSuspects := (untouched_meanwhile meanwhile).suspects
  change RowEnsures _ _ _ _ (if has memory.pending row.deploymentId then _ else _) _ _
  split
  · trivial
  apply Ensures.bind
  apply Ensures.attempt
  have checked : RowEnsures previous config time row (checkRow jobs config time row)
      (own ++ [⟨before, .memory, memory, before⟩]) before :=
    ensures_checkRow jobs fun suspected => remembered (sameSuspects.symm.trans suspected)
  apply checked.mono
  intro result last state _
  trivial

end Rows

section Sweep

variable {previous past : List SweepEvent} {state : Memory}

/-- While the rows are checked: what was found silent was found silent by this sweep, with the settings and at the time
that it has read. -/
structure Checking (config : WatchdogConfig) (time : Int) (past : List SweepEvent) (memory : Memory) : Prop where
  loaded : Answered past .loadConfig (.ok config)
  clock : Answered past (.now .elsewhere) time
  well : WellTracked memory
  silent : forall deploymentId, deploymentId ∈ memory.silent -> EvaluatedIdle past deploymentId

theorem Checking.next {config : WatchdogConfig} {time : Int} {running : List WatchdogDeployment} {event : SweepEvent}
    (checking : Checking config time past event.before)
    (kept : OneOf .turn (RowKeeps previous config time) running past event)
    (performed : recalls event.before event.op event.answer event.after) :
    StopJustified previous past event ∧ Checking config time (past ++ [event]) event.after := by
  have longer : past.Sublist (past ++ [event]) := List.sublist_append_left _ _
  have loaded := checking.loaded.mono longer
  have clock := checking.clock.mono longer
  rcases kept with isTurn | ⟨row, _, own, inside, kept⟩
  · rcases event with ⟨before, op, answer, after⟩
    cases isTurn
    cases performed
    exact ⟨(fun _ _ isStop => nomatch isStop), loaded, clock, checking.well,
      fun deploymentId member => (checking.silent deploymentId member).mono longer⟩
  · refine ⟨fun stoppedRow launcherOnly isStop => ?_, loaded, clock, kept.tracked checking.well, ?_⟩
    · rcases kept.stops stoppedRow launcherOnly isStop with ⟨rfl, justified⟩
      exact Or.inr ⟨config, time, checking.loaded, checking.clock, justified.mono inside⟩
    · intro deploymentId member
      rcases kept.silent deploymentId member with old | ⟨isRow, idleMs, trigger, read, isTrigger, isIdle⟩
      · exact (checking.silent deploymentId old).mono longer
      · exact ⟨config, time, row, idleMs, trigger, loaded, clock, read.mono (inside.trans longer), isRow.symm,
          isTrigger, isIdle⟩

theorem ensures_watchRunning (jobs : List InMemoryJob) (config : WatchdogConfig) (running : List WatchdogDeployment)
    (distinct : (running.map (·.deploymentId)).Nodup) (loaded : Answered past .loadConfig (.ok config))
    (well : WellTracked state) (fresh : Fresh previous state) :
    SweepEnsures previous (watchRunning jobs config running)
      (fun _ past last => WellTracked last ∧ Fresh past last) past state := by
  intro before meanwhile time after performed
  cases not_meanwhile meanwhile
  cases performed
  refine ⟨stopJustified_of_aside trivial, ?_⟩
  intro before meanwhile answer after performed
  cases not_meanwhile meanwhile
  cases performed
  refine ⟨(fun _ _ isStop => nomatch isStop), ?_⟩
  generalize isPast : past ++ [⟨state, .now .elsewhere, time, state⟩] ++
    [⟨state, _, answer, { state with silent := [] }⟩] = begun
  have inside : past.Sublist begun := by
    rw [← isPast, List.append_assoc]
    exact List.sublist_append_left _ _
  have clock : Answered begun (.now .elsewhere) time := by
    rw [← isPast, Answered, List.map_append, List.map_append]
    exact List.mem_append_left _ (List.mem_append_right _ List.mem_cons_self)
  have rows : (silenceWorld.relying fun _ _ => False).Ensures (OneOf .turn (RowKeeps previous config time) running)
      (Program.allAtOnce .turn id (running.map fun row => (watchRow jobs config time row).settled)) Anyhow
      begun { state with silent := [] } := by
    refine Ensures.allAtOnce (fun row => (watchRow jobs config time row).settled)
      (fun row => Untouched row.deploymentId) (RowKeeps previous config time) running ?_ ?_ ?_ ?_
    · refine (List.pairwise_map.mp distinct).imp fun different own event => ⟨fun kept => ?_, fun kept => ?_⟩
      · exact kept.others _ (Ne.symm different)
      · exact kept.others _ different
    · exact fun _ _ _ _ moved => moved.elim
    · intro row _ before answer after performed
      cases performed
      exact Untouched.refl _ _
    · intro row _
      have one : RowEnsures previous config time row (watchRow jobs config time row) [] { state with silent := [] } :=
        ensures_watchRow jobs (fresh row.deploymentId)
      exact one.settled
  have checked : silenceWorld.Ensures (StopJustified previous) _ (fun _ past last => Checking config time past last)
      begun { state with silent := [] } :=
    rows.keeping ⟨loaded.mono inside, clock, ⟨well.keys, well.once⟩, fun _ member => nomatch member⟩
      (fun _ _ _ _ moved => moved.elim) fun past event checking kept performed => checking.next kept performed
  change SweepEnsures previous
    ((Program.allAtOnce .turn id (running.map fun row => (watchRow jobs config time row).settled)).unfailing >>= fun _ =>
      ask (.memorize fun memory =>
        { memory with suspects := memory.suspects.filter fun entry => entry.1 ∈ memory.silent })) _ _ _
  apply Ensures.bind
  apply Ensures.unfailing
  apply checked.mono
  intro result past last checking value isValue before meanwhile answer after performed
  cases not_meanwhile meanwhile
  cases performed
  refine ⟨(fun _ _ isStop => nomatch isStop), ⟨checking.well.keys, checking.well.once⟩, fun deploymentId suspected => ?_⟩
  rcases List.any_eq_true.mp suspected with ⟨entry, member, isId⟩
  have isSilent := of_decide_eq_true (List.mem_filter.mp member).2
  rw [← beq_iff_eq.mp isId]
  exact (checking.silent _ isSilent).mono (List.sublist_append_left _ _)

/-- Does not list the running deployments. -/
def Unlisted : WatchdogOp -> Prop
  | .listRunning => False
  | _ => True

theorem unlisted_of_aside (op : WatchdogOp) (aside : Aside op) : Unlisted op := by
  cases op <;> first | exact aside.elim | trivial

theorem unlisted_settle (limits : Limits) (stopped : PendingStop) (jobs : List InMemoryJob) (config : WatchdogConfig) :
    (settle limits stopped jobs config).Asks Unlisted := by
  have tries : forall row launcherOnly, (safeStop row launcherOnly).Asks Unlisted := by
    intro row launcherOnly
    refine Asks.bind (asks_ask (.stop _ _) trivial) fun answer => ?_
    cases answer with
    | error error => trivial
    | ok result => trivial
  have retries : forall job, (retriedStop stopped job).Asks Unlisted := by
    intro job
    refine Asks.ite ?_ trivial
    refine Asks.bind (asks_ask (.readStatus _) trivial).orThrow fun status => Asks.ite trivial ?_
    refine Asks.bind (tries _ _) fun next => Asks.ite ?_ ?_
    · exact (asks_ask (.memorize _) trivial).bind fun _ => trivial
    · refine Asks.bind (asks_ask (.now _) trivial) fun _ => Asks.bind (asks_ask (.memorize _) trivial) fun _ => ?_
      exact (asks_ask (.appendLog _ _ _) trivial).orThrow.bind fun _ => trivial
  refine (retries _).bind fun again => Asks.bind ?_ fun expired => Asks.ite ?_ trivial
  · unfold graceOver
    split
    · trivial
    · exact (asks_ask (.now _) trivial).bind fun _ => trivial
  · refine Asks.bind (asks_ask (.memorize _) trivial) fun _ => ?_
    split
    · exact (aside_finish _ _ _).mono unlisted_of_aside
    · refine Asks.bind (asks_ask (.markDeploymentReleased _) trivial) fun _ => ?_
      exact (aside_andFinally (aside_finish _ _ _) (aside_releaseSlot _ _ _ _ _ _)).mono unlisted_of_aside

/-- The running deployments were not listed. -/
def NotListed (past : List SweepEvent) : Prop := forall rows, ¬ Answered past .listRunning (.ok rows)

theorem NotListed.next {event : SweepEvent} (notListed : NotListed past) (unlisted : Unlisted event.op) :
    NotListed (past ++ [event]) := by
  intro rows answered
  rw [Answered, List.map_append, List.mem_append] at answered
  rcases answered with old | new
  · exact notListed rows old
  · have same := List.mem_singleton.mp new
    have isOp : event.op = .listRunning := (congrArg Sigma.fst same).symm
    rw [isOp] at unlisted
    exact unlisted

theorem ensures_unlisted {Result : Type} {program : Watching Result} (asks : program.Asks Unlisted)
    (notListed : NotListed past) :
    silenceWorld.Ensures (fun _ _ => True) program (fun _ past _ => NotListed past) past state :=
  Ensures.of_asks asks notListed (fun _ _ _ _ moved => moved.elim)
    fun _ _ _ _ _ unlisted held _ => ⟨trivial, held.next unlisted⟩

/-- What a sweep leaves: what it found silent itself, or what was remembered before, if it did not come to list the
running deployments. -/
def Leaves (suspects : List (String × Int)) (past : List SweepEvent) (memory : Memory) : Prop :=
  WellTracked memory ∧ (Fresh past memory ∨ (memory.suspects = suspects ∧ NotListed past))

theorem ensures_sweepListed (limits : Limits) (config : WatchdogConfig) (jobs : List InMemoryJob)
    (loaded : Answered past .loadConfig (.ok config)) (well : WellTracked state) (fresh : Fresh previous state)
    (notListed : NotListed past) :
    SweepEnsures previous (sweepListed limits config jobs) (fun _ past last => Leaves state.suspects past last) past
      state := by
  apply Ensures.bind
  intro before meanwhile memory after performed
  cases not_meanwhile meanwhile
  rcases performed with ⟨rfl, rfl⟩
  refine ⟨stopJustified_of_aside trivial, ?_⟩
  have notYet : NotListed (past ++ [⟨after, .memory, after, after⟩]) := notListed.next trivial
  have isLoaded : Answered (past ++ [⟨after, .memory, after, after⟩]) .loadConfig (.ok config) :=
    loaded.mono (List.sublist_append_left _ _)
  have settling : Settling after.suspects after.pending after := ⟨rfl, well, fun _ member => member⟩
  have settles : (inTurn (fun entry => tolerate (settle limits entry.2 jobs config)) after.pending).Asks Unlisted :=
    asks_inTurn (fun entry => asks_tolerate (unlisted_settle _ _ _ _)) _
  apply Ensures.bind
  apply ((ensures_settleAll limits jobs config _ well.once settling).and (ensures_unlisted settles notYet)).extending.mono
  rintro result settled last ⟨⟨held, unlisted⟩, grown⟩
  cases result with
  | error error => exact ⟨held.well, Or.inr ⟨held.suspects, unlisted⟩⟩
  | ok _ =>
      apply Ensures.bind
      apply ((ensures_aside aside_dropExpiredLocks held).and
        (ensures_unlisted (aside_dropExpiredLocks.mono unlisted_of_aside) unlisted)).extending.mono
      rintro result dropped last ⟨⟨held, unlisted⟩, grownAgain⟩
      cases result with
      | error error => exact ⟨held.well, Or.inr ⟨held.suspects, unlisted⟩⟩
      | ok _ =>
          change SweepEnsures _ (if _ then _ else _) _ _ _
          split
          · exact ⟨held.well, Or.inr ⟨held.suspects, unlisted⟩⟩
          intro before meanwhile running reached performed
          cases not_meanwhile meanwhile
          cases running with
          | error error =>
              cases performed
              refine ⟨(fun _ _ isStop => nomatch isStop), held.well, Or.inr ⟨held.suspects, ?_⟩⟩
              intro rows answered
              rw [Answered, List.map_append, List.mem_append] at answered
              rcases answered with old | new
              · exact unlisted rows old
              · cases List.mem_singleton.mp new
          | ok running =>
              rcases performed with ⟨distinct, isSame⟩
              rw [isSame]
              refine ⟨(fun _ _ isStop => nomatch isStop), ?_⟩
              have stillLoaded := (isLoaded.mono (grown.trans grownAgain).sublist).mono
                (List.sublist_append_left dropped [⟨last, .listRunning, .ok running, last⟩])
              have stillFresh : Fresh previous last := by
                intro deploymentId suspected
                rw [held.suspects] at suspected
                exact fresh deploymentId suspected
              change SweepEnsures previous (watchRunning jobs config running >>= fun _ =>
                releaseHungJobs limits jobs running config) _ _ _
              apply Ensures.bind
              apply (ensures_watchRunning jobs config running distinct stillLoaded held.well stillFresh).mono
              rintro result watched last ⟨well, isFresh⟩
              cases result with
              | error error => exact ⟨well, Or.inl isFresh⟩
              | ok _ =>
                  have calm : Settling last.suspects [] last := ⟨rfl, well, fun _ member => nomatch member⟩
                  apply (ensures_aside (aside_releaseHungJobs limits jobs running config) calm).extending.mono
                  rintro result final reached ⟨kept, longer⟩
                  refine ⟨kept.well, Or.inl fun deploymentId suspected => ?_⟩
                  rw [kept.suspects] at suspected
                  exact (isFresh deploymentId suspected).mono longer.sublist

theorem ensures_sweepOnce (limits : Limits) (well : WellTracked state) (fresh : Fresh previous state) :
    SweepEnsures previous (sweepOnce limits) (fun _ past last => Leaves state.suspects past last) [] state := by
  intro before meanwhile config after performed
  cases not_meanwhile meanwhile
  cases performed
  have nothing : NotListed [] := fun _ answered => nomatch answered
  have loads : NotListed ([] ++ [⟨state, .loadConfig, config, state⟩]) := nothing.next trivial
  refine ⟨stopJustified_of_aside trivial, ?_⟩
  cases config with
  | error error => exact ⟨well, Or.inr ⟨rfl, loads⟩⟩
  | ok config =>
      intro before meanwhile jobs after performed
      cases not_meanwhile meanwhile
      cases performed
      have lists : NotListed ([] ++ [⟨state, .loadConfig, .ok config, state⟩] ++
          [⟨state, .activeJobs, jobs, state⟩]) := loads.next trivial
      refine ⟨stopJustified_of_aside trivial, ?_⟩
      cases jobs with
      | error error => exact ⟨well, Or.inr ⟨rfl, lists⟩⟩
      | ok jobs =>
          refine ensures_sweepListed limits config jobs ?_ well fresh lists
          rw [Answered, List.map_append, List.map_append]
          exact List.mem_append_left _ (List.mem_append_right _ List.mem_cons_self)

end Sweep

/-- A watchdog that has just started remembers nothing. -/
def Memory.empty : Memory := { pending := [], keptLocks := [], suspects := [], silent := [] }

def ended : Except String Unit -> Watching Unit
  | .ok () => .done ()
  | .error error => .thrown error

/-- Sweeps one after the other: the events of the last one, and what is remembered after it. -/
inductive Swept (limits : Limits) (guard : Memory -> List SweepEvent -> Prop) : List SweepEvent -> Memory -> Prop
  | starts : Swept limits guard [] Memory.empty
  | sweeps {previous events : List SweepEvent} {memory last : Memory} {ending : Except String Unit} :
      Swept limits guard previous memory -> silenceWorld.Runs memory (sweepOnce limits) events last (ended ending) ->
      guard memory events -> Swept limits guard events last

/-- A sweep that begins with a suspect comes to list the running deployments. -/
def ListsIfSuspecting (memory : Memory) (events : List SweepEvent) : Prop :=
  memory.suspects = [] ∨ Exists fun rows => Answered events .listRunning (.ok rows)

theorem swept_fresh {limits : Limits} {previous : List SweepEvent} {memory : Memory}
    (swept : Swept limits ListsIfSuspecting previous memory) : WellTracked memory ∧ Fresh previous memory := by
  induction swept with
  | starts => exact ⟨⟨(fun _ member => nomatch member), List.nodup_nil⟩, fun _ suspected => nomatch suspected⟩
  | @sweeps previous events memory last ending before runs lists ih =>
      have leaves : Leaves memory.suspects events last := by
        rcases ((ensures_sweepOnce limits ih.1 ih.2).of_runs runs).2 with
          ⟨reached, meanwhile, leaves⟩
        cases not_meanwhile meanwhile
        cases ending with
        | ok value => exact leaves
        | error error => exact leaves
      refine ⟨leaves.1, ?_⟩
      rcases leaves.2 with fresh | ⟨same, notListed⟩
      · exact fresh
      · rcases lists with nothing | ⟨rows, answered⟩
        · intro deploymentId suspected
          rw [same, nothing] at suspected
          cases suspected
        · exact absurd answered (notListed rows)

def silentRow : WatchdogDeployment where
  deploymentId := "deployment"
  logPath := "log"
  serverId := none
  buildServerId := none
  service := ⟨some "application", none, none⟩
  startedAt := some 0
  deployStartedAt := none
  createdAt := none

def silenceSettings (enabled : Bool) : WatchdogConfig := ⟨enabled, 30, 600, []⟩

/-- One deployment runs without a job, and its log has been silent for 31 minutes. -/
def silentAnswers (enabled : Bool) (time : Int) (memory : Memory) : (op : WatchdogOp) -> Answer op × Memory
  | .now _ => (time, memory)
  | .loadConfig => (.ok (silenceSettings enabled), memory)
  | .activeJobs => (.ok [], memory)
  | .releaseJob _ _ | .hasKeptGroupLock _ | .dropKeptGroupLock _ => (false, memory)
  | .markDeploymentReleased _ => ((), memory)
  | .readStatus _ => (.ok (some "running"), memory)
  | .listRunning => (.ok [silentRow], memory)
  | .latestDeploys _ => (.ok [], memory)
  | .resolveService _ => (.ok (some (some "application", none)), memory)
  | .readLogIdleMs _ => (.ok (some (31 * MINUTE_MS)), memory)
  | .logHost _ => (.ok none, memory)
  | .appendLog _ _ _ | .failServiceIfRunning _ _ | .notify _ _ _ _ | .recordAudit _ => (.ok (), memory)
  | .stop _ _ => (.ok ⟨.launcher, false, false, none, false⟩, memory)
  | .markFailed _ _ _ => (.ok .flipped, memory)
  | .loadContext _ => (.ok none, memory)
  | .memory => (memory, memory)
  | .memorize change => ((), change memory)
  | .turn => (true, memory)

theorem silentAnswers_recalled (enabled : Bool) (time : Int) (memory : Memory) (op : WatchdogOp) :
    recalls memory op (silentAnswers enabled time memory op).1 (silentAnswers enabled time memory op).2 := by
  cases op with
  | listRunning => exact ⟨List.nodup_singleton _, rfl⟩
  | memory => exact ⟨rfl, rfl⟩
  | _ => rfl

def sweepAt (enabled : Bool) (time : Int) (memory : Memory) : List SweepEvent × Memory × Except String Unit :=
  Program.performed (silentAnswers enabled time) memory (sweepOnce defaultLimits)

theorem sweepAt_runs (enabled : Bool) (time : Int) (memory : Memory)
    (ends : (sweepAt enabled time memory).2.2 = .ok ()) :
    silenceWorld.Runs memory (sweepOnce defaultLimits) (sweepAt enabled time memory).1
      (sweepAt enabled time memory).2.1 (ended (.ok ())) :=
  Runs.of_performed (silentAnswers_recalled enabled time) (sweepOnce defaultLimits) memory ends

/-- The first sweep, 40 minutes after the start of the deployment. -/
def firstSweep : List SweepEvent × Memory × Except String Unit := sweepAt true (40 * MINUTE_MS) Memory.empty

def secondSweep : List SweepEvent × Memory × Except String Unit := sweepAt true (41 * MINUTE_MS) firstSweep.2.1

/-- The watchdog was disabled in between. -/
def disabledSweep : List SweepEvent × Memory × Except String Unit := sweepAt false (41 * MINUTE_MS) firstSweep.2.1

def laterSweep : List SweepEvent × Memory × Except String Unit := sweepAt true (161 * MINUTE_MS) disabledSweep.2.1

theorem firstSweep_swept {guard : Memory -> List SweepEvent -> Prop} (guarded : guard Memory.empty firstSweep.1) :
    Swept defaultLimits guard firstSweep.1 firstSweep.2.1 :=
  .sweeps .starts (sweepAt_runs true (40 * MINUTE_MS) Memory.empty (by decide +kernel)) guarded

theorem stopAt {sweep : List SweepEvent} (long : 19 < sweep.length) :
    sweep = sweep.take 19 ++ sweep.get ⟨19, long⟩ :: sweep.drop 20 :=
  (List.take_append_drop 19 sweep).symm.trans (congrArg _ (List.drop_eq_getElem_cons long))

theorem answered_sweepAt {enabled : Bool} {time : Int} {memory : Memory} {past : List SweepEvent} {op : WatchdogOp}
    {answer : Answer op} (inside : past.Sublist (sweepAt enabled time memory).1) (answered : Answered past op answer) :
    Exists fun before => answer = (silentAnswers enabled time before op).1 := by
  rcases List.mem_map.mp answered with ⟨event, member, same⟩
  have performed := Program.performed_events _ _ _ event (inside.subset member)
  cases same
  exact ⟨event.before, performed⟩

end Watchdog
end Dokploy
