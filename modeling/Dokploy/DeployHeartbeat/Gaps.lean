import Dokploy.DeployHeartbeat.Marks
import Mathlib.Data.List.Chain

namespace Dokploy
namespace DeployHeartbeat

open Foundation (Machine)
open Foundation.Machine (Path)

/-!
# The end of a marked step, and the silence between its marks

Once work has ended, the call returns by what it does itself, whatever the marks still
wait for.  While work runs and every answer is given within an interval, the log is
silent for less than three intervals: one answer may keep a tick from being used, one
interval may pass until the next, and one more answer may be awaited before the write.
-/

variable {Outcome : Type} {options : DeployHeartbeatOptions} {history : List (Signal Outcome)} {state : Heartbeat Outcome}

section Return

/-- A state from which the call comes out by steps of its own. -/
def Returns (options : DeployHeartbeatOptions) (state : Heartbeat Outcome) : Prop :=
  Exists fun more => Exists fun final => Path (OwnStep options) state more final ∧ final.work = .gone

theorem Returns.before {event : Event Outcome} {after : Heartbeat Outcome} {output : List (Signal Outcome)}
    (own : event.isOwn) (stepped : step options state event = some (after, output)) (returns : Returns options after) :
    Returns options state := by
  rcases returns with ⟨more, final, path, isOver⟩
  exact ⟨output ++ more, final, (Path.single ⟨event, own, stepped⟩).append path, isOver⟩

theorem Returns.now {event : Event Outcome} {after : Heartbeat Outcome} {output : List (Signal Outcome)}
    (own : event.isOwn) (stepped : step options state event = some (after, output)) (isOver : after.work = .gone) :
    Returns options state :=
  ⟨output, after, Path.single ⟨event, own, stepped⟩, isOver⟩

variable {outcome : Outcome} {deadline : Nat} (isSettling : state.work = .settling outcome deadline)

include isSettling

theorem returns_of_free (free : state.inFlight = false) : Returns options state := by
  refine @Returns.now _ options state .resume { state with work := .gone } [.returns outcome state.clock] trivial ?_ rfl
  simp [step, resume, isSettling, free]

theorem returns_of_waiting (kept : Kept options history state) (waits : state.busy = false) : Returns options state := by
  have noTimer : state.timer = none := kept.cleared (kept.stops (by rw [isSettling]; rfl))
  have stands := kept.stands
  rw [isSettling] at stands
  cases stands with
  | settling outcome time deadline isEnd noReturn begun within isDeadline =>
      have reaches : state.clock + (deadline - state.clock) = deadline := by omega
      refine @Returns.before _ options state (.pass (deadline - state.clock)) { state with clock := deadline } [] trivial ?_ ?_
      · simp [step, waits, Heartbeat.quietUntil, noTimer, isSettling, reaches]
      · refine @Returns.now _ options _ .timeout { state with clock := deadline, work := .gone } [.returns outcome deadline] trivial
          ?_ rfl
        have still : Heartbeat.busy { state with clock := deadline } = false := waits
        rw [isSettling] at still
        simp [step, timeout, isSettling, still]

theorem returns_of_leaving {tickAt : Nat} (single : state.marks = [⟨tickAt, .leaves⟩]) : Returns options state := by
  refine @Returns.before _ options state (.finishes 0) { state with inFlight := false, marks := [] } [] trivial ?_
    (returns_of_free isSettling rfl)
  simp [step, single]

omit isSettling in
theorem goOn_stopped (stopped : state.stopped = true) {tickAt : Nat} {place : Place} (isDue : place.due = true) :
    place = .leaves ∨ Exists fun after => Exists fun next => state.goOn options tickAt place = some (after, next, []) ∧
      (next = .leaves ∨ next.due = false) := by
  have active : state.active options tickAt = (state, .leaves, []) := by rw [Heartbeat.active, if_pos stopped]
  cases place with
  | leaves => exact Or.inl rfl
  | scheduled =>
      refine Or.inr ⟨state, ?_⟩
      by_cases isMarked : state.markedFrom.isSome = true
      · by_cases asks : options.isActive = true
        · exact ⟨.asksActive state.clock none, by rw [Heartbeat.goOn, if_pos isMarked, Heartbeat.marked, if_pos asks], Or.inr rfl⟩
        · exact ⟨.leaves, by rw [Heartbeat.goOn, if_pos isMarked, Heartbeat.marked, if_neg asks, active], Or.inl rfl⟩
      · by_cases asks : options.ready = true
        · exact ⟨.asksReady state.clock none, by rw [Heartbeat.goOn, if_neg isMarked, if_pos asks], Or.inr rfl⟩
        · exact ⟨.leaves, by rw [Heartbeat.goOn, if_neg isMarked, if_neg asks], Or.inl rfl⟩
  | asksReady since answer =>
      cases answer with
      | none => cases isDue
      | some answer =>
          refine Or.inr ⟨state, .leaves, ?_, Or.inl rfl⟩
          rw [Heartbeat.goOn, if_pos (Or.inr stopped)]
  | asksActive since answer =>
      cases answer with
      | none => cases isDue
      | some answer =>
          refine Or.inr ?_
          rw [Heartbeat.goOn, active]
          split
          · exact ⟨_, _, rfl, Or.inl rfl⟩
          · exact ⟨_, _, rfl, Or.inl rfl⟩
  | asksLimit since answer =>
      cases answer with
      | none => cases isDue
      | some answer =>
          refine Or.inr ⟨{ state with wallLimit := some (attemptLimit answer) }, .leaves, ?_, Or.inl rfl⟩
          rw [Heartbeat.goOn, Heartbeat.limitKnown, if_pos stopped]
  | writes since answer =>
      cases answer with
      | none => cases isDue
      | some answer => exact Or.inr ⟨state, .leaves, rfl, Or.inl rfl⟩

theorem returns_of_settling (kept : Kept options history state) : Returns options state := by
  have stopped : state.stopped = true := kept.stops (by rw [isSettling]; rfl)
  have waiting : forall {history : List (Signal Outcome)} {after : Heartbeat Outcome} {tickAt : Nat} {place : Place},
      Kept options history after -> after.work = .settling outcome deadline -> after.inFlight = true ->
      after.marks = [⟨tickAt, place⟩] -> place.due = false -> Returns options after := by
    intro history after tickAt place kept isSettling isTaken single notDue
    refine returns_of_waiting isSettling kept ?_
    simp [Heartbeat.busy, Heartbeat.callDue, isSettling, isTaken, single, notDue]
  cases kept.alone with
  | idle noMark isFree => exact returns_of_free isSettling isFree
  | one tickAt place single isTaken reached =>
      by_cases isDue : place.due = true
      · rcases @goOn_stopped _ options _ stopped tickAt _ isDue with isLeaving | ⟨after, next, goes, leaves⟩
        · exact returns_of_leaving isSettling (isLeaving ▸ single)
        · have isFound : state.marks[0]? = some ⟨tickAt, place⟩ := by rw [single]; rfl
          have onward := goOn_onward kept.marked kept.awake reached goes
          have settling : (after.put 0 tickAt next).work = .settling outcome deadline := onward.work.trans isSettling
          have only : (after.put 0 tickAt next).marks = [⟨tickAt, next⟩] := by
            rw [Heartbeat.put, onward.marks, single]
            rfl
          refine @Returns.before _ options state (.job 0) (after.put 0 tickAt next) [] trivial ?_ ?_
          · simp [step, isFound, goes]
          · rcases leaves with isLeaving | notDue
            · rw [isLeaving] at only settling ⊢
              exact returns_of_leaving settling only
            · exact waiting (kept.job isFound goes) settling (onward.inFlight.trans isTaken) only notDue
      · exact waiting kept isSettling isTaken single (by simpa using isDue)

omit isSettling in
theorem returns_of_ended (kept : Kept options history state) (isEnded : state.work = .ended outcome) :
    Returns options state := by
  by_cases isTaken : state.inFlight = true
  · have resumed : step options state .resume = some ({ state with
        stopped := true, timer := none, work := .settling outcome (state.clock + delayOf options.settleMs) }, [.takenUp]) := by
      simp [step, resume, isEnded, isTaken]
    exact @Returns.before _ _ _ .resume _ _ trivial resumed (returns_of_settling rfl (step_kept kept resumed))
  · refine @Returns.now _ options state .resume { state with stopped := true, timer := none, work := .gone }
      [.takenUp, .returns outcome state.clock] trivial ?_ rfl
    simp [step, resume, isEnded, isTaken]

end Return

theorem settles_of_kept (kept : Kept options history state) : Settles options history state := by
  have settle := delayOf_le options.settleMs
  have stands := kept.stands
  have goesOn : forall outcome ended, history.filterMap Signal.ends? = [(outcome, ended)] -> Returns options state ->
      Exists fun more => Exists fun final => Exists fun time => Path (OwnStep options) state more final ∧
        (history ++ more).filterMap Signal.returns? = [(outcome, time)] ∧ time ≤ ended + options.settle := by
    intro outcome ended isEnd ⟨more, final, path, isOver⟩
    have keptThere : Kept options (history ++ more) final :=
      path.invariant (fun _ _ _ _ kept ⟨_, _, stepped⟩ => step_kept kept stepped) kept
    have there := keptThere.stands
    rw [isOver, List.filterMap_append, isEnd] at there
    cases there with
    | gone other time returned isEnd isReturn later within =>
        cases (List.cons.inj isEnd).1
        exact ⟨more, final, returned, path, isReturn, within⟩
  generalize isWork : state.work = work at stands
  cases stands with
  | running noEnd noReturn =>
      refine ⟨by rw [noEnd]; exact Nat.zero_le 1, Or.inl noReturn, ?_, ?_⟩
      · intro _ _ isEnd
        rw [noEnd] at isEnd
        cases isEnd
      · intro _ _ isEnd
        rw [noEnd] at isEnd
        cases isEnd
  | ended outcome isEnd noReturn =>
      refine ⟨by rw [isEnd]; exact Nat.le_refl 1, Or.inl noReturn, ?_,
        fun outcome ended isEnd _ => goesOn outcome ended isEnd (returns_of_ended kept isWork)⟩
      intro other ended same _
      rw [isEnd] at same
      cases same
      exact Nat.le_add_right _ _
  | settling outcome time deadline isEnd noReturn begun within isDeadline =>
      refine ⟨by rw [isEnd]; exact Nat.le_refl 1, Or.inl noReturn, ?_,
        fun outcome ended isEnd _ => goesOn outcome ended isEnd (returns_of_settling isWork kept)⟩
      intro other ended same _
      rw [isEnd] at same
      cases same
      unfold DeployHeartbeatOptions.settle
      omega
  | gone outcome time returned isEnd isReturn later within =>
      refine ⟨by rw [isEnd]; exact Nat.le_refl 1, Or.inr ⟨outcome, time, returned, isEnd, isReturn, later, within⟩, ?_, ?_⟩
      · intro _ _ _ noReturn
        rw [isReturn] at noReturn
        cases noReturn
      · intro _ _ _ noReturn
        rw [isReturn] at noReturn
        cases noReturn

/-- While work runs it keeps within the maximum, the checks hold, and every answer is given within an interval. -/
def Prompt (options : DeployHeartbeatOptions) (state : Heartbeat Outcome) (event : Event Outcome) : Prop :=
  state.work = .running ->
    match event with
    | .pass ms => (state.clock + ms : Int) ≤ state.startedAt + options.maxMs ∧
        forall since, since ∈ state.marks.filterMap (fun mark => mark.place.since?) -> state.clock + ms < since + options.interval
    | .activeAnswers _ answer => answer ≠ .resolved false
    | _ => True

/-- The start of a step that is marked as a whole, else the tick that saw ready. -/
def Begins (options : DeployHeartbeatOptions) (startedAt : Nat) (history : List (Signal Outcome)) (origin : Nat) : Prop :=
  if options.ready = true then Signal.readyAnswers origin (.resolved true) ∈ history else origin = startedAt

/-- The log is never silent for three intervals, from the beginning on and while work runs. -/
def NeverSilent (options : DeployHeartbeatOptions) (startedAt : Nat) (history : List (Signal Outcome))
    (state : Heartbeat Outcome) : Prop :=
  forall origin, Begins options startedAt history origin ->
    List.IsChain (fun earlier later => later < earlier + 3 * options.interval) (origin :: markTimes history) ∧
      (state.work = .running -> state.clock < (markTimes history).getLastD origin + 3 * options.interval)

section Standing

variable (options : DeployHeartbeatOptions) (state : Heartbeat Outcome) (times : List Nat) (begins : Nat -> Prop)

/-- How much time is left where marks have not been stopped, by how far the only one has come. -/
inductive Situation : List Mark -> Prop
  | held (unmarked : state.markedFrom = none) (unseen : forall origin, ¬ begins origin) : Situation []
  | heldTick (tickAt : Nat) (unmarked : state.markedFrom = none) (unseen : forall origin, ¬ begins origin)
      (now : state.clock = tickAt) : Situation [⟨tickAt, .scheduled⟩]
  | asksReady (tickAt : Nat) (answer : Option (Answer Bool)) (unmarked : state.markedFrom = none)
      (known : forall origin, begins origin -> origin = tickAt ∧ answer = some (.resolved true))
      (within : state.clock < tickAt + options.interval) : Situation [⟨tickAt, .asksReady tickAt answer⟩]
  | heldLeaves (tickAt : Nat) (unmarked : state.markedFrom = none) (unseen : forall origin, ¬ begins origin) :
      Situation [⟨tickAt, .leaves⟩]
  | idle (origin due : Nat) (marked : state.markedFrom = some origin) (isDue : state.timer = some due)
      (soon : due < times.getLastD origin + 2 * options.interval)
      (first : state.wallLimit = none -> due ≤ times.getLastD origin + options.interval) : Situation []
  | scheduled (origin tickAt : Nat) (marked : state.markedFrom = some origin) (now : state.clock = tickAt)
      (soon : state.clock < times.getLastD origin + 2 * options.interval)
      (first : state.wallLimit = none -> state.clock ≤ times.getLastD origin + options.interval) :
      Situation [⟨tickAt, .scheduled⟩]
  | asksActive (origin tickAt since : Nat) (answer : Option (Answer Bool)) (marked : state.markedFrom = some origin)
      (soon : since < times.getLastD origin + 2 * options.interval)
      (first : state.wallLimit = none -> since ≤ times.getLastD origin + options.interval)
      (within : state.clock < since + options.interval)
      (holds : answer = some (.resolved false) -> state.work ≠ .running) : Situation [⟨tickAt, .asksActive since answer⟩]
  | asksLimit (origin tickAt since : Nat) (answer : Option (Answer (Option Nat))) (marked : state.markedFrom = some origin)
      (soon : since < times.getLastD origin + 2 * options.interval) (within : state.clock < since + options.interval) :
      Situation [⟨tickAt, .asksLimit since answer⟩]
  | writes (origin tickAt since : Nat) (answer : Option (Answer Unit)) (marked : state.markedFrom = some origin)
      (isLast : since = times.getLastD origin) (known : state.wallLimit ≠ none)
      (within : state.clock < since + options.interval) : Situation [⟨tickAt, .writes since answer⟩]
  | leaves (origin tickAt : Nat) (marked : state.markedFrom = some origin) (known : state.wallLimit ≠ none)
      (within : state.clock < times.getLastD origin + options.interval) : Situation [⟨tickAt, .leaves⟩]

structure Timely (startedAt : Nat) (history : List (Signal Outcome)) : Prop where
  start : state.startedAt = startedAt
  halted : state.stopped = true -> state.work ≠ .running
  within : state.work = .running -> state.clock = startedAt ∨ (state.clock : Int) ≤ startedAt + options.maxMs
  early : state.markedFrom = none -> markTimes history = []
  asking : forall tickAt since answer, state.marks = [⟨tickAt, .asksReady since answer⟩] -> state.markedFrom = none
  known : forall origin other, state.markedFrom = some origin -> Begins options startedAt history other -> other = origin
  chain : forall origin, state.markedFrom = some origin ->
    List.IsChain (fun earlier later => later < earlier + 3 * options.interval) (origin :: markTimes history)
  timer : state.stopped = false -> Exists fun due => state.timer = some due ∧ startedAt < due ∧ state.clock ≤ due ∧
    due ≤ state.clock + options.interval
  situation : state.stopped = false ->
    Situation options state (markTimes history) (Begins options startedAt history) state.marks

end Standing

section Jobs

variable {times : List Nat} {begins : Nat -> Prop} {origin tickAt : Nat}

theorem interval_pos (options : DeployHeartbeatOptions) : 1 ≤ options.interval := Nat.le_max_left _ _

theorem isChain_snoc {gap time : Nat} (chain : List.IsChain (fun earlier later => later < earlier + gap) (origin :: times))
    (soon : time < times.getLastD origin + gap) :
    List.IsChain (fun earlier later => later < earlier + gap) (origin :: (times ++ [time])) := by
  rw [← List.cons_append]
  refine chain.append (List.isChain_singleton time) ?_
  intro last isLast next isNext
  cases isNext
  have same : times.getLastD origin = last := by
    rw [List.getLastD_eq_getLast?]
    rw [List.getLast?_cons] at isLast
    exact Option.some.inj isLast
  rw [← same]
  exact soon

/-- What a job leaves of the time that is left, once the marks have begun. -/
structure OnTime (options : DeployHeartbeatOptions) (times : List Nat) (begins : Nat -> Prop) (origin tickAt : Nat)
    (result : Heartbeat Outcome × Place × List (Signal Outcome)) : Prop where
  going : result.1.stopped = false
  marked : result.1.markedFrom = some origin
  chain : List.IsChain (fun earlier later => later < earlier + 3 * options.interval) (origin :: (times ++ markTimes result.2.2))
  situation : Situation options result.1 (times ++ markTimes result.2.2) begins [⟨tickAt, result.2.1⟩]

section Going

variable (going : state.stopped = false) (marked : state.markedFrom = some origin)
  (chain : List.IsChain (fun earlier later => later < earlier + 3 * options.interval) (origin :: times))

include going marked chain

theorem write_onTime {wallLimit : Option Nat} (known : state.wallLimit ≠ none)
    (soon : state.clock < times.getLastD origin + 3 * options.interval) :
    OnTime options times begins origin tickAt (state.write options tickAt wallLimit) where
  going := going
  marked := marked
  chain := isChain_snoc chain soon
  situation := by
    refine .writes origin tickAt state.clock none marked ?_ known (Nat.lt_add_of_pos_right (interval_pos options))
    exact List.getLastD_concat.symm

theorem limitKnown_onTime (wallLimit : Option Nat) (soon : state.clock < times.getLastD origin + 3 * options.interval) :
    OnTime options times begins origin tickAt (state.limitKnown options tickAt wallLimit) := by
  have notStopped : ¬ state.stopped = true := by simp [going]
  rw [Heartbeat.limitKnown, if_neg notStopped]
  exact @write_onTime _ options { state with wallLimit := some wallLimit } times begins origin tickAt going marked chain
    wallLimit (by simp) soon

theorem active_onTime (soon : state.clock < times.getLastD origin + 3 * options.interval)
    (first : state.wallLimit = none -> state.clock < times.getLastD origin + 2 * options.interval) :
    OnTime options times begins origin tickAt (state.active options tickAt) := by
  have notStopped : ¬ state.stopped = true := by simp [going]
  rw [Heartbeat.active, if_neg notStopped]
  cases isLimit : state.wallLimit with
  | some wallLimit => exact write_onTime going marked chain (by simp [isLimit]) soon
  | none =>
      by_cases asks : options.wallLimitMinutes = true
      · simp only [if_pos asks]
        refine ⟨going, marked, by simpa [markTimes] using chain, ?_⟩
        refine .asksLimit origin tickAt state.clock none marked ?_ (Nat.lt_add_of_pos_right (interval_pos options))
        simpa [markTimes] using first isLimit
      · simp only [if_neg asks]
        exact limitKnown_onTime going marked chain none soon

theorem marked_onTime (soon : state.clock < times.getLastD origin + 2 * options.interval)
    (first : state.wallLimit = none -> state.clock ≤ times.getLastD origin + options.interval) :
    OnTime options times begins origin tickAt (state.marked options tickAt) := by
  have positive := interval_pos options
  by_cases asks : options.isActive = true
  · rw [Heartbeat.marked, if_pos asks]
    refine ⟨going, marked, by simpa [markTimes] using chain, ?_⟩
    refine .asksActive origin tickAt state.clock none marked ?_ ?_ (Nat.lt_add_of_pos_right positive) (fun same => by cases same)
    · simpa [markTimes] using soon
    · simpa [markTimes] using first
  · rw [Heartbeat.marked, if_neg asks]
    refine active_onTime going marked chain (by omega) fun unknown => ?_
    have := first unknown
    omega

end Going

theorem Situation.carry {after : Heartbeat Outcome} {later : Nat -> Prop} {marks : List Mark}
    (situation : Situation options state times begins marks) (clock : after.clock = state.clock)
    (wallLimit : after.wallLimit = state.wallLimit) (markedFrom : after.markedFrom = state.markedFrom)
    (timer : after.timer = state.timer) (work : state.work ≠ .running -> after.work ≠ .running)
    (fewer : forall origin, later origin -> begins origin) : Situation options after times later marks := by
  cases situation with
  | held unmarked unseen => exact .held (markedFrom.trans unmarked) fun origin begun => unseen origin (fewer origin begun)
  | heldTick tickAt unmarked unseen now =>
      exact .heldTick tickAt (markedFrom.trans unmarked) (fun origin begun => unseen origin (fewer origin begun)) (clock.trans now)
  | asksReady tickAt answer unmarked known within =>
      exact .asksReady tickAt answer (markedFrom.trans unmarked) (fun origin begun => known origin (fewer origin begun))
        (clock ▸ within)
  | heldLeaves tickAt unmarked unseen =>
      exact .heldLeaves tickAt (markedFrom.trans unmarked) fun origin begun => unseen origin (fewer origin begun)
  | idle origin due marked isDue soon first =>
      exact .idle origin due (markedFrom.trans marked) (timer.trans isDue) soon (wallLimit ▸ first)
  | scheduled origin tickAt marked now soon first =>
      exact .scheduled origin tickAt (markedFrom.trans marked) (clock.trans now) (clock ▸ soon) (clock ▸ wallLimit ▸ first)
  | asksActive origin tickAt since answer marked soon first within holds =>
      exact .asksActive origin tickAt since answer (markedFrom.trans marked) soon (wallLimit ▸ first) (clock ▸ within)
        fun refused => work (holds refused)
  | asksLimit origin tickAt since answer marked soon within =>
      exact .asksLimit origin tickAt since answer (markedFrom.trans marked) soon (clock ▸ within)
  | writes origin tickAt since answer marked isLast known within =>
      exact .writes origin tickAt since answer (markedFrom.trans marked) isLast (wallLimit ▸ known) (clock ▸ within)
  | leaves origin tickAt marked known within =>
      exact .leaves origin tickAt (markedFrom.trans marked) (wallLimit ▸ known) (clock ▸ within)

/-- What a job comes to where marks have not been stopped. -/
inductive Goes (options : DeployHeartbeatOptions) (state : Heartbeat Outcome) (times : List Nat) (begins : Nat -> Prop)
    (tickAt : Nat) (result : Heartbeat Outcome × Place × List (Signal Outcome)) : Prop
  | stops (stopped : result.1.stopped = true) (same : result.1.markedFrom = state.markedFrom) (silent : result.2.2 = [])
      (notRunning : state.work ≠ .running)
  | waits (going : result.1.stopped = false) (unmarked : state.markedFrom = none) (still : result.1.markedFrom = none)
      (silent : result.2.2 = []) (situation : Situation options result.1 times begins [⟨tickAt, result.2.1⟩])
  | marks (origin : Nat) (known : state.markedFrom = some origin ∨
      (state.markedFrom = none ∧ forall other, begins other -> other = origin))
      (onTime : OnTime options times begins origin tickAt result)

theorem goOn_goes {place : Place} {result : Heartbeat Outcome × Place × List (Signal Outcome)} (going : state.stopped = false)
    (situation : Situation options state times begins [⟨tickAt, place⟩])
    (early : state.markedFrom = none -> times = []) (chain : forall origin, state.markedFrom = some origin ->
      List.IsChain (fun earlier later => later < earlier + 3 * options.interval) (origin :: times))
    (goes : state.goOn options tickAt place = some result) : Goes options state times begins tickAt result := by
  have positive := interval_pos options
  cases situation with
  | heldTick _ unmarked unseen now =>
      have unset : ¬ state.markedFrom.isSome = true := by simp [unmarked]
      rw [Heartbeat.goOn, if_neg unset] at goes
      split at goes
      · cases goes
        refine .waits going unmarked unmarked rfl ?_
        rw [now]
        exact .asksReady tickAt none unmarked (fun origin begun => absurd begun (unseen origin))
          (now ▸ Nat.lt_add_of_pos_right positive)
      · cases goes
        exact .waits going unmarked unmarked rfl (.heldLeaves tickAt unmarked unseen)
  | asksReady _ answer unmarked known within =>
      cases answer with
      | none => cases goes
      | some answer =>
          rw [Heartbeat.goOn] at goes
          split at goes
          · rename_i unready
            cases goes
            refine .waits going unmarked unmarked rfl (.heldLeaves tickAt unmarked ?_)
            intro origin begun
            cases (known origin begun).2
            rcases unready with notYet | stopped
            · cases notYet
            · rw [going] at stopped
              cases stopped
          · cases goes
            have nothing := early unmarked
            subst nothing
            refine .marks tickAt (Or.inr ⟨unmarked, fun other begun => (known other begun).1⟩) ?_
            refine @marked_onTime _ options { state with markedFrom := some tickAt } [] begins tickAt tickAt going rfl
              (List.isChain_singleton tickAt) ?_ fun _ => Nat.le_of_lt within
            simp only [List.getLastD_nil]
            omega
  | heldLeaves => cases goes
  | scheduled origin _ marked now soon first =>
      have set : state.markedFrom.isSome = true := by simp [marked]
      rw [Heartbeat.goOn, if_pos set] at goes
      cases goes
      exact .marks origin (Or.inl marked) (marked_onTime going marked (chain origin marked) soon first)
  | asksActive origin _ since answer marked soon first within holds =>
      cases answer with
      | none => cases goes
      | some answer =>
          rw [Heartbeat.goOn] at goes
          split at goes
          · cases goes
            refine .marks origin (Or.inl marked) (active_onTime going marked (chain origin marked) (by omega) fun unknown => ?_)
            have := first unknown
            omega
          · rename_i refuses
            cases goes
            refine .stops rfl rfl rfl (holds ?_)
            cases answer with
            | failed => exact absurd rfl refuses
            | resolved value =>
                cases value with
                | true => exact absurd rfl refuses
                | false => rfl
  | asksLimit origin _ since answer marked soon within =>
      cases answer with
      | none => cases goes
      | some answer =>
          cases goes
          exact .marks origin (Or.inl marked) (limitKnown_onTime going marked (chain origin marked) _ (by omega))
  | writes origin _ since answer marked isLast known within =>
      cases answer with
      | none => cases goes
      | some answer =>
          cases goes
          refine .marks origin (Or.inl marked) ⟨going, marked, by simpa [markTimes] using chain origin marked, ?_⟩
          refine .leaves origin tickAt marked known ?_
          simpa [markTimes, isLast] using within
  | leaves => cases goes

end Jobs

section Preserved

variable {startedAt : Nat} {after : Heartbeat Outcome} {output : List (Signal Outcome)}

theorem begins_append (noneSeen : forall tickAt, Signal.readyAnswers tickAt (.resolved true) ∉ output) (origin : Nat) :
    Begins options startedAt (history ++ output) origin <-> Begins options startedAt history origin := by
  unfold Begins
  split
  · rw [List.mem_append, or_iff_left (noneSeen origin)]
  · exact Iff.rfl

theorem markTimes_append (output : List (Signal Outcome)) : markTimes (history ++ output) = markTimes history ++ markTimes output :=
  List.filterMap_append

theorem Timely.job (timely : Timely options state startedAt history) (kept : Kept options history state) {mark : Nat}
    {found : Mark} (isFound : state.marks[mark]? = some found)
    {result : Heartbeat Outcome × Place × List (Signal Outcome)}
    (goes : state.goOn options found.tickAt found.place = some result) :
    Timely options (result.1.put mark found.tickAt result.2.1) startedAt (history ++ result.2.2) := by
  rcases kept.alone.found isFound with ⟨isFirst, single, isTaken, reached⟩
  have onward := goOn_onward kept.marked kept.awake reached goes
  have only : (result.1.put mark found.tickAt result.2.1).marks = [⟨found.tickAt, result.2.1⟩] := by
    rw [Heartbeat.put, onward.marks, single, isFirst]
    rfl
  have fewer : forall origin, Begins options startedAt (history ++ result.2.2) origin -> Begins options startedAt history origin := by
    intro origin begun
    refine (begins_append ?_ origin).mp begun
    intro tickAt among
    rcases onward.plain with nothing | ⟨line, write⟩
    · rw [nothing] at among
      cases among
    · rw [write] at among
      cases List.mem_singleton.mp among
  have start : result.1.startedAt = startedAt := onward.start.trans timely.start
  have within : result.1.work = .running -> result.1.clock = startedAt ∨ (result.1.clock : Int) ≤ startedAt + options.maxMs :=
    fun isRunning => onward.clock ▸ timely.within (onward.work ▸ isRunning)
  have asking : forall tickAt since answer, (result.1.put mark found.tickAt result.2.1).marks =
      [⟨tickAt, .asksReady since answer⟩] -> result.1.markedFrom = none := by
    intro tickAt since answer same
    rw [only] at same
    exact onward.asking since answer (congrArg Mark.place (List.cons.inj same).1)
  have timer : state.stopped = false -> result.1.stopped = false -> Exists fun due => result.1.timer = some due ∧
      startedAt < due ∧ result.1.clock ≤ due ∧ due ≤ result.1.clock + options.interval := by
    intro going stays
    rw [onward.timer stays, onward.clock]
    exact timely.timer going
  -- Where a job sets nothing and writes nothing, what was said of the marks so far stays.
  have early : result.1.markedFrom = state.markedFrom -> result.2.2 = [] ->
      (result.1.markedFrom = none -> markTimes (history ++ result.2.2) = []) ∧
      (forall origin other, result.1.markedFrom = some origin ->
        Begins options startedAt (history ++ result.2.2) other -> other = origin) ∧
      forall origin, result.1.markedFrom = some origin -> List.IsChain (fun earlier later => later < earlier + 3 * options.interval)
        (origin :: markTimes (history ++ result.2.2)) := by
    intro same silent
    rw [same, silent, List.append_nil]
    exact ⟨timely.early, timely.known, timely.chain⟩
  by_cases going : state.stopped = false
  · have situation := timely.situation going
    rw [single] at situation
    cases goOn_goes going situation timely.early timely.chain goes with
    | stops stopped same silent notRunning =>
        rcases early same silent with ⟨early, known, chain⟩
        exact ⟨start, fun _ => onward.work ▸ notRunning, within, early, asking, known, chain,
          fun stays => absurd (stopped.symm.trans stays) (by simp), fun stays => absurd (stopped.symm.trans stays) (by simp)⟩
    | waits stays unmarked still silent situation =>
        rcases early (still.trans unmarked.symm) silent with ⟨early, known, chain⟩
        refine ⟨start, fun stopped => absurd (stopped.symm.trans stays) (by simp), within, early, asking, known, chain,
          timer going, fun _ => ?_⟩
        rw [only, silent, List.append_nil]
        exact situation.carry rfl rfl rfl rfl id fun _ => id
    | marks origin known onTime =>
        have stays := onTime.going
        refine ⟨start, fun stopped => absurd (stopped.symm.trans stays) (by simp), within, ?_, asking, ?_, ?_, timer going, fun _ => ?_⟩
        · intro unmarked
          cases onTime.marked.symm.trans unmarked
        · intro began other marked begun
          cases onTime.marked.symm.trans marked
          rcases known with already | ⟨_, known⟩
          · exact timely.known origin other already (fewer other begun)
          · exact known other (fewer other begun)
        · intro began marked
          cases onTime.marked.symm.trans marked
          rw [markTimes_append]
          exact onTime.chain
        · rw [only, markTimes_append]
          exact onTime.situation.carry rfl rfl rfl rfl id fewer
  · have stopped : state.stopped = true := by simpa using going
    rcases onward.silent stopped with ⟨silent, same⟩
    rcases early same silent with ⟨early, known, chain⟩
    have stays := onward.stopped stopped
    exact ⟨start, fun _ => onward.work ▸ timely.halted stopped, within, early, asking, known, chain,
      fun going => absurd (stays.symm.trans going) (by simp), fun going => absurd (stays.symm.trans going) (by simp)⟩

theorem running_of_free (kept : Kept options history state) (going : state.stopped = false) (free : state.busy = false) :
    state.work = .running := by
  cases isWork : state.work with
  | running => rfl
  | ended outcome => simp [Heartbeat.busy, Heartbeat.callDue, isWork] at free
  | settling outcome deadline =>
      rw [kept.stops (by rw [isWork]; rfl)] at going
      cases going
  | gone =>
      rw [kept.stops (by rw [isWork]; rfl)] at going
      cases going

theorem Timely.pass (timely : Timely options state startedAt history) (kept : Kept options history state) {ms : Nat}
    (prompt : Prompt options state (.pass ms)) (free : state.busy = false)
    (quiet : state.quietUntil (state.clock + ms) = true) :
    Timely options { state with clock := state.clock + ms } startedAt history := by
  refine ⟨timely.start, timely.halted, ?_, timely.early, timely.asking, timely.known, timely.chain, ?_, ?_⟩
  · intro isRunning
    exact Or.inr (timely.start ▸ (prompt isRunning).1)
  · intro going
    rcases timely.timer going with ⟨due, isDue, later, notPast, soon⟩
    simp only [Heartbeat.quietUntil, isDue, Bool.and_eq_true] at quiet
    have dueStill : due ≤ state.clock + ms + options.interval := by omega
    exact ⟨due, isDue, later, of_decide_eq_true quiet.1, dueStill⟩
  · intro going
    have waits : forall mark, mark ∈ state.marks -> forall since, mark.place.since? = some since ->
        state.clock + ms < since + options.interval := fun mark among since asked =>
      (prompt (running_of_free kept going free)).2 since (List.mem_filterMap.mpr ⟨mark, among, asked⟩)
    have idle : forall mark, mark ∈ state.marks -> mark.place.due = false := by
      simp only [Heartbeat.busy, Bool.or_eq_false_iff, List.any_eq_false, Bool.not_eq_true] at free
      exact free.2
    have situation := timely.situation going
    show Situation options _ _ _ state.marks
    generalize state.marks = marks at situation waits idle ⊢
    cases situation with
    | held unmarked unseen => exact .held unmarked unseen
    | heldTick => cases idle _ List.mem_cons_self
    | asksReady tickAt answer unmarked known within =>
        exact .asksReady tickAt answer unmarked known (waits _ List.mem_cons_self _ rfl)
    | heldLeaves => cases idle _ List.mem_cons_self
    | idle origin due marked isDue soon first => exact .idle origin due marked isDue soon first
    | scheduled => cases idle _ List.mem_cons_self
    | asksActive origin tickAt since answer marked soon first within holds =>
        exact .asksActive origin tickAt since answer marked soon first (waits _ List.mem_cons_self _ rfl) holds
    | asksLimit origin tickAt since answer marked soon within =>
        exact .asksLimit origin tickAt since answer marked soon (waits _ List.mem_cons_self _ rfl)
    | writes origin tickAt since answer marked isLast known within =>
        exact .writes origin tickAt since answer marked isLast known (waits _ List.mem_cons_self _ rfl)
    | leaves => cases idle _ List.mem_cons_self

theorem Timely.tick (timely : Timely options state startedAt history) (kept : Kept options history state)
    (ticked : tick options state = some (after, output)) : Timely options after startedAt (history ++ output) := by
  have positive := delayOf_pos options.intervalMs
  have bounded : delayOf options.intervalMs ≤ options.interval := delayOf_le options.intervalMs
  unfold DeployHeartbeat.tick at ticked
  split at ticked
  · cases ticked
  · rename_i due isDue
    have going : state.stopped = false := by
      by_contra stopped
      rw [kept.cleared (by simpa using stopped)] at isDue
      cases isDue
    rcases timely.timer going with ⟨known, isKnown, later, _, _⟩
    cases isDue.symm.trans isKnown
    have situation := timely.situation going
    split at ticked
    · rename_i isNow
      have next : Exists fun following => some (due + delayOf options.intervalMs) = some following ∧ startedAt < following ∧
          state.clock ≤ following ∧ following ≤ state.clock + options.interval :=
        ⟨_, rfl, by omega, by omega, by omega⟩
      have halted : state.stopped = true -> state.work ≠ .running := fun stopped => absurd (stopped.symm.trans going) (by simp)
      split at ticked
      · rename_i taken
        cases ticked
        rw [List.append_nil]
        refine ⟨timely.start, halted, timely.within, timely.early, timely.asking, timely.known, timely.chain, fun _ => next,
          fun _ => ?_⟩
        -- A tick that finds a mark under way is not used.
        cases kept.alone with
        | idle noMark isFree =>
            rcases taken with stopped | isTaken
            · exact absurd (stopped.symm.trans going) (by simp)
            · exact absurd (isTaken.symm.trans isFree) (by simp)
        | one tickAt place single =>
            rw [single] at situation ⊢
            cases situation with
            | heldTick _ unmarked unseen now => exact .heldTick tickAt unmarked unseen now
            | asksReady _ answer unmarked known within => exact .asksReady tickAt answer unmarked known within
            | heldLeaves _ unmarked unseen => exact .heldLeaves tickAt unmarked unseen
            | scheduled origin _ marked now soon first => exact .scheduled origin tickAt marked now soon first
            | asksActive origin _ since answer marked soon first within holds =>
                exact .asksActive origin tickAt since answer marked soon first within holds
            | asksLimit origin _ since answer marked soon within =>
                exact .asksLimit origin tickAt since answer marked soon within
            | writes origin _ since answer marked isLast known within =>
                exact .writes origin tickAt since answer marked isLast known within
            | leaves origin _ marked known within => exact .leaves origin tickAt marked known within
      · rename_i free
        have inTime : ¬ (state.clock : Int) - state.startedAt > options.maxMs := by
          rcases timely.within (running_of_free kept going isNow.2) with atStart | within
          · omega
          · rw [timely.start]
            omega
        rw [if_neg inTime] at ticked
        cases ticked
        rw [List.append_nil]
        have noMark : state.marks = [] := by
          cases kept.alone with
          | idle noMark => exact noMark
          | one _ _ _ isTaken => exact absurd (Or.inr isTaken) free
        rw [noMark] at situation
        refine ⟨timely.start, halted, timely.within, timely.early, ?_, timely.known, timely.chain, fun _ => next, fun _ => ?_⟩
        · intro tickAt since answer same
          rw [noMark] at same
          cases same
        · simp only [noMark, List.nil_append]
          cases situation with
          | held unmarked unseen => exact .heldTick state.clock unmarked unseen rfl
          | idle origin time marked isDue soon first =>
              cases isKnown.symm.trans isDue
              rw [← isNow.1] at soon first
              exact .scheduled origin state.clock marked rfl soon first
    · cases ticked

theorem Timely.answers (timely : Timely options state startedAt history) (kept : Kept options history state) {mark tickAt : Nat}
    {before next : Place} (isFound : state.marks[mark]? = some ⟨tickAt, before⟩) (noMark : markTimes output = [])
    (asking : forall since answer, next = .asksReady since answer -> state.markedFrom = none)
    (known : forall origin other, state.markedFrom = some origin -> Begins options startedAt (history ++ output) other ->
      other = origin)
    (goesOn : Situation options state (markTimes history) (Begins options startedAt history) [⟨tickAt, before⟩] ->
      Situation options state (markTimes history) (Begins options startedAt (history ++ output)) [⟨tickAt, next⟩]) :
    Timely options (state.put mark tickAt next) startedAt (history ++ output) := by
  rcases kept.alone.found isFound with ⟨isFirst, single, _, _⟩
  have only : (state.put mark tickAt next).marks = [⟨tickAt, next⟩] := by
    rw [Heartbeat.put, single, isFirst]
    rfl
  have times : markTimes (history ++ output) = markTimes history := by rw [markTimes_append, noMark, List.append_nil]
  refine ⟨timely.start, timely.halted, timely.within, times ▸ timely.early, ?_, known, times ▸ timely.chain, timely.timer,
    fun going => ?_⟩
  · intro tickAt since answer same
    rw [only] at same
    exact asking since answer (congrArg Mark.place (List.cons.inj same).1)
  · rw [only, times]
    exact (goesOn (single ▸ timely.situation going)).carry rfl rfl rfl rfl id fun _ => id

theorem Timely.readyAnswers (timely : Timely options state startedAt history) (kept : Kept options history state)
    {mark tickAt since : Nat} (isFound : state.marks[mark]? = some ⟨tickAt, .asksReady since none⟩) (answer : Answer Bool) :
    Timely options (state.put mark tickAt (.asksReady since (some answer))) startedAt
      (history ++ [.readyAnswers tickAt answer]) := by
  rcases kept.alone.found isFound with ⟨_, single, _, _⟩
  have unmarked := timely.asking _ _ _ single
  refine timely.answers kept isFound rfl (fun _ _ _ => unmarked) ?_ fun situation => ?_
  · intro origin other marked
    rw [unmarked] at marked
    cases marked
  · cases situation with
    | asksReady _ _ unmarked known within =>
        refine .asksReady tickAt (some answer) unmarked ?_ within
        intro origin begun
        unfold Begins at begun known
        split at begun
        · rename_i asked
          rcases List.mem_append.mp begun with earlier | new
          · have answered := (known origin (by rw [if_pos asked]; exact earlier)).2
            cases answered
          · cases List.mem_singleton.mp new
            exact ⟨rfl, rfl⟩
        · rename_i unasked
          have answered := (known origin (by rw [if_neg unasked]; exact begun)).2
          cases answered

theorem Timely.finishes (timely : Timely options state startedAt history) (kept : Kept options history state)
    {mark tickAt : Nat} (isFound : state.marks[mark]? = some ⟨tickAt, .leaves⟩) :
    Timely options { state with inFlight := false, marks := state.marks.eraseIdx mark } startedAt history := by
  rcases kept.alone.found isFound with ⟨isFirst, single, _, _⟩
  have gone : state.marks.eraseIdx mark = [] := by
    rw [single, isFirst]
    rfl
  refine ⟨timely.start, timely.halted, timely.within, timely.early, ?_, timely.known, timely.chain, timely.timer, fun going => ?_⟩
  · intro _ _ _ same
    rw [gone] at same
    cases same
  · have situation := timely.situation going
    rw [single] at situation
    simp only [gone]
    cases situation with
    | heldLeaves _ unmarked unseen => exact .held unmarked unseen
    | leaves origin _ marked known within =>
        rcases timely.timer going with ⟨due, isDue, _, _, soon⟩
        exact .idle origin due marked isDue (by omega) fun unknown => absurd unknown known

theorem Timely.closes (timely : Timely options state startedAt history)
    (same : after = { state with stopped := after.stopped, timer := after.timer, work := after.work })
    (stopped : after.stopped = true) (notRunning : after.work ≠ .running) (noMark : markTimes output = [])
    (noneSeen : forall tickAt, Signal.readyAnswers tickAt (.resolved true) ∉ output) :
    Timely options after startedAt (history ++ output) := by
  have marks : after.marks = state.marks := by rw [same]
  have startedAt : after.startedAt = state.startedAt := by rw [same]
  have markedFrom : after.markedFrom = state.markedFrom := by rw [same]
  have times : markTimes (history ++ output) = markTimes history := by rw [markTimes_append, noMark, List.append_nil]
  refine ⟨startedAt.trans timely.start, fun _ => notRunning, fun isRunning => absurd isRunning notRunning,
    times ▸ markedFrom ▸ timely.early, marks ▸ markedFrom ▸ timely.asking, ?_, times ▸ markedFrom ▸ timely.chain,
    fun going => absurd (stopped.symm.trans going) (by simp), fun going => absurd (stopped.symm.trans going) (by simp)⟩
  intro origin other marked begun
  exact timely.known origin other (markedFrom ▸ marked) ((begins_append noneSeen other).mp begun)

theorem Timely.resume (timely : Timely options state startedAt history) (kept : Kept options history state)
    (resumed : resume options state = some (after, output)) : Timely options after startedAt (history ++ output) := by
  unfold DeployHeartbeat.resume at resumed
  split at resumed
  · simp only at resumed
    split at resumed
    · cases resumed
      exact timely.closes rfl rfl (fun same => by cases same) rfl (by simp)
    · cases resumed
      exact timely.closes rfl rfl (fun same => by cases same) rfl (by simp)
  · rename_i isSettling
    split at resumed
    · cases resumed
    · cases resumed
      exact timely.closes rfl (kept.stops (by rw [isSettling]; rfl)) (fun same => by cases same) rfl (by simp)
  · cases resumed
  · cases resumed

theorem step_timely (timely : Timely options state startedAt history) (kept : Kept options history state)
    {event : Event Outcome} (prompt : Prompt options state event)
    (stepped : step options state event = some (after, output)) : Timely options after startedAt (history ++ output) := by
  cases event with
  | pass ms =>
      simp only [step] at stepped
      split at stepped
      · rename_i quiet
        cases stepped
        rw [List.append_nil]
        exact timely.pass kept prompt quiet.1 quiet.2
      · cases stepped
  | tick => exact timely.tick kept stepped
  | job mark =>
      rcases Option.bind_eq_some_iff.mp stepped with ⟨found, isFound, mapped⟩
      rcases Option.map_eq_some_iff.mp mapped with ⟨result, goes, same⟩
      cases same
      exact timely.job kept isFound goes
  | finishes mark =>
      simp only [step] at stepped
      split at stepped
      · rename_i tickAt isFound
        cases stepped
        rw [List.append_nil]
        exact timely.finishes kept isFound
      · cases stepped
  | readyAnswers mark answer =>
      simp only [step] at stepped
      split at stepped
      · rename_i tickAt since isFound
        cases stepped
        exact timely.readyAnswers kept isFound answer
      · cases stepped
  | activeAnswers mark answer =>
      simp only [step] at stepped
      split at stepped
      · rename_i tickAt since isFound
        cases stepped
        have same := @begins_append _ options history startedAt [.activeAnswers answer] (by simp)
        refine timely.answers kept isFound rfl (fun _ _ same => by cases same) ?_ fun situation => ?_
        · intro origin other marked begun
          exact timely.known origin other marked ((same other).mp begun)
        · cases situation with
          | asksActive origin _ _ _ marked soon first within holds =>
              refine .asksActive origin tickAt since (some answer) marked soon first within ?_
              intro refused isRunning
              cases refused
              exact prompt isRunning rfl
      · cases stepped
  | limitAnswers mark answer =>
      simp only [step] at stepped
      split at stepped
      · rename_i tickAt since isFound
        cases stepped
        have same := @begins_append Outcome options history startedAt [] (by simp)
        refine timely.answers kept isFound rfl (fun _ _ same => by cases same) ?_ fun situation => ?_
        · intro origin other marked begun
          exact timely.known origin other marked ((same other).mp begun)
        · cases situation with
          | asksLimit origin _ _ _ marked soon within => exact .asksLimit origin tickAt since (some answer) marked soon within
      · cases stepped
  | writeAnswers mark answer =>
      simp only [step] at stepped
      split at stepped
      · rename_i tickAt since isFound
        cases stepped
        have same := @begins_append Outcome options history startedAt [.written] (by simp)
        refine timely.answers kept isFound rfl (fun _ _ same => by cases same) ?_ fun situation => ?_
        · intro origin other marked begun
          exact timely.known origin other marked ((same other).mp begun)
        · cases situation with
          | writes origin _ _ _ marked isLast known within =>
              exact .writes origin tickAt since (some answer) marked isLast known within
      · cases stepped
  | ends outcome =>
      simp only [step] at stepped
      split at stepped
      · cases stepped
        have same := @begins_append Outcome options history startedAt [.ends outcome state.clock] (by simp)
        have times : markTimes (history ++ [Signal.ends outcome state.clock]) = markTimes history := by
          rw [markTimes_append]
          exact List.append_nil _
        refine ⟨timely.start, fun _ ended => (by cases ended), fun ended => (by cases ended), times ▸ timely.early, timely.asking,
          ?_, times ▸ timely.chain, timely.timer, fun going => ?_⟩
        · intro origin other marked begun
          exact timely.known origin other marked ((same other).mp begun)
        · rw [times]
          exact (timely.situation going).carry rfl rfl rfl rfl (fun _ ended => by cases ended) fun origin => (same origin).mp
      · cases stepped
  | resume => exact timely.resume kept stepped
  | timeout =>
      simp only [step, DeployHeartbeat.timeout] at stepped
      split at stepped
      · rename_i isSettling
        split at stepped
        · cases stepped
          exact timely.closes rfl (kept.stops (by rw [isSettling]; rfl)) (fun same => by cases same) rfl (by simp)
        · cases stepped
      · cases stepped

theorem timely_fresh (options : DeployHeartbeatOptions) (startedAt : Nat) :
    Timely options (.fresh options startedAt : Heartbeat Outcome) startedAt [] := by
  have positive := delayOf_pos options.intervalMs
  have bounded : delayOf options.intervalMs ≤ options.interval := delayOf_le options.intervalMs
  refine ⟨rfl, fun stopped => (by cases stopped), fun _ => Or.inl rfl, fun _ => rfl, fun _ _ _ same => (by cases same), ?_, ?_,
    fun _ => ⟨_, rfl, by omega, Nat.le_add_right _ _, Nat.add_le_add_left bounded _⟩, fun _ => ?_⟩
  · intro origin other marked begun
    simp only [Heartbeat.fresh] at marked
    unfold Begins at begun
    split at marked
    · cases marked
    · rename_i unasked
      rw [if_neg unasked] at begun
      exact begun.trans (Option.some.inj marked)
  · intro origin _
    exact List.isChain_singleton origin
  · by_cases asked : options.ready = true
    · refine .held (by simp only [Heartbeat.fresh, if_pos asked]) fun origin begun => ?_
      rw [Begins, if_pos asked] at begun
      cases begun
    · have due : startedAt + delayOf options.intervalMs ≤ startedAt + options.interval := Nat.add_le_add_left bounded _
      refine .idle startedAt _ (by simp only [Heartbeat.fresh, if_neg asked]) rfl ?_ fun _ => due
      show startedAt + delayOf options.intervalMs < startedAt + 2 * options.interval
      omega

theorem timely_of_run (run : (withDeployHeartbeat options startedAt).Run (Prompt options) history state) :
    Timely options state startedAt history :=
  run.invariant (fun history state => Timely options state startedAt history) (timely_fresh options startedAt)
    fun _ _ _ _ _ run timely prompt stepped => step_timely timely (kept_of_run run) prompt stepped

theorem Timely.neverSilent (timely : Timely options state startedAt history) : NeverSilent options startedAt history state := by
  intro origin begun
  refine ⟨?_, fun isRunning => ?_⟩
  · cases isMarked : state.markedFrom with
    | none =>
        rw [timely.early isMarked]
        exact List.isChain_singleton origin
    | some began =>
        cases timely.known began origin isMarked begun
        exact timely.chain origin isMarked
  · have going : state.stopped = false := by
      by_contra stopped
      exact timely.halted (by simpa using stopped) isRunning
    have since : forall began, state.markedFrom = some began -> origin = began := fun began marked =>
      timely.known began origin marked begun
    rcases timely.timer going with ⟨due, isDue, _, notPast, _⟩
    have situation := timely.situation going
    generalize state.marks = marks at situation
    cases situation with
    | held _ unseen => exact absurd begun (unseen origin)
    | heldTick _ _ unseen => exact absurd begun (unseen origin)
    | heldLeaves _ _ unseen => exact absurd begun (unseen origin)
    | asksReady tickAt answer unmarked known within =>
        cases (known origin begun).1
        rw [timely.early unmarked, List.getLastD_nil]
        omega
    | idle began due marked isTimer soon =>
        cases since began marked
        cases isDue.symm.trans isTimer
        omega
    | scheduled began tickAt marked now soon =>
        cases since began marked
        omega
    | asksActive began tickAt asked answer marked soon first within =>
        cases since began marked
        omega
    | asksLimit began tickAt asked answer marked soon within =>
        cases since began marked
        omega
    | writes began tickAt asked answer marked isLast known within =>
        cases since began marked
        omega
    | leaves began tickAt marked known within =>
        cases since began marked
        omega

end Preserved

/-- Marks change nothing of the outcome and do not outlive the step, and while work runs the log is never silent for
three intervals. -/
theorem marks_endWithWork (options : DeployHeartbeatOptions) (startedAt : Nat)
    (run : (withDeployHeartbeat options startedAt).Reaches history state) :
    Settles options history state ∧ WellMarked options history ∧
      ((withDeployHeartbeat options startedAt).Run (Prompt options) history state -> NeverSilent options startedAt history state) := by
  have kept := kept_of_run run
  exact ⟨settles_of_kept kept, kept.marked, fun prompt => (timely_of_run prompt).neverSilent⟩

section Slow

/-- Marks every ten milliseconds, where isActive is asked. -/
def everyTen : DeployHeartbeatOptions where
  label := "Image push"
  ready := false
  isActive := true
  wallLimitMinutes := false
  intervalMs := 10
  maxMs := 1000
  settleMs := 0

instance [DecidableEq Outcome] (options : DeployHeartbeatOptions) (state : Heartbeat Outcome) (event : Event Outcome) :
    Decidable (Prompt options state event) :=
  match event with
  | .pass ms => inferInstanceAs (Decidable (state.work = .running ->
      (state.clock + ms : Int) ≤ state.startedAt + options.maxMs ∧
        forall since, since ∈ state.marks.filterMap (fun mark => mark.place.since?) -> state.clock + ms < since + options.interval))
  | .activeAnswers _ answer => inferInstanceAs (Decidable (state.work = .running -> answer ≠ .resolved false))
  | .tick | .job _ | .finishes _ | .readyAnswers _ _ | .limitAnswers _ _ | .writeAnswers _ _ | .ends _ | .resume | .timeout =>
      isTrue fun _ => trivial

def promptly (state : Heartbeat Unit) (event : Event Unit) : Bool := decide (Prompt everyTen state event)

/-- A slow write keeps one tick from being used, and the next answer is slow. -/
def slowly : List (Event Unit) :=
  [.pass 10, .tick, .job 0, .pass 2, .activeAnswers 0 (.resolved true), .job 0, .pass 8, .tick, .pass 1, .writeAnswers 0 .failed,
    .job 0, .finishes 0, .pass 9, .tick, .job 0, .pass 9, .activeAnswers 0 (.resolved true), .job 0]

/-- The answer and the end of work come in one instant, the answer first. -/
def atOnce : List (Event Unit) :=
  [.pass 10, .tick, .job 0, .pass 2, .activeAnswers 0 (.resolved true), .ends (), .job 0]

def hanging : List (Event Unit) :=
  [.pass 10, .tick, .job 0, .activeAnswers 0 (.resolved true), .job 0, .ends (), .resume, .pass 1, .timeout]

def outcomeOf (events : List (Event Unit)) : Heartbeat Unit × List (Signal Unit) :=
  (withDeployHeartbeat everyTen 0).outcome promptly events

theorem run_outcomeOf {events : List (Event Unit)}
    (executes : ((withDeployHeartbeat everyTen 0).exec promptly (.fresh everyTen 0) events).isSome = true) :
    (withDeployHeartbeat everyTen 0).Run (Prompt everyTen) (outcomeOf events).2 (outcomeOf events).1 :=
  @Machine.run_of_executes _ _ _ (withDeployHeartbeat everyTen 0) (Prompt everyTen) promptly (fun _ _ => of_decide_eq_true) events
    executes

theorem marks_endWithWork_slowly : Settles everyTen (outcomeOf slowly).2 (outcomeOf slowly).1 ∧
    WellMarked everyTen (outcomeOf slowly).2 ∧ NeverSilent everyTen 0 (outcomeOf slowly).2 (outcomeOf slowly).1 := by
  have run := @run_outcomeOf slowly (by decide +kernel)
  rcases marks_endWithWork everyTen 0 run.weaken with ⟨settles, marked, neverSilent⟩
  exact ⟨settles, marked, neverSilent run⟩

/-- Two marks more than two intervals apart, a mark behind the end of work, and a return later than a settle time of zero. -/
theorem marks_stray :
    (Exists fun history => Exists fun state : Heartbeat Unit => (withDeployHeartbeat everyTen 0).Run (Prompt everyTen) history state ∧
      markTimes history = [12, 39] ∧ 12 + 2 * everyTen.intervalMs < 39) ∧
    (Exists fun history => Exists fun state : Heartbeat Unit => (withDeployHeartbeat everyTen 0).Reaches history state ∧
      history.getLast?.bind Signal.writes? = some 12 ∧ Signal.ends () 12 ∈ history) ∧
    Exists fun history => Exists fun state : Heartbeat Unit => (withDeployHeartbeat everyTen 0).Reaches history state ∧
      history.filterMap Signal.ends? = [((), 10)] ∧ history.filterMap Signal.returns? = [((), 11)] ∧ everyTen.settleMs = 0 := by
  refine ⟨⟨(outcomeOf slowly).2, (outcomeOf slowly).1, run_outcomeOf (by decide +kernel), by decide +kernel, by decide⟩,
    ⟨(outcomeOf atOnce).2, (outcomeOf atOnce).1, ?_, by decide +kernel, by decide +kernel⟩,
    (outcomeOf hanging).2, (outcomeOf hanging).1, ?_, by decide +kernel, by decide +kernel, rfl⟩
  · exact (@run_outcomeOf atOnce (by decide +kernel)).weaken
  · exact (@run_outcomeOf hanging (by decide +kernel)).weaken

end Slow

end DeployHeartbeat
end Dokploy
