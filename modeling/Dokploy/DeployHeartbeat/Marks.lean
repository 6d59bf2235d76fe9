import Dokploy.Foundation.Histories
import Dokploy.Foundation.Machine

namespace Dokploy
namespace DeployHeartbeat

open Foundation (Machine)
open Foundation.Histories (EachAt)

/-!
# Progress marks of a long step

While a step of a deploy runs, a timer has a line written to the log every interval.
What a tick sets off runs beside the step and asks up to three questions before it
writes.  The end of the step may fall between any two of these.

A function that was passed in answers when it likes, also by failing.  What waits for the
answer goes on later, as a job; time passes, and a timer fires, only when no job is due.
-/

/-- The three questions are asked where they are given. -/
structure DeployHeartbeatOptions where
  label : String
  ready : Bool
  isActive : Bool
  wallLimitMinutes : Bool
  intervalMs : Int
  maxMs : Int
  settleMs : Int

/-- What a function that was passed in came to. -/
inductive Answer (Result : Type) where
  | resolved (result : Result)
  | failed
deriving DecidableEq

def attempt (check : Answer Bool) (orElse : Bool) : Bool :=
  match check with
  | .resolved result => result
  | .failed => orElse

def attemptLimit : Answer (Option Nat) -> Option Nat
  | .resolved limit => limit
  | .failed => none

def getDeployHeartbeatLine (label : String) (elapsedMs : Int) (wallLimitMinutes : Option Nat) : String :=
  "⏳ " ++ label ++ " is still running (" ++ toString (max 1 ((elapsedMs + 30000) / 60000)) ++ " min so far, no output yet" ++
    (match wallLimitMinutes with
      | some minutes => "; wall limit " ++ toString minutes ++ " min"
      | none => "") ++ ")"

def delayOf (ms : Int) : Nat := if 1 ≤ ms ∧ ms ≤ 2147483647 then ms.toNat else 1

/-- How far one mark has come: what it waits for, since when, and the answer once it is there. -/
inductive Place where
  | scheduled
  | asksReady (since : Nat) (answer : Option (Answer Bool))
  | asksActive (since : Nat) (answer : Option (Answer Bool))
  | asksLimit (since : Nat) (answer : Option (Answer (Option Nat)))
  | writes (since : Nat) (answer : Option (Answer Unit))
  | leaves
deriving DecidableEq

structure Mark where
  tickAt : Nat
  place : Place
deriving DecidableEq

inductive Work (Outcome : Type) where
  | running
  | ended (outcome : Outcome)
  | settling (outcome : Outcome) (deadline : Nat)
  | gone
deriving DecidableEq

structure Heartbeat (Outcome : Type) where
  clock : Nat
  startedAt : Nat
  wallLimit : Option (Option Nat)
  markedFrom : Option Nat
  stopped : Bool
  inFlight : Bool
  /-- When the interval timer fires next, while it is set. -/
  timer : Option Nat
  marks : List Mark
  work : Work Outcome

inductive Event (Outcome : Type) where
  | pass (ms : Nat)
  | tick
  | job (mark : Nat)
  | finishes (mark : Nat)
  | readyAnswers (mark : Nat) (answer : Answer Bool)
  | activeAnswers (mark : Nat) (answer : Answer Bool)
  | limitAnswers (mark : Nat) (answer : Answer (Option Nat))
  | writeAnswers (mark : Nat) (answer : Answer Unit)
  | ends (outcome : Outcome)
  | resume
  | timeout

inductive Signal (Outcome : Type) where
  | ends (outcome : Outcome) (time : Nat)
  | takenUp
  | readyAnswers (tickAt : Nat) (answer : Answer Bool)
  | activeAnswers (answer : Answer Bool)
  | writes (time : Nat) (line : String)
  | written
  | returns (outcome : Outcome) (time : Nat)
deriving DecidableEq

variable {Outcome : Type}

/-- Whether a mark goes on as soon as it can. -/
def Place.due : Place -> Bool
  | .scheduled | .leaves => true
  | .asksReady _ answer | .asksActive _ answer => answer.isSome
  | .asksLimit _ answer => answer.isSome
  | .writes _ answer => answer.isSome

def Place.since? : Place -> Option Nat
  | .asksReady since _ | .asksActive since _ | .asksLimit since _ | .writes since _ => some since
  | .scheduled | .leaves => none

namespace Heartbeat

def fresh (options : DeployHeartbeatOptions) (startedAt : Nat) : Heartbeat Outcome where
  clock := startedAt
  startedAt := startedAt
  wallLimit := none
  markedFrom := if options.ready then none else some startedAt
  stopped := false
  inFlight := false
  timer := some (startedAt + delayOf options.intervalMs)
  marks := []
  work := .running

/-- Whether the call itself has a job: what it awaits has settled. -/
def callDue (state : Heartbeat Outcome) : Bool :=
  match state.work with
  | .ended _ => true
  | .settling _ _ => !state.inFlight
  | .running | .gone => false

def busy (state : Heartbeat Outcome) : Bool := state.callDue || state.marks.any fun mark => mark.place.due

def quietUntil (state : Heartbeat Outcome) (time : Nat) : Bool :=
  (match state.timer with
    | some due => decide (time ≤ due)
    | none => true) &&
  (match state.work with
    | .settling _ deadline => decide (time ≤ deadline)
    | _ => true)

def put (state : Heartbeat Outcome) (mark : Nat) (tickAt : Nat) (place : Place) : Heartbeat Outcome :=
  { state with marks := state.marks.set mark ⟨tickAt, place⟩ }

section Body

variable (options : DeployHeartbeatOptions) (state : Heartbeat Outcome) (tickAt : Nat)

def write (wallLimit : Option Nat) : Heartbeat Outcome × Place × List (Signal Outcome) :=
  (state, .writes state.clock none,
    [.writes state.clock (getDeployHeartbeatLine options.label (tickAt - state.markedFrom.getD 0) wallLimit)])

def limitKnown (wallLimit : Option Nat) : Heartbeat Outcome × Place × List (Signal Outcome) :=
  if state.stopped then ({ state with wallLimit := some wallLimit }, .leaves, [])
  else write options { state with wallLimit := some wallLimit } tickAt wallLimit

def active : Heartbeat Outcome × Place × List (Signal Outcome) :=
  if state.stopped then (state, .leaves, [])
  else
    match state.wallLimit with
    | some wallLimit => write options state tickAt wallLimit
    | none =>
        if options.wallLimitMinutes then (state, .asksLimit state.clock none, [])
        else limitKnown options state tickAt none

def marked : Heartbeat Outcome × Place × List (Signal Outcome) :=
  if options.isActive then (state, .asksActive state.clock none, []) else active options state tickAt

/-- A mark goes on from where it waits, unless there is no answer yet. -/
def goOn : Place -> Option (Heartbeat Outcome × Place × List (Signal Outcome))
  | .scheduled =>
      if state.markedFrom.isSome then some (marked options state tickAt)
      else if options.ready then some (state, .asksReady state.clock none, [])
      else some (state, .leaves, [])
  | .asksReady _ (some answer) =>
      if attempt answer false = false ∨ state.stopped then some (state, .leaves, [])
      else some (marked options { state with markedFrom := some tickAt } tickAt)
  | .asksActive _ (some answer) =>
      if attempt answer true then some (active options state tickAt)
      else some ({ state with stopped := true, timer := none }, .leaves, [])
  | .asksLimit _ (some answer) => some (limitKnown options state tickAt (attemptLimit answer))
  | .writes _ (some _) => some (state, .leaves, [])
  | _ => none

end Body

end Heartbeat

section Steps

variable (options : DeployHeartbeatOptions) (state : Heartbeat Outcome)

def tick : Option (Heartbeat Outcome × List (Signal Outcome)) :=
  match state.timer with
  | none => none
  | some due =>
      if state.clock = due ∧ state.busy = false then
        if state.stopped ∨ state.inFlight then some ({ state with timer := some (due + delayOf options.intervalMs) }, [])
        else if (state.clock : Int) - state.startedAt > options.maxMs then some ({ state with timer := none }, [])
        else
          some ({ state with
            timer := some (due + delayOf options.intervalMs)
            inFlight := true
            marks := state.marks ++ [⟨state.clock, .scheduled⟩] }, [])
      else none

/-- The call goes on: to its finally block, or out of it once the mark it waits for has finished. -/
def resume : Option (Heartbeat Outcome × List (Signal Outcome)) :=
  match state.work with
  | .ended outcome =>
      let state := { state with stopped := true, timer := none }
      if state.inFlight then
        some ({ state with work := .settling outcome (state.clock + delayOf options.settleMs) }, [.takenUp])
      else some ({ state with work := .gone }, [.takenUp, .returns outcome state.clock])
  | .settling outcome _ =>
      if state.inFlight then none else some ({ state with work := .gone }, [.returns outcome state.clock])
  | .running | .gone => none

def timeout : Option (Heartbeat Outcome × List (Signal Outcome)) :=
  match state.work with
  | .settling outcome deadline =>
      if state.clock = deadline ∧ state.busy = false then
        some ({ state with work := .gone }, [.returns outcome state.clock])
      else none
  | _ => none

def step : Event Outcome -> Option (Heartbeat Outcome × List (Signal Outcome))
  | .pass ms =>
      if state.busy = false ∧ state.quietUntil (state.clock + ms) then some ({ state with clock := state.clock + ms }, [])
      else none
  | .tick => tick options state
  | .job mark =>
      state.marks[mark]?.bind fun found => (state.goOn options found.tickAt found.place).map fun (state, place, signals) =>
        (state.put mark found.tickAt place, signals)
  | .finishes mark =>
      match state.marks[mark]? with
      | some ⟨_, .leaves⟩ => some ({ state with inFlight := false, marks := state.marks.eraseIdx mark }, [])
      | _ => none
  | .readyAnswers mark answer =>
      match state.marks[mark]? with
      | some ⟨tickAt, .asksReady since none⟩ =>
          some (state.put mark tickAt (.asksReady since (some answer)), [.readyAnswers tickAt answer])
      | _ => none
  | .activeAnswers mark answer =>
      match state.marks[mark]? with
      | some ⟨tickAt, .asksActive since none⟩ =>
          some (state.put mark tickAt (.asksActive since (some answer)), [.activeAnswers answer])
      | _ => none
  | .limitAnswers mark answer =>
      match state.marks[mark]? with
      | some ⟨tickAt, .asksLimit since none⟩ => some (state.put mark tickAt (.asksLimit since (some answer)), [])
      | _ => none
  | .writeAnswers mark answer =>
      match state.marks[mark]? with
      | some ⟨tickAt, .writes since none⟩ => some (state.put mark tickAt (.writes since (some answer)), [.written])
      | _ => none
  | .ends outcome =>
      match state.work with
      | .running => some ({ state with work := .ended outcome }, [.ends outcome state.clock])
      | _ => none
  | .resume => resume options state
  | .timeout => timeout state

end Steps

def withDeployHeartbeat (options : DeployHeartbeatOptions) (startedAt : Nat) :
    Machine (Heartbeat Outcome) (Event Outcome) (Signal Outcome) where
  initial := .fresh options startedAt
  step := step options

/-- The delays of the timers as they can be counted on. -/
def DeployHeartbeatOptions.interval (options : DeployHeartbeatOptions) : Nat := max 1 options.intervalMs.toNat

def DeployHeartbeatOptions.settle (options : DeployHeartbeatOptions) : Nat := max 1 options.settleMs.toNat

def Signal.ends? : Signal Outcome -> Option (Outcome × Nat)
  | .ends outcome time => some (outcome, time)
  | _ => none

def Signal.returns? : Signal Outcome -> Option (Outcome × Nat)
  | .returns outcome time => some (outcome, time)
  | _ => none

def Signal.writes? : Signal Outcome -> Option Nat
  | .writes time _ => some time
  | _ => none

def Signal.written? : Signal Outcome -> Option Unit
  | .written => some ()
  | _ => none

/-- When the marks were begun to be written. -/
def markTimes (history : List (Signal Outcome)) : List Nat := history.filterMap Signal.writes?

/-- What has to hold where a mark is begun to be written. -/
structure MayWrite (options : DeployHeartbeatOptions) (before : List (Signal Outcome)) (time : Nat) : Prop where
  notTakenUp : Signal.takenUp ∉ before
  sameInstant : forall outcome ended, Signal.ends outcome ended ∈ before -> time = ended
  notRefused : Signal.activeAnswers (.resolved false) ∉ before
  isReady : options.ready = true -> Exists fun tickAt => Signal.readyAnswers tickAt (.resolved true) ∈ before
  single : (markTimes before).length = (before.filterMap Signal.written?).length

def WellMarked (options : DeployHeartbeatOptions) : List (Signal Outcome) -> Prop :=
  EachAt fun before signal => forall time line, signal = .writes time line -> MayWrite options before time

/-- What the call can do without an answer and without the end of work. -/
def Event.isOwn : Event Outcome -> Prop
  | .pass _ | .tick | .job _ | .finishes _ | .resume | .timeout => True
  | _ => False

def OwnStep (options : DeployHeartbeatOptions) (before : Heartbeat Outcome) (output : List (Signal Outcome))
    (after : Heartbeat Outcome) : Prop :=
  Exists fun event => Event.isOwn event ∧ step options before event = some (after, output)

/-- The call comes to the end of work, to nothing else, and in time. -/
structure Settles (options : DeployHeartbeatOptions) (history : List (Signal Outcome)) (state : Heartbeat Outcome) : Prop where
  once : (history.filterMap Signal.ends?).length ≤ 1
  returned : history.filterMap Signal.returns? = [] ∨ Exists fun outcome => Exists fun ended => Exists fun time =>
    history.filterMap Signal.ends? = [(outcome, ended)] ∧ history.filterMap Signal.returns? = [(outcome, time)] ∧
      ended ≤ time ∧ time ≤ ended + options.settle
  inTime : forall outcome ended, history.filterMap Signal.ends? = [(outcome, ended)] ->
    history.filterMap Signal.returns? = [] -> state.clock ≤ ended + options.settle
  goesOn : forall outcome ended, history.filterMap Signal.ends? = [(outcome, ended)] ->
    history.filterMap Signal.returns? = [] -> Exists fun more => Exists fun final => Exists fun time =>
      Machine.Path (OwnStep options) state more final ∧
        (history ++ more).filterMap Signal.returns? = [(outcome, time)] ∧ time ≤ ended + options.settle

theorem delayOf_pos (ms : Int) : 1 ≤ delayOf ms := by
  unfold delayOf
  split <;> omega

theorem delayOf_le (ms : Int) : delayOf ms ≤ max 1 ms.toNat := by
  unfold delayOf
  split <;> omega

section Standing

variable (options : DeployHeartbeatOptions) (history : List (Signal Outcome)) (state : Heartbeat Outcome)

/-- Where the call is, by the ends and the returns of a history. -/
inductive Stands (clock : Nat) (ends returns : List (Outcome × Nat)) : Work Outcome -> Prop
  | running (noEnd : ends = []) (noReturn : returns = []) : Stands clock ends returns .running
  | ended (outcome : Outcome) (end_ : ends = [(outcome, clock)]) (noReturn : returns = []) :
      Stands clock ends returns (.ended outcome)
  | settling (outcome : Outcome) (time deadline : Nat) (end_ : ends = [(outcome, time)]) (noReturn : returns = [])
      (begun : time ≤ clock) (within : clock ≤ deadline) (isDeadline : deadline = time + delayOf options.settleMs) :
      Stands clock ends returns (.settling outcome deadline)
  | gone (outcome : Outcome) (time returned : Nat) (end_ : ends = [(outcome, time)]) (return_ : returns = [(outcome, returned)])
      (later : time ≤ returned) (within : returned ≤ time + options.settle) : Stands clock ends returns .gone

def Work.isTaken : Work Outcome -> Bool
  | .running | .ended _ => false
  | .settling _ _ | .gone => true

def Place.isPast : Place -> Bool
  | .asksActive _ _ | .asksLimit _ _ | .writes _ _ => true
  | .scheduled | .asksReady _ _ | .leaves => false

def Place.isOpen : Place -> Bool
  | .writes _ none => true
  | _ => false

/-- What a mark that has come to a place says of the history. -/
structure Reached (place : Place) : Prop where
  refused : Signal.activeAnswers (.resolved false) ∈ history ->
    state.stopped = true ∨ Exists fun since => place = .asksActive since (some (.resolved false))
  seen : options.ready = true -> state.markedFrom.isSome = true ->
    Exists fun tickAt => Signal.readyAnswers tickAt (.resolved true) ∈ history
  answered : (Exists fun since => place = .asksReady since (some (.resolved true))) ->
    Exists fun tickAt => Signal.readyAnswers tickAt (.resolved true) ∈ history
  past : place.isPast = true -> state.markedFrom.isSome = true
  written : (markTimes history).length = (history.filterMap Signal.written?).length + if place.isOpen = true then 1 else 0

inductive Alone (holds : Place -> Prop) : Prop where
  | idle (noMark : state.marks = []) (isFree : state.inFlight = false) (reached : holds .leaves)
  | one (tickAt : Nat) (place : Place) (single : state.marks = [⟨tickAt, place⟩]) (isTaken : state.inFlight = true)
      (reached : holds place)

structure Kept : Prop where
  marked : WellMarked options history
  stands : Stands options state.clock (history.filterMap Signal.ends?) (history.filterMap Signal.returns?) state.work
  taken : Signal.takenUp ∈ history -> state.work.isTaken = true
  stops : state.work.isTaken = true -> state.stopped = true
  cleared : state.stopped = true -> state.timer = none
  alone : Alone state (Reached options history state)

end Standing

section Jobs

variable {options : DeployHeartbeatOptions} {history : List (Signal Outcome)} {state : Heartbeat Outcome}

/-- As long as nothing has stopped the marks, the end of work is of this instant and not yet taken up. -/
structure Awake (history : List (Signal Outcome)) (clock : Nat) : Prop where
  notTakenUp : Signal.takenUp ∉ history
  sameInstant : forall outcome ended, Signal.ends outcome ended ∈ history -> clock = ended

/-- What a job leaves of the state it began in. -/
structure Onward (options : DeployHeartbeatOptions) (history : List (Signal Outcome)) (state : Heartbeat Outcome)
    (result : Heartbeat Outcome × Place × List (Signal Outcome)) : Prop where
  clock : result.1.clock = state.clock
  work : result.1.work = state.work
  inFlight : result.1.inFlight = state.inFlight
  marks : result.1.marks = state.marks
  halts : (result.1.stopped = state.stopped ∧ result.1.timer = state.timer) ∨
    (result.1.stopped = true ∧ result.1.timer = none)
  start : result.1.startedAt = state.startedAt
  silent : state.stopped = true -> result.2.2 = [] ∧ result.1.markedFrom = state.markedFrom
  asking : forall since answer, result.2.1 = .asksReady since answer -> result.1.markedFrom = none
  plain : result.2.2 = [] ∨ Exists fun line => result.2.2 = [.writes state.clock line]
  marked : WellMarked options (history ++ result.2.2)
  reached : Reached options (history ++ result.2.2) result.1 result.2.1

variable {result : Heartbeat Outcome × Place × List (Signal Outcome)}

theorem Onward.stopped (onward : Onward options history state result)
    (stopped : state.stopped = true) : result.1.stopped = true := by
  rcases onward.halts with ⟨same, _⟩ | ⟨halted, _⟩
  · exact same.trans stopped
  · exact halted

theorem Onward.cleared (onward : Onward options history state result)
    (cleared : state.stopped = true -> state.timer = none) (stopped : result.1.stopped = true) : result.1.timer = none := by
  rcases onward.halts with ⟨same, sameTimer⟩ | ⟨_, noTimer⟩
  · exact sameTimer.trans (cleared (same.symm.trans stopped))
  · exact noTimer

theorem Onward.timer (onward : Onward options history state result)
    (going : result.1.stopped = false) : result.1.timer = state.timer := by
  rcases onward.halts with ⟨_, sameTimer⟩ | ⟨halted, _⟩
  · exact sameTimer
  · rw [going] at halted
    cases halted

variable (wellMarked : WellMarked options history) (awake : state.stopped = false -> Awake history state.clock)

theorem Reached.move {place next : Place} (reached : Reached options history state place)
    (unrefused : state.stopped = true ∨ forall since, place ≠ .asksActive since (some (.resolved false)))
    (unanswered : forall since, next ≠ .asksReady since (some (.resolved true)))
    (past : next.isPast = true -> state.markedFrom.isSome = true) (isOpen : next.isOpen = place.isOpen) :
    Reached options history state next where
  refused refusal := by
    rcases reached.refused refusal with stopped | ⟨since, same⟩
    · exact Or.inl stopped
    · exact Or.inl (unrefused.resolve_right fun differs => differs since same)
  seen := reached.seen
  answered := fun ⟨since, same⟩ => absurd same (unanswered since)
  past := past
  written := by rw [isOpen]; exact reached.written

theorem onward_of_silent {next : Place} (stays : Reached options history state next)
    (unmarked : forall since answer, next = .asksReady since answer -> state.markedFrom = none)
    (wellMarked : WellMarked options history) : Onward options history state (state, next, []) where
  clock := rfl
  work := rfl
  inFlight := rfl
  marks := rfl
  halts := Or.inl ⟨rfl, rfl⟩
  start := rfl
  silent _ := ⟨rfl, rfl⟩
  asking := unmarked
  plain := Or.inl rfl
  marked := by rwa [List.append_nil]
  reached := by rwa [List.append_nil]

theorem Onward.of_limit {wallLimit : Option (Option Nat)}
    (onward : Onward options history { state with wallLimit := wallLimit } result) : Onward options history state result :=
  ⟨onward.clock, onward.work, onward.inFlight, onward.marks, onward.halts, onward.start, onward.silent,
    onward.asking, onward.plain, onward.marked, onward.reached⟩

theorem Reached.withLimit {place : Place} (reached : Reached options history state place) (wallLimit : Option (Option Nat)) :
    Reached options history { state with wallLimit := wallLimit } place :=
  ⟨reached.refused, reached.seen, reached.answered, reached.past, reached.written⟩

include wellMarked awake

theorem write_onward {since tickAt : Nat} (reached : Reached options history state (.asksLimit since none))
    (going : state.stopped = false) (wallLimit : Option Nat) :
    Onward options history state (state.write options tickAt wallLimit) where
  clock := rfl
  work := rfl
  inFlight := rfl
  marks := rfl
  halts := Or.inl ⟨rfl, rfl⟩
  start := rfl
  silent stopped := by rw [going] at stopped; cases stopped
  asking _ _ same := by cases same
  plain := Or.inr ⟨_, rfl⟩
  marked := by
    refine wellMarked.snoc ?_
    intro time line same
    cases same
    have waking := awake going
    refine ⟨waking.notTakenUp, waking.sameInstant, ?_, ?_, reached.written⟩
    · intro refusal
      rcases reached.refused refusal with stopped | ⟨_, other⟩
      · rw [going] at stopped
        cases stopped
      · cases other
    · intro asked
      exact reached.seen asked (reached.past rfl)
  reached := by
    refine ⟨?_, ?_, ?_, ?_, ?_⟩
    · intro refusal
      rcases List.mem_append.mp refusal with before | new
      · rcases reached.refused before with stopped | ⟨_, other⟩
        · exact Or.inl stopped
        · cases other
      · cases List.mem_singleton.mp new
    · intro asked some
      rcases reached.seen asked some with ⟨seenAt, seen⟩
      exact ⟨seenAt, List.mem_append_left _ seen⟩
    · rintro ⟨_, other⟩
      cases other
    · exact fun _ => reached.past rfl
    · have before := reached.written
      simp only [Place.isOpen, Bool.false_eq_true, if_false, Nat.add_zero] at before
      simp [Heartbeat.write, markTimes, Signal.writes?, Signal.written?, Place.isOpen, List.filterMap_append, before.symm]

theorem limitKnown_onward {since tickAt : Nat} (reached : Reached options history state (.asksLimit since none))
    (wallLimit : Option Nat) : Onward options history state (state.limitKnown options tickAt wallLimit) := by
  unfold Heartbeat.limitKnown
  split
  · have leaves : Reached options history { state with wallLimit := some wallLimit } .leaves :=
      (reached.withLimit (some wallLimit)).move (Or.inr fun _ same => by cases same) (fun _ same => by cases same)
        (fun isPast => by cases isPast) rfl
    exact (onward_of_silent leaves (fun _ _ same => by cases same) wellMarked).of_limit
  · rename_i going
    have going : state.stopped = false := by simpa using going
    exact (@write_onward Outcome options history { state with wallLimit := some wallLimit } wellMarked awake since tickAt
      (reached.withLimit _) going wallLimit).of_limit

theorem active_onward {since tickAt : Nat} (reached : Reached options history state (.asksLimit since none)) :
    Onward options history state (state.active options tickAt) := by
  have unrefused : state.stopped = true ∨ forall asked, Place.asksLimit since none ≠ .asksActive asked (some (.resolved false)) :=
    Or.inr fun _ same => by cases same
  unfold Heartbeat.active
  split
  · exact onward_of_silent (reached.move unrefused (fun _ same => by cases same) (fun isPast => by cases isPast) rfl)
      (fun _ _ same => by cases same) wellMarked
  · rename_i going
    have going : state.stopped = false := by simpa using going
    split
    · exact write_onward wellMarked awake reached going _
    · split
      · exact onward_of_silent (reached.move unrefused (fun _ same => by cases same) (fun _ => reached.past rfl) rfl)
          (fun _ _ same => by cases same) wellMarked
      · exact limitKnown_onward wellMarked awake reached none

theorem marked_onward {since tickAt : Nat} (reached : Reached options history state (.asksLimit since none)) :
    Onward options history state (state.marked options tickAt) := by
  unfold Heartbeat.marked
  split
  · exact onward_of_silent (reached.move (Or.inr fun _ same => by cases same) (fun _ same => by cases same)
      (fun _ => reached.past rfl) rfl) (fun _ _ same => by cases same) wellMarked
  · exact active_onward wellMarked awake reached

theorem goOn_onward {tickAt : Nat} {place : Place}
    (reached : Reached options history state place) (goes : state.goOn options tickAt place = some result) :
    Onward options history state result := by
  have leaving : (state.stopped = true ∨ forall asked, place ≠ .asksActive asked (some (.resolved false))) ->
      place.isOpen = false -> Onward options history state (state, .leaves, []) := by
    intro unrefused closed
    exact onward_of_silent (reached.move unrefused (fun _ same => by cases same) (fun isPast => by cases isPast) closed.symm)
      (fun _ _ same => by cases same) wellMarked
  unfold Heartbeat.goOn at goes
  split at goes
  · split at goes
    · rename_i some
      cases goes
      exact @marked_onward _ _ _ _ wellMarked awake 0 tickAt (reached.move (Or.inr fun _ same => by cases same)
        (fun _ same => by cases same) (fun _ => some) rfl)
    · rename_i unmarked
      split at goes
      · cases goes
        exact onward_of_silent (reached.move (Or.inr fun _ same => by cases same) (fun _ same => by cases same)
          (fun isPast => by cases isPast) rfl) (fun _ _ _ => Option.not_isSome_iff_eq_none.mp unmarked) wellMarked
      · cases goes
        exact leaving (Or.inr fun _ same => by cases same) rfl
  · rename_i since answer
    split at goes
    · cases goes
      exact leaving (Or.inr fun _ same => by cases same) rfl
    · rename_i sees
      cases goes
      have going : state.stopped ≠ true := fun stopped => sees (Or.inr stopped)
      have isSeen : answer = .resolved true := by
        cases answer with
        | failed => exact absurd (Or.inl rfl) sees
        | resolved value =>
            cases value with
            | false => exact absurd (Or.inl rfl) sees
            | true => rfl
      have seen := reached.answered ⟨since, by rw [isSeen]⟩
      have passed : Reached options history { state with markedFrom := some tickAt } (.asksLimit 0 none) := by
        refine ⟨fun refusal => Or.inl ((reached.refused refusal).resolve_right ?_), fun _ _ => seen, ?_, fun _ => rfl,
          reached.written⟩
        · rintro ⟨_, other⟩
          cases other
        · rintro ⟨_, other⟩
          cases other
      have onward := @marked_onward _ _ _ { state with markedFrom := some tickAt } wellMarked awake 0 tickAt passed
      exact ⟨onward.clock, onward.work, onward.inFlight, onward.marks, onward.halts, onward.start,
        fun stopped => absurd stopped going, onward.asking, onward.plain, onward.marked, onward.reached⟩
  · rename_i since answer
    split at goes
    · rename_i holds
      cases goes
      have unrefused : forall asked, Place.asksActive since (some answer) ≠ .asksActive asked (some (.resolved false)) := by
        intro asked same
        cases same
        cases holds
      exact @active_onward _ _ _ _ wellMarked awake 0 tickAt (reached.move (Or.inr unrefused) (fun _ same => by cases same)
        (fun _ => reached.past rfl) rfl)
    · cases goes
      refine ⟨rfl, rfl, rfl, rfl, Or.inr ⟨rfl, rfl⟩, rfl, fun _ => ⟨rfl, rfl⟩, fun _ _ same => (by cases same),
        Or.inl rfl, by rwa [List.append_nil], ?_⟩
      rw [List.append_nil]
      refine ⟨fun _ => Or.inl rfl, reached.seen, ?_, ?_, reached.written⟩
      · rintro ⟨_, other⟩
        cases other
      · intro isPast
        cases isPast
  · cases goes
    exact @limitKnown_onward _ _ _ _ wellMarked awake 0 tickAt (reached.move (Or.inr fun _ same => by cases same)
      (fun _ same => by cases same) (fun _ => reached.past rfl) rfl) _
  · cases goes
    exact leaving (Or.inr fun _ same => by cases same) rfl
  · cases goes

end Jobs

section Preserved

variable {options : DeployHeartbeatOptions} {history output : List (Signal Outcome)} {state after : Heartbeat Outcome}

theorem WellMarked.append (marked : WellMarked options history)
    (noMark : forall time line, Signal.writes time line ∉ output) : WellMarked options (history ++ output) := by
  refine @EachAt.append _ _ output _ (fun _ => True) marked (fun _ _ => trivial) ?_
  rintro _ _ signal among time line rfl
  exact absurd among (noMark time line)

theorem Reached.append {place : Place} (reached : Reached options history state place)
    (noRefusal : Signal.activeAnswers (.resolved false) ∉ output) (noMark : output.filterMap Signal.writes? = [])
    (noneWritten : output.filterMap Signal.written? = []) : Reached options (history ++ output) state place where
  refused refusal := reached.refused ((List.mem_append.mp refusal).resolve_right noRefusal)
  seen asked some := by
    rcases reached.seen asked some with ⟨tickAt, seen⟩
    exact ⟨tickAt, List.mem_append_left _ seen⟩
  answered isAnswered := by
    rcases reached.answered isAnswered with ⟨tickAt, seen⟩
    exact ⟨tickAt, List.mem_append_left _ seen⟩
  past := reached.past
  written := by
    rw [markTimes, List.filterMap_append, List.filterMap_append, noMark, noneWritten, List.append_nil, List.append_nil]
    exact reached.written

theorem Reached.carry {place : Place} (reached : Reached options history state place)
    (stopped : after.stopped = state.stopped) (markedFrom : after.markedFrom = state.markedFrom) :
    Reached options history after place :=
  ⟨stopped ▸ reached.refused, markedFrom ▸ reached.seen, reached.answered, markedFrom ▸ reached.past, reached.written⟩

theorem Alone.carry (alone : Alone state (Reached options history state)) (marks : after.marks = state.marks)
    (inFlight : after.inFlight = state.inFlight) (stopped : after.stopped = state.stopped)
    (markedFrom : after.markedFrom = state.markedFrom) : Alone after (Reached options history after) := by
  cases alone with
  | idle noMark isFree reached => exact .idle (marks.trans noMark) (inFlight.trans isFree) (reached.carry stopped markedFrom)
  | one tickAt place single isTaken reached =>
      exact .one tickAt place (marks.trans single) (inFlight.trans isTaken) (reached.carry stopped markedFrom)

theorem Alone.found {holds : Place -> Prop} (alone : Alone state holds) {mark : Nat} {found : Mark}
    (isFound : state.marks[mark]? = some found) :
    mark = 0 ∧ state.marks = [found] ∧ state.inFlight = true ∧ holds found.place := by
  cases alone with
  | idle noMark =>
      rw [noMark] at isFound
      cases isFound
  | one tickAt place single isTaken reached =>
      rw [single] at isFound
      cases mark with
      | zero =>
          cases isFound
          exact ⟨rfl, single, isTaken, reached⟩
      | succ mark => cases isFound

theorem Kept.awake (kept : Kept options history state) (going : state.stopped = false) : Awake history state.clock := by
  have untaken : state.work.isTaken = false := by
    by_contra isTaken
    rw [kept.stops ((Bool.not_eq_false _).mp isTaken)] at going
    cases going
  refine ⟨fun takenUp => ?_, fun outcome ended among => ?_⟩
  · rw [kept.taken takenUp] at untaken
    cases untaken
  · have known : (outcome, ended) ∈ history.filterMap Signal.ends? := List.mem_filterMap.mpr ⟨_, among, rfl⟩
    have stands := kept.stands
    generalize state.work = work at stands untaken
    cases stands with
    | running noEnd =>
        rw [noEnd] at known
        cases known
    | ended other isEnd =>
        rw [isEnd] at known
        cases List.mem_singleton.mp known
        rfl
    | settling => cases untaken
    | gone => cases untaken

theorem Kept.pass (kept : Kept options history state) {ms : Nat} (free : state.busy = false)
    (quiet : state.quietUntil (state.clock + ms) = true) : Kept options history { state with clock := state.clock + ms } where
  marked := kept.marked
  stands := by
    have stands := kept.stands
    simp only [Heartbeat.busy, Heartbeat.callDue, Heartbeat.quietUntil, Bool.or_eq_false_iff, Bool.and_eq_true] at free quiet
    generalize state.work = work at stands free quiet ⊢
    cases stands with
    | running noEnd noReturn => exact .running noEnd noReturn
    | ended => cases free.1
    | settling outcome time deadline isEnd noReturn begun within isDeadline =>
        exact .settling outcome time deadline isEnd noReturn (Nat.le_trans begun (Nat.le_add_right _ _))
          (of_decide_eq_true quiet.2) isDeadline
    | gone outcome time returned isEnd isReturn later within => exact .gone outcome time returned isEnd isReturn later within
  taken := kept.taken
  stops := kept.stops
  cleared := kept.cleared
  alone := kept.alone.carry rfl rfl rfl rfl

theorem Kept.tick (kept : Kept options history state) (ticked : tick options state = some (after, output)) :
    Kept options (history ++ output) after := by
  unfold DeployHeartbeat.tick at ticked
  split at ticked
  · cases ticked
  · rename_i due isDue
    have going : state.stopped ≠ true := by
      intro stopped
      rw [kept.cleared stopped] at isDue
      cases isDue
    have alone := kept.alone
    split at ticked
    · split at ticked
      · cases ticked
        rw [List.append_nil]
        exact ⟨kept.marked, kept.stands, kept.taken, kept.stops, fun stopped => absurd stopped going,
          alone.carry rfl rfl rfl rfl⟩
      · rename_i free
        cases alone with
        | one tickAt place single isTaken reached => exact absurd (Or.inr isTaken) free
        | idle noMark isFree reached =>
            split at ticked
            · cases ticked
              rw [List.append_nil]
              exact ⟨kept.marked, kept.stands, kept.taken, kept.stops, fun _ => rfl,
                .idle noMark isFree (reached.carry rfl rfl)⟩
            · cases ticked
              rw [List.append_nil]
              have scheduled := @Reached.move _ _ _ _ .leaves .scheduled reached (Or.inr fun _ same => by cases same)
                (fun _ same => by cases same) (fun isPast => by cases isPast) rfl
              exact ⟨kept.marked, kept.stands, kept.taken, kept.stops, fun stopped => absurd stopped going,
                .one state.clock .scheduled (by rw [noMark]; rfl) rfl (scheduled.carry rfl rfl)⟩
    · cases ticked

theorem Kept.job (kept : Kept options history state) {mark : Nat} {found : Mark} (isFound : state.marks[mark]? = some found)
    {result : Heartbeat Outcome × Place × List (Signal Outcome)}
    (goes : state.goOn options found.tickAt found.place = some result) :
    Kept options (history ++ result.2.2) (result.1.put mark found.tickAt result.2.1) := by
  rcases kept.alone.found isFound with ⟨isFirst, single, isTaken, reached⟩
  have onward := goOn_onward kept.marked kept.awake reached goes
  have unended : result.2.2.filterMap Signal.ends? = [] ∧ result.2.2.filterMap Signal.returns? = [] ∧
      Signal.takenUp ∉ result.2.2 := by
    rcases onward.plain with nothing | ⟨line, only⟩
    · rw [nothing]
      exact ⟨rfl, rfl, List.not_mem_nil⟩
    · rw [only]
      exact ⟨rfl, rfl, fun among => by cases List.mem_singleton.mp among⟩
  refine ⟨onward.marked, ?_, ?_, ?_, onward.cleared kept.cleared, ?_⟩
  · have stands := kept.stands
    rw [← onward.clock, ← onward.work] at stands
    rwa [List.filterMap_append, List.filterMap_append, unended.1, unended.2.1, List.append_nil, List.append_nil]
  · intro takenUp
    exact onward.work ▸ kept.taken ((List.mem_append.mp takenUp).resolve_right unended.2.2)
  · intro isTaken
    exact onward.stopped (kept.stops (onward.work ▸ isTaken))
  · refine .one found.tickAt result.2.1 ?_ (onward.inFlight.trans isTaken) ?_
    · rw [Heartbeat.put, onward.marks, single, isFirst]
      rfl
    · exact onward.reached.carry rfl rfl

theorem Kept.finishes (kept : Kept options history state) {mark tickAt : Nat}
    (isFound : state.marks[mark]? = some ⟨tickAt, .leaves⟩) :
    Kept options history { state with inFlight := false, marks := state.marks.eraseIdx mark } := by
  rcases kept.alone.found isFound with ⟨isFirst, single, _, reached⟩
  refine ⟨kept.marked, kept.stands, kept.taken, kept.stops, kept.cleared, .idle ?_ rfl ?_⟩
  · rw [single, isFirst]
    rfl
  · exact reached.carry rfl rfl

theorem Kept.answers (kept : Kept options history state) {mark tickAt : Nat} {before next : Place}
    (isFound : state.marks[mark]? = some ⟨tickAt, before⟩) (unended : output.filterMap Signal.ends? = [])
    (unreturned : output.filterMap Signal.returns? = []) (untaken : Signal.takenUp ∉ output)
    (noMark : forall time line, Signal.writes time line ∉ output)
    (reaches : Reached options history state before -> Reached options (history ++ output) state next) :
    Kept options (history ++ output) (state.put mark tickAt next) := by
  rcases kept.alone.found isFound with ⟨isFirst, single, isTaken, reached⟩
  have reached := reaches reached
  refine ⟨kept.marked.append noMark, ?_, ?_, kept.stops, kept.cleared, .one tickAt next ?_ isTaken ?_⟩
  · rw [List.filterMap_append, List.filterMap_append, unended, unreturned, List.append_nil, List.append_nil]
    exact kept.stands
  · intro takenUp
    exact kept.taken ((List.mem_append.mp takenUp).resolve_right untaken)
  · rw [Heartbeat.put, single, isFirst]
    rfl
  · exact reached.carry rfl rfl

theorem Kept.ends (kept : Kept options history state) (isRunning : state.work = .running) (outcome : Outcome) :
    Kept options (history ++ [.ends outcome state.clock]) { state with work := .ended outcome } := by
  have stands := kept.stands
  rw [isRunning] at stands
  cases stands with
  | running noEnd noReturn =>
      refine ⟨kept.marked.append (fun _ _ among => by cases List.mem_singleton.mp among), ?_, ?_, fun isTaken => (by cases isTaken),
        kept.cleared, ?_⟩
      · refine .ended outcome ?_ ?_
        · rw [List.filterMap_append, noEnd]
          rfl
        · rw [List.filterMap_append, noReturn]
          rfl
      · intro takenUp
        rcases List.mem_append.mp takenUp with before | new
        · have isTaken := kept.taken before
          rw [isRunning] at isTaken
          cases isTaken
        · cases List.mem_singleton.mp new
      · have more := fun place reached => @Reached.append _ options history [.ends outcome state.clock] state place reached
          (fun among => by cases List.mem_singleton.mp among) rfl rfl
        cases kept.alone with
        | idle noMark isFree reached => exact .idle noMark isFree ((more _ reached).carry rfl rfl)
        | one tickAt place single isTaken reached => exact .one tickAt place single isTaken ((more _ reached).carry rfl rfl)

theorem Kept.moves (kept : Kept options history state) (output : List (Signal Outcome))
    (same : after = { state with stopped := after.stopped, timer := after.timer, work := after.work })
    (isStopped : after.stopped = true) (noTimer : after.timer = none) (isTaken : after.work.isTaken = true)
    (noRefusal : Signal.activeAnswers (.resolved false) ∉ output) (unmarked : output.filterMap Signal.writes? = [])
    (unwritten : output.filterMap Signal.written? = [])
    (stands : Stands options state.clock ((history ++ output).filterMap Signal.ends?)
      ((history ++ output).filterMap Signal.returns?) after.work) : Kept options (history ++ output) after := by
  have clock : after.clock = state.clock := by rw [same]
  have marks : after.marks = state.marks := by rw [same]
  have inFlight : after.inFlight = state.inFlight := by rw [same]
  have markedFrom : after.markedFrom = state.markedFrom := by rw [same]
  have noMark : forall time line, Signal.writes time line ∉ output := by
    intro time line among
    have found : time ∈ output.filterMap Signal.writes? := List.mem_filterMap.mpr ⟨_, among, rfl⟩
    rw [unmarked] at found
    cases found
  have stop : forall place, Reached options history state place -> Reached options (history ++ output) after place := by
    intro place reached
    have more := reached.append noRefusal unmarked unwritten
    exact ⟨fun _ => Or.inl isStopped, markedFrom ▸ more.seen, more.answered, markedFrom ▸ more.past, more.written⟩
  refine ⟨kept.marked.append noMark, clock ▸ stands, fun _ => isTaken, fun _ => isStopped, fun _ => noTimer, ?_⟩
  cases kept.alone with
  | idle noMark isFree reached => exact .idle (marks.trans noMark) (inFlight.trans isFree) (stop _ reached)
  | one tickAt place single isTaken reached =>
      exact .one tickAt place (marks.trans single) (inFlight.trans isTaken) (stop _ reached)

theorem Kept.returns (kept : Kept options history state) {outcome : Outcome} {deadline : Nat}
    (isSettling : state.work = .settling outcome deadline) :
    Kept options (history ++ [.returns outcome state.clock]) { state with work := .gone } := by
  have stopped : state.stopped = true := kept.stops (by rw [isSettling]; rfl)
  refine kept.moves [.returns outcome state.clock] rfl stopped (kept.cleared stopped) rfl (by simp) rfl rfl ?_
  have stands := kept.stands
  have settle := delayOf_le options.settleMs
  rw [isSettling] at stands
  cases stands with
  | settling outcome time deadline isEnd noReturn begun within isDeadline =>
      refine .gone outcome time state.clock ?_ ?_ begun ?_
      · rw [List.filterMap_append, isEnd]
        rfl
      · rw [List.filterMap_append, noReturn]
        rfl
      · unfold DeployHeartbeatOptions.settle
        omega

theorem Kept.resume (kept : Kept options history state) (resumed : resume options state = some (after, output)) :
    Kept options (history ++ output) after := by
  have stands := kept.stands
  unfold DeployHeartbeat.resume at resumed
  generalize isWork : state.work = work at stands resumed
  cases stands with
  | running => cases resumed
  | gone => cases resumed
  | ended outcome isEnd noReturn =>
      simp only at resumed
      split at resumed
      · cases resumed
        refine kept.moves [.takenUp] rfl rfl rfl rfl (by simp) rfl rfl ?_
        refine .settling outcome state.clock _ ?_ ?_ (Nat.le_refl _) (Nat.le_add_right _ _) rfl
        · rw [List.filterMap_append, isEnd]
          rfl
        · rw [List.filterMap_append, noReturn]
          rfl
      · cases resumed
        refine kept.moves [.takenUp, .returns outcome state.clock] rfl rfl rfl rfl (by simp) rfl rfl ?_
        refine .gone outcome state.clock state.clock ?_ ?_ (Nat.le_refl _) (Nat.le_add_right _ _)
        · rw [List.filterMap_append, isEnd]
          rfl
        · rw [List.filterMap_append, noReturn]
          rfl
  | settling outcome time deadline =>
      simp only at resumed
      split at resumed
      · cases resumed
      · cases resumed
        exact kept.returns isWork

theorem Kept.timeout (kept : Kept options history state) (fired : timeout state = some (after, output)) :
    Kept options (history ++ output) after := by
  unfold DeployHeartbeat.timeout at fired
  split at fired
  · rename_i outcome deadline isSettling
    split at fired
    · cases fired
      exact kept.returns isSettling
    · cases fired
  · cases fired

theorem step_kept (kept : Kept options history state) {event : Event Outcome}
    (stepped : step options state event = some (after, output)) : Kept options (history ++ output) after := by
  cases event with
  | pass ms =>
      simp only [step] at stepped
      split at stepped
      · rename_i quiet
        cases stepped
        rw [List.append_nil]
        exact kept.pass quiet.1 quiet.2
      · cases stepped
  | tick => exact kept.tick stepped
  | job mark =>
      rcases Option.bind_eq_some_iff.mp stepped with ⟨found, isFound, mapped⟩
      rcases Option.map_eq_some_iff.mp mapped with ⟨result, goes, same⟩
      cases same
      exact kept.job isFound goes
  | finishes mark =>
      simp only [step] at stepped
      split at stepped
      · rename_i tickAt isFound
        cases stepped
        rw [List.append_nil]
        exact kept.finishes isFound
      · cases stepped
  | readyAnswers mark answer =>
      simp only [step] at stepped
      split at stepped
      · rename_i tickAt since isFound
        cases stepped
        refine kept.answers isFound rfl rfl (by simp) (by simp) fun reached => ?_
        have more := @Reached.append _ _ _ [.readyAnswers tickAt answer] _ _ reached (by simp) rfl rfl
        refine ⟨fun refusal => Or.inl ((more.refused refusal).resolve_right ?_), more.seen, ?_, fun isPast => (by cases isPast),
          more.written⟩
        · rintro ⟨_, other⟩
          cases other
        · rintro ⟨_, same⟩
          cases same
          exact ⟨tickAt, List.mem_append_right _ List.mem_cons_self⟩
      · cases stepped
  | activeAnswers mark answer =>
      simp only [step] at stepped
      split at stepped
      · rename_i tickAt since isFound
        cases stepped
        refine kept.answers isFound rfl rfl (by simp) (by simp) fun reached => ⟨?_, ?_, ?_, fun _ => reached.past rfl, ?_⟩
        · intro refusal
          rcases List.mem_append.mp refusal with before | new
          · exact Or.inl ((reached.refused before).resolve_right fun ⟨_, other⟩ => by cases other)
          · cases List.mem_singleton.mp new
            exact Or.inr ⟨since, rfl⟩
        · intro asked some
          rcases reached.seen asked some with ⟨seenAt, seen⟩
          exact ⟨seenAt, List.mem_append_left _ seen⟩
        · rintro ⟨_, other⟩
          cases other
        · have before := reached.written
          simp only [Place.isOpen, Bool.false_eq_true, if_false, Nat.add_zero] at before ⊢
          simpa [markTimes, Signal.writes?, Signal.written?, List.filterMap_append, List.filterMap_cons] using before
      · cases stepped
  | limitAnswers mark answer =>
      simp only [step] at stepped
      split at stepped
      · rename_i tickAt since isFound
        cases stepped
        refine kept.answers isFound rfl rfl (by simp) (by simp) fun reached => ?_
        rw [List.append_nil]
        exact reached.move (Or.inr fun _ same => by cases same) (fun _ same => by cases same) (fun _ => reached.past rfl) rfl
      · cases stepped
  | writeAnswers mark answer =>
      simp only [step] at stepped
      split at stepped
      · rename_i tickAt since isFound
        cases stepped
        refine kept.answers isFound rfl rfl (by simp) (by simp) fun reached => ⟨?_, ?_, ?_, fun _ => reached.past rfl, ?_⟩
        · intro refusal
          rcases List.mem_append.mp refusal with before | new
          · exact Or.inl ((reached.refused before).resolve_right fun ⟨_, other⟩ => by cases other)
          · cases List.mem_singleton.mp new
        · intro asked some
          rcases reached.seen asked some with ⟨seenAt, seen⟩
          exact ⟨seenAt, List.mem_append_left _ seen⟩
        · rintro ⟨_, other⟩
          cases other
        · have before := reached.written
          simp only [Place.isOpen, if_true] at before
          simp [markTimes, Signal.writes?, Signal.written?, Place.isOpen, List.filterMap_append, ← before]
      · cases stepped
  | ends outcome =>
      simp only [step] at stepped
      split at stepped
      · rename_i isRunning
        cases stepped
        exact kept.ends isRunning outcome
      · cases stepped
  | resume => exact kept.resume stepped
  | timeout => exact kept.timeout stepped

theorem kept_fresh (options : DeployHeartbeatOptions) (startedAt : Nat) :
    Kept options [] (.fresh options startedAt : Heartbeat Outcome) := by
  refine ⟨EachAt.nil, .running rfl rfl, ?_, ?_, ?_, .idle rfl rfl ?_⟩
  · intro takenUp
    cases takenUp
  · intro isTaken
    cases isTaken
  · intro stopped
    cases stopped
  · refine ⟨?_, ?_, ?_, ?_, rfl⟩
    · intro refusal
      cases refusal
    · intro asked some
      simp only [Heartbeat.fresh, asked, if_true] at some
      cases some
    · rintro ⟨_, other⟩
      cases other
    · intro isPast
      cases isPast

theorem kept_of_run {startedAt : Nat} {guard : Heartbeat Outcome -> Event Outcome -> Prop}
    (run : (withDeployHeartbeat options startedAt).Run guard history state) : Kept options history state :=
  run.invariant (Kept options) (kept_fresh options startedAt) fun _ _ _ _ _ _ kept _ stepped => step_kept kept stepped

end Preserved

end DeployHeartbeat
end Dokploy
