import Mathlib.Data.List.Basic
import Mathlib.Logic.Function.Basic

namespace Dokploy
namespace Foundation

/-!
# Shell scripts

A script asks the host to run commands, and each of them may end with any status.
With errexit on, the shell ends at the first simple command that fails outside of a
condition.  A subshell begins with the variables and options of the shell and gives
back nothing but its status.

What a script does is a relation between states, since the outcomes are not its own.
Every command has one rule that says what its runs are, and scripts are taken apart
with these.
-/

namespace Shell

/-- How a command of the host has ended.  The output is without its last line feeds. -/
structure Outcome (Effect : Type) where
  status : Nat
  output : List Char
  effect : Effect

/-- Commands over the operations of a host.  Words are expanded when they are reached. -/
inductive Command (Op Var : Type) where
  | echo
  | assign (var : Var) (value : (Var -> List Char) -> List Char)
  | run (op : (Var -> List Char) -> Op)
  /-- var=$(op) -/
  | capture (var : Var) (op : (Var -> List Char) -> Op)
  /-- var=$? -/
  | saveStatus (var : Var)
  /-- set -e, set +e -/
  | errexit (on : Bool)
  | seq (first second : Command Op Var)
  | subshell (body : Command Op Var)
  /-- if op; then body; else otherwise; fi -/
  | ifRuns (op : (Var -> List Char) -> Op) (body otherwise : Command Op Var)
  /-- if [ "$var" -ne 0 ]; then body; fi -/
  | ifFailed (var : Var) (body : Command Op Var)
  /-- while ! op; do body; done -/
  | untilRuns (op : (Var -> List Char) -> Op) (body : Command Op Var)
  /-- exit "$var" -/
  | exitWith (var : Var)
  /-- trap op EXIT -/
  | trap (op : (Var -> List Char) -> Op)

variable {Op Var Effect : Type}

def block : List (Command Op Var) -> Command Op Var
  | [] => .echo
  | [command] => command
  | command :: commands => .seq command (block commands)

/-- A shell between two commands.  A variable that holds a saved status is a number. -/
structure State (Op Var Effect : Type) where
  vars : Var -> List Char
  codes : Var -> Nat
  errexit : Bool
  status : Nat
  onExit : Option ((Var -> List Char) -> Op)
  trace : List (Op × Outcome Effect)

namespace State

def fresh : State Op Var Effect where
  vars := fun _ => []
  codes := fun _ => 0
  errexit := false
  status := 0
  onExit := none
  trace := []

def asked (state : State Op Var Effect) (op : Op) (outcome : Outcome Effect) : State Op Var Effect :=
  { state with trace := state.trace ++ [(op, outcome)], status := outcome.status }

def succeed (state : State Op Var Effect) : State Op Var Effect := { state with status := 0 }

end State

/-- The shell goes on, or it has ended with its last status. -/
inductive Result (Op Var Effect : Type) where
  | normal (state : State Op Var Effect)
  | exited (state : State Op Var Effect)

def Result.state : Result Op Var Effect -> State Op Var Effect
  | .normal state | .exited state => state

/-- What errexit makes of the status of a simple command. -/
def State.settle (state : State Op Var Effect) : Result Op Var Effect :=
  if state.errexit = true ∧ state.status ≠ 0 then .exited state else .normal state

theorem settle_of_off {state : State Op Var Effect} (off : state.errexit = false) : state.settle = .normal state := by
  simp [State.settle, off]

theorem settle_of_success {state : State Op Var Effect} (zero : state.status = 0) : state.settle = .normal state := by
  simp [State.settle, zero]

theorem settle_of_failure {state : State Op Var Effect} (on : state.errexit = true) (failed : state.status ≠ 0) :
    state.settle = .exited state := by
  simp [State.settle, on, failed]

theorem settle_normal {state middle : State Op Var Effect} (same : state.settle = .normal middle) :
    middle = state ∧ (state.errexit = true -> state.status = 0) := by
  unfold State.settle at same
  split at same
  · cases same
  · rename_i goesOn
    cases same
    refine ⟨rfl, fun on => ?_⟩
    by_contra failed
    exact goesOn ⟨on, failed⟩

theorem settle_exited {state ended : State Op Var Effect} (same : state.settle = .exited ended) :
    ended = state ∧ state.status ≠ 0 := by
  unfold State.settle at same
  split at same
  · rename_i fails
    cases same
    exact ⟨rfl, fails.2⟩
  · cases same

@[simp] theorem settle_state (state : State Op Var Effect) : state.settle.state = state := by
  unfold State.settle
  split <;> rfl

/-- The end of a shell: its trap runs, and the status stays what it was. -/
inductive Closes (state : State Op Var Effect) : List (Op × Outcome Effect) -> Prop where
  | plain : state.onExit = none -> Closes state state.trace
  | trapped {op : (Var -> List Char) -> Op} (outcome : Outcome Effect) : state.onExit = some op ->
      Closes state (state.trace ++ [(op state.vars, outcome)])

theorem closes_iff {state : State Op Var Effect} {trace : List (Op × Outcome Effect)} (untrapped : state.onExit = none) :
    Closes state trace <-> trace = state.trace := by
  constructor
  · intro closes
    cases closes with
    | plain _ => rfl
    | trapped outcome isTrap => rw [untrapped] at isTrap; cases isTrap
  · rintro rfl
    exact .plain untrapped

section

variable [DecidableEq Var]

inductive Eval : Command Op Var -> State Op Var Effect -> Result Op Var Effect -> Prop where
  | echo (state) : Eval .echo state (.normal state.succeed)
  | assign (var value state) :
      Eval (.assign var value) state (.normal { state.succeed with vars := Function.update state.vars var (value state.vars) })
  | run (op state outcome) : Eval (.run op) state (state.asked (op state.vars) outcome).settle
  | capture (var op state outcome) : Eval (.capture var op) state
      ({ state.asked (op state.vars) outcome with vars := Function.update state.vars var outcome.output }).settle
  | saveStatus (var state) :
      Eval (.saveStatus var) state (.normal { state.succeed with codes := Function.update state.codes var state.status })
  | errexit (on state) : Eval (.errexit on) state (.normal { state.succeed with errexit := on })
  | seq {first second state middle result} : Eval first state (.normal middle) -> Eval second middle result ->
      Eval (.seq first second) state result
  | seqExit {first second state ended} : Eval first state (.exited ended) -> Eval (.seq first second) state (.exited ended)
  | subshell {body state result trace} : Eval body { state with onExit := none } result -> Closes result.state trace ->
      Eval (.subshell body) state ({ state with trace := trace, status := result.state.status }).settle
  | ifRuns {op body otherwise state result} (outcome) : outcome.status = 0 ->
      Eval body (state.asked (op state.vars) outcome) result -> Eval (.ifRuns op body otherwise) state result
  | ifNot {op body otherwise state result} (outcome) : outcome.status ≠ 0 ->
      Eval otherwise (state.asked (op state.vars) outcome) result -> Eval (.ifRuns op body otherwise) state result
  | ifFailed {var body state result} : state.codes var ≠ 0 -> Eval body state.succeed result ->
      Eval (.ifFailed var body) state result
  | ifSucceeded {var body state} : state.codes var = 0 -> Eval (.ifFailed var body) state (.normal state.succeed)
  | untilDone {op body state} (outcome) : outcome.status = 0 ->
      Eval (.untilRuns op body) state (.normal (state.asked (op state.vars) outcome))
  | untilAgain {op body state middle result} (outcome) : outcome.status ≠ 0 ->
      Eval body (state.asked (op state.vars) outcome) (.normal middle) -> Eval (.untilRuns op body) middle result ->
      Eval (.untilRuns op body) state result
  | untilExit {op body state ended} (outcome) : outcome.status ≠ 0 ->
      Eval body (state.asked (op state.vars) outcome) (.exited ended) -> Eval (.untilRuns op body) state (.exited ended)
  | exitWith (var state) : Eval (.exitWith var) state (.exited { state with status := state.codes var })
  | trap (op state) : Eval (.trap op) state (.normal { state.succeed with onExit := some op })

/-- A shell that runs a script to its end: everything it asked for, and its exit status. -/
inductive Ends (script : Command Op Var) : List (Op × Outcome Effect) -> Nat -> Prop where
  | intro {result : Result Op Var Effect} {trace : List (Op × Outcome Effect)} :
      Eval script .fresh result -> Closes result.state trace -> Ends script trace result.state.status

section Rules

variable {state : State Op Var Effect} {result : Result Op Var Effect}

@[simp] theorem eval_echo : Eval .echo state result <-> result = .normal state.succeed :=
  ⟨fun eval => by cases eval; rfl, fun same => same ▸ .echo state⟩

theorem eval_run {op : (Var -> List Char) -> Op} :
    Eval (.run op) state result <-> Exists fun outcome => result = (state.asked (op state.vars) outcome).settle :=
  ⟨fun eval => by cases eval with | run _ _ outcome => exact ⟨outcome, rfl⟩, fun ⟨outcome, same⟩ => same ▸ .run op state outcome⟩

theorem eval_capture {var : Var} {op : (Var -> List Char) -> Op} :
    Eval (.capture var op) state result <-> Exists fun outcome => result =
      ({ state.asked (op state.vars) outcome with vars := Function.update state.vars var outcome.output }).settle :=
  ⟨fun eval => by cases eval with | capture _ _ _ outcome => exact ⟨outcome, rfl⟩,
    fun ⟨outcome, same⟩ => same ▸ .capture var op state outcome⟩

@[simp] theorem eval_saveStatus {var : Var} : Eval (.saveStatus var) state result <->
    result = .normal { state.succeed with codes := Function.update state.codes var state.status } :=
  ⟨fun eval => by cases eval; rfl, fun same => same ▸ .saveStatus var state⟩

@[simp] theorem eval_errexit {on : Bool} :
    Eval (.errexit on) state result <-> result = .normal { state.succeed with errexit := on } :=
  ⟨fun eval => by cases eval; rfl, fun same => same ▸ .errexit on state⟩

@[simp] theorem eval_exitWith {var : Var} :
    Eval (.exitWith var) state result <-> result = .exited { state with status := state.codes var } :=
  ⟨fun eval => by cases eval; rfl, fun same => same ▸ .exitWith var state⟩

theorem eval_subshell {body : Command Op Var} : Eval (.subshell body) state result <-> Exists fun inner =>
    Exists fun trace => Eval body { state with onExit := none } inner ∧ Closes inner.state trace ∧
      result = ({ state with trace := trace, status := inner.state.status }).settle := by
  constructor
  · intro eval
    cases eval with
    | subshell inner closes => exact ⟨_, _, inner, closes, rfl⟩
  · rintro ⟨inner, trace, eval, closes, rfl⟩
    exact .subshell eval closes

theorem eval_subshell_of_off {body : Command Op Var} (off : state.errexit = false) :
    Eval (.subshell body) state result <-> Exists fun inner => Exists fun trace =>
      Eval body { state with onExit := none } inner ∧ Closes inner.state trace ∧
        result = .normal { state with trace := trace, status := inner.state.status } := by
  rw [eval_subshell]
  refine exists_congr fun inner => exists_congr fun trace => ?_
  have goesOn : State.settle { state with trace := trace, status := inner.state.status } = .normal _ := settle_of_off off
  rw [goesOn]

theorem eval_ifFailed {var : Var} {body : Command Op Var} : Eval (.ifFailed var body) state result <->
    (state.codes var ≠ 0 ∧ Eval body state.succeed result) ∨ (state.codes var = 0 ∧ result = .normal state.succeed) := by
  constructor
  · intro eval
    cases eval with
    | ifFailed failed body => exact Or.inl ⟨failed, body⟩
    | ifSucceeded succeeded => exact Or.inr ⟨succeeded, rfl⟩
  · rintro (⟨failed, body⟩ | ⟨succeeded, rfl⟩)
    · exact .ifFailed failed body
    · exact .ifSucceeded succeeded

theorem eval_seq {first second : Command Op Var} : Eval (.seq first second) state result <->
    (Exists fun middle => Eval first state (.normal middle) ∧ Eval second middle result) ∨
      Exists fun ended => Eval first state (.exited ended) ∧ result = .exited ended := by
  constructor
  · intro eval
    cases eval with
    | seq isFirst isSecond => exact Or.inl ⟨_, isFirst, isSecond⟩
    | seqExit ended => exact Or.inr ⟨_, ended, rfl⟩
  · rintro (⟨middle, isFirst, isSecond⟩ | ⟨ended, exits, rfl⟩)
    · exact .seq isFirst isSecond
    · exact .seqExit exits

@[simp] theorem eval_echo_seq {second : Command Op Var} :
    Eval (.seq .echo second) state result <-> Eval second state.succeed result := by
  simp [eval_seq]

@[simp] theorem eval_errexit_seq {on : Bool} {second : Command Op Var} :
    Eval (.seq (.errexit on) second) state result <-> Eval second { state.succeed with errexit := on } result := by
  simp [eval_seq]

@[simp] theorem eval_saveStatus_seq {var : Var} {second : Command Op Var} :
    Eval (.seq (.saveStatus var) second) state result <->
      Eval second { state.succeed with codes := Function.update state.codes var state.status } result := by
  simp [eval_seq]

theorem eval_run_of_on {op : (Var -> List Char) -> Op} (on : state.errexit = true) :
    Eval (.run op) state result <-> Exists fun outcome =>
      (outcome.status = 0 ∧ result = .normal (state.asked (op state.vars) outcome)) ∨
        (outcome.status ≠ 0 ∧ result = .exited (state.asked (op state.vars) outcome)) := by
  rw [eval_run]
  refine exists_congr fun outcome => ?_
  by_cases failed : outcome.status = 0
  · have goesOn : (state.asked (op state.vars) outcome).settle = .normal _ := settle_of_success failed
    simp [failed, goesOn]
  · have stops : (state.asked (op state.vars) outcome).settle = .exited _ := settle_of_failure on failed
    simp [failed, stops]

theorem eval_run_seq {op : (Var -> List Char) -> Op} {second : Command Op Var} (on : state.errexit = true) :
    Eval (.seq (.run op) second) state result <-> Exists fun outcome =>
      (outcome.status = 0 ∧ Eval second (state.asked (op state.vars) outcome) result) ∨
        (outcome.status ≠ 0 ∧ result = .exited (state.asked (op state.vars) outcome)) := by
  simp only [eval_seq, eval_run]
  constructor
  · rintro (⟨middle, ⟨outcome, goesOn⟩, rest⟩ | ⟨ended, ⟨outcome, exits⟩, rfl⟩)
    · obtain ⟨rfl, succeeded⟩ := settle_normal goesOn.symm
      exact ⟨outcome, Or.inl ⟨succeeded on, rest⟩⟩
    · obtain ⟨rfl, failed⟩ := settle_exited exits.symm
      exact ⟨outcome, Or.inr ⟨failed, rfl⟩⟩
  · rintro ⟨outcome, ⟨succeeded, rest⟩ | ⟨failed, rfl⟩⟩
    · exact Or.inl ⟨_, ⟨outcome, (settle_of_success succeeded).symm⟩, rest⟩
    · have stops : (state.asked (op state.vars) outcome).settle = .exited _ := settle_of_failure on failed
      exact Or.inr ⟨_, ⟨outcome, stops.symm⟩, rfl⟩

theorem eval_capture_seq {var : Var} {op : (Var -> List Char) -> Op} {second : Command Op Var} (on : state.errexit = true) :
    Eval (.seq (.capture var op) second) state result <-> Exists fun outcome =>
      (outcome.status = 0 ∧
        Eval second { state.asked (op state.vars) outcome with vars := Function.update state.vars var outcome.output } result) ∨
      (outcome.status ≠ 0 ∧
        result = .exited { state.asked (op state.vars) outcome with vars := Function.update state.vars var outcome.output }) := by
  simp only [eval_seq, eval_capture]
  constructor
  · rintro (⟨middle, ⟨outcome, goesOn⟩, rest⟩ | ⟨ended, ⟨outcome, exits⟩, rfl⟩)
    · obtain ⟨rfl, succeeded⟩ := settle_normal goesOn.symm
      exact ⟨outcome, Or.inl ⟨succeeded on, rest⟩⟩
    · obtain ⟨rfl, failed⟩ := settle_exited exits.symm
      exact ⟨outcome, Or.inr ⟨failed, rfl⟩⟩
  · rintro ⟨outcome, ⟨succeeded, rest⟩ | ⟨failed, rfl⟩⟩
    · exact Or.inl ⟨_, ⟨outcome, (settle_of_success succeeded).symm⟩, rest⟩
    · refine Or.inr ⟨_, ⟨outcome, Eq.symm ?_⟩, rfl⟩
      exact settle_of_failure on failed

end Rules

/-- A command that asks for allowed operations only, in its traps as well. -/
def Command.Asks (allowed : Op -> Prop) : Command Op Var -> Prop
  | .echo | .assign _ _ | .saveStatus _ | .errexit _ | .exitWith _ => True
  | .run op | .capture _ op | .trap op => forall vars, allowed (op vars)
  | .seq first second => first.Asks allowed ∧ second.Asks allowed
  | .subshell body | .ifFailed _ body => body.Asks allowed
  | .ifRuns op body otherwise => (forall vars, allowed (op vars)) ∧ body.Asks allowed ∧ otherwise.Asks allowed
  | .untilRuns op body => (forall vars, allowed (op vars)) ∧ body.Asks allowed

/-- The trace grows, and by nothing but allowed operations. -/
def Grows (allowed : Op -> Prop) (trace after : List (Op × Outcome Effect)) : Prop :=
  Exists fun added => after = trace ++ added ∧ forall entry, entry ∈ added -> allowed entry.1

section Growth

variable {allowed : Op -> Prop} {trace after last : List (Op × Outcome Effect)}

theorem Grows.refl (trace : List (Op × Outcome Effect)) : Grows allowed trace trace :=
  ⟨[], by simp, by simp⟩

theorem Grows.trans (first : Grows allowed trace after) (second : Grows allowed after last) : Grows allowed trace last := by
  obtain ⟨added, rfl, isAllowed⟩ := first
  obtain ⟨more, rfl, moreAllowed⟩ := second
  refine ⟨added ++ more, by simp, fun entry present => ?_⟩
  rcases List.mem_append.mp present with among | among
  · exact isAllowed entry among
  · exact moreAllowed entry among

theorem Grows.asked (op : Op) (outcome : Outcome Effect) (isAllowed : allowed op) : Grows allowed trace (trace ++ [(op, outcome)]) := by
  refine ⟨[(op, outcome)], rfl, fun entry present => ?_⟩
  rw [List.mem_singleton] at present
  rw [present]
  exact isAllowed

/-- What a shell would ask for at its end is allowed. -/
def State.Leaves (allowed : Op -> Prop) (state : State Op Var Effect) : Prop :=
  forall op, state.onExit = some op -> forall vars, allowed (op vars)

omit [DecidableEq Var] in
theorem Closes.grows {state : State Op Var Effect} (closes : Closes state after) (leaves : state.Leaves allowed) :
    Grows allowed state.trace after := by
  cases closes with
  | plain _ => exact Grows.refl _
  | trapped outcome isTrap => exact Grows.asked _ outcome (leaves _ isTrap _)

theorem Eval.grows {command : Command Op Var} {state : State Op Var Effect} {result : Result Op Var Effect}
    (eval : Eval command state result) (asks : command.Asks allowed) (leaves : state.Leaves allowed) :
    Grows allowed state.trace result.state.trace ∧ result.state.Leaves allowed := by
  induction eval with
  | echo | assign | saveStatus | errexit | exitWith => exact ⟨Grows.refl _, leaves⟩
  | run op state outcome =>
    rw [settle_state]
    exact ⟨Grows.asked _ outcome (asks _), leaves⟩
  | capture var op state outcome =>
    rw [settle_state]
    exact ⟨Grows.asked _ outcome (asks _), leaves⟩
  | trap op state =>
    refine ⟨Grows.refl _, fun set isSet vars => ?_⟩
    cases isSet
    exact asks vars
  | seq _ _ first second =>
    obtain ⟨toMiddle, leavesMiddle⟩ := first asks.1 leaves
    obtain ⟨toEnd, leavesEnd⟩ := second asks.2 leavesMiddle
    exact ⟨toMiddle.trans toEnd, leavesEnd⟩
  | seqExit _ first => exact first asks.1 leaves
  | subshell _ closes inner =>
    obtain ⟨toEnd, leavesEnd⟩ := inner asks (by simp [State.Leaves])
    rw [settle_state]
    exact ⟨toEnd.trans (closes.grows leavesEnd), leaves⟩
  | ifRuns outcome _ _ body =>
    obtain ⟨toEnd, leavesEnd⟩ := body asks.2.1 leaves
    exact ⟨(Grows.asked _ outcome (asks.1 _)).trans toEnd, leavesEnd⟩
  | ifNot outcome _ _ body =>
    obtain ⟨toEnd, leavesEnd⟩ := body asks.2.2 leaves
    exact ⟨(Grows.asked _ outcome (asks.1 _)).trans toEnd, leavesEnd⟩
  | ifFailed _ _ body => exact body asks leaves
  | ifSucceeded => exact ⟨Grows.refl _, leaves⟩
  | untilDone outcome _ => exact ⟨Grows.asked _ outcome (asks.1 _), leaves⟩
  | untilAgain outcome _ _ _ body again =>
    obtain ⟨toMiddle, leavesMiddle⟩ := body asks.2 leaves
    obtain ⟨toEnd, leavesEnd⟩ := again asks leavesMiddle
    exact ⟨((Grows.asked _ outcome (asks.1 _)).trans toMiddle).trans toEnd, leavesEnd⟩
  | untilExit outcome _ _ body =>
    obtain ⟨toEnd, leavesEnd⟩ := body asks.2 leaves
    exact ⟨(Grows.asked _ outcome (asks.1 _)).trans toEnd, leavesEnd⟩

end Growth

/-- No set and no exit in the shell itself. -/
def Command.Steady : Command Op Var -> Prop
  | .echo | .assign _ _ | .saveStatus _ | .run _ | .capture _ _ | .trap _ | .subshell _ => True
  | .errexit _ | .exitWith _ => False
  | .seq first second => first.Steady ∧ second.Steady
  | .ifFailed _ body => body.Steady
  | .ifRuns _ body otherwise => body.Steady ∧ otherwise.Steady
  | .untilRuns _ body => body.Steady

/-- errexit is as before, and the shell has ended by a failure if it has ended. -/
def Result.Kept (result : Result Op Var Effect) (on : Bool) : Prop :=
  result.state.errexit = on ∧ forall ended, result = .exited ended -> ended.status ≠ 0

omit [DecidableEq Var] in
theorem kept_settle (state : State Op Var Effect) : state.settle.Kept state.errexit := by
  refine ⟨by rw [settle_state], fun ended exits => ?_⟩
  obtain ⟨rfl, failed⟩ := settle_exited exits
  exact failed

omit [DecidableEq Var] in
theorem kept_normal (state : State Op Var Effect) : (Result.normal state).Kept state.errexit :=
  ⟨rfl, fun _ exits => nomatch exits⟩

theorem Eval.kept {command : Command Op Var} {state : State Op Var Effect} {result : Result Op Var Effect}
    (eval : Eval command state result) (steady : command.Steady) : result.Kept state.errexit := by
  induction eval with
  | echo | assign | saveStatus | trap | ifSucceeded | untilDone => exact kept_normal _
  | errexit | exitWith => exact steady.elim
  | run | capture | subshell => exact kept_settle _
  | seq _ _ first second =>
    have keptFirst := (first steady.1).1
    have keptSecond := second steady.2
    exact keptFirst ▸ keptSecond
  | seqExit _ first => exact first steady.1
  | ifRuns _ _ _ body => exact body steady.1
  | ifNot _ _ _ body => exact body steady.2
  | ifFailed _ _ body => exact body steady
  | untilAgain _ _ _ _ body again =>
    have keptBody := (body steady).1
    have keptAgain := again steady
    exact keptBody ▸ keptAgain
  | untilExit _ _ _ body => exact body steady

end

end Shell
end Foundation
end Dokploy
