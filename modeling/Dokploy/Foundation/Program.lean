import Mathlib.Data.List.Basic
import Mathlib.Logic.Relation

namespace Dokploy
namespace Foundation

/-!
# Programs that run among others

A program asks for one operation after the other and goes on with the answer; it
ends with a result or with an error.  Between two operations others may change
the state.  What a world does with an operation is a relation, so one operation
can have several outcomes.

A run keeps the events of the program in order.  An assertion about a program is
made backwards: every event satisfies a guarantee, which may speak of the events
before it, and the end satisfies a postcondition.  Such assertions are put
together along the program and hold of every run of it, also of one that has not
ended.
-/

inductive Program (Op : Type) (Answer : Op -> Type) (Error Result : Type) where
  | done (result : Result)
  | thrown (error : Error)
  | ask (op : Op) (next : Answer op -> Program Op Answer Error Result)

namespace Program

variable {Op : Type} {Answer : Op -> Type} {Error Result Other : Type}

def perform (op : Op) : Program Op Answer Error (Answer op) := .ask op .done

/-- Go on with the result; an error is passed on. -/
def bind : Program Op Answer Error Result -> (Result -> Program Op Answer Error Other) ->
    Program Op Answer Error Other
  | .done result, next => next result
  | .thrown error, _ => .thrown error
  | .ask op following, next => .ask op fun answer => (following answer).bind next

instance : Monad (Program Op Answer Error) where
  pure := .done
  bind := Program.bind

def attempt : Program Op Answer Error Result -> Program Op Answer Error (Except Error Result)
  | .done result => .done (.ok result)
  | .thrown error => .done (.error error)
  | .ask op next => .ask op fun answer => (next answer).attempt

/-- An answer that is an error ends the program. -/
def orThrow (program : Program Op Answer Error (Except Error Result)) : Program Op Answer Error Result :=
  program >>= fun answer =>
    match answer with
    | .ok result => .done result
    | .error error => .thrown error

theorem bind_assoc {Last : Type} (program : Program Op Answer Error Result)
    (next : Result -> Program Op Answer Error Other) (last : Other -> Program Op Answer Error Last) :
    (program >>= next >>= last) = (program >>= fun result => next result >>= last) := by
  induction program with
  | done result => rfl
  | thrown error => rfl
  | ask op following ih => exact congrArg (Program.ask op) (funext ih)

/-- The program asks for operations of one kind only. -/
def Asks (allowed : Op -> Prop) : Program Op Answer Error Result -> Prop
  | .done _ => True
  | .thrown _ => True
  | .ask op next => allowed op ∧ forall answer, Asks allowed (next answer)

variable {program : Program Op Answer Error Result} {allowed : Op -> Prop}

theorem Asks.bind
    {next : Result -> Program Op Answer Error Other} (first : program.Asks allowed)
    (second : forall result, (next result).Asks allowed) : (program >>= next).Asks allowed := by
  induction program with
  | done result => exact second result
  | thrown error => trivial
  | ask op following ih => exact ⟨first.1, fun answer => ih answer (first.2 answer)⟩

theorem Asks.attempt
    (asks : program.Asks allowed) : program.attempt.Asks allowed := by
  induction program with
  | done result => trivial
  | thrown error => trivial
  | ask op following ih => exact ⟨asks.1, fun answer => ih answer (asks.2 answer)⟩

theorem Asks.perform {allowed : Op -> Prop} {op : Op} (kind : allowed op) :
    (perform op : Program Op Answer Error (Answer op)).Asks allowed := ⟨kind, fun _ => trivial⟩

theorem Asks.orThrow {program : Program Op Answer Error (Except Error Result)}
    (asks : program.Asks allowed) : program.orThrow.Asks allowed :=
  asks.bind fun answer => by cases answer <;> trivial

theorem Asks.mono {more : Op -> Prop}
    (asks : program.Asks allowed) (weaker : forall op, allowed op -> more op) : program.Asks more := by
  induction program with
  | done result => trivial
  | thrown error => trivial
  | ask op next ih =>
      exact ⟨weaker op asks.1, fun answer => ih answer (asks.2 answer)⟩

theorem asks_any (program : Program Op Answer Error Result) : program.Asks fun _ => True := by
  induction program with
  | done result => trivial
  | thrown error => trivial
  | ask op next ih => exact ⟨trivial, ih⟩

theorem Asks.ite {condition : Prop} [Decidable condition]
    {yes no : Program Op Answer Error Result} (first : yes.Asks allowed) (second : no.Asks allowed) :
    (if condition then yes else no).Asks allowed := by
  split
  · exact first
  · exact second

end Program

/-- An operation with what it found, answered and left. -/
structure Event (State Op : Type) (Answer : Op -> Type) where
  before : State
  op : Op
  answer : Answer op
  after : State

/-- What happens when every operation is answered by a function of it. -/
def Program.answeredBy {State Op : Type} {Answer : Op -> Type} {Error Result : Type} (state : State)
    (answers : forall op, Answer op) :
    Program Op Answer Error Result -> List (Event State Op Answer) × Except Error Result
  | .done result => ([], .ok result)
  | .thrown error => ([], .error error)
  | .ask op next =>
      (⟨state, op, answers op, state⟩ :: (answeredBy state answers (next (answers op))).1,
        (answeredBy state answers (next (answers op))).2)

/-- What happens when every operation is performed by a function of the state: the events, where it ends and how. -/
def Program.performed {State Op : Type} {Answer : Op -> Type} {Error Result : Type}
    (perform : State -> (op : Op) -> Answer op × State) :
    State -> Program Op Answer Error Result -> List (Event State Op Answer) × State × Except Error Result
  | state, .done result => ([], state, .ok result)
  | state, .thrown error => ([], state, .error error)
  | state, .ask op next =>
      let result := perform state op
      let rest := performed perform result.2 (next result.1)
      (⟨state, op, result.1, result.2⟩ :: rest.1, rest.2)

/-- What an operation does, and what others do in between. -/
structure World (State Op : Type) (Answer : Op -> Type) where
  performs : State -> (op : Op) -> Answer op -> State -> Prop
  others : State -> State -> Prop

theorem Program.performed_events {State Op : Type} {Answer : Op -> Type} {Error Result : Type}
    (perform : State -> (op : Op) -> Answer op × State) (program : Program Op Answer Error Result) (state : State)
    (event : Event State Op Answer) (member : event ∈ (Program.performed perform state program).1) :
    event.answer = (perform event.before event.op).1 := by
  induction program generalizing state with
  | done result => cases member
  | thrown error => cases member
  | ask op next ih =>
      rcases List.mem_cons.mp member with isFirst | later
      · rw [isFirst]
      · exact ih _ _ later

namespace World

variable {State Op : Type} {Answer : Op -> Type} {Error Result Other : Type} (world : World State Op Answer)

def Meanwhile : State -> State -> Prop := Relation.ReflTransGen world.others

/-- A run of a program from a state: its events so far, the state and what is
left of it. -/
inductive Runs (state : State) (program : Program Op Answer Error Result) :
    List (Event State Op Answer) -> State -> Program Op Answer Error Result -> Prop
  | start : Runs state program [] state program
  | meanwhile {past : List (Event State Op Answer)} {before after : State}
      {left : Program Op Answer Error Result} :
      Runs state program past before left -> world.others before after -> Runs state program past after left
  | perform {past : List (Event State Op Answer)} {before after : State} {op : Op} {answer : Answer op}
      {next : Answer op -> Program Op Answer Error Result} :
      Runs state program past before (.ask op next) -> world.performs before op answer after ->
      Runs state program (past ++ [⟨before, op, answer, after⟩]) after (next answer)

variable {past : List (Event State Op Answer)} {program : Program Op Answer Error Result} {state : State}

theorem Runs.step {world : World State Op Answer} {before : State} {op : Op} {next : Answer op -> Program Op Answer Error Result}
    (runs : world.Runs state program past before (.ask op next)) (answer : Answer op) (after : State)
    (performed : world.performs before op answer after) :
    world.Runs state program (past ++ [⟨before, op, answer, after⟩]) after (next answer) :=
  .perform runs performed

theorem Runs.trans {world : World State Op Answer} {first second third : State}
    {left rest : Program Op Answer Error Result} {later : List (Event State Op Answer)}
    (runs : world.Runs first program past second left) (goesOn : world.Runs second left later third rest) :
    world.Runs first program (past ++ later) third rest := by
  induction goesOn with
  | start =>
      rw [List.append_nil]
      exact runs
  | meanwhile _ others ih => exact ih.meanwhile others
  | perform _ performed ih =>
      rw [<- List.append_assoc]
      exact ih.perform performed

theorem Runs.bind {world : World State Op Answer} {first second : State} {left : Program Op Answer Error Result}
    (runs : world.Runs first program past second left)
    (next : Result -> Program Op Answer Error Other) :
    world.Runs first (program >>= next) past second (left >>= next) := by
  induction runs with
  | start => exact .start
  | meanwhile _ others ih => exact ih.meanwhile others
  | perform _ performed ih => exact ih.perform performed

theorem Runs.attempt {world : World State Op Answer} {first second : State} {left : Program Op Answer Error Result}
    (runs : world.Runs first program past second left) :
    world.Runs first program.attempt past second left.attempt := by
  induction runs with
  | start => exact .start
  | meanwhile _ others ih => exact ih.meanwhile others
  | perform _ performed ih => exact ih.perform performed

theorem Runs.of_answers {world : World State Op Answer} {answers : forall op, Answer op}
    (possible : forall op, world.performs state op (answers op) state) {result : Result}
    (program : Program Op Answer Error Result) (ends : (Program.answeredBy state answers program).2 = .ok result) :
    world.Runs state program (Program.answeredBy state answers program).1 state (.done result) := by
  induction program with
  | done value =>
      cases ends
      exact .start
  | thrown error => cases ends
  | ask op next ih =>
      have first : world.Runs state (.ask op next) [⟨state, op, answers op, state⟩] state (next (answers op)) :=
        Runs.start.step (answers op) state (possible op)
      exact first.trans (ih (answers op) ends)

theorem Runs.of_performed {world : World State Op Answer} {perform : State -> (op : Op) -> Answer op × State}
    (possible : forall state op, world.performs state op (perform state op).1 (perform state op).2) {result : Result}
    (program : Program Op Answer Error Result) (state : State)
    (ends : (Program.performed perform state program).2.2 = .ok result) :
    world.Runs state program (Program.performed perform state program).1
      (Program.performed perform state program).2.1 (.done result) := by
  induction program generalizing state with
  | done value =>
      cases ends
      exact .start
  | thrown error => cases ends
  | ask op next ih =>
      have first : world.Runs state (.ask op next) [⟨state, op, (perform state op).1, (perform state op).2⟩]
          (perform state op).2 (next (perform state op).1) := Runs.start.step _ _ (possible state op)
      exact first.trans (ih _ _ ends)

abbrev Post (State Op : Type) (Answer : Op -> Type) (Error Result : Type) : Type :=
  Except Error Result -> List (Event State Op Answer) -> State -> Prop

variable (guarantee : List (Event State Op Answer) -> Event State Op Answer -> Prop)

/-- From here on every event satisfies the guarantee, and the end the
postcondition. -/
def Ensures : Program Op Answer Error Result -> Post State Op Answer Error Result ->
    List (Event State Op Answer) -> State -> Prop
  | .done result, post, past, state => post (.ok result) past state
  | .thrown error, post, past, state => post (.error error) past state
  | .ask op next, post, past, state =>
      forall before, world.Meanwhile state before -> forall answer after, world.performs before op answer after ->
        guarantee past ⟨before, op, answer, after⟩ ∧
          Ensures (next answer) post (past ++ [⟨before, op, answer, after⟩]) after

variable {world guarantee}

variable {post : Post State Op Answer Error Result}

theorem Ensures.mono {weaker : Post State Op Answer Error Result}
    (ensures : world.Ensures guarantee program post past state)
    (weakens : forall result after last, post result after last -> weaker result after last) :
    world.Ensures guarantee program weaker past state := by
  induction program generalizing past state with
  | done result => exact weakens _ _ _ ensures
  | thrown error => exact weakens _ _ _ ensures
  | ask op next ih =>
      intro before meanwhile answer after performed
      rcases ensures before meanwhile answer after performed with ⟨kept, rest⟩
      exact ⟨kept, ih answer rest⟩

theorem Ensures.bind {next : Result -> Program Op Answer Error Other}
    {post : Post State Op Answer Error Other}
    (ensures : world.Ensures guarantee program
      (fun result after last =>
        match result with
        | .ok value => world.Ensures guarantee (next value) post after last
        | .error error => post (.error error) after last) past state) :
    world.Ensures guarantee (program >>= next) post past state := by
  induction program generalizing past state with
  | done result => exact ensures
  | thrown error => exact ensures
  | ask op following ih =>
      intro before meanwhile answer after performed
      rcases ensures before meanwhile answer after performed with ⟨kept, rest⟩
      exact ⟨kept, ih answer rest⟩

theorem Ensures.attempt
    {post : Post State Op Answer Error (Except Error Result)}
    (ensures : world.Ensures guarantee program (fun result after last => post (.ok result) after last) past state) :
    world.Ensures guarantee program.attempt post past state := by
  induction program generalizing past state with
  | done result => exact ensures
  | thrown error => exact ensures
  | ask op following ih =>
      intro before meanwhile answer after performed
      rcases ensures before meanwhile answer after performed with ⟨kept, rest⟩
      exact ⟨kept, ih answer rest⟩

theorem Ensures.perform {op : Op} {post : Post State Op Answer Error (Answer op)}
    {past : List (Event State Op Answer)} {state : State}
    (each : forall before, world.Meanwhile state before -> forall answer after,
      world.performs before op answer after ->
        guarantee past ⟨before, op, answer, after⟩ ∧ post (.ok answer) (past ++ [⟨before, op, answer, after⟩]) after) :
    world.Ensures guarantee (Program.perform op) post past state := each

theorem Ensures.orThrow {program : Program Op Answer Error (Except Error Result)}
    (ensures : world.Ensures guarantee program
      (fun result after last =>
        match result with
        | .ok answer => post answer after last
        | .error error => post (.error error) after last) past state) :
    world.Ensures guarantee program.orThrow post past state := by
  apply Ensures.bind
  apply ensures.mono
  intro result after last holds
  cases result with
  | error error => exact holds
  | ok answer => cases answer <;> exact holds

theorem Meanwhile.keeps {holds : State -> Prop} {before after : State} (meanwhile : world.Meanwhile before after)
    (initially : holds before) (others : forall state next, holds state -> world.others state next -> holds next) :
    holds after := by
  induction meanwhile with
  | refl => exact initially
  | tail _ step ih => exact others _ _ ih step

/-- An assertion that each operation of a kind keeps, and that the others keep,
is kept by every program of such operations. -/
theorem Ensures.of_asks {allowed : Op -> Prop} {holds : List (Event State Op Answer) -> State -> Prop}
    (asks : program.Asks allowed) (initially : holds past state)
    (others : forall past state after, holds past state -> world.others state after -> holds past after)
    (keeps : forall past before op answer after, allowed op -> holds past before ->
      world.performs before op answer after ->
        guarantee past ⟨before, op, answer, after⟩ ∧ holds (past ++ [⟨before, op, answer, after⟩]) after) :
    world.Ensures guarantee program (fun _ past last => holds past last) past state := by
  induction program generalizing past state with
  | done result => exact initially
  | thrown error => exact initially
  | ask op next ih =>
      intro before meanwhile answer after performed
      have reached : holds past before := Meanwhile.keeps meanwhile initially (others past)
      rcases keeps past before op answer after asks.1 reached performed with ⟨kept, held⟩
      exact ⟨kept, ih answer (asks.2 answer) held⟩

theorem Ensures.and {other : List (Event State Op Answer) -> Event State Op Answer -> Prop}
    {first second : Post State Op Answer Error Result} (ensures : world.Ensures guarantee program first past state)
    (ensuresToo : world.Ensures other program second past state) :
    world.Ensures guarantee program (fun result after last => first result after last ∧ second result after last)
      past state := by
  induction program generalizing past state with
  | done result => exact ⟨ensures, ensuresToo⟩
  | thrown error => exact ⟨ensures, ensuresToo⟩
  | ask op next ih =>
      intro before meanwhile answer after performed
      rcases ensures before meanwhile answer after performed with ⟨kept, rest⟩
      exact ⟨kept, ih answer rest (ensuresToo before meanwhile answer after performed).2⟩

theorem Ensures.always {holds : State -> Prop} (initially : holds state)
    (others : forall state after, holds state -> world.others state after -> holds after)
    (keeps : forall before op answer after, holds before -> world.performs before op answer after -> holds after) :
    world.Ensures (fun _ _ => True) program (fun _ _ last => holds last) past state := by
  induction program generalizing past state with
  | done result => exact initially
  | thrown error => exact initially
  | ask op next ih =>
      intro before meanwhile answer after performed
      exact ⟨trivial, ih answer
        (keeps before op answer after (Meanwhile.keeps meanwhile initially others) performed)⟩

theorem Ensures.of_all (every : forall result after last, post result after last) :
    world.Ensures (fun _ _ => True) program post past state := by
  induction program generalizing past state with
  | done result => exact every _ _ _
  | thrown error => exact every _ _ _
  | ask op next ih => exact fun before _ answer after _ => ⟨trivial, ih answer⟩

theorem Ensures.extending (ensures : world.Ensures guarantee program post past state) :
    world.Ensures guarantee program (fun result after last => post result after last ∧ past <+: after) past state := by
  induction program generalizing past state with
  | done result => exact ⟨ensures, List.prefix_rfl⟩
  | thrown error => exact ⟨ensures, List.prefix_rfl⟩
  | ask op next ih =>
      intro before meanwhile answer after performed
      rcases ensures before meanwhile answer after performed with ⟨kept, rest⟩
      refine ⟨kept, (ih answer rest).mono ?_⟩
      rintro result later last ⟨holds, grown⟩
      exact ⟨holds, (List.prefix_append _ _).trans grown⟩

theorem Ensures.restrict {smaller : World State Op Answer} {program : Program Op Answer Error Result}
    {post : Post State Op Answer Error Result} {past : List (Event State Op Answer)} {state : State}
    (ensures : world.Ensures guarantee program post past state)
    (performs : forall before op answer after, smaller.performs before op answer after ->
      world.performs before op answer after)
    (others : forall before after, smaller.others before after -> world.others before after) :
    smaller.Ensures guarantee program post past state := by
  induction program generalizing past state with
  | done result => exact ensures
  | thrown error => exact ensures
  | ask op next ih =>
      intro before meanwhile answer after performed
      rcases ensures before (Relation.ReflTransGen.mono others _ _ meanwhile) answer after (performs _ _ _ _ performed) with ⟨kept, rest⟩
      exact ⟨kept, ih answer rest⟩

/-- What is ensured holds of every run: the guarantee of all its events, and
what is left is still ensured. -/
theorem Ensures.of_runs {left : Program Op Answer Error Result}
    {last : State} {events : List (Event State Op Answer)}
    (ensures : world.Ensures guarantee program post [] state) (runs : world.Runs state program events last left) :
    (forall before event after, events = before ++ event :: after -> guarantee before event) ∧
      Exists fun reached => world.Meanwhile reached last ∧ world.Ensures guarantee left post events reached := by
  induction runs with
  | start =>
      refine ⟨?_, state, Relation.ReflTransGen.refl, ensures⟩
      intro before event after none
      exact absurd none.symm (List.append_ne_nil_of_right_ne_nil _ (List.cons_ne_nil _ _))
  | meanwhile _ step ih =>
      rcases ih with ⟨kept, reached, meanwhile, rest⟩
      exact ⟨kept, reached, Relation.ReflTransGen.tail meanwhile step, rest⟩
  | @perform past mid next op answer following _ performed ih =>
      rcases ih with ⟨kept, reached, meanwhile, rest⟩
      rcases rest mid meanwhile answer next performed with ⟨keeps, goesOn⟩
      refine ⟨?_, next, Relation.ReflTransGen.refl, goesOn⟩
      intro before event after split
      rcases List.eq_nil_or_concat after with rfl | ⟨middle, final, rfl⟩
      · rcases List.append_inj' split rfl with ⟨rfl, same⟩
        exact List.singleton_inj.mp same ▸ keeps
      · have shorter : past ++ [⟨mid, op, answer, next⟩] = (before ++ event :: middle) ++ [final] := by
          rw [split, List.concat_eq_append, List.append_assoc, List.cons_append]
        exact kept before event middle (List.append_inj' shorter rfl).1

theorem Ensures.of_done
    {last : State} {events : List (Event State Op Answer)} {result : Result}
    (ensures : world.Ensures guarantee program post [] state)
    (runs : world.Runs state program events last (.done result)) :
    Exists fun reached => world.Meanwhile reached last ∧ post (.ok result) events reached :=
  (ensures.of_runs runs).2

end World
end Foundation
end Dokploy
