import Dokploy.Foundation.Program

namespace Dokploy
namespace Foundation

/-!
# Complete runs of a program

Where nothing but the answers matters, a run is the operations a program asked for,
each with its answer.  A complete run of a program that was put together from parts
is put together from complete runs of the parts.
-/

namespace Program

variable {Op : Type} {Answer : Op -> Type} {Error Result Other : Type}

/-- The program asked for these operations, was given these answers, and ended so. -/
inductive Completes : Program Op Answer Error Result -> List (Sigma Answer) -> Except Error Result -> Prop
  | done (result : Result) : Completes (.done result) [] (.ok result)
  | thrown (error : Error) : Completes (.thrown error) [] (.error error)
  | ask {op : Op} {next : Answer op -> Program Op Answer Error Result} (answer : Answer op) {rest : List (Sigma Answer)}
      {outcome : Except Error Result} (runs : Completes (next answer) rest outcome) :
      Completes (.ask op next) (⟨op, answer⟩ :: rest) outcome

variable {trace : List (Sigma Answer)}

theorem completes_pure {value : Result} {outcome : Except Error Result} :
    (pure value : Program Op Answer Error Result).Completes trace outcome <-> trace = [] ∧ outcome = .ok value := by
  constructor
  · intro completes
    cases completes
    exact ⟨rfl, rfl⟩
  · rintro ⟨rfl, rfl⟩
    exact .done value

theorem completes_perform {op : Op} {next : Answer op -> Program Op Answer Error Result}
    {outcome : Except Error Result} : (perform op >>= next).Completes trace outcome <->
      Exists fun answer => Exists fun rest => trace = ⟨op, answer⟩ :: rest ∧ (next answer).Completes rest outcome := by
  constructor
  · intro completes
    cases completes with
    | ask answer runs => exact ⟨answer, _, rfl, runs⟩
  · rintro ⟨answer, rest, rfl, runs⟩
    exact .ask answer runs

theorem Completes.split {program : Program Op Answer Error Result} {next : Result -> Program Op Answer Error Other}
    {outcome : Except Error Other} (completes : (program >>= next).Completes trace outcome) :
    (Exists fun error => outcome = .error error ∧ program.Completes trace (.error error)) ∨
      Exists fun first => Exists fun later => Exists fun value =>
        trace = first ++ later ∧ program.Completes first (.ok value) ∧ (next value).Completes later outcome := by
  induction program generalizing trace with
  | done value => exact Or.inr ⟨[], trace, value, rfl, .done value, completes⟩
  | thrown error =>
      cases completes
      exact Or.inl ⟨error, rfl, .thrown error⟩
  | ask op following ih =>
      cases completes with
      | ask answer runs =>
          rcases ih answer runs with ⟨error, same, failed⟩ | ⟨first, later, value, rfl, first_runs, goesOn⟩
          · exact Or.inl ⟨error, same, .ask answer failed⟩
          · exact Or.inr ⟨⟨op, answer⟩ :: first, later, value, rfl, .ask answer first_runs, goesOn⟩

theorem Completes.bind_split {program : Program Op Answer Empty Result} {next : Result -> Program Op Answer Empty Other}
    {outcome : Except Empty Other} (completes : (program >>= next).Completes trace outcome) :
    Exists fun first => Exists fun later => Exists fun value =>
      trace = first ++ later ∧ program.Completes first (.ok value) ∧ (next value).Completes later outcome := by
  rcases completes.split with ⟨error, _⟩ | parts
  · exact error.elim
  · exact parts

theorem completes_of_answers {State : Type} {state : State} (answers : forall op, Answer op)
    (program : Program Op Answer Error Result) :
    program.Completes ((answeredBy state answers program).1.map fun event => ⟨event.op, event.answer⟩)
      (answeredBy state answers program).2 := by
  induction program with
  | done value => exact .done value
  | thrown error => exact .thrown error
  | ask op next ih => exact .ask (answers op) (ih (answers op))

theorem answeredBy_answers {State : Type} {state : State} (answers : forall op, Answer op)
    (program : Program Op Answer Error Result) : forall event, event ∈ (answeredBy state answers program).1 ->
      event.answer = answers event.op := by
  induction program with
  | done value => exact fun _ none => nomatch none
  | thrown error => exact fun _ none => nomatch none
  | ask op next ih =>
      intro event member
      rcases List.mem_cons.mp member with rfl | later
      · rfl
      · exact ih (answers op) event later

end Program

end Foundation
end Dokploy
