import Dokploy.Foundation.Actors
import Dokploy.Foundation.Splits

namespace Dokploy
namespace Foundation

/-!
# Reading and rewriting one value

Operations that read a whole value, compute a new one and write it back later.
An operation may also find that there is nothing to write.  Without a lock the
value that is written may be computed from one that somebody else has replaced.

`serial_of_run` is what is left without a lock: as long as every write finds the
value that it was computed from, the operations had their effects one after the
other, in the order in which they had them.
-/

namespace Rewrites

variable {Operation Value : Type}

/-- Where an operation is.  One that has read holds what it read and what it will write. -/
inductive Rewriting (Operation Value : Type) where
  | waiting (operation : Operation)
  | holding (operation : Operation) (read written : Value)
  | finished (operation : Operation)
deriving DecidableEq

inductive RewriteEvent where
  | read
  | write
deriving DecidableEq

/-- What the operations write, given what they read, and which of them write in the same step. -/
structure Effects (Operation Value : Type) where
  effect : Operation -> Value -> Option Value
  atomic : Operation -> Bool

variable (effects : Effects Operation Value)

def Effects.apply (value : Value) (operation : Operation) : Value := (effects.effect operation value).getD value

def Effects.act (value : Value) :
    Rewriting Operation Value -> RewriteEvent -> Option (Value × Rewriting Operation Value × List Operation)
  | .waiting operation, .read =>
      match effects.effect operation value with
      | none => some (value, .finished operation, [operation])
      | some written =>
          if effects.atomic operation then some (written, .finished operation, [operation])
          else some (value, .holding operation value written, [])
  | .holding operation _ written, .write => some (written, .finished operation, [operation])
  | _, _ => none

def Effects.behaviour :
    Actors.Behaviour Value (Rewriting Operation Value) Operation RewriteEvent Operation where
  begins := .waiting
  act := effects.act

/-- Any number of operations on one value.  An operation is said when it has its effect. -/
def Effects.machine (first : Value) :
    Machine (Actors.System Value (Rewriting Operation Value)) (Actors.Happening Operation RewriteEvent)
      (Option Nat × Operation) :=
  effects.behaviour.machine first

/-- The rule: a write finds the value that it was computed from. -/
def Undisturbed (system : Actors.System Value (Rewriting Operation Value)) :
    Actors.Happening Operation RewriteEvent -> Prop
  | .acts index .write => forall operation read written,
      system.actors[index]? = some (.holding operation read written) -> system.row = read
  | _ => True

def Rewriting.operation : Rewriting Operation Value -> Operation
  | .waiting operation | .holding operation _ _ | .finished operation => operation

def Rewriting.effective : Rewriting Operation Value -> Option Operation
  | .finished operation => some operation
  | _ => none

/-- The operations in the order of their effects. -/
def order (history : List (Option Nat × Operation)) : List Operation := history.map Prod.snd

theorem order_append (history : List (Option Nat × Operation)) (index : Nat) (operations : List Operation) :
    order (history ++ operations.map (some index, ·)) = order history ++ operations := by
  rw [order, List.map_append, List.map_map]
  congr 1
  exact List.map_id' operations

variable {effects} {value after : Value} {current now : Rewriting Operation Value} {event : RewriteEvent}
  {effective : List Operation}

theorem act_cases (acted : effects.act value current event = some (after, now, effective)) :
    current.effective = none ∧
      ((after = value ∧ effective = [] ∧ now.effective = none ∧
          forall operation read written, now = .holding operation read written ->
            effects.effect operation read = some written) ∨
        Exists fun operation => effective = [operation] ∧ now = .finished operation ∧
          (after = effects.apply value operation ∨
            Exists fun read => current = .holding operation read after)) := by
  unfold Effects.act at acted
  split at acted
  · rename_i operation
    refine ⟨rfl, ?_⟩
    split at acted
    · rename_i nothing
      cases acted
      refine Or.inr ⟨operation, rfl, rfl, Or.inl ?_⟩
      rw [Effects.apply, nothing, Option.getD_none]
    · rename_i written isWritten
      split at acted
      · cases acted
        refine Or.inr ⟨operation, rfl, rfl, Or.inl ?_⟩
        rw [Effects.apply, isWritten, Option.getD_some]
      · cases acted
        refine Or.inl ⟨rfl, rfl, rfl, fun other read written same => ?_⟩
        cases same
        exact isWritten
  · rename_i operation read written
    cases acted
    exact ⟨rfl, Or.inr ⟨operation, rfl, rfl, Or.inr ⟨read, rfl⟩⟩⟩
  · cases acted

/-- What an operation that has read holds is what it writes there. -/
def Holds (effects : Effects Operation Value) : Rewriting Operation Value -> Prop
  | .holding operation read written => effects.effect operation read = some written
  | _ => True

variable {system : Actors.System Value (Rewriting Operation Value)} {history : List (Option Nat × Operation)}

theorem serial_of_run {first : Value}
    (run : (effects.machine first).Run Undisturbed history system) :
    system.row = (order history).foldl effects.apply first := by
  refine (Actors.rely (fun history value => value = (order history).foldl effects.apply first)
    (fun _ _ _ current => Holds effects current) rfl ?_ ?_ (fun _ _ _ _ _ _ _ _ moved => by cases moved) run).1
  · exact fun _ _ _ _ _ => trivial
  intro history system index current event after now effective isSerial holds undisturbed found acted
  rw [order_append, List.foldl_append, ← isSerial]
  rcases act_cases acted with ⟨_, ⟨same, none, _, reads⟩ | ⟨operation, isEffective, isNow, effect⟩⟩
  · rw [same, none]
    refine ⟨rfl, ?_, fun position other _ => holds position other⟩
    cases now with
    | holding operation read written => exact reads operation read written rfl
    | _ => trivial
  · rw [isEffective, isNow]
    refine ⟨?_, trivial, fun position other _ => holds position other⟩
    rcases effect with alone | ⟨read, isCurrent⟩
    · exact alone
    · rw [isCurrent] at found acted
      have held : effects.effect operation read = some after := holds index _ found
      cases event with
      | read => cases acted
      | write =>
          have isRead : system.row = read := undisturbed operation read after found
          rw [List.foldl_cons, List.foldl_nil, Effects.apply, isRead, held, Option.getD_some]

private theorem effective_set {actors : List (Rewriting Operation Value)} {index : Nat}
    (now : Rewriting Operation Value) (found : actors[index]? = some current) (before : current.effective = none) :
    ((actors.set index now).filterMap Rewriting.effective).Perm
      (actors.filterMap Rewriting.effective ++ now.effective.toList) := by
  have split := (split_of_getElem? found).1
  have place := (split_of_getElem? found).2
  have after : actors.set index now = actors.take index ++ now :: actors.drop (index + 1) := by
    have parts : (_ : List _) = _ ++ now :: _ := set_of_split split
    rw [place] at parts
    exact parts
  have old : actors.filterMap Rewriting.effective =
      (actors.take index).filterMap Rewriting.effective ++
        (actors.drop (index + 1)).filterMap Rewriting.effective := by
    calc
      actors.filterMap Rewriting.effective =
          (actors.take index ++ current :: actors.drop (index + 1)).filterMap Rewriting.effective := by rw [← split]
      _ = _ := by rw [List.filterMap_append, List.filterMap_cons_none before]
  rw [after, old, List.filterMap_append]
  cases isNow : now.effective with
  | none =>
      rw [List.filterMap_cons_none isNow, Option.toList_none, List.append_nil]
  | some operation =>
      rw [List.filterMap_cons_some isNow, Option.toList_some, List.append_assoc]
      exact (List.perm_append_singleton operation _).symm.append_left _

theorem order_perm {guard : Actors.System Value (Rewriting Operation Value) ->
    Actors.Happening Operation RewriteEvent -> Prop} {first : Value}
    (run : (effects.machine first).Run guard history system) :
    (order history).Perm (system.actors.filterMap Rewriting.effective) := by
  refine run.invariant (fun history (system : Actors.System Value (Rewriting Operation Value)) =>
    (order history).Perm (system.actors.filterMap Rewriting.effective)) ?_ ?_
  · exact List.Perm.nil
  intro history system event after output _ ih _ stepped
  cases event with
  | starts operation =>
      rcases Actors.Behaviour.step_starts stepped with ⟨isAfter, isOutput⟩
      rw [isAfter, isOutput, List.append_nil, List.filterMap_append]
      have fresh : [effects.behaviour.begins operation].filterMap Rewriting.effective = [] := rfl
      rw [fresh, List.append_nil]
      exact ih
  | acts index event =>
      rcases Actors.Behaviour.step_acts stepped with ⟨current, value, now, effective, found, acted, isAfter, isOutput⟩
      rw [isAfter, isOutput, order_append]
      rcases act_cases acted with ⟨before, ⟨_, none, isNow, _⟩ | ⟨operation, isEffective, isNow, _⟩⟩
      · have moved := effective_set now found before
        rw [isNow, Option.toList_none, List.append_nil] at moved
        rw [none, List.append_nil]
        exact ih.trans moved.symm
      · have moved := effective_set now found before
        rw [isNow] at moved ⊢
        rw [isEffective]
        exact (ih.append_right [operation]).trans moved.symm
  | moves event =>
      have moves : effects.behaviour.step system (.moves event) = some (after, output) := stepped
      rcases Actors.Behaviour.step_moves moves with ⟨_, _, moved, _, _⟩
      cases moved

theorem order_perm_of_finished {guard : Actors.System Value (Rewriting Operation Value) ->
    Actors.Happening Operation RewriteEvent -> Prop} {first : Value}
    (run : (effects.machine first).Run guard history system)
    (finished : forall current, current ∈ system.actors -> current.effective.isSome = true) :
    (order history).Perm (system.actors.map Rewriting.operation) := by
  have all : system.actors.filterMap Rewriting.effective = system.actors.map Rewriting.operation := by
    rw [← List.filterMap_eq_map]
    apply List.filterMap_congr
    intro current member
    have isFinished := finished current member
    cases current with
    | finished operation => rfl
    | _ => cases isFinished
  rw [← all]
  exact order_perm run

end Rewrites
end Foundation
end Dokploy
