import Dokploy.Foundation.Machine

namespace Dokploy
namespace Foundation

/-!
# Many actors and one row

Any number of actors work on one shared value at the same time.  Each has its
own place in its own work, and an event lets one of them do its next atomic
action: it reads and writes the shared value and moves on.  Everything between
two actions of an actor may be filled by the others.  The shared value may also
move by itself.

`Actors.rely` is the rule of thumb of such systems.  It asks for a fact about
the shared value and a fact about each actor, and that no action of anybody
breaks the facts of the others.
-/

namespace Actors

structure System (Row Actor : Type) where
  row : Row
  actors : List Actor

inductive Happening (Start Event : Type) where
  | starts (start : Start)
  | acts (index : Nat) (event : Event)
  | moves (event : Event)
deriving DecidableEq

/-- How an actor begins, and what it does next where the event fits. -/
structure Behaviour (Row Actor Start Event Output : Type) where
  begins : Start -> Actor
  act : Row -> Actor -> Event -> Option (Row × Actor × List Output)
  move : Row -> Event -> Option (Row × List Output) := fun _ _ => none

variable {Row Actor Start Event Output : Type}

namespace Behaviour

def step (behaviour : Behaviour Row Actor Start Event Output) (system : System Row Actor) :
    Happening Start Event -> Option (System Row Actor × List (Option Nat × Output))
  | .starts start => some ({ system with actors := system.actors ++ [behaviour.begins start] }, [])
  | .acts index event =>
      match system.actors[index]? with
      | none => none
      | some actor =>
          match behaviour.act system.row actor event with
          | none => none
          | some (row, after, outputs) =>
              some ({ row := row, actors := system.actors.set index after }, outputs.map (some index, ·))
  | .moves event =>
      match behaviour.move system.row event with
      | none => none
      | some (row, outputs) => some ({ system with row := row }, outputs.map (none, ·))

/-- All actors together, from a first value of the row and no actors.  An output says whose it is. -/
def machine (behaviour : Behaviour Row Actor Start Event Output) (row : Row) :
    Machine (System Row Actor) (Happening Start Event) (Option Nat × Output) where
  initial := { row := row, actors := [] }
  step := behaviour.step

variable {behaviour : Behaviour Row Actor Start Event Output} {system after : System Row Actor}
  {outputs : List (Option Nat × Output)}

theorem step_starts {start : Start} (step : behaviour.step system (.starts start) = some (after, outputs)) :
    after = { system with actors := system.actors ++ [behaviour.begins start] } ∧ outputs = [] := by
  cases step
  exact ⟨rfl, rfl⟩

theorem step_acts {index : Nat} {event : Event}
    (step : behaviour.step system (.acts index event) = some (after, outputs)) :
    Exists fun actor => Exists fun row => Exists fun now => Exists fun said => system.actors[index]? = some actor ∧
      behaviour.act system.row actor event = some (row, now, said) ∧
      after = { row := row, actors := system.actors.set index now } ∧ outputs = said.map (some index, ·) := by
  simp only [Behaviour.step] at step
  split at step
  · cases step
  · rename_i actor found
    split at step
    · cases step
    · rename_i row now said acted
      cases step
      exact ⟨actor, row, now, said, found, acted, rfl, rfl⟩

theorem step_moves {event : Event} (step : behaviour.step system (.moves event) = some (after, outputs)) :
    Exists fun row => Exists fun said => behaviour.move system.row event = some (row, said) ∧
      after = { system with row := row } ∧ outputs = said.map (none, ·) := by
  simp only [Behaviour.step] at step
  split at step
  · cases step
  · rename_i row said moved
    cases step
    exact ⟨row, said, moved, rfl, rfl⟩

end Behaviour

theorem found_set {actors : List Actor} {index position : Nat} {now actor : Actor}
    (found : (actors.set index now)[position]? = some actor) :
    (position = index ∧ actor = now) ∨ (position ≠ index ∧ actors[position]? = some actor) := by
  by_cases same : index = position
  · rw [← same, List.getElem?_set_self'] at found
    rcases Option.map_eq_some_iff.mp found with ⟨_, _, isNow⟩
    exact Or.inl ⟨same.symm, isNow.symm⟩
  · rw [List.getElem?_set_ne same] at found
    exact Or.inr ⟨Ne.symm same, found⟩

theorem found_append {actors : List Actor} {position : Nat} {fresh actor : Actor}
    (found : (actors ++ [fresh])[position]? = some actor) :
    actors[position]? = some actor ∨ position = actors.length ∧ actor = fresh := by
  rcases Nat.lt_or_ge position actors.length with inside | outside
  · rw [List.getElem?_append_left inside] at found
    exact Or.inl found
  · rw [List.getElem?_append_right outside] at found
    have small := (List.getElem?_eq_some_iff.mp found).1
    rw [List.length_singleton] at small
    have first : position - actors.length = 0 := by omega
    rw [first] at found
    cases found
    exact Or.inr ⟨by omega, rfl⟩

theorem author_found {behaviour : Behaviour Row Actor Start Event Output} {first : Row}
    {guard : System Row Actor -> Happening Start Event -> Prop} {history : List (Option Nat × Output)}
    {system : System Row Actor} (run : (behaviour.machine first).Run guard history system) {index : Nat}
    {output : Output} (said : (some index, output) ∈ history) :
    Exists fun actor => system.actors[index]? = some actor := by
  suffices inside : index < system.actors.length from ⟨_, List.getElem?_eq_getElem inside⟩
  induction run with
  | start => cases said
  | @next history outputs system after event before allowed stepped ih =>
      rcases List.mem_append.mp said with old | new
      · have inside := ih old
        cases event with
        | starts start =>
            rw [(Behaviour.step_starts stepped).1, List.length_append]
            exact Nat.lt_add_right _ inside
        | acts position event =>
            rcases Behaviour.step_acts stepped with ⟨_, _, _, _, _, _, isAfter, _⟩
            rw [isAfter, List.length_set]
            exact inside
        | moves event =>
            rcases Behaviour.step_moves stepped with ⟨_, _, _, isAfter, _⟩
            rw [isAfter]
            exact inside
      · cases event with
        | starts start =>
            rw [(Behaviour.step_starts stepped).2] at new
            cases new
        | acts position event =>
            rcases Behaviour.step_acts stepped with ⟨_, _, _, _, found, _, isAfter, isOutput⟩
            rw [isOutput] at new
            rcases List.mem_map.mp new with ⟨_, _, same⟩
            cases same
            rw [isAfter, List.length_set]
            exact (List.getElem?_eq_some_iff.mp found).1
        | moves event =>
            rcases Behaviour.step_moves stepped with ⟨_, _, _, _, isOutput⟩
            rw [isOutput] at new
            rcases List.mem_map.mp new with ⟨_, _, same⟩
            cases same

/-- The rule.  `shared` is about the row and what was said so far, `own` about the row and one actor.  A new actor has
said nothing. -/
theorem rely {behaviour : Behaviour Row Actor Start Event Output} {first : Row}
    {guard : System Row Actor -> Happening Start Event -> Prop}
    (shared : List (Option Nat × Output) -> Row -> Prop)
    (own : List (Option Nat × Output) -> Row -> Nat -> Actor -> Prop)
    (initially : shared [] first)
    (begins : forall history (system : System Row Actor) start, shared history system.row ->
      (forall output, (some system.actors.length, output) ∉ history) ->
      own history system.row system.actors.length (behaviour.begins start))
    (acts : forall history system index actor event row now said, shared history system.row ->
      (forall position other, system.actors[position]? = some other -> own history system.row position other) ->
      guard system (.acts index event) -> system.actors[index]? = some actor ->
      behaviour.act system.row actor event = some (row, now, said) ->
      shared (history ++ said.map (some index, ·)) row ∧ own (history ++ said.map (some index, ·)) row index now ∧
        forall position other, position ≠ index -> system.actors[position]? = some other ->
          own (history ++ said.map (some index, ·)) row position other)
    (moves : forall history system event row said, shared history system.row ->
      (forall position other, system.actors[position]? = some other -> own history system.row position other) ->
      guard system (.moves event) -> behaviour.move system.row event = some (row, said) ->
      shared (history ++ said.map (none, ·)) row ∧
        forall position other, system.actors[position]? = some other ->
          own (history ++ said.map (none, ·)) row position other)
    {history : List (Option Nat × Output)} {system : System Row Actor}
    (run : (behaviour.machine first).Run guard history system) :
    shared history system.row ∧
      forall position actor, system.actors[position]? = some actor -> own history system.row position actor := by
  induction run with
  | start => exact ⟨initially, fun _ _ found => nomatch found⟩
  | @next history outputs system after event before allowed stepped ih =>
      cases event with
      | starts start =>
          rcases Behaviour.step_starts stepped with ⟨isAfter, isOutput⟩
          rw [isAfter, isOutput, List.append_nil]
          refine ⟨ih.1, fun position actor found => ?_⟩
          rcases found_append found with old | ⟨isLast, isFresh⟩
          · exact ih.2 position actor old
          · rw [isLast, isFresh]
            refine begins history system start ih.1 fun output said => ?_
            rcases author_found before said with ⟨other, foundOther⟩
            exact absurd (List.getElem?_eq_some_iff.mp foundOther).1 (Nat.lt_irrefl _)
      | acts index event =>
          rcases Behaviour.step_acts stepped with ⟨actor, row, now, said, found, acted, isAfter, isOutput⟩
          have kept := acts history system index actor event row now said ih.1
            ih.2 allowed found acted
          rw [isAfter, isOutput]
          refine ⟨kept.1, fun position other foundOther => ?_⟩
          rcases found_set foundOther with ⟨same, isNow⟩ | ⟨different, old⟩
          · rw [same, isNow]
            exact kept.2.1
          · exact kept.2.2 position other different old
      | moves event =>
          rcases Behaviour.step_moves stepped with ⟨row, said, moved, isAfter, isOutput⟩
          rw [isAfter, isOutput]
          exact moves history system event row said ih.1 ih.2 allowed moved

end Actors
end Foundation
end Dokploy
