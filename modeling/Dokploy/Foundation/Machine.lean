import Mathlib.Data.List.Basic

namespace Dokploy
namespace Foundation

/-!
# Machines, runs and primitive paths

A component that reacts to events is a partial step function with observable
output.  Its runs are taken from the initial state, one event at a time, and
remember everything that was output so far.  Claims about every run are proved
by one of two induction rules: over the machine's own steps, or over a smaller
set of primitive changes into which every step decomposes.

The event guard of a run restricts what the environment does.  An unguarded
run uses the guard that is always true.
-/

universe u v w

/-- A deterministic reactive component.  A step is absent when its event
cannot happen in that state. -/
structure Machine (State : Type u) (Event : Type v) (Output : Type w) where
  initial : State
  step : State -> Event -> Option (State × List Output)

namespace Machine

variable {State : Type u} {Event : Type v} {Output : Type w}

/-- Everything reachable from the initial state by guarded events, together
with the whole output history in emission order. -/
inductive Run (M : Machine State Event Output) (guard : State -> Event -> Prop) :
    List Output -> State -> Prop
  | start : Run M guard [] M.initial
  | next {history output : List Output} {state after : State} {event : Event} :
      Run M guard history state -> guard state event ->
      M.step state event = some (after, output) ->
      Run M guard (history ++ output) after

/-- A run whose environment is not restricted. -/
abbrev Reaches (M : Machine State Event Output) : List Output -> State -> Prop :=
  M.Run (fun _ _ => True)

variable {M : Machine State Event Output} {guard : State -> Event -> Prop}

theorem Run.weaken
    {history : List Output} {state : State} (run : M.Run guard history state) :
    M.Reaches history state := by
  induction run with
  | start => exact Run.start
  | next _ _ stepped ih => exact Run.next ih trivial stepped

/-- The step-wise invariant rule.  The invariant may relate the state to the
history that led to it. -/
theorem Run.invariant {M : Machine State Event Output} {guard : State -> Event -> Prop}
    (holds : List Output -> State -> Prop) (initially : holds [] M.initial)
    (preserved : forall history state event after output, M.Run guard history state ->
      holds history state -> guard state event ->
      M.step state event = some (after, output) -> holds (history ++ output) after)
    {history : List Output} {state : State} (run : M.Run guard history state) :
    holds history state := by
  induction run with
  | start => exact initially
  | next before allowed stepped ih =>
      exact preserved _ _ _ _ _ before ih allowed stepped

/-- Execute events in order, refusing any event that the guard refuses. -/
def exec (M : Machine State Event Output) (guard : State -> Event -> Bool) :
    State -> List Event -> Option (State × List Output)
  | state, [] => some (state, [])
  | state, event :: events =>
      if guard state event then
        match M.step state event with
        | none => none
        | some (after, output) =>
            match exec M guard after events with
            | none => none
            | some (final, rest) => some (final, output ++ rest)
      else none

private theorem run_of_exec_from {test : State -> Event -> Bool}
    (sound : forall state event, test state event = true -> guard state event)
    (events : List Event) (history output : List Output) (state final : State)
    (run : M.Run guard history state) (executed : M.exec test state events = some (final, output)) :
    M.Run guard (history ++ output) final := by
  induction events generalizing history output state with
  | nil =>
      simp only [exec, Option.some.injEq, Prod.mk.injEq] at executed
      rw [← executed.1, ← executed.2, List.append_nil]
      exact run
  | cons event events ih =>
      simp only [exec] at executed
      split at executed
      · rename_i allowed
        split at executed
        · cases executed
        · rename_i after first stepped
          split at executed
          · cases executed
          · rename_i last rest continued
            simp only [Option.some.injEq, Prod.mk.injEq] at executed
            rw [← executed.1, ← executed.2, ← List.append_assoc]
            rw [← executed.1] at ih
            exact ih _ _ _ (run.next (sound _ _ allowed) stepped) continued
      · cases executed

theorem run_of_exec {test : State -> Event -> Bool}
    (sound : forall state event, test state event = true -> guard state event)
    {events : List Event} {output : List Output} {final : State}
    (executed : M.exec test M.initial events = some (final, output)) :
    M.Run guard output final := by
  simpa only [List.nil_append] using
    run_of_exec_from sound events [] output M.initial final Run.start executed

/-- Where the execution of a list of events ends, with its whole output. -/
def outcome (M : Machine State Event Output) (guard : State -> Event -> Bool) (events : List Event) :
    State × List Output :=
  (M.exec guard M.initial events).getD (M.initial, [])

theorem run_of_executes {M : Machine State Event Output}
    {guard : State -> Event -> Prop} {test : State -> Event -> Bool}
    (sound : forall state event, test state event = true -> guard state event)
    {events : List Event} (executes : (M.exec test M.initial events).isSome = true) :
    M.Run guard (M.outcome test events).2 (M.outcome test events).1 := by
  rcases Option.isSome_iff_exists.mp executes with ⟨result, executed⟩
  have same : M.outcome test events = result := by rw [outcome, executed, Option.getD_some]
  rw [same]
  exact run_of_exec sound executed

/-- Finitely many primitive changes in a row, with their concatenated output. -/
inductive Path (primitive : State -> List Output -> State -> Prop) :
    State -> List Output -> State -> Prop
  | refl (state : State) : Path primitive state [] state
  | tail {first middle last : State} {output more : List Output} :
      Path primitive first output middle -> primitive middle more last ->
      Path primitive first (output ++ more) last

namespace Path

variable {primitive : State -> List Output -> State -> Prop}

theorem single {first last : State} {output : List Output}
    (change : primitive first output last) : Path primitive first output last := by
  simpa only [List.nil_append] using Path.tail (Path.refl first) change

theorem append {first middle last : State} {output more : List Output}
    (left : Path primitive first output middle) (right : Path primitive middle more last) :
    Path primitive first (output ++ more) last := by
  induction right with
  | refl => simpa only [List.append_nil] using left
  | tail _ change ih =>
      rw [← List.append_assoc]
      exact Path.tail ih change

theorem invariant {holds : List Output -> State -> Prop}
    (preserved : forall history before output after,
      holds history before -> primitive before output after -> holds (history ++ output) after)
    {history output : List Output} {first last : State}
    (path : Path primitive first output last) (initially : holds history first) :
    holds (history ++ output) last := by
  induction path with
  | refl => simpa only [List.append_nil] using initially
  | tail _ change ih =>
      rw [← List.append_assoc]
      exact preserved _ _ _ _ ih change

theorem mono {wider : State -> List Output -> State -> Prop}
    (wide : forall before output after, primitive before output after -> wider before output after)
    {first last : State} {output : List Output} (path : Path primitive first output last) :
    Path wider first output last := by
  induction path with
  | refl => exact Path.refl _
  | tail _ change ih => exact Path.tail ih (wide _ _ _ change)

theorem restrict {allowed : Output -> Prop} {first last : State} {output : List Output}
    (path : Path primitive first output last) (all : forall signal, signal ∈ output -> allowed signal) :
    Path (fun before output after =>
      primitive before output after ∧ forall signal, signal ∈ output -> allowed signal) first output last := by
  induction path with
  | refl => exact Path.refl _
  | tail _ change ih =>
      refine Path.tail (ih fun signal member => ?_) ⟨change, fun signal member => ?_⟩
      · exact all signal (List.mem_append_left _ member)
      · exact all signal (List.mem_append_right _ member)

end Path

/-- The primitive invariant rule.  Where the invariant holds, every allowed
step decomposes into primitive changes, so what these preserve holds in every
reachable state. -/
theorem Run.invariant_of_primitive {primitive : State -> List Output -> State -> Prop}
    (holds : List Output -> State -> Prop)
    (decompose : forall history state event after output, holds history state -> guard state event ->
      M.step state event = some (after, output) -> Path primitive state output after)
    (initially : holds [] M.initial)
    (preserved : forall history before output after,
      holds history before -> primitive before output after -> holds (history ++ output) after)
    {history : List Output} {state : State} (run : M.Run guard history state) :
    holds history state :=
  run.invariant holds initially (fun _ _ _ _ _ _ held allowed stepped =>
    (decompose _ _ _ _ _ held allowed stepped).invariant preserved held)

end Machine
end Foundation
end Dokploy
