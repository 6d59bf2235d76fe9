import Dokploy.Foundation.Splits

namespace Dokploy
namespace Foundation

/-!
# What a history recorded, and in which order

A component records a list of signals, the earliest first.  Some signals are
marks that begin a new epoch.  These facts speak of what was recorded since the
last mark, of records that stand in the same epoch, and of what held at every
signal when it was recorded; each is kept when the history grows.
-/

universe u

namespace Histories

variable {Signal : Type u} {mark signal : Signal} {history more : List Signal}

/-- A signal that was recorded, and not before the last mark. -/
structure Since (mark : Signal) (history : List Signal) (signal : Signal) : Prop where
  recorded : signal ∈ history
  later : forall {before after}, history = before ++ mark :: after -> signal ∈ after

/-- After every mark that is older than the first signal, the second stands as well. -/
def Follows (mark : Signal) (history : List Signal) (first second : Signal) : Prop :=
  forall before after, history = before ++ mark :: after -> first ∈ after -> second ∈ after

theorem Since.append (since : Since mark history signal) (unmarked : mark ∉ more) :
    Since mark (history ++ more) signal := by
  refine ⟨List.mem_append_left _ since.recorded, ?_⟩
  intro before after split
  rcases split_of_append split with ⟨rest, left, right⟩ | ⟨skipped, _, right⟩
  · rw [right]
    exact List.mem_append_left _ (since.later left)
  · exact absurd (right ▸ List.mem_append_right _ List.mem_cons_self) unmarked

theorem Since.of_new (new : signal ∈ more) (unmarked : mark ∉ more) : Since mark (history ++ more) signal := by
  refine ⟨List.mem_append_right _ new, ?_⟩
  intro before after split
  rcases split_of_append split with ⟨rest, _, right⟩ | ⟨skipped, _, right⟩
  · rw [right]
    exact List.mem_append_right _ new
  · exact absurd (right ▸ List.mem_append_right _ List.mem_cons_self) unmarked

theorem Since.of_append (since : Since mark (history ++ more) signal) (old : signal ∉ more) :
    Since mark history signal := by
  refine ⟨(List.mem_append.mp since.recorded).resolve_right old, ?_⟩
  intro before after split
  have whole : history ++ more = before ++ mark :: (after ++ more) := by rw [split, List.append_assoc]; rfl
  have member := since.later whole
  exact (List.mem_append.mp member).resolve_right old

theorem not_since_mark : ¬ Since mark (history ++ [mark]) signal := by
  intro since
  have whole : history ++ [mark] = history ++ mark :: [] := rfl
  exact List.not_mem_nil (since.later whole)

theorem Since.follows (since : Since mark history signal) (first : Signal) : Follows mark history first signal :=
  fun _ _ split _ => since.later split

theorem Follows.append {first second : Signal} (follows : Follows mark history first second)
    (old : first ∉ more) : Follows mark (history ++ more) first second := by
  intro before after split member
  rcases split_of_append split with ⟨rest, left, right⟩ | ⟨skipped, _, right⟩
  · rw [right] at member ⊢
    have earlier := (List.mem_append.mp member).resolve_right old
    exact List.mem_append_left _ (follows _ _ left earlier)
  · exact absurd (right ▸ List.mem_append_right _ (List.mem_cons_of_mem _ member)) old

theorem Follows.trans {first second third : Signal} (follows : Follows mark history first second)
    (next : Follows mark history second third) : Follows mark history first third :=
  fun _ _ split member => next _ _ split (follows _ _ split member)

/-- What held, of the history before it, at every signal. -/
def EachAt (holds : List Signal -> Signal -> Prop) (history : List Signal) : Prop :=
  forall before signal after, history = before ++ signal :: after -> holds before signal

theorem EachAt.nil {holds : List Signal -> Signal -> Prop} : EachAt holds [] :=
  fun before _ _ split => absurd split.symm (by simp)

theorem EachAt.snoc {holds : List Signal -> Signal -> Prop} (each : EachAt holds history)
    (last : holds history signal) : EachAt holds (history ++ [signal]) := by
  intro before other after split
  rcases split_of_snoc split with ⟨sameBefore, sameSignal, _⟩ | ⟨middle, _, old⟩
  · rw [← sameBefore, ← sameSignal]
    exact last
  · exact each _ _ _ old

/-- What holds of a history however it is continued from a list of allowed signals holds at each of them. -/
theorem EachAt.append {holds : List Signal -> Signal -> Prop} {allowed : Signal -> Prop}
    (each : EachAt holds history) (all : forall signal, signal ∈ more -> allowed signal)
    (new : forall passed, (forall signal, signal ∈ passed -> allowed signal) ->
      forall signal, signal ∈ more -> holds (history ++ passed) signal) :
    EachAt holds (history ++ more) := by
  intro before signal after split
  rcases split_of_append split with ⟨rest, old, _⟩ | ⟨passed, same, old⟩
  · exact each _ _ _ old
  · rw [same]
    refine new passed (fun other member => all _ ?_) signal ?_
    · exact old ▸ List.mem_append_left _ member
    · exact old ▸ List.mem_append_right _ List.mem_cons_self

/-- The latest signal that a test accepts. -/
def latest (test : Signal -> Bool) (history : List Signal) : Option Signal := history.reverse.find? test

theorem latest_append_of_none {test : Signal -> Bool} (none : forall signal, signal ∈ more -> test signal = false) :
    latest test (history ++ more) = latest test history := by
  have nothing : more.reverse.find? test = Option.none := by
    rw [List.find?_eq_none]
    intro signal member
    simp [none signal (List.mem_reverse.mp member)]
  rw [latest, List.reverse_append, List.find?_append, nothing, Option.none_or]
  rfl

theorem latest_snoc {test : Signal -> Bool} (accepted : test signal = true) :
    latest test (history ++ [signal]) = some signal := by
  rw [latest, List.reverse_append, List.reverse_singleton, List.singleton_append, List.find?_cons_of_pos accepted]

end Histories
end Foundation
end Dokploy
