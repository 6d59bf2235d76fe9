import Mathlib.Init

namespace Dokploy
namespace Foundation

/-!
# Steps that may lose something

Steps are made one after the other until one of them fails.  A step may lose some
of what a state holds, and no step brings anything back.  What all of them
together leave is then what was there before exactly when no step that is made
loses anything.
-/

universe u v w

/-- What a step leaves, and whether the steps after it are made. -/
structure Attempt (State : Type u) where
  after : State
  goesOn : Bool

namespace Attempt

variable {State : Type u}

def next (first : Attempt State) (second : State -> Attempt State) : Attempt State :=
  if first.goesOn then second first.after else first

theorem next_of_stop {first : Attempt State} (second : State -> Attempt State) (stops : first.goesOn = false) :
    first.next second = first := by
  rw [next, stops]
  rfl

theorem next_of_goesOn {first : Attempt State} (second : State -> Attempt State) (goesOn : first.goesOn = true) :
    first.next second = second first.after := by
  rw [next, goesOn]
  rfl

theorem next_next (first : Attempt State) (second third : State -> Attempt State) :
    (first.next second).next third = first.next fun state => (second state).next third := by
  cases goesOn : first.goesOn with
  | false =>
      rw [next_of_stop second goesOn, next_of_stop third goesOn, next_of_stop _ goesOn]
  | true =>
      rw [next_of_goesOn second goesOn, next_of_goesOn _ goesOn]

end Attempt

namespace Losses

variable {State : Type u} {Place : Type v} {Value : Type w} (watched : Place -> Prop)
  (entry : State -> Place -> Option Value)

/-- Everything that is watched is as before. -/
def Keeps (before after : State) : Prop := forall place, watched place -> entry after place = entry before place

/-- Everything that is watched was there before. -/
def Shrinks (before after : State) : Prop :=
  forall place, watched place -> entry after place = none ∨ entry after place = entry before place

/-- Nothing that is watched is left in a part, and everything else is as before. -/
def Clears (part : Place -> Prop) (before after : State) : Prop :=
  forall place, watched place ->
    (part place -> entry after place = none) ∧ (¬ part place -> entry after place = entry before place)

/-- Something that is watched is in a part. -/
def Holds (part : Place -> Prop) (state : State) : Prop :=
  Exists fun place => watched place ∧ part place ∧ (entry state place).isSome = true

variable {watched entry} {before middle after : State} {part : Place -> Prop}

theorem Keeps.refl (state : State) : Keeps watched entry state state := fun _ _ => rfl

theorem Keeps.trans (first : Keeps watched entry before middle) (second : Keeps watched entry middle after) :
    Keeps watched entry before after := fun place isWatched => (second place isWatched).trans (first place isWatched)

theorem Keeps.holds (keeps : Keeps watched entry before after) :
    Holds watched entry part after <-> Holds watched entry part before := by
  constructor
  · rintro ⟨place, isWatched, inPart, held⟩
    rw [keeps place isWatched] at held
    exact ⟨place, isWatched, inPart, held⟩
  · rintro ⟨place, isWatched, inPart, held⟩
    rw [← keeps place isWatched] at held
    exact ⟨place, isWatched, inPart, held⟩

theorem Keeps.shrinks (keeps : Keeps watched entry before after) : Shrinks watched entry before after :=
  fun place isWatched => Or.inr (keeps place isWatched)

theorem Clears.shrinks (clears : Clears watched entry part before after) : Shrinks watched entry before after := by
  intro place isWatched
  by_cases inPart : part place
  · exact Or.inl ((clears place isWatched).1 inPart)
  · exact Or.inr ((clears place isWatched).2 inPart)

theorem Clears.keeps_iff (clears : Clears watched entry part before after) :
    Keeps watched entry before after <-> ¬ Holds watched entry part before := by
  constructor
  · rintro keeps ⟨place, isWatched, inPart, held⟩
    rw [← keeps place isWatched, (clears place isWatched).1 inPart] at held
    exact Bool.false_ne_true held
  · intro empty place isWatched
    by_cases inPart : part place
    · rw [(clears place isWatched).1 inPart]
      cases held : entry before place with
      | none => rfl
      | some value => exact absurd ⟨place, isWatched, inPart, by rw [held]; rfl⟩ empty
    · exact (clears place isWatched).2 inPart

theorem keeps_iff_of_cases {lost : Prop} (clears : lost -> Clears watched entry part before after)
    (keeps : ¬ lost -> Keeps watched entry before after) :
    Keeps watched entry before after <-> ¬ (Holds watched entry part before ∧ lost) := by
  by_cases isLost : lost
  · rw [(clears isLost).keeps_iff]
    exact ⟨fun empty both => empty both.1, fun neither held => neither ⟨held, isLost⟩⟩
  · exact ⟨fun _ both => isLost both.2, fun _ => keeps isLost⟩

theorem shrinks_of_cases {lost : Prop} (clears : lost -> Clears watched entry part before after)
    (keeps : ¬ lost -> Keeps watched entry before after) : Shrinks watched entry before after := by
  by_cases isLost : lost
  · exact (clears isLost).shrinks
  · exact (keeps isLost).shrinks

theorem Shrinks.trans (first : Shrinks watched entry before middle) (second : Shrinks watched entry middle after) :
    Shrinks watched entry before after := by
  intro place isWatched
  rcases second place isWatched with lost | same
  · exact Or.inl lost
  · rw [same]
    exact first place isWatched

theorem keeps_both (first : Shrinks watched entry before middle) (second : Shrinks watched entry middle after)
    (keeps : Keeps watched entry before after) :
    Keeps watched entry before middle ∧ Keeps watched entry middle after := by
  have early : Keeps watched entry before middle := by
    intro place isWatched
    rcases first place isWatched with lost | same
    · rcases second place isWatched with alsoLost | kept
      · rw [lost, ← keeps place isWatched, alsoLost]
      · rw [← keeps place isWatched, kept]
    · exact same
  exact ⟨early, fun place isWatched => (keeps place isWatched).trans (early place isWatched).symm⟩

variable {first : Attempt State} {second : State -> Attempt State}

theorem shrinks_next (firstShrinks : Shrinks watched entry before first.after)
    (secondShrinks : Shrinks watched entry first.after (second first.after).after) :
    Shrinks watched entry before (first.next second).after := by
  cases goesOn : first.goesOn with
  | false =>
      rw [Attempt.next_of_stop second goesOn]
      exact firstShrinks
  | true =>
      rw [Attempt.next_of_goesOn second goesOn]
      exact firstShrinks.trans secondShrinks

theorem keeps_next_iff (firstShrinks : Shrinks watched entry before first.after)
    (secondShrinks : Shrinks watched entry first.after (second first.after).after) :
    Keeps watched entry before (first.next second).after <->
      Keeps watched entry before first.after ∧
        (first.goesOn = true -> Keeps watched entry first.after (second first.after).after) := by
  cases goesOn : first.goesOn with
  | false =>
      rw [Attempt.next_of_stop second goesOn]
      exact ⟨fun keeps => ⟨keeps, fun impossible => absurd impossible Bool.false_ne_true⟩, And.left⟩
  | true =>
      rw [Attempt.next_of_goesOn second goesOn]
      constructor
      · intro keeps
        rcases keeps_both firstShrinks secondShrinks keeps with ⟨early, late⟩
        exact ⟨early, fun _ => late⟩
      · rintro ⟨early, late⟩
        exact early.trans (late rfl)

end Losses

end Foundation
end Dokploy
