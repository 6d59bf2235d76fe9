import Mathlib.Data.List.Basic
import Mathlib.Data.List.Perm.Basic

namespace Dokploy
namespace Foundation

/-!
# Stateful partition of a list

One pass over a list decides for each element whether it stays, and carries a
state from element to element.  Filtering, keeping the first of each kind and
folding a list into its first match are all of this form.  Whatever the
decision is, the pass loses nothing and keeps the order of what stays.
-/

universe u v

variable {State : Type u} {Element : Type v}

/-- The final state, what stayed and what was taken out, both in list order. -/
structure Swept (State : Type u) (Element : Type v) where
  state : State
  kept : List Element
  gone : List Element

/-- The decision returns the next state and whether the element stays. -/
def sweep (decision : State -> Element -> State × Bool) : State -> List Element -> Swept State Element
  | state, [] => ⟨state, [], []⟩
  | state, element :: rest =>
      let later := sweep decision (decision state element).1 rest
      if (decision state element).2 then { later with kept := element :: later.kept }
      else { later with gone := element :: later.gone }

theorem sweep_kept_sublist (decision : State -> Element -> State × Bool) (state : State)
    (elements : List Element) : (sweep decision state elements).kept.Sublist elements := by
  induction elements generalizing state with
  | nil => exact List.Sublist.refl []
  | cons element rest ih =>
      simp only [sweep]
      split
      · exact (ih _).cons_cons element
      · exact (ih _).cons element

theorem sweep_perm (decision : State -> Element -> State × Bool) (state : State)
    (elements : List Element) :
    ((sweep decision state elements).kept ++ (sweep decision state elements).gone).Perm elements := by
  induction elements generalizing state with
  | nil => exact List.Perm.refl []
  | cons element rest ih =>
      simp only [sweep]
      split
      · exact (ih _).cons element
      · exact List.perm_middle.trans ((ih _).cons element)

theorem mem_sweep (decision : State -> Element -> State × Bool) (state : State)
    (elements : List Element) (element : Element) :
    element ∈ (sweep decision state elements).kept ∨ element ∈ (sweep decision state elements).gone <->
      element ∈ elements := by
  rw [← List.mem_append]
  exact (sweep_perm decision state elements).mem_iff

theorem sweep_append (decision : State -> Element -> State × Bool) (state : State)
    (first second : List Element) :
    let before := sweep decision state first
    let after := sweep decision before.state second
    sweep decision state (first ++ second) =
      ⟨after.state, before.kept ++ after.kept, before.gone ++ after.gone⟩ := by
  induction first generalizing state with
  | nil => rfl
  | cons element rest ih =>
      have later := ih (decision state element).1
      dsimp only at later ⊢
      simp only [List.cons_append, sweep, later]
      split <;> rfl

/-- Where taking an element out leaves the state alone, a second pass over what
stayed takes nothing out. -/
theorem sweep_kept_again {decision : State -> Element -> State × Bool}
    (idle : forall state element, (decision state element).2 = false -> (decision state element).1 = state)
    (state : State) (elements : List Element) :
    sweep decision state (sweep decision state elements).kept =
      ⟨(sweep decision state elements).state, (sweep decision state elements).kept, []⟩ := by
  induction elements generalizing state with
  | nil => rfl
  | cons element rest ih =>
      by_cases stays : (decision state element).2 = true
      · simp only [sweep, if_pos stays, ih]
      · have same := idle state element (Bool.eq_false_iff.mpr stays)
        simp only [sweep, if_neg stays]
        rw [same]
        exact ih state

section FirstOfEach

variable (counts : Element -> Bool) (same : Element -> Element -> Bool)

/-- The scan carries the survivors.  An element that does not count stays, one
that counts stays when no survivor is of its class. -/
def firstOfEach (survivors : List Element) (element : Element) : List Element × Bool :=
  if !counts element then (survivors, true)
  else if survivors.any fun kept => same kept element then (survivors, false)
  else (survivors ++ [element], true)

theorem firstOfEach_idle (survivors : List Element) (element : Element)
    (leaves : (firstOfEach counts same survivors element).2 = false) :
    (firstOfEach counts same survivors element).1 = survivors := by
  unfold firstOfEach at leaves ⊢
  split
  · rfl
  · rename_i counted
    rw [if_neg counted] at leaves
    split
    · rfl
    · rename_i fresh
      rw [if_neg fresh] at leaves
      cases leaves

variable {counts same}

/-- Among the survivors is one of the element's class exactly when the pass
has met one that counts. -/
theorem firstOfEach_met (transitive : forall a b c, same a b = true -> same b c = true -> same a c = true)
    (element : Element) (survivors elements : List Element) :
    ((sweep (firstOfEach counts same) survivors elements).state.any fun kept => same kept element) =
      (survivors.any (fun kept => same kept element) ||
        elements.any fun earlier => counts earlier && same earlier element) := by
  induction elements generalizing survivors with
  | nil => simp only [sweep, List.any_nil, Bool.or_false]
  | cons head rest ih =>
      have state : (sweep (firstOfEach counts same) survivors (head :: rest)).state =
          (sweep (firstOfEach counts same) (firstOfEach counts same survivors head).1 rest).state := by
        simp only [sweep]
        split <;> rfl
      rw [state, ih, List.any_cons, ← Bool.or_assoc]
      congr 1
      unfold firstOfEach
      cases counted : counts head with
      | false => simp only [Bool.not_false, if_true, Bool.false_and, Bool.or_false]
      | true =>
          simp only [Bool.not_true, Bool.false_eq_true, if_false, Bool.true_and]
          split
          · rename_i twin
            rcases List.any_eq_true.mp twin with ⟨kept, member, sameKept⟩
            -- A later element of the head's class is of the twin's class as well.
            cases ofHead : same head element with
            | false => rw [Bool.or_false]
            | true =>
                have met : (survivors.any fun kept => same kept element) = true :=
                  List.any_eq_true.mpr ⟨kept, member, transitive _ _ _ sameKept ofHead⟩
                rw [met, Bool.true_or]
          · simp only [List.any_append, List.any_cons, List.any_nil, Bool.or_false]

/-- An element without a copy in the list stays exactly when it does not count
or is the first of its class among those that do. -/
theorem mem_firstOfEach (transitive : forall a b c, same a b = true -> same b c = true -> same a c = true)
    {ahead behind : List Element} {element : Element} (unique : (ahead ++ element :: behind).Nodup) :
    element ∈ (sweep (firstOfEach counts same) [] (ahead ++ element :: behind)).kept <->
      (counts element = true -> forall earlier, earlier ∈ ahead -> counts earlier = true ->
        same earlier element = false) := by
  have apart := List.perm_middle.nodup_iff.mp unique
  have absent := (List.nodup_cons.mp apart).1
  have notAhead : element ∉ (sweep (firstOfEach counts same) [] ahead).kept := fun member =>
    absent (List.mem_append_left _ ((sweep_kept_sublist _ _ _).subset member))
  have met : ((sweep (firstOfEach counts same) [] ahead).state.any fun kept => same kept element) =
      ([].any (fun kept => same kept element) ||
        ahead.any fun earlier => counts earlier && same earlier element) :=
    firstOfEach_met transitive element [] ahead
  rw [sweep_append]
  dsimp only
  rw [List.mem_append, or_iff_right notAhead]
  generalize (sweep (firstOfEach counts same) [] ahead).state = survivors at met ⊢
  have notBehind : forall state, element ∉ (sweep (firstOfEach counts same) state behind).kept :=
    fun state member => absent (List.mem_append_right _ ((sweep_kept_sublist _ _ _).subset member))
  rw [List.any_nil, Bool.false_or] at met
  have decided : element ∈ (sweep (firstOfEach counts same) survivors (element :: behind)).kept <->
      (firstOfEach counts same survivors element).2 = true := by
    simp only [sweep]
    split
    · rename_i stays
      exact ⟨fun _ => stays, fun _ => List.mem_cons_self⟩
    · rename_i leaves
      exact ⟨fun member => absurd member (notBehind _), fun stays => absurd stays leaves⟩
  rw [decided]
  unfold firstOfEach
  cases counted : counts element with
  | false => simp only [Bool.not_false, if_true, Bool.false_eq_true, false_implies]
  | true =>
      simp only [Bool.not_true, Bool.false_eq_true, if_false, true_implies, met]
      cases seen : ahead.any fun earlier => counts earlier && same earlier element with
      | true =>
          rcases List.any_eq_true.mp seen with ⟨earlier, member, both⟩
          rw [Bool.and_eq_true] at both
          simp only [if_true, Bool.false_eq_true, false_iff]
          intro fresh
          rw [fresh earlier member both.1] at both
          cases both.2
      | false =>
          simp only [Bool.false_eq_true, if_false, true_iff]
          intro earlier member counts
          have none := List.any_eq_false.mp seen earlier member
          rw [counts, Bool.true_and] at none
          exact Bool.eq_false_iff.mpr none

end FirstOfEach

end Foundation
end Dokploy
