import Mathlib.Data.List.Basic

namespace Dokploy
namespace Foundation

/-!
# Lists with elements inserted

A list grows by elements of a certain kind, put in anywhere.  What looks only
at elements of another kind does not see the growth.
-/

universe u v

variable {Item : Type u} {Other : Type v}

/-- The second list is the first one with elements of a kind put in. -/
inductive Inserted (Kind : Item -> Prop) : List Item -> List Item -> Prop where
  | done : Inserted Kind [] []
  | keep (item : Item) {small big : List Item} : Inserted Kind small big -> Inserted Kind (item :: small) (item :: big)
  | insert (item : Item) {small big : List Item} : Kind item -> Inserted Kind small big ->
      Inserted Kind small (item :: big)

namespace Inserted

variable {Kind : Item -> Prop} {small big : List Item}

theorem mem (inserted : Inserted Kind small big) {item : Item} (member : item ∈ big) : item ∈ small ∨ Kind item := by
  induction inserted with
  | done => cases member
  | keep first _ ih =>
      rcases List.mem_cons.mp member with here | later
      · exact Or.inl (here ▸ List.mem_cons_self)
      · exact (ih later).imp_left (List.mem_cons_of_mem _)
  | insert first kind _ ih =>
      rcases List.mem_cons.mp member with here | later
      · exact Or.inr (here ▸ kind)
      · exact ih later

theorem filterMap_eq (inserted : Inserted Kind small big) {first second : Item -> Option Other}
    (drops : forall item, Kind item -> second item = none)
    (alike : forall item, item ∈ small -> second item = first item) :
    big.filterMap second = small.filterMap first := by
  induction inserted with
  | done => rfl
  | keep item _ ih =>
      have rest := ih fun other member => alike other (List.mem_cons_of_mem _ member)
      simp only [List.filterMap_cons, alike item List.mem_cons_self, rest]
  | insert item kind _ ih =>
      rw [List.filterMap_cons, drops item kind]
      exact ih alike

theorem filter_eq (inserted : Inserted Kind small big) {test : Item -> Bool}
    (drops : forall item, Kind item -> test item = false) : big.filter test = small.filter test := by
  induction inserted with
  | done => rfl
  | keep item _ ih => simp only [List.filter_cons, ih]
  | insert item kind _ ih =>
      rw [List.filter_cons, drops item kind]
      exact ih

theorem find?_reverse_eq (inserted : Inserted Kind small big) {test : Item -> Bool}
    (drops : forall item, Kind item -> test item = false) :
    big.reverse.find? test = small.reverse.find? test := by
  rw [<- List.head?_filter, <- List.head?_filter, List.filter_reverse, List.filter_reverse, inserted.filter_eq drops]

theorem imp (inserted : Inserted Kind small big) {Weaker : Item -> Prop}
    (weaker : forall item, Kind item -> Weaker item) : Inserted Weaker small big := by
  induction inserted with
  | done => exact done
  | keep item _ ih => exact keep item ih
  | insert item kind _ ih => exact insert item (weaker item kind) ih

theorem filter (inserted : Inserted Kind small big) (test : Item -> Bool) :
    Inserted Kind (small.filter test) (big.filter test) := by
  induction inserted with
  | done => exact done
  | keep item _ ih =>
      rw [List.filter_cons, List.filter_cons]
      split
      · exact keep item ih
      · exact ih
  | insert item kind _ ih =>
      rw [List.filter_cons]
      split
      · exact insert item kind ih
      · exact ih

/-- Where old and new elements are never of the same kind, a search from the end
finds what it found before, or finds something new where there was nothing. -/
theorem find?_reverse_cases (inserted : Inserted Kind small big) {test : Item -> Bool}
    (exclusive : forall known, known ∈ small -> test known = true -> forall item, Kind item -> test item = false) :
    big.reverse.find? test = small.reverse.find? test ∨
      (small.reverse.find? test = none ∧
        Exists fun found => big.reverse.find? test = some found ∧ Kind found ∧ test found = true) := by
  cases before : small.reverse.find? test with
  | some known =>
      have member := List.mem_reverse.mp (List.mem_of_find?_eq_some before)
      exact Or.inl ((inserted.find?_reverse_eq (exclusive known member (List.find?_some before))).trans before)
  | none =>
      cases after : big.reverse.find? test with
      | none => exact Or.inl rfl
      | some found =>
          have passes := List.find?_some after
          rcases inserted.mem (List.mem_reverse.mp (List.mem_of_find?_eq_some after)) with old | new
          · exact absurd passes (List.find?_eq_none.mp before found (List.mem_reverse.mpr old))
          · exact Or.inr ⟨rfl, found, rfl, new, passes⟩

end Inserted
end Foundation
end Dokploy
