import Mathlib.Data.List.Basic
import Mathlib.Data.List.Nodup

namespace Dokploy
namespace Foundation

/-!
# Splitting a list at an element

An ordered collection is often described by what stands before and after one
element.  These facts relate such a split to appending, indexing and searching.
-/

universe u v

variable {Element : Type u}

variable {element : Element} {elements : List Element}

theorem split_of_snoc {before after : List Element} {last : Element}
    (split : elements ++ [last] = before ++ element :: after) :
    (elements = before ∧ last = element ∧ after = []) ∨
      Exists fun middle => after = middle ++ [last] ∧ elements = before ++ element :: middle := by
  rcases List.eq_nil_or_concat after with empty | ⟨middle, final, concat⟩
  · subst empty
    have parts := List.append_inj' split rfl
    exact Or.inl ⟨parts.1, List.singleton_inj.mp parts.2, rfl⟩
  · rw [List.concat_eq_append] at concat
    subst concat
    have regrouped : elements ++ [last] = (before ++ element :: middle) ++ [final] := by
      simpa only [List.append_assoc, List.cons_append] using split
    have parts := List.append_inj' regrouped rfl
    refine Or.inr ⟨middle, ?_, parts.1⟩
    rw [List.singleton_inj.mp parts.2]

theorem split_of_append {left right before after : List Element}
    (split : left ++ right = before ++ element :: after) :
    (Exists fun rest => left = before ++ element :: rest ∧ after = rest ++ right) ∨
      Exists fun skipped => before = left ++ skipped ∧ right = skipped ++ element :: after := by
  rcases List.append_eq_append_iff.mp split with ⟨skipped, first, second⟩ | ⟨skipped, first, second⟩
  · exact Or.inr ⟨skipped, first, second⟩
  · cases skipped with
    | nil =>
        simp only [List.append_nil] at first
        exact Or.inr ⟨[], by rw [first, List.append_nil], second.symm⟩
    | cons head rest =>
        simp only [List.cons_append, List.cons.injEq] at second
        exact Or.inl ⟨rest, by rw [first, second.1], second.2⟩

theorem split_at_last {first second left right : List Element} {mark : Element} (leftPlain : mark ∉ left)
    (rightPlain : mark ∉ right) (same : first ++ mark :: left = second ++ mark :: right) :
    first = second ∧ left = right := by
  rcases List.append_eq_append_iff.mp same with ⟨middle, isSecond, isLeft⟩ | ⟨middle, isFirst, isRight⟩
  · cases middle with
    | nil =>
        rw [List.append_nil] at isSecond
        exact ⟨isSecond.symm, (List.cons.inj isLeft).2⟩
    | cons head rest =>
        have member : mark ∈ left := by
          rw [(List.cons.inj isLeft).2]
          exact List.mem_append_right _ List.mem_cons_self
        exact absurd member leftPlain
  · cases middle with
    | nil =>
        rw [List.append_nil] at isFirst
        exact ⟨isFirst, (List.cons.inj isRight).2.symm⟩
    | cons head rest =>
        have member : mark ∈ right := by
          rw [(List.cons.inj isRight).2]
          exact List.mem_append_right _ List.mem_cons_self
        exact absurd member rightPlain

theorem split_at_first {first second left right : List Element} {mark : Element} (firstPlain : mark ∉ first)
    (secondPlain : mark ∉ second) (same : first ++ mark :: left = second ++ mark :: right) :
    first = second ∧ left = right := by
  rcases split_of_append same with ⟨rest, isFirst, _⟩ | ⟨skipped, isSecond, cut⟩
  · exact absurd (isFirst ▸ List.mem_append_right _ List.mem_cons_self) firstPlain
  · cases skipped with
    | nil => exact ⟨by rw [isSecond, List.append_nil], (List.cons.inj cut).2⟩
    | cons head skipped =>
        have member : mark ∈ second := by
          rw [isSecond, (List.cons.inj cut).1]
          exact List.mem_append_right _ List.mem_cons_self
        exact absurd member secondPlain

theorem getElem?_of_split {before after : List Element}
    (split : elements = before ++ element :: after) : elements[before.length]? = some element := by
  rw [split, List.getElem?_append_right (Nat.le_refl _), Nat.sub_self]
  rfl

theorem take_of_split {before after : List Element}
    (split : elements = before ++ element :: after) : elements.take before.length = before := by
  rw [split, List.take_left']
  rfl

theorem eraseIdx_of_split {before after : List Element}
    (split : elements = before ++ element :: after) :
    elements.eraseIdx before.length = before ++ after := by
  rw [split, List.eraseIdx_append_of_length_le (Nat.le_refl _), Nat.sub_self]
  rfl

theorem set_of_split {elements before after : List Element} {element other : Element}
    (split : elements = before ++ element :: after) :
    elements.set before.length other = before ++ other :: after := by
  rw [split, List.set_append_right _ _ (Nat.le_refl _), Nat.sub_self]
  rfl

theorem split_of_getElem? {index : Nat}
    (found : elements[index]? = some element) :
    elements = elements.take index ++ element :: elements.drop (index + 1) ∧
      (elements.take index).length = index := by
  rcases List.getElem?_eq_some_iff.mp found with ⟨bound, same⟩
  constructor
  · rw [← same, ← List.drop_eq_getElem_cons bound, List.take_append_drop]
  · exact List.length_take_of_le (Nat.le_of_lt bound)

theorem split_of_findIdx? {test : Element -> Bool} {index : Nat}
    (found : elements.findIdx? test = some index) :
    Exists fun before => Exists fun element => Exists fun after =>
      elements = before ++ element :: after ∧ index = before.length ∧ test element = true ∧
        forall earlier, earlier ∈ before -> test earlier = false := by
  rcases List.findIdx?_eq_some_iff_getElem.mp found with ⟨bound, accepted, refused⟩
  have parts := split_of_getElem? (List.getElem?_eq_getElem bound)
  refine ⟨_, _, _, parts.1, parts.2.symm, accepted, ?_⟩
  intro earlier member
  rcases List.getElem_of_mem member with ⟨position, inTake, same⟩
  rw [parts.2] at inTake
  have refusedHere := refused position inTake
  rw [← same, List.getElem_take]
  simpa only [Bool.not_eq_true] using refusedHere

theorem filter_map_eq (elements : List Element) {test : Element -> Bool} {change : Element -> Element}
    (sameAnswer : forall element, test (change element) = test element)
    (unchanged : forall element, test element = true -> change element = element) :
    (elements.map change).filter test = elements.filter test := by
  induction elements with
  | nil => rfl
  | cons head rest ih =>
      rw [List.map_cons, List.filter_cons, List.filter_cons, sameAnswer, ih]
      split
      · rename_i passes
        rw [unchanged head passes]
      · rfl

theorem filter_other_of_split {Name : Type v} [BEq Name] [LawfulBEq Name] {name : Element -> Name}
    {before after : List Element} (nodup : (elements.map name).Nodup)
    (split : elements = before ++ element :: after) :
    (elements.filter fun other => !(name other == name element)) = before ++ after := by
  rw [split, List.map_append, List.map_cons] at nodup
  have absent := (List.nodup_middle.mp nodup).notMem
  rw [← List.map_append] at absent
  have different : forall other, other ∈ before ++ after -> (!(name other == name element)) = true := by
    intro other member
    have apart : (name other == name element) = false :=
      beq_eq_false_iff_ne.mpr fun same => absent (same ▸ List.mem_map_of_mem member)
    rw [apart]
    rfl
  rw [split, List.filter_append, List.filter_cons, beq_self_eq_true,
    List.filter_eq_self.mpr fun other member => different other (List.mem_append_left _ member),
    List.filter_eq_self.mpr fun other member => different other (List.mem_append_right _ member)]
  rfl

theorem split_unique {Name : Type v} {name : Element -> Name} {before after left right : List Element}
    {other : Element} (nodup : (elements.map name).Nodup)
    (split : elements = before ++ element :: after) (otherSplit : elements = left ++ other :: right)
    (same : name element = name other) : before = left ∧ element = other ∧ after = right := by
  have here : element ∈ elements := split ▸ List.mem_append_right _ List.mem_cons_self
  have there : other ∈ elements := otherSplit ▸ List.mem_append_right _ List.mem_cons_self
  have equal : element = other := List.inj_on_of_nodup_map nodup here there same
  subst equal
  have distinct : elements.Nodup := nodup.of_map name
  have sameBefore : before = left := by
    rcases List.append_eq_append_iff.mp (split.symm.trans otherSplit) with
      ⟨middle, leftSplit, cut⟩ | ⟨middle, beforeSplit, cut⟩
    · cases middle with
      | nil => rw [leftSplit, List.append_nil]
      | cons first others =>
          rcases List.cons.inj cut with ⟨sameFirst, _⟩
          rw [otherSplit, leftSplit, ← sameFirst] at distinct
          exact absurd (List.mem_append_left _ (List.mem_append_right _ List.mem_cons_self))
            (List.nodup_middle.mp distinct).notMem
    · cases middle with
      | nil => rw [beforeSplit, List.append_nil]
      | cons first others =>
          rcases List.cons.inj cut with ⟨sameFirst, _⟩
          rw [split, beforeSplit, ← sameFirst] at distinct
          exact absurd (List.mem_append_left _ (List.mem_append_right _ List.mem_cons_self))
            (List.nodup_middle.mp distinct).notMem
  subst sameBefore
  have rest := List.append_cancel_left (split.symm.trans otherSplit)
  exact ⟨rfl, rfl, (List.cons.inj rest).2⟩

theorem map_other_of_split {Name : Type v} [DecidableEq Name] {name : Element -> Name}
    {before after : List Element} (change : Element -> Element)
    (nodup : (elements.map name).Nodup) (split : elements = before ++ element :: after) :
    (elements.map fun other => if name other = name element then change other else other) =
      before ++ change element :: after := by
  rw [split, List.map_append, List.map_cons] at nodup
  have absent := (List.nodup_middle.mp nodup).notMem
  rw [← List.map_append] at absent
  have apart : forall other, other ∈ before ++ after -> name other ≠ name element :=
    fun other member same => absent (same ▸ List.mem_map_of_mem member)
  have unchanged : forall part : List Element, (forall other, other ∈ part -> name other ≠ name element) ->
      (part.map fun other => if name other = name element then change other else other) = part := by
    intro part different
    rw [← List.map_id' part, List.map_map]
    exact List.map_congr_left fun other member => if_neg (different other member)
  rw [split, List.map_append, List.map_cons, if_pos rfl,
    unchanged before fun other member => apart other (List.mem_append_left _ member),
    unchanged after fun other member => apart other (List.mem_append_right _ member)]

theorem filter_map_middle {Value : Type v} (before after : List Element) (element : Element)
    (test : Element -> Bool) (read : Element -> Value) :
    (((before ++ element :: after).filter test).map read).Perm
      ((if test element then [read element] else []) ++ ((before ++ after).filter test).map read) := by
  rw [List.filter_append, List.filter_cons, List.filter_append]
  split
  · rw [List.map_append, List.map_cons, List.map_append, List.singleton_append]
    exact List.perm_middle
  · rw [List.nil_append]

end Foundation
end Dokploy
