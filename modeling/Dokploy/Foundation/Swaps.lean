import Mathlib.Data.List.Basic

namespace Dokploy
namespace Foundation

/-!
# Lists in the same order, except where it does not matter

Two lists are in the same order, as far as it matters, when one becomes the other
by exchanging neighbours that are independent.  Which items are independent is
left open.
-/

universe u

variable {Item : Type u}

inductive Swaps (independent : Item -> Item -> Prop) : List Item -> List Item -> Prop
  | refl (items : List Item) : Swaps independent items items
  | keep (item : Item) {first second : List Item} : Swaps independent first second ->
      Swaps independent (item :: first) (item :: second)
  | swap {left right : Item} (rest : List Item) : independent left right ->
      Swaps independent (left :: right :: rest) (right :: left :: rest)
  | next {first second third : List Item} : Swaps independent first second -> Swaps independent second third ->
      Swaps independent first third

namespace Swaps

variable {independent : Item -> Item -> Prop} {first second : List Item}

theorem perm (swaps : Swaps independent first second) : first.Perm second := by
  induction swaps with
  | refl items => exact List.Perm.refl items
  | keep item _ ih => exact ih.cons item
  | swap rest _ => exact List.Perm.swap _ _ rest
  | next _ _ early late => exact early.trans late

theorem mem_iff (swaps : Swaps independent first second) (item : Item) : item ∈ first <-> item ∈ second :=
  swaps.perm.mem_iff

theorem append_right (swaps : Swaps independent first second) (rest : List Item) :
    Swaps independent (first ++ rest) (second ++ rest) := by
  induction swaps with
  | refl items => exact refl _
  | keep item _ ih => exact keep item ih
  | swap others allowed => exact swap (others ++ rest) allowed
  | next _ _ early late => exact next early late

theorem append_left (front : List Item) (swaps : Swaps independent first second) :
    Swaps independent (front ++ first) (front ++ second) := by
  induction front with
  | nil => exact swaps
  | cons item _ ih => exact keep item ih

theorem filter (kept : Item -> Bool) (swaps : Swaps independent first second) :
    Swaps independent (first.filter kept) (second.filter kept) := by
  induction swaps with
  | refl items => exact refl _
  | keep item _ ih =>
      cases isKept : kept item with
      | false =>
          rw [List.filter_cons_of_neg (by simp [isKept]), List.filter_cons_of_neg (by simp [isKept])]
          exact ih
      | true =>
          rw [List.filter_cons_of_pos isKept, List.filter_cons_of_pos isKept]
          exact keep item ih
  | @swap left right rest allowed =>
      cases leftKept : kept left with
      | false =>
          rw [List.filter_cons_of_neg (by simp [leftKept]), List.filter_cons, List.filter_cons,
            List.filter_cons_of_neg (by simp [leftKept])]
          exact refl _
      | true =>
          cases rightKept : kept right with
          | false =>
              rw [List.filter_cons_of_pos leftKept, List.filter_cons_of_neg (by simp [rightKept]),
                List.filter_cons_of_neg (by simp [rightKept]), List.filter_cons_of_pos leftKept]
              exact refl _
          | true =>
              rw [List.filter_cons_of_pos leftKept, List.filter_cons_of_pos rightKept,
                List.filter_cons_of_pos rightKept, List.filter_cons_of_pos leftKept]
              exact swap _ allowed
  | next _ _ early late => exact next early late

theorem last_to_front (item : Item) (items : List Item) (allowed : forall other, other ∈ items -> independent other item) :
    Swaps independent (items ++ [item]) (item :: items) := by
  induction items with
  | nil => exact refl _
  | cons head tail ih =>
      have inTail := ih fun other member => allowed other (List.mem_cons_of_mem head member)
      exact next (keep head inTail) (swap tail (allowed head List.mem_cons_self))

theorem insert (front back : List Item) (item : Item) (allowed : forall other, other ∈ back -> independent other item) :
    Swaps independent (front ++ back ++ [item]) (front ++ [item] ++ back) := by
  rw [List.append_assoc, List.append_assoc]
  exact append_left front (last_to_front item back allowed)

end Swaps

end Foundation
end Dokploy
