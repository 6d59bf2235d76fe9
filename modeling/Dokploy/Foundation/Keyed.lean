import Mathlib.Data.List.Basic
import Mathlib.Data.List.Nodup
import Mathlib.Data.List.Perm.Basic
import Mathlib.Logic.Function.Basic

namespace Dokploy
namespace Foundation

/-!
# Collecting over keys

A collection that is spread over keys is gathered by `flatMap` over the list
of keys.  When the keys do not repeat, a change at one key changes the
gathered list by exactly that much, up to order.
-/

universe u v

variable {Key : Type u} {Element : Type v}

theorem flatMap_eq_of_mem {keys : List Key} {left right : Key -> List Element}
    (same : forall key, key ∈ keys -> left key = right key) : keys.flatMap left = keys.flatMap right := by
  induction keys with
  | nil => rfl
  | cons head rest ih =>
      rw [List.flatMap_cons, List.flatMap_cons, same head List.mem_cons_self,
        ih fun key member => same key (List.mem_cons_of_mem _ member)]

theorem flatMap_extract {keys : List Key} (nodup : keys.Nodup) {key : Key} (member : key ∈ keys)
    {before after : Key -> List Element} {extra : List Element}
    (here : (after key ++ extra).Perm (before key))
    (elsewhere : forall other, other ≠ key -> after other = before other) :
    (keys.flatMap after ++ extra).Perm (keys.flatMap before) := by
  induction keys with
  | nil => exact (List.not_mem_nil member).elim
  | cons head rest ih =>
      rcases List.nodup_cons.mp nodup with ⟨absent, restNodup⟩
      rw [List.flatMap_cons, List.flatMap_cons]
      rcases List.mem_cons.mp member with same | inRest
      · subst same
        have unchanged : rest.flatMap after = rest.flatMap before :=
          flatMap_eq_of_mem fun other inRest => elsewhere other fun equal => absent (equal ▸ inRest)
        rw [unchanged, List.append_assoc]
        have swapped : (rest.flatMap before ++ extra).Perm (extra ++ rest.flatMap before) :=
          List.perm_append_comm
        refine (swapped.append_left _).trans ?_
        rw [← List.append_assoc]
        exact here.append_right _
      · have different : head ≠ key := fun equal => absent (equal ▸ inRest)
        rw [elsewhere head different, List.append_assoc]
        exact (ih restNodup inRest).append_left _

theorem flatMap_filter_home [BEq Key] [LawfulBEq Key] {keys : List Key} (nodup : keys.Nodup)
    (home : Element -> Key) (elements : List Element)
    (placed : forall element, element ∈ elements -> home element ∈ keys) :
    (keys.flatMap fun key => elements.filter fun element => home element == key).Perm elements := by
  induction elements with
  | nil => exact List.Perm.of_eq (List.flatMap_eq_nil_iff.mpr fun _ _ => rfl)
  | cons head rest ih =>
      have later := ih fun element member => placed element (List.mem_cons_of_mem _ member)
      have extracted := @flatMap_extract Key Element keys nodup (home head) (placed head List.mem_cons_self)
        (fun key => (head :: rest).filter fun element => home element == key)
        (fun key => rest.filter fun element => home element == key) [head] ?_ ?_
      · exact extracted.symm.trans ((later.append_right _).trans List.perm_append_comm)
      · simp only [List.filter_cons, beq_self_eq_true, if_true]
        exact List.perm_append_comm
      · intro other different
        have apart : (home head == other) = false := beq_eq_false_iff_ne.mpr different.symm
        simp only [List.filter_cons, apart, Bool.false_eq_true, if_false]

theorem flatMap_update_nil [DecidableEq Key] {keys : List Key} (nodup : keys.Nodup)
    {key : Key} (member : key ∈ keys) (here : List Element) :
    keys.flatMap (Function.update (fun _ => []) key here) = here := by
  induction keys with
  | nil => exact (List.not_mem_nil member).elim
  | cons head rest ih =>
      rcases List.nodup_cons.mp nodup with ⟨absent, restNodup⟩
      rw [List.flatMap_cons]
      by_cases same : head = key
      · subst same
        have nothing : rest.flatMap (Function.update (fun _ => []) head here) = [] := by
          rw [List.flatMap_eq_nil_iff]
          intro other inRest
          have different : other ≠ head := fun equal => absent (equal ▸ inRest)
          exact Function.update_of_ne different _ _
        rw [Function.update_self, nothing, List.append_nil]
      · have later : key ∈ rest := (List.mem_cons.mp member).resolve_left fun equal => same equal.symm
        rw [Function.update_of_ne same, List.nil_append]
        exact ih restNodup later

end Foundation
end Dokploy
