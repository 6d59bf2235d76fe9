import Dokploy.Foundation.Entries

namespace Dokploy
namespace Foundation

/-!
# Reading and deleting entries

Reading, setting and deleting an entry of an object, and what each leaves of the
others.
-/

universe u v

variable {Key : Type u} {Value : Type v} [DecidableEq Key]

/-- `object[key]`. -/
def getEntry (entries : List (Key × Value)) (key : Key) : Option Value :=
  (entries.find? fun entry => entry.1 = key).map Prod.snd

/-- `delete object[key]`. -/
def deleteEntry (entries : List (Key × Value)) (key : Key) : List (Key × Value) :=
  entries.filter fun entry => entry.1 ≠ key

@[simp] theorem getEntry_nil (key : Key) : getEntry ([] : List (Key × Value)) key = none := rfl

theorem getEntry_cons (entry : Key × Value) (rest : List (Key × Value)) (key : Key) :
    getEntry (entry :: rest) key = if entry.1 = key then some entry.2 else getEntry rest key := by
  unfold getEntry
  by_cases here : entry.1 = key
  · rw [List.find?_cons_of_pos (by simp [here]), if_pos here]
    rfl
  · rw [List.find?_cons_of_neg (by simp [here]), if_neg here]

theorem getEntry_append (first second : List (Key × Value)) (key : Key) :
    getEntry (first ++ second) key = (getEntry first key).or (getEntry second key) := by
  induction first with
  | nil => rfl
  | cons entry rest ih =>
      rw [List.cons_append, getEntry_cons, getEntry_cons, ih]
      split
      · rfl
      · rfl

theorem getEntry_isSome {entries : List (Key × Value)} {key : Key} :
    (getEntry entries key).isSome = true <-> key ∈ entries.map Prod.fst := by
  induction entries with
  | nil => simp
  | cons entry rest ih =>
      rw [getEntry_cons, List.map_cons, List.mem_cons, ← ih]
      by_cases here : entry.1 = key
      · simp [here]
      · simp [here, Ne.symm here]

theorem getEntry_of_missing {entries : List (Key × Value)} {key : Key} (missing : key ∉ entries.map Prod.fst) :
    getEntry entries key = none := by
  rw [← getEntry_isSome] at missing
  exact Option.not_isSome_iff_eq_none.mp missing

theorem getEntry_perm {entries others : List (Key × Value)} (same : entries.Perm others)
    (apart : (entries.map Prod.fst).Nodup) (key : Key) : getEntry entries key = getEntry others key := by
  induction same with
  | nil => rfl
  | cons entry _ ih =>
      rw [List.map_cons, List.nodup_cons] at apart
      rw [getEntry_cons, getEntry_cons, ih apart.2]
  | swap first second rest =>
      simp only [List.map_cons, List.nodup_cons, List.mem_cons, not_or] at apart
      simp only [getEntry_cons]
      by_cases here : first.1 = key
      · have elsewhere : second.1 ≠ key := fun there => apart.1.1 (there.trans here.symm)
        rw [if_neg elsewhere, if_pos here, if_pos here]
      · rw [if_neg here, if_neg here]
  | trans middle _ ih ihToo =>
      exact (ih apart).trans (ihToo ((middle.map Prod.fst).nodup_iff.mp apart))

private theorem getEntry_mapped_self (entries : List (Key × Value)) (key : Key) (value : Value)
    (present : key ∈ entries.map Prod.fst) :
    getEntry (entries.map fun entry => if entry.1 = key then (key, value) else entry) key = some value := by
  induction entries with
  | nil => cases present
  | cons entry rest ih =>
      rw [List.map_cons, getEntry_cons]
      by_cases here : entry.1 = key
      · rw [if_pos here, if_pos rfl]
      · rw [if_neg here, if_neg here]
        rw [List.map_cons] at present
        exact ih (List.mem_of_ne_of_mem (Ne.symm here) present)

private theorem getEntry_mapped_other (entries : List (Key × Value)) {key other : Key} (value : Value)
    (different : other ≠ key) :
    getEntry (entries.map fun entry => if entry.1 = key then (key, value) else entry) other =
      getEntry entries other := by
  induction entries with
  | nil => rfl
  | cons entry rest ih =>
      rw [List.map_cons, getEntry_cons, getEntry_cons, ih]
      by_cases here : entry.1 = key
      · rw [if_pos here, here, if_neg different.symm, if_neg different.symm]
      · rw [if_neg here]

@[simp] theorem getEntry_setEntry_self (entries : List (Key × Value)) (key : Key) (value : Value) :
    getEntry (setEntry entries key value) key = some value := by
  unfold setEntry
  split
  · rename_i present
    exact getEntry_mapped_self entries key value present
  · rename_i missing
    rw [getEntry_append, getEntry_of_missing missing, getEntry_cons, if_pos rfl]
    rfl

theorem getEntry_setEntry_other (entries : List (Key × Value)) {key other : Key} (value : Value)
    (different : other ≠ key) : getEntry (setEntry entries key value) other = getEntry entries other := by
  unfold setEntry
  split
  · exact getEntry_mapped_other entries value different
  · rw [getEntry_append, getEntry_cons, if_neg different.symm, getEntry_nil, Option.or_none]

@[simp] theorem getEntry_deleteEntry_self (entries : List (Key × Value)) (key : Key) :
    getEntry (deleteEntry entries key) key = none := by
  apply getEntry_of_missing
  intro member
  rcases List.mem_map.mp member with ⟨entry, kept, isKey⟩
  have different := (List.mem_filter.mp kept).2
  rw [isKey] at different
  exact absurd rfl (of_decide_eq_true different)

theorem getEntry_deleteEntry_other (entries : List (Key × Value)) {key other : Key} (different : other ≠ key) :
    getEntry (deleteEntry entries key) other = getEntry entries other := by
  induction entries with
  | nil => rfl
  | cons entry rest ih =>
      unfold deleteEntry at ih ⊢
      rw [List.filter_cons, getEntry_cons]
      by_cases here : entry.1 = key
      · rw [if_neg (by simp [here]), ih, here, if_neg different.symm]
      · rw [if_pos (by simp [here]), getEntry_cons, ih]

theorem getEntry_map_at (entries : List (Key × Value)) (key other : Key) (change : Value -> Value) :
    getEntry (entries.map fun entry => if entry.1 = key then (entry.1, change entry.2) else entry) other =
      if other = key then (getEntry entries other).map change else getEntry entries other := by
  induction entries with
  | nil => simp
  | cons entry rest ih =>
      rw [List.map_cons, getEntry_cons, getEntry_cons, ih]
      by_cases here : entry.1 = key
      · rw [if_pos here]
        by_cases same : entry.1 = other
        · rw [if_pos same, if_pos (same.symm.trans here), if_pos same]
          rfl
        · rw [if_neg same, if_neg same]
      · rw [if_neg here]
        by_cases same : entry.1 = other
        · rw [if_pos same, if_pos same, if_neg fun isKey => here (same.trans isKey)]
        · rw [if_neg same, if_neg same]

theorem getEntry_map_values {Changed : Type v} (entries : List (Key × Value)) (change : Key -> Value -> Changed)
    (key : Key) :
    getEntry (entries.map fun entry => (entry.1, change entry.1 entry.2)) key =
      (getEntry entries key).map (change key) := by
  induction entries with
  | nil => rfl
  | cons entry rest ih =>
      rw [List.map_cons, getEntry_cons, getEntry_cons, ih]
      by_cases here : entry.1 = key
      · rw [if_pos here, if_pos here, Option.map_some, here]
      · rw [if_neg here, if_neg here]

theorem getEntry_map_keys (keys : List Key) (value : Key -> Value) {key : Key} (member : key ∈ keys) :
    getEntry (keys.map fun key => (key, value key)) key = some (value key) := by
  induction keys with
  | nil => cases member
  | cons first rest ih =>
      rw [List.map_cons, getEntry_cons]
      by_cases here : first = key
      · rw [if_pos here, here]
      · rw [if_neg here]
        exact ih (List.mem_of_ne_of_mem (Ne.symm here) member)

end Foundation
end Dokploy
