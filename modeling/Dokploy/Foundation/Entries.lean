import Mathlib.Data.List.Basic
import Mathlib.Data.List.Nodup

namespace Dokploy
namespace Foundation

/-!
# Objects rebuilt entry by entry

An object is the list of its entries, in the order its keys were first set.
Rebuilding one under renamed keys may let two keys meet.  The later value then
stands where the earlier one stood, and an entry is lost, so the rebuilt object
is as long as the old one exactly when it is the old one with every entry
renamed.
-/

universe u v w

variable {Key : Type u} {Value : Type v} {Changed : Type w} [DecidableEq Key]

/-- `object[key] = value`: a key that is there keeps its place. -/
def setEntry (entries : List (Key × Value)) (key : Key) (value : Value) : List (Key × Value) :=
  if key ∈ entries.map Prod.fst then
    entries.map fun entry => if entry.1 = key then (key, value) else entry
  else entries ++ [(key, value)]

/-- Set every entry, under its new key and with its new value, on an object that begins empty. -/
def rebuild (rename : Key -> Key) (change : Value -> Changed) (entries : List (Key × Value)) :
    List (Key × Changed) :=
  entries.foldl (fun object entry => setEntry object (rename entry.1) (change entry.2)) []

variable {entries : List (Key × Value)}

theorem setEntry_new {key : Key} (value : Value)
    (new : key ∉ entries.map Prod.fst) : setEntry entries key value = entries ++ [(key, value)] := if_neg new

theorem mem_setEntry {key : Key} {value : Value} {entry : Key × Value}
    (present : entry ∈ setEntry entries key value) : entry = (key, value) ∨ entry ∈ entries := by
  unfold setEntry at present
  split at present
  · obtain ⟨old, among, rfl⟩ := List.mem_map.mp present
    split
    · exact Or.inl rfl
    · exact Or.inr among
  · rcases List.mem_append.mp present with among | same
    · exact Or.inr among
    · exact Or.inl (List.mem_singleton.mp same)

theorem keys_setEntry_present {key : Key} (value : Value)
    (present : key ∈ entries.map Prod.fst) : (setEntry entries key value).map Prod.fst = entries.map Prod.fst := by
  rw [setEntry, if_pos present, List.map_map]
  apply List.map_congr_left
  intro entry _
  simp only [Function.comp_apply]
  split
  · rename_i here
    exact here.symm
  · rfl

theorem keys_setEntry_new {key : Key} (value : Value)
    (new : key ∉ entries.map Prod.fst) : (setEntry entries key value).map Prod.fst = entries.map Prod.fst ++ [key] := by
  rw [setEntry_new value new, List.map_append, List.map_singleton]

theorem mem_keys_setEntry (entries : List (Key × Value)) (key other : Key) (value : Value) :
    other ∈ (setEntry entries key value).map Prod.fst <-> other ∈ entries.map Prod.fst ∨ other = key := by
  by_cases present : key ∈ entries.map Prod.fst
  · rw [keys_setEntry_present value present]
    constructor
    · exact Or.inl
    · rintro (member | rfl)
      · exact member
      · exact present
  · rw [keys_setEntry_new value present, List.mem_append, List.mem_singleton]

theorem nodup_setEntry (key : Key) (value : Value)
    (nodup : (entries.map Prod.fst).Nodup) : ((setEntry entries key value).map Prod.fst).Nodup := by
  by_cases present : key ∈ entries.map Prod.fst
  · rw [keys_setEntry_present value present]
    exact nodup
  · rw [keys_setEntry_new value present, List.nodup_append]
    refine ⟨nodup, List.nodup_singleton key, fun member inEntries other isKey same => ?_⟩
    rw [List.mem_singleton.mp isKey] at same
    exact present (same ▸ inEntries)

theorem length_setEntry_le (entries : List (Key × Value)) (key : Key) (value : Value) :
    (setEntry entries key value).length ≤ entries.length + 1 := by
  unfold setEntry
  split
  · rw [List.length_map]
    exact Nat.le_succ _
  · exact Nat.le_of_eq List.length_append

variable (rename : Key -> Key) (change : Value -> Changed)

private theorem nodup_rebuild_from (entries : List (Key × Value)) (object : List (Key × Changed))
    (nodup : (object.map Prod.fst).Nodup) :
    ((entries.foldl (fun object entry => setEntry object (rename entry.1) (change entry.2)) object).map Prod.fst).Nodup := by
  induction entries generalizing object with
  | nil => exact nodup
  | cons entry rest ih => exact ih _ (nodup_setEntry _ _ nodup)

theorem nodup_rebuild (entries : List (Key × Value)) : ((rebuild rename change entries).map Prod.fst).Nodup :=
  nodup_rebuild_from rename change entries [] List.nodup_nil

private theorem length_rebuild_from_le (entries : List (Key × Value)) (object : List (Key × Changed)) :
    (entries.foldl (fun object entry => setEntry object (rename entry.1) (change entry.2)) object).length ≤
      object.length + entries.length := by
  induction entries generalizing object with
  | nil => exact Nat.le_refl _
  | cons entry rest ih =>
      have bound := ih (setEntry object (rename entry.1) (change entry.2))
      have first := length_setEntry_le object (rename entry.1) (change entry.2)
      rw [List.foldl_cons, List.length_cons]
      omega

private theorem rebuild_from_of_length (entries : List (Key × Value)) (object : List (Key × Changed))
    (full : (entries.foldl (fun object entry => setEntry object (rename entry.1) (change entry.2)) object).length =
      object.length + entries.length) :
    entries.foldl (fun object entry => setEntry object (rename entry.1) (change entry.2)) object =
      object ++ entries.map fun entry => (rename entry.1, change entry.2) := by
  induction entries generalizing object with
  | nil => exact (List.append_nil object).symm
  | cons entry rest ih =>
      rw [List.foldl_cons, List.length_cons] at full
      have bound := length_rebuild_from_le rename change rest (setEntry object (rename entry.1) (change entry.2))
      by_cases present : rename entry.1 ∈ object.map Prod.fst
      · have short : (setEntry object (rename entry.1) (change entry.2)).length = object.length := by
          rw [setEntry, if_pos present, List.length_map]
        omega
      · have new := setEntry_new (change entry.2) present
        rw [new] at full
        rw [List.foldl_cons, new, ih _ (by rw [List.length_append, List.length_singleton]; omega),
          List.append_assoc]
        rfl

theorem length_rebuild_le (entries : List (Key × Value)) : (rebuild rename change entries).length ≤ entries.length := by
  have bound := length_rebuild_from_le rename change entries []
  rwa [List.length_nil, Nat.zero_add] at bound

theorem rebuild_of_length (full : (rebuild rename change entries).length = entries.length) :
    rebuild rename change entries = entries.map fun entry => (rename entry.1, change entry.2) :=
  rebuild_from_of_length rename change entries [] (by rw [List.length_nil, Nat.zero_add]; exact full)

private theorem rebuild_from_of_nodup (entries : List (Key × Value)) (object : List (Key × Changed))
    (apart : (object.map Prod.fst ++ entries.map fun entry => rename entry.1).Nodup) :
    entries.foldl (fun object entry => setEntry object (rename entry.1) (change entry.2)) object =
      object ++ entries.map fun entry => (rename entry.1, change entry.2) := by
  induction entries generalizing object with
  | nil => exact (List.append_nil object).symm
  | cons entry rest ih =>
      have moved : ((object ++ [(rename entry.1, change entry.2)]).map Prod.fst ++
          rest.map fun entry => rename entry.1).Nodup := by
        rw [List.map_append, List.append_assoc]
        exact apart
      have missing : rename entry.1 ∉ object.map Prod.fst := fun present =>
        List.disjoint_of_nodup_append apart present List.mem_cons_self
      rw [List.foldl_cons, setEntry_new _ missing, ih _ moved, List.append_assoc]
      rfl

theorem rebuild_of_nodup (apart : (entries.map fun entry => rename entry.1).Nodup) :
    rebuild rename change entries = entries.map fun entry => (rename entry.1, change entry.2) :=
  rebuild_from_of_nodup rename change entries [] apart

private theorem mem_keys_rebuild_from (entries : List (Key × Value)) (object : List (Key × Changed)) (key : Key) :
    key ∈ (entries.foldl (fun object entry => setEntry object (rename entry.1) (change entry.2)) object).map Prod.fst <->
      key ∈ object.map Prod.fst ∨ Exists fun old => old ∈ entries.map Prod.fst ∧ key = rename old := by
  induction entries generalizing object with
  | nil =>
      rw [List.foldl_nil, List.map_nil]
      constructor
      · exact Or.inl
      · rintro (member | ⟨_, member, _⟩)
        · exact member
        · exact absurd member List.not_mem_nil
  | cons entry rest ih =>
      rw [List.foldl_cons, ih, mem_keys_setEntry, List.map_cons]
      constructor
      · rintro ((member | rfl) | ⟨old, member, same⟩)
        · exact Or.inl member
        · exact Or.inr ⟨entry.1, List.mem_cons_self, rfl⟩
        · exact Or.inr ⟨old, List.mem_cons_of_mem _ member, same⟩
      · rintro (member | ⟨old, member, same⟩)
        · exact Or.inl (Or.inl member)
        · rcases List.mem_cons.mp member with rfl | later
          · exact Or.inl (Or.inr same)
          · exact Or.inr ⟨old, later, same⟩

theorem mem_keys_rebuild (entries : List (Key × Value)) (key : Key) :
    key ∈ (rebuild rename change entries).map Prod.fst <->
      Exists fun old => old ∈ entries.map Prod.fst ∧ key = rename old := by
  rw [rebuild, mem_keys_rebuild_from]
  constructor
  · rintro (member | found)
    · exact absurd member List.not_mem_nil
    · exact found
  · exact Or.inr

end Foundation
end Dokploy
