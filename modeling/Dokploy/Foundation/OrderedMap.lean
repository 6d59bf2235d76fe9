import Mathlib.Data.List.Basic
import Mathlib.Data.List.Nodup

namespace Dokploy
namespace Foundation

/-!
# Insertion-ordered maps with a neutral value

A map keeps its keys in insertion order and assigns a neutral value to every
key that was never added.  Reading a missing key and reading an untouched one
therefore agree, which makes statements about all keys uniform, while the key
list still tells which entries an iteration visits and in which order.
-/

universe u v

/-- The key list has no repetition, and a missing key carries the neutral
value.  Both are fields, so every map built below keeps them. -/
structure OrderedMap (Key : Type u) (Value : Type v) (neutral : Value) where
  keys : List Key
  value : Key -> Value
  nodup : keys.Nodup
  outside : forall key, key ∉ keys -> value key = neutral

namespace OrderedMap

variable {Key : Type u} {Value : Type v} {neutral : Value}

def empty : OrderedMap Key Value neutral where
  keys := []
  value := fun _ => neutral
  nodup := List.nodup_nil
  outside := fun _ _ => rfl

@[simp] theorem empty_keys : (empty : OrderedMap Key Value neutral).keys = [] := rfl

variable [DecidableEq Key]

/-- Add a missing key at the end, with the neutral value. -/
def ensure (map : OrderedMap Key Value neutral) (key : Key) : OrderedMap Key Value neutral where
  keys := if key ∈ map.keys then map.keys else map.keys ++ [key]
  value := map.value
  nodup := by
    split
    · exact map.nodup
    · rename_i missing
      exact List.Nodup.append map.nodup (List.nodup_singleton key) (by simpa using missing)
  outside := by
    intro other absent
    apply map.outside
    split at absent
    · exact absent
    · exact fun member => absent (List.mem_append_left _ member)

/-- Change the value of a present key, and leave a missing key missing. -/
def modify (map : OrderedMap Key Value neutral) (key : Key) (change : Value -> Value) :
    OrderedMap Key Value neutral where
  keys := map.keys
  value := fun other => if other = key ∧ key ∈ map.keys then change (map.value other) else map.value other
  nodup := map.nodup
  outside := by
    intro other absent
    have missing : ¬ (other = key ∧ key ∈ map.keys) := fun both => absent (both.1 ▸ both.2)
    rw [if_neg missing]
    exact map.outside other absent

/-- Change every present value.  The change may look at the key. -/
def mapValues (map : OrderedMap Key Value neutral) (change : Key -> Value -> Value) :
    OrderedMap Key Value neutral where
  keys := map.keys
  value := fun key => if key ∈ map.keys then change key (map.value key) else neutral
  nodup := map.nodup
  outside := fun _ absent => if_neg absent

@[simp] theorem ensure_value (map : OrderedMap Key Value neutral) (key : Key) :
    (map.ensure key).value = map.value := rfl

theorem ensure_keys (map : OrderedMap Key Value neutral) (key : Key) :
    (map.ensure key).keys = if key ∈ map.keys then map.keys else map.keys ++ [key] := rfl

@[simp] theorem mem_ensure_keys (map : OrderedMap Key Value neutral) (key other : Key) :
    other ∈ (map.ensure key).keys <-> other = key ∨ other ∈ map.keys := by
  unfold ensure
  by_cases present : key ∈ map.keys
  · simp only [if_pos present]
    constructor
    · exact Or.inr
    · rintro (same | member)
      · exact same ▸ present
      · exact member
  · simp only [if_neg present, List.mem_append, List.mem_singleton]
    exact Or.comm

theorem modify_value_eq_update (map : OrderedMap Key Value neutral) (key : Key)
    (change : Value -> Value) (present : key ∈ map.keys) :
    (map.modify key change).value = Function.update map.value key (change (map.value key)) := by
  funext other
  by_cases same : other = key
  · subst same
    simp only [modify, present, and_self, if_true, Function.update_self]
  · simp only [modify, same, false_and, if_false, Function.update_of_ne, ne_eq, not_false_eq_true]

theorem mapValues_of_same (map : OrderedMap Key Value neutral) (change : Key -> Value -> Value)
    (same : forall key, key ∈ map.keys -> change key (map.value key) = map.value key) :
    map.mapValues change = map := by
  have values : (map.mapValues change).value = map.value := by
    funext key
    by_cases present : key ∈ map.keys
    · simp only [mapValues, if_pos present, same key present]
    · simp only [mapValues, if_neg present, map.outside key present]
  cases map
  simp only [mapValues] at values ⊢
  congr

/-- Where the change keeps the neutral value of a missing key, the present and
the missing keys need not be told apart. -/
theorem mapValues_value_of (map : OrderedMap Key Value neutral) (change : Key -> Value -> Value)
    (key : Key) (neutralKept : key ∉ map.keys -> change key neutral = neutral) :
    (map.mapValues change).value key = change key (map.value key) := by
  by_cases present : key ∈ map.keys
  · simp only [mapValues, if_pos present]
  · simp only [mapValues, if_neg present, map.outside key present, neutralKept present]

end OrderedMap
end Foundation
end Dokploy
