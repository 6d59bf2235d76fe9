import Mathlib.Data.List.Basic
import Mathlib.Data.List.Nodup
import Dokploy.Foundation.Splits

namespace Dokploy
namespace Foundation

/-!
# Tables with a primary key and a serial column

A database table whose rows carry a key and the number a sequence gave them
when they were inserted.  Rows are kept in the order of their serials, so
listing them oldest first is reading them off.  An insert whose key is taken
does nothing, but it draws a number from the sequence all the same.

What an operation does to one key depends only on what the table has under that
key.  The lemmas below say what, so that a client never looks at the rows of
other keys.
-/

universe u v

structure SerialRow (Key : Type u) (Value : Type v) where
  key : Key
  serial : Nat
  value : Value

/-- Keys do not repeat, and rows stand in the order in which they were
inserted. -/
structure SerialTable (Key : Type u) (Value : Type v) where
  rows : List (SerialRow Key Value)
  next : Nat
  unique : (rows.map (·.key)).Nodup
  ascending : rows.Pairwise (·.serial < ·.serial)
  drawn : forall row, row ∈ rows -> row.serial < next

namespace SerialTable

variable {Key : Type u} {Value : Type v}

def empty : SerialTable Key Value where
  rows := []
  next := 1
  unique := List.nodup_nil
  ascending := List.Pairwise.nil
  drawn := fun _ member => by cases member

def keys (table : SerialTable Key Value) : List Key :=
  table.rows.map (·.key)

/-- Delete the rows whose key passes the test. -/
def deleteWhere (table : SerialTable Key Value) (test : Key -> Bool) : SerialTable Key Value where
  rows := table.rows.filter fun row => !test row.key
  next := table.next
  unique := table.unique.sublist (List.filter_sublist.map _)
  ascending := table.ascending.sublist List.filter_sublist
  drawn := fun row member => table.drawn row (List.mem_filter.mp member).1

/-- Change the values of the rows whose key passes the test. -/
def updateWhere (table : SerialTable Key Value) (test : Key -> Bool) (change : Value -> Value) :
    SerialTable Key Value where
  rows := table.rows.map fun row => if test row.key then { row with value := change row.value } else row
  next := table.next
  unique := by
    have sameKeys : (table.rows.map fun row : SerialRow Key Value =>
        if test row.key then { row with value := change row.value } else row).map (·.key) =
        table.rows.map (·.key) := by
      rw [List.map_map]
      refine List.map_congr_left fun row _ => ?_
      simp only [Function.comp_apply]
      split <;> rfl
    rw [sameKeys]
    exact table.unique
  ascending := by
    refine List.pairwise_map.mpr (table.ascending.imp fun {first second} before => ?_)
    split <;> split <;> exact before
  drawn := by
    intro row member
    rcases List.mem_map.mp member with ⟨old, oldMember, same⟩
    subst same
    split <;> exact table.drawn old oldMember

theorem keys_updateWhere (table : SerialTable Key Value) (test : Key -> Bool) (change : Value -> Value) :
    (table.updateWhere test change).keys = table.keys := by
  unfold keys updateWhere
  rw [List.map_map]
  refine List.map_congr_left fun row _ => ?_
  simp only [Function.comp_apply]
  split <;> rfl

theorem keys_deleteWhere (table : SerialTable Key Value) (test : Key -> Bool) :
    (table.deleteWhere test).keys = table.keys.filter fun key => !test key := by
  unfold keys deleteWhere
  rw [List.filter_map]
  rfl

/-- The rows whose key passes the test, oldest first. -/
def rowsWhere (table : SerialTable Key Value) (test : Key -> Bool) : List (SerialRow Key Value) :=
  table.rows.filter fun row => test row.key

theorem rowsWhere_updateWhere (table : SerialTable Key Value) {test updated : Key -> Bool} (change : Value -> Value)
    (spared : forall key, test key = true -> updated key = false) :
    (table.updateWhere updated change).rowsWhere test = table.rowsWhere test := by
  refine filter_map_eq table.rows (fun row => ?_) (fun row passes => ?_)
  · split <;> rfl
  · rw [spared row.key passes]
    rfl

theorem rowsWhere_updated (table : SerialTable Key Value) (test updated : Key -> Bool) (change : Value -> Value) :
    (table.updateWhere updated change).rowsWhere test = (table.rowsWhere test).map fun row =>
      if updated row.key then { row with value := change row.value } else row := by
  unfold rowsWhere updateWhere
  rw [List.filter_map]
  congr 1
  refine List.filter_congr fun row _ => ?_
  simp only [Function.comp_apply]
  split <;> rfl

theorem rowsWhere_deleted (table : SerialTable Key Value) (test deleted : Key -> Bool) :
    (table.deleteWhere deleted).rowsWhere test = (table.rowsWhere test).filter fun row => !deleted row.key := by
  unfold rowsWhere deleteWhere
  exact List.filter_comm _ _ _

theorem rowsWhere_deleteWhere (table : SerialTable Key Value) {test deleted : Key -> Bool}
    (spared : forall key, test key = true -> deleted key = false) :
    (table.deleteWhere deleted).rowsWhere test = table.rowsWhere test := by
  rw [rowsWhere_deleted]
  refine List.filter_eq_self.mpr fun row member => ?_
  rw [spared row.key (List.mem_filter.mp member).2]
  rfl

variable [DecidableEq Key]

/-- Insert a row unless its key is taken. -/
def insertNew (table : SerialTable Key Value) (key : Key) (value : Value) : SerialTable Key Value where
  rows := if key ∈ table.keys then table.rows else table.rows ++ [⟨key, table.next, value⟩]
  next := table.next + 1
  unique := by
    split
    · exact table.unique
    · rename_i missing
      rw [List.map_append]
      exact List.Nodup.append table.unique (List.nodup_singleton key) (by simpa [keys] using missing)
  ascending := by
    split
    · exact table.ascending
    · refine List.pairwise_append.mpr ⟨table.ascending, List.pairwise_singleton _ _, fun row member last same => ?_⟩
      rw [List.mem_singleton.mp same]
      exact table.drawn row member
  drawn := by
    intro row member
    split at member
    · exact Nat.lt_succ_of_lt (table.drawn row member)
    · rcases List.mem_append.mp member with old | new
      · exact Nat.lt_succ_of_lt (table.drawn row old)
      · rw [List.mem_singleton.mp new]
        exact Nat.lt_succ_self _

def lookup (table : SerialTable Key Value) (key : Key) : Option Value :=
  (table.rows.find? fun row => row.key == key).map (·.value)

variable {key : Key}

theorem rowsWhere_insertNew (table : SerialTable Key Value) {test : Key -> Bool} (value : Value)
    (spared : test key = false) : (table.insertNew key value).rowsWhere test = table.rowsWhere test := by
  have grown : (table.insertNew key value).rows =
      if key ∈ table.keys then table.rows else table.rows ++ [⟨key, table.next, value⟩] := rfl
  rw [rowsWhere, grown]
  split
  · rfl
  · rw [List.filter_append, List.filter_singleton, spared, rowsWhere]
    exact List.append_nil _

variable {row : SerialRow Key Value}

private theorem key_of_found {rows : List (SerialRow Key Value)}
    (found : (rows.find? fun row => row.key == key) = some row) : row.key = key := by
  have accepted := @List.find?_some _ (fun row : SerialRow Key Value => row.key == key) _ _ found
  exact beq_iff_eq.mp accepted

private theorem find_of_member {rows : List (SerialRow Key Value)} (unique : (rows.map (·.key)).Nodup) (member : row ∈ rows) :
    (rows.find? fun other => other.key == row.key) = some row := by
  cases found : rows.find? fun other => other.key == row.key with
  | none => exact absurd (beq_self_eq_true row.key) (List.find?_eq_none.mp found row member)
  | some other =>
      have same : other.key = row.key := key_of_found found
      rw [List.inj_on_of_nodup_map unique (List.mem_of_find?_eq_some found) member same]

variable {table : SerialTable Key Value}

theorem lookup_eq_some {value : Value} :
    table.lookup key = some value <->
      Exists fun row => row ∈ table.rows ∧ row.key = key ∧ row.value = value := by
  unfold lookup
  constructor
  · intro found
    rcases Option.map_eq_some_iff.mp found with ⟨row, here, same⟩
    exact ⟨row, List.mem_of_find?_eq_some here, key_of_found here, same⟩
  · rintro ⟨row, member, sameKey, sameValue⟩
    subst sameKey sameValue
    rw [find_of_member table.unique member]
    rfl

theorem lookup_of_member
    (member : row ∈ table.rows) : table.lookup row.key = some row.value :=
  lookup_eq_some.mpr ⟨row, member, rfl, rfl⟩

theorem lookup_eq_none :
    table.lookup key = none <-> key ∉ table.keys := by
  constructor
  · intro missing member
    rcases List.mem_map.mp member with ⟨row, inRows, same⟩
    rw [← same, lookup_of_member inRows] at missing
    cases missing
  · intro absent
    cases found : table.lookup key with
    | none => rfl
    | some value =>
        rcases lookup_eq_some.mp found with ⟨row, member, same, _⟩
        exact absurd (List.mem_map.mpr ⟨row, member, same⟩) absent

theorem mem_keys :
    key ∈ table.keys <-> Exists fun value => table.lookup key = some value := by
  rw [← Option.ne_none_iff_exists', ne_eq, lookup_eq_none, not_not]

theorem lookup_insertNew (table : SerialTable Key Value) (key : Key) (value : Value) (other : Key) :
    (table.insertNew key value).lookup other =
      if other = key then some ((table.lookup key).getD value) else table.lookup other := by
  by_cases taken : key ∈ table.keys
  · have sameLookup : (table.insertNew key value).lookup other = table.lookup other := by
      simp only [lookup, insertNew, if_pos taken]
    rw [sameLookup]
    split
    · rename_i same
      rcases mem_keys.mp taken with ⟨old, found⟩
      rw [same, found, Option.getD_some]
    · rfl
  · have grown : (table.insertNew key value).rows = table.rows ++ [⟨key, table.next, value⟩] := if_neg taken
    rw [lookup, grown, List.find?_append, lookup_eq_none.mpr taken, Option.getD_none]
    split
    · rename_i same
      have absent : (table.rows.find? fun row => row.key == other) = none := by
        have missing := lookup_eq_none.mpr taken
        rw [lookup, Option.map_eq_none_iff] at missing
        rw [same]
        exact missing
      rw [absent, same, Option.none_or]
      simp only [List.find?_cons, beq_self_eq_true, Option.map_some]
    · rename_i different
      have refused : (key == other) = false := beq_eq_false_iff_ne.mpr fun same => different same.symm
      simp only [List.find?_cons, refused, List.find?_nil, Option.or_none, lookup]

theorem lookup_updateWhere (table : SerialTable Key Value) (test : Key -> Bool) (change : Value -> Value)
    (key : Key) : (table.updateWhere test change).lookup key =
      if test key then (table.lookup key).map change else table.lookup key := by
  have sameTest : ((fun row : SerialRow Key Value => row.key == key) ∘ fun row =>
      if test row.key then { row with value := change row.value } else row) = fun row => row.key == key := by
    funext row
    simp only [Function.comp_apply]
    split <;> rfl
  unfold lookup updateWhere
  simp only [List.find?_map, sameTest]
  cases found : table.rows.find? fun row => row.key == key with
  | none => simp only [Option.map_none, ite_self]
  | some row =>
      have same : row.key = key := key_of_found found
      simp only [Option.map_some, same]
      split <;> rfl

theorem lookup_deleteWhere (table : SerialTable Key Value) (test : Key -> Bool) (key : Key) :
    (table.deleteWhere test).lookup key = if test key then none else table.lookup key := by
  split
  · rename_i deleted
    refine lookup_eq_none.mpr fun member => ?_
    rcases List.mem_map.mp member with ⟨row, inRows, same⟩
    have kept := (List.mem_filter.mp inRows).2
    rw [same, deleted] at kept
    cases kept
  · rename_i kept
    cases found : table.lookup key with
    | none =>
        refine lookup_eq_none.mpr fun member => lookup_eq_none.mp found ?_
        exact (List.filter_sublist.map _).subset member
    | some value =>
        rcases lookup_eq_some.mp found with ⟨row, member, same, sameValue⟩
        refine lookup_eq_some.mpr ⟨row, List.mem_filter.mpr ⟨member, ?_⟩, same, sameValue⟩
        rw [same, Bool.not_eq_true] at *
        rw [kept]
        rfl

end SerialTable
end Foundation
end Dokploy
