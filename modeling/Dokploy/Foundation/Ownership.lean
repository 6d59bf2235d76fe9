import Mathlib.Data.Finset.Basic
import Mathlib.Data.Finset.Insert
import Mathlib.Data.Finset.Dedup
import Mathlib.Data.List.Perm.Basic

namespace Dokploy
namespace Foundation

/-!
# Lock sets and their owners

A set of locks says which resources are taken, not by whom.  It is accounted
for by a list of owners when each taken resource has exactly one of them.  A
lock taken while free, and a lock given back by its owner, keep the account.
-/

universe u

variable {Resource : Type u} [DecidableEq Resource]

/-- Every taken resource has exactly one owner, and owners hold their locks. -/
structure Owns (taken : Finset Resource) (owners : List Resource) : Prop where
  exclusive : owners.Nodup
  accounted : taken = owners.toFinset

namespace Owns

variable {taken : Finset Resource} {owners after : List Resource} {resource : Resource}

theorem none : Owns (∅ : Finset Resource) [] :=
  ⟨List.nodup_nil, rfl⟩

theorem mem_iff (owns : Owns taken owners) : resource ∈ taken <-> resource ∈ owners := by
  rw [owns.accounted, List.mem_toFinset]

theorem perm (owns : Owns taken owners) (same : after.Perm owners) : Owns taken after := by
  refine ⟨same.nodup_iff.mpr owns.exclusive, ?_⟩
  rw [owns.accounted]
  exact (List.toFinset_eq_of_perm _ _ same).symm

theorem take (owns : Owns taken owners) (free : resource ∉ taken)
    (joined : after.Perm (resource :: owners)) : Owns (insert resource taken) after := by
  have exclusive : (resource :: owners).Nodup :=
    List.nodup_cons.mpr ⟨fun member => free (owns.mem_iff.mpr member), owns.exclusive⟩
  refine ⟨joined.nodup_iff.mpr exclusive, ?_⟩
  rw [List.toFinset_eq_of_perm _ _ joined, List.toFinset_cons, owns.accounted]

theorem free (owns : Owns taken owners) (left : owners.Perm (resource :: after)) :
    Owns (taken.erase resource) after := by
  rcases List.nodup_cons.mp (left.nodup_iff.mp owns.exclusive) with ⟨absent, exclusive⟩
  refine ⟨exclusive, ?_⟩
  rw [owns.accounted, List.toFinset_eq_of_perm _ _ left, List.toFinset_cons]
  exact Finset.erase_insert fun member => absent (List.mem_toFinset.mp member)

end Owns

section ThreeKinds

variable {first second third gained : List Resource} {resource : Resource}

omit [DecidableEq Resource]

theorem gain_first (gain : gained.Perm (resource :: first)) :
    (gained ++ second ++ third).Perm (resource :: (first ++ second ++ third)) :=
  (gain.append_right second).append_right third

theorem gain_second (gain : gained.Perm (resource :: second)) :
    (first ++ gained ++ third).Perm (resource :: (first ++ second ++ third)) :=
  ((gain.append_left first).trans List.perm_middle).append_right third

theorem gain_third (gain : gained.Perm (resource :: third)) :
    (first ++ second ++ gained).Perm (resource :: (first ++ second ++ third)) :=
  (gain.append_left (first ++ second)).trans List.perm_middle

end ThreeKinds
end Foundation
end Dokploy
