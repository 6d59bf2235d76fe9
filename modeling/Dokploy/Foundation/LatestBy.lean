import Mathlib.Data.List.Basic
import Mathlib.Data.List.Induction
import Mathlib.Data.List.Nodup
import Mathlib.Data.List.Perm.Basic

namespace Dokploy
namespace Foundation

/-!
# The latest item under each key

Items arrive in a list, each under a key.  A pass over the list keeps one item
for each key and replaces it when a later one arrives.  Keys stay in the order
in which they were first seen, as in a map with insertion order.
-/

universe u v

namespace LatestBy

variable {Key : Type u} {Item : Type v} [DecidableEq Key]

def put (later : Item -> Item -> Bool) : List (Key × Item) -> Key -> Item -> List (Key × Item)
  | [], key, item => [(key, item)]
  | (known, held) :: rest, key, item =>
      if known = key then (known, if later item held then item else held) :: rest
      else (known, held) :: put later rest key item

/-- What is held once every item has competed, in order. -/
def latestOf (later : Item -> Item -> Bool) (entries : List (Key × Item)) : List (Key × Item) :=
  entries.foldl (fun held entry => put later held entry.1 entry.2) []

variable {later : Item -> Item -> Bool}

theorem mem_put {held : List (Key × Item)} {key : Key} {item : Item}
    {entry : Key × Item} (member : entry ∈ put later held key item) :
    entry ∈ held ∨ entry = (key, item) := by
  induction held with
  | nil => exact Or.inr (List.mem_singleton.mp member)
  | cons first rest ih =>
      rcases first with ⟨known, old⟩
      rw [put] at member
      split at member
      · rename_i same
        rcases List.mem_cons.mp member with here | later
        · subst same here
          split
          · exact Or.inr rfl
          · exact Or.inl List.mem_cons_self
        · exact Or.inl (List.mem_cons_of_mem _ later)
      · rcases List.mem_cons.mp member with here | later
        · exact Or.inl (here ▸ List.mem_cons_self)
        · exact (ih later).imp_left (List.mem_cons_of_mem _)

theorem mem_of_mem_latestOf {entries : List (Key × Item)} {entry : Key × Item}
    (member : entry ∈ latestOf later entries) : entry ∈ entries := by
  have general : forall (arrivals held : List (Key × Item)),
      entry ∈ arrivals.foldl (fun held entry => put later held entry.1 entry.2) held ->
      entry ∈ held ∨ entry ∈ arrivals := by
    intro arrivals
    induction arrivals with
    | nil => exact fun held here => Or.inl here
    | cons first rest ih =>
        intro held here
        rcases ih _ here with inHeld | inRest
        · rcases mem_put inHeld with old | new
          · exact Or.inl old
          · exact Or.inr (new ▸ List.mem_cons_self)
        · exact Or.inr (List.mem_cons_of_mem _ inRest)
  exact (general entries [] member).resolve_left List.not_mem_nil

/-- Of the items under one key, each two are ordered, and in one way, and the order
has no cycle. -/
structure Ordered (later : Item -> Item -> Bool) (entries : List (Key × Item)) : Prop where
  total : forall key first second, (key, first) ∈ entries -> (key, second) ∈ entries -> first ≠ second ->
    later first second = true ∨ later second first = true
  asymmetric : forall key first second, (key, first) ∈ entries -> (key, second) ∈ entries ->
    later first second = true -> later second first = false
  transitive : forall key first second third, (key, first) ∈ entries -> (key, second) ∈ entries ->
    (key, third) ∈ entries -> later first second = true -> later second third = true -> later first third = true

/-- An item that is later than every other under its key. -/
def Latest (later : Item -> Item -> Bool) (entries : List (Key × Item)) (entry : Key × Item) : Prop :=
  entry ∈ entries ∧ forall item, (entry.1, item) ∈ entries -> item = entry.2 ∨ later entry.2 item = true

structure Holds (later : Item -> Item -> Bool) (seen held : List (Key × Item)) : Prop where
  once : (held.map Prod.fst).Nodup
  latest : forall entry, entry ∈ held -> Latest later seen entry
  covers : forall entry, entry ∈ seen -> entry.1 ∈ held.map Prod.fst

theorem keys_put (held : List (Key × Item)) (key : Key) (item : Item) :
    (put later held key item).map Prod.fst =
      if key ∈ held.map Prod.fst then held.map Prod.fst else held.map Prod.fst ++ [key] := by
  induction held with
  | nil => rfl
  | cons first rest ih =>
      rcases first with ⟨known, old⟩
      rw [put]
      by_cases same : known = key
      · have here : key ∈ ((known, old) :: rest).map Prod.fst := List.mem_cons.mpr (Or.inl same.symm)
        rw [if_pos same, if_pos here]
        rfl
      · rw [if_neg same, List.map_cons, ih]
        by_cases inRest : key ∈ rest.map Prod.fst
        · have here : key ∈ ((known, old) :: rest).map Prod.fst := List.mem_cons_of_mem _ inRest
          rw [if_pos inRest, if_pos here]
          rfl
        · have notHere : key ∉ ((known, old) :: rest).map Prod.fst :=
            fun member => (List.mem_cons.mp member).elim (fun isKnown => same isKnown.symm) inRest
          rw [if_neg inRest, if_neg notHere]
          rfl

theorem mem_put_cases {held : List (Key × Item)} {key : Key} {item : Item}
    (once : (held.map Prod.fst).Nodup) {entry : Key × Item} (member : entry ∈ put later held key item) :
    (entry ∈ held ∧ entry.1 ≠ key) ∨ (entry = (key, item) ∧ key ∉ held.map Prod.fst) ∨
      Exists fun old => (key, old) ∈ held ∧ entry = (key, if later item old then item else old) := by
  induction held with
  | nil => exact Or.inr (Or.inl ⟨List.mem_singleton.mp member, List.not_mem_nil⟩)
  | cons first rest ih =>
      rcases first with ⟨known, old⟩
      have parts := List.nodup_cons.mp once
      rw [put] at member
      by_cases same : known = key
      · rw [if_pos same] at member
        rcases List.mem_cons.mp member with here | inRest
        · exact Or.inr (Or.inr ⟨old, same ▸ List.mem_cons_self, same ▸ here⟩)
        · refine Or.inl ⟨List.mem_cons_of_mem _ inRest, fun isKey => parts.1 ?_⟩
          exact List.mem_map.mpr ⟨entry, inRest, isKey.trans same.symm⟩
      · rw [if_neg same] at member
        rcases List.mem_cons.mp member with here | inRest
        · exact Or.inl ⟨here ▸ List.mem_cons_self, here ▸ same⟩
        · rcases ih parts.2 inRest with ⟨inHeld, other⟩ | ⟨isNew, fresh⟩ | ⟨winner, inHeld, isWinner⟩
          · exact Or.inl ⟨List.mem_cons_of_mem _ inHeld, other⟩
          · refine Or.inr (Or.inl ⟨isNew, fun member => ?_⟩)
            exact (List.mem_cons.mp member).elim (fun isKnown => same isKnown.symm) fresh
          · exact Or.inr (Or.inr ⟨winner, List.mem_cons_of_mem _ inHeld, isWinner⟩)

theorem Holds.put {later : Item -> Item -> Bool} {seen held : List (Key × Item)} {new : Key × Item}
    (holds : Holds later seen held) (ordered : Ordered later (seen ++ [new])) :
    Holds later (seen ++ [new]) (LatestBy.put later held new.1 new.2) where
  once := by
    rw [keys_put]
    split
    · exact holds.once
    · rename_i fresh
      exact List.nodup_append.mpr ⟨holds.once, List.nodup_singleton _, fun key inHeld other isNew =>
        fun same => fresh (List.mem_singleton.mp isNew ▸ same ▸ inHeld)⟩
  latest := by
    have inAll : forall entry, entry ∈ seen -> entry ∈ seen ++ [new] := fun _ member => List.mem_append_left _ member
    have newInAll : (new.1, new.2) ∈ seen ++ [new] := List.mem_append_right _ List.mem_cons_self
    intro entry member
    rcases mem_put_cases holds.once member with ⟨inHeld, other⟩ | ⟨isNew, fresh⟩ | ⟨old, inHeld, isWinner⟩
    · have before := holds.latest entry inHeld
      refine ⟨inAll entry before.1, fun item inSeen => ?_⟩
      refine before.2 item ((List.mem_append.mp inSeen).resolve_right fun isNew => other ?_)
      rw [← List.mem_singleton.mp isNew]
    · rw [isNew]
      refine ⟨newInAll, fun item inSeen => ?_⟩
      rcases List.mem_append.mp inSeen with inSeen | isNew
      · exact absurd (holds.covers _ inSeen) fresh
      · exact Or.inl (congrArg Prod.snd (List.mem_singleton.mp isNew))
    · have before := holds.latest (new.1, old) inHeld
      have oldInAll := inAll _ before.1
      rw [isWinner]
      by_cases wins : later new.2 old = true
      · rw [if_pos wins]
        refine ⟨newInAll, fun item inSeen => ?_⟩
        rcases List.mem_append.mp inSeen with inSeen | isNew
        · rcases before.2 item inSeen with isOld | isLater
          · exact Or.inr (isOld ▸ wins)
          · exact Or.inr (ordered.transitive new.1 new.2 old item newInAll oldInAll (inAll _ inSeen) wins isLater)
        · exact Or.inl (congrArg Prod.snd (List.mem_singleton.mp isNew))
      · rw [if_neg wins]
        refine ⟨oldInAll, fun item inSeen => ?_⟩
        rcases List.mem_append.mp inSeen with inSeen | isNew
        · exact before.2 item inSeen
        · have isItem : item = new.2 := congrArg Prod.snd (List.mem_singleton.mp isNew)
          by_cases same : item = old
          · exact Or.inl same
          · rcases ordered.total new.1 item old (isItem ▸ newInAll) oldInAll same with isLater | isEarlier
            · exact absurd (isItem ▸ isLater) wins
            · exact Or.inr isEarlier
  covers := by
    intro entry member
    rw [keys_put]
    rcases List.mem_append.mp member with inSeen | isNew
    · have known := holds.covers entry inSeen
      split
      · exact known
      · exact List.mem_append_left _ known
    · rw [List.mem_singleton.mp isNew]
      split
      · assumption
      · exact List.mem_append_right _ List.mem_cons_self

theorem holds_latestOf (entries : List (Key × Item))
    (ordered : Ordered later entries) : Holds later entries (latestOf later entries) := by
  induction entries using List.reverseRec with
  | nil =>
      exact ⟨List.nodup_nil, fun _ none => absurd none List.not_mem_nil, fun _ none => absurd none List.not_mem_nil⟩
  | append_singleton seen new ih =>
      have inAll : forall entry, entry ∈ seen -> entry ∈ seen ++ [new] := fun _ member => List.mem_append_left _ member
      have before : Ordered later seen := {
        total := fun key first second isFirst isSecond => ordered.total key first second (inAll _ isFirst) (inAll _ isSecond)
        asymmetric := fun key first second isFirst isSecond =>
          ordered.asymmetric key first second (inAll _ isFirst) (inAll _ isSecond)
        transitive := fun key first second third isFirst isSecond isThird =>
          ordered.transitive key first second third (inAll _ isFirst) (inAll _ isSecond) (inAll _ isThird) }
      rw [latestOf, List.foldl_append]
      exact (ih before).put ordered

theorem mem_latestOf_iff {entries : List (Key × Item)}
    (ordered : Ordered later entries) (entry : Key × Item) :
    entry ∈ latestOf later entries <-> Latest later entries entry := by
  have holds := holds_latestOf entries ordered
  constructor
  · exact holds.latest entry
  · intro latest
    rcases List.mem_map.mp (holds.covers entry latest.1) with ⟨held, inHeld, sameKey⟩
    have heldLatest := holds.latest held inHeld
    have isEntry : held = entry := by
      refine Prod.ext sameKey ?_
      rcases latest.2 held.2 (sameKey ▸ heldLatest.1) with same | isLater
      · exact same
      · rcases heldLatest.2 entry.2 (sameKey ▸ latest.1) with same | isEarlier
        · exact same.symm
        · have asymmetric := ordered.asymmetric entry.1 entry.2 held.2 latest.1 (sameKey ▸ heldLatest.1) isLater
          rw [isEarlier] at asymmetric
          cases asymmetric
    exact isEntry ▸ inHeld

theorem latestOf_perm {entries others : List (Key × Item)}
    (ordered : Ordered later entries) (perm : others.Perm entries) :
    (latestOf later others).Perm (latestOf later entries) := by
  have member : forall entry, entry ∈ others <-> entry ∈ entries := fun _ => perm.mem_iff
  have otherOrdered : Ordered later others := {
    total := fun key first second isFirst isSecond =>
      ordered.total key first second ((member _).mp isFirst) ((member _).mp isSecond)
    asymmetric := fun key first second isFirst isSecond =>
      ordered.asymmetric key first second ((member _).mp isFirst) ((member _).mp isSecond)
    transitive := fun key first second third isFirst isSecond isThird =>
      ordered.transitive key first second third ((member _).mp isFirst) ((member _).mp isSecond)
        ((member _).mp isThird) }
  refine (List.perm_ext_iff_of_nodup (holds_latestOf others otherOrdered).once.of_map
    (holds_latestOf entries ordered).once.of_map).mpr fun entry => ?_
  rw [mem_latestOf_iff otherOrdered, mem_latestOf_iff ordered, Latest, Latest, member]
  exact and_congr_right fun _ => forall_congr' fun item => imp_congr_left (member _)

end LatestBy
end Foundation
end Dokploy
