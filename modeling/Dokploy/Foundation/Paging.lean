import Mathlib.Data.List.Basic
import Mathlib.Data.List.Sublists

namespace Dokploy
namespace Foundation

/-!
# Reading a list page by page while it grows

Items have keys and stand newest first.  New items are put in front, so between
two pages an item only moves to a later position: it may be read twice, and none
is missed that is older than one that was read.
-/

variable {Item : Type} (key : Item -> Nat)

def NewestFirst (items : List Item) : Prop := items.Pairwise fun newer older => key older < key newer

/-- The pages that were read so far: of the first `read` items all that are not
newer than everything seen were seen. -/
structure Covers (read : Nat) (seen items : List Item) : Prop where
  known : forall item, item ∈ seen -> item ∈ items
  covered : forall item, item ∈ items.take read -> (Exists fun newer => newer ∈ seen ∧ key item ≤ key newer) ->
    item ∈ seen

/-- All items above a key were seen, up to the newest one that was. -/
structure Complete (handled : Nat) (seen items : List Item) : Prop where
  order : NewestFirst key items
  known : forall item, item ∈ seen -> item ∈ items
  complete : forall item, item ∈ items -> handled < key item ->
    (Exists fun newer => newer ∈ seen ∧ key item ≤ key newer) -> item ∈ seen

variable {key}

theorem NewestFirst.cons {item : Item} {items : List Item} (order : NewestFirst key items)
    (newest : forall older, older ∈ items -> key older < key item) : NewestFirst key (item :: items) :=
  List.Pairwise.cons newest order

variable {items : List Item}

theorem NewestFirst.split (order : NewestFirst key items) (count : Nat) {newer older : Item}
    (first : newer ∈ items.take count) (second : older ∈ items.drop count) : key older < key newer := by
  rw [NewestFirst, <- List.take_append_drop count items] at order
  exact (List.pairwise_append.mp order).2.2 newer first older second

theorem NewestFirst.unique (order : NewestFirst key items) {first second : Item}
    (inFirst : first ∈ items) (inSecond : second ∈ items) (same : key first = key second) : first = second := by
  induction order with
  | nil => cases inFirst
  | cons below _ ih =>
      rcases List.mem_cons.mp inFirst with rfl | laterFirst
      · rcases List.mem_cons.mp inSecond with rfl | laterSecond
        · rfl
        · have := below second laterSecond
          omega
      · rcases List.mem_cons.mp inSecond with rfl | laterSecond
        · have := below first laterFirst
          omega
        · exact ih laterFirst laterSecond

theorem Covers.none (items : List Item) : Covers key 0 [] items where
  known := nofun
  covered := nofun

variable {item : Item}

theorem Covers.grow {read : Nat} {seen : List Item} (covers : Covers key read seen items)
    (newest : forall older, older ∈ items -> key older < key item) : Covers key read seen (item :: items) where
  known := fun old member => List.mem_cons_of_mem _ (covers.known old member)
  covered := by
    rintro old member ⟨newer, isSeen, below⟩
    cases read with
    | zero => cases member
    | succ read =>
        rcases List.mem_cons.mp member with rfl | inItems
        · have := newest newer (covers.known newer isSeen)
          omega
        · apply covers.covered old _ ⟨newer, isSeen, below⟩
          exact List.take_subset_take_left items (Nat.le_succ read) inItems

theorem Complete.grow {handled : Nat} {seen : List Item} (complete : Complete key handled seen items)
    (newest : forall older, older ∈ items -> key older < key item) : Complete key handled seen (item :: items) where
  order := complete.order.cons newest
  known := fun old member => List.mem_cons_of_mem _ (complete.known old member)
  complete := by
    rintro old member above ⟨newer, isSeen, below⟩
    rcases List.mem_cons.mp member with rfl | inItems
    · have := newest newer (complete.known newer isSeen)
      omega
    · exact complete.complete old inItems above ⟨newer, isSeen, below⟩

theorem Covers.page {read size : Nat} {seen : List Item} (covers : Covers key read seen items)
    (order : NewestFirst key items) : Covers key (read + size) (seen ++ (items.drop read).take size) items where
  known := by
    intro item member
    rcases List.mem_append.mp member with before | inPage
    · exact covers.known item before
    · exact List.mem_of_mem_drop (List.mem_of_mem_take inPage)
  covered := by
    rintro item member ⟨newer, isSeen, below⟩
    rw [List.take_add] at member
    rcases List.mem_append.mp member with earlier | inPage
    · rcases List.mem_append.mp isSeen with before | newerInPage
      · exact List.mem_append_left _ (covers.covered item earlier ⟨newer, before, below⟩)
      · have := order.split read earlier (List.mem_of_mem_take newerInPage)
        omega
    · exact List.mem_append_right _ inPage

theorem Covers.complete {read handled : Nat} {seen : List Item} (covers : Covers key read seen items)
    (order : NewestFirst key items)
    (among : forall item, item ∈ items -> handled < key item -> item ∈ items.take read) :
    Complete key handled seen items where
  order := order
  known := covers.known
  complete := fun item member above newer => covers.covered item (among item member above) newer

theorem among_of_short {read size : Nat} (short : ((items.drop read).take size).length < size)
    (member : item ∈ items) : item ∈ items.take (read + size) := by
  rw [List.length_take, List.length_drop] at short
  rw [List.take_of_length_le (by omega)]
  exact member

theorem NewestFirst.among_of_handled {read handled : Nat} (order : NewestFirst key items)
    {old : Item} (isRead : old ∈ items.take read) (isOld : key old ≤ handled) (member : item ∈ items)
    (above : handled < key item) : item ∈ items.take read := by
  rw [<- List.take_append_drop read items] at member
  rcases List.mem_append.mp member with earlier | later
  · exact earlier
  · have := order.split read isRead later
    omega

theorem NewestFirst.among_of_few {read handled : Nat} (order : NewestFirst key items)
    (few : (items.filter fun item => decide (handled < key item)).length ≤ read) (member : item ∈ items)
    (above : handled < key item) : item ∈ items.take read := by
  by_contra notRead
  rw [<- List.take_append_drop read items] at member
  have later : item ∈ items.drop read := (List.mem_append.mp member).resolve_left notRead
  have newer : (items.take read).filter (fun item => decide (handled < key item)) = items.take read := by
    apply List.filter_eq_self.mpr
    intro first isRead
    have := order.split read isRead later
    exact decide_eq_true (by omega)
  have one : 0 < ((items.drop read).filter fun item => decide (handled < key item)).length :=
    List.length_pos_of_mem (List.mem_filter.mpr ⟨later, decide_eq_true above⟩)
  have long : read ≤ items.length := by
    have := List.length_pos_of_mem later
    rw [List.length_drop] at this
    omega
  rw [<- List.take_append_drop read items, List.filter_append, newer, List.length_append, List.length_take,
    Nat.min_eq_left long] at few
  omega

end Foundation
end Dokploy
