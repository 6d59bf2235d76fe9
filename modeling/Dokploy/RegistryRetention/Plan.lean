import Dokploy.RegistryRetention.Responses
import Mathlib.Data.List.Sort
import Mathlib.Data.List.Lex

namespace Dokploy
namespace RegistryRetention

/-!
# Which tags stay

The dpl- tags of a repository are ordered from the newest deployment to the oldest,
then by name; a tag without a known deployment is older than every other.  A tag is
doomed when it is not among the first ones and no release file names it.  How many
tags are newer than a given one says whether it is among the first, without a word
about sorting.
-/

structure RepoTagPlan where
  /-- Candidates for deletion, oldest first. -/
  doomedTags : List Text
  keptTags : List Text

def compareNames (a b : Text) : Int := if b < a then -1 else if a < b then 1 else 0

def compareTags (tagTimes : Text -> Option Int) (a b : Text) : Int :=
  match tagTimes a, tagTimes b with
  | some timeA, some timeB => if timeA ≠ timeB then timeB - timeA else compareNames a b
  | none, some _ => 1
  | some _, none => -1
  | none, none => compareNames a b

/-- The first tag does not come after the second. -/
def newerFirst (tagTimes : Text -> Option Int) (a b : Text) : Bool := decide (compareTags tagTimes a b ≤ 0)

def newestFirst (tags : List Text) (tagTimes : Text -> Option Int) : List Text :=
  (tags.eraseDups.filter isDplTag).insertionSort fun a b => newerFirst tagTimes a b = true

def planRepoTags (tags : List Text) (protectedTags : List Text) (tagTimes : Text -> Option Int) (keep : Int) :
    RepoTagPlan :=
  let newest := (newestFirst tags tagTimes).take keep.toNat
  let doomedTags := ((newestFirst tags tagTimes).filter fun tag => tag ∉ newest ∧ tag ∉ protectedTags).reverse
  { doomedTags, keptTags := tags.eraseDups.filter (· ∉ doomedTags) }

structure SelectedDigests where
  deleteDigests : List Text
  deleteTags : List Text
  heldBack : List (Text × Text)

def selectOne (protectedDigests : List Text) (selected : SelectedDigests) (doomed : Text × Text) : SelectedDigests :=
  if doomed.2 ∈ protectedDigests then { selected with heldBack := selected.heldBack ++ [doomed] }
  else
    { selected with
      deleteTags := selected.deleteTags ++ [doomed.1]
      deleteDigests :=
        if doomed.2 ∈ selected.deleteDigests then selected.deleteDigests else selected.deleteDigests ++ [doomed.2] }

def selectDigestsToDelete (doomedDigests : List (Text × Text)) (protectedDigests : List Text) : SelectedDigests :=
  doomedDigests.foldl (selectOne protectedDigests) ⟨[], [], []⟩

section Newest

variable {tagTimes : Text -> Option Int}

/-- One tag ranks before another: pushed by a later deployment, or by a known one, or greater in name. -/
def Newer (tagTimes : Text -> Option Int) (a b : Text) : Prop := compareTags tagTimes a b < 0

instance (a b : Text) : Decidable (Newer tagTimes a b) := inferInstanceAs (Decidable (_ < _))

theorem compareNames_nonpos (a b : Text) : compareNames a b ≤ 0 <-> ¬ a < b := by
  unfold compareNames
  by_cases below : b < a
  · have other : ¬ a < b := List.lt_asymm below
    simp [below, other]
  · by_cases above : a < b
    · simp [below, above]
    · simp [below, above]

theorem compareNames_neg (a b : Text) : compareNames a b < 0 <-> b < a := by
  unfold compareNames
  by_cases below : b < a
  · simp [below]
  · by_cases above : a < b
    · simp [below, above]
    · simp [below, above]

theorem eq_of_not_lt {a b : Text} (notBelow : ¬ a < b) (notAbove : ¬ b < a) : a = b :=
  List.le_antisymm (List.not_lt.mp notAbove) (List.not_lt.mp notBelow)

theorem not_lt_trans {a b c : Text} (first : ¬ a < b) (second : ¬ b < c) : ¬ a < c :=
  List.not_lt.mpr (List.le_trans (List.not_lt.mp second) (List.not_lt.mp first))

theorem newerFirst_iff (a b : Text) : newerFirst tagTimes a b = true <->
    match tagTimes a, tagTimes b with
    | some timeA, some timeB => timeB < timeA ∨ timeA = timeB ∧ ¬ a < b
    | none, some _ => False
    | some _, none => True
    | none, none => ¬ a < b := by
  have names := compareNames_nonpos a b
  unfold newerFirst compareTags
  rw [decide_eq_true_iff]
  cases tagTimes a with
  | none =>
      cases tagTimes b with
      | none => simpa using names
      | some timeB => simp
  | some timeA =>
      cases tagTimes b with
      | none => simp
      | some timeB =>
          by_cases same : timeA = timeB
          · simpa [same] using names
          · simp only [ne_eq, same, not_false_eq_true, if_true, false_and, or_false]
            omega

theorem newer_iff (a b : Text) : Newer tagTimes a b <->
    match tagTimes a, tagTimes b with
    | some timeA, some timeB => timeB < timeA ∨ timeA = timeB ∧ b < a
    | none, some _ => False
    | some _, none => True
    | none, none => b < a := by
  have names := compareNames_neg a b
  unfold Newer compareTags
  cases tagTimes a with
  | none =>
      cases tagTimes b with
      | none => simpa using names
      | some timeB => simp
  | some timeA =>
      cases tagTimes b with
      | none => simp
      | some timeB =>
          by_cases same : timeA = timeB
          · simpa [same] using names
          · simp only [ne_eq, same, not_false_eq_true, if_true, false_and, or_false]
            omega

theorem newerFirst_trans (a b c : Text) (first : newerFirst tagTimes a b = true)
    (second : newerFirst tagTimes b c = true) : newerFirst tagTimes a c = true := by
  rw [newerFirst_iff] at first second ⊢
  have names : ¬ a < b -> ¬ b < c -> ¬ a < c := fun one two => not_lt_trans one two
  generalize tagTimes a = timeA at first second ⊢
  generalize tagTimes b = timeB at first second ⊢
  generalize tagTimes c = timeC at first second ⊢
  cases timeA <;> cases timeB <;> cases timeC <;> simp only at first second ⊢
  · exact names first second
  · rcases first with later | ⟨same, name⟩
    · rcases second with laterToo | ⟨sameToo, nameToo⟩
      · exact Or.inl (lt_trans laterToo later)
      · exact Or.inl (sameToo ▸ later)
    · rcases second with laterToo | ⟨sameToo, nameToo⟩
      · exact Or.inl (same ▸ laterToo)
      · exact Or.inr ⟨same.trans sameToo, names name nameToo⟩

theorem newerFirst_total (a b : Text) : (newerFirst tagTimes a b || newerFirst tagTimes b a) = true := by
  rw [Bool.or_eq_true, newerFirst_iff, newerFirst_iff]
  have names : ¬ a < b ∨ ¬ b < a := by
    by_cases before : a < b
    · exact Or.inr (List.lt_asymm before)
    · exact Or.inl before
  cases tagTimes a <;> cases tagTimes b <;> simp only [true_or, or_true]
  · exact names
  · rename_i timeA timeB
    rcases lt_trichotomy timeA timeB with before | same | after
    · exact Or.inr (Or.inl before)
    · rcases names with name | name
      · exact Or.inl (Or.inr ⟨same, name⟩)
      · exact Or.inr (Or.inr ⟨same.symm, name⟩)
    · exact Or.inl (Or.inl after)

theorem newer_of_first {a b : Text} (first : newerFirst tagTimes a b = true) (different : a ≠ b) : Newer tagTimes a b := by
  rw [newerFirst_iff] at first
  rw [newer_iff]
  have names : ¬ a < b -> b < a := fun name => by
    by_contra notBelow
    exact different (eq_of_not_lt name notBelow)
  generalize tagTimes a = timeA at first ⊢
  generalize tagTimes b = timeB at first ⊢
  cases timeA <;> cases timeB <;> simp only at first ⊢
  · exact names first
  · rcases first with later | ⟨same, name⟩
    · exact Or.inl later
    · exact Or.inr ⟨same, names name⟩

theorem not_newer_of_newer {a b : Text} (newer : Newer tagTimes a b) : ¬ Newer tagTimes b a := by
  rw [newer_iff] at newer ⊢
  have names : b < a -> ¬ a < b := List.lt_asymm
  generalize tagTimes a = timeA at newer ⊢
  generalize tagTimes b = timeB at newer ⊢
  cases timeA <;> cases timeB <;> simp only [not_false_eq_true] at newer ⊢
  · exact names newer
  · rintro (later | ⟨same, name⟩)
    · rcases newer with earlier | ⟨equal, _⟩
      · exact lt_asymm later earlier
      · exact absurd equal.symm (ne_of_lt later).symm
    · rcases newer with earlier | ⟨_, greater⟩
      · exact absurd same (ne_of_lt earlier)
      · exact names greater name

end Newest

section Ranks

variable {Item : Type} {before : Item -> Item -> Prop} [DecidableRel before]

theorem mem_take_iff {items : List Item} (ordered : items.Pairwise before)
    (asymmetric : forall a b, before a b -> ¬ before b a) {item : Item} (member : item ∈ items) (count : Nat) :
    item ∈ items.take count <-> (items.filter fun other => before other item).length < count := by
  rcases List.append_of_mem member with ⟨front, back, rfl⟩
  have parts := List.pairwise_append.mp ordered
  have irreflexive : ¬ before item item := fun same => asymmetric item item same same
  have all : front.filter (fun other => before other item) = front :=
    List.filter_eq_self.mpr fun other inFront => decide_eq_true (parts.2.2 other inFront item List.mem_cons_self)
  have none : (item :: back).filter (fun other => before other item) = [] := by
    apply List.filter_eq_nil_iff.mpr
    intro other among isBefore
    rcases List.mem_cons.mp among with rfl | later
    · exact irreflexive (of_decide_eq_true isBefore)
    · exact asymmetric _ _ ((List.pairwise_cons.mp parts.2.1).1 other later) (of_decide_eq_true isBefore)
  rw [List.filter_append, all, none, List.append_nil, List.take_append]
  constructor
  · intro taken
    rcases List.mem_append.mp taken with early | late
    · exact absurd (parts.2.2 item (List.mem_of_mem_take early) item List.mem_cons_self) irreflexive
    · by_contra short
      rw [Nat.sub_eq_zero_of_le (Nat.le_of_not_lt short), List.take_zero] at late
      exact absurd late List.not_mem_nil
  · intro enough
    apply List.mem_append_right
    rw [List.take_cons (Nat.sub_pos_of_lt enough)]
    exact List.mem_cons_self

end Ranks

theorem nodup_eraseDups {Item : Type} [BEq Item] [LawfulBEq Item] (items : List Item) : items.eraseDups.Nodup := by
  induction bound : items.length using Nat.strong_induction_on generalizing items with
  | _ length ih =>
      cases items with
      | nil => exact List.nodup_nil
      | cons item rest =>
          rw [List.eraseDups_cons, List.nodup_cons, List.mem_eraseDups]
          have shorter : (rest.filter fun other => !other == item).length < length :=
            bound ▸ Nat.lt_succ_of_le (List.length_filter_le _ _)
          refine ⟨fun member => ?_, ih _ shorter _ rfl⟩
          have different := (List.mem_filter.mp member).2
          simp at different

section Planned

variable {tags protectedTags : List Text} {tagTimes : Text -> Option Int} {keep : Int}

/-- The dpl- tags of a list that are newer than a tag. -/
def newerTags (tags : List Text) (tagTimes : Text -> Option Int) (tag : Text) : List Text :=
  (tags.eraseDups.filter isDplTag).filter fun other => Newer tagTimes other tag

theorem mem_newestFirst {tag : Text} : tag ∈ newestFirst tags tagTimes <-> tag ∈ tags ∧ isDplTag tag = true := by
  rw [newestFirst, List.mem_insertionSort, List.mem_filter, List.mem_eraseDups]

theorem mem_newest_iff {tag : Text} (member : tag ∈ tags) (dpl : isDplTag tag = true) (count : Nat) :
    tag ∈ (newestFirst tags tagTimes).take count <-> (newerTags tags tagTimes tag).length < count := by
  have ordered : (newestFirst tags tagTimes).Pairwise (Newer tagTimes) := by
    have : Std.Total fun a b => newerFirst tagTimes a b = true := ⟨fun a b => by
      rw [<- Bool.or_eq_true]
      exact newerFirst_total a b⟩
    have : IsTrans Text fun a b => newerFirst tagTimes a b = true := ⟨newerFirst_trans⟩
    have sorted := List.pairwise_insertionSort (fun a b => newerFirst tagTimes a b = true)
      (tags.eraseDups.filter isDplTag)
    have distinct : (newestFirst tags tagTimes).Nodup :=
      (List.perm_insertionSort _ _).nodup_iff.mpr ((nodup_eraseDups tags).filter _)
    exact (sorted.and distinct).imp fun both => newer_of_first both.1 both.2
  have same := (List.perm_insertionSort (fun a b => newerFirst tagTimes a b = true)
    (tags.eraseDups.filter isDplTag)).filter fun other => decide (Newer tagTimes other tag)
  rw [mem_take_iff ordered (fun _ _ => not_newer_of_newer) (mem_newestFirst.mpr ⟨member, dpl⟩)]
  rw [newerTags, ← same.length_eq]
  rfl

/-- A doomed tag is a listed dpl- tag that is not among the newest and that no release file names. -/
theorem mem_doomedTags {tag : Text} : tag ∈ (planRepoTags tags protectedTags tagTimes keep).doomedTags <->
    tag ∈ tags ∧ isDplTag tag = true ∧ tag ∉ protectedTags ∧ ¬ (newerTags tags tagTimes tag).length < keep.toNat := by
  rw [planRepoTags, List.mem_reverse, List.mem_filter, mem_newestFirst, decide_eq_true_iff]
  constructor
  · rintro ⟨⟨member, dpl⟩, older, unprotected⟩
    exact ⟨member, dpl, unprotected, fun few => older ((mem_newest_iff member dpl _).mpr few)⟩
  · rintro ⟨member, dpl, unprotected, many⟩
    exact ⟨⟨member, dpl⟩, fun first => many ((mem_newest_iff member dpl _).mp first), unprotected⟩

theorem mem_keptTags {tag : Text} : tag ∈ (planRepoTags tags protectedTags tagTimes keep).keptTags <->
    tag ∈ tags ∧ tag ∉ (planRepoTags tags protectedTags tagTimes keep).doomedTags := by
  rw [planRepoTags, List.mem_filter, List.mem_eraseDups, decide_eq_true_iff]

end Planned

end RegistryRetention
end Dokploy
