import Dokploy.Foundation.Splits
import Dokploy.DeployQueue.State

namespace Dokploy
namespace DeployQueue

open Foundation

/-!
# Which waiting job takes a free slot

`pickNext` is consulted by every turn of a drain, `assessPriority` predicts its
answer when priority is asked for.  Both look at one lane only.  The results
about the pick are stated with the waiting list split at the picked job, so
that what stands ahead of it is a list of its own.
-/

/-- A waiting job whose service does not run in this lane. -/
def isFree (lane : Partition) (job : InternalJob) : Bool :=
  decide (job.group ∉ lane.activeGroups)

/-- A jump is not allowed while one runs, nor straight after one started. -/
def jumpBlocked (lane : Partition) : Bool :=
  lane.jumpedLast || lane.active.any (·.jumped)

/-- Waiting jobs before `index` that could start now (their service is idle). -/
def startableBefore (lane : Partition) (index : Nat) : Nat :=
  (lane.waiting.take index).countP (isFree lane)

/-- An older job of the same service waits before `index`. -/
def hasOlderOfGroup (lane : Partition) (index : Nat) (group : String) : Bool :=
  (lane.waiting.take index).any (·.group == group)

structure Pick where
  index : Nat
  jumped : Bool
  deriving DecidableEq, Repr

/-- The scan for a flagged job.  `seen` holds the groups of the jobs already
passed, so a flagged job behind its own service's older work is not taken. -/
def flaggedFrom (lane : Partition) (first : Nat) :
    Finset String -> Nat -> List InternalJob -> Option Nat
  | _, _, [] => none
  | seen, index, job :: rest =>
      if first ≤ index ∧ flagged job.data = true ∧ isFree lane job = true ∧ job.group ∉ seen then
        some index
      else flaggedFrom lane first (insert job.group seen) (index + 1) rest

/-- Which waiting job takes a free slot: the first one whose group is not
already running, unless a flagged job further down may jump it. -/
def pickNext (lane : Partition) : Option Pick :=
  match lane.waiting.findIdx? (isFree lane) with
  | none => none
  | some first =>
      if jumpBlocked lane then some ⟨first, false⟩
      else
        match flaggedFrom lane first ∅ 0 lane.waiting with
        | none => some ⟨first, false⟩
        | some index => some ⟨index, decide (first < index)⟩

/-- The job is flagged, startable, and no older work of its service is ahead. -/
def Eligible (lane : Partition) (ahead : List InternalJob) (job : InternalJob) : Prop :=
  flagged job.data = true ∧ isFree lane job = true ∧ forall older, older ∈ ahead -> older.group ≠ job.group

instance (lane : Partition) (ahead : List InternalJob) (job : InternalJob) :
    Decidable (Eligible lane ahead job) :=
  inferInstanceAs (Decidable (_ ∧ _ ∧ _))

/-- No job of `ahead` could itself be picked as a flagged job. -/
def NoEligibleIn (lane : Partition) (ahead : List InternalJob) : Prop :=
  forall before job after, ahead = before ++ job :: after -> ¬ Eligible lane before job

private theorem flaggedFrom_spec (lane : Partition) (first : Nat) (passed rest : List InternalJob)
    (seen : Finset String)
    (seenSpec : forall group, group ∈ seen <-> Exists fun job => job ∈ passed ∧ job.group = group)
    (none_passed : forall before job after, passed = before ++ job :: after ->
      first ≤ before.length -> ¬ Eligible lane before job) :
    match flaggedFrom lane first seen passed.length rest with
    | none => forall before job after, passed ++ rest = before ++ job :: after ->
        first ≤ before.length -> ¬ Eligible lane before job
    | some index => Exists fun before => Exists fun job => Exists fun after =>
        passed ++ rest = before ++ job :: after ∧ index = before.length ∧ first ≤ index ∧
          Eligible lane before job ∧
          forall earlier other later, before = earlier ++ other :: later ->
            first ≤ earlier.length -> ¬ Eligible lane earlier other := by
  induction rest generalizing passed seen with
  | nil =>
      simp only [flaggedFrom, List.append_nil]
      exact none_passed
  | cons job rest ih =>
      have unseen : job.group ∉ seen <-> forall older, older ∈ passed -> older.group ≠ job.group := by
        rw [seenSpec]
        constructor
        · exact fun absent older member same => absent ⟨older, member, same⟩
        · rintro different ⟨older, member, same⟩
          exact different older member same
      by_cases chosen : first ≤ passed.length ∧ flagged job.data = true ∧
          isFree lane job = true ∧ job.group ∉ seen
      · simp only [flaggedFrom, if_pos chosen]
        refine ⟨passed, job, rest, rfl, rfl, chosen.1, ?_, none_passed⟩
        exact ⟨chosen.2.1, chosen.2.2.1, unseen.mp chosen.2.2.2⟩
      · simp only [flaggedFrom, if_neg chosen]
        have next := ih (passed ++ [job]) (insert job.group seen) ?_ ?_
        · simpa only [List.length_append, List.length_singleton, List.append_assoc,
            List.singleton_append] using next
        · intro group
          rw [Finset.mem_insert, seenSpec]
          simp only [List.mem_append, List.mem_singleton]
          constructor
          · rintro (same | ⟨older, member, same⟩)
            · exact ⟨job, Or.inr rfl, same.symm⟩
            · exact ⟨older, Or.inl member, same⟩
          · rintro ⟨older, member | same, equal⟩
            · exact Or.inr ⟨older, member, equal⟩
            · exact Or.inl (same ▸ equal.symm)
        · intro before other after split atLeast
          rcases split_of_snoc split with ⟨same, last, _⟩ | ⟨middle, _, earlier⟩
          · subst same
            rw [← last]
            rintro ⟨isFlagged, free, alone⟩
            exact chosen ⟨atLeast, isFlagged, free, unseen.mpr alone⟩
          · exact none_passed before other middle earlier atLeast

theorem pickNext_none_iff (lane : Partition) :
    pickNext lane = none <-> forall job, job ∈ lane.waiting -> isFree lane job = false := by
  unfold pickNext
  constructor
  · intro nothing
    cases found : lane.waiting.findIdx? (isFree lane) with
    | none => exact List.findIdx?_eq_none_iff.mp found
    | some first =>
        simp only [found] at nothing
        split at nothing
        · cases nothing
        · split at nothing <;> cases nothing
  · intro locked
    rw [List.findIdx?_eq_none_iff.mpr locked]

/-- The picked job is startable and heads its service's waiting work.  A plain
pick passes only jobs whose service runs; a jump is flagged and allowed. -/
theorem pickNext_some {lane : Partition} {pick : Pick} (picked : pickNext lane = some pick) :
    Exists fun before => Exists fun job => Exists fun after =>
      lane.waiting = before ++ job :: after ∧ pick.index = before.length ∧ isFree lane job = true ∧
        (forall older, older ∈ before -> older.group ≠ job.group) ∧
        (pick.jumped = false -> forall older, older ∈ before -> isFree lane older = false) ∧
        (pick.jumped = true -> flagged job.data = true ∧ jumpBlocked lane = false) := by
  unfold pickNext at picked
  cases found : lane.waiting.findIdx? (isFree lane) with
  | none => simp only [found, reduceCtorEq] at picked
  | some first =>
      rcases split_of_findIdx? found with ⟨before, job, after, split, atFirst, free, refused⟩
      have unrelated : forall older, older ∈ before -> older.group ≠ job.group := by
        intro older member same
        have locked := refused older member
        rw [isFree, same] at locked
        exact Bool.false_ne_true (locked.symm.trans free)
      have plain : pick = ⟨first, false⟩ -> Exists fun before => Exists fun job => Exists fun after =>
          lane.waiting = before ++ job :: after ∧ pick.index = before.length ∧ isFree lane job = true ∧
            (forall older, older ∈ before -> older.group ≠ job.group) ∧
            (pick.jumped = false -> forall older, older ∈ before -> isFree lane older = false) ∧
            (pick.jumped = true -> flagged job.data = true ∧ jumpBlocked lane = false) := by
        intro same
        subst same
        exact ⟨before, job, after, split, atFirst, free, unrelated, fun _ => refused, fun impossible => by cases impossible⟩
      simp only [found] at picked
      split at picked
      · exact plain (Option.some.inj picked).symm
      · rename_i allowed
        have scan := flaggedFrom_spec lane first [] lane.waiting ∅ (by simp) (by simp)
        simp only [List.length_nil, List.nil_append] at scan
        split at picked
        · exact plain (Option.some.inj picked).symm
        · rename_i index taken
          rw [taken] at scan
          rcases scan with ⟨ahead, chosen, behind, whole, atIndex, atLeast, eligible, _⟩
          have same := Option.some.inj picked
          subst same
          refine ⟨ahead, chosen, behind, whole, atIndex, eligible.2.1, eligible.2.2, ?_, ?_⟩
          · intro notJumped older member
            -- A flagged job at the first free place is a plain start.
            have equal : before.length = ahead.length := by
              have bound := of_decide_eq_false notJumped
              omega
            have prefixes := List.append_inj_left (split.symm.trans whole) equal
            exact refused older (prefixes ▸ member)
          · exact fun _ => ⟨eligible.1, by simpa only [Bool.not_eq_true] using allowed⟩

/-- Where a jump is allowed and a job ahead could start, a flagged job that
heads its service's work is picked exactly when it is startable and no job
ahead of it is eligible in its stead. -/
theorem pickNext_at_iff {lane : Partition} {ahead behind : List InternalJob} {job : InternalJob}
    (split : lane.waiting = ahead ++ job :: behind) (allowed : jumpBlocked lane = false)
    (isFlagged : flagged job.data = true) (oldest : forall older, older ∈ ahead -> older.group ≠ job.group)
    (startable : Exists fun older => older ∈ ahead ∧ isFree lane older = true) :
    (Exists fun pick => pickNext lane = some pick ∧ pick.index = ahead.length) <->
      isFree lane job = true ∧ NoEligibleIn lane ahead := by
  rcases startable with ⟨older, olderMember, olderFree⟩
  cases found : lane.waiting.findIdx? (isFree lane) with
  | none =>
      have locked := List.findIdx?_eq_none_iff.mp found older (split ▸ List.mem_append_left _ olderMember)
      exact absurd olderFree (Bool.not_eq_true _ ▸ locked)
  | some first =>
      rcases split_of_findIdx? found with ⟨passed, head, rest, splitFirst, atFirst, headFree, refused⟩
      have firstAhead : first < ahead.length := by
        rcases List.getElem_of_mem olderMember with ⟨position, inAhead, same⟩
        rw [atFirst]
        refine Nat.lt_of_not_le fun outside => ?_
        have inPassed : older ∈ passed := by
          have prefixes : ahead <+: passed := by
            refine List.prefix_of_prefix_length_le ⟨job :: behind, split.symm⟩ ⟨head :: rest, splitFirst.symm⟩ outside
          exact prefixes.subset olderMember
        exact absurd olderFree (Bool.not_eq_true _ ▸ refused older inPassed)
      have scan := flaggedFrom_spec lane first [] lane.waiting ∅ (by simp) (by simp)
      simp only [List.length_nil, List.nil_append] at scan
      have unfolded : pickNext lane = match flaggedFrom lane first ∅ 0 lane.waiting with
          | none => some ⟨first, false⟩
          | some index => some ⟨index, decide (first < index)⟩ := by
        simp only [pickNext, found, allowed, Bool.false_eq_true, if_false]
      rw [unfolded]
      -- An eligible job cannot stand before the first startable one.
      have notBefore : forall before other after, ahead = before ++ other :: after ->
          before.length < first -> ¬ Eligible lane before other := by
        intro before other after splitAhead early eligible
        have inPassed : other ∈ passed := by
          have whole : lane.waiting = before ++ other :: (after ++ job :: behind) := by
            rw [split, splitAhead, List.append_assoc, List.cons_append]
          have prefixes : before ++ [other] <+: passed := by
            refine List.prefix_of_prefix_length_le ⟨after ++ job :: behind, ?_⟩ ⟨head :: rest, splitFirst.symm⟩ ?_
            · rw [whole, List.append_assoc, List.singleton_append]
            · rw [List.length_append, List.length_singleton, ← atFirst]
              exact early
          exact prefixes.subset (List.mem_append_right _ (List.mem_singleton_self _))
        exact absurd eligible.2.1 (Bool.not_eq_true _ ▸ refused other inPassed)
      cases taken : flaggedFrom lane first ∅ 0 lane.waiting with
      | none =>
          rw [taken] at scan
          constructor
          · rintro ⟨pick, same, atIndex⟩
            rw [← Option.some.inj same] at atIndex
            exact absurd atIndex (Nat.ne_of_lt firstAhead)
          · rintro ⟨free, _⟩
            exact absurd ⟨isFlagged, free, oldest⟩ (scan ahead job behind split (Nat.le_of_lt firstAhead))
      | some index =>
          rw [taken] at scan
          rcases scan with ⟨before, chosen, after, whole, atIndex, atLeast, eligible, none_earlier⟩
          constructor
          · rintro ⟨pick, same, atAhead⟩
            rw [← Option.some.inj same] at atAhead
            have sameLength : before.length = ahead.length := atIndex.symm.trans atAhead
            have sameAhead := List.append_inj (whole.symm.trans split) sameLength
            rcases List.cons.inj sameAhead.2 with ⟨sameJob, _⟩
            rw [← sameJob]
            refine ⟨eligible.2.1, fun earlier other later splitAhead => ?_⟩
            by_cases early : earlier.length < first
            · exact notBefore earlier other later splitAhead early
            · exact none_earlier earlier other later (sameAhead.1.trans splitAhead) (Nat.le_of_not_lt early)
          · rintro ⟨free, nobody⟩
            refine ⟨_, rfl, atIndex.trans ?_⟩
            rcases List.append_eq_append_iff.mp (whole.symm.trans split) with
              ⟨middle, aheadSplit, cut⟩ | ⟨middle, beforeSplit, cut⟩
            · cases middle with
              | nil => rw [aheadSplit, List.append_nil]
              | cons first others =>
                  rcases List.cons.inj cut with ⟨sameJob, _⟩
                  subst sameJob
                  exact absurd eligible (nobody before chosen others aheadSplit)
            · cases middle with
              | nil => rw [beforeSplit, List.append_nil]
              | cons first others =>
                  rcases List.cons.inj cut with ⟨sameJob, _⟩
                  subst sameJob
                  exact absurd ⟨isFlagged, free, oldest⟩
                    (none_earlier ahead job others beforeSplit (Nat.le_of_lt firstAhead))

end DeployQueue
end Dokploy
