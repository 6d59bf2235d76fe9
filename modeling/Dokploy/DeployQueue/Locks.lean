import Dokploy.Foundation.Ownership
import Dokploy.DeployQueue.Census

namespace Dokploy
namespace DeployQueue

open Foundation

/-!
# Who owns the group locks

A lane's `activeGroups` is a bare set.  Its owners are the active jobs of the
lane, the released jobs that kept their lock, and the holds taken from outside.
The invariant accounts for the set by the list of these owners, so a group
that two owners claim, or a lock without an owner, cannot be reached.
-/

/-- The groups locked in a lane by released jobs that kept their lock. -/
def keptOwners (runs : List InternalJob) (key : String) : List String :=
  (runs.filter fun job => job.groupLockKept && job.partition == key).map (·.group)

/-- The groups locked in a lane by holds that were not released. -/
def holdOwners (holds : List Hold) (key : String) : List String :=
  (holds.filter fun hold => !hold.released && hold.key == key).map (·.group)

def liveHolds (holds : List Hold) : List String :=
  (holds.filter fun hold => !hold.released).map (·.group)

namespace InMemoryQueue

def lockOwners (q : InMemoryQueue) (key : String) : List String :=
  (q.lane key).active.map (·.group) ++ keptOwners q.releasedRuns key ++ holdOwners q.holds key

end InMemoryQueue

structure Locked (q : InMemoryQueue) : Prop where
  owned : forall key, Owns (q.lane key).activeGroups (q.lockOwners key)
  unkept : forall key job, job ∈ (q.lane key).members -> job.groupLockKept = false
  kept : q.keptLocks = (q.releasedRuns.filter (·.groupLockKept)).map (·.id)
  held : Owns q.heldGroups (liveHolds q.holds)

private theorem kept_middle (before behind : List InternalJob) (job : InternalJob) (key : String) :
    (keptOwners (before ++ job :: behind) key).Perm
      ((if job.groupLockKept && job.partition == key then [job.group] else []) ++
        keptOwners (before ++ behind) key) :=
  filter_map_middle before behind job _ _

private theorem hold_middle (before behind : List Hold) (hold : Hold) (key : String) :
    (holdOwners (before ++ hold :: behind) key).Perm
      ((if !hold.released && hold.key == key then [hold.group] else []) ++
        holdOwners (before ++ behind) key) :=
  filter_map_middle before behind hold _ _

theorem locked_new : Locked InMemoryQueue.new where
  owned := fun _ => Owns.none
  unkept := fun _ _ member => by cases member
  kept := rfl
  held := Owns.none

variable {q : InMemoryQueue}

/-- Where lanes are updated without touching locks or active jobs, and the
suspended owners stay, every lock keeps its owner. -/
private theorem owned_of_same {after : InMemoryQueue} (locked : Locked q)
    (groups : forall key, (after.lane key).activeGroups = (q.lane key).activeGroups)
    (active : forall key, (after.lane key).active.map InternalJob.group = (q.lane key).active.map InternalJob.group)
    (runs : after.releasedRuns = q.releasedRuns) (holds : after.holds = q.holds) (key : String) :
    Owns (after.lane key).activeGroups (after.lockOwners key) := by
  rw [InMemoryQueue.lockOwners, groups, active, runs, holds]
  exact locked.owned key

variable {history : List Signal}

theorem active_split (census : Census history q)
    {key : String} {found : InternalJob} (member : found ∈ (q.lane key).active) :
    Exists fun before => Exists fun behind =>
      (q.lane key).active = before ++ found :: behind ∧
        ((q.lane key).active.filter fun other => !(other.id == found.id)) = before ++ behind := by
  rcases List.append_of_mem member with ⟨before, behind, split⟩
  exact ⟨before, behind, split, filter_other_of_split (census.active_nodup key) split⟩

theorem runs_split (census : Census history q)
    {job : InternalJob} (member : job ∈ q.releasedRuns) :
    Exists fun before => Exists fun behind =>
      q.releasedRuns = before ++ job :: behind ∧
        (q.releasedRuns.map fun other =>
          if other.id = job.id then { other with groupLockKept := false } else other) =
          before ++ { job with groupLockKept := false } :: behind ∧
        (q.releasedRuns.filter fun other => !(other.id == job.id)) = before ++ behind := by
  rcases List.append_of_mem member with ⟨before, behind, split⟩
  exact ⟨before, behind, split,
    map_other_of_split (fun other => { other with groupLockKept := false }) census.runs_nodup split,
    filter_other_of_split census.runs_nodup split⟩

private theorem keptOwners_snoc (runs : List InternalJob) (job : InternalJob) (key : String) :
    keptOwners (runs ++ [job]) key =
      keptOwners runs key ++ if job.groupLockKept && job.partition == key then [job.group] else [] := by
  simp only [keptOwners, List.filter_append, List.filter_cons, List.filter_nil, List.map_append]
  split <;> rfl

private theorem groups_without {before behind : List InternalJob} {found : InternalJob} :
    ((before ++ found :: behind).map (·.group)).Perm (found.group :: (before ++ behind).map (·.group)) := by
  rw [List.map_append, List.map_cons, List.map_append]
  exact List.perm_middle

variable {output : List Signal}

theorem owned_of_change {after : InMemoryQueue}
    (census : Census history q) (locked : Locked q) (change : Change q output after) (key : String) :
    Owns (after.lane key).activeGroups (after.lockOwners key) := by
  cases change with
  | control frame fresh standing scheduled =>
      have lanes : after.lane = q.lane := by rw [frame]; rfl
      exact owned_of_same locked (fun _ => by rw [lanes]) (fun _ => by rw [lanes]) (by rw [frame])
        (by rw [frame]) key
  | created lane => exact locked.owned key
  | entered new placed announced lanes keys frame =>
      exact owned_of_same locked (fun _ => by rw [lanes]) (fun _ => by rw [lanes]) (by rw [frame])
        (by rw [frame]) key
  | dropped visits visited sublist perm reported lanes keys frame =>
      exact owned_of_same locked (fun _ => by rw [lanes]) (fun _ => by rw [lanes]) (by rw [frame])
        (by rw [frame]) key
  | rewritten member lanes keys frame =>
      exact owned_of_same locked (read_of_update Partition.activeGroups lanes rfl)
        (read_of_update (fun lane => lane.active.map InternalJob.group) lanes rfl) (by rw [frame])
        (by rw [frame]) key
  | @started _ lane start lanes keys frame =>
      have runs : after.releasedRuns = q.releasedRuns := by rw [frame]
      have holds : after.holds = q.holds := by rw [frame]
      by_cases same : key = lane
      · subst same
        simp only [InMemoryQueue.lockOwners, lanes, Function.update_self, runs, holds]
        refine (locked.owned key).take start.free (gain_first ?_)
        rw [Start.lane, List.map_append]
        exact List.perm_append_singleton _ _
      · rw [InMemoryQueue.lockOwners, lanes, Function.update_of_ne same, runs, holds]
        exact locked.owned key
  | @released _ lane found job keepGroupLock member home marked lanes keys frame =>
      rcases active_split census member with ⟨before, behind, split, without⟩
      have runs : after.releasedRuns = q.releasedRuns ++ [job] := by rw [frame]
      have holds : after.holds = q.holds := by rw [frame]
      have unkept : found.groupLockKept = false :=
        locked.unkept lane found (List.mem_append_right _ member)
      have jobKept : job.groupLockKept = keepGroupLock := by
        rw [marked, unkept]
        cases keepGroupLock <;> rfl
      have jobLane : job.partition = lane := by
        rw [marked]
        exact home
      have jobGroup : job.group = found.group := by rw [marked]
      by_cases same : key = lane
      · subst same
        have owned := locked.owned key
        simp only [InMemoryQueue.lockOwners, lanes, Function.update_self, runs, holds, without]
        rw [InMemoryQueue.lockOwners, split] at owned
        cases keepGroupLock with
        | true =>
            have own : (job.groupLockKept && job.partition == key) = true := by
              rw [jobKept, jobLane, Bool.true_and, beq_self_eq_true]
            rw [if_pos rfl, keptOwners_snoc, if_pos own, jobGroup]
            exact owned.perm ((gain_second (List.perm_append_singleton _ _)).trans (gain_first groups_without).symm)
        | false =>
            have apart : (job.groupLockKept && job.partition == key) = false := by
              rw [jobKept, Bool.false_and]
            rw [if_neg Bool.false_ne_true, keptOwners_snoc, apart, if_neg Bool.false_ne_true, List.append_nil]
            exact owned.free (gain_first groups_without)
      · have apart : (job.groupLockKept && job.partition == key) = false := by
          rw [jobLane, beq_eq_false_iff_ne.mpr (Ne.symm same), Bool.and_false]
        rw [InMemoryQueue.lockOwners, lanes, Function.update_of_ne same, runs, holds, keptOwners_snoc, apart,
          if_neg Bool.false_ne_true, List.append_nil]
        exact locked.owned key
  | @lockDropped _ job member kept present lanes keys frame =>
      rcases runs_split census member with ⟨before, behind, split, switched, _⟩
      have runs : after.releasedRuns = before ++ { job with groupLockKept := false } :: behind := by
        rw [frame]
        exact switched
      have holds : after.holds = q.holds := by rw [frame]
      have owned := locked.owned key
      have silent := kept_middle before behind { job with groupLockKept := false } key
      rw [Bool.false_and, if_neg Bool.false_ne_true, List.nil_append] at silent
      rw [InMemoryQueue.lockOwners, split] at owned
      rw [InMemoryQueue.lockOwners, runs, holds, read_of_update (fun lane => lane.active.map InternalJob.group) lanes rfl]
      have gave := kept_middle before behind job key
      by_cases same : key = job.partition
      · rw [kept, Bool.true_and, same, beq_self_eq_true, if_pos rfl, List.singleton_append] at gave
        rw [lanes, same, Function.update_self]
        rw [same] at owned silent
        exact (owned.free (gain_second gave)).perm ((silent.append_left _).append_right _)
      · have apart : (job.partition == key) = false := beq_eq_false_iff_ne.mpr (Ne.symm same)
        rw [apart, Bool.and_false, if_neg Bool.false_ne_true, List.nil_append] at gave
        rw [lanes, Function.update_of_ne same]
        exact owned.perm (((silent.trans gave.symm).append_left _).append_right _)
  | @returnedLate _ job member lockFree frame =>
      rcases runs_split census member with ⟨before, behind, split, _, without⟩
      have lanes : after.lane = q.lane := by rw [frame]; rfl
      have runs : after.releasedRuns = before ++ behind := by
        rw [frame]
        exact without
      have holds : after.holds = q.holds := by rw [frame]
      have owned := locked.owned key
      have gave := kept_middle before behind job key
      rw [lockFree, Bool.false_and, if_neg Bool.false_ne_true, List.nil_append] at gave
      rw [InMemoryQueue.lockOwners, split] at owned
      rw [InMemoryQueue.lockOwners, lanes, runs, holds]
      exact owned.perm ((gave.symm.append_left _).append_right _)
  | @ended _ lane found job outcome member home marked lanes keys frame =>
      rcases active_split census member with ⟨before, behind, split, without⟩
      have runs : after.releasedRuns = q.releasedRuns := by rw [frame]
      have holds : after.holds = q.holds := by rw [frame]
      by_cases same : key = lane
      · subst same
        have owned := locked.owned key
        simp only [InMemoryQueue.lockOwners, lanes, Function.update_self, runs, holds, without]
        rw [InMemoryQueue.lockOwners, split] at owned
        exact owned.free (gain_first groups_without)
      · rw [InMemoryQueue.lockOwners, lanes, Function.update_of_ne same, runs, holds]
        exact locked.owned key
  | @held _ lane group unheld unlocked present lanes keys frame =>
      have runs : after.releasedRuns = q.releasedRuns := by rw [frame]
      have holds : after.holds = q.holds ++ [⟨lane, group, false⟩] := by rw [frame]
      have gain := hold_middle q.holds [] ⟨lane, group, false⟩ key
      rw [List.append_nil] at gain
      have active := read_of_update (fun lane => lane.active.map InternalJob.group) lanes rfl key
      rw [InMemoryQueue.lockOwners, active, runs, holds]
      by_cases same : key = lane
      · subst same
        rw [Bool.not_false, Bool.true_and, beq_self_eq_true, if_pos rfl, List.singleton_append] at gain
        rw [lanes, Function.update_self]
        exact (locked.owned key).take (unlocked key) (gain_third gain)
      · have apart : (lane == key) = false := beq_eq_false_iff_ne.mpr (Ne.symm same)
        rw [apart, Bool.and_false, if_neg Bool.false_ne_true, List.nil_append] at gain
        rw [lanes, Function.update_of_ne same]
        exact (locked.owned key).perm (gain.append_left _)
  | @unheld _ index hold found live present lanes keys frame =>
      rcases split_of_getElem? found with ⟨split, atIndex⟩
      generalize q.holds.take index = before at split atIndex
      generalize q.holds.drop (index + 1) = behind at split
      have runs : after.releasedRuns = q.releasedRuns := by rw [frame]
      have holds : after.holds = before ++ { hold with released := true } :: behind := by
        rw [frame, ← atIndex]
        exact set_of_split split
      have owned := locked.owned key
      have gave := hold_middle before behind hold key
      have silent := hold_middle before behind { hold with released := true } key
      rw [Bool.not_true, Bool.false_and, if_neg Bool.false_ne_true, List.nil_append] at silent
      rw [InMemoryQueue.lockOwners, split] at owned
      rw [InMemoryQueue.lockOwners, runs, holds, read_of_update (fun lane => lane.active.map InternalJob.group) lanes rfl]
      by_cases same : key = hold.key
      · rw [live, Bool.not_false, Bool.true_and, same, beq_self_eq_true, if_pos rfl, List.singleton_append] at gave
        rw [lanes, same, Function.update_self]
        rw [same] at owned silent
        exact (owned.free (gain_third gave)).perm (silent.append_left _)
      · have apart : (hold.key == key) = false := beq_eq_false_iff_ne.mpr (Ne.symm same)
        rw [apart, Bool.and_false, if_neg Bool.false_ne_true, List.nil_append] at gave
        rw [lanes, Function.update_of_ne same]
        exact owned.perm ((silent.trans gave.symm).append_left _)
  | resolved found lanes keys frame =>
      exact owned_of_same locked (read_of_update Partition.activeGroups lanes rfl)
        (read_of_update (fun lane => lane.active.map InternalJob.group) lanes rfl) (by rw [frame])
        (by rw [frame]) key
  | rejected found frame =>
      have lanes : after.lane = q.lane := by rw [frame]; rfl
      exact owned_of_same locked (fun _ => by rw [lanes]) (fun _ => by rw [lanes]) (by rw [frame])
        (by rw [frame]) key
  | drainEnded found stopped lanes keys frame =>
      exact owned_of_same locked (read_of_update Partition.activeGroups lanes rfl)
        (read_of_update (fun lane => lane.active.map InternalJob.group) lanes rfl) (by rw [frame])
        (by rw [frame]) key
  | waiters woken frame =>
      have lanes : after.lane = q.lane := by rw [frame]; rfl
      exact owned_of_same locked (fun _ => by rw [lanes]) (fun _ => by rw [lanes]) (by rw [frame])
        (by rw [frame]) key

@[simp] theorem setData_groupLockKept (id : Nat) (data : DeploymentJob) (job : InternalJob) :
    (setData id data job).groupLockKept = job.groupLockKept := by
  unfold setData
  split <;> rfl

theorem unkept_of_change {after : InMemoryQueue}
    (unkept : forall key job, job ∈ (q.lane key).members -> job.groupLockKept = false)
    (change : Change q output after) (key : String) (job : InternalJob)
    (member : job ∈ (after.lane key).members) : job.groupLockKept = false := by
  -- A change of one lane matters only there.
  have update : forall {lane : String} {changed : Partition},
      after.lane = Function.update q.lane lane changed ->
      (forall other, other ∈ changed.members -> other.groupLockKept = false) -> job.groupLockKept = false := by
    intro lane changed lanes here
    exact @every_lane_of_update (fun _ lane => forall job, job ∈ lane.members -> job.groupLockKept = false)
      _ _ _ _ lanes here unkept key job member
  cases change with
  | control frame fresh standing scheduled =>
      have lanes : after.lane = q.lane := by rw [frame]; rfl
      exact unkept key job (lanes ▸ member)
  | created lane => exact unkept key job member
  | @entered _ added front extra new placed announced lanes keys frame =>
      rw [lanes] at member
      have either : job ∈ added ∨ job ∈ (q.lane key).members := by
        rcases List.mem_append.mp member with waiting | active
        · cases front with
          | true =>
              rcases List.mem_append.mp waiting with fresh | old
              · exact Or.inl (List.mem_filter.mp fresh).1
              · exact Or.inr (List.mem_append_left _ old)
          | false =>
              rcases List.mem_append.mp waiting with old | fresh
              · exact Or.inr (List.mem_append_left _ old)
              · exact Or.inl (List.mem_filter.mp fresh).1
        · exact Or.inr (List.mem_append_right _ active)
      rcases either with fresh | old
      · exact (new.pristine job fresh).groupLockKept
      · exact unkept key job old
  | dropped visits visited sublist perm reported lanes keys frame =>
      rw [lanes] at member
      rcases List.mem_append.mp member with waiting | active
      · exact unkept key job (List.mem_append_left _ ((sublist key).subset waiting))
      · exact unkept key job (List.mem_append_right _ active)
  | @rewritten _ lane changed data inLane lanes keys frame =>
      refine update lanes fun other inOther => ?_
      rcases List.mem_append.mp inOther with waiting | active
      · rcases List.mem_map.mp waiting with ⟨old, oldMember, same⟩
        rw [← same, setData_groupLockKept]
        exact unkept lane old (List.mem_append_left _ oldMember)
      · exact unkept lane other (List.mem_append_right _ active)
  | @started _ lane start lanes keys frame =>
      refine update lanes fun other inOther => ?_
      rcases List.mem_append.mp inOther with stays | active
      · exact unkept lane other (List.mem_append_left _ (start.waited stays))
      · rcases List.mem_append.mp active with old | new
        · exact unkept lane other (List.mem_append_right _ old)
        · rw [List.mem_singleton.mp new]
          exact unkept lane start.waiting (List.mem_append_left _ start.member)
  | @released _ lane found released keepGroupLock inLane home marked lanes keys frame =>
      refine update lanes fun other inOther => unkept lane other ?_
      rcases List.mem_append.mp inOther with waiting | active
      · exact List.mem_append_left _ waiting
      · exact List.mem_append_right _ (List.mem_filter.mp active).1
  | @lockDropped _ owner inRuns kept present lanes keys frame =>
      exact update lanes fun other inOther => unkept owner.partition other inOther
  | returnedLate inRuns lockFree frame =>
      have lanes : after.lane = q.lane := by rw [frame]; rfl
      exact unkept key job (lanes ▸ member)
  | @ended _ lane found finished outcome inLane home marked lanes keys frame =>
      refine update lanes fun other inOther => unkept lane other ?_
      rcases List.mem_append.mp inOther with waiting | active
      · exact List.mem_append_left _ waiting
      · exact List.mem_append_right _ (List.mem_filter.mp active).1
  | @held _ lane group unheld unlocked present lanes keys frame =>
      exact update lanes fun other inOther => unkept lane other inOther
  | @unheld _ index hold found live present lanes keys frame =>
      exact update lanes fun other inOther => unkept hold.key other inOther
  | @resolved _ index lane answer found lanes keys frame =>
      exact update lanes fun other inOther => unkept lane other inOther
  | rejected found frame =>
      have lanes : after.lane = q.lane := by rw [frame]; rfl
      exact unkept key job (lanes ▸ member)
  | @drainEnded _ index lane answer found stopped lanes keys frame =>
      exact update lanes fun other inOther => unkept lane other inOther
  | waiters woken frame =>
      have lanes : after.lane = q.lane := by rw [frame]; rfl
      exact unkept key job (lanes ▸ member)

theorem kept_of_change {after : InMemoryQueue}
    (census : Census history q) (locked : Locked q) (change : Change q output after) :
    after.keptLocks = (after.releasedRuns.filter (·.groupLockKept)).map (·.id) := by
  cases change with
  | control frame fresh standing scheduled =>
      rw [frame]
      exact locked.kept
  | created lane => exact locked.kept
  | @released _ lane found job keepGroupLock member home marked lanes keys frame =>
      have unkept : found.groupLockKept = false :=
        locked.unkept lane found (List.mem_append_right _ member)
      have jobId : job.id = found.id := by rw [marked]
      have jobKept : job.groupLockKept = keepGroupLock := by
        rw [marked, unkept]
        cases keepGroupLock <;> rfl
      rw [frame]
      dsimp only
      rw [List.filter_append, List.map_append, locked.kept]
      cases keepGroupLock with
      | true => simp only [if_true, List.filter_cons, jobKept, List.filter_nil, List.map_cons, List.map_nil, jobId]
      | false =>
          simp only [Bool.false_eq_true, if_false, List.filter_cons, jobKept, List.filter_nil, List.map_nil,
            List.append_nil]
  | @lockDropped _ job member kept present lanes keys frame =>
      rcases runs_split census member with ⟨before, behind, split, switched, _⟩
      have nodup : ((q.releasedRuns.filter (·.groupLockKept)).map (·.id)).Nodup :=
        (List.filter_sublist.map _).nodup census.runs_nodup
      have shape : (q.releasedRuns.filter (·.groupLockKept)).map (·.id) =
          (before.filter (·.groupLockKept)).map (·.id) ++ job.id :: (behind.filter (·.groupLockKept)).map (·.id) := by
        rw [split, List.filter_append, List.filter_cons, if_pos kept, List.map_append, List.map_cons]
      rw [frame]
      dsimp only
      rw [switched, locked.kept, filter_other_of_split (by rw [List.map_id']; exact nodup) shape,
        List.filter_append, List.filter_cons, if_neg Bool.false_ne_true, List.map_append]
  | @returnedLate _ job member lockFree frame =>
      rcases runs_split census member with ⟨before, behind, split, _, without⟩
      rw [frame]
      dsimp only
      rw [without, locked.kept, split, List.filter_append, List.filter_cons, lockFree,
        if_neg Bool.false_ne_true, List.filter_append]
  | _ =>
      rename_i frame
      rw [frame]
      exact locked.kept

theorem held_of_change {after : InMemoryQueue}
    (locked : Locked q) (change : Change q output after) : Owns after.heldGroups (liveHolds after.holds) := by
  cases change with
  | control frame fresh standing scheduled =>
      rw [frame]
      exact locked.held
  | created lane => exact locked.held
  | @held _ lane group unheld unlocked present lanes keys frame =>
      rw [frame]
      refine locked.held.take unheld ?_
      rw [liveHolds, List.filter_append, List.map_append]
      exact List.perm_append_singleton _ _
  | @unheld _ index hold found live present lanes keys frame =>
      rcases split_of_getElem? found with ⟨split, atIndex⟩
      generalize q.holds.take index = before at split atIndex
      generalize q.holds.drop (index + 1) = behind at split
      have holds : after.holds = before ++ { hold with released := true } :: behind := by
        rw [frame, ← atIndex]
        exact set_of_split split
      have gave := filter_map_middle before behind hold (fun hold => !hold.released) (·.group)
      have silent := filter_map_middle before behind { hold with released := true }
        (fun hold => !hold.released) (·.group)
      rw [live, Bool.not_false, if_pos rfl, List.singleton_append] at gave
      rw [Bool.not_true, if_neg Bool.false_ne_true, List.nil_append] at silent
      have owned := locked.held
      rw [liveHolds, split] at owned
      rw [liveHolds, holds, frame]
      exact (owned.free gave).perm silent
  | _ =>
      rename_i frame
      rw [frame]
      exact locked.held

theorem Locked.change {after : InMemoryQueue}
    (census : Census history q) (locked : Locked q) (change : Change q output after) : Locked after where
  owned := owned_of_change census locked change
  unkept := unkept_of_change locked.unkept change
  kept := kept_of_change census locked change
  held := held_of_change locked change

theorem locked_of_run {guard : InMemoryQueue -> Event -> Prop} (run : queueMachine.Run guard history q) : Locked q :=
  audited_invariant (fun _ q => Locked q) locked_new
    (fun _ _ _ _ _ census locked change => locked.change census change) run

theorem find_dropped {id : Nat} {job : InternalJob}
    (found : q.findKeptLock id = some job) :
    (q.dropKeptGroupLock id).queue.releasedRuns.find? (·.id == id) =
      some { job with groupLockKept := false } := by
  have same : job.id = id := (findKeptLock_some found).2.1
  have searched : q.releasedRuns.find? (·.id == id) = some job := by
    unfold InMemoryQueue.findKeptLock at found
    split at found
    · exact (Option.filter_eq_some_iff.mp found).1
    · cases found
  have runs : (q.dropKeptGroupLock id).queue.releasedRuns = q.releasedRuns.map fun other =>
      if other.id = id then { other with groupLockKept := false } else other := by
    simp only [InMemoryQueue.dropKeptGroupLock, found, InMemoryQueue.dropLock, InMemoryQueue.drainPartition_eq]
    rfl
  have sameTest : (fun job : InternalJob => job.id == id) ∘ (fun other : InternalJob =>
      if other.id = id then { other with groupLockKept := false } else other) = fun job => job.id == id := by
    funext other
    simp only [Function.comp_apply]
    split <;> rfl
  rw [runs, List.find?_map, sameTest, searched, Option.map_some, if_pos same]

/-- In every reachable state each lane's locks are exactly those of its active
jobs, of the released jobs that kept theirs, and of its holds, with one owner
each.  A second release of a hold changes nothing, and neither lane nor lock
notices the late return of a job whose lock is gone. -/
theorem locks_accounted {history : List Signal} {q : InMemoryQueue}
    (run : queueMachine.Reaches history q) :
    (forall key, ((q.lane key).active.map (·.group)).Nodup ∧ (q.lockOwners key).Nodup ∧
      (q.lane key).activeGroups = (q.lockOwners key).toFinset) ∧
    (forall index hold, q.holds[index]? = some hold -> hold.released = true ->
      step q (.releaseHold index) = some (q, [])) ∧
    (forall id job, q.findKeptLock id = some job ->
      (q.dropKeptGroupLock id).queue.releasedRuns.find? (·.id == id) =
        some { job with groupLockKept := false }) ∧
    forall id job ending now, q.findActive id = none -> q.releasedRuns.find? (·.id == id) = some job ->
      job.groupLockKept = false -> Exists fun after =>
        step q (.processorEnded id ending now) = some (after, []) ∧ after.lane = q.lane ∧
          after.keptLocks = q.keptLocks ∧ after.holds = q.holds ∧ after.pendingDrains = q.pendingDrains := by
  have locked := locked_of_run run
  refine ⟨fun key => ?_, fun index hold found released => ?_, fun id job found => ?_, ?_⟩
  · have owned := locked.owned key
    have exclusive := owned.exclusive
    rw [InMemoryQueue.lockOwners] at exclusive
    exact ⟨exclusive.of_append_left.of_append_left, owned.exclusive, owned.accounted⟩
  · simp only [step, found, InMemoryQueue.releaseHold, released, if_true, Reply.effect]
  · exact find_dropped found
  · intro id job ending now inactive found lockFree
    refine ⟨(q.finishReleased job).queue, ?_, ?_⟩
    · simp only [step, inactive, found, InMemoryQueue.finishReleased, lockFree, Bool.false_eq_true, if_false,
        Reply.effect]
    · rw [InMemoryQueue.finishReleased, lockFree, if_neg Bool.false_ne_true]
      exact ⟨rfl, rfl, rfl, rfl⟩

/-- A job is released with its lock while a hold stands in the same lane. -/
theorem locks_accounted_release :
    let q := (queueMachine.outcome (fun _ _ => true)
      [.process, .add (plainDeploy "a" none) "u1" 1, .concurrencyResolved 0 1, .drainTurn 0 2,
        .releaseActive 1 true 3, .holdIdleGroup LOCAL_PARTITION "compose:c" fun _ => false]).1
    q.lockOwners LOCAL_PARTITION = ["application:a", "compose:c"] ∧
      (q.lane LOCAL_PARTITION).activeGroups = (q.lockOwners LOCAL_PARTITION).toFinset := by
  intro q
  exact ⟨by decide, ((locks_accounted (Machine.run_of_executes (fun _ _ _ => trivial) (by decide))).1
    LOCAL_PARTITION).2.2⟩

end DeployQueue
end Dokploy
