import Dokploy.DeployQueue.Starts

namespace Dokploy
namespace DeployQueue

open Foundation

/-!
# Conservation of jobs

The census counts ids.  Here every job object met later, waiting, active,
started or settled, is traced back to the object that was accepted under its
id: it has the same journal id and the same lane.  So a settled report is about
the job that was accepted, and there is exactly one for each.
-/

/-- Two snapshots of one job: what never changes about it is the same. -/
def SameJob (job other : InternalJob) : Prop :=
  job.id = other.id ∧ job.journalId = other.journalId ∧ job.partition = other.partition

namespace SameJob

theorem refl (job : InternalJob) : SameJob job job := ⟨rfl, rfl, rfl⟩

theorem trans {first second third : InternalJob} (left : SameJob first second) (right : SameJob second third) :
    SameJob first third :=
  ⟨left.1.trans right.1, left.2.1.trans right.2.1, left.2.2.trans right.2.2⟩

end SameJob

theorem sameJob_setData (id : Nat) (data : DeploymentJob) (job : InternalJob) :
    SameJob job (setData id data job) :=
  ⟨(setData_id id data job).symm, (setData_journalId id data job).symm, (setData_partition id data job).symm⟩

def Accepted (history : List Signal) (job : InternalJob) : Prop :=
  Exists fun accepted => accepted ∈ acceptedOf history ∧ SameJob accepted job

theorem Accepted.append {history : List Signal} {job : InternalJob} (accepted : Accepted history job)
    (output : List Signal) : Accepted (history ++ output) job := by
  rcases accepted with ⟨first, member, same⟩
  exact ⟨first, by rw [acceptedOf_append]; exact List.mem_append_left _ member, same⟩

variable {history : List Signal} {job : InternalJob}

theorem Accepted.trans {other : InternalJob} (accepted : Accepted history job)
    (same : SameJob job other) : Accepted history other := by
  rcases accepted with ⟨first, member, earlier⟩
  exact ⟨first, member, earlier.trans same⟩

variable {q : InMemoryQueue} {output : List Signal}

theorem waiting_of_quiet {after : InMemoryQueue} (change : Change q output after)
    (quiet : startedOf output = []) {key : String}
    (member : job ∈ (after.lane key).waiting) :
    (Exists fun old => old ∈ (q.lane key).waiting ∧ SameJob old job) ∨ job ∈ acceptedOf output := by
  have stays : (after.lane key).waiting = (q.lane key).waiting ->
      (Exists fun old => old ∈ (q.lane key).waiting ∧ SameJob old job) ∨ job ∈ acceptedOf output :=
    fun same => Or.inl ⟨job, same ▸ member, SameJob.refl job⟩
  cases change with
  | control frame fresh standing scheduled =>
      have lanes : after.lane = q.lane := by rw [frame]; rfl
      exact stays (by rw [lanes])
  | created lane => exact stays rfl
  | @entered _ added front extra new placed announced lanes keys frame =>
      rw [lanes] at member
      have either : job ∈ added ∨ job ∈ (q.lane key).waiting := by
        cases front with
        | true =>
            rcases List.mem_append.mp member with fresh | old
            · exact Or.inl (List.mem_filter.mp fresh).1
            · exact Or.inr old
        | false =>
            rcases List.mem_append.mp member with old | fresh
            · exact Or.inr old
            · exact Or.inl (List.mem_filter.mp fresh).1
      rcases either with fresh | old
      · refine Or.inr ?_
        rw [acceptedOf_append, acceptedOf_accepted]
        exact List.mem_append_left _ fresh
      · exact Or.inl ⟨job, old, SameJob.refl job⟩
  | dropped visits visited sublist perm reported lanes keys frame =>
      rw [lanes] at member
      exact Or.inl ⟨job, (sublist key).subset member, SameJob.refl job⟩
  | @rewritten _ lane changed data inLane lanes keys frame =>
      by_cases here : key = lane
      · subst here
        rw [lanes, Function.update_self] at member
        rcases List.mem_map.mp member with ⟨old, oldMember, same⟩
        exact Or.inl ⟨old, oldMember, same ▸ sameJob_setData changed.id data old⟩
      · rw [lanes, Function.update_of_ne here] at member
        exact Or.inl ⟨job, member, SameJob.refl job⟩
  | started start lanes keys frame => cases quiet
  | returnedLate inRuns lockFree frame =>
      have lanes : after.lane = q.lane := by rw [frame]; rfl
      exact stays (by rw [lanes])
  | rejected found frame =>
      have lanes : after.lane = q.lane := by rw [frame]; rfl
      exact stays (by rw [lanes])
  | waiters woken frame =>
      have lanes : after.lane = q.lane := by rw [frame]; rfl
      exact stays (by rw [lanes])
  | _ =>
      rename_i lanes keys frame
      exact stays (read_of_update Partition.waiting lanes rfl key)

theorem active_of_quiet {after : InMemoryQueue} (change : Change q output after)
    (quiet : startedOf output = []) (key : String) :
    (after.lane key).active.Sublist (q.lane key).active := by
  have stays : (after.lane key).active = (q.lane key).active ->
      (after.lane key).active.Sublist (q.lane key).active := fun same => same ▸ List.Sublist.refl _
  have leaves : forall {lane : String} {changed : Partition}, after.lane = Function.update q.lane lane changed ->
      changed.active.Sublist (q.lane lane).active -> (after.lane key).active.Sublist (q.lane key).active :=
    fun lanes here => @every_lane_of_update (fun key changed => changed.active.Sublist (q.lane key).active)
      _ _ _ _ lanes here (fun _ => List.Sublist.refl _) key
  cases change with
  | control frame fresh standing scheduled =>
      have lanes : after.lane = q.lane := by rw [frame]; rfl
      exact stays (by rw [lanes])
  | created lane => exact stays rfl
  | entered new placed announced lanes keys frame => exact stays (by rw [lanes])
  | dropped visits visited sublist perm reported lanes keys frame => exact stays (by rw [lanes])
  | started start lanes keys frame => cases quiet
  | released member home marked lanes keys frame => exact leaves lanes List.filter_sublist
  | ended member home marked lanes keys frame => exact leaves lanes List.filter_sublist
  | returnedLate inRuns lockFree frame =>
      have lanes : after.lane = q.lane := by rw [frame]; rfl
      exact stays (by rw [lanes])
  | rejected found frame =>
      have lanes : after.lane = q.lane := by rw [frame]; rfl
      exact stays (by rw [lanes])
  | waiters woken frame =>
      have lanes : after.lane = q.lane := by rw [frame]; rfl
      exact stays (by rw [lanes])
  | _ =>
      rename_i lanes keys frame
      exact stays (read_of_update Partition.active lanes rfl key)

theorem settled_of_change {after : InMemoryQueue} (change : Change q output after) (settled : job ∈ settledOf output) :
    Exists fun key => Exists fun old => old ∈ (q.lane key).members ∧ SameJob old job := by
  cases change with
  | entered new placed announced lanes keys frame =>
      rcases List.mem_flatMap.mp settled with ⟨signal, member, inside⟩
      rcases mem_entered announced member with ⟨_, same⟩ | ⟨_, _, same⟩ <;> rw [same] at inside <;> cases inside
  | @dropped _ kept gone order reports visits visited sublist perm reported lanes keys frame =>
      rw [settledOf_append, settledOf_settle, (unaccounted_dropped reported).2, List.append_nil] at settled
      rcases List.mem_flatMap.mp settled with ⟨key, _, inGone⟩
      have waited : job ∈ (q.lane key).waiting := (perm key).subset (List.mem_append_right _ inGone)
      exact ⟨key, job, List.mem_append_left _ waited, SameJob.refl job⟩
  | @released _ lane found released keepGroupLock member home marked lanes keys frame =>
      rw [List.mem_singleton.mp settled]
      exact ⟨lane, found, List.mem_append_right _ member, by rw [marked]; exact ⟨rfl, rfl, rfl⟩⟩
  | @ended _ lane found finished outcome member home marked lanes keys frame =>
      rw [List.mem_singleton.mp settled]
      exact ⟨lane, found, List.mem_append_right _ member, by rw [marked]; exact ⟨rfl, rfl, rfl⟩⟩
  | waiters woken frame =>
      rw [(unaccounted_idle woken).2] at settled
      cases settled
  | _ => cases settled

/-- Every job object is traced to the accepted one, active jobs have started,
waiting ones have not, and nothing has started twice. -/
structure Traced (history : List Signal) (q : InMemoryQueue) : Prop where
  lanes : forall key job, job ∈ (q.lane key).members -> Accepted history job
  settled : forall job, job ∈ settledOf history -> Accepted history job
  started : forall job, job ∈ startedOf history -> Accepted history job
  once : ((startedOf history).map (·.id)).Nodup
  waiting : forall key job, job ∈ (q.lane key).waiting -> job.id ∉ (startedOf history).map (·.id)
  active : forall key job, job ∈ (q.lane key).active -> job.id ∈ (startedOf history).map (·.id)

theorem traced_new : Traced [] InMemoryQueue.new where
  lanes := fun _ _ member => by cases member
  settled := fun _ member => by cases member
  started := fun _ member => by cases member
  once := List.nodup_nil
  waiting := fun _ _ member => by cases member
  active := fun _ _ member => by cases member

private theorem traced_of_quiet {after : InMemoryQueue}
    (census : Census history q) (traced : Traced history q) (change : Change q output after)
    (quiet : startedOf output = []) : Traced (history ++ output) after := by
  have sameStarted : startedOf (history ++ output) = startedOf history := by
    rw [startedOf_append, quiet, List.append_nil]
  have fresh : forall job, job ∈ acceptedOf output -> job.id ∉ (startedOf history).map (·.id) := by
    intro job member inStarted
    have drawn : job.id ∈ List.range' (q.seq + 1) (after.seq - q.seq) := by
      rw [← (booked_of_change census.lane_nodup change).accepted]
      exact List.mem_map_of_mem member
    rcases List.mem_map.mp inStarted with ⟨started, startedMember, sameId⟩
    rcases traced.started started startedMember with ⟨accepted, acceptedMember, same⟩
    have old : job.id ∈ List.range' 1 q.seq := by
      rw [← census.accepted, ← sameId, ← same.1]
      exact List.mem_map_of_mem acceptedMember
    rw [List.mem_range'_1] at drawn old
    omega
  constructor
  · intro key job member
    rcases List.mem_append.mp member with waiting | active
    · rcases waiting_of_quiet change quiet waiting with ⟨old, oldMember, same⟩ | accepted
      · exact ((traced.lanes key old (List.mem_append_left _ oldMember)).trans same).append output
      · exact ⟨job, by rw [acceptedOf_append]; exact List.mem_append_right _ accepted, SameJob.refl job⟩
    · have old := (active_of_quiet change quiet key).subset active
      exact (traced.lanes key job (List.mem_append_right _ old)).append output
  · intro job member
    rw [settledOf_append] at member
    rcases List.mem_append.mp member with earlier | now
    · exact (traced.settled job earlier).append output
    · rcases settled_of_change change now with ⟨key, old, oldMember, same⟩
      exact ((traced.lanes key old oldMember).trans same).append output
  · intro job member
    rw [sameStarted] at member
    exact (traced.started job member).append output
  · rw [sameStarted]
    exact traced.once
  · intro key job member
    rw [sameStarted]
    rcases waiting_of_quiet change quiet member with ⟨old, oldMember, same⟩ | accepted
    · rw [← same.1]
      exact traced.waiting key old oldMember
    · exact fresh job accepted
  · intro key job member
    rw [sameStarted]
    exact traced.active key job ((active_of_quiet change quiet key).subset member)

private theorem traced_of_start {after : InMemoryQueue} {lane : String}
    (census : Census history q) (traced : Traced history q) (start : Start q lane)
    (lanes : after.lane = Function.update q.lane lane start.lane) :
    Traced (history ++ [.started lane start.job]) after := by
  have sameJob : SameJob start.waiting start.job := ⟨rfl, rfl, rfl⟩
  have origin : Accepted history start.job :=
    (traced.lanes lane start.waiting (List.mem_append_left _ start.member)).trans sameJob
  have startedIds : (startedOf (history ++ [.started lane start.job])).map (·.id) =
      (startedOf history).map (·.id) ++ [start.waiting.id] := by
    rw [startedOf_append, List.map_append]
    rfl
  -- A lane elsewhere is unchanged, and its jobs are not the started one.
  have elsewhere : forall key job, key ≠ lane -> job ∈ (q.lane key).waiting -> job.id ≠ start.waiting.id := by
    intro key job different member same
    have here : job.id ∈ q.laneIds key := List.mem_map_of_mem (List.mem_append_left _ member)
    have there : job.id ∈ q.laneIds lane := same ▸ List.mem_map_of_mem (List.mem_append_left _ start.member)
    exact different (census.lane_unique here there)
  constructor
  · intro key job member
    refine Accepted.append ?_ _
    by_cases here : key = lane
    · subst here
      rw [lanes, Function.update_self] at member
      rcases List.mem_append.mp member with waiting | active
      · exact traced.lanes key job (List.mem_append_left _ (start.waited waiting))
      · rcases List.mem_append.mp active with old | new
        · exact traced.lanes key job (List.mem_append_right _ old)
        · rw [List.mem_singleton.mp new]
          exact origin
    · rw [lanes, Function.update_of_ne here] at member
      exact traced.lanes key job member
  · intro job member
    rw [settledOf_append] at member
    rcases List.mem_append.mp member with earlier | now
    · exact (traced.settled job earlier).append _
    · cases now
  · intro job member
    rw [startedOf_append] at member
    rcases List.mem_append.mp member with earlier | now
    · exact (traced.started job earlier).append _
    · rw [List.mem_singleton.mp now]
      exact origin.append _
  · rw [startedIds]
    exact List.nodup_append.mpr ⟨traced.once, List.nodup_singleton _, fun id inStarted other inNew same =>
      traced.waiting lane start.waiting start.member (List.mem_singleton.mp inNew ▸ same ▸ inStarted)⟩
  · intro key job member
    rw [startedIds, List.mem_append, List.mem_singleton, not_or]
    by_cases here : key = lane
    · subst here
      rw [lanes, Function.update_self] at member
      refine ⟨traced.waiting key job (start.waited member), fun same => ?_⟩
      have nodup := census.waiting_nodup key
      rw [start.split, List.map_append, List.map_cons] at nodup
      have absent := (List.nodup_middle.mp nodup).notMem
      rw [← List.map_append] at absent
      exact absent (same ▸ List.mem_map_of_mem member)
    · rw [lanes, Function.update_of_ne here] at member
      exact ⟨traced.waiting key job member, elsewhere key job here member⟩
  · intro key job member
    rw [startedIds, List.mem_append, List.mem_singleton]
    by_cases here : key = lane
    · subst here
      rw [lanes, Function.update_self] at member
      rcases List.mem_append.mp member with old | new
      · exact Or.inl (traced.active key job old)
      · rw [List.mem_singleton.mp new]
        exact Or.inr rfl
    · rw [lanes, Function.update_of_ne here] at member
      exact Or.inl (traced.active key job member)

theorem Traced.change {after : InMemoryQueue}
    (census : Census history q) (traced : Traced history q) (change : Change q output after) :
    Traced (history ++ output) after := by
  rcases quiet_or_start change with quiet | ⟨lane, start, same, lanes, _⟩
  · exact traced_of_quiet census traced change quiet
  · subst same
    exact traced_of_start census traced start lanes

theorem traced_of_run {guard : InMemoryQueue -> Event -> Prop} (run : queueMachine.Run guard history q) : Traced history q :=
  audited_invariant Traced traced_new (fun _ _ _ _ _ census traced change => traced.change census change) run

theorem accepted_unique (census : Census history q)
    {other : InternalJob} (here : job ∈ acceptedOf history) (there : other ∈ acceptedOf history)
    (same : job.id = other.id) : job = other := by
  have nodup : ((acceptedOf history).map (·.id)).Nodup := census.accepted ▸ List.nodup_range'
  exact List.inj_on_of_nodup_map nodup here there same

theorem lane_of_accepted (placed : Placed q)
    (census : Census history q) (traced : Traced history q)
    (accepted : job ∈ acceptedOf history) {key : String} (member : job.id ∈ q.laneIds key) :
    key = job.partition := by
  rcases List.mem_map.mp member with ⟨current, inLane, sameId⟩
  rcases traced.lanes key current inLane with ⟨first, firstMember, same⟩
  have equal : first = job := accepted_unique census firstMember accepted (same.1.trans sameId)
  have home : current.partition = key := by
    rcases List.mem_append.mp inLane with waiting | active
    · exact (placed.lanes key).1 current waiting
    · exact (placed.lanes key).2 current active
  rw [← home, ← same.2.2, equal]

theorem count_of_accepted (placed : Placed q)
    (census : Census history q) (traced : Traced history q)
    (accepted : job ∈ acceptedOf history) :
    (q.laneIds job.partition).count job.id + (goneIds history).count job.id = 1 := by
  have drawn : job.id ∈ List.range' 1 q.seq := census.accepted ▸ List.mem_map_of_mem accepted
  have once : (q.liveIds ++ goneIds history).count job.id = 1 := by
    rw [census.balance.count_eq]
    exact List.count_eq_one_of_mem List.nodup_range' drawn
  rw [List.count_append] at once
  have sameCount : q.liveIds.count job.id = (q.laneIds job.partition).count job.id := by
    by_cases member : job.id ∈ q.laneIds job.partition
    · rw [List.count_eq_one_of_mem census.nodup.of_append_left (Census.live_of_id member),
        List.count_eq_one_of_mem (census.lane_nodup job.partition) member]
    · have notLive : job.id ∉ q.liveIds := by
        intro live
        rcases List.mem_flatMap.mp live with ⟨key, _, inLane⟩
        exact member (lane_of_accepted placed census traced accepted inLane ▸ inLane)
      rw [List.count_eq_zero_of_not_mem notLive, List.count_eq_zero_of_not_mem member]
  rw [← sameCount]
  exact once

theorem reports_of_journalId (census : Census history q)
    (traced : Traced history q) (accepted : job ∈ acceptedOf history)
    (alone : forall other, other ∈ acceptedOf history -> other.journalId = job.journalId -> other.id = job.id) :
    ((settledOf history).map (·.journalId)).count job.journalId = (goneIds history).count job.id := by
  rw [goneIds, List.count, List.count, List.countP_map, List.countP_map]
  refine List.countP_congr fun settled member => ?_
  rcases traced.settled settled member with ⟨first, firstMember, same⟩
  simp only [Function.comp_apply, beq_iff_eq]
  rw [← same.1, ← same.2.1]
  constructor
  · exact alone first firstMember
  · exact fun sameId => congrArg InternalJob.journalId (accepted_unique census firstMember accepted sameId)

theorem createRestored_fresh (q : InMemoryQueue) (known : List String) (jobs : List RestoredJob) :
    ((q.createRestored known jobs).map (·.journalId)).Nodup ∧
      forall job, job ∈ q.createRestored known jobs -> job.journalId ∉ known := by
  induction jobs generalizing q known with
  | nil => exact ⟨List.nodup_nil, fun _ member => by cases member⟩
  | cons restored rest ih =>
      simp only [InMemoryQueue.createRestored]
      split
      · exact ih q known
      · rename_i unknown
        have later := ih { q with seq := q.seq + 1 } (restored.journalId :: known)
        refine ⟨List.nodup_cons.mpr ⟨fun repeated => ?_, later.1⟩, fun job member => ?_⟩
        · rcases List.mem_map.mp repeated with ⟨job, member, same⟩
          exact later.2 job member (same ▸ List.mem_cons_self)
        · rcases List.mem_cons.mp member with here | there
          · rw [here]
            exact unknown
          · exact fun inKnown => later.2 job there (List.mem_cons_of_mem _ inKnown)

/-- Every accepted job is at each moment in exactly one place: waiting or
active in its own lane, or gone.  It starts at most once and never waits again.
It is reported as settled in the step in which it leaves its lane, once and
under its own journal id.  Restoring never doubles a live journal id. -/
theorem jobs_conserved {history : List Signal} {q : InMemoryQueue}
    (run : queueMachine.Reaches history q) :
    (forall job, job ∈ acceptedOf history ->
      ((q.lane job.partition).waiting.map (·.id)).count job.id +
          ((q.lane job.partition).active.map (·.id)).count job.id + (goneIds history).count job.id = 1 ∧
        forall key, key ≠ job.partition -> job.id ∉ q.laneIds key) ∧
    (((startedOf history).map (·.id)).Nodup ∧ forall key job,
      (job ∈ (q.lane key).waiting -> job.id ∉ (startedOf history).map (·.id)) ∧
        (job ∈ (q.lane key).active -> job.id ∈ (startedOf history).map (·.id))) ∧
    ((goneIds history).Nodup ∧ (forall job, job ∈ settledOf history -> Accepted history job) ∧
      forall job, job ∈ acceptedOf history ->
        (forall other, other ∈ acceptedOf history -> other.journalId = job.journalId -> other.id = job.id) ->
        ((settledOf history).map (·.journalId)).count job.journalId = (goneIds history).count job.id) ∧
    (forall event after output, step q event = some (after, output) -> forall id, id ∈ q.liveIds ->
      (id ∉ after.liveIds <-> id ∈ goneIds output)) ∧
    forall jobs, (((q.createRestored q.knownJournalIds jobs).map (·.journalId)).Nodup ∧
      acceptedOf (q.addRestored jobs).signals = q.createRestored q.knownJournalIds jobs) ∧
      forall job key other, job ∈ acceptedOf (q.addRestored jobs).signals -> other ∈ (q.lane key).members ->
        other.journalId ≠ job.journalId := by
  have placed := placed_of_run run
  have census := census_of_run run
  have traced := traced_of_run run
  refine ⟨fun job accepted => ⟨?_, fun key different member => ?_⟩, ⟨traced.once, fun key job => ?_⟩,
    ⟨census.nodup.of_append_right, traced.settled, fun job accepted alone => ?_⟩, ?_, fun jobs => ?_⟩
  · have counted := count_of_accepted placed census traced accepted
    rw [InMemoryQueue.laneIds, Partition.members, List.map_append, List.count_append] at counted
    exact counted
  · exact different (lane_of_accepted placed census traced accepted member)
  · exact ⟨traced.waiting key job, traced.active key job⟩
  · exact reports_of_journalId census traced accepted alone
  · intro event after output stepped id live
    have next := census_of_run (run.next trivial stepped)
    have notGone : id ∉ goneIds history := List.disjoint_of_nodup_append census.nodup live
    constructor
    · intro left
      have accepted : id ∈ (acceptedOf history).map (·.id) := by
        rw [census.accepted, ← census.balance.mem_iff]
        exact List.mem_append_left _ live
      have stillDrawn : id ∈ List.range' 1 after.seq := by
        rw [← next.accepted, acceptedOf_append, List.map_append]
        exact List.mem_append_left _ accepted
      have somewhere := List.mem_append.mp (next.balance.mem_iff.mpr stillDrawn)
      have gone := somewhere.resolve_left left
      rw [goneIds_append] at gone
      exact (List.mem_append.mp gone).resolve_left notGone
    · intro settled inAfter
      refine List.disjoint_of_nodup_append next.nodup inAfter ?_
      rw [goneIds_append]
      exact List.mem_append_right _ settled
  · have fresh := createRestored_fresh q q.knownJournalIds jobs
    have signals : acceptedOf (q.addRestored jobs).signals = q.createRestored q.knownJournalIds jobs :=
      acceptedOf_accepted _
    refine ⟨⟨fresh.1, signals⟩, fun job key other member inLane same => ?_⟩
    rw [signals] at member
    refine fresh.2 job member (InMemoryQueue.mem_knownJournalIds.mpr ⟨key, other, ?_, same⟩)
    exact List.mem_append.mp inLane

/-- A job is released by the watchdog and its processor returns later: one
report, although it ended twice. -/
theorem jobs_conserved_release :
    let history := (queueMachine.outcome (fun _ _ => true)
      [.process, .add (plainDeploy "a" none) "u1" 1, .concurrencyResolved 0 1, .drainTurn 0 2,
        .releaseActive 1 true 3, .processorEnded 1 (.returned none) 4]).2
    forall job, job ∈ acceptedOf history ->
      ((settledOf history).map (·.journalId)).count job.journalId = (goneIds history).count job.id ∧
        (goneIds history).count job.id = 1 := by
  intro history job accepted
  have reports := (jobs_conserved (Machine.run_of_executes (fun _ _ _ => trivial) (by decide) :
    queueMachine.Reaches history _)).2.2.1.2.2 job accepted
  have alone : forall job, job ∈ acceptedOf history -> forall other, other ∈ acceptedOf history ->
      other.journalId = job.journalId -> other.id = job.id := by decide
  have gone : forall job, job ∈ acceptedOf history -> (goneIds history).count job.id = 1 := by decide
  exact ⟨reports (alone job accepted), gone job accepted⟩

end DeployQueue
end Dokploy
