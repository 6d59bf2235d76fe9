import Mathlib.Data.List.Pairwise
import Dokploy.DeployQueue.Decomposition

namespace Dokploy
namespace DeployQueue

open Foundation

/-!
# The census of jobs

Job ids are drawn from one counter, so a run can be audited by ids: those in
the lanes and those that were settled are together exactly the ids drawn so
far, each once.  Everything the later modules need about the identity of jobs
is read off this one permutation.
-/

def Partition.members (lane : Partition) : List InternalJob :=
  lane.waiting ++ lane.active

namespace InMemoryQueue

def laneIds (q : InMemoryQueue) (key : String) : List Nat :=
  (q.lane key).members.map (·.id)

def liveIds (q : InMemoryQueue) : List Nat :=
  q.partitions.keys.flatMap q.laneIds

end InMemoryQueue

namespace Signal

def acceptedJobs : Signal -> List InternalJob
  | .accepted job => [job]
  | _ => []

def settledJobs : Signal -> List InternalJob
  | .settled jobs => jobs
  | _ => []

end Signal

/-- Every job object that was put into a waiting list, in order. -/
def acceptedOf (history : List Signal) : List InternalJob :=
  history.flatMap Signal.acceptedJobs

/-- Every job reported to the journal as gone, in order. -/
def settledOf (history : List Signal) : List InternalJob :=
  history.flatMap Signal.settledJobs

def goneIds (history : List Signal) : List Nat :=
  (settledOf history).map (·.id)

@[simp] theorem settledOf_nil : settledOf [] = [] := rfl

@[simp] theorem settledOf_append (first second : List Signal) :
    settledOf (first ++ second) = settledOf first ++ settledOf second :=
  List.flatMap_append

@[simp] theorem settledOf_cons (signal : Signal) (rest : List Signal) :
    settledOf (signal :: rest) = signal.settledJobs ++ settledOf rest := rfl

@[simp] theorem acceptedOf_nil : acceptedOf [] = [] := rfl

@[simp] theorem acceptedOf_append (first second : List Signal) :
    acceptedOf (first ++ second) = acceptedOf first ++ acceptedOf second :=
  List.flatMap_append

@[simp] theorem acceptedOf_cons (signal : Signal) (rest : List Signal) :
    acceptedOf (signal :: rest) = signal.acceptedJobs ++ acceptedOf rest := rfl

@[simp] theorem goneIds_append (first second : List Signal) :
    goneIds (first ++ second) = goneIds first ++ goneIds second := by
  simp only [goneIds, settledOf_append, List.map_append]

@[simp] theorem settledOf_settle (jobs : List InternalJob) :
    settledOf (InMemoryQueue.settle jobs) = jobs := by
  unfold InMemoryQueue.settle
  split
  · rename_i empty
    exact empty.symm
  · exact List.append_nil jobs

@[simp] theorem acceptedOf_settle (jobs : List InternalJob) :
    acceptedOf (InMemoryQueue.settle jobs) = [] := by
  unfold InMemoryQueue.settle
  split <;> rfl

theorem settledOf_accepted (jobs : List InternalJob) : settledOf (jobs.map .accepted) = [] := by
  induction jobs with
  | nil => rfl
  | cons job rest ih => exact ih

theorem acceptedOf_accepted (jobs : List InternalJob) : acceptedOf (jobs.map .accepted) = jobs := by
  induction jobs with
  | nil => rfl
  | cons job rest ih => exact congrArg (job :: ·) ih

theorem unaccounted {signals : List Signal}
    (silent : forall signal, signal ∈ signals -> signal.acceptedJobs = [] ∧ signal.settledJobs = []) :
    acceptedOf signals = [] ∧ settledOf signals = [] :=
  ⟨List.flatMap_eq_nil_iff.mpr fun signal member => (silent signal member).1,
    List.flatMap_eq_nil_iff.mpr fun signal member => (silent signal member).2⟩

theorem unaccounted_dropped {reports : List Signal}
    (reported : forall signal, signal ∈ reports -> Exists fun data => signal = .waitingDropped data) :
    acceptedOf reports = [] ∧ settledOf reports = [] := by
  refine unaccounted fun signal member => ?_
  rcases reported signal member with ⟨data, same⟩
  rw [same]
  exact ⟨rfl, rfl⟩

theorem unaccounted_idle {signals : List Signal}
    (woken : forall signal, signal ∈ signals -> Exists fun waiter => signal = .idle waiter) :
    acceptedOf signals = [] ∧ settledOf signals = [] := by
  refine unaccounted fun signal member => ?_
  rcases woken signal member with ⟨waiter, same⟩
  rw [same]
  exact ⟨rfl, rfl⟩

theorem InMemoryQueue.liveIds_getPartitionState (q : InMemoryQueue) (key : String) :
    (q.getPartitionState key).liveIds = q.liveIds := by
  have ids : (q.getPartitionState key).laneIds = q.laneIds := rfl
  rw [InMemoryQueue.liveIds, InMemoryQueue.liveIds, ids, InMemoryQueue.getPartitionState,
    OrderedMap.ensure_keys]
  split
  · rfl
  · rename_i missing
    have nothing : q.laneIds key = [] := by
      rw [InMemoryQueue.laneIds, InMemoryQueue.lane, q.partitions.outside key missing]
      rfl
    rw [List.flatMap_append, List.flatMap_singleton, nothing, List.append_nil]

/-- What one change does to the books: new ids are drawn in order, every
settled id leaves the lanes, and nothing else moves. -/
structure Booked (q : InMemoryQueue) (output : List Signal) (after : InMemoryQueue) : Prop where
  drawn : q.seq ≤ after.seq
  accepted : (acceptedOf output).map (·.id) = List.range' (q.seq + 1) (after.seq - q.seq)
  balance : (after.liveIds ++ goneIds output).Perm (q.liveIds ++ (acceptedOf output).map (·.id))

variable {output : List Signal}

private theorem booked_of_members {q after : InMemoryQueue}
    (keys : after.partitions.keys = q.partitions.keys) (seq : after.seq = q.seq)
    (members : forall key, (after.laneIds key).Perm (q.laneIds key))
    (silent : acceptedOf output = [] ∧ settledOf output = []) : Booked q output after where
  drawn := Nat.le_of_eq seq.symm
  accepted := by rw [silent.1, seq, Nat.sub_self]; rfl
  balance := by
    simp only [goneIds, silent.1, silent.2, List.map_nil, List.append_nil, InMemoryQueue.liveIds, keys]
    exact List.Perm.flatMap_left _ fun key _ => members key

private theorem booked_of_update {q after : InMemoryQueue} {key : String}
    {lane : Partition} (lanes : after.lane = Function.update q.lane key lane)
    (keys : after.partitions.keys = q.partitions.keys) (seq : after.seq = q.seq)
    (same : lane.members.map (·.id) = (q.lane key).members.map (·.id))
    (silent : acceptedOf output = [] ∧ settledOf output = []) : Booked q output after :=
  booked_of_members keys seq
    (fun other => List.Perm.of_eq (read_of_update (fun lane => lane.members.map InternalJob.id) lanes same other))
    silent

theorem perm_without {jobs : List InternalJob} {job : InternalJob} (nodup : (jobs.map (·.id)).Nodup)
    (member : job ∈ jobs) :
    ((jobs.filter fun other => !(other.id == job.id)) ++ [job]).Perm jobs := by
  rcases List.append_of_mem member with ⟨before, behind, split⟩
  rw [filter_other_of_split nodup split, split]
  refine List.perm_append_comm.trans ?_
  rw [List.singleton_append]
  exact List.perm_middle.symm

private theorem booked_of_leaving {q after : InMemoryQueue} {key : String}
    {lane : Partition} {found job : InternalJob}
    (nodup : (q.laneIds key).Nodup)
    (member : found ∈ (q.lane key).active) (same : job.id = found.id)
    (lanes : after.lane = Function.update q.lane key lane)
    (waitingKept : lane.waiting = (q.lane key).waiting)
    (activeLess : lane.active = (q.lane key).active.filter fun other => !(other.id == found.id))
    (keys : after.partitions.keys = q.partitions.keys) (seq : after.seq = q.seq)
    (accepted : acceptedOf output = []) (settled : settledOf output = [job]) : Booked q output after where
  drawn := Nat.le_of_eq seq.symm
  accepted := by rw [accepted, seq, Nat.sub_self]; rfl
  balance := by
    simp only [goneIds, accepted, settled, List.map_nil, List.append_nil, List.map_cons,
      InMemoryQueue.liveIds, keys]
    refine flatMap_extract q.partitions.nodup (InMemoryQueue.key_of_active member) ?_ ?_
    · have activeNodup : ((q.lane key).active.map (·.id)).Nodup := by
        rw [InMemoryQueue.laneIds, Partition.members, List.map_append] at nodup
        exact nodup.of_append_right
      have whole := ((perm_without activeNodup member).append_left (q.lane key).waiting).map (·.id)
      simp only [InMemoryQueue.laneIds, Partition.members, lanes, Function.update_self, waitingKept,
        activeLess, same]
      simpa only [List.map_append, List.map_cons, List.map_nil, List.append_assoc] using whole
    · intro other different
      simp only [InMemoryQueue.laneIds, lanes, Function.update_of_ne different]

theorem booked_of_change {q after : InMemoryQueue}
    (nodup : forall key, (q.laneIds key).Nodup) (change : Change q output after) :
    Booked q output after := by
  cases change with
  | control frame fresh standing scheduled =>
      have lanes : after.lane = q.lane := by rw [frame]; rfl
      refine booked_of_members (by rw [frame]) (by rw [frame]) (fun key => ?_) ⟨rfl, rfl⟩
      rw [InMemoryQueue.laneIds, InMemoryQueue.laneIds, lanes]
  | created key =>
      have sameSeq : (q.getPartitionState key).seq = q.seq := rfl
      refine ⟨Nat.le_refl _, by rw [acceptedOf_nil, sameSeq, Nat.sub_self]; rfl, ?_⟩
      simp only [goneIds, acceptedOf_nil, settledOf_nil, List.map_nil, List.append_nil]
      exact List.Perm.of_eq (q.liveIds_getPartitionState key)
  | @entered _ added front extra new placed announced lanes keys frame =>
      have quiet : acceptedOf extra = [] ∧ settledOf extra = [] := by
        rcases announced with empty | ⟨job, _, same⟩
        · rw [empty]
          exact ⟨rfl, rfl⟩
        · rw [same]
          exact ⟨rfl, rfl⟩
      have accepted : acceptedOf (added.map .accepted ++ extra) = added := by
        rw [acceptedOf_append, acceptedOf_accepted, quiet.1, List.append_nil]
      have settled : settledOf (added.map .accepted ++ extra) = [] := by
        rw [settledOf_append, settledOf_accepted, quiet.2, List.append_nil]
      have grown : after.seq = q.seq + added.length := by rw [frame]
      refine ⟨by omega, ?_, ?_⟩
      · rw [accepted, new.ids, grown, Nat.add_sub_cancel_left]
      · simp only [goneIds, accepted, settled, List.map_nil, List.append_nil, InMemoryQueue.liveIds, keys]
        have perLane : forall key, (after.laneIds key).Perm
            (q.laneIds key ++ (added.filter (·.partition == key)).map (·.id)) := by
          intro key
          rw [InMemoryQueue.laneIds, InMemoryQueue.laneIds, lanes, ← List.map_append]
          refine List.Perm.map _ ?_
          cases front with
          | true =>
              simp only [Partition.members, if_true, List.append_assoc]
              exact List.perm_append_comm.trans (List.Perm.of_eq (List.append_assoc _ _ _))
          | false =>
              simp only [Partition.members, Bool.false_eq_true, if_false, List.append_assoc]
              exact List.Perm.append_left _ List.perm_append_comm
        refine (List.Perm.flatMap_left _ fun key _ => perLane key).trans ?_
        refine (List.flatMap_append_perm _ _ _).symm.trans (List.Perm.append_left _ ?_)
        rw [← List.map_flatMap]
        exact (flatMap_filter_home q.partitions.nodup (·.partition) added placed).map _
  | @dropped _ kept gone order reports visits visited sublist perm reported lanes keys frame =>
      have quiet := unaccounted_dropped reported
      have accepted : acceptedOf (InMemoryQueue.settle (order.flatMap gone) ++ reports) = [] := by
        rw [acceptedOf_append, acceptedOf_settle, quiet.1, List.append_nil]
      have settled : settledOf (InMemoryQueue.settle (order.flatMap gone) ++ reports) =
          order.flatMap gone := by
        rw [settledOf_append, settledOf_settle, quiet.2, List.append_nil]
      have sameSeq : after.seq = q.seq := by rw [frame]
      refine ⟨Nat.le_of_eq sameSeq.symm, by rw [accepted, sameSeq, Nat.sub_self]; rfl, ?_⟩
      simp only [goneIds, accepted, settled, List.map_nil, List.append_nil, InMemoryQueue.liveIds, keys]
      have sameOrder : order.Perm q.partitions.keys :=
        (List.perm_ext_iff_of_nodup visits q.partitions.nodup).mpr visited
      have collected : ((order.flatMap gone).map (·.id)).Perm
          (q.partitions.keys.flatMap fun key => (gone key).map (·.id)) := by
        rw [List.map_flatMap]
        exact sameOrder.flatMap_right _
      refine (collected.append_left _).trans ((List.flatMap_append_perm _ _ _).trans ?_)
      refine List.Perm.flatMap_left _ fun key _ => ?_
      rw [InMemoryQueue.laneIds, InMemoryQueue.laneIds, lanes, ← List.map_append]
      refine List.Perm.map _ ?_
      simp only [Partition.members, List.append_assoc]
      refine (List.Perm.append_left _ List.perm_append_comm).trans ?_
      rw [← List.append_assoc]
      exact (perm key).append_right _
  | @rewritten _ key job data member lanes keys frame =>
      refine booked_of_update lanes keys (by rw [frame]) ?_ ⟨rfl, rfl⟩
      simp only [Partition.members, List.map_append, List.map_map]
      congr 1
      exact List.map_congr_left fun other _ => setData_id job.id data other
  | @started _ key start lanes keys frame =>
      refine booked_of_members keys (by rw [frame]) (fun other => ?_) ⟨rfl, rfl⟩
      by_cases same : other = key
      · subst same
        simp only [InMemoryQueue.laneIds, Partition.members, lanes, Function.update_self, Start.lane, Start.job,
          start.split, List.map_append, List.map_cons, List.map_nil, activated, List.append_assoc, List.cons_append]
        rw [← List.append_assoc, ← List.append_assoc]
        refine List.perm_append_comm.trans ?_
        rw [List.append_assoc, List.singleton_append]
        exact List.perm_middle.symm
      · exact List.Perm.of_eq (by
          rw [InMemoryQueue.laneIds, InMemoryQueue.laneIds, lanes, Function.update_of_ne same])
  | @released _ key found job keepGroupLock member home marked lanes keys frame =>
      exact booked_of_leaving (nodup key) member (by rw [marked]) lanes rfl rfl keys (by rw [frame]) rfl rfl
  | @lockDropped _ job member kept present lanes keys frame =>
      exact booked_of_update lanes keys (by rw [frame]) rfl ⟨rfl, rfl⟩
  | returnedLate member lockFree frame =>
      have lanes : after.lane = q.lane := by rw [frame]; rfl
      refine booked_of_members (by rw [frame]) (by rw [frame]) (fun key => ?_) ⟨rfl, rfl⟩
      rw [InMemoryQueue.laneIds, InMemoryQueue.laneIds, lanes]
  | @ended _ key found job outcome member home marked lanes keys frame =>
      exact booked_of_leaving (nodup key) member (by rw [marked]) lanes rfl rfl keys (by rw [frame]) rfl rfl
  | @held _ key group unheld unlocked present lanes keys frame =>
      exact booked_of_update lanes keys (by rw [frame]) rfl ⟨rfl, rfl⟩
  | @unheld _ index hold found live present lanes keys frame =>
      exact booked_of_update lanes keys (by rw [frame]) rfl ⟨rfl, rfl⟩
  | @resolved _ index key answer found lanes keys frame =>
      exact booked_of_update lanes keys (by rw [frame]) rfl ⟨rfl, rfl⟩
  | rejected found frame =>
      have lanes : after.lane = q.lane := by rw [frame]; rfl
      refine booked_of_members (by rw [frame]) (by rw [frame]) (fun key => ?_) ⟨rfl, rfl⟩
      rw [InMemoryQueue.laneIds, InMemoryQueue.laneIds, lanes]
  | @drainEnded _ index key answer found stopped lanes keys frame =>
      exact booked_of_update lanes keys (by rw [frame]) rfl ⟨rfl, rfl⟩
  | waiters woken frame =>
      have lanes : after.lane = q.lane := by rw [frame]; rfl
      refine booked_of_members (by rw [frame]) (by rw [frame]) (fun key => ?_) (unaccounted_idle woken)
      rw [InMemoryQueue.laneIds, InMemoryQueue.laneIds, lanes]

theorem runs_of_change {q after : InMemoryQueue}
    (change : Change q output after) :
    (after.releasedRuns.map (·.id)).Subperm (q.releasedRuns.map (·.id) ++ goneIds output) := by
  have unchanged : forall {runs : List InternalJob}, runs = q.releasedRuns ->
      (runs.map (·.id)).Subperm (q.releasedRuns.map (·.id) ++ goneIds output) := by
    intro runs same
    rw [same]
    exact (List.sublist_append_left _ _).subperm
  cases change with
  | @released _ key found job keepGroupLock member home marked lanes keys frame =>
      rw [frame]
      exact List.Perm.subperm (List.Perm.of_eq List.map_append)
  | @lockDropped _ job member kept present lanes keys frame =>
      rw [frame]
      have sameIds : (q.releasedRuns.map fun other : InternalJob =>
          if other.id = job.id then { other with groupLockKept := false } else other).map (·.id) =
          q.releasedRuns.map (·.id) := by
        rw [List.map_map]
        refine List.map_congr_left fun other _ => ?_
        simp only [Function.comp_apply]
        split <;> rfl
      dsimp only
      rw [sameIds]
      exact (List.sublist_append_left _ _).subperm
  | returnedLate member lockFree frame =>
      rw [frame]
      exact ((List.filter_sublist.map _).trans (List.sublist_append_left _ _)).subperm
  | control frame fresh standing scheduled => exact unchanged (by rw [frame])
  | created key => exact unchanged rfl
  | _ =>
      rename_i frame
      exact unchanged (by rw [frame])

structure Census (history : List Signal) (q : InMemoryQueue) : Prop where
  accepted : (acceptedOf history).map (·.id) = List.range' 1 q.seq
  balance : (q.liveIds ++ goneIds history).Perm (List.range' 1 q.seq)
  runs : (q.releasedRuns.map (·.id)).Subperm (goneIds history)

namespace Census

variable {history : List Signal} {q : InMemoryQueue}

theorem nodup (census : Census history q) : (q.liveIds ++ goneIds history).Nodup :=
  census.balance.nodup_iff.mpr List.nodup_range'

theorem laneIds_nil (q : InMemoryQueue) {key : String} (missing : key ∉ q.partitions.keys) :
    q.laneIds key = [] := by
  rw [InMemoryQueue.laneIds, InMemoryQueue.lane, q.partitions.outside key missing]
  rfl

variable {id : Nat}

theorem key_of_id {key : String} (member : id ∈ q.laneIds key) : key ∈ q.partitions.keys := by
  by_contra missing
  rw [laneIds_nil q missing] at member
  cases member

theorem live_of_id {key : String} (member : id ∈ q.laneIds key) : id ∈ q.liveIds :=
  List.mem_flatMap.mpr ⟨key, key_of_id member, member⟩

theorem lane_nodup (census : Census history q) (key : String) : (q.laneIds key).Nodup := by
  by_cases present : key ∈ q.partitions.keys
  · exact (List.nodup_flatMap.mp census.nodup.of_append_left).1 key present
  · rw [laneIds_nil q present]
    exact List.nodup_nil

theorem lane_unique (census : Census history q) {key other : String}
    (here : id ∈ q.laneIds key) (there : id ∈ q.laneIds other) : key = other := by
  by_contra different
  have apart := (List.nodup_flatMap.mp census.nodup.of_append_left).2
  have symmetric : Std.Symm (Function.onFun List.Disjoint q.laneIds) :=
    ⟨fun _ _ disjoint => List.Disjoint.symm disjoint⟩
  exact apart.forall (key_of_id here) (key_of_id there) different here there

theorem gone_absent (census : Census history q) (gone : id ∈ goneIds history)
    (key : String) : id ∉ q.laneIds key := fun member =>
  List.disjoint_of_nodup_append census.nodup (live_of_id member) gone

theorem drawn (census : Census history q) (member : id ∈ q.liveIds ++ goneIds history) :
    1 ≤ id ∧ id ≤ q.seq := by
  have inRange := List.mem_range'_1.mp (census.balance.mem_iff.mp member)
  exact ⟨inRange.1, by omega⟩

theorem runs_nodup (census : Census history q) : (q.releasedRuns.map (·.id)).Nodup := by
  rcases census.runs with ⟨permuted, perm, sublist⟩
  exact perm.nodup_iff.mp (sublist.nodup census.nodup.of_append_right)

theorem active_nodup (census : Census history q) (key : String) :
    ((q.lane key).active.map (·.id)).Nodup := by
  have whole := census.lane_nodup key
  rw [InMemoryQueue.laneIds, Partition.members, List.map_append] at whole
  exact whole.of_append_right

theorem waiting_nodup (census : Census history q) (key : String) :
    ((q.lane key).waiting.map (·.id)).Nodup := by
  have whole := census.lane_nodup key
  rw [InMemoryQueue.laneIds, Partition.members, List.map_append] at whole
  exact whole.of_append_left

end Census

theorem Census.change {history : List Signal} {q after : InMemoryQueue}
    (census : Census history q) (change : Change q output after) : Census (history ++ output) after := by
  have booked := booked_of_change census.lane_nodup change
  have joined : List.range' 1 q.seq ++ List.range' (q.seq + 1) (after.seq - q.seq) =
      List.range' 1 after.seq := by
    rw [Nat.add_comm q.seq 1, List.range'_append_1, Nat.add_sub_cancel' booked.drawn]
  constructor
  · rw [acceptedOf_append, List.map_append, census.accepted, booked.accepted, joined]
  · rw [goneIds_append]
    have moved : (after.liveIds ++ (goneIds history ++ goneIds output)).Perm
        ((after.liveIds ++ goneIds output) ++ goneIds history) := by
      rw [List.append_assoc]
      exact List.perm_append_comm.append_left _
    have restored : (q.liveIds ++ (acceptedOf output).map (·.id) ++ goneIds history).Perm
        (q.liveIds ++ goneIds history ++ (acceptedOf output).map (·.id)) := by
      rw [List.append_assoc, List.append_assoc]
      exact List.perm_append_comm.append_left _
    refine moved.trans ((booked.balance.append_right _).trans (restored.trans ?_))
    rw [← joined, booked.accepted]
    exact census.balance.append_right _
  · rw [goneIds_append]
    exact (runs_of_change change).trans ((List.subperm_append_right _).mpr census.runs)

theorem census_new : Census [] InMemoryQueue.new where
  accepted := rfl
  balance := List.Perm.refl _
  runs := List.Subperm.refl _

theorem census_of_run {guard : InMemoryQueue -> Event -> Prop} {history : List Signal}
    {q : InMemoryQueue} (run : queueMachine.Run guard history q) : Census history q :=
  (queue_invariant Census census_new
    (fun _ _ _ _ _ census change => census.change change) run).2

/-- The invariant rule with the books open: while proving that a change
preserves an invariant, every job is where it belongs and stands there once. -/
theorem audited_invariant {guard : InMemoryQueue -> Event -> Prop}
    (holds : List Signal -> InMemoryQueue -> Prop) (initially : holds [] InMemoryQueue.new)
    (preserved : forall history before output after, Placed before -> Census history before ->
      holds history before -> Change before output after -> holds (history ++ output) after)
    {history : List Signal} {q : InMemoryQueue} (run : queueMachine.Run guard history q) :
    holds history q :=
  (queue_invariant (fun history q => Census history q ∧ holds history q) ⟨census_new, initially⟩
    (fun _ _ _ _ placed held change =>
      ⟨held.1.change change, preserved _ _ _ _ placed held.1 held.2 change⟩) run).2.2

end DeployQueue
end Dokploy
