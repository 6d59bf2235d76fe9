import Dokploy.DeployQueue.Census

namespace Dokploy
namespace DeployQueue

open Foundation

/-!
# Registered deployment ids of dropped jobs

A waiting payload may carry the id of a deployment row that was registered
before the job runs.  Whoever takes such a payload out of the queue has to say
so, or the row stays open for ever.  Five of the six removing calls report all
they drop.  Push coalescing reports only what the merged payload does not
carry, which is right as long as there is a merged payload.
-/

/-- The calls that take waiting jobs out or replace their payloads. -/
inductive RemovalCall where
  | remove (id : Nat)
  | removeWaitingJob (id : Nat)
  | removeWaiting (predicate : DeploymentJob -> Bool)
  | keepOldestWaiting (predicate : DeploymentJob -> Bool)
  | clearWaiting
  | coalesceWaiting (incoming : DeploymentJob) (predicate : DeploymentJob -> Bool) (uuid : String) (now : Nat)

/-- The call with what its callers do next: after coalescing they enqueue the
incoming payload unchanged exactly when nothing was merged. -/
def RemovalCall.effect (q : InMemoryQueue) : RemovalCall -> InMemoryQueue × List Signal
  | .remove id => ((q.remove id).queue, (q.remove id).signals)
  | .removeWaitingJob id => ((q.removeWaitingJob id).queue, (q.removeWaitingJob id).signals)
  | .removeWaiting predicate => ((q.removeWaiting predicate).queue, (q.removeWaiting predicate).signals)
  | .keepOldestWaiting predicate =>
      ((q.keepOldestWaiting predicate).queue, (q.keepOldestWaiting predicate).signals)
  | .clearWaiting => (q.clearWaiting.queue, q.clearWaiting.signals)
  | .coalesceWaiting incoming predicate uuid now =>
      let reply := q.coalesceWaiting incoming predicate
      match reply.answer.merged with
      | some _ => (reply.queue, reply.signals)
      | none =>
          let added := reply.queue.add incoming uuid now
          (added.queue, reply.signals ++ added.signals)

def WaitsWith (q : InMemoryQueue) (deploymentId : String) : Prop :=
  Exists fun key => Exists fun job => job ∈ (q.lane key).waiting ∧ carries job.data deploymentId

def Signal.droppedData : Signal -> List DeploymentJob
  | .waitingDropped data => data
  | _ => []

/-- Some payload passed to `onWaitingDropped` carries the id. -/
def Reported (signals : List Signal) (deploymentId : String) : Prop :=
  Exists fun payload => payload ∈ signals.flatMap Signal.droppedData ∧ carries payload deploymentId

/-- Every id a waiting payload carried before the call is carried or reported
after it. -/
def Accounted (q : InMemoryQueue) (call : RemovalCall) : Prop :=
  forall key job deploymentId, job ∈ (q.lane key).waiting -> carries job.data deploymentId ->
    WaitsWith (call.effect q).1 deploymentId ∨ Reported (call.effect q).2 deploymentId

variable {deploymentId : String}

theorem reported_append {first second : List Signal} :
    Reported (first ++ second) deploymentId <->
      Reported first deploymentId ∨ Reported second deploymentId := by
  simp only [Reported, List.flatMap_append, List.mem_append, or_and_right, exists_or]

theorem reported_reportDropped {data : List DeploymentJob} :
    Reported (InMemoryQueue.reportDropped data) deploymentId <->
      Exists fun payload => payload ∈ data ∧ carries payload deploymentId := by
  have collected : (InMemoryQueue.reportDropped data).flatMap Signal.droppedData = data := by
    unfold InMemoryQueue.reportDropped
    split
    · rename_i empty
      exact empty.symm
    · exact List.append_nil data
  rw [Reported, collected]

theorem not_reported_settle {jobs : List InternalJob} :
    ¬ Reported (InMemoryQueue.settle jobs) deploymentId := by
  have collected : (InMemoryQueue.settle jobs).flatMap Signal.droppedData = [] := by
    unfold InMemoryQueue.settle
    split <;> rfl
  rintro ⟨payload, member, _⟩
  rw [collected] at member
  cases member

theorem reported_discard {jobs : List InternalJob} {job : InternalJob}
    (member : job ∈ jobs) (carried : carries job.data deploymentId) :
    Reported (InMemoryQueue.discard jobs) deploymentId :=
  reported_append.mpr (Or.inr (reported_reportDropped.mpr ⟨job.data, List.mem_map_of_mem member, carried⟩))

private theorem accounted_sweep {Scan : Type} {q : InMemoryQueue}
    (decision : String -> Scan -> InternalJob -> Scan × Bool) (initial : Scan)
    {key : String} {job : InternalJob}
    (member : job ∈ (q.lane key).waiting) (carried : carries job.data deploymentId) :
    WaitsWith (q.keepSwept fun key => sweep (decision key) initial (q.lane key).waiting) deploymentId ∨
      Reported (InMemoryQueue.discard (q.partitions.keys.flatMap fun key =>
        (sweep (decision key) initial (q.lane key).waiting).gone)) deploymentId := by
  rcases (mem_sweep (decision key) initial (q.lane key).waiting job).mpr member with stays | leaves
  · refine Or.inl ⟨key, job, ?_, carried⟩
    rw [lane_keepSwept q _ sweep_outside]
    exact stays
  · exact Or.inr (reported_discard
      (List.mem_flatMap.mpr ⟨key, InMemoryQueue.key_of_waiting member, leaves⟩) carried)

private theorem accounted_removeWaitingJob {q : InMemoryQueue} {id : Nat} {key : String}
    {job : InternalJob} (member : job ∈ (q.lane key).waiting)
    (carried : carries job.data deploymentId) :
    WaitsWith (q.removeWaitingJob id).queue deploymentId ∨
      Reported (q.removeWaitingJob id).signals deploymentId := by
  unfold InMemoryQueue.removeWaitingJob
  split
  · exact Or.inl ⟨key, job, member, carried⟩
  · rename_i lane found
    have present : lane ∈ q.partitions.keys := List.mem_of_find?_eq_some found
    have lanes := InMemoryQueue.lane_changeLane q lane
      (fun lane => { lane with waiting := lane.waiting.filter fun job => !(job.id == id) }) present
    by_cases here : key = lane
    · subst here
      by_cases removed : job.id = id
      · exact Or.inr (reported_discard (List.mem_filter.mpr ⟨member, beq_iff_eq.mpr removed⟩) carried)
      · refine Or.inl ⟨key, job, ?_, carried⟩
        rw [lanes, Function.update_self]
        exact List.mem_filter.mpr ⟨member, by simpa using removed⟩
    · refine Or.inl ⟨key, job, ?_, carried⟩
      rw [lanes, Function.update_of_ne here]
      exact member

namespace InMemoryQueue

/-- The waiting jobs of a lane that the incoming payload is folded over. -/
def duplicatesIn (q : InMemoryQueue) (incoming : DeploymentJob) (predicate : DeploymentJob -> Bool)
    (key : String) : List InternalJob :=
  (q.lane key).waiting.filter (isDuplicateOf incoming predicate)

/-- The first id that a duplicate carries, in the order the lanes are scanned. -/
def firstDuplicateId (q : InMemoryQueue) (incoming : DeploymentJob)
    (predicate : DeploymentJob -> Bool) : Option String :=
  (((q.homeFirst (getPartition incoming)).flatMap (q.duplicatesIn incoming predicate)).map fun job =>
    registeredId job.data).findSome? fun id => if truthy id then id else none

/-- The incoming payload has an id property of its own, or a duplicate waits in
its lane, or the first id that a duplicate elsewhere carries is also carried by
a waiting job that is no duplicate (in particular when none carries one). -/
def KeepsIds (q : InMemoryQueue) (incoming : DeploymentJob) (predicate : DeploymentJob -> Bool) : Prop :=
  registeredId incoming ≠ none ∨ q.duplicatesIn incoming predicate (getPartition incoming) ≠ [] ∨
    forall deploymentId, q.firstDuplicateId incoming predicate = some deploymentId ->
      Exists fun key => Exists fun job => job ∈ (q.lane key).waiting ∧
        isDuplicateOf incoming predicate job = false ∧ carries job.data deploymentId

end InMemoryQueue

section Coalescing

variable {incoming : DeploymentJob} {predicate : DeploymentJob -> Bool}

theorem scan_drops (isHome : Bool) (target : Option InternalJob)
    (drops : (target.isNone && isHome) = false) (jobs : List InternalJob) :
    sweep (InMemoryQueue.coalesceDecision incoming predicate isHome) target jobs =
      ⟨target, jobs.filter (fun job => !InMemoryQueue.isDuplicateOf incoming predicate job),
        jobs.filter (InMemoryQueue.isDuplicateOf incoming predicate)⟩ := by
  induction jobs with
  | nil => rfl
  | cons head rest ih =>
      cases duplicate : InMemoryQueue.isDuplicateOf incoming predicate head with
      | false =>
          have decided : InMemoryQueue.coalesceDecision incoming predicate isHome target head = (target, true) := by
            simp only [InMemoryQueue.coalesceDecision, duplicate, Bool.not_false, if_true]
          simp only [sweep, decided, ih, List.filter_cons, duplicate, Bool.not_false, if_true,
            Bool.false_eq_true, if_false]
      | true =>
          have decided : InMemoryQueue.coalesceDecision incoming predicate isHome target head = (target, false) := by
            simp only [InMemoryQueue.coalesceDecision, duplicate, drops, Bool.not_true, Bool.false_eq_true, if_false]
          simp only [sweep, decided, ih, List.filter_cons, duplicate, Bool.not_true, if_true,
            Bool.false_eq_true, if_false]

theorem scan_passes (isHome : Bool) (target : Option InternalJob) {jobs : List InternalJob}
    (others : forall job, job ∈ jobs -> InMemoryQueue.isDuplicateOf incoming predicate job = false) :
    sweep (InMemoryQueue.coalesceDecision incoming predicate isHome) target jobs = ⟨target, jobs, []⟩ := by
  induction jobs with
  | nil => rfl
  | cons head rest ih =>
      have decided : InMemoryQueue.coalesceDecision incoming predicate isHome target head = (target, true) := by
        simp only [InMemoryQueue.coalesceDecision, others head List.mem_cons_self, Bool.not_false, if_true]
      simp only [sweep, decided, if_true,
        ih fun job member => others job (List.mem_cons_of_mem _ member)]

theorem scan_home {earlier later : List InternalJob} {first : InternalJob}
    (others : forall job, job ∈ earlier -> InMemoryQueue.isDuplicateOf incoming predicate job = false)
    (duplicate : InMemoryQueue.isDuplicateOf incoming predicate first = true) :
    sweep (InMemoryQueue.coalesceDecision incoming predicate true) none (earlier ++ first :: later) =
      ⟨some first,
        earlier ++ first :: later.filter (fun job => !InMemoryQueue.isDuplicateOf incoming predicate job),
        later.filter (InMemoryQueue.isDuplicateOf incoming predicate)⟩ := by
  have decided : InMemoryQueue.coalesceDecision incoming predicate true none first = (some first, true) := by
    simp only [InMemoryQueue.coalesceDecision, duplicate, Bool.not_true, Bool.false_eq_true, if_false,
      Option.isNone_none, Bool.and_self, if_true]
  rw [sweep_append, scan_passes true none others]
  simp only [sweep, decided, if_true, scan_drops true (some first) rfl, List.nil_append]

theorem first_duplicate (incoming : DeploymentJob) (predicate : DeploymentJob -> Bool) (jobs : List InternalJob) :
    (forall job, job ∈ jobs -> InMemoryQueue.isDuplicateOf incoming predicate job = false) ∨
      Exists fun earlier => Exists fun first => Exists fun later => jobs = earlier ++ first :: later ∧
        (forall job, job ∈ earlier -> InMemoryQueue.isDuplicateOf incoming predicate job = false) ∧
        InMemoryQueue.isDuplicateOf incoming predicate first = true := by
  cases found : jobs.find? (InMemoryQueue.isDuplicateOf incoming predicate) with
  | none => exact Or.inl fun job member => Bool.eq_false_iff.mpr (List.find?_eq_none.mp found job member)
  | some first =>
      rcases List.find?_eq_some_iff_append.mp found with ⟨duplicate, earlier, later, split, others⟩
      exact Or.inr ⟨earlier, first, later, split,
        fun job member => Bool.not_eq_true' _ ▸ others job member, duplicate⟩

/-- Without a target the scan keeps exactly the jobs that are no duplicates,
and in the home lane there are none. -/
private theorem coalesce_without_target (isHome : Bool) (jobs : List InternalJob)
    (missing : (sweep (InMemoryQueue.coalesceDecision incoming predicate isHome) none jobs).state = none) :
    let swept := sweep (InMemoryQueue.coalesceDecision incoming predicate isHome) none jobs
    swept.kept = jobs.filter (fun job => !InMemoryQueue.isDuplicateOf incoming predicate job) ∧
      swept.gone = jobs.filter (InMemoryQueue.isDuplicateOf incoming predicate) ∧
      (isHome = true -> swept.gone = []) := by
  cases isHome with
  | false =>
      rw [scan_drops false none (Bool.and_false _)]
      exact ⟨rfl, rfl, fun impossible => by cases impossible⟩
  | true =>
      rcases first_duplicate incoming predicate jobs with
        others | ⟨earlier, first, later, split, others, duplicate⟩
      · rw [scan_passes true none others]
        refine ⟨(List.filter_eq_self.mpr fun job member => ?_).symm, ?_, fun _ => rfl⟩
        · rw [others job member, Bool.not_false]
        · exact (List.filter_eq_nil_iff.mpr fun job member => Bool.eq_false_iff.mp (others job member)).symm
      · rw [split, scan_home others duplicate] at missing
        cases missing

private theorem coalesce_elsewhere (jobs : List InternalJob) :
    (sweep (InMemoryQueue.coalesceDecision incoming predicate false) none jobs).state = none := by
  rw [scan_drops false none (Bool.and_false _)]

private theorem coalesce_target (jobs : List InternalJob) (isHome : Bool) (target : InternalJob)
    (found : (sweep (InMemoryQueue.coalesceDecision incoming predicate isHome) none jobs).state = some target) :
    target ∈ jobs.filter (InMemoryQueue.isDuplicateOf incoming predicate) := by
  cases isHome with
  | false =>
      rw [coalesce_elsewhere] at found
      cases found
  | true =>
      rcases first_duplicate incoming predicate jobs with
        others | ⟨earlier, first, later, split, others, duplicate⟩
      · rw [scan_passes true none others] at found
        cases found
      · rw [split, scan_home others duplicate] at found
        rw [split, ← Option.some.inj found]
        exact List.mem_filter.mpr ⟨List.mem_append_right _ List.mem_cons_self, duplicate⟩

theorem coalesceSweep_none (q : InMemoryQueue)
    (missing : (q.coalesceSweep incoming predicate (getPartition incoming)).state = none) (key : String) :
    (q.coalesceSweep incoming predicate key).kept =
        (q.lane key).waiting.filter (fun job => !InMemoryQueue.isDuplicateOf incoming predicate job) ∧
      (q.coalesceSweep incoming predicate key).gone = q.duplicatesIn incoming predicate key := by
  have noTarget : (q.coalesceSweep incoming predicate key).state = none := by
    by_cases same : key = getPartition incoming
    · rw [same]
      exact missing
    · unfold InMemoryQueue.coalesceSweep
      rw [decide_eq_false same]
      exact coalesce_elsewhere _
  have shape := coalesce_without_target _ _ noTarget
  exact ⟨shape.1, shape.2.1⟩

theorem lane_coalesced (incoming : DeploymentJob) (predicate : DeploymentJob -> Bool) (q : InMemoryQueue) :
    (q.keepSwept (q.coalesceSweep incoming predicate)).lane =
      fun key => { q.lane key with waiting := (q.coalesceSweep incoming predicate key).kept } :=
  lane_keepSwept q _ sweep_outside

variable {deploymentId : String}

theorem carries_mergedPayload {target : Option InternalJob} {dropped : List InternalJob}
    (kept : InMemoryQueue.keptId incoming target dropped = some deploymentId) (nonempty : deploymentId ≠ "") :
    carries (InMemoryQueue.mergedPayload incoming (some deploymentId)) deploymentId := by
  have truthyKept : InMemoryQueue.truthy (some deploymentId) = true := bne_iff_ne.mpr nonempty
  unfold InMemoryQueue.mergedPayload
  cases own : InMemoryQueue.truthy (registeredId incoming) with
  | false =>
      rw [truthyKept, Bool.not_false, Bool.and_self, if_pos rfl]
      exact ⟨nonempty, rfl⟩
  | true =>
      rw [Bool.not_true, Bool.and_false, if_neg Bool.false_ne_true]
      unfold InMemoryQueue.keptId at kept
      cases registered : registeredId incoming with
      | none =>
          rw [registered] at own
          cases own
      | some id =>
          rw [registered] at kept
          exact ⟨nonempty, Option.some.inj kept ▸ registered⟩

theorem isLost_of_carries {data : DeploymentJob} {kept : Option String}
    (carried : carries data deploymentId) (different : kept ≠ some deploymentId) :
    InMemoryQueue.isLost kept data = true := by
  unfold InMemoryQueue.isLost
  rw [carried.2, Bool.and_eq_true]
  exact ⟨bne_iff_ne.mpr carried.1, bne_iff_ne.mpr different.symm⟩

theorem not_lost_of_carries {data : DeploymentJob}
    (carried : carries data deploymentId) : InMemoryQueue.isLost (some deploymentId) data = false := by
  unfold InMemoryQueue.isLost
  rw [carried.2, bne_self_eq_false, Bool.and_false]

theorem waitsWith_add (q : InMemoryQueue) (requested : DeploymentJob) (uuid : String) (now : Nat)
    (deploymentId : String) :
    WaitsWith (q.add requested uuid now).queue deploymentId <->
      WaitsWith q deploymentId ∨ carries requested deploymentId := by
  have sameId : registeredId (addedData q requested uuid now) = registeredId requested := by
    unfold addedData
    split <;> rfl
  constructor
  · rintro ⟨key, job, member, carried⟩
    rw [lane_add] at member
    by_cases same : key = getPartition requested
    · rw [same, Function.update_self] at member
      rcases List.mem_append.mp member with old | new
      · exact Or.inl ⟨getPartition requested, job, old, carried⟩
      · rw [List.mem_singleton.mp new] at carried
        exact Or.inr ⟨carried.1, sameId ▸ carried.2⟩
    · rw [Function.update_of_ne same] at member
      exact Or.inl ⟨key, job, member, carried⟩
  · rintro (⟨key, job, member, carried⟩ | carried)
    · refine ⟨key, job, ?_, carried⟩
      rw [lane_add]
      by_cases same : key = getPartition requested
      · rw [same, Function.update_self]
        exact List.mem_append_left _ (same ▸ member)
      · rw [Function.update_of_ne same]
        exact member
    · refine ⟨getPartition requested, q.createJob (addedData q requested uuid now) uuid now, ?_, carried.1, ?_⟩
      · rw [lane_add, Function.update_self]
        exact List.mem_append_right _ (List.mem_singleton_self _)
      · exact sameId.trans carried.2

theorem not_reported_add {q : InMemoryQueue} {requested : DeploymentJob} {uuid : String} {now : Nat} :
    ¬ Reported (q.add requested uuid now).signals deploymentId := by
  rintro ⟨payload, member, _⟩
  cases member

/-- Coalescing without a target leaves an id unaccounted for exactly when it is
the kept one and nothing that stays carries it. -/
private theorem accounted_without_target {q : InMemoryQueue} {uuid : String} {now : Nat}
    (missing : (q.coalesceSweep incoming predicate (getPartition incoming)).state = none) :
    Accounted q (.coalesceWaiting incoming predicate uuid now) <-> q.KeepsIds incoming predicate := by
  let dropped := (q.homeFirst (getPartition incoming)).flatMap (q.duplicatesIn incoming predicate)
  let kept := InMemoryQueue.keptId incoming none dropped
  have effect : (RemovalCall.coalesceWaiting incoming predicate uuid now).effect q =
      (((q.keepSwept (q.coalesceSweep incoming predicate)).add incoming uuid now).queue,
        (InMemoryQueue.settle dropped ++
          InMemoryQueue.reportDropped ((dropped.map (·.data)).filter (InMemoryQueue.isLost kept))) ++
          ((q.keepSwept (q.coalesceSweep incoming predicate)).add incoming uuid now).signals) := by
    have collected : ((q.homeFirst (getPartition incoming)).flatMap fun key =>
        (q.coalesceSweep incoming predicate key).gone) = dropped :=
      flatMap_eq_of_mem fun key _ => (coalesceSweep_none q missing key).2
    simp only [RemovalCall.effect, InMemoryQueue.coalesceWaiting, missing, collected, kept]
  have waits : forall deploymentId,
      WaitsWith ((RemovalCall.coalesceWaiting incoming predicate uuid now).effect q).1 deploymentId <->
        (Exists fun key => Exists fun job => job ∈ (q.lane key).waiting ∧
          InMemoryQueue.isDuplicateOf incoming predicate job = false ∧ carries job.data deploymentId) ∨
        carries incoming deploymentId := by
    intro deploymentId
    rw [effect, waitsWith_add]
    refine or_congr_left (exists_congr fun key => exists_congr fun job => ?_)
    rw [lane_coalesced]
    dsimp only
    rw [(coalesceSweep_none q missing key).1, List.mem_filter, Bool.not_eq_true', and_assoc]
  have reports : forall deploymentId,
      Reported ((RemovalCall.coalesceWaiting incoming predicate uuid now).effect q).2 deploymentId <->
        Exists fun job => job ∈ dropped ∧ InMemoryQueue.isLost kept job.data = true ∧
          carries job.data deploymentId := by
    intro deploymentId
    rw [effect, reported_append, or_iff_left not_reported_add, reported_append,
      or_iff_right not_reported_settle, reported_reportDropped]
    constructor
    · rintro ⟨payload, member, carried⟩
      rcases List.mem_filter.mp member with ⟨inMap, lost⟩
      rcases List.mem_map.mp inMap with ⟨job, inDropped, same⟩
      exact ⟨job, inDropped, same ▸ lost, same ▸ carried⟩
    · rintro ⟨job, inDropped, lost, carried⟩
      exact ⟨job.data, List.mem_filter.mpr ⟨List.mem_map_of_mem inDropped, lost⟩, carried⟩
  have noDuplicateAtHome : q.duplicatesIn incoming predicate (getPartition incoming) = [] := by
    have shape := coalesce_without_target _ _ missing
    have gone := shape.2.2 (decide_eq_true rfl)
    rw [← (coalesceSweep_none q missing (getPartition incoming)).2]
    exact gone
  constructor
  · intro accounted
    by_cases own : registeredId incoming = none
    · refine Or.inr (Or.inr fun deploymentId first => ?_)
      have keptFirst : kept = some deploymentId := by
        simp only [kept, InMemoryQueue.keptId, own, Option.bind_none]
        exact first
      -- The kept id is carried by one of the dropped duplicates.
      rcases List.exists_of_findSome?_eq_some first with ⟨id, inMap, chosen⟩
      rcases List.mem_map.mp inMap with ⟨job, inDropped, sameId⟩
      rcases List.mem_flatMap.mp inDropped with ⟨key, _, duplicate⟩
      rcases List.mem_filter.mp duplicate with ⟨member, _⟩
      have carried : carries job.data deploymentId := by
        split at chosen
        · rename_i isTruthy
          rw [chosen] at isTruthy sameId
          exact ⟨bne_iff_ne.mp isTruthy, sameId⟩
        · cases chosen
      rcases accounted key job deploymentId member carried with waiting | reported
      · rcases (waits deploymentId).mp waiting with stays | impossible
        · exact stays
        · rw [carries, own] at impossible
          cases impossible.2
      · rcases (reports deploymentId).mp reported with ⟨other, _, lost, otherCarries⟩
        rw [keptFirst, not_lost_of_carries otherCarries] at lost
        cases lost
    · exact Or.inl own
  · intro keeps key job deploymentId member carried
    cases duplicate : InMemoryQueue.isDuplicateOf incoming predicate job with
    | false => exact Or.inl ((waits deploymentId).mpr (Or.inl ⟨key, job, member, duplicate, carried⟩))
    | true =>
        have inDropped : job ∈ dropped := List.mem_flatMap.mpr
          ⟨key, (mem_homeFirst q _ key).mpr (InMemoryQueue.key_of_waiting member),
            List.mem_filter.mpr ⟨member, duplicate⟩⟩
        by_cases sameKept : kept = some deploymentId
        · refine Or.inl ((waits deploymentId).mpr ?_)
          cases own : registeredId incoming with
          | some id =>
              simp only [kept, InMemoryQueue.keptId, own] at sameKept
              exact Or.inr ⟨carried.1, own.trans sameKept⟩
          | none =>
              simp only [kept, InMemoryQueue.keptId, own, Option.bind_none] at sameKept
              rcases keeps with hasOwn | atHome | elsewhere
              · exact absurd own hasOwn
              · exact absurd noDuplicateAtHome atHome
              · exact Or.inl (elsewhere deploymentId sameKept)
        · exact Or.inr ((reports deploymentId).mpr
            ⟨job, inDropped, isLost_of_carries carried sameKept, carried⟩)

private theorem accounted_with_target {history : List Signal} {q : InMemoryQueue} (census : Census history q)
    {uuid : String} {now : Nat} {target : InternalJob}
    (found : (q.coalesceSweep incoming predicate (getPartition incoming)).state = some target) :
    Accounted q (.coalesceWaiting incoming predicate uuid now) := by
  let home := getPartition incoming
  let coalesced := q.keepSwept (q.coalesceSweep incoming predicate)
  let dropped := (q.homeFirst home).flatMap fun key => (q.coalesceSweep incoming predicate key).gone
  let kept := InMemoryQueue.keptId incoming (some target) dropped
  let merged := InMemoryQueue.mergedPayload incoming kept
  have targetKept : target ∈ (coalesced.lane home).waiting := by
    rw [lane_coalesced]
    exact (coalesce_target_kept incoming predicate _ _ none target found).resolve_left (by simp)
  have lanes : ((RemovalCall.coalesceWaiting incoming predicate uuid now).effect q).1.lane =
      Function.update coalesced.lane home
        { coalesced.lane home with waiting := (coalesced.lane home).waiting.map (setData target.id merged) } := by
    simp only [RemovalCall.effect, InMemoryQueue.coalesceWaiting, found]
    exact InMemoryQueue.lane_changeLane _ _ _ (InMemoryQueue.key_of_waiting targetKept)
  have signals : ((RemovalCall.coalesceWaiting incoming predicate uuid now).effect q).2 =
      InMemoryQueue.settle dropped ++
          InMemoryQueue.reportDropped ((dropped.map (·.data)).filter (InMemoryQueue.isLost kept)) ++
        InMemoryQueue.reportDropped ([target.data].filter (InMemoryQueue.isLost kept)) ++
        [.updated target.journalId merged] := by
    simp only [RemovalCall.effect, InMemoryQueue.coalesceWaiting, found]
    rfl
  intro key job deploymentId member carried
  by_cases sameKept : kept = some deploymentId
  · refine Or.inl ⟨home, setData target.id merged target, ?_, ?_⟩
    · rw [lanes, Function.update_self]
      exact List.mem_map_of_mem targetKept
    · have mergedCarries := carries_mergedPayload sameKept carried.1
      rw [setData, if_pos rfl]
      rw [← sameKept] at mergedCarries
      exact mergedCarries
  · have lost := isLost_of_carries carried sameKept
    rw [signals, reported_append, reported_append, reported_append]
    rcases (mem_sweep _ none (q.lane key).waiting job).mpr member with stays | leaves
    · have stayed : job ∈ (coalesced.lane key).waiting := by
        rw [lane_coalesced]
        exact stays
      by_cases atHome : key = home
      · subst atHome
        by_cases isTarget : job.id = target.id
        · have targetMember : target ∈ (q.lane home).waiting := by
            rw [lane_coalesced] at targetKept
            exact (sweep_kept_sublist _ _ _).subset targetKept
          have same : job = target :=
            List.inj_on_of_nodup_map (census.waiting_nodup home) member targetMember isTarget
          subst same
          refine Or.inr (Or.inl (Or.inr (reported_reportDropped.mpr ⟨job.data, ?_, carried⟩)))
          rw [List.filter_cons, if_pos lost]
          exact List.mem_singleton_self _
        · refine Or.inl ⟨home, job, ?_, carried⟩
          rw [lanes, Function.update_self]
          exact List.mem_map.mpr ⟨job, stayed, if_neg isTarget⟩
      · refine Or.inl ⟨key, job, ?_, carried⟩
        rw [lanes, Function.update_of_ne atHome]
        exact stayed
    · refine Or.inr (Or.inl (Or.inl (Or.inr (reported_reportDropped.mpr ⟨job.data, ?_, carried⟩))))
      refine List.mem_filter.mpr ⟨List.mem_map_of_mem (List.mem_flatMap.mpr ⟨key, ?_, leaves⟩), lost⟩
      exact (mem_homeFirst q _ key).mpr (InMemoryQueue.key_of_waiting member)

end Coalescing

/-- The calls after which no id can be missing. -/
def RemovalCall.Safe (q : InMemoryQueue) : RemovalCall -> Prop
  | .coalesceWaiting incoming predicate _ _ => q.KeepsIds incoming predicate
  | _ => True

/-- In every reachable state a removing call accounts for every id exactly
when it is safe. -/
theorem registered_ids_accounted {history : List Signal} {q : InMemoryQueue}
    (run : queueMachine.Reaches history q) (call : RemovalCall) : Accounted q call <-> call.Safe q := by
  have census := census_of_run run
  cases call with
  | remove id =>
      exact ⟨fun _ => trivial, fun _ key job deploymentId member carried => accounted_removeWaitingJob member carried⟩
  | removeWaitingJob id =>
      exact ⟨fun _ => trivial, fun _ key job deploymentId member carried => accounted_removeWaitingJob member carried⟩
  | removeWaiting predicate =>
      exact ⟨fun _ => trivial, fun _ key job deploymentId member carried => accounted_sweep
        (fun _ (_ : Unit) job => ((), !predicate job.data)) () member carried⟩
  | keepOldestWaiting predicate =>
      exact ⟨fun _ => trivial, fun _ key job deploymentId member carried => accounted_sweep
        (fun _ => InMemoryQueue.keepOldestDecision predicate) [] member carried⟩
  | clearWaiting =>
      exact ⟨fun _ => trivial, fun _ key job deploymentId member carried => accounted_sweep
        (fun _ (_ : Unit) _ => ((), false)) () member carried⟩
  | coalesceWaiting incoming predicate uuid now =>
      cases found : (q.coalesceSweep incoming predicate (getPartition incoming)).state with
      | none => exact accounted_without_target found
      | some target =>
          refine ⟨fun _ => Or.inr (Or.inl ?_), fun _ => accounted_with_target census found⟩
          exact List.ne_nil_of_mem (coalesce_target _ _ target found)

/-- The lane of the incoming payload has a duplicate to merge into. -/
theorem registered_ids_accounted_merge :
    let registered := { plainDeploy "a" none with deploymentId := some "d1" }
    let q := (queueMachine.outcome (fun _ _ => true) [.add registered "u1" 1]).1
    Accounted q (.coalesceWaiting (plainDeploy "a" none) (fun _ => true) "u2" 2) := by
  intro registered q
  exact (registered_ids_accounted (Machine.run_of_executes (fun _ _ _ => trivial) (by decide)) _).mpr
    (Or.inr (Or.inl (by decide)))

/-- The only duplicate waits in the lane of the former server: its id is
dropped without a report, and the job enqueued instead does not carry it. -/
theorem registered_id_lost :
    ¬ forall history q, queueMachine.Reaches history q -> forall call, Accounted q call := by
  intro claimed
  let registered := { plainDeploy "a" (some "s1") with deploymentId := some "d1" }
  let q := (queueMachine.outcome (fun _ _ => true) [.add registered "u1" 1]).1
  let call := RemovalCall.coalesceWaiting (plainDeploy "a" none) (fun _ => true) "u2" 2
  have accounted := claimed _ q (Machine.run_of_executes (fun _ _ _ => trivial) (by decide)) call
  have waited : Exists fun job => job ∈ (q.lane "s1").waiting ∧ carries job.data "d1" := by decide
  rcases waited with ⟨job, member, carried⟩
  rcases accounted "s1" job "d1" member carried with ⟨key, other, stays, otherCarries⟩ | reported
  · have nowhere : forall key, key ∈ (call.effect q).1.partitions.keys -> forall job,
        job ∈ ((call.effect q).1.lane key).waiting -> ¬ carries job.data "d1" := by decide
    exact nowhere key (InMemoryQueue.key_of_waiting stays) other stays otherCarries
  · have unreported : ¬ Exists fun payload =>
        payload ∈ (call.effect q).2.flatMap Signal.droppedData ∧ carries payload "d1" := by decide
    exact unreported reported

end DeployQueue
end Dokploy
