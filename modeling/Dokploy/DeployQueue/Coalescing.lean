import Dokploy.DeployQueue.Dropped

namespace Dokploy
namespace DeployQueue

open Foundation

/-!
# What coalescing leaves waiting

A burst of pushes is to leave one waiting job, at the earliest position and with
the newest payload.  The scan of the incoming payload's own lane has a closed
form around the first duplicate, and every other lane loses all its duplicates,
so the lanes after a push can be written down.  Keeping the oldest job of each
class is a pass of its own: it looks at the pinned image and changes no payload.

One payload does not wait as it came.  A priority request that meets an empty
lane has nothing to pass, and `add` takes the request off.
-/

inductive BuildPolicyUnitType where
  | application
  | compose
  deriving DecidableEq, Repr

/-- The unit's own plain deploys.  A queued preview of the same unit has
another type of application. -/
def isCoalescableDeployJob (unitType : BuildPolicyUnitType) (unitId : String) (job : DeploymentJob) : Bool :=
  match unitType with
  | .application => job.applicationType == .application && job.applicationId == some unitId
  | .compose => job.applicationType == .compose && job.composeId == some unitId

/-- The payload fields that a merge takes over from the newest push. -/
structure SameBuild (data incoming : DeploymentJob) : Prop where
  title : data.titleLog = incoming.titleLog
  description : data.descriptionLog = incoming.descriptionLog
  image : data.pinnedImage = incoming.pinnedImage
  server : data.serverId = incoming.serverId

namespace InMemoryQueue

/-- A priority request that meets an empty lane. -/
def LosesPriority (q : InMemoryQueue) (incoming : DeploymentJob) : Prop :=
  incoming.priority = some true ∧ (q.lane (getPartition incoming)).waiting = []

instance (q : InMemoryQueue) (incoming : DeploymentJob) : Decidable (q.LosesPriority incoming) :=
  inferInstanceAs (Decidable (_ ∧ _))

/-- The queue after a push was coalesced, and enqueued when nothing was merged. -/
def afterPush (q : InMemoryQueue) (incoming : DeploymentJob) (predicate : DeploymentJob -> Bool)
    (uuid : String) (now : Nat) : InMemoryQueue :=
  ((RemovalCall.coalesceWaiting incoming predicate uuid now).effect q).1

end InMemoryQueue

/-- Where the one remaining job stands in the home lane, and what it is. -/
structure Stands (q after : InMemoryQueue) (incoming : DeploymentJob) (predicate : DeploymentJob -> Bool)
    (ahead : List InternalJob) (job : InternalJob) (behind : List InternalJob) : Prop where
  place : (after.lane (getPartition incoming)).waiting = ahead ++ job :: behind
  newest : SameBuild job.data incoming
  alone : ¬ q.LosesPriority incoming -> after.duplicatesIn incoming predicate (getPartition incoming) = [job]
  oldest : forall earlier first later,
    (q.lane (getPartition incoming)).waiting = earlier ++ first :: later ->
    (forall other, other ∈ earlier -> InMemoryQueue.isDuplicateOf incoming predicate other = false) ->
    InMemoryQueue.isDuplicateOf incoming predicate first = true ->
    ahead = earlier ∧ job.id = first.id ∧ job.journalId = first.journalId ∧ job.timestamp = first.timestamp

structure PushCoalesced (q : InMemoryQueue) (incoming : DeploymentJob) (predicate : DeploymentJob -> Bool)
    (uuid : String) (now : Nat) : Prop where
  stands : Exists fun ahead => Exists fun job => Exists fun behind =>
    Stands q (q.afterPush incoming predicate uuid now) incoming predicate ahead job behind
  elsewhere : forall key, key ≠ getPartition incoming ->
    (q.afterPush incoming predicate uuid now).duplicatesIn incoming predicate key = []
  unflagged : q.LosesPriority incoming ->
    ((q.afterPush incoming predicate uuid now).lane (getPartition incoming)).waiting.map (·.data) =
        [withoutPriority incoming] ∧
      (q.afterPush incoming predicate uuid now).duplicatesIn incoming predicate (getPartition incoming) = []
  untouched : forall key job, job ∈ (q.lane key).waiting ->
    InMemoryQueue.isDuplicateOf incoming predicate job = false ->
    job ∈ ((q.afterPush incoming predicate uuid now).lane key).waiting
  ordered : forall key, (((q.afterPush incoming predicate uuid now).lane key).waiting.map (·.id)).Sublist
    ((q.lane key).waiting.map (·.id) ++ [q.seq + 1])
  running : forall key, ((q.afterPush incoming predicate uuid now).lane key).active = (q.lane key).active
  titles : (q.coalesceWaiting incoming predicate).answer.titles =
    ((q.homeFirst (getPartition incoming)).flatMap (q.duplicatesIn incoming predicate)).flatMap
      InMemoryQueue.titleOf

/-- What keeping the oldest job of each class leaves of the queue. -/
structure KeptOldest (q : InMemoryQueue) (predicate : DeploymentJob -> Bool) : Prop where
  firsts : forall key ahead job behind, (q.lane key).waiting = ahead ++ job :: behind ->
    (job ∈ ((q.keepOldestWaiting predicate).queue.lane key).waiting <->
      (predicate job.data = true -> forall earlier, earlier ∈ ahead -> predicate earlier.data = true ->
        sameJobProfile earlier.data job.data true = false))
  ordered : forall key, ((q.keepOldestWaiting predicate).queue.lane key).waiting.Sublist (q.lane key).waiting
  lanes : forall key, (q.keepOldestWaiting predicate).queue.lane key =
    { q.lane key with waiting := ((q.keepOldestWaiting predicate).queue.lane key).waiting }
  rest : (q.keepOldestWaiting predicate).queue =
    { q with partitions := (q.keepOldestWaiting predicate).queue.partitions }
  again : ((q.keepOldestWaiting predicate).queue.keepOldestWaiting predicate).queue =
      (q.keepOldestWaiting predicate).queue ∧
    ((q.keepOldestWaiting predicate).queue.keepOldestWaiting predicate).signals = []

theorem sameJobProfile_trans {a b c : DeploymentJob} {pinnedImage : Bool}
    (first : sameJobProfile a b pinnedImage = true) (second : sameJobProfile b c pinnedImage = true) :
    sameJobProfile a c pinnedImage = true := by
  unfold sameJobProfile at first second ⊢
  simp only [Bool.and_eq_true, beq_iff_eq, Bool.or_eq_true, Bool.not_eq_true'] at first second ⊢
  rcases first with ⟨⟨⟨⟨type, fresh⟩, flag⟩, asker⟩, image⟩
  rcases second with ⟨⟨⟨⟨type', fresh'⟩, flag'⟩, asker'⟩, image'⟩
  refine ⟨⟨⟨⟨type.trans type', fresh.trans fresh'⟩, flag.trans flag'⟩, asker.trans asker'⟩, ?_⟩
  rcases image with ignored | image
  · exact Or.inl ignored
  · exact image'.imp_right image.trans

theorem sameJobProfile_refl (a : DeploymentJob) (pinnedImage : Bool) :
    sameJobProfile a a pinnedImage = true := by
  simp only [sameJobProfile, beq_self_eq_true, Bool.and_self, Bool.or_true]

variable {incoming : DeploymentJob}

theorem sameJobProfile_unflagged (asked : incoming.priority = some true) :
    sameJobProfile (withoutPriority incoming) incoming false = false := by
  have flags : (flagged (withoutPriority incoming) == flagged incoming) = false := by
    simp only [flagged, withoutPriority, asked]
    rfl
  simp only [sameJobProfile, flags, Bool.and_false, Bool.false_and]

section Merging

variable {incoming : DeploymentJob} {kept : Option String}

theorem sameBuild_merged : SameBuild (InMemoryQueue.mergedPayload incoming kept) incoming := by
  unfold InMemoryQueue.mergedPayload
  split <;> exact ⟨rfl, rfl, rfl, rfl⟩

theorem merged_isDuplicate {unitType : BuildPolicyUnitType} {unitId : String}
    (ofUnit : isCoalescableDeployJob unitType unitId incoming = true) (job : InternalJob)
    (merged : job.data = InMemoryQueue.mergedPayload incoming kept) :
    InMemoryQueue.isDuplicateOf incoming (isCoalescableDeployJob unitType unitId) job = true := by
  unfold InMemoryQueue.isDuplicateOf
  rw [merged, Bool.and_eq_true]
  unfold InMemoryQueue.mergedPayload
  -- The id of a registered deployment belongs neither to the unit nor to the profile.
  split
  · refine ⟨?_, sameJobProfile_refl incoming false⟩
    cases unitType <;> exact ofUnit
  · exact ⟨ofUnit, sameJobProfile_refl incoming false⟩

end Merging

theorem assessPriority_nothingWaiting (q : InMemoryQueue) (lane : Partition) (index : Nat) (group : String) :
    (q.assessPriority lane index group false).reason = some .nothingWaiting <-> index = 0 := by
  unfold InMemoryQueue.assessPriority
  dsimp only
  by_cases first : index = 0
  · rw [if_pos first]
    exact ⟨fun _ => first, fun _ => rfl⟩
  · rw [if_neg first]
    refine ⟨fun reason => ?_, fun same => absurd same first⟩
    split_ifs at reason <;> cases reason

theorem addedData_eq (q : InMemoryQueue) (requested : DeploymentJob) (uuid : String) (now : Nat) :
    addedData q requested uuid now =
      if q.LosesPriority requested then withoutPriority requested else requested := by
  have answer : (q.add requested uuid now).answer.2.bind (·.reason) = some .nothingWaiting <->
      q.LosesPriority requested := by
    unfold InMemoryQueue.LosesPriority
    dsimp only [InMemoryQueue.add]
    by_cases asked : requested.priority = some true
    · rw [if_pos asked, Option.bind_some, assessPriority_nothingWaiting, InMemoryQueue.lane_getPartitionState,
        List.length_eq_zero_iff]
      exact (and_iff_right asked).symm
    · rw [if_neg asked]
      exact ⟨fun impossible => (by cases impossible), fun both => absurd both.1 asked⟩
  unfold addedData
  exact if_congr answer rfl rfl

theorem map_setData {earlier later : List InternalJob} {first : InternalJob}
    (ids : ((earlier ++ first :: later).map (·.id)).Nodup) (data : DeploymentJob) :
    (earlier ++ first :: later).map (setData first.id data) =
      earlier ++ { first with data := data } :: later := by
  have others : forall job, job ∈ earlier ++ later -> setData first.id data job = job := by
    intro job member
    refine if_neg fun same => ?_
    have moved : (earlier ++ first :: later).Perm (first :: (earlier ++ later)) := List.perm_middle
    have apart := (moved.map fun job => job.id).nodup_iff.mp ids
    exact (List.nodup_cons.mp apart).1 (List.mem_map.mpr ⟨job, member, same⟩)
  rw [List.map_append, List.map_cons, setData, if_pos rfl,
    List.map_congr_left fun job member => others job (List.mem_append_left _ member),
    List.map_congr_left fun job member => others job (List.mem_append_right _ member), List.map_id', List.map_id']

section Lanes

variable {q : InMemoryQueue} {incoming : DeploymentJob} {predicate : DeploymentJob -> Bool}

def InMemoryQueue.cleared (q : InMemoryQueue) (incoming : DeploymentJob) (predicate : DeploymentJob -> Bool)
    (key : String) : List InternalJob :=
  (q.lane key).waiting.filter fun job => !InMemoryQueue.isDuplicateOf incoming predicate job

theorem mem_cleared {key : String} {job : InternalJob} :
    job ∈ q.cleared incoming predicate key <->
      job ∈ (q.lane key).waiting ∧ InMemoryQueue.isDuplicateOf incoming predicate job = false := by
  unfold InMemoryQueue.cleared
  rw [List.mem_filter, Bool.not_eq_true']

theorem coalesceSweep_elsewhere {key : String} (other : key ≠ getPartition incoming) :
    q.coalesceSweep incoming predicate key =
      ⟨none, q.cleared incoming predicate key, q.duplicatesIn incoming predicate key⟩ := by
  unfold InMemoryQueue.coalesceSweep
  rw [decide_eq_false other]
  exact scan_drops false none (Bool.and_false _) _

theorem lane_merged {earlier later : List InternalJob} {first : InternalJob}
    (ids : ((q.lane (getPartition incoming)).waiting.map (·.id)).Nodup)
    (split : (q.lane (getPartition incoming)).waiting = earlier ++ first :: later)
    (others : forall job, job ∈ earlier -> InMemoryQueue.isDuplicateOf incoming predicate job = false)
    (duplicate : InMemoryQueue.isDuplicateOf incoming predicate first = true) (uuid : String) (now : Nat) :
    Exists fun kept => (q.afterPush incoming predicate uuid now).lane =
      Function.update (fun key => { q.lane key with waiting := q.cleared incoming predicate key })
        (getPartition incoming)
        { q.lane (getPartition incoming) with
          waiting := earlier ++ { first with data := InMemoryQueue.mergedPayload incoming kept } ::
            later.filter (fun job => !InMemoryQueue.isDuplicateOf incoming predicate job) } := by
  have home : q.coalesceSweep incoming predicate (getPartition incoming) =
      ⟨some first,
        earlier ++ first :: later.filter (fun job => !InMemoryQueue.isDuplicateOf incoming predicate job),
        later.filter (InMemoryQueue.isDuplicateOf incoming predicate)⟩ := by
    unfold InMemoryQueue.coalesceSweep
    rw [decide_eq_true rfl, split]
    exact scan_home others duplicate
  have present : getPartition incoming ∈ q.partitions.keys := by
    have member : first ∈ (q.lane (getPartition incoming)).waiting :=
      split ▸ List.mem_append_right _ List.mem_cons_self
    exact InMemoryQueue.key_of_waiting member
  have kept := ((sweep_kept_sublist
    (InMemoryQueue.coalesceDecision incoming predicate (decide (getPartition incoming = getPartition incoming)))
    none (q.lane (getPartition incoming)).waiting).map (·.id)).nodup ids
  change ((q.coalesceSweep incoming predicate (getPartition incoming)).kept.map (·.id)).Nodup at kept
  rw [home] at kept
  refine ⟨InMemoryQueue.keptId incoming (some first) ((q.homeFirst (getPartition incoming)).flatMap fun key =>
    (q.coalesceSweep incoming predicate key).gone), ?_⟩
  unfold InMemoryQueue.afterPush RemovalCall.effect InMemoryQueue.coalesceWaiting
  simp only [home]
  rw [InMemoryQueue.lane_changeLane (q.keepSwept _) _ _ present, lane_coalesced]
  funext key
  by_cases same : key = getPartition incoming
  · subst same
    simp only [Function.update_self, home, map_setData kept]
  · simp only [Function.update_of_ne same, coalesceSweep_elsewhere same]

theorem lane_enqueued
    (others : forall job, job ∈ (q.lane (getPartition incoming)).waiting ->
      InMemoryQueue.isDuplicateOf incoming predicate job = false) (uuid : String) (now : Nat) :
    Exists fun job => job.id = q.seq + 1 ∧
      job.data = (if q.LosesPriority incoming then withoutPriority incoming else incoming) ∧
      (q.afterPush incoming predicate uuid now).lane =
        Function.update (fun key => { q.lane key with waiting := q.cleared incoming predicate key })
          (getPartition incoming)
          { q.lane (getPartition incoming) with
            waiting := (q.lane (getPartition incoming)).waiting ++ [job] } := by
  have home : q.coalesceSweep incoming predicate (getPartition incoming) =
      ⟨none, (q.lane (getPartition incoming)).waiting, []⟩ := scan_passes _ none others
  have coalesced := lane_coalesced incoming predicate q
  refine ⟨(q.keepSwept (q.coalesceSweep incoming predicate)).createJob
    (addedData (q.keepSwept (q.coalesceSweep incoming predicate)) incoming uuid now) uuid now, rfl, ?_, ?_⟩
  · change addedData _ _ _ _ = _
    have same : (q.keepSwept (q.coalesceSweep incoming predicate)).LosesPriority incoming <->
        q.LosesPriority incoming := by
      unfold InMemoryQueue.LosesPriority
      rw [coalesced]
      dsimp only
      rw [home]
    rw [addedData_eq]
    exact if_congr same rfl rfl
  · unfold InMemoryQueue.afterPush RemovalCall.effect InMemoryQueue.coalesceWaiting
    simp only [home]
    rw [lane_add, coalesced]
    funext key
    by_cases same : key = getPartition incoming
    · subst same
      simp only [Function.update_self, home]
    · simp only [Function.update_of_ne same, coalesceSweep_elsewhere same]

theorem first_duplicate_unique {earlier earlier' later later' : List InternalJob} {first first' : InternalJob}
    (same : earlier ++ first :: later = earlier' ++ first' :: later')
    (others : forall job, job ∈ earlier -> InMemoryQueue.isDuplicateOf incoming predicate job = false)
    (others' : forall job, job ∈ earlier' -> InMemoryQueue.isDuplicateOf incoming predicate job = false)
    (duplicate : InMemoryQueue.isDuplicateOf incoming predicate first = true)
    (duplicate' : InMemoryQueue.isDuplicateOf incoming predicate first' = true) :
    earlier = earlier' ∧ first = first' := by
  have taken : forall (earlier later : List InternalJob) (first : InternalJob),
      (forall job, job ∈ earlier -> InMemoryQueue.isDuplicateOf incoming predicate job = false) ->
      InMemoryQueue.isDuplicateOf incoming predicate first = true ->
      (earlier ++ first :: later).takeWhile (fun job => !InMemoryQueue.isDuplicateOf incoming predicate job) =
        earlier := by
    intro earlier later first others duplicate
    rw [List.takeWhile_append_of_pos fun job member => by rw [others job member, Bool.not_false],
      List.takeWhile_cons_of_neg (by rw [duplicate]; exact Bool.false_ne_true), List.append_nil]
  have ahead : earlier = earlier' := by
    rw [← taken earlier later first others duplicate, same, taken earlier' later' first' others' duplicate']
  subst ahead
  exact ⟨rfl, (List.cons.inj (List.append_cancel_left same)).1⟩

theorem homeFirst_present {home : String} (present : home ∈ q.partitions.keys) :
    q.homeFirst home = home :: q.partitions.keys.filter (· != home) := by
  unfold InMemoryQueue.homeFirst
  rw [List.filter_beq, List.count_eq_one_of_mem q.partitions.nodup present]
  rfl

theorem titles_coalesceWaiting (q : InMemoryQueue) (incoming : DeploymentJob)
    (predicate : DeploymentJob -> Bool) :
    (q.coalesceWaiting incoming predicate).answer.titles =
      ((q.homeFirst (getPartition incoming)).flatMap (q.duplicatesIn incoming predicate)).flatMap
        InMemoryQueue.titleOf := by
  rcases first_duplicate incoming predicate
      (q.lane (getPartition incoming)).waiting with others | ⟨earlier, first, later, split, others, duplicate⟩
  · have missing : (q.coalesceSweep incoming predicate (getPartition incoming)).state = none := by
      unfold InMemoryQueue.coalesceSweep
      rw [scan_passes _ none others]
    have dropped : ((q.homeFirst (getPartition incoming)).flatMap fun key =>
        (q.coalesceSweep incoming predicate key).gone) =
        (q.homeFirst (getPartition incoming)).flatMap (q.duplicatesIn incoming predicate) :=
      flatMap_eq_of_mem fun key _ => (coalesceSweep_none q missing key).2
    unfold InMemoryQueue.coalesceWaiting
    simp only [missing, dropped]
  · have present : getPartition incoming ∈ q.partitions.keys := by
      have member : first ∈ (q.lane (getPartition incoming)).waiting :=
        split ▸ List.mem_append_right _ List.mem_cons_self
      exact InMemoryQueue.key_of_waiting member
    have home : q.coalesceSweep incoming predicate (getPartition incoming) =
        ⟨some first,
          earlier ++ first :: later.filter (fun job => !InMemoryQueue.isDuplicateOf incoming predicate job),
          later.filter (InMemoryQueue.isDuplicateOf incoming predicate)⟩ := by
      unfold InMemoryQueue.coalesceSweep
      rw [decide_eq_true rfl, split]
      exact scan_home others duplicate
    have atHome : q.duplicatesIn incoming predicate (getPartition incoming) =
        first :: later.filter (InMemoryQueue.isDuplicateOf incoming predicate) := by
      unfold InMemoryQueue.duplicatesIn
      rw [split, List.filter_append, List.filter_eq_nil_iff.mpr fun job member =>
        Bool.eq_false_iff.mp (others job member), List.filter_cons_of_pos duplicate, List.nil_append]
    have elsewhere : ((q.partitions.keys.filter (· != getPartition incoming)).flatMap fun key =>
        (q.coalesceSweep incoming predicate key).gone) =
        (q.partitions.keys.filter (· != getPartition incoming)).flatMap (q.duplicatesIn incoming predicate) := by
      refine flatMap_eq_of_mem fun key member => ?_
      rw [coalesceSweep_elsewhere (bne_iff_ne.mp (List.mem_filter.mp member).2)]
    unfold InMemoryQueue.coalesceWaiting
    simp only [home]
    rw [homeFirst_present present, List.flatMap_cons, List.flatMap_cons, elsewhere, home, atHome, List.cons_append,
      List.flatMap_cons]

end Lanes

theorem duplicatesIn_of_waiting {after : InMemoryQueue}
    {predicate : DeploymentJob -> Bool} {key : String} {jobs : List InternalJob}
    (waiting : (after.lane key).waiting = jobs) :
    after.duplicatesIn incoming predicate key = jobs.filter (InMemoryQueue.isDuplicateOf incoming predicate) := by
  rw [InMemoryQueue.duplicatesIn, waiting]

theorem filter_cleared (incoming : DeploymentJob) (predicate : DeploymentJob -> Bool) (jobs : List InternalJob) :
    (jobs.filter fun job => !InMemoryQueue.isDuplicateOf incoming predicate job).filter
      (InMemoryQueue.isDuplicateOf incoming predicate) = [] := by
  refine List.filter_eq_nil_iff.mpr fun job member duplicate => ?_
  rw [List.mem_filter, duplicate] at member
  cases member.2

theorem pushCoalesced_of_census {history : List Signal} {q : InMemoryQueue} (census : Census history q)
    {unitType : BuildPolicyUnitType} {unitId : String}
    (ofUnit : isCoalescableDeployJob unitType unitId incoming = true) (uuid : String) (now : Nat) :
    PushCoalesced q incoming (isCoalescableDeployJob unitType unitId) uuid now := by
  rcases first_duplicate incoming (isCoalescableDeployJob unitType unitId)
      (q.lane (getPartition incoming)).waiting with others | ⟨earlier, first, later, split, others, duplicate⟩
  · rcases lane_enqueued others uuid now with ⟨job, id, data, lanes⟩
    have atHome : ((q.afterPush incoming (isCoalescableDeployJob unitType unitId) uuid now).lane
        (getPartition incoming)).waiting = (q.lane (getPartition incoming)).waiting ++ [job] := by
      rw [lanes, Function.update_self]
    have away : forall key, key ≠ getPartition incoming ->
        ((q.afterPush incoming (isCoalescableDeployJob unitType unitId) uuid now).lane key).waiting =
          q.cleared incoming (isCoalescableDeployJob unitType unitId) key := by
      intro key other
      rw [lanes, Function.update_of_ne other]
    have duplicates : (q.afterPush incoming (isCoalescableDeployJob unitType unitId) uuid now).duplicatesIn incoming
        (isCoalescableDeployJob unitType unitId) (getPartition incoming) =
          [job].filter (InMemoryQueue.isDuplicateOf incoming (isCoalescableDeployJob unitType unitId)) := by
      rw [duplicatesIn_of_waiting atHome, List.filter_append, List.filter_eq_nil_iff.mpr fun job member =>
        Bool.eq_false_iff.mp (others job member), List.nil_append]
    refine ⟨⟨_, job, [], atHome, ?_, ?_, ?_⟩, ?_, ?_, ?_, ?_, ?_, titles_coalesceWaiting q incoming _⟩
    · rw [data]
      split <;> exact ⟨rfl, rfl, rfl, rfl⟩
    · intro keeps
      rw [if_neg keeps] at data
      have isDuplicate : InMemoryQueue.isDuplicateOf incoming (isCoalescableDeployJob unitType unitId) job = true := by
        rw [InMemoryQueue.isDuplicateOf, data, ofUnit, sameJobProfile_refl, Bool.and_self]
      rw [duplicates, List.filter_cons_of_pos isDuplicate, List.filter_nil]
    · intro earlier first later split _ duplicate
      rw [others first (split ▸ List.mem_append_right _ List.mem_cons_self)] at duplicate
      cases duplicate
    · intro key other
      rw [duplicatesIn_of_waiting (away key other)]
      exact filter_cleared _ _ _
    · intro loses
      rw [if_pos loses] at data
      have isNoDuplicate :
          InMemoryQueue.isDuplicateOf incoming (isCoalescableDeployJob unitType unitId) job = false := by
        rw [InMemoryQueue.isDuplicateOf, data, sameJobProfile_unflagged loses.1, Bool.and_false]
      refine ⟨?_, ?_⟩
      · rw [atHome, loses.2, List.nil_append, List.map_singleton, data]
      · rw [duplicates, List.filter_cons_of_neg (Bool.eq_false_iff.mp isNoDuplicate), List.filter_nil]
    · intro key other member isNoDuplicate
      by_cases same : key = getPartition incoming
      · subst same
        rw [atHome]
        exact List.mem_append_left _ member
      · rw [away key same]
        exact mem_cleared.mpr ⟨member, isNoDuplicate⟩
    · intro key
      by_cases same : key = getPartition incoming
      · subst same
        rw [atHome, List.map_append, List.map_singleton, id]
      · rw [away key same]
        exact (List.filter_sublist.map _).trans (List.sublist_append_left _ _)
    · intro key
      rw [lanes]
      by_cases same : key = getPartition incoming
      · rw [same, Function.update_self]
      · rw [Function.update_of_ne same]
  · rcases lane_merged (census.waiting_nodup (getPartition incoming)) split others duplicate uuid now with
      ⟨kept, lanes⟩
    let merged : InternalJob := { first with data := InMemoryQueue.mergedPayload incoming kept }
    let behind := later.filter fun job =>
      !InMemoryQueue.isDuplicateOf incoming (isCoalescableDeployJob unitType unitId) job
    have atHome : ((q.afterPush incoming (isCoalescableDeployJob unitType unitId) uuid now).lane
        (getPartition incoming)).waiting = earlier ++ merged :: behind := by
      rw [lanes, Function.update_self]
    have away : forall key, key ≠ getPartition incoming ->
        ((q.afterPush incoming (isCoalescableDeployJob unitType unitId) uuid now).lane key).waiting =
          q.cleared incoming (isCoalescableDeployJob unitType unitId) key := by
      intro key other
      rw [lanes, Function.update_of_ne other]
    have isDuplicate := @merged_isDuplicate incoming kept unitType unitId ofUnit merged rfl
    refine ⟨⟨earlier, merged, behind, atHome, sameBuild_merged, ?_, ?_⟩, ?_, ?_, ?_, ?_, ?_,
      titles_coalesceWaiting q incoming _⟩
    · intro _
      rw [duplicatesIn_of_waiting atHome, List.filter_append, List.filter_eq_nil_iff.mpr fun job member =>
        Bool.eq_false_iff.mp (others job member), List.filter_cons_of_pos isDuplicate, filter_cleared,
        List.nil_append]
    · intro earlier' first' later' split' others' duplicate'
      rcases first_duplicate_unique (split.symm.trans split') others others' duplicate duplicate' with ⟨ahead, same⟩
      exact ⟨ahead, congrArg (·.id) same, congrArg (·.journalId) same, congrArg (·.timestamp) same⟩
    · intro key other
      rw [duplicatesIn_of_waiting (away key other)]
      exact filter_cleared _ _ _
    · intro loses
      rw [loses.2] at split
      exact absurd split.symm (List.append_ne_nil_of_right_ne_nil _ (List.cons_ne_nil _ _))
    · intro key other member isNoDuplicate
      by_cases same : key = getPartition incoming
      · subst same
        rw [split] at member
        rw [atHome]
        rcases List.mem_append.mp member with before | rest
        · exact List.mem_append_left _ before
        · refine List.mem_append_right _ ?_
          rcases List.mem_cons.mp rest with isFirst | after
          · rw [isFirst, duplicate] at isNoDuplicate
            cases isNoDuplicate
          · refine List.mem_cons_of_mem _ (List.mem_filter.mpr ⟨after, ?_⟩)
            rw [isNoDuplicate, Bool.not_false]
      · rw [away key same]
        exact mem_cleared.mpr ⟨member, isNoDuplicate⟩
    · intro key
      refine List.Sublist.trans ?_ (List.sublist_append_left _ _)
      by_cases same : key = getPartition incoming
      · subst same
        rw [atHome, split, List.map_append, List.map_append, List.map_cons, List.map_cons]
        exact (List.Sublist.refl _).append ((List.filter_sublist.map _).cons_cons _)
      · rw [away key same]
        exact List.filter_sublist.map _
    · intro key
      rw [lanes]
      by_cases same : key = getPartition incoming
      · rw [same, Function.update_self]
      · rw [Function.update_of_ne same]

theorem keepOldestDecision_eq (predicate : DeploymentJob -> Bool) :
    InMemoryQueue.keepOldestDecision predicate =
      firstOfEach (fun job : InternalJob => predicate job.data)
        (fun a b => sameJobProfile a.data b.data true) := rfl

theorem lane_keepOldestWaiting (q : InMemoryQueue) (predicate : DeploymentJob -> Bool) :
    (q.keepOldestWaiting predicate).queue.lane = fun key =>
      { q.lane key with
        waiting := (sweep (InMemoryQueue.keepOldestDecision predicate) [] (q.lane key).waiting).kept } :=
  lane_keepSwept q _ sweep_outside

theorem swept_again (q : InMemoryQueue) (predicate : DeploymentJob -> Bool) (key : String) :
    let once := (q.keepOldestWaiting predicate).queue
    let swept := sweep (InMemoryQueue.keepOldestDecision predicate) [] (once.lane key).waiting
    swept.kept = (once.lane key).waiting ∧ swept.gone = [] := by
  intro once swept
  have waiting : (once.lane key).waiting =
      (sweep (InMemoryQueue.keepOldestDecision predicate) [] (q.lane key).waiting).kept := by
    rw [lane_keepOldestWaiting]
  have idle : forall survivors job, (InMemoryQueue.keepOldestDecision predicate survivors job).2 = false ->
      (InMemoryQueue.keepOldestDecision predicate survivors job).1 = survivors := by
    rw [keepOldestDecision_eq]
    exact firstOfEach_idle _ _
  have again := sweep_kept_again idle [] (q.lane key).waiting
  rw [← waiting] at again
  exact ⟨congrArg Swept.kept again, congrArg Swept.gone again⟩

theorem keepOldestWaiting_again (q : InMemoryQueue) (predicate : DeploymentJob -> Bool) :
    let once := (q.keepOldestWaiting predicate).queue
    (once.keepOldestWaiting predicate).queue = once ∧ (once.keepOldestWaiting predicate).signals = [] := by
  intro once
  constructor
  · have partitions : once.partitions.mapValues (fun key lane =>
        { lane with
          waiting := (sweep (InMemoryQueue.keepOldestDecision predicate) [] (once.lane key).waiting).kept }) =
        once.partitions := by
      refine OrderedMap.mapValues_of_same _ _ fun key _ => ?_
      change ({ once.lane key with waiting := _ } : Partition) = once.lane key
      rw [(swept_again q predicate key).1]
    change ({ once with partitions := _ } : InMemoryQueue) = once
    rw [partitions]
  · have dropped : (once.partitions.keys.flatMap fun key =>
        (sweep (InMemoryQueue.keepOldestDecision predicate) [] (once.lane key).waiting).gone) = [] :=
      List.flatMap_eq_nil_iff.mpr fun key _ => (swept_again q predicate key).2
    change InMemoryQueue.discard _ = []
    rw [dropped]
    rfl

theorem keptOldest_of_census {history : List Signal} {q : InMemoryQueue} (census : Census history q)
    (predicate : DeploymentJob -> Bool) : KeptOldest q predicate := by
  refine ⟨?_, ?_, ?_, rfl, keepOldestWaiting_again q predicate⟩
  · intro key ahead job behind split
    have unique : (ahead ++ job :: behind).Nodup := by
      rw [← split]
      exact (census.waiting_nodup key).of_map
    have waiting : ((q.keepOldestWaiting predicate).queue.lane key).waiting =
        (sweep (firstOfEach (fun job : InternalJob => predicate job.data)
          (fun a b => sameJobProfile a.data b.data true)) [] (ahead ++ job :: behind)).kept := by
      rw [lane_keepOldestWaiting, ← split, keepOldestDecision_eq]
    rw [waiting]
    have transitive : forall a b c : InternalJob, sameJobProfile a.data b.data true = true ->
        sameJobProfile b.data c.data true = true -> sameJobProfile a.data c.data true = true :=
      fun _ _ _ => sameJobProfile_trans
    exact mem_firstOfEach transitive unique
  · intro key
    rw [lane_keepOldestWaiting]
    exact sweep_kept_sublist _ _ _
  · intro key
    rw [lane_keepOldestWaiting]

/-- In every reachable state a push of the unit leaves one waiting job of its
profile, and keeping the oldest leaves the first of each class. -/
theorem push_leaves_one {history : List Signal} {q : InMemoryQueue} (run : queueMachine.Reaches history q) :
    (forall unitType unitId incoming, isCoalescableDeployJob unitType unitId incoming = true ->
      forall uuid now, PushCoalesced q incoming (isCoalescableDeployJob unitType unitId) uuid now) ∧
    forall predicate, KeptOldest q predicate :=
  ⟨fun _ _ _ ofUnit uuid now => pushCoalesced_of_census (census_of_run run) ofUnit uuid now,
    fun predicate => keptOldest_of_census (census_of_run run) predicate⟩

theorem push_leaves_one_burst :
    let q := (queueMachine.outcome (fun _ _ => true)
      [.add (plainDeploy "a" none) "u1" 1, .add (plainDeploy "a" none) "u2" 2]).1
    (forall unitType unitId incoming, isCoalescableDeployJob unitType unitId incoming = true ->
      forall uuid now, PushCoalesced q incoming (isCoalescableDeployJob unitType unitId) uuid now) ∧
    forall predicate, KeptOldest q predicate :=
  push_leaves_one (Machine.run_of_executes (fun _ _ _ => trivial) (by decide))

/-- A flagged push into an empty queue waits without its flag, and a push of
another unit is no job of the unit: neither leaves a job that matches with the
incoming profile. -/
theorem push_leaves_none :
    let urgent := { plainDeploy "a" none with priority := some true }
    let isA := isCoalescableDeployJob .application "a"
    let isB := isCoalescableDeployJob .application "b"
    (forall key, key ∈ (InMemoryQueue.new.afterPush urgent isA "u1" 1).partitions.keys ->
      (InMemoryQueue.new.afterPush urgent isA "u1" 1).duplicatesIn urgent isA key = []) ∧
    forall key, key ∈ (InMemoryQueue.new.afterPush urgent isB "u1" 1).partitions.keys ->
      (InMemoryQueue.new.afterPush urgent isB "u1" 1).duplicatesIn urgent isB key = [] := by
  decide

end DeployQueue
end Dokploy
