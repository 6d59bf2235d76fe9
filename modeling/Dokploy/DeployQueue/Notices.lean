import Dokploy.DeployQueue.Conservation

namespace Dokploy
namespace DeployQueue

open Foundation

/-!
# What the queue tells its journal

The journal knows jobs by their journal ids and hears of them through four
hooks.  Where no journal id is accepted twice, the jobs in the lanes are the
accepted ones that were not settled, and every change of the queue is heard as
one notice, or leaves what the queue remembers as it was.
-/

namespace Signal

def enqueuedJobs : Signal -> List (String × DeploymentJob)
  | .enqueued journalId data => [(journalId, data)]
  | _ => []

/-- The signal is a call of a journal hook. -/
def isNotice : Signal -> Bool
  | .enqueued _ _ | .started _ _ | .updated _ _ | .settled _ => true
  | _ => false

end Signal

/-- The jobs whose enqueueing was announced, with their payloads at that time. -/
def enqueuedOf (history : List Signal) : List (String × DeploymentJob) :=
  history.flatMap Signal.enqueuedJobs

def enqueuedIds (history : List Signal) : List String :=
  (enqueuedOf history).map (·.1)

def acceptedJournalIds (history : List Signal) : List String :=
  (acceptedOf history).map (·.journalId)

def settledJournalIds (history : List Signal) : List String :=
  (settledOf history).map (·.journalId)

def notices (history : List Signal) : List Signal :=
  history.filter Signal.isNotice

@[simp] theorem enqueuedIds_append (first second : List Signal) :
    enqueuedIds (first ++ second) = enqueuedIds first ++ enqueuedIds second := by
  rw [enqueuedIds, enqueuedOf, List.flatMap_append, List.map_append]
  rfl

@[simp] theorem acceptedJournalIds_append (first second : List Signal) :
    acceptedJournalIds (first ++ second) = acceptedJournalIds first ++ acceptedJournalIds second := by
  rw [acceptedJournalIds, acceptedOf_append, List.map_append]
  rfl

@[simp] theorem settledJournalIds_append (first second : List Signal) :
    settledJournalIds (first ++ second) = settledJournalIds first ++ settledJournalIds second := by
  rw [settledJournalIds, settledOf_append, List.map_append]
  rfl

theorem notices_append (first second : List Signal) : notices (first ++ second) = notices first ++ notices second :=
  List.filter_append first second

theorem flatMap_notices {Value : Type} (read : Signal -> List Value)
    (noticed : forall signal, signal.isNotice = false -> read signal = []) (history : List Signal) :
    (notices history).flatMap read = history.flatMap read := by
  induction history with
  | nil => rfl
  | cons signal rest ih =>
      rw [notices] at ih ⊢
      rw [List.filter_cons, List.flatMap_cons]
      split
      · rw [List.flatMap_cons, ih]
      · rename_i unnoticed
        rw [noticed signal (Bool.not_eq_true _ ▸ unnoticed), ih, List.nil_append]

theorem enqueuedOf_notices (history : List Signal) : enqueuedOf (notices history) = enqueuedOf history :=
  flatMap_notices Signal.enqueuedJobs (fun signal unnoticed => by cases signal <;> first | rfl | cases unnoticed)
    history

theorem settledOf_notices (history : List Signal) : settledOf (notices history) = settledOf history :=
  flatMap_notices Signal.settledJobs (fun signal unnoticed => by cases signal <;> first | rfl | cases unnoticed)
    history

theorem notices_of_none {signals : List Signal}
    (silent : forall signal, signal ∈ signals -> signal.isNotice = false) : notices signals = [] :=
  List.filter_eq_nil_iff.mpr fun signal member => by
    rw [silent signal member]
    exact Bool.false_ne_true

theorem notices_accepted (jobs : List InternalJob) : notices (jobs.map .accepted) = [] := by
  refine notices_of_none fun signal member => ?_
  rcases List.mem_map.mp member with ⟨job, _, same⟩
  rw [← same]
  rfl

structure Audited (history : List Signal) (q : InMemoryQueue) : Prop where
  placed : Placed q
  census : Census history q
  traced : Traced history q

theorem audited_new : Audited [] InMemoryQueue.new := ⟨placed_new, census_new, traced_new⟩

namespace Audited

variable {history output : List Signal} {q after : InMemoryQueue}

theorem change (audited : Audited history q) (change : Change q output after) : Audited (history ++ output) after where
  placed := audited.placed.change change
  census := audited.census.change change
  traced := audited.traced.change audited.census change

theorem path (audited : Audited history q) (path : Machine.Path Change q output after) : Audited (history ++ output) after :=
  path.invariant (fun _ _ _ _ held changed => Audited.change held changed) audited

theorem accepted_id (distinct : (acceptedJournalIds history).Nodup)
    {job other : InternalJob} (here : Accepted history job) (there : Accepted history other)
    (same : job.journalId = other.journalId) : job.id = other.id := by
  rcases here with ⟨first, firstMember, sameFirst⟩
  rcases there with ⟨second, secondMember, sameSecond⟩
  have equal : first = second := by
    refine List.inj_on_of_nodup_map distinct firstMember secondMember ?_
    rw [sameFirst.2.1, sameSecond.2.1, same]
  rw [← sameFirst.1, ← sameSecond.1, equal]

theorem settledJournalIds_accepted (audited : Audited history q) {journalId : String}
    (settled : journalId ∈ settledJournalIds history) : journalId ∈ acceptedJournalIds history := by
  rcases List.mem_map.mp settled with ⟨job, member, same⟩
  rcases audited.traced.settled job member with ⟨first, firstMember, sameJob⟩
  exact List.mem_map.mpr ⟨first, firstMember, sameJob.2.1.trans same⟩

end Audited

/-- The list of a lane that holds the jobs in a state. -/
def Partition.inState (lane : Partition) : JobState -> List InternalJob
  | .waiting => lane.waiting
  | .active => lane.active

theorem Partition.member_of_inState {lane : Partition} {state : JobState} {job : InternalJob}
    (member : job ∈ lane.inState state) : job ∈ lane.members := by
  cases state with
  | waiting => exact List.mem_append_left _ member
  | active => exact List.mem_append_right _ member

/-- The queue has the job, waiting or active, with this payload. -/
def Remembers (q : InMemoryQueue) (journalId : String) (data : DeploymentJob) (state : JobState) : Prop :=
  Exists fun key => Exists fun job =>
    job ∈ (q.lane key).inState state ∧ job.journalId = journalId ∧ job.data = data

theorem Remembers.member {q : InMemoryQueue} {journalId : String} {data : DeploymentJob} {state : JobState}
    (remembered : Remembers q journalId data state) :
    Exists fun key => Exists fun job => job ∈ (q.lane key).members ∧ job.journalId = journalId := by
  rcases remembered with ⟨key, job, member, sameId, _⟩
  exact ⟨key, job, Partition.member_of_inState member, sameId⟩

variable {key : String}

theorem remembers_of_member {q : InMemoryQueue} {job : InternalJob}
    (member : job ∈ (q.lane key).members) : Exists fun state => Remembers q job.journalId job.data state := by
  rcases List.mem_append.mp member with waiting | active
  · exact ⟨.waiting, key, job, waiting, rfl, rfl⟩
  · exact ⟨.active, key, job, active, rfl, rfl⟩

namespace Audited

variable {history : List Signal} {q : InMemoryQueue}

theorem remembered_accepted (audited : Audited history q) {journalId : String} {data : DeploymentJob}
    {state : JobState} (remembered : Remembers q journalId data state) :
    journalId ∈ acceptedJournalIds history := by
  rcases remembered.member with ⟨key, job, member, sameId⟩
  rcases audited.traced.lanes key job member with ⟨first, firstMember, same⟩
  exact List.mem_map.mpr ⟨first, firstMember, same.2.1.trans sameId⟩

theorem remembered_unsettled (audited : Audited history q) (distinct : (acceptedJournalIds history).Nodup)
    {journalId : String} {data : DeploymentJob} {state : JobState}
    (remembered : Remembers q journalId data state) : journalId ∉ settledJournalIds history := by
  intro settled
  rcases remembered.member with ⟨key, job, member, sameId⟩
  rcases List.mem_map.mp settled with ⟨gone, goneMember, sameGone⟩
  have sameJob := accepted_id distinct (audited.traced.settled gone goneMember)
    (audited.traced.lanes key job member) (sameGone.trans sameId.symm)
  refine audited.census.gone_absent (List.mem_map_of_mem goneMember) key ?_
  rw [sameJob]
  exact List.mem_map_of_mem member

theorem same_member (audited : Audited history q) (distinct : (acceptedJournalIds history).Nodup)
    {key lane : String} {job other : InternalJob} (here : job ∈ (q.lane key).members)
    (there : other ∈ (q.lane lane).members) (same : job.journalId = other.journalId) : key = lane ∧ job = other := by
  have sameId := accepted_id distinct (audited.traced.lanes key job here)
    (audited.traced.lanes lane other there) same
  have sameLane : key = lane :=
    audited.census.lane_unique (List.mem_map_of_mem here) (sameId ▸ List.mem_map_of_mem there)
  subst sameLane
  exact ⟨rfl, List.inj_on_of_nodup_map (audited.census.lane_nodup key) here there sameId⟩

end Audited

/-- A change in which every accepted job is announced, so none is restored. -/
def ProperChange (q : InMemoryQueue) (output : List Signal) (after : InMemoryQueue) : Prop :=
  Change q output after ∧ acceptedJournalIds output = enqueuedIds output

/-- What the journal hears of a change, and what the queue remembers then. -/
inductive Notice (q : InMemoryQueue) (output : List Signal) (after : InMemoryQueue) : Prop
  | silent (told : notices output = [])
      (memory : forall journalId data state, Remembers after journalId data state ->
        Remembers q journalId data state)
  | enqueued (job : InternalJob) (told : notices output = [.enqueued job.journalId job.data])
      (memory : forall journalId data state, Remembers after journalId data state ->
        Remembers q journalId data state ∨ journalId = job.journalId ∧ data = job.data ∧ state = .waiting)
  | settled (gone : List InternalJob) (told : notices output = [.settled gone])
      (memory : forall journalId data state, Remembers after journalId data state ->
        Remembers q journalId data state)
  | updated (journalId : String) (payload : DeploymentJob) (old : DeploymentJob)
      (known : Remembers q journalId old .waiting) (told : notices output = [.updated journalId payload])
      (memory : forall other data state, Remembers after other data state ->
        other ≠ journalId ∧ Remembers q other data state ∨
          other = journalId ∧ data = payload ∧ state = .waiting)
  | started (key : String) (job : InternalJob) (known : Remembers q job.journalId job.data .waiting)
      (told : notices output = [.started key job])
      (memory : forall other data state, Remembers after other data state ->
        other ≠ job.journalId ∧ Remembers q other data state ∨
          other = job.journalId ∧ data = job.data ∧ state = .active)

private theorem remembers_of_lanes {q after : InMemoryQueue}
    (lost : forall key state job, job ∈ (after.lane key).inState state -> job ∈ (q.lane key).inState state)
    (journalId : String) (data : DeploymentJob) (state : JobState) (remembered : Remembers after journalId data state) :
    Remembers q journalId data state := by
  rcases remembered with ⟨key, job, member, sameId, sameData⟩
  exact ⟨key, job, lost key state job member, sameId, sameData⟩

private theorem lost_of_update {q after : InMemoryQueue} {lane : Partition}
    (lanes : after.lane = Function.update q.lane key lane)
    (waiting : lane.waiting ⊆ (q.lane key).waiting) (active : lane.active ⊆ (q.lane key).active) :
    forall other state job, job ∈ (after.lane other).inState state -> job ∈ (q.lane other).inState state :=
  @every_lane_of_update (fun other lane => forall state job, job ∈ lane.inState state ->
      job ∈ (q.lane other).inState state) _ _ _ _ lanes
    (fun state _ member => match state with
      | .waiting => waiting member
      | .active => active member)
    (fun _ _ _ member => member)

private theorem notices_reports {reports : List Signal}
    (reported : forall signal, signal ∈ reports -> Exists fun data => signal = .waitingDropped data) :
    notices reports = [] := by
  refine notices_of_none fun signal member => ?_
  rcases reported signal member with ⟨data, same⟩
  rw [same]
  rfl

private theorem notice_of_entered {q after : InMemoryQueue} {added : List InternalJob} {front : Bool}
    {extra : List Signal}
    (announced : extra = [] ∨ Exists fun job => added = [job] ∧ extra = [.enqueued job.journalId job.data])
    (proper : acceptedJournalIds (added.map .accepted ++ extra) = enqueuedIds (added.map .accepted ++ extra))
    (lanes : after.lane = fun key => { q.lane key with
      waiting :=
        if front then added.filter (·.partition == key) ++ (q.lane key).waiting
        else (q.lane key).waiting ++ added.filter (·.partition == key) }) :
    Notice q (added.map .accepted ++ extra) after := by
  have members : forall key state job, job ∈ (after.lane key).inState state ->
      job ∈ (q.lane key).inState state ∨ job ∈ added ∧ state = .waiting := by
    intro key state job member
    rw [lanes] at member
    cases state with
    | active => exact Or.inl member
    | waiting =>
        cases front with
        | true =>
            rcases List.mem_append.mp member with fresh | old
            · exact Or.inr ⟨(List.mem_filter.mp fresh).1, rfl⟩
            · exact Or.inl old
        | false =>
            rcases List.mem_append.mp member with old | fresh
            · exact Or.inl old
            · exact Or.inr ⟨(List.mem_filter.mp fresh).1, rfl⟩
  rcases announced with silent | ⟨job, single, told⟩
  · subst silent
    have nothing : added = [] := by
      rw [List.append_nil, acceptedJournalIds, acceptedOf_accepted, enqueuedIds, ← enqueuedOf_notices,
        notices_accepted] at proper
      exact List.map_eq_nil_iff.mp proper
    subst nothing
    refine Notice.silent rfl (remembers_of_lanes fun key state job member => ?_)
    exact (members key state job member).resolve_right fun fresh => List.not_mem_nil fresh.1
  · subst single told
    refine Notice.enqueued job rfl fun journalId data state remembered => ?_
    rcases remembered with ⟨key, other, member, sameId, sameData⟩
    rcases members key state other member with old | ⟨fresh, waits⟩
    · exact Or.inl ⟨key, other, old, sameId, sameData⟩
    · rw [List.mem_singleton.mp fresh] at sameId sameData
      exact Or.inr ⟨sameId.symm, sameData.symm, waits⟩

private theorem notice_of_rewritten {history : List Signal} {q after : InMemoryQueue} (audited : Audited history q)
    (distinct : (acceptedJournalIds history).Nodup) {job : InternalJob} {payload : DeploymentJob}
    (member : job ∈ (q.lane key).waiting)
    (lanes : after.lane = Function.update q.lane key
      { q.lane key with waiting := (q.lane key).waiting.map (setData job.id payload) }) :
    Notice q [.updated job.journalId payload] after := by
  refine Notice.updated job.journalId payload job.data ⟨key, job, member, rfl, rfl⟩ rfl ?_
  intro other data state remembered
  rcases remembered with ⟨lane, second, inAfter, sameId, sameData⟩
  have here : job ∈ (q.lane key).members := List.mem_append_left _ member
  have untouched : second ∈ (q.lane lane).inState state -> (lane = key -> state = .active) ->
      other ≠ job.journalId ∧ Remembers q other data state := by
    intro old elsewhere
    refine ⟨fun same => ?_, lane, second, old, sameId, sameData⟩
    rcases audited.same_member distinct (Partition.member_of_inState old) here (sameId.trans same) with
      ⟨sameLane, sameJob⟩
    subst sameLane sameJob
    rw [elsewhere rfl] at old
    have whole := audited.census.lane_nodup lane
    rw [InMemoryQueue.laneIds, Partition.members, List.map_append] at whole
    exact List.disjoint_of_nodup_append whole (List.mem_map_of_mem member) (List.mem_map_of_mem old)
  by_cases atHome : lane = key
  · subst atHome
    rw [lanes, Function.update_self] at inAfter
    cases state with
    | active => exact Or.inl (untouched inAfter fun _ => rfl)
    | waiting =>
        rcases List.mem_map.mp inAfter with ⟨old, oldMember, same⟩
        by_cases rewritten : old.id = job.id
        · rw [setData, if_pos rewritten] at same
          have equal : old = job := List.inj_on_of_nodup_map (audited.census.waiting_nodup lane) oldMember member rewritten
          subst equal
          rw [← same] at sameId sameData
          exact Or.inr ⟨sameId.symm, sameData.symm, rfl⟩
        · rw [setData, if_neg rewritten] at same
          subst same
          refine Or.inl ⟨fun sameJournalId => rewritten ?_, lane, old, oldMember, sameId, sameData⟩
          rw [(audited.same_member distinct (List.mem_append_left _ oldMember) here
            (sameId.trans sameJournalId)).2]
  · rw [lanes, Function.update_of_ne atHome] at inAfter
    exact Or.inl (untouched inAfter fun same => absurd same atHome)

private theorem notice_of_start {history : List Signal} {q after : InMemoryQueue} (audited : Audited history q)
    (distinct : (acceptedJournalIds history).Nodup) (start : Start q key)
    (lanes : after.lane = Function.update q.lane key start.lane) : Notice q [.started key start.job] after := by
  refine Notice.started key start.job ⟨key, start.waiting, start.member, rfl, rfl⟩ rfl ?_
  intro other data state remembered
  rcases remembered with ⟨lane, second, inAfter, sameId, sameData⟩
  have here : start.waiting ∈ (q.lane key).members := List.mem_append_left _ start.member
  have old : second ∈ (q.lane lane).inState state -> second.id ≠ start.waiting.id ->
      other ≠ start.job.journalId ∧ Remembers q other data state := by
    intro member different
    refine ⟨fun same => different ?_, lane, second, member, sameId, sameData⟩
    rw [(audited.same_member distinct (Partition.member_of_inState member) here (sameId.trans same)).2]
  by_cases atHome : lane = key
  · subst atHome
    rw [lanes, Function.update_self] at inAfter
    have whole := audited.census.lane_nodup lane
    rw [InMemoryQueue.laneIds, Partition.members, start.split] at whole
    simp only [List.append_assoc, List.cons_append, List.map_append, List.map_cons] at whole
    have absent := (List.nodup_middle.mp whole).notMem
    rw [← List.map_append, ← List.map_append] at absent
    cases state with
    | waiting =>
        refine Or.inl (old (start.waited inAfter) fun same => absent ?_)
        rw [← same]
        rcases List.mem_append.mp inAfter with ahead | later
        · exact List.mem_map_of_mem (List.mem_append_left _ ahead)
        · exact List.mem_map_of_mem (List.mem_append_right _ (List.mem_append_left _ later))
    | active =>
        rcases List.mem_append.mp inAfter with active | fresh
        · refine Or.inl (old active fun same => absent ?_)
          rw [← same]
          exact List.mem_map_of_mem (List.mem_append_right _ (List.mem_append_right _ active))
        · rw [List.mem_singleton.mp fresh] at sameId sameData
          exact Or.inr ⟨sameId.symm, sameData.symm, rfl⟩
  · rw [lanes, Function.update_of_ne atHome] at inAfter
    refine Or.inl (old inAfter fun same => atHome ?_)
    exact audited.census.lane_unique (List.mem_map_of_mem (Partition.member_of_inState inAfter))
      (same ▸ List.mem_map_of_mem here)

variable {output : List Signal}

theorem notice_of_change {history : List Signal} {q after : InMemoryQueue} (audited : Audited history q)
    (distinct : (acceptedJournalIds history).Nodup) (proper : ProperChange q output after) :
    Notice q output after := by
  rcases proper with ⟨change, announcedAll⟩
  have unchanged : after.lane = q.lane -> forall journalId data state, Remembers after journalId data state ->
      Remembers q journalId data state := by
    intro lanes
    refine remembers_of_lanes fun key state job member => ?_
    rw [lanes] at member
    exact member
  cases change with
  | control frame fresh standing scheduled => exact Notice.silent rfl (unchanged (by rw [frame]; rfl))
  | created key => exact Notice.silent rfl (unchanged rfl)
  | entered new placed announced lanes keys frame => exact notice_of_entered announced announcedAll lanes
  | @dropped _ kept gone order reports visits visited sublist perm reported lanes keys frame =>
      have memory : forall journalId data state, Remembers after journalId data state ->
          Remembers q journalId data state := by
        refine remembers_of_lanes fun key state job member => ?_
        rw [lanes] at member
        cases state with
        | waiting => exact (sublist key).subset member
        | active => exact member
      have told : notices (InMemoryQueue.settle (order.flatMap gone) ++ reports) =
          InMemoryQueue.settle (order.flatMap gone) := by
        rw [notices_append, notices_reports reported, List.append_nil]
        unfold InMemoryQueue.settle
        split <;> rfl
      by_cases nobody : order.flatMap gone = []
      · exact Notice.silent (told.trans (if_pos nobody)) memory
      · exact Notice.settled _ (told.trans (if_neg nobody)) memory
  | rewritten member lanes keys frame => exact notice_of_rewritten audited distinct member lanes
  | started start lanes keys frame => exact notice_of_start audited distinct start lanes
  | released member home marked lanes keys frame =>
      exact Notice.settled _ rfl (remembers_of_lanes
        (lost_of_update lanes (fun _ stays => stays) List.filter_sublist.subset))
  | ended member home marked lanes keys frame =>
      exact Notice.settled _ rfl (remembers_of_lanes
        (lost_of_update lanes (fun _ stays => stays) List.filter_sublist.subset))
  | returnedLate member lockFree frame => exact Notice.silent rfl (unchanged (by rw [frame]; rfl))
  | rejected found frame => exact Notice.silent rfl (unchanged (by rw [frame]; rfl))
  | @waiters _ signals woken frame =>
      refine Notice.silent (notices_of_none fun signal member => ?_) (unchanged (by rw [frame]; rfl))
      rcases woken signal member with ⟨waiter, same⟩
      rw [same]
      rfl
  | _ =>
      rename_i lanes keys frame
      exact Notice.silent rfl (remembers_of_lanes
        (lost_of_update lanes (fun _ stays => stays) (fun _ stays => stays)))

/-- These signals neither accept nor announce a job. -/
def NoneEnter (output : List Signal) : Prop :=
  forall signal, signal ∈ output -> signal.acceptedJobs = [] ∧ signal.enqueuedJobs = []

theorem noneEnter_of_calm (calm : Calm output) : NoneEnter output := by
  intro signal member
  have still := calm signal member
  cases signal with
  | accepted job => cases still
  | enqueued journalId data => cases still
  | _ => exact ⟨rfl, rfl⟩

theorem NoneEnter.ids (noneEnter : NoneEnter output) :
    acceptedJournalIds output = [] ∧ enqueuedIds output = [] := by
  constructor
  · rw [acceptedJournalIds, List.map_eq_nil_iff]
    exact List.flatMap_eq_nil_iff.mpr fun signal member => (noneEnter signal member).1
  · rw [enqueuedIds, List.map_eq_nil_iff]
    exact List.flatMap_eq_nil_iff.mpr fun signal member => (noneEnter signal member).2

theorem noneEnter_drainTurn (q : InMemoryQueue) (index : Nat) (key : String) (cap now : Nat) :
    NoneEnter (q.drainTurn index key cap now).signals := by
  intro signal member
  unfold InMemoryQueue.drainTurn at member
  split at member
  · rw [List.mem_singleton.mp member]
    exact ⟨rfl, rfl⟩
  · rw [List.mem_singleton.mp member]
    exact ⟨rfl, rfl⟩

theorem step_proper {q after : InMemoryQueue} {event : Event} (placed : Placed q)
    (stepped : step q event = some (after, output)) (notRestored : forall jobs, event ≠ .addRestored jobs) :
    Machine.Path ProperChange q output after := by
  have restricted : NoneEnter output -> Machine.Path ProperChange q output after := by
    intro noneEnter
    refine (@Machine.Path.restrict _ _ Change (fun signal => signal.acceptedJobs = [] ∧ signal.enqueuedJobs = []) _ _ _
      (step_path placed stepped) noneEnter).mono fun _ _ _ both => ⟨both.1, ?_⟩
    have none := NoneEnter.ids both.2
    rw [none.1, none.2]
  cases event with
  | add requested uuid now =>
      rcases Prod.mk.inj (Option.some.inj stepped) with ⟨sameAfter, sameOutput⟩
      rw [← sameAfter, ← sameOutput]
      have present : getPartition requested ∈ (q.getPartitionState (getPartition requested)).partitions.keys :=
        (OrderedMap.mem_ensure_keys _ _ _).mpr (Or.inl rfl)
      have home : getPartition (addedData q requested uuid now) = getPartition requested := by
        unfold addedData
        split
        · exact getPartition_withoutPriority requested
        · rfl
      have created : ProperChange q [] (q.getPartitionState (getPartition requested)) := ⟨Change.created q _, rfl⟩
      have entered : ProperChange _ _ _ := ⟨change_enqueue _ _ present _ uuid now home, rfl⟩
      exact (Machine.Path.single created).append (Machine.Path.single entered)
  | addRestored jobs => exact absurd rfl (notRestored jobs)
  | drainTurn index now =>
      refine restricted ?_
      simp only [step] at stepped
      split at stepped
      · rw [← (Prod.mk.inj (Option.some.inj stepped)).2]
        exact noneEnter_drainTurn _ _ _ _ _
      · cases stepped
  | _ =>
      refine restricted (noneEnter_of_calm (calm_step stepped ?_ ?_ ?_))
      · exact fun _ _ _ impossible => Event.noConfusion impossible
      · exact fun _ impossible => Event.noConfusion impossible
      · exact fun _ _ impossible => Event.noConfusion impossible

/-- The journal id that is drawn for an event. -/
def Event.drawnIds : Event -> List String
  | .add _ uuid _ => [uuid]
  | _ => []

theorem enqueuedIds_step {q after : InMemoryQueue} {event : Event}
    (stepped : step q event = some (after, output)) :
    enqueuedIds output = event.drawnIds := by
  cases event with
  | add requested uuid now =>
      rw [← (Prod.mk.inj (Option.some.inj stepped)).2]
      rfl
  | addRestored jobs =>
      rw [← (Prod.mk.inj (Option.some.inj stepped)).2, enqueuedIds, ← enqueuedOf_notices]
      have none : notices (q.addRestored jobs).signals = [] := notices_accepted _
      rw [none]
      rfl
  | drainTurn index now =>
      simp only [step] at stepped
      split at stepped
      · rw [← (Prod.mk.inj (Option.some.inj stepped)).2]
        exact (noneEnter_drainTurn _ _ _ _ _).ids.2
      · cases stepped
  | _ =>
      refine (noneEnter_of_calm (calm_step stepped ?_ ?_ ?_)).ids.2
      · exact fun _ _ _ impossible => Event.noConfusion impossible
      · exact fun _ impossible => Event.noConfusion impossible
      · exact fun _ _ impossible => Event.noConfusion impossible

/-- What a job object keeps of the job it was restored from. -/
def InternalJob.origin (job : InternalJob) : RestoredJob :=
  ⟨job.journalId, job.data, job.timestamp⟩

theorem createRestored_all (q : InMemoryQueue) (known : List String) (jobs : List RestoredJob)
    (distinct : (jobs.map (·.journalId)).Nodup) (unknown : forall job, job ∈ jobs -> job.journalId ∉ known) :
    (q.createRestored known jobs).map InternalJob.origin = jobs := by
  induction jobs generalizing q known with
  | nil => rfl
  | cons restored rest ih =>
      rw [List.map_cons, List.nodup_cons] at distinct
      rw [InMemoryQueue.createRestored, if_neg (unknown restored List.mem_cons_self), List.map_cons,
        ih _ _ distinct.2]
      · rfl
      · intro job member inKnown
        rcases List.mem_cons.mp inKnown with same | old
        · exact distinct.1 (same ▸ List.mem_map_of_mem member)
        · exact unknown job (List.mem_cons_of_mem _ member) old

theorem lane_addRestored (q : InMemoryQueue) (jobs : List RestoredJob) :
    (q.addRestored jobs).queue.lane = fun key =>
      { q.lane key with
        waiting := (q.createRestored q.knownJournalIds jobs).filter (·.partition == key) ++ (q.lane key).waiting } := by
  have facts := foldl_getPartitionState (q.createRestored q.knownJournalIds jobs) q
  simp only [InMemoryQueue.addRestored]
  generalize q.createRestored q.knownJournalIds jobs = added at facts
  generalize added.foldl (fun q job => q.getPartitionState job.partition) q = created at facts
  have lanes := lane_frontFilled created added facts.2.2.2
  rw [facts.2.1] at lanes
  split
  · exact lanes
  · rw [InMemoryQueue.schedule_eq]
    exact lanes

end DeployQueue
end Dokploy
