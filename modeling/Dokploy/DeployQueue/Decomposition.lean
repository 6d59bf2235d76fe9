import Dokploy.DeployQueue.Changes

namespace Dokploy
namespace DeployQueue

open Foundation

/-!
# Every step is a path of changes

One lemma for each method says which primitive changes it makes.  They are
proved from the definitions alone, under the assumption that everything is
where it belongs.  The end of the module packages them into the induction rule
used by every claim about runs of the queue.
-/

theorem lane_keepSwept {Scan : Type} (q : InMemoryQueue) (swept : String -> Swept Scan InternalJob)
    (outside : forall key, key ∉ q.partitions.keys -> (swept key).kept = []) :
    (q.keepSwept swept).lane = fun key => { q.lane key with waiting := (swept key).kept } := by
  refine InMemoryQueue.lane_mapLanes q _ fun key missing => ?_
  rw [outside key missing]
  rfl

variable {q : InMemoryQueue}

theorem sweep_outside {Scan : Type}
    {decision : String -> Scan -> InternalJob -> Scan × Bool} {initial : Scan} (key : String)
    (missing : key ∉ q.partitions.keys) :
    (sweep (decision key) initial (q.lane key).waiting).kept = [] := by
  have neutral : q.lane key = Partition.empty := q.partitions.outside key missing
  rw [neutral]
  rfl

theorem change_of_sweep {Scan : Type}
    (decision : String -> Scan -> InternalJob -> Scan × Bool) (initial : Scan)
    {order : List String} (visits : order.Nodup)
    (visited : forall key, key ∈ order <-> key ∈ q.partitions.keys)
    {reports : List Signal}
    (reported : forall signal, signal ∈ reports -> Exists fun data => signal = .waitingDropped data) :
    Change q
      (InMemoryQueue.settle (order.flatMap fun key =>
        (sweep (decision key) initial (q.lane key).waiting).gone) ++ reports)
      (q.keepSwept fun key => sweep (decision key) initial (q.lane key).waiting) :=
  Change.dropped visits visited (fun _ => sweep_kept_sublist _ _ _) (fun _ => sweep_perm _ _ _)
    reported (lane_keepSwept q _ sweep_outside) rfl rfl

theorem reportDropped_only {data : List DeploymentJob} :
    forall signal, signal ∈ InMemoryQueue.reportDropped data ->
      Exists fun dropped => signal = .waitingDropped dropped := by
  intro signal member
  unfold InMemoryQueue.reportDropped at member
  split at member
  · cases member
  · exact ⟨data, List.mem_singleton.mp member⟩

theorem scheduled_of_operational (operational : Operational q) :
    q.scheduled = q.partitions.keys.map fun key => ⟨key, none⟩ :=
  if_pos operational

theorem scheduled_answer {drain : PendingDrain} (member : drain ∈ q.scheduled) :
    drain.answer = none := by
  unfold InMemoryQueue.scheduled at member
  split at member
  · rcases List.mem_map.mp member with ⟨key, _, same⟩
    rw [← same]
  · cases member

theorem change_schedule (q : InMemoryQueue) (processor running paused : Bool) :
    Change q []
      (InMemoryQueue.schedule { q with processor := processor, running := running, paused := paused }) := by
  generalize switched : ({ q with processor := processor, running := running, paused := paused } :
    InMemoryQueue) = turned
  have sameKeys : turned.partitions.keys = q.partitions.keys := by rw [← switched]
  have frame : turned.schedule = { q with
      processor := turned.schedule.processor, running := turned.schedule.running
      paused := turned.schedule.paused, pendingDrains := q.pendingDrains ++ turned.scheduled } := by
    rw [InMemoryQueue.schedule_eq, ← switched]
  refine Change.control frame (fun _ member => scheduled_answer member)
    (fun _ member => sameKeys ▸ scheduled_key member) ?_
  intro operational
  rw [InMemoryQueue.schedule_eq] at operational
  refine Or.inr fun key present => ?_
  have inside : turned.scheduled = turned.partitions.keys.map fun key => ⟨key, none⟩ :=
    scheduled_of_operational operational
  rw [inside]
  exact List.mem_map_of_mem (sameKeys ▸ present)

theorem change_stop (q : InMemoryQueue) (running paused : Bool)
    (stopped : running = false ∨ paused = true) :
    Change q [] { q with running := running, paused := paused } := by
  have frame : ({ q with running := running, paused := paused } : InMemoryQueue) =
      { q with
        processor := q.processor, running := running, paused := paused
        pendingDrains := q.pendingDrains ++ [] } := by
    rw [List.append_nil]
  refine Change.control frame (fun _ member => (List.not_mem_nil member).elim)
    (fun _ member => (List.not_mem_nil member).elim) ?_
  rintro ⟨isRunning, notPaused, _⟩
  rcases stopped with notRunning | isPaused
  · exact absurd (notRunning.symm.trans isRunning) Bool.false_ne_true
  · exact absurd (notPaused.symm.trans isPaused) Bool.false_ne_true

theorem path_created (added : List InternalJob) (q : InMemoryQueue) :
    Machine.Path Change q [] (added.foldl (fun q job => q.getPartitionState job.partition) q) := by
  induction added generalizing q with
  | nil => exact Machine.Path.refl q
  | cons job rest ih =>
      exact (Machine.Path.single (Change.created q job.partition)).append (ih _)

theorem change_enqueue (q : InMemoryQueue) (key : String) (present : key ∈ q.partitions.keys)
    (data : DeploymentJob) (uuid : String) (now : Nat) (home : getPartition data = key) :
    Change q [.accepted (q.createJob data uuid now), .enqueued uuid data]
      (InMemoryQueue.schedule
        { q.changeLane key fun lane =>
            { lane with waiting := lane.waiting ++ [q.createJob data uuid now] } with
          seq := q.seq + 1 }) := by
  rw [InMemoryQueue.schedule_eq]
  refine @Change.entered q _ [q.createJob data uuid now] false [.enqueued uuid data] ⟨rfl, ?_⟩ ?_ (Or.inr ⟨_, rfl, rfl⟩) ?_ rfl rfl
  · intro job member
    rw [List.mem_singleton.mp member]
    exact ⟨rfl, rfl, rfl, rfl, rfl, rfl⟩
  · intro job member
    rw [List.mem_singleton.mp member]
    change getPartition data ∈ q.partitions.keys
    exact home ▸ present
  · have belongs : (q.createJob data uuid now).partition = key := home
    refine (InMemoryQueue.lane_changeLane q key
      (fun lane => { lane with waiting := lane.waiting ++ [q.createJob data uuid now] }) present).trans ?_
    funext other
    by_cases same : other = key
    · subst same
      simp only [Function.update_self, List.filter_cons, belongs, beq_self_eq_true, if_true,
        List.filter_nil, Bool.false_eq_true, if_false]
    · have different : (key == other) = false := beq_eq_false_iff_ne.mpr (Ne.symm same)
      simp only [Function.update_of_ne same, List.filter_cons, belongs, different, Bool.false_eq_true,
        if_false, List.filter_nil, List.append_nil]

/-- The payload that `add` puts into the new job. -/
def addedData (q : InMemoryQueue) (requested : DeploymentJob) (uuid : String) (now : Nat) : DeploymentJob :=
  if (q.add requested uuid now).answer.2.bind (·.reason) = some .nothingWaiting then withoutPriority requested
  else requested

theorem lane_add (q : InMemoryQueue) (requested : DeploymentJob) (uuid : String) (now : Nat) :
    (q.add requested uuid now).queue.lane = Function.update q.lane (getPartition requested)
      { q.lane (getPartition requested) with
        waiting := (q.lane (getPartition requested)).waiting ++
          [q.createJob (addedData q requested uuid now) uuid now] } := by
  have present : getPartition requested ∈ (q.getPartitionState (getPartition requested)).partitions.keys :=
    (OrderedMap.mem_ensure_keys _ _ _).mpr (Or.inl rfl)
  rw [InMemoryQueue.add, InMemoryQueue.schedule_eq]
  exact InMemoryQueue.lane_changeLane _ _ _ present

theorem path_add (q : InMemoryQueue) (requested : DeploymentJob) (uuid : String) (now : Nat) :
    Machine.Path Change q (q.add requested uuid now).signals (q.add requested uuid now).queue := by
  have present : getPartition requested ∈ (q.getPartitionState (getPartition requested)).partitions.keys :=
    (OrderedMap.mem_ensure_keys _ _ _).mpr (Or.inl rfl)
  refine (Machine.Path.single (Change.created q (getPartition requested))).append
    (Machine.Path.single (change_enqueue _ _ present _ uuid now ?_))
  generalize (Option.bind _ _ : Option PriorityReason) = reason
  split
  · exact getPartition_withoutPriority requested
  · rfl

private theorem createRestored_ids (q : InMemoryQueue) (known : List String) (jobs : List RestoredJob) :
    NewJobs q (q.createRestored known jobs) := by
  induction jobs generalizing q known with
  | nil => exact ⟨rfl, fun _ member => (List.not_mem_nil member).elim⟩
  | cons restored rest ih =>
      simp only [InMemoryQueue.createRestored]
      split
      · exact ih q known
      · have later := ih { q with seq := q.seq + 1 } (restored.journalId :: known)
        constructor
        · simp only [List.map_cons, List.length_cons, later.ids, List.range'_succ]
          rfl
        · intro job member
          rcases List.mem_cons.mp member with here | there
          · rw [here]
            exact ⟨rfl, rfl, rfl, rfl, rfl, rfl⟩
          · exact later.pristine job there

theorem foldl_getPartitionState (added : List InternalJob) (q : InMemoryQueue) :
    let created := added.foldl (fun q job => q.getPartitionState job.partition) q
    created = { q with partitions := created.partitions } ∧ created.lane = q.lane ∧
      (forall key, key ∈ q.partitions.keys -> key ∈ created.partitions.keys) ∧
      forall job, job ∈ added -> job.partition ∈ created.partitions.keys := by
  induction added generalizing q with
  | nil => exact ⟨rfl, rfl, fun _ present => present, fun _ member => (List.not_mem_nil member).elim⟩
  | cons job rest ih =>
      have later := ih (q.getPartitionState job.partition)
      have here : forall key, key = job.partition ∨ key ∈ q.partitions.keys ->
          key ∈ (q.getPartitionState job.partition).partitions.keys :=
        fun key either => (OrderedMap.mem_ensure_keys _ _ _).mpr either
      refine ⟨later.1, later.2.1, fun key present => later.2.2.1 key (here key (Or.inr present)), ?_⟩
      intro other member
      rcases List.mem_cons.mp member with same | inRest
      · exact later.2.2.1 _ (here _ (Or.inl (same ▸ rfl)))
      · exact later.2.2.2 other inRest

theorem lane_frontFilled (q : InMemoryQueue) (added : List InternalJob)
    (placed : forall job, job ∈ added -> job.partition ∈ q.partitions.keys) :
    (q.mapLanes fun key lane =>
      { lane with waiting := added.filter (·.partition == key) ++ lane.waiting }).lane = fun key =>
        { q.lane key with waiting := added.filter (·.partition == key) ++ (q.lane key).waiting } := by
  refine InMemoryQueue.lane_mapLanes q _ fun key missing => ?_
  have none_here : added.filter (·.partition == key) = [] := by
    rw [List.filter_eq_nil_iff]
    intro job member same
    exact missing (beq_iff_eq.mp same ▸ placed job member)
  rw [none_here]
  rfl

theorem change_restore (q : InMemoryQueue) (added : List InternalJob) (new : NewJobs q added)
    (placed : forall job, job ∈ added -> job.partition ∈ q.partitions.keys) :
    let queued : InMemoryQueue :=
      { q.mapLanes fun key lane =>
          { lane with waiting := added.filter (·.partition == key) ++ lane.waiting } with
        seq := q.seq + added.length }
    Change q (added.map .accepted) (if added = [] then queued else queued.schedule) := by
  intro queued
  have lanes : queued.lane = fun key =>
      { q.lane key with waiting := added.filter (·.partition == key) ++ (q.lane key).waiting } :=
    lane_frontFilled q added placed
  rw [← List.append_nil (added.map Signal.accepted)]
  by_cases empty : added = []
  · rw [if_pos empty]
    refine @Change.entered q _ added true [] new placed (Or.inl rfl) lanes rfl ?_
    rw [if_pos empty, List.append_nil]
    rfl
  · rw [if_neg empty, InMemoryQueue.schedule_eq]
    refine @Change.entered q _ added true [] new placed (Or.inl rfl) lanes rfl ?_
    rw [if_neg empty]
    rfl

theorem path_addRestored (q : InMemoryQueue) (jobs : List RestoredJob) :
    Machine.Path Change q (q.addRestored jobs).signals (q.addRestored jobs).queue := by
  have newJobs := createRestored_ids q q.knownJournalIds jobs
  simp only [InMemoryQueue.addRestored]
  generalize q.createRestored q.knownJournalIds jobs = added at newJobs
  have first := path_created added q
  have facts := foldl_getPartitionState added q
  simp only at facts
  generalize added.foldl (fun q job => q.getPartitionState job.partition) q = created at first facts
  have sameSeq : created.seq = q.seq := by rw [facts.1]
  rw [← sameSeq]
  have second := change_restore created added ⟨sameSeq ▸ newJobs.ids, newJobs.pristine⟩ facts.2.2.2
  exact first.append (Machine.Path.single second)

theorem path_removeWaitingJob (q : InMemoryQueue) (id : Nat) :
    Machine.Path Change q (q.removeWaitingJob id).signals (q.removeWaitingJob id).queue := by
  unfold InMemoryQueue.removeWaitingJob
  split
  · exact Machine.Path.refl q
  · rename_i key found
    have present : key ∈ q.partitions.keys := List.mem_of_find?_eq_some found
    let kept : String -> List InternalJob := Function.update (fun key => (q.lane key).waiting) key
      ((q.lane key).waiting.filter fun job => !(job.id == id))
    let gone : String -> List InternalJob := Function.update (fun _ => []) key
      ((q.lane key).waiting.filter (·.id == id))
    have collected : q.partitions.keys.flatMap gone = (q.lane key).waiting.filter (·.id == id) :=
      flatMap_update_nil q.partitions.nodup present _
    have change := @Change.dropped q
      (q.changeLane key fun lane =>
        { lane with waiting := lane.waiting.filter fun job => !(job.id == id) })
      kept gone q.partitions.keys
      (InMemoryQueue.reportDropped (((q.lane key).waiting.filter (·.id == id)).map (·.data)))
      q.partitions.nodup (fun _ => Iff.rfl) ?_ ?_ reportDropped_only ?_ rfl rfl
    · rw [collected] at change
      exact Machine.Path.single change
    · intro other
      by_cases same : other = key
      · subst same
        simp only [kept, Function.update_self]
        exact List.filter_sublist
      · simp only [kept, Function.update_of_ne same]
        exact List.Sublist.refl _
    · intro other
      by_cases same : other = key
      · subst same
        simp only [kept, gone, Function.update_self]
        exact List.perm_append_comm.trans (List.filter_append_perm _ _)
      · simp only [kept, gone, Function.update_of_ne same, List.append_nil]
        exact List.Perm.refl _
    · rw [InMemoryQueue.lane_changeLane _ _ _ present]
      funext other
      by_cases same : other = key
      · subst same
        simp only [kept, Function.update_self]
      · simp only [kept, Function.update_of_ne same]

theorem path_removeWaiting (q : InMemoryQueue) (predicate : DeploymentJob -> Bool) :
    Machine.Path Change q (q.removeWaiting predicate).signals (q.removeWaiting predicate).queue :=
  Machine.Path.single (change_of_sweep (fun _ _ job => ((), !predicate job.data)) ()
    q.partitions.nodup (fun _ => Iff.rfl) reportDropped_only)

theorem path_keepOldestWaiting (q : InMemoryQueue) (predicate : DeploymentJob -> Bool) :
    Machine.Path Change q (q.keepOldestWaiting predicate).signals (q.keepOldestWaiting predicate).queue :=
  Machine.Path.single (change_of_sweep (fun _ => InMemoryQueue.keepOldestDecision predicate) []
    q.partitions.nodup (fun _ => Iff.rfl) reportDropped_only)

theorem path_clearWaiting (q : InMemoryQueue) :
    Machine.Path Change q q.clearWaiting.signals q.clearWaiting.queue :=
  Machine.Path.single (change_of_sweep (fun _ _ _ => ((), false)) ()
    q.partitions.nodup (fun _ => Iff.rfl) reportDropped_only)

theorem coalesce_target_kept (incoming : DeploymentJob) (predicate : DeploymentJob -> Bool)
    (isHome : Bool) (jobs : List InternalJob) (start : Option InternalJob) (job : InternalJob)
    (found : (sweep (InMemoryQueue.coalesceDecision incoming predicate isHome) start jobs).state = some job) :
    start = some job ∨
      job ∈ (sweep (InMemoryQueue.coalesceDecision incoming predicate isHome) start jobs).kept := by
  induction jobs generalizing start with
  | nil => exact Or.inl found
  | cons head rest ih =>
      simp only [sweep] at found ⊢
      have later := ih (InMemoryQueue.coalesceDecision incoming predicate isHome start head).1
      split at found
      · rename_i stays
        rw [if_pos stays]
        rcases later found with fromHead | inRest
        · unfold InMemoryQueue.coalesceDecision at fromHead
          split at fromHead
          · exact Or.inl fromHead
          · split at fromHead
            · exact Or.inr (Option.some.inj fromHead ▸ List.mem_cons_self)
            · exact Or.inl fromHead
        · exact Or.inr (List.mem_cons_of_mem _ inRest)
      · rename_i leaves
        rw [if_neg leaves]
        rcases later found with fromHead | inRest
        · unfold InMemoryQueue.coalesceDecision at fromHead leaves
          split at fromHead
          · exact Or.inl fromHead
          · split at fromHead
            · rename_i notDuplicate chosen
              rw [if_neg notDuplicate, if_pos chosen] at leaves
              exact absurd rfl leaves
            · exact Or.inl fromHead
        · exact Or.inr inRest

theorem homeFirst_nodup (q : InMemoryQueue) (home : String) : (q.homeFirst home).Nodup := by
  refine List.Nodup.append (q.partitions.nodup.filter _) (q.partitions.nodup.filter _) ?_
  intro key first second
  have same := (List.mem_filter.mp first).2
  have different := (List.mem_filter.mp second).2
  rw [beq_iff_eq] at same
  rw [bne_iff_ne] at different
  exact different same

theorem mem_homeFirst (q : InMemoryQueue) (home key : String) :
    key ∈ q.homeFirst home <-> key ∈ q.partitions.keys := by
  simp only [InMemoryQueue.homeFirst, List.mem_append, List.mem_filter, beq_iff_eq, bne_iff_ne]
  constructor
  · rintro (⟨present, _⟩ | ⟨present, _⟩) <;> exact present
  · intro present
    by_cases same : key = home
    · exact Or.inl ⟨present, same⟩
    · exact Or.inr ⟨present, same⟩

theorem path_coalesceWaiting (q : InMemoryQueue) (incoming : DeploymentJob)
    (predicate : DeploymentJob -> Bool) :
    Machine.Path Change q (q.coalesceWaiting incoming predicate).signals
      (q.coalesceWaiting incoming predicate).queue := by
  have swept : forall {reports : List Signal}, (forall signal, signal ∈ reports ->
      Exists fun data => signal = .waitingDropped data) ->
      Change q (InMemoryQueue.settle ((q.homeFirst (getPartition incoming)).flatMap fun key =>
        (q.coalesceSweep incoming predicate key).gone) ++ reports)
        (q.keepSwept (q.coalesceSweep incoming predicate)) := fun reported =>
    change_of_sweep
      (fun key => InMemoryQueue.coalesceDecision incoming predicate (decide (key = getPartition incoming)))
      none (homeFirst_nodup q _) (mem_homeFirst q _) reported
  simp only [InMemoryQueue.coalesceWaiting]
  split
  · exact Machine.Path.single (swept reportDropped_only)
  · rename_i job found
    have member : job ∈ (q.coalesceSweep incoming predicate (getPartition incoming)).kept :=
      (coalesce_target_kept incoming predicate _ _ none job found).resolve_left (by simp)
    have home : job ∈ ((q.keepSwept (q.coalesceSweep incoming predicate)).lane (getPartition incoming)).waiting := by
      have lanes : (q.keepSwept (q.coalesceSweep incoming predicate)).lane = _ :=
        lane_keepSwept q _ sweep_outside
      rw [lanes]
      exact member
    rw [List.append_assoc (InMemoryQueue.settle _)]
    refine (Machine.Path.single (swept ?_)).append (Machine.Path.single (Change.rewritten home
      (InMemoryQueue.lane_changeLane _ _ _ (InMemoryQueue.key_of_waiting home)) rfl rfl))
    intro signal inReports
    rcases List.mem_append.mp inReports with first | last
    · exact reportDropped_only signal first
    · exact reportDropped_only signal last

variable {key : String} {job : InternalJob}

theorem findWaiting_some {id : Nat} {index : Nat} (found : q.findWaiting id = some (key, index, job)) :
    Exists fun before => Exists fun after =>
      (q.lane key).waiting = before ++ job :: after ∧ index = before.length ∧ job.id = id ∧
        forall earlier, earlier ∈ before -> earlier.id ≠ id := by
  unfold InMemoryQueue.findWaiting at found
  rcases List.exists_of_findSome?_eq_some found with ⟨lane, _, inLane⟩
  split at inLane
  · cases inLane
  · rename_i position searched
    rcases split_of_findIdx? searched with ⟨before, element, after, split, atPosition, accepted, refused⟩
    rw [atPosition, getElem?_of_split split] at inLane
    simp only [Option.map_some, Option.some.injEq, Prod.mk.injEq] at inLane
    rcases inLane with ⟨sameLane, sameIndex, sameJob⟩
    subst sameLane
    subst sameJob
    refine ⟨before, after, split, sameIndex.symm, beq_iff_eq.mp accepted, ?_⟩
    intro earlier member same
    exact Bool.false_ne_true ((refused earlier member).symm.trans (beq_iff_eq.mpr same))

theorem path_prioritize (q : InMemoryQueue) (id : Nat) (requester : Option String) :
    Machine.Path Change q (q.prioritize id requester).signals (q.prioritize id requester).queue := by
  unfold InMemoryQueue.prioritize
  split
  · exact Machine.Path.refl q
  · rename_i key index job found
    simp only
    split
    · exact Machine.Path.refl q
    · split
      · exact Machine.Path.refl q
      · rcases findWaiting_some found with ⟨before, after, split, _, same, _⟩
        have member : job ∈ (q.lane key).waiting := split ▸ List.mem_append_right _ List.mem_cons_self
        subst same
        exact Machine.Path.single (Change.rewritten member
          (InMemoryQueue.lane_changeLane _ _ _ (InMemoryQueue.key_of_waiting member)) rfl rfl)

theorem findActive_some {id : Nat}
    (found : q.findActive id = some (key, job)) : job ∈ (q.lane key).active ∧ job.id = id := by
  rcases List.exists_of_findSome?_eq_some found with ⟨lane, _, inLane⟩
  rcases Option.map_eq_some_iff.mp inLane with ⟨other, searched, same⟩
  rw [Prod.mk.injEq] at same
  rcases same with ⟨sameLane, sameJob⟩
  subst sameLane
  subst sameJob
  exact ⟨List.mem_of_find?_eq_some searched, by simpa using List.find?_some searched⟩

private theorem path_wake {freed : InMemoryQueue} {signals : List Signal}
    (change : Change q signals { freed with pendingDrains := freed.pendingDrains ++ freed.drained key }) :
    Machine.Path Change q (signals ++ freed.wakeIdleWaiters.2) (freed.wakeIdleWaiters.1.drainPartition key) := by
  rcases freed.wakeIdleWaiters_eq with ⟨waiters, woken⟩
  refine (Machine.Path.single change).append (Machine.Path.single (Change.waiters ?_ ?_))
  · intro signal member
    unfold InMemoryQueue.wakeIdleWaiters at member
    split at member
    · cases member
    · rcases List.mem_map.mp member with ⟨waiter, _, same⟩
      exact ⟨waiter, same.symm⟩
  · rw [InMemoryQueue.drainPartition_eq, woken]
    rfl

theorem path_releaseActive (placed : Placed q) (id : Nat) (keepGroupLock : Bool)
    (now : Nat) :
    Machine.Path Change q (q.releaseActive id keepGroupLock now).signals
      (q.releaseActive id keepGroupLock now).queue := by
  unfold InMemoryQueue.releaseActive
  split
  · exact Machine.Path.refl q
  · rename_i key found searched
    have member := (findActive_some searched).1
    have home : found.partition = key := (placed.lanes key).2 found member
    have present := InMemoryQueue.key_of_active member
    subst home
    simp only [InMemoryQueue.settle, List.cons_ne_nil, if_false]
    exact path_wake (@Change.released q _ found.partition found _ keepGroupLock member rfl rfl
      (InMemoryQueue.lane_changeLane _ _ _ present) rfl rfl)

theorem path_finishActive (placed : Placed q) {found : InternalJob}
    (member : found ∈ (q.lane key).active) (ending : InMemoryQueue.ProcessorEnd) (now : Nat) :
    Machine.Path Change q (q.finishActive found ending now).signals (q.finishActive found ending now).queue := by
  have home : found.partition = key := (placed.lanes key).2 found member
  have present := InMemoryQueue.key_of_active member
  subst home
  unfold InMemoryQueue.finishActive
  simp only [InMemoryQueue.settle, List.cons_ne_nil, if_false]
  exact path_wake (@Change.ended q _ found.partition found _ ending.outcome member rfl rfl
    (InMemoryQueue.lane_changeLane _ _ _ present) rfl rfl)

theorem findKeptLock_some {id : Nat}
    (found : q.findKeptLock id = some job) :
    job ∈ q.releasedRuns ∧ job.id = id ∧ job.groupLockKept = true := by
  unfold InMemoryQueue.findKeptLock at found
  split at found
  · rcases Option.filter_eq_some_iff.mp found with ⟨searched, kept⟩
    exact ⟨List.mem_of_find?_eq_some searched, by simpa using List.find?_some searched, kept⟩
  · cases found

theorem path_dropKeptGroupLock (placed : Placed q) (id : Nat) :
    Machine.Path Change q (q.dropKeptGroupLock id).signals (q.dropKeptGroupLock id).queue := by
  unfold InMemoryQueue.dropKeptGroupLock
  split
  · exact Machine.Path.refl q
  · rename_i job found
    rcases findKeptLock_some found with ⟨member, same, kept⟩
    subst same
    have present := placed.runs job member
    simp only [InMemoryQueue.dropLock, InMemoryQueue.drainPartition_eq]
    exact Machine.Path.single (Change.lockDropped member kept present
      (InMemoryQueue.lane_changeLane _ _ _ present) rfl rfl)

theorem path_finishReleased (placed : Placed q)
    (member : job ∈ q.releasedRuns) :
    Machine.Path Change q (q.finishReleased job).signals (q.finishReleased job).queue := by
  unfold InMemoryQueue.finishReleased
  have present := placed.runs job member
  cases kept : job.groupLockKept with
  | false =>
      simp only [Bool.false_eq_true, if_false]
      exact Machine.Path.single (Change.returnedLate member kept rfl)
  | true =>
      simp only [if_true, InMemoryQueue.dropLock, InMemoryQueue.drainPartition_eq]
      let unlocked : InMemoryQueue :=
        { q.changeLane job.partition fun lane =>
            { lane with activeGroups := lane.activeGroups.erase job.group } with
          releasedRuns := q.releasedRuns.map fun other =>
            if other.id = job.id then { other with groupLockKept := false } else other
          keptLocks := q.keptLocks.filter fun other => !(other == job.id)
          pendingDrains := q.pendingDrains ++ q.drained job.partition }
      have first : Change q [] unlocked := Change.lockDropped member kept present
        (InMemoryQueue.lane_changeLane _ _ _ present) rfl rfl
      have marked : ({ job with groupLockKept := false } : InternalJob) ∈ unlocked.releasedRuns :=
        List.mem_map.mpr ⟨job, member, if_pos rfl⟩
      have filtered : (unlocked.releasedRuns.filter fun other => !(other.id == job.id)) =
          q.releasedRuns.filter fun other => !(other.id == job.id) :=
        filter_map_eq q.releasedRuns
          (fun other => by by_cases same : other.id = job.id <;> simp [same])
          (fun other keeps => by
            have different : other.id ≠ job.id := by simpa using keeps
            exact if_neg different)
      refine (Machine.Path.single first).append (Machine.Path.single (Change.returnedLate marked rfl ?_))
      simp only
      rw [filtered]
      rfl

theorem path_holdIdleGroup (q : InMemoryQueue) (partitionKey group : String)
    (waitingBlocks : DeploymentJob -> Bool) :
    Machine.Path Change q (q.holdIdleGroup partitionKey group waitingBlocks).signals
      (q.holdIdleGroup partitionKey group waitingBlocks).queue := by
  unfold InMemoryQueue.holdIdleGroup
  split
  · exact Machine.Path.refl q
  · rename_i unheld
    split
    · exact Machine.Path.refl q
    · rename_i notRunning
      split
      · exact Machine.Path.refl q
      · have present : partitionKey ∈ (q.getPartitionState partitionKey).partitions.keys :=
          (OrderedMap.mem_ensure_keys _ _ _).mpr (Or.inl rfl)
        have unlocked : forall other, group ∉ (q.lane other).activeGroups := by
          intro other locked
          apply notRunning
          refine List.any_eq_true.mpr ⟨other, InMemoryQueue.key_present ?_, decide_eq_true locked⟩
          intro same
          rw [same] at locked
          exact Finset.notMem_empty group locked
        exact (Machine.Path.single (Change.created q partitionKey)).append
          (Machine.Path.single (Change.held unheld unlocked present
            (InMemoryQueue.lane_changeLane _ _ _ present) rfl rfl))

theorem path_releaseHold (placed : Placed q) {index : Nat} {hold : Hold}
    (found : q.holds[index]? = some hold) :
    Machine.Path Change q (q.releaseHold index hold).signals (q.releaseHold index hold).queue := by
  unfold InMemoryQueue.releaseHold
  split
  · exact Machine.Path.refl q
  · rename_i live
    have present := placed.holds hold (List.mem_of_getElem? found)
    simp only [InMemoryQueue.dropLock, InMemoryQueue.drainPartition_eq]
    exact Machine.Path.single (Change.unheld found (by simpa using live) present
      (InMemoryQueue.lane_changeLane _ _ _ present) rfl rfl)

theorem nextStart_some {cap : Nat} {pick : Pick}
    {waiting : InternalJob} (next : q.nextStart key cap = some (pick, waiting)) :
    (q.running = true ∧ q.paused = false) ∧ (q.lane key).active.length < cap ∧
      Exists fun before => Exists fun behind =>
        (q.lane key).waiting = before ++ waiting :: behind ∧ pick.index = before.length ∧
          waiting.group ∉ (q.lane key).activeGroups ∧
          (forall older, older ∈ before -> older.group ≠ waiting.group) ∧
          (pick.jumped = false -> forall older, older ∈ before -> older.group ∈ (q.lane key).activeGroups) ∧
          (pick.jumped = true -> flagged waiting.data = true ∧ jumpBlocked (q.lane key) = false) := by
  unfold InMemoryQueue.nextStart at next
  split at next
  · rename_i condition
    split at next
    · cases next
    · rename_i chosen picked
      rcases pickNext_some picked with ⟨before, job, behind, split, atIndex, free, oldest, plain, jump⟩
      rw [atIndex, getElem?_of_split split] at next
      simp only [Option.map_some, Option.some.injEq, Prod.mk.injEq] at next
      rcases next with ⟨samePick, sameJob⟩
      subst samePick
      subst sameJob
      refine ⟨⟨condition.1, condition.2.1⟩, condition.2.2, before, behind, split, atIndex,
        of_decide_eq_true free, oldest, fun notJumped older member => ?_, jump⟩
      have locked := plain notJumped older member
      simpa [isFree] using locked
  · cases next

/-- The loop ends because the queue is stopped, the lane is full, or every
waiting job's service is locked. -/
theorem nextStart_none {cap : Nat}
    (nothing : q.nextStart key cap = none) :
    ¬ (q.running = true ∧ q.paused = false) ∨ cap ≤ (q.lane key).active.length ∨
      forall job, job ∈ (q.lane key).waiting -> job.group ∈ (q.lane key).activeGroups := by
  unfold InMemoryQueue.nextStart at nothing
  split at nothing
  · split at nothing
    · rename_i none_picked
      refine Or.inr (Or.inr fun job member => ?_)
      have locked := (pickNext_none_iff _).mp none_picked job member
      simpa [isFree] using locked
    · rename_i pick picked
      rcases pickNext_some picked with ⟨before, job, behind, split, atIndex, _⟩
      rw [atIndex, getElem?_of_split split] at nothing
      cases nothing
  · rename_i refused
    by_cases stopped : q.running = true ∧ q.paused = false
    · refine Or.inr (Or.inl (Nat.le_of_not_lt fun room => ?_))
      exact refused ⟨stopped.1, stopped.2, room⟩
    · exact Or.inl stopped

theorem change_drainTurn (placed : Placed q) {index : Nat}
    {answer : Int} (found : q.pendingDrains[index]? = some ⟨key, some answer⟩) (now : Nat) :
    Change q (q.drainTurn index key (capOf answer) now).signals
      (q.drainTurn index key (capOf answer) now).queue := by
  have member := List.mem_of_getElem? found
  have present : key ∈ q.partitions.keys := placed.drains _ member
  unfold InMemoryQueue.drainTurn
  split
  · rename_i nothing
    exact Change.drainEnded found (nextStart_none nothing)
      (InMemoryQueue.lane_changeLane _ _ _ present) rfl rfl
  · rename_i pick waiting next
    rcases nextStart_some next with ⟨operational, room, before, behind, split, atIndex, free, oldest, plain, jump⟩
    have erased : (q.lane key).waiting.eraseIdx before.length = before ++ behind := eraseIdx_of_split split
    simp only [InMemoryQueue.start, atIndex]
    let start : Start q key :=
      ⟨answer, before, behind, waiting, pick.jumped, now, member, operational, room, split, free, oldest, plain, jump⟩
    refine Change.started start ?_ rfl rfl
    rw [InMemoryQueue.lane_changeLane _ _ _ present, erased]
    rfl

theorem step_path {after : InMemoryQueue} {event : Event} {output : List Signal}
    (placed : Placed q) (stepped : step q event = some (after, output)) : Machine.Path Change q output after := by
  have effect : forall {Answer : Type} (reply : Reply Answer), reply.effect = some (after, output) ->
      Machine.Path Change q reply.signals reply.queue -> Machine.Path Change q output after := by
    intro Answer reply same path
    simp only [Reply.effect, Option.some.injEq, Prod.mk.injEq] at same
    exact same.1 ▸ same.2 ▸ path
  cases event with
  | process => exact effect _ stepped (Machine.Path.single (change_schedule q true true q.paused))
  | run => exact effect _ stepped (Machine.Path.single (change_schedule q q.processor true q.paused))
  | add requested uuid now => exact effect _ stepped (path_add q requested uuid now)
  | prioritize id requester => exact effect _ stepped (path_prioritize q id requester)
  | addRestored jobs => exact effect _ stepped (path_addRestored q jobs)
  | remove id => exact effect _ stepped (path_removeWaitingJob q id)
  | removeWaitingJob id => exact effect _ stepped (path_removeWaitingJob q id)
  | releaseActive id keepGroupLock now =>
      exact effect _ stepped (path_releaseActive placed id keepGroupLock now)
  | dropKeptGroupLock id => exact effect _ stepped (path_dropKeptGroupLock placed id)
  | holdIdleGroup partitionKey group waitingBlocks =>
      exact effect _ stepped (path_holdIdleGroup q partitionKey group waitingBlocks)
  | releaseHold index =>
      simp only [step] at stepped
      split at stepped
      · cases stepped
      · rename_i hold found
        exact effect _ stepped (path_releaseHold placed found)
  | removeWaiting predicate => exact effect _ stepped (path_removeWaiting q predicate)
  | keepOldestWaiting predicate => exact effect _ stepped (path_keepOldestWaiting q predicate)
  | coalesceWaiting incoming predicate =>
      exact effect _ stepped (path_coalesceWaiting q incoming predicate)
  | clearWaiting => exact effect _ stepped (path_clearWaiting q)
  | close => exact effect _ stepped (Machine.Path.single (change_stop q false q.paused (Or.inl rfl)))
  | pause => exact effect _ stepped (Machine.Path.single (change_stop q q.running true (Or.inr rfl)))
  | resume =>
      refine effect _ stepped ?_
      unfold InMemoryQueue.resume
      split
      · exact Machine.Path.refl q
      · exact Machine.Path.single (change_schedule q q.processor q.running false)
  | waitForIdle waiter =>
      refine effect _ stepped ?_
      unfold InMemoryQueue.waitForIdle
      split
      · exact Machine.Path.single (Change.waiters (fun _ member => ⟨waiter, List.mem_singleton.mp member⟩) rfl)
      · exact Machine.Path.single (Change.waiters (fun _ member => (List.not_mem_nil member).elim) rfl)
  | idleTimeout waiter =>
      exact effect _ stepped
        (Machine.Path.single (Change.waiters (fun _ member => (List.not_mem_nil member).elim) rfl))
  | concurrencyResolved index answer =>
      simp only [step] at stepped
      split at stepped
      · rename_i key found
        have present : key ∈ q.partitions.keys := placed.drains _ (List.mem_of_getElem? found)
        simp only [Option.some.injEq, Prod.mk.injEq] at stepped
        rw [← stepped.1, ← stepped.2]
        exact Machine.Path.single (@Change.resolved q _ index key answer found
          (InMemoryQueue.lane_changeLane _ _ _ present) rfl rfl)
      · cases stepped
  | concurrencyRejected index =>
      simp only [step] at stepped
      split at stepped
      · rename_i key found
        simp only [Option.some.injEq, Prod.mk.injEq] at stepped
        rw [← stepped.1, ← stepped.2]
        exact Machine.Path.single (Change.rejected found rfl)
      · cases stepped
  | drainTurn index now =>
      simp only [step] at stepped
      split at stepped
      · rename_i key answer found
        exact effect _ stepped (Machine.Path.single (change_drainTurn placed found now))
      · cases stepped
  | processorEnded id ending now =>
      simp only [step] at stepped
      split at stepped
      · rename_i key job found
        exact effect _ stepped (path_finishActive placed (findActive_some found).1 ending now)
      · split at stepped
        · rename_i job found
          exact effect _ stepped (path_finishReleased placed (List.mem_of_find?_eq_some found))
        · cases stepped

/-- The invariant rule of the queue: it is enough to look at the primitive
changes, each from a state in which everything is where it belongs. -/
theorem queue_invariant {guard : InMemoryQueue -> Event -> Prop}
    (holds : List Signal -> InMemoryQueue -> Prop) (initially : holds [] InMemoryQueue.new)
    (preserved : forall history before output after, Placed before -> holds history before ->
      Change before output after -> holds (history ++ output) after)
    {history : List Signal} (run : queueMachine.Run guard history q) :
    Placed q ∧ holds history q :=
  run.invariant_of_primitive (fun history q => Placed q ∧ holds history q)
    (fun _ _ _ _ _ held _ stepped => step_path held.1 stepped)
    ⟨placed_new, initially⟩
    (fun _ _ _ _ held change => ⟨held.1.change change, preserved _ _ _ _ held.1 held.2 change⟩)

theorem placed_of_run {guard : InMemoryQueue -> Event -> Prop} {history : List Signal} (run : queueMachine.Run guard history q) :
    Placed q :=
  (queue_invariant (fun _ _ => True) trivial (fun _ _ _ _ _ _ _ => trivial) run).1

end DeployQueue
end Dokploy
