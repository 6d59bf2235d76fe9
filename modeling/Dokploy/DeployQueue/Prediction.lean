import Dokploy.DeployQueue.Census

namespace Dokploy
namespace DeployQueue

open Foundation

/-!
# What a priority answer predicts

`assessPriority` answers when priority is asked for, `pickNext` decides when a
slot gets free.  On a full lane the answer is meant to foretell the pick that
follows the next success.  It looks at the older work of the job's own service
and at the cooldown of the lane.  It looks neither at older flagged jobs, which
the pick prefers, nor at whether the job's own service still runs.
-/

namespace InMemoryQueue

/-- The loop of a drain that nothing interrupts, for at most `turns` starts. -/
def drainLoop (q : InMemoryQueue) (key : String) (cap now : Nat) :
    Nat -> InMemoryQueue × List InternalJob
  | 0 => (q, [])
  | turns + 1 =>
      match q.nextStart key cap with
      | none => (q, [])
      | some (pick, waiting) =>
          let later := drainLoop (q.start key pick waiting now).queue key cap now turns
          (later.1, (q.start key pick waiting now).answer :: later.2)

end InMemoryQueue

variable {q : InMemoryQueue} {key : String}

theorem nextStart_present {cap : Nat} {pick : Pick}
    {waiting : InternalJob} (next : q.nextStart key cap = some (pick, waiting)) :
    key ∈ q.partitions.keys := by
  rcases nextStart_some next with ⟨_, _, before, behind, split, _⟩
  have member : waiting ∈ (q.lane key).waiting := split ▸ List.mem_append_right _ List.mem_cons_self
  exact InMemoryQueue.key_of_waiting member

theorem lane_start {cap now : Nat} {pick : Pick}
    {waiting : InternalJob} (next : q.nextStart key cap = some (pick, waiting)) :
    ((q.start key pick waiting now).queue.lane key).waiting = (q.lane key).waiting.eraseIdx pick.index ∧
      ((q.start key pick waiting now).queue.lane key).active =
        (q.lane key).active ++ [(q.start key pick waiting now).answer] := by
  have present := nextStart_present next
  rw [InMemoryQueue.start]
  dsimp only
  rw [InMemoryQueue.lane_changeLane _ _ _ present, Function.update_self]
  exact ⟨rfl, rfl⟩

theorem assessPriority_applied {lane : Partition} {index : Nat} {group : String}
    {othersBehind : Bool} (applied : (q.assessPriority lane index group othersBehind).applied = true) :
    hasOlderOfGroup lane index group = false ∧ jumpBlocked lane = false ∧
      0 < startableBefore lane index - q.freeSlots lane ∧
      q.assessPriority lane index group othersBehind =
        ⟨true, true, startableBefore lane index - q.freeSlots lane, none⟩ := by
  unfold InMemoryQueue.assessPriority at applied ⊢
  split at applied
  · cases applied
  · rename_i notFirst
    rw [if_neg notFirst]
    split at applied
    · cases applied
    · rename_i noOlder
      rw [if_neg noOlder]
      simp only at applied ⊢
      split at applied
      · cases applied
      · rename_i some_ahead
        rw [if_neg some_ahead]
        split at applied
        · cases applied
        · rename_i allowed
          rw [if_neg allowed]
          exact ⟨by simpa using noOlder, by simpa using allowed, Nat.pos_of_ne_zero some_ahead, rfl⟩

theorem assessPriority_first {lane : Partition} {index : Nat} {group : String}
    {othersBehind : Bool}
    (reason : (q.assessPriority lane index group othersBehind).reason = some .firstInLine) :
    startableBefore lane index ≤ q.freeSlots lane := by
  unfold InMemoryQueue.assessPriority at reason
  split at reason
  · rename_i first
    rw [first]
    exact Nat.zero_le _
  · split at reason
    · cases reason
    · simp only at reason
      split at reason
      · rename_i nothing
        exact Nat.sub_eq_zero_iff_le.mp nothing
      · split at reason <;> cases reason

structure FullLane (q : InMemoryQueue) (key : String) (cap : Nat) : Prop where
  operational : Operational q
  concurrency : (q.lane key).concurrency = some cap
  full : (q.lane key).active.length = cap

theorem FullLane.freeSlots {cap : Nat} (full : FullLane q key cap) :
    q.freeSlots (q.lane key) = 0 := by
  unfold InMemoryQueue.freeSlots
  split
  · rfl
  · rw [full.concurrency, full.full, Option.getD_some, Nat.sub_self]

/-- After the job `finished` of the lane succeeds, the drain that follows starts
exactly the job with this id, as a jump ahead of `wentAheadOf` jobs. -/
def PredictionHolds (q : InMemoryQueue) (key : String) (cap : Nat) (finished : InternalJob)
    (now later id wentAheadOf : Nat) : Prop :=
  Exists fun freed => Exists fun signals => Exists fun started =>
    step q (.processorEnded finished.id (.returned none) now) = some (freed, signals) ∧
      (freed.drainLoop key cap later (freed.lane key).waiting.length).2 = [started] ∧
      started.id = id ∧ started.jumped = true ∧ started.wentAheadOf = wentAheadOf

theorem lane_finishActive (placed : Placed q) {finished : InternalJob}
    (member : finished ∈ (q.lane key).active) (now : Nat) :
    let freed := (q.finishActive finished (.returned none) now).queue
    freed.lane key = { q.lane key with
        active := (q.lane key).active.filter fun other => !(other.id == finished.id)
        activeGroups := (q.lane key).activeGroups.erase finished.group } ∧
      freed.running = q.running ∧ freed.paused = q.paused := by
  have home : finished.partition = key := (placed.lanes key).2 finished member
  subst home
  have present := InMemoryQueue.key_of_active member
  simp only [InMemoryQueue.finishActive, InMemoryQueue.ProcessorEnd.outcome, Option.isSome_none, Bool.and_false,
    Bool.false_eq_true, if_false, InMemoryQueue.drainPartition_eq]
  let change : Partition -> Partition := fun lane =>
    { lane with
      active := lane.active.filter fun other => !(other.id == finished.id)
      activeGroups := lane.activeGroups.erase finished.group }
  have changed := congrFun (InMemoryQueue.lane_changeLane q finished.partition change present) finished.partition
  rw [Function.update_self] at changed
  rcases (q.changeLane finished.partition change).wakeIdleWaiters_eq with ⟨waiters, woken⟩
  simp only [change] at woken
  rw [woken]
  exact ⟨changed, rfl, rfl⟩

variable {history : List Signal} {job : InternalJob}

theorem findActive_of_member (census : Census history q) (member : job ∈ (q.lane key).active) :
    q.findActive job.id = some (key, job) := by
  have present := InMemoryQueue.key_of_active member
  cases found : q.findActive job.id with
  | none =>
      have nowhere := List.findSome?_eq_none_iff.mp found key present
      rw [Option.map_eq_none_iff, List.find?_eq_none] at nowhere
      exact absurd (beq_self_eq_true job.id) (nowhere job member)
  | some place =>
      rcases place with ⟨other, candidate⟩
      rcases findActive_some found with ⟨inOther, sameId⟩
      have here : job.id ∈ q.laneIds key := List.mem_map_of_mem (List.mem_append_right _ member)
      have there : job.id ∈ q.laneIds other :=
        sameId ▸ List.mem_map_of_mem (List.mem_append_right _ inOther)
      have sameLane := census.lane_unique here there
      subst sameLane
      rw [List.inj_on_of_nodup_map (census.active_nodup key) inOther member sameId]

theorem drainLoop_single {q : InMemoryQueue} {key : String} {cap now turns : Nat} {pick : Pick}
    {waiting : InternalJob} (next : q.nextStart key cap = some (pick, waiting))
    (oneSlot : (q.lane key).active.length + 1 = cap) (positive : 0 < turns) :
    (q.drainLoop key cap now turns).2 = [(q.start key pick waiting now).answer] := by
  cases turns with
  | zero => cases positive
  | succ turns =>
      have full : (q.start key pick waiting now).queue.nextStart key cap = none := by
        unfold InMemoryQueue.nextStart
        rw [if_neg]
        rintro ⟨_, _, room⟩
        rw [(lane_start next).2, List.length_append, List.length_singleton, oneSlot] at room
        exact Nat.lt_irrefl cap room
      simp only [InMemoryQueue.drainLoop, next]
      cases turns with
      | zero => rfl
      | succ turns => simp only [InMemoryQueue.drainLoop, full]

theorem noEligibleIn_congr {lane other : Partition} {ahead : List InternalJob}
    (same : forall job, job ∈ ahead -> isFree other job = isFree lane job) :
    NoEligibleIn other ahead <-> NoEligibleIn lane ahead := by
  refine forall_congr' fun before => forall_congr' fun job => forall_congr' fun after =>
    forall_congr' fun split => not_congr ?_
  have member : job ∈ ahead := split ▸ List.mem_append_right _ List.mem_cons_self
  unfold Eligible
  rw [same job member]

/-- On a full lane the next success is followed by a jump of the job exactly
when it is startable and nothing ahead of it is eligible. -/
theorem predictionHolds_iff (placed : Placed q)
    (census : Census history q) {cap : Nat} {ahead behind : List InternalJob}
    (operational : q.running = true ∧ q.paused = false)
    (full : (q.lane key).active.length = cap)
    (split : (q.lane key).waiting = ahead ++ job :: behind)
    (allowed : jumpBlocked (q.lane key) = false) (isFlagged : flagged job.data = true)
    (oldest : forall older, older ∈ ahead -> older.group ≠ job.group)
    (some_ahead : 0 < ahead.countP (isFree (q.lane key)))
    {finished : InternalJob} (member : finished ∈ (q.lane key).active)
    (apart : forall waiting, waiting ∈ (q.lane key).waiting -> waiting.group ≠ finished.group)
    (now later : Nat) :
    PredictionHolds q key cap finished now later job.id (ahead.countP (isFree (q.lane key))) <->
      isFree (q.lane key) job = true ∧ NoEligibleIn (q.lane key) ahead := by
  let freed := (q.finishActive finished (.returned none) now).queue
  have stepped : step q (.processorEnded finished.id (.returned none) now) =
      some (freed, (q.finishActive finished (.returned none) now).signals) := by
    simp only [step, findActive_of_member census member, Reply.effect]
    rfl
  rcases lane_finishActive placed member now with ⟨freedLane, sameRunning, samePaused⟩
  have waiting : (freed.lane key).waiting = ahead ++ job :: behind := by
    rw [freedLane]
    exact split
  have oneSlot : (freed.lane key).active.length + 1 = cap := by
    rcases List.append_of_mem member with ⟨before, after, activeSplit⟩
    rw [freedLane]
    dsimp only
    rw [filter_other_of_split (census.active_nodup key) activeSplit, ← full, activeSplit]
    simp only [List.length_append, List.length_cons]
    omega
  have sameFree : forall other, other ∈ (q.lane key).waiting ->
      isFree (freed.lane key) other = isFree (q.lane key) other := by
    intro other inWaiting
    rw [freedLane, isFree, isFree]
    simp only [Finset.mem_erase, ne_eq, apart other inWaiting, not_false_eq_true, true_and]
  have sameFreeAhead : forall other, other ∈ ahead -> isFree (freed.lane key) other = isFree (q.lane key) other :=
    fun other inAhead => sameFree other (split ▸ List.mem_append_left _ inAhead)
  have stillAllowed : jumpBlocked (freed.lane key) = false := by
    rw [jumpBlocked, Bool.or_eq_false_iff] at allowed
    rw [freedLane, jumpBlocked, Bool.or_eq_false_iff]
    refine ⟨allowed.1, List.any_eq_false.mpr fun other inFilter => ?_⟩
    exact List.any_eq_false.mp allowed.2 other (List.mem_filter.mp inFilter).1
  have startable : Exists fun older => older ∈ ahead ∧ isFree (freed.lane key) older = true := by
    rcases List.countP_pos_iff.mp some_ahead with ⟨older, olderMember, olderFree⟩
    exact ⟨older, olderMember, (sameFreeAhead older olderMember).trans olderFree⟩
  have picked := pickNext_at_iff waiting stillAllowed isFlagged oldest startable
  rw [noEligibleIn_congr sameFreeAhead,
    sameFree job (split ▸ List.mem_append_right _ List.mem_cons_self)] at picked
  rw [← picked]
  -- Something is picked, and the loop starts just that.
  cases chosen : pickNext (freed.lane key) with
  | none =>
      rcases startable with ⟨older, olderMember, olderFree⟩
      have locked := (pickNext_none_iff _).mp chosen older (waiting ▸ List.mem_append_left _ olderMember)
      exact absurd olderFree (Bool.not_eq_true _ ▸ locked)
  | some pick =>
      rcases pickNext_some chosen with ⟨before, first, after, pickSplit, atIndex, _, _, plain, _⟩
      have next : freed.nextStart key cap = some (pick, first) := by
        have condition : freed.running = true ∧ freed.paused = false ∧ (freed.lane key).active.length < cap :=
          ⟨sameRunning.trans operational.1, samePaused.trans operational.2, by omega⟩
        rw [InMemoryQueue.nextStart, if_pos condition]
        simp only [chosen]
        rw [atIndex, getElem?_of_split pickSplit]
        rfl
      have positive : 0 < (freed.lane key).waiting.length := by
        rw [waiting, List.length_append, List.length_cons]
        omega
      have loop := @drainLoop_single freed key cap later _ pick first next oneSlot positive
      have nodup : ((freed.lane key).waiting.map (·.id)).Nodup := by
        rw [waiting, ← split]
        exact census.waiting_nodup key
      constructor
      · rintro ⟨other, signals, started, otherStep, otherLoop, sameId, _⟩
        rw [stepped] at otherStep
        have sameFreed : freed = other := (Prod.mk.inj (Option.some.inj otherStep)).1
        rw [← sameFreed, loop] at otherLoop
        have sameStarted := List.singleton_inj.mp otherLoop
        rw [← sameStarted] at sameId
        have places := split_unique nodup pickSplit waiting sameId
        exact ⟨pick, rfl, atIndex.trans (congrArg List.length places.1)⟩
      · rintro ⟨other, same, atAhead⟩
        rw [← Option.some.inj same] at atAhead
        have sameAhead := List.append_inj (pickSplit.symm.trans waiting) (atIndex.symm.trans atAhead)
        rcases List.cons.inj sameAhead.2 with ⟨sameJob, _⟩
        have isJump : pick.jumped = true := by
          cases jumps : pick.jumped with
          | true => rfl
          | false =>
              rcases startable with ⟨older, olderMember, olderFree⟩
              exact absurd olderFree (Bool.not_eq_true _ ▸ plain jumps older (sameAhead.1 ▸ olderMember))
        have sameId : first.id = job.id := congrArg InternalJob.id sameJob
        refine ⟨freed, _, _, stepped, loop, sameId, isJump, ?_⟩
        simp only [InMemoryQueue.start, isJump, if_true, startableBefore]
        rw [atAhead, take_of_split waiting]
        exact List.countP_congr fun older olderMember => by rw [sameFreeAhead older olderMember]

inductive PriorityRequest where
  | add (requested : DeploymentJob) (uuid : String) (now : Nat)
  | prioritize (id : Nat) (requester : Option String)

/-- The queue after the request, the job it was about, and the answer. -/
def PriorityRequest.effect (q : InMemoryQueue) : PriorityRequest -> InMemoryQueue × Nat × Option PriorityOutcome
  | .add requested uuid now => ((q.add requested uuid now).queue, (q.add requested uuid now).answer)
  | .prioritize id requester => ((q.prioritize id requester).queue, id, (q.prioritize id requester).answer)

/-- What a request with an answer leaves behind: the lane with the job in its
place, and the assessment the answer came from. -/
structure Requested (q after : InMemoryQueue) (key : String) (ahead behind : List InternalJob)
    (job : InternalJob) (outcome : PriorityOutcome) : Prop where
  switches : after.running = q.running ∧ after.paused = q.paused
  lane : after.lane key = { q.lane key with waiting := ahead ++ job :: behind }
  before : (q.lane key).waiting.take ahead.length = ahead
  assessed : Exists fun othersBehind =>
    outcome = q.assessPriority (q.lane key) ahead.length job.group othersBehind
  flagged : outcome.applied = true -> flagged job.data = true

variable {outcome : PriorityOutcome}

theorem requested_add (census : Census history q)
    {requested : DeploymentJob} {uuid : String} {now : Nat} {ahead behind : List InternalJob}
    (placed : ((q.add requested uuid now).queue.lane key).waiting = ahead ++ job :: behind)
    (asked : job.id = (q.add requested uuid now).answer.1)
    (answered : (q.add requested uuid now).answer.2 = some outcome) :
    Requested q (q.add requested uuid now).queue key ahead behind job outcome := by
  have fresh : job.id = q.seq + 1 := asked
  have notOld : forall lane, job ∉ (q.lane lane).waiting := by
    intro lane member
    have inLane : job.id ∈ q.laneIds lane := List.mem_map_of_mem (List.mem_append_left _ member)
    have bound := (census.drawn (List.mem_append_left _ (Census.live_of_id inLane))).2
    omega
  have switches : (q.add requested uuid now).queue.running = q.running ∧
      (q.add requested uuid now).queue.paused = q.paused := by
    rw [InMemoryQueue.add, InMemoryQueue.schedule_eq]
    exact ⟨rfl, rfl⟩
  have member : job ∈ ((q.add requested uuid now).queue.lane key).waiting :=
    placed ▸ List.mem_append_right _ List.mem_cons_self
  by_cases home : key = getPartition requested
  · subst home
    have lane := congrFun (lane_add q requested uuid now) (getPartition requested)
    rw [Function.update_self] at lane
    have waiting := congrArg Partition.waiting lane
    rw [placed] at waiting
    rcases split_of_snoc waiting.symm with ⟨whole, same, nothing⟩ | ⟨middle, _, old⟩
    · subst nothing
      rw [whole, same] at lane
      have assessed : (if requested.priority = some true then
          some (q.assessPriority (q.lane (getPartition requested)) (q.lane (getPartition requested)).waiting.length
            (getGroup requested) false) else none) = some outcome := answered
      have data : job.data = addedData q requested uuid now := by rw [← same]; rfl
      have group : job.group = getGroup requested := by
        have drawn : job.group = getGroup (addedData q requested uuid now) := by rw [← same]; rfl
        rw [drawn, addedData]
        split <;> rfl
      split at assessed
      · rename_i asksPriority
        refine ⟨switches, lane, ?_, ⟨false, ?_⟩, fun applied => ?_⟩
        · rw [whole, List.take_length]
        · rw [← whole, group]
          exact (Option.some.inj assessed).symm
        · rw [← Option.some.inj assessed] at applied
          have none_reason := (assessPriority_applied applied).2.2.2
          rw [Option.some.inj assessed] at none_reason
          have plainAnswer : (q.add requested uuid now).answer.2.bind (·.reason) ≠ some .nothingWaiting := by
            rw [answered, none_reason]
            intro impossible
            cases impossible
          rw [data, addedData, if_neg plainAnswer, flagged, asksPriority]
          rfl
      · cases assessed
    · exact absurd (old ▸ List.mem_append_right _ List.mem_cons_self) (notOld (getPartition requested))
  · rw [lane_add, Function.update_of_ne home] at member
    exact absurd member (notOld key)

private theorem prioritize_found {id : Nat} {requester : Option String} (answered : (q.prioritize id requester).answer = some outcome) :
    Exists fun lane => Exists fun before => Exists fun found => Exists fun behind => Exists fun data =>
      (q.lane lane).waiting = before ++ found :: behind ∧ found.id = id ∧
        outcome = q.assessPriority (q.lane lane) before.length found.group
          (decide (1 < (q.lane lane).waiting.length)) ∧
        ((q.prioritize id requester).queue = q ∧ data = found.data ∨
          (q.prioritize id requester).queue = q.changeLane lane fun lane =>
            { lane with waiting := lane.waiting.map (setData id data) }) ∧
        (outcome.applied = true -> flagged data = true) := by
  cases search : q.findWaiting id with
  | none =>
      simp only [InMemoryQueue.prioritize, search] at answered
      cases answered
  | some place =>
      rcases place with ⟨lane, index, found⟩
      rcases findWaiting_some search with ⟨before, behind, split, atIndex, sameId, _⟩
      subst atIndex
      have assessed : outcome = q.assessPriority (q.lane lane) before.length found.group
          (decide (1 < (q.lane lane).waiting.length)) := by
        simp only [InMemoryQueue.prioritize, search] at answered
        split at answered
        · exact (Option.some.inj answered).symm
        · split at answered <;> exact (Option.some.inj answered).symm
      by_cases first : before.length = 0
      · refine ⟨lane, before, found, behind, found.data, split, sameId, assessed, Or.inl ⟨?_, rfl⟩, fun applied => ?_⟩
        · simp only [InMemoryQueue.prioritize, search, first, if_true]
        · rw [assessed] at applied
          have counted := (assessPriority_applied applied).2.2.1
          rw [startableBefore, first, List.take_zero, List.countP_nil, Nat.zero_sub] at counted
          cases counted
      · by_cases already : found.data.priority = some true
        · refine ⟨lane, before, found, behind, found.data, split, sameId, assessed, Or.inl ⟨?_, rfl⟩, fun _ => ?_⟩
          · simp only [InMemoryQueue.prioritize, search, if_neg first, if_pos already]
          · rw [flagged, already]
            rfl
        · have assigned : Exists fun data : DeploymentJob => (q.prioritize id requester).queue = (q.changeLane lane fun lane =>
              { lane with waiting := lane.waiting.map (setData id data) }) ∧ data.priority = some true := by
            simp only [InMemoryQueue.prioritize, search, if_neg first, if_neg already]
            exact ⟨_, rfl, by split <;> rfl⟩
          rcases assigned with ⟨data, sets, nowFlagged⟩
          refine ⟨lane, before, found, behind, data, split, sameId, assessed, Or.inr sets, fun _ => ?_⟩
          rw [flagged, nowFlagged]
          rfl

theorem requested_prioritize (census : Census history q)
    {id : Nat} {requester : Option String} {ahead behind : List InternalJob}
    (placed : ((q.prioritize id requester).queue.lane key).waiting = ahead ++ job :: behind)
    (asked : job.id = id) (answered : (q.prioritize id requester).answer = some outcome) :
    Requested q (q.prioritize id requester).queue key ahead behind job outcome := by
  rcases prioritize_found answered with
    ⟨lane, before, found, after, data, split, sameId, assessed, effect, isFlagged⟩
  have foundMember : found ∈ (q.lane lane).waiting := split ▸ List.mem_append_right _ List.mem_cons_self
  have switches : (q.prioritize id requester).queue.running = q.running ∧
      (q.prioritize id requester).queue.paused = q.paused := by
    rcases effect with ⟨unchanged, _⟩ | changed
    · rw [unchanged]
      exact ⟨rfl, rfl⟩
    · rw [changed]
      exact ⟨rfl, rfl⟩
  -- In both cases the lane is the old one with the found job's payload replaced.
  have lanes : (q.prioritize id requester).queue.lane = Function.update q.lane lane
      { q.lane lane with waiting := before ++ { found with data := data } :: after } := by
    rcases effect with ⟨unchanged, sameData⟩ | changed
    · rw [unchanged, sameData]
      have same : ({ q.lane lane with waiting := before ++ found :: after } : Partition) = q.lane lane := by
        rw [← split]
      exact ((congrArg (Function.update q.lane lane) same).trans (Function.update_eq_self lane q.lane)).symm
    · have mapped := map_other_of_split (fun job : InternalJob => { job with data := data })
        (census.waiting_nodup lane) split
      rw [changed, InMemoryQueue.lane_changeLane _ _ _ (InMemoryQueue.key_of_waiting foundMember), ← mapped,
        ← sameId]
      rfl
  have home : key = lane := by
    by_contra different
    have member : job ∈ (q.lane key).waiting := by
      rw [lanes, Function.update_of_ne different] at placed
      exact placed ▸ List.mem_append_right _ List.mem_cons_self
    have here : job.id ∈ q.laneIds key := List.mem_map_of_mem (List.mem_append_left _ member)
    have there : job.id ∈ q.laneIds lane := by
      rw [asked, ← sameId]
      exact List.mem_map_of_mem (List.mem_append_left _ foundMember)
    exact different (census.lane_unique here there)
  subst home
  have whole := congrFun lanes key
  rw [Function.update_self] at whole
  have waiting := congrArg Partition.waiting whole
  rw [placed] at waiting
  have nodup : ((ahead ++ job :: behind).map (·.id)).Nodup := by
    have old := census.waiting_nodup key
    rw [split, List.map_append, List.map_cons] at old
    rw [waiting, List.map_append, List.map_cons]
    exact old
  have places := split_unique nodup rfl waiting (asked.trans sameId.symm)
  rcases places with ⟨sameAhead, sameJob, sameBehind⟩
  subst sameAhead sameJob sameBehind
  exact ⟨switches, whole, take_of_split split, ⟨_, assessed⟩, isFlagged⟩

/-- On a full lane an answer `applied` foretells the pick exactly when the
service of the job does not run and nothing ahead of it is eligible itself.  An
answer `first-in-line` is right in any case. -/
theorem priority_answer_predicts {history : List Signal} {q : InMemoryQueue}
    (run : queueMachine.Reaches history q) {key : String} {cap : Nat} (full : FullLane q key cap)
    (request : PriorityRequest) {job : InternalJob} {ahead behind : List InternalJob} {outcome : PriorityOutcome}
    (placed : ((request.effect q).1.lane key).waiting = ahead ++ job :: behind)
    (asked : job.id = (request.effect q).2.1) (answered : (request.effect q).2.2 = some outcome) :
    (outcome.applied = true -> forall finished, finished ∈ ((request.effect q).1.lane key).active ->
      (forall waiting, waiting ∈ ((request.effect q).1.lane key).waiting -> waiting.group ≠ finished.group) ->
      forall now later,
        (PredictionHolds (request.effect q).1 key cap finished now later job.id outcome.wentAheadOf <->
          job.group ∉ (q.lane key).activeGroups ∧ NoEligibleIn (q.lane key) ahead)) ∧
    (outcome.applied = false -> outcome.reason = some .firstInLine ->
      forall older, older ∈ ahead -> older.group ∈ (q.lane key).activeGroups) := by
  have census := census_of_run run
  have after : Exists fun output => queueMachine.Reaches (history ++ output) (request.effect q).1 := by
    cases request with
    | add requested uuid now => exact ⟨_, @Machine.Run.next _ _ _ _ _ _ _ _ _ (.add requested uuid now) run trivial rfl⟩
    | prioritize id requester => exact ⟨_, @Machine.Run.next _ _ _ _ _ _ _ _ _ (.prioritize id requester) run trivial rfl⟩
  have requested : Requested q (request.effect q).1 key ahead behind job outcome := by
    cases request with
    | add requested uuid now => exact requested_add census placed asked answered
    | prioritize id requester => exact requested_prioritize census placed asked answered
  rcases after with ⟨output, runAfter⟩
  rcases requested.assessed with ⟨othersBehind, assessed⟩
  have counted : startableBefore (q.lane key) ahead.length = ahead.countP (isFree (q.lane key)) := by
    rw [startableBefore, requested.before]
  constructor
  · intro applied finished member apart now later
    rw [assessed] at applied
    rcases assessPriority_applied applied with ⟨noOlder, allowed, positive, answer⟩
    rw [full.freeSlots, Nat.sub_zero, counted] at positive answer
    have oldest : forall older, older ∈ ahead -> older.group ≠ job.group := by
      intro older inAhead same
      rw [hasOlderOfGroup, requested.before] at noOlder
      exact List.any_eq_false.mp noOlder older inAhead (beq_iff_eq.mpr same)
    have afterLane := requested.lane
    have sameFree : isFree ((request.effect q).1.lane key) = isFree (q.lane key) := by
      rw [afterLane]
      rfl
    have sameActive : ((request.effect q).1.lane key).active = (q.lane key).active := by rw [afterLane]
    have sameBlocked : jumpBlocked ((request.effect q).1.lane key) = false := by
      rw [afterLane]
      exact allowed
    have iff := predictionHolds_iff (placed_of_run runAfter) (census_of_run runAfter)
      ⟨requested.switches.1.trans full.operational.1, requested.switches.2.trans full.operational.2.1⟩
      ((congrArg List.length sameActive).trans full.full) placed sameBlocked
      (requested.flagged (assessed ▸ applied)) oldest (by rw [sameFree]; exact positive) member apart now later
    rw [sameFree] at iff
    rw [assessed, answer]
    refine iff.trans (and_congr ?_ ?_)
    · rw [isFree, decide_eq_true_iff]
    · exact noEligibleIn_congr fun other _ => congrFun sameFree other
  · intro _ reason older inAhead
    rw [assessed] at reason
    have nothing := assessPriority_first reason
    rw [full.freeSlots, counted, Nat.le_zero, List.countP_eq_zero] at nothing
    have locked := nothing older inAhead
    rw [isFree, decide_eq_true_iff, not_not] at locked
    exact locked

/-- A lane with one active job, one waiting job of another service and a
flagged request of a third. -/
theorem priority_answer_predicts_jump :
    let q := (queueMachine.outcome (fun _ _ => true)
      [.process, .add (plainDeploy "a" none) "u1" 1, .concurrencyResolved 0 1, .drainTurn 0 2, .drainTurn 0 3,
        .add (plainDeploy "b" none) "u2" 4]).1
    let request := PriorityRequest.add { plainDeploy "c" none with priority := some true } "u3" 5
    forall finished, finished ∈ ((request.effect q).1.lane LOCAL_PARTITION).active -> forall now later,
      PredictionHolds (request.effect q).1 LOCAL_PARTITION 1 finished now later 3 1 := by
  intro q request finished member now later
  let waiting := ((request.effect q).1.lane LOCAL_PARTITION).waiting
  let job := waiting.get ⟨1, by decide⟩
  have apart : forall finished, finished ∈ ((request.effect q).1.lane LOCAL_PARTITION).active ->
      forall job, job ∈ waiting -> job.group ≠ finished.group := by decide
  have predicted := priority_answer_predicts
    (Machine.run_of_executes (fun _ _ _ => trivial) (by decide) : queueMachine.Reaches _ q)
    (⟨⟨rfl, rfl, rfl⟩, rfl, rfl⟩ : FullLane q LOCAL_PARTITION 1) request
    (by decide : waiting = waiting.take 1 ++ job :: []) (by decide)
    (by decide : (request.effect q).2.2 = some ⟨true, true, 1, none⟩)
  refine (predicted.1 rfl finished member (apart finished member) now later).mpr ⟨by decide, ?_⟩
  intro before other after split eligible
  have unflagged : forall job, job ∈ waiting.take 1 -> flagged job.data = false := by decide
  have isFlagged := eligible.1
  rw [unflagged other (split ▸ List.mem_append_right _ List.mem_cons_self)] at isFlagged
  cases isFlagged

/-- Two flagged requests wait behind a third service's deploy.  The second is
told that it will go ahead of both, but the first is picked. -/
theorem priority_answer_mispredicts :
    ¬ forall history q, queueMachine.Reaches history q -> forall key cap, FullLane q key cap ->
      forall (request : PriorityRequest) job ahead behind outcome,
        ((request.effect q).1.lane key).waiting = ahead ++ job :: behind ->
        job.id = (request.effect q).2.1 -> (request.effect q).2.2 = some outcome -> outcome.applied = true ->
        forall finished, finished ∈ ((request.effect q).1.lane key).active ->
          (forall waiting, waiting ∈ ((request.effect q).1.lane key).waiting -> waiting.group ≠ finished.group) ->
          forall now later,
            PredictionHolds (request.effect q).1 key cap finished now later job.id outcome.wentAheadOf := by
  intro claimed
  let q := (queueMachine.outcome (fun _ _ => true)
    [.process, .add (plainDeploy "a" none) "u1" 1, .concurrencyResolved 0 1, .drainTurn 0 2, .drainTurn 0 3,
      .add (plainDeploy "b" none) "u2" 4,
      .add { plainDeploy "c" none with priority := some true } "u3" 5]).1
  let request := PriorityRequest.add { plainDeploy "d" none with priority := some true } "u4" 6
  let after := (request.effect q).1
  let waiting := (after.lane LOCAL_PARTITION).waiting
  let job := waiting.get ⟨2, by decide⟩
  let finished := (after.lane LOCAL_PARTITION).active.get ⟨0, by decide⟩
  have full : FullLane q LOCAL_PARTITION 1 := ⟨⟨by decide, by decide, by decide⟩, by decide, by decide⟩
  have placed : waiting = waiting.take 2 ++ job :: [] := by decide
  have asked : job.id = (request.effect q).2.1 := by decide
  have answered : (request.effect q).2.2 = some ⟨true, true, 2, none⟩ := by decide
  have apart : forall other, other ∈ waiting -> other.group ≠ finished.group := by decide
  have predicted := claimed _ q (Machine.run_of_executes (fun _ _ _ => trivial) (by decide)) LOCAL_PARTITION 1
    full request job (waiting.take 2) [] ⟨true, true, 2, none⟩ placed asked answered rfl finished
    (List.get_mem _ _) apart 7 8
  rcases predicted with ⟨freed, signals, started, stepped, loop, sameId, _⟩
  have startedIds : (step after (.processorEnded finished.id (.returned none) 7)).map (fun result =>
      (result.1.drainLoop LOCAL_PARTITION 1 8 (result.1.lane LOCAL_PARTITION).waiting.length).2.map (·.id)) =
      some [3] := by decide
  rw [stepped, Option.map_some, loop, List.map_singleton, sameId] at startedIds
  have different : some [job.id] ≠ some [3] := by decide
  exact different startedIds

end DeployQueue
end Dokploy
