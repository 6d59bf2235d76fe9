import Dokploy.DeployQueue.Starts

namespace Dokploy
namespace DeployQueue

open Foundation

/-!
# Capacity and wakeups

A drain reads its concurrency first and the lane afterwards, so many drains of
one lane may be in flight and each starts jobs by its own cap.  When none is in
flight any more, nothing startable may be left behind: every change that frees
a slot or a lock, or makes jobs startable at all, puts a drain in flight.
-/

/-- The last drain of the lane that ended had this cap. -/
def LastCap (history : List Signal) (key : String) (cap : Nat) : Prop :=
  Exists fun before => Exists fun sawEmpty => Exists fun since =>
    history = before ++ .drainEnded key cap sawEmpty :: since ∧
      forall other empty, Signal.drainEnded key other empty ∉ since

theorem LastCap.append {history output : List Signal} {key : String} {cap : Nat}
    (last : LastCap history key cap) (noEnd : forall other empty, Signal.drainEnded key other empty ∉ output) :
    LastCap (history ++ output) key cap := by
  rcases last with ⟨before, sawEmpty, since, split, none_since⟩
  refine ⟨before, sawEmpty, since ++ output, ?_, fun other empty member => ?_⟩
  · rw [split, List.append_assoc, List.cons_append]
  · rcases List.mem_append.mp member with earlier | now
    · exact none_since other empty earlier
    · exact noEnd other empty now

/-- Nothing in the lane can start under the cap of its last drain. -/
def Settled (history : List Signal) (q : InMemoryQueue) (key : String) : Prop :=
  (Exists fun cap => LastCap history key cap ∧ cap ≤ (q.lane key).active.length) ∨
    forall job, job ∈ (q.lane key).waiting -> job.group ∈ (q.lane key).activeGroups

def NoDrain (q : InMemoryQueue) (key : String) : Prop :=
  forall drain, drain ∈ q.pendingDrains -> drain.key ≠ key

/-- A lane of a working queue without a drain in flight is settled, unless a
concurrency of the lane could not be resolved. -/
def Awake (history : List Signal) (q : InMemoryQueue) (key : String) : Prop :=
  Signal.rejected key ∉ history -> Operational q -> NoDrain q key -> Settled history q key

variable {key : String} {history : List Signal} {q : InMemoryQueue}

theorem settled_of_missing
    (missing : key ∉ q.partitions.keys) : Settled history q key :=
  Or.inr fun _ member => absurd (InMemoryQueue.key_of_waiting member) missing

theorem drained_of_operational (registered : q.processor = true)
    (present : key ∈ q.partitions.keys) : (⟨key, none⟩ : PendingDrain) ∈ q.drained key := by
  rw [InMemoryQueue.drained, if_pos ⟨present, registered⟩]
  exact List.mem_singleton_self _

variable {output : List Signal}

private theorem Settled.still {after : InMemoryQueue}
    (settled : Settled history q key)
    (noEnd : forall other empty, Signal.drainEnded key other empty ∉ output)
    (active : (q.lane key).active.length ≤ (after.lane key).active.length)
    (waiting : forall job, job ∈ (after.lane key).waiting ->
      Exists fun old => old ∈ (q.lane key).waiting ∧ old.group = job.group)
    (locks : (q.lane key).activeGroups ⊆ (after.lane key).activeGroups) :
    Settled (history ++ output) after key := by
  rcases settled with ⟨cap, last, full⟩ | locked
  · exact Or.inl ⟨cap, last.append noEnd, full.trans active⟩
  · refine Or.inr fun job member => ?_
    rcases waiting job member with ⟨old, oldMember, same⟩
    exact locks (same ▸ locked old oldMember)

private theorem Awake.still {after : InMemoryQueue}
    (awake : Awake history q key)
    (noEnd : forall other empty, Signal.drainEnded key other empty ∉ output)
    (operational : Operational after -> Operational q)
    (drains : NoDrain after key -> NoDrain q key)
    (active : (q.lane key).active.length ≤ (after.lane key).active.length)
    (waiting : forall job, job ∈ (after.lane key).waiting ->
      Exists fun old => old ∈ (q.lane key).waiting ∧ old.group = job.group)
    (locks : (q.lane key).activeGroups ⊆ (after.lane key).activeGroups) :
    Awake (history ++ output) after key := by
  intro resolves working idle
  have earlier : Signal.rejected key ∉ history := fun member => resolves (List.mem_append_left _ member)
  exact (awake earlier (operational working) (drains idle)).still noEnd active waiting locks

private theorem Awake.same {after : InMemoryQueue}
    (awake : Awake history q key) (lane : after.lane key = q.lane key)
    (noEnd : forall other empty, Signal.drainEnded key other empty ∉ output)
    (operational : Operational after -> Operational q)
    (drains : NoDrain after key -> NoDrain q key) : Awake (history ++ output) after key := by
  refine awake.still noEnd operational drains ?_ ?_ ?_
  · rw [lane]
  · intro job member
    rw [lane] at member
    exact ⟨job, member, rfl⟩
  · rw [lane]

private theorem awake_of_drain {after : InMemoryQueue}
    (present : key ∈ q.partitions.keys) (registered : after.processor = q.processor)
    (pending : after.pendingDrains = q.pendingDrains ++ q.drained key) : Awake history after key := by
  intro _ working idle
  refine absurd rfl (idle ⟨key, none⟩ ?_)
  rw [pending]
  exact List.mem_append_right _ (drained_of_operational (registered ▸ working.2.2) present)

private theorem noDrain_of_append {after : InMemoryQueue} {more : List PendingDrain}
    (pending : after.pendingDrains = q.pendingDrains ++ more) (idle : NoDrain after key) : NoDrain q key :=
  fun drain member => idle drain (pending ▸ List.mem_append_left _ member)

private theorem noDrain_of_erase {after : InMemoryQueue} {lane : String} {index : Nat}
    {answer : Option Int} (found : q.pendingDrains[index]? = some ⟨lane, answer⟩) (different : key ≠ lane)
    (pending : after.pendingDrains = q.pendingDrains.eraseIdx index) (idle : NoDrain after key) :
    NoDrain q key := by
  rcases split_of_getElem? found with ⟨split, atIndex⟩
  generalize q.pendingDrains.take index = before at split atIndex
  generalize q.pendingDrains.drop (index + 1) = behind at split
  have left : after.pendingDrains = before ++ behind := by
    rw [pending, ← atIndex]
    exact eraseIdx_of_split split
  intro drain member
  rw [split] at member
  rcases List.mem_append.mp member with ahead | later
  · exact idle drain (left ▸ List.mem_append_left _ ahead)
  · rcases List.mem_cons.mp later with same | behindIt
    · rw [same]
      exact different.symm
    · exact idle drain (left ▸ List.mem_append_right _ behindIt)

private theorem noDrain_of_set {after : InMemoryQueue} {lane : String} {index : Nat}
    {answer : Int} (found : q.pendingDrains[index]? = some ⟨lane, none⟩)
    (pending : after.pendingDrains = q.pendingDrains.set index ⟨lane, some answer⟩)
    (idle : NoDrain after key) : NoDrain q key := by
  rcases split_of_getElem? found with ⟨split, atIndex⟩
  generalize q.pendingDrains.take index = before at split atIndex
  generalize q.pendingDrains.drop (index + 1) = behind at split
  have changed : after.pendingDrains = before ++ ⟨lane, some answer⟩ :: behind := by
    rw [pending, ← atIndex]
    exact set_of_split split
  intro drain member
  rw [split] at member
  rcases List.mem_append.mp member with ahead | later
  · exact idle drain (changed ▸ List.mem_append_left _ ahead)
  · rcases List.mem_cons.mp later with same | behindIt
    · rw [same]
      exact idle ⟨lane, some answer⟩ (changed ▸ List.mem_append_right _ List.mem_cons_self)
    · exact idle drain (changed ▸ List.mem_append_right _ (List.mem_cons_of_mem _ behindIt))

theorem Awake.change {after : InMemoryQueue}
    (awake : forall key, Awake history q key) (change : Change q output after) (key : String) :
    Awake (history ++ output) after key := by
  have silent : forall cap empty, Signal.drainEnded key cap empty ∉ ([] : List Signal) :=
    fun _ _ member => by cases member
  cases change with
  | control frame fresh standing scheduled =>
      have lanes : after.lane = q.lane := by rw [frame]; rfl
      intro resolves working idle
      rcases scheduled working with before | all
      · refine (awake key).same (by rw [lanes]) silent (fun _ => before)
          (noDrain_of_append (by rw [frame])) resolves working idle
      · by_cases present : key ∈ q.partitions.keys
        · refine absurd rfl (idle ⟨key, none⟩ ?_)
          rw [frame]
          exact List.mem_append_right _ (all key present)
        · refine settled_of_missing ?_
          rw [frame]
          exact present
  | created lane => exact (awake key).same rfl silent id id
  | @entered _ added front extra new placed announced lanes keys frame =>
      have noEnd : forall cap empty, Signal.drainEnded key cap empty ∉ added.map .accepted ++ extra := by
        intro cap empty member
        rcases mem_entered announced member with ⟨_, impossible⟩ | ⟨_, _, impossible⟩ <;> cases impossible
      by_cases nothing : added = []
      · refine (awake key).still noEnd (fun working => by rw [frame] at working; exact working)
          (noDrain_of_append (by rw [frame])) (by rw [lanes]) ?_ (by rw [lanes])
        intro job member
        rw [lanes, nothing] at member
        cases front <;> simp only [List.filter_nil, List.nil_append, List.append_nil, if_true,
          Bool.false_eq_true, if_false] at member <;> exact ⟨job, member, rfl⟩
      · intro _ working idle
        by_cases present : key ∈ after.partitions.keys
        · refine absurd rfl (idle ⟨key, none⟩ ?_)
          rw [frame]
          dsimp only
          rw [if_neg nothing, scheduled_of_operational working]
          exact List.mem_append_right _ (List.mem_map_of_mem present)
        · exact settled_of_missing present
  | dropped visits visited sublist perm reported lanes keys frame =>
      refine (awake key).still ?_ (fun working => by rw [frame] at working; exact working)
        (fun idle => by rw [frame] at idle; exact idle) (by rw [lanes]) ?_ (by rw [lanes])
      · intro cap empty member
        rcases mem_dropped reported member with ⟨_, impossible⟩ | ⟨_, impossible⟩ <;> cases impossible
      · intro job member
        rw [lanes] at member
        exact ⟨job, (sublist key).subset member, rfl⟩
  | @rewritten _ lane job data member lanes keys frame =>
      refine (awake key).still (by simp) (fun working => by rw [frame] at working; exact working)
        (fun idle => by rw [frame] at idle; exact idle)
        (Nat.le_of_eq (read_of_update (fun lane => lane.active.length) lanes rfl key).symm) ?_
        (read_of_update Partition.activeGroups lanes rfl key ▸ Finset.Subset.refl _)
      intro changed inAfter
      by_cases here : key = lane
      · subst here
        rw [lanes, Function.update_self] at inAfter
        rcases List.mem_map.mp inAfter with ⟨old, oldMember, same⟩
        exact ⟨old, oldMember, by rw [← same, setData_group]⟩
      · rw [lanes, Function.update_of_ne here] at inAfter
        exact ⟨changed, inAfter, rfl⟩
  | @started _ lane start lanes keys frame =>
      by_cases here : key = lane
      · subst here
        intro _ _ idle
        rw [frame] at idle
        exact absurd rfl (idle _ start.drain)
      · exact (awake key).same (by rw [lanes, Function.update_of_ne here]) (by simp)
          (fun working => by rw [frame] at working; exact working) (fun idle => by rw [frame] at idle; exact idle)
  | @released _ lane found job keepGroupLock member home marked lanes keys frame =>
      by_cases here : key = lane
      · subst here
        exact awake_of_drain (InMemoryQueue.key_of_active member) (by rw [frame]) (by rw [frame])
      · exact (awake key).same (by rw [lanes, Function.update_of_ne here]) (by simp)
          (fun working => by rw [frame] at working; exact working) (noDrain_of_append (by rw [frame]))
  | @lockDropped _ job member kept present lanes keys frame =>
      by_cases here : key = job.partition
      · subst here
        exact awake_of_drain present (by rw [frame]) (by rw [frame])
      · exact (awake key).same (by rw [lanes, Function.update_of_ne here]) silent
          (fun working => by rw [frame] at working; exact working) (noDrain_of_append (by rw [frame]))
  | returnedLate member lockFree frame =>
      have lanes : after.lane = q.lane := by rw [frame]; rfl
      exact (awake key).same (by rw [lanes]) silent (fun working => by rw [frame] at working; exact working)
        (fun idle => by rw [frame] at idle; exact idle)
  | @ended _ lane found job outcome member home marked lanes keys frame =>
      by_cases here : key = lane
      · subst here
        exact awake_of_drain (InMemoryQueue.key_of_active member) (by rw [frame]) (by rw [frame])
      · exact (awake key).same (by rw [lanes, Function.update_of_ne here]) (by simp)
          (fun working => by rw [frame] at working; exact working) (noDrain_of_append (by rw [frame]))
  | @held _ lane group unheld unlocked present lanes keys frame =>
      refine (awake key).still (by simp) (fun working => by rw [frame] at working; exact working)
        (fun idle => by rw [frame] at idle; exact idle)
        (Nat.le_of_eq (read_of_update (fun lane => lane.active.length) lanes rfl key).symm) ?_ ?_
      · intro job member
        rw [read_of_update Partition.waiting lanes rfl key] at member
        exact ⟨job, member, rfl⟩
      · by_cases here : key = lane
        · subst here
          rw [lanes, Function.update_self]
          exact Finset.subset_insert group _
        · rw [lanes, Function.update_of_ne here]
  | @unheld _ index hold found live present lanes keys frame =>
      by_cases here : key = hold.key
      · subst here
        exact awake_of_drain present (by rw [frame]) (by rw [frame])
      · exact (awake key).same (by rw [lanes, Function.update_of_ne here]) (by simp)
          (fun working => by rw [frame] at working; exact working) (noDrain_of_append (by rw [frame]))
  | @resolved _ index lane answer found lanes keys frame =>
      refine (awake key).still (by simp) (fun working => by rw [frame] at working; exact working)
        (noDrain_of_set found (by rw [frame]))
        (Nat.le_of_eq (read_of_update (fun lane => lane.active.length) lanes rfl key).symm) ?_
        (read_of_update Partition.activeGroups lanes rfl key ▸ Finset.Subset.refl _)
      intro job member
      rw [read_of_update Partition.waiting lanes rfl key] at member
      exact ⟨job, member, rfl⟩
  | @rejected _ index lane found frame =>
      have lanes : after.lane = q.lane := by rw [frame]; rfl
      by_cases here : key = lane
      · subst here
        intro resolves
        exact absurd (List.mem_append_right _ (List.mem_singleton_self _)) resolves
      · exact (awake key).same (by rw [lanes]) (by simp)
          (fun working => by rw [frame] at working; exact working) (noDrain_of_erase found here (by rw [frame]))
  | @drainEnded _ index lane answer found stopped lanes keys frame =>
      by_cases here : key = lane
      · subst here
        intro _ working _
        have active := read_of_update Partition.active lanes rfl key
        have waiting := read_of_update Partition.waiting lanes rfl key
        have groups := read_of_update Partition.activeGroups lanes rfl key
        rcases stopped with halted | full | locked
        · rw [frame] at working
          exact absurd ⟨working.1, working.2.1⟩ halted
        · refine Or.inl ⟨capOf answer, ⟨history, _, [], rfl, fun _ _ member => by cases member⟩, ?_⟩
          rw [active]
          exact full
        · refine Or.inr fun job member => ?_
          rw [waiting] at member
          rw [groups]
          exact locked job member
      · refine (awake key).same (by rw [lanes, Function.update_of_ne here]) ?_
          (fun working => by rw [frame] at working; exact working) (noDrain_of_erase found here (by rw [frame]))
        intro cap empty member
        cases List.mem_singleton.mp member
        exact here rfl
  | waiters woken frame =>
      have lanes : after.lane = q.lane := by rw [frame]; rfl
      refine (awake key).same (by rw [lanes]) ?_ (fun working => by rw [frame] at working; exact working)
        (fun idle => by rw [frame] at idle; exact idle)
      intro cap empty member
      rcases woken _ member with ⟨_, impossible⟩
      cases impossible

/-- Drains act on an answer they were given, and no lane has more active jobs
than the largest of its answers allows. -/
structure WithinCapacity (history : List Signal) (q : InMemoryQueue) : Prop where
  answered : forall drain, drain ∈ q.pendingDrains -> forall answer, drain.answer = some answer ->
    Signal.resolved drain.key answer ∈ history
  bounded : forall key bound, (forall answer, Signal.resolved key answer ∈ history -> capOf answer ≤ bound) ->
    (q.lane key).active.length ≤ bound

theorem withinCapacity_new : WithinCapacity [] InMemoryQueue.new where
  answered := fun _ member => by cases member
  bounded := fun _ _ _ => Nat.zero_le _

theorem drained_answer {drain : PendingDrain}
    (member : drain ∈ q.drained key) : drain.answer = none := by
  unfold InMemoryQueue.drained at member
  split at member
  · rw [List.mem_singleton.mp member]
  · cases member

private theorem answered_append {drains more : List PendingDrain}
    (answered : forall drain, drain ∈ drains -> forall answer, drain.answer = some answer ->
      Signal.resolved drain.key answer ∈ history)
    (fresh : forall drain, drain ∈ more -> drain.answer = none) :
    forall drain, drain ∈ drains ++ more -> forall answer, drain.answer = some answer ->
      Signal.resolved drain.key answer ∈ history ++ output := by
  intro drain member answer given
  rcases List.mem_append.mp member with old | new
  · exact List.mem_append_left _ (answered drain old answer given)
  · rw [fresh drain new] at given
    cases given

theorem answered_of_change {after : InMemoryQueue}
    (answered : forall drain, drain ∈ q.pendingDrains -> forall answer, drain.answer = some answer ->
      Signal.resolved drain.key answer ∈ history)
    (change : Change q output after) :
    forall drain, drain ∈ after.pendingDrains -> forall answer, drain.answer = some answer ->
      Signal.resolved drain.key answer ∈ history ++ output := by
  have kept : forall drains : List PendingDrain, (forall drain, drain ∈ drains -> drain ∈ q.pendingDrains) ->
      forall drain, drain ∈ drains -> forall answer, drain.answer = some answer ->
        Signal.resolved drain.key answer ∈ history ++ output :=
    fun drains inside drain member answer given =>
      List.mem_append_left _ (answered drain (inside drain member) answer given)
  cases change with
  | control frame fresh standing scheduled =>
      rw [frame]
      exact answered_append answered fresh
  | created key => exact kept _ fun _ member => member
  | @entered _ added front extra new placed announced lanes keys frame =>
      rw [frame]
      refine answered_append answered fun drain member => ?_
      split at member
      · cases member
      · exact scheduled_answer member
  | @released _ lane found job keepGroupLock member home marked lanes keys frame =>
      rw [frame]
      exact answered_append answered fun _ member => drained_answer member
  | lockDropped member kept present lanes keys frame =>
      rw [frame]
      exact answered_append answered fun _ member => drained_answer member
  | @ended _ lane found job outcome member home marked lanes keys frame =>
      rw [frame]
      exact answered_append answered fun _ member => drained_answer member
  | unheld found live present lanes keys frame =>
      rw [frame]
      exact answered_append answered fun _ member => drained_answer member
  | @resolved _ index lane answer found lanes keys frame =>
      rw [frame]
      intro drain member given same
      rcases List.mem_or_eq_of_mem_set member with old | new
      · exact List.mem_append_left _ (answered drain old given same)
      · rw [new] at same
        rw [new, ← Option.some.inj same]
        exact List.mem_append_right _ (List.mem_singleton_self _)
  | rejected found frame =>
      rw [frame]
      exact kept _ fun _ member => List.mem_of_mem_eraseIdx member
  | drainEnded found stopped lanes keys frame =>
      rw [frame]
      exact kept _ fun _ member => List.mem_of_mem_eraseIdx member
  | _ =>
      rename_i frame
      rw [frame]
      exact kept _ fun _ member => member

theorem active_length_of_quiet {after : InMemoryQueue}
    (change : Change q output after) (quiet : startedOf output = []) (key : String) :
    (after.lane key).active.length ≤ (q.lane key).active.length := by
  have same : forall {lane : String} {changed : Partition},
      after.lane = Function.update q.lane lane changed ->
      changed.active.length ≤ (q.lane lane).active.length ->
      (after.lane key).active.length ≤ (q.lane key).active.length := fun lanes here =>
    @every_lane_of_update (fun key changed => changed.active.length ≤ (q.lane key).active.length)
      _ _ _ _ lanes here (fun _ => Nat.le_refl _) key
  cases change with
  | control frame fresh standing scheduled =>
      have lanes : after.lane = q.lane := by rw [frame]; rfl
      rw [lanes]
  | created lane => exact Nat.le_refl _
  | entered new placed announced lanes keys frame => rw [lanes]
  | dropped visits visited sublist perm reported lanes keys frame => rw [lanes]
  | started start lanes keys frame => cases quiet
  | @released _ lane found job keepGroupLock member home marked lanes keys frame =>
      exact same lanes (List.length_filter_le _ _)
  | returnedLate member lockFree frame =>
      have lanes : after.lane = q.lane := by rw [frame]; rfl
      rw [lanes]
  | @ended _ lane found job outcome member home marked lanes keys frame =>
      exact same lanes (List.length_filter_le _ _)
  | rejected found frame =>
      have lanes : after.lane = q.lane := by rw [frame]; rfl
      rw [lanes]
  | waiters woken frame =>
      have lanes : after.lane = q.lane := by rw [frame]; rfl
      rw [lanes]
  | _ =>
      rename_i lanes keys frame
      exact same lanes (Nat.le_refl _)

theorem WithinCapacity.change {after : InMemoryQueue}
    (within : WithinCapacity history q) (change : Change q output after) :
    WithinCapacity (history ++ output) after where
  answered := answered_of_change within.answered change
  bounded := by
    intro key bound largest
    have earlier : (q.lane key).active.length ≤ bound :=
      within.bounded key bound fun answer member => largest answer (List.mem_append_left _ member)
    rcases quiet_or_start change with quiet | ⟨lane, start, same, lanes, _⟩
    · exact (active_length_of_quiet change quiet key).trans earlier
    · by_cases here : key = lane
      · subst here
        have cap := largest start.answer
          (List.mem_append_left _ (within.answered _ start.drain start.answer rfl))
        rw [lanes, Function.update_self, Start.lane, List.length_append]
        exact start.room.trans_le cap
      · rw [lanes, Function.update_of_ne here]
        exact earlier

/-- Each start respects the cap of its own drain, a constant answer bounds the
active jobs, and a working lane without a drain in flight has no free slot for
any job that could start. -/
theorem capacity_and_wakeup {history : List Signal} {q : InMemoryQueue}
    (run : queueMachine.Reaches history q) :
    (forall event after output key job, step q event = some (after, output) ->
      Signal.started key job ∈ output -> Exists fun index => Exists fun now => Exists fun answer =>
        event = .drainTurn index now ∧ q.pendingDrains[index]? = some ⟨key, some answer⟩ ∧
          Signal.resolved key answer ∈ history ∧ (q.lane key).active.length < (max 1 answer).toNat) ∧
    (forall key constant, (forall answer, Signal.resolved key answer ∈ history -> answer = constant) ->
      (q.lane key).active.length ≤ (max 1 constant).toNat) ∧
    forall key, Signal.rejected key ∉ history -> q.processor = true -> q.running = true ->
      q.paused = false -> (forall drain, drain ∈ q.pendingDrains -> drain.key ≠ key) ->
      (Exists fun cap => LastCap history key cap ∧ cap ≤ (q.lane key).active.length) ∨
        forall job, job ∈ (q.lane key).waiting -> job.group ∈ (q.lane key).activeGroups := by
  have within : WithinCapacity history q :=
    (queue_invariant WithinCapacity withinCapacity_new (fun _ _ _ _ _ within change => within.change change) run).2
  have awake : forall key, Awake history q key :=
    (queue_invariant (fun history q => forall key, Awake history q key)
      (fun _ _ _ _ => Or.inr fun _ member => by cases member)
      (fun _ _ _ _ _ awake change => Awake.change awake change) run).2
  refine ⟨?_, fun key constant only => ?_, fun key resolves registered running notPaused idle => ?_⟩
  · intro event after output key job stepped member
    rcases step_turn_or_quiet (placed_of_run run) stepped with
      ⟨index, now, lane, answer, same, found, _, own⟩ | ⟨quiet, _⟩
    · rcases own key job member with ⟨here, room⟩
      subst here
      exact ⟨index, now, answer, same, found, within.answered _ (List.mem_of_getElem? found) answer rfl, room⟩
    · exact absurd member (not_started_of_nil quiet key job)
  · refine within.bounded key _ fun answer member => ?_
    rw [only answer member]
    exact Nat.le_refl _
  · exact awake key resolves ⟨running, notPaused, registered⟩ idle

/-- Two drains of one lane with a free slot, after which one job runs and its
service's second job waits behind the lock. -/
theorem capacity_and_wakeup_drained :
    let outcome := queueMachine.outcome (fun _ _ => true)
      [.process, .add (plainDeploy "a" none) "u1" 1, .add (plainDeploy "a" none) "u2" 2,
        .concurrencyResolved 0 2, .concurrencyResolved 1 2, .drainTurn 0 3, .drainTurn 1 4, .drainTurn 0 5]
    ((outcome.1.lane LOCAL_PARTITION).waiting.map (·.id) = [2] ∧
      (outcome.1.lane LOCAL_PARTITION).active.length ≤ (max 1 (2 : Int)).toNat) ∧
    ((Exists fun cap => LastCap outcome.2 LOCAL_PARTITION cap ∧
        cap ≤ (outcome.1.lane LOCAL_PARTITION).active.length) ∨
      forall job, job ∈ (outcome.1.lane LOCAL_PARTITION).waiting ->
        job.group ∈ (outcome.1.lane LOCAL_PARTITION).activeGroups) := by
  intro outcome
  have both := (capacity_and_wakeup (Machine.run_of_executes (fun _ _ _ => trivial) (by decide) :
    queueMachine.Reaches outcome.2 outcome.1)).2
  refine ⟨⟨by decide, both.1 LOCAL_PARTITION 2 fun answer member => ?_⟩,
    both.2 LOCAL_PARTITION (by decide) rfl rfl rfl (by decide)⟩
  let answerOf : Signal -> Option Int := fun signal =>
    match signal with
    | .resolved _ answer => some answer
    | _ => none
  have inAnswers : answer ∈ outcome.2.filterMap answerOf := List.mem_filterMap.mpr ⟨_, member, rfl⟩
  have answers : outcome.2.filterMap answerOf = [2, 2] := by decide
  rw [answers] at inAnswers
  simpa using inAnswers

end DeployQueue
end Dokploy
