import Dokploy.DeployQueue.Locks
import Dokploy.DeployQueue.Starts

namespace Dokploy
namespace DeployQueue

open Foundation

/-!
# Holding a service's group

A hold takes the group lock of one lane, while the service's jobs may wait in
several: a job keeps the lane of the server it was enqueued for.  The hold
keeps jobs of its own lane from starting.  A drain of another lane does not see
it, so there the service is protected only as long as none of its jobs waits.
-/

/-- While a group is held, no job of it starts, in whichever lane. -/
def HoldsRespected (history : List Signal) : Prop :=
  forall before key group after, history = before ++ .held key group :: after ->
    Signal.unheld key group ∉ after -> forall job, job ∈ startedOf after -> job.group ≠ group

/-- No waiting job of the lane belongs to a group held through another lane. -/
def NoForeignHold (q : InMemoryQueue) (key : String) : Prop :=
  forall job, job ∈ (q.lane key).waiting -> forall hold, hold ∈ q.holds ->
    hold.released = false -> hold.group = job.group -> hold.key = key

instance (q : InMemoryQueue) (key : String) : Decidable (NoForeignHold q key) :=
  inferInstanceAs (Decidable (forall job, job ∈ _ -> forall hold, hold ∈ _ -> _ -> _ -> _))

/-- A lane takes a turn only while no job of a group held elsewhere waits in it. -/
def HeldInPlace (q : InMemoryQueue) (event : Event) : Prop :=
  forall key, key ∈ turnOf q event -> NoForeignHold q key

instance (q : InMemoryQueue) (event : Event) : Decidable (HeldInPlace q event) :=
  inferInstanceAs (Decidable (forall key, key ∈ turnOf q event -> NoForeignHold q key))

/-- Every hold of the history that was not released is live in the state. -/
def HoldsLive (history : List Signal) (q : InMemoryQueue) : Prop :=
  forall before key group after, history = before ++ .held key group :: after ->
    Signal.unheld key group ∉ after -> (⟨key, group, false⟩ : Hold) ∈ q.holds

theorem locked_of_hold {q : InMemoryQueue} (locked : Locked q) {key group : String}
    (member : (⟨key, group, false⟩ : Hold) ∈ q.holds) : group ∈ (q.lane key).activeGroups := by
  rw [(locked.owned key).mem_iff]
  refine List.mem_append_right _ (List.mem_map.mpr ⟨⟨key, group, false⟩, ?_, rfl⟩)
  rw [List.mem_filter]
  exact ⟨member, by rw [Bool.not_false, Bool.true_and, beq_self_eq_true]⟩

theorem hold_stays {q after : InMemoryQueue} {output : List Signal} (change : Change q output after)
    {key group : String} (member : (⟨key, group, false⟩ : Hold) ∈ q.holds)
    (notReleased : Signal.unheld key group ∉ output) : (⟨key, group, false⟩ : Hold) ∈ after.holds := by
  cases change with
  | control frame fresh standing scheduled =>
      rw [frame]
      exact member
  | created lane => exact member
  | @held _ lane other unheld unlocked present lanes keys frame =>
      rw [frame]
      exact List.mem_append_left _ member
  | @unheld _ index hold found live present lanes keys frame =>
      rw [frame]
      rcases split_of_getElem? found with ⟨split, atIndex⟩
      generalize q.holds.take index = before at split atIndex
      generalize q.holds.drop (index + 1) = behind at split
      have holds : q.holds.set index { hold with released := true } =
          before ++ { hold with released := true } :: behind := by
        rw [← atIndex]
        exact set_of_split split
      dsimp only
      rw [holds]
      rw [split] at member
      rcases List.mem_append.mp member with ahead | later
      · exact List.mem_append_left _ ahead
      · rcases List.mem_cons.mp later with same | behindIt
        · subst same
          exact absurd (List.mem_singleton_self _) notReleased
        · exact List.mem_append_right _ (List.mem_cons_of_mem _ behindIt)
  | _ =>
      rename_i frame
      rw [frame]
      exact member

theorem held_of_output {q after : InMemoryQueue} {output : List Signal} (change : Change q output after)
    {key group : String} {before behind : List Signal}
    (split : output = before ++ .held key group :: behind) :
    (⟨key, group, false⟩ : Hold) ∈ after.holds ∧ behind = [] := by
  have member : Signal.held key group ∈ output := split ▸ List.mem_append_right _ List.mem_cons_self
  cases change with
  | @held _ lane other unheld unlocked present lanes keys frame =>
      have alone : before = [] ∧ Signal.held lane other = .held key group ∧ behind = [] := by
        rcases List.append_eq_cons_iff.mp split.symm with ⟨empty, rest⟩ | ⟨more, _, rest⟩
        · exact ⟨empty, (List.cons.inj rest).1.symm, (List.cons.inj rest).2⟩
        · cases List.append_eq_nil_iff.mp rest.symm with
          | intro _ impossible => cases impossible
      rw [frame]
      refine ⟨List.mem_append_right _ ?_, alone.2.2⟩
      cases alone.2.1
      exact List.mem_singleton_self _
  | entered new placed announced lanes keys frame =>
      rcases mem_entered announced member with ⟨_, impossible⟩ | ⟨_, _, impossible⟩ <;> cases impossible
  | dropped visits visited sublist perm reported lanes keys frame =>
      rcases mem_dropped reported member with ⟨_, impossible⟩ | ⟨_, impossible⟩ <;> cases impossible
  | waiters woken frame =>
      rcases woken _ member with ⟨_, impossible⟩
      cases impossible
  | _ => simp only [List.mem_cons, List.not_mem_nil, reduceCtorEq, or_self] at member

theorem holdsLive_of_change {history output : List Signal} {q after : InMemoryQueue}
    (live : HoldsLive history q) (change : Change q output after) : HoldsLive (history ++ output) after := by
  intro before key group behind split notReleased
  rcases split_of_append split with ⟨rest, earlier, same⟩ | ⟨skipped, _, inOutput⟩
  · rw [same] at notReleased
    exact hold_stays change
      (live before key group rest earlier fun member => notReleased (List.mem_append_left _ member))
      fun member => notReleased (List.mem_append_right _ member)
  · exact (held_of_output change inOutput).1

private theorem respected_of_quiet {history output : List Signal} {q after : InMemoryQueue}
    (respected : HoldsRespected history) (change : Change q output after) (quiet : startedOf output = []) :
    HoldsRespected (history ++ output) := by
  intro before key group behind split notReleased job started
  rcases split_of_append split with ⟨rest, earlier, same⟩ | ⟨skipped, _, inOutput⟩
  · rw [same, startedOf_append, quiet, List.append_nil] at started
    rw [same] at notReleased
    exact respected before key group rest earlier
      (fun member => notReleased (List.mem_append_left _ member)) job started
  · rw [(held_of_output change inOutput).2] at started
    cases started

private theorem respected_of_start {history : List Signal} {q : InMemoryQueue} {lane : String}
    (locked : Locked q) (live : HoldsLive history q) (respected : HoldsRespected history)
    (start : Start q lane) (inPlace : NoForeignHold q lane) :
    HoldsRespected (history ++ [.started lane start.job]) := by
  intro before key group behind split notReleased job member
  rcases split_of_append split with ⟨rest, held, same⟩ | ⟨skipped, _, inOutput⟩
  · rw [same] at notReleased member
    have inRest : Signal.unheld key group ∉ rest := fun member => notReleased (List.mem_append_left _ member)
    rw [startedOf_append] at member
    rcases List.mem_append.mp member with earlier | now
    · exact respected before key group rest held inRest job earlier
    · rw [List.mem_singleton.mp now]
      intro sameGroup
      have inState := live before key group rest held inRest
      have place : key = lane := inPlace start.waiting start.member _ inState rfl sameGroup.symm
      subst place
      exact start.free (sameGroup ▸ locked_of_hold locked inState)
  · have impossible : Signal.held key group ∈ [Signal.started lane start.job] :=
      inOutput ▸ List.mem_append_right _ List.mem_cons_self
    cases List.mem_singleton.mp impossible

/-- No job of a held group starts, in any lane and whichever lane the hold was
taken in, as long as lanes in which jobs of a group held elsewhere wait are
not drained. -/
theorem held_groups_do_not_start {history : List Signal} {q : InMemoryQueue}
    (run : queueMachine.Run HeldInPlace history q) : HoldsRespected history := by
  have all : Locked q ∧ HoldsLive history q ∧ HoldsRespected history := by
    refine guarded_invariant (fun history q => Locked q ∧ HoldsLive history q ∧ HoldsRespected history)
      ⟨locked_new, ?_, ?_⟩ ?_ ?_ run
    · intro before key group behind split
      cases List.append_eq_nil_iff.mp split.symm with
      | intro _ impossible => cases impossible
    · intro before key group behind split
      cases List.append_eq_nil_iff.mp split.symm with
      | intro _ impossible => cases impossible
    · intro history before output after placed census held change quiet
      exact ⟨held.1.change census change, holdsLive_of_change held.2.1 change,
        respected_of_quiet held.2.2 change quiet⟩
    · intro history before index now key answer output after placed census held allowed found change own
      refine ⟨held.1.change census change, holdsLive_of_change held.2.1 change, ?_⟩
      rcases quiet_or_start change with quiet | ⟨lane, start, same, _⟩
      · exact respected_of_quiet held.2.2 change quiet
      · subst same
        have here : lane = key := own lane start.job (List.mem_singleton_self _)
        subst here
        exact respected_of_start held.1 held.2.1 held.2.2 start (allowed lane (turnOf_drainTurn found))
  exact all.2.2

/-- The hold and the waiting job share a lane: the job keeps its place. -/
theorem held_groups_do_not_start_example :
    let history := (queueMachine.outcome (fun q event => decide (HeldInPlace q event))
      [.process, .add (plainDeploy "a" none) "u1" 1,
        .holdIdleGroup LOCAL_PARTITION "application:a" fun _ => false,
        .add (plainDeploy "b" none) "u2" 2, .concurrencyResolved 0 2, .drainTurn 0 3, .drainTurn 0 4]).2
    (startedOf history).map (·.group) = ["application:b"] ∧ HoldsRespected history := by
  intro history
  exact ⟨by decide, held_groups_do_not_start
    (Machine.run_of_executes (fun _ _ allowed => of_decide_eq_true allowed) (by decide))⟩

/-- The service has moved: its older job waits in the lane of the former
server, and starts there while the group is held through the current one. -/
theorem held_group_starts_elsewhere :
    ¬ forall history q, queueMachine.Reaches history q -> HoldsRespected history := by
  intro claimed
  let events : List Event :=
    [.process, .add (plainDeploy "a" (some "s1")) "u1" 1,
      .holdIdleGroup LOCAL_PARTITION "application:a" fun _ => false, .concurrencyResolved 0 1, .drainTurn 0 2]
  let history := (queueMachine.outcome (fun _ _ => true) events).2
  have run : queueMachine.Reaches history _ :=
    Machine.run_of_executes (fun _ _ _ => trivial) (by decide)
  have split : history = history.take 2 ++
      Signal.held LOCAL_PARTITION "application:a" :: history.drop 3 := by decide
  have violated : Exists fun job => job ∈ startedOf (history.drop 3) ∧ job.group = "application:a" := by decide
  rcases violated with ⟨job, started, same⟩
  exact claimed _ _ run _ _ _ _ split (by decide) job started same

end DeployQueue
end Dokploy
