import Dokploy.Foundation.Splits
import Dokploy.LiveBuild.Claim

namespace Dokploy
namespace LiveBuild

open Foundation
open DeploymentRow

/-!
# An accepted deploy keeps its registered row

Every write is guarded by the row still being open and not taken over, so the
first deploy that takes it over is also the last one to write to it.  That needs
no assumption.

That the row waits for an accepted deploy does.  A withdrawal clears the time of
all accepted requests at once and a removal ends the row for all of them, so the
row is only safe while these are written when nobody else is on the way.
-/

theorem act_written {row after : DeploymentRow} {deploying now : Deploying} {event : DeployEvent} {said : List Written}
    (acted : deployingBehaviour.act row deploying event = some (after, now, said)) :
    (after = row ∧ said = [] ∧ (now.isPromised = true -> deploying.isPromised = true)) ∨
      (row.openRegisteredRow = true ∧
        ((said = [.accepted] ∧ after.openRegisteredRow = true ∧ after.deployQueuedAt.isSome = true) ∨
          (said = [.tookOver] ∧ after.externalBuildOnly = false ∧ after.status = .running) ∨
          (said = [.withdrawn] ∧ event = .withdraw ∧ now.isPromised = false) ∨
          (said = [.ended] ∧ (Exists fun time => event = .endRow time) ∧ now.isPromised = false))) := by
  unfold deployingBehaviour at acted
  simp only at acted
  split at acted
  · rename_i claim time
    unfold requestLiveBuildDeploy at acted
    by_cases allowed : (row.openRegisteredRow && row.owner claim.kind = some claim.serviceId) = true
    · rw [if_pos allowed] at acted
      cases acted
      have isOpen := (Bool.and_eq_true _ _ ▸ allowed).1
      exact Or.inr ⟨isOpen, Or.inl ⟨rfl, isOpen, rfl⟩⟩
    · rw [if_neg allowed] at acted
      cases acted
      exact Or.inl ⟨rfl, rfl, fun impossible => nomatch impossible⟩
  · cases acted
    exact Or.inl ⟨rfl, rfl, fun _ => rfl⟩
  · unfold written withdrawLiveBuildDeploy at acted
    by_cases isOpen : row.openRegisteredRow = true
    · rw [if_pos isOpen] at acted
      cases acted
      exact Or.inr ⟨isOpen, Or.inr (Or.inr (Or.inl ⟨rfl, rfl, rfl⟩))⟩
    · rw [if_neg isOpen] at acted
      cases acted
      exact Or.inl ⟨rfl, rfl, fun impossible => nomatch impossible⟩
  · cases acted
    exact Or.inl ⟨rfl, rfl, fun impossible => nomatch impossible⟩
  · cases acted
    exact Or.inl ⟨rfl, rfl, fun impossible => nomatch impossible⟩
  · rename_i claim read description time
    split at acted
    · unfold written claimLiveGithubBuild at acted
      by_cases allowed : (row.openRegisteredRow && row.owner claim.kind = some claim.serviceId) = true
      · rw [if_pos allowed] at acted
        cases acted
        have isOpen := (Bool.and_eq_true _ _ ▸ allowed).1
        have running : row.status = .running := by
          simp only [openRegisteredRow, Bool.and_eq_true, decide_eq_true_eq] at isOpen
          exact isOpen.1.1
        exact Or.inr ⟨isOpen, Or.inr (Or.inl ⟨rfl, rfl, running⟩)⟩
      · rw [if_neg allowed] at acted
        cases acted
        exact Or.inl ⟨rfl, rfl, fun impossible => nomatch impossible⟩
    · split at acted
      · cases acted
        exact Or.inl ⟨rfl, rfl, fun impossible => nomatch impossible⟩
      · cases acted
        exact Or.inl ⟨rfl, rfl, fun impossible => nomatch impossible⟩
  · rename_i status message time
    unfold written endQueuedLiveBuild at acted
    by_cases allowed : (row.openRegisteredRow && row.deployQueuedAt.isSome) = true
    · rw [if_pos allowed] at acted
      cases acted
      have isOpen := (Bool.and_eq_true _ _ ▸ allowed).1
      exact Or.inr ⟨isOpen, Or.inr (Or.inr (Or.inr ⟨rfl, ⟨time, rfl⟩, rfl⟩))⟩
    · rw [if_neg allowed] at acted
      cases acted
      exact Or.inl ⟨rfl, rfl, fun impossible => nomatch impossible⟩
  · cases acted

/-- One of the deploys has taken the row over. -/
def Taken (history : List (Option Nat × Written)) : Prop := Exists fun index => (index, Written.tookOver) ∈ history

/-- Nothing is written to a row after it was taken over. -/
structure TakenForGood (history : List (Option Nat × Written)) (row : DeploymentRow) : Prop where
  last : forall earlier index later, history = earlier ++ (index, Written.tookOver) :: later -> later = []
  kept : Taken history -> row.externalBuildOnly = false ∧ row.status = .running

/-- As long as an accepted deploy waits and nobody took the row over, the row waits too. -/
def WaitsForDeploy (history : List (Option Nat × Written)) (system : Actors.System DeploymentRow Deploying) : Prop :=
  (Exists fun deploying => deploying ∈ system.actors ∧ deploying.isWaiting = true) -> ¬ Taken history ->
    system.row.openRegisteredRow = true ∧ system.row.deployQueuedAt.isSome = true

variable {history : List (Option Nat × Written)}

theorem takenForGood_said {row after : DeploymentRow} {index : Option Nat} {write : Written}
    (held : TakenForGood history row) (isOpen : row.openRegisteredRow = true)
    (took : write = .tookOver -> after.externalBuildOnly = false ∧ after.status = .running) :
    TakenForGood (history ++ [(index, write)]) after := by
  have untaken : ¬ Taken history := by
    intro taken
    simp only [openRegisteredRow, (held.kept taken).1, Bool.and_false] at isOpen
    cases isOpen
  refine ⟨fun earlier position later same => ?_, fun taken => ?_⟩
  · rcases split_of_snoc same with ⟨_, _, none⟩ | ⟨front, _, before⟩
    · exact none
    · exact absurd ⟨position, before ▸ List.mem_append_right _ List.mem_cons_self⟩ untaken
  · rcases taken with ⟨position, member⟩
    rcases List.mem_append.mp member with old | new
    · exact absurd ⟨position, old⟩ untaken
    · cases List.mem_singleton.mp new
      exact took rfl

theorem takenForGood_of_run {registered : DeploymentRow}
    {system : Actors.System DeploymentRow Deploying} (run : (liveBuild registered).Reaches history system) :
    TakenForGood history system.row := by
  refine (Actors.rely TakenForGood (fun _ _ _ (_ : Deploying) => True) ?_ (fun _ _ _ _ _ => trivial) ?_
    (fun _ _ _ _ _ _ _ _ moved => by cases moved) run).1
  · exact ⟨fun earlier _ _ same => absurd same (by simp), fun taken => absurd taken.choose_spec List.not_mem_nil⟩
  · intro history system index deploying event row now said held _ _ _ acted
    refine ⟨?_, trivial, fun _ _ _ _ => trivial⟩
    rcases act_written acted with ⟨same, none, _⟩ | ⟨isOpen, accepted | took | withdrawn | ended⟩
    · rw [same, none, List.map_nil, List.append_nil]
      exact held
    · rw [accepted.1]
      exact takenForGood_said held isOpen fun impossible => nomatch impossible
    · rw [took.1]
      exact takenForGood_said held isOpen fun _ => took.2
    · rw [withdrawn.1]
      exact takenForGood_said held isOpen fun impossible => nomatch impossible
    · rw [ended.1]
      exact takenForGood_said held isOpen fun impossible => nomatch impossible

def Promise (history : List (Option Nat × Written)) (row : DeploymentRow) (deploying : Deploying) : Prop :=
  deploying.isPromised = true -> ¬ Taken history -> row.openRegisteredRow = true ∧ row.deployQueuedAt.isSome = true

theorem promise_of_run {registered : DeploymentRow}
    {system : Actors.System DeploymentRow Deploying} (run : (liveBuild registered).Run WritesAlone history system) :
    forall (position : Nat) (deploying : Deploying), system.actors[position]? = some deploying ->
      Promise history system.row deploying := by
  refine (Actors.rely (fun _ _ => True) (fun history row _ (deploying : Deploying) => Promise history row deploying)
    trivial ?_ ?_ (fun _ _ _ _ _ _ _ _ moved => by cases moved) run).2
  · exact fun _ _ _ _ _ promised => nomatch promised
  · intro history system index deploying event row now said _ held alone found acted
    refine ⟨trivial, ?_⟩
    -- Nobody is promised anything when a withdrawal or an end is written.
    have nobody : system.row.openRegisteredRow = true -> event = .withdraw ∨ (Exists fun time => event = .endRow time) ->
        forall (position : Nat) (other : Deploying), system.actors[position]? = some other ->
          other.isPromised = false := by
      intro isOpen writes position other foundOther
      rcases writes with isWithdraw | ⟨time, isEnd⟩
      · rw [isWithdraw] at alone
        exact alone isOpen other (List.mem_of_getElem? foundOther)
      · rw [isEnd] at alone
        exact alone isOpen other (List.mem_of_getElem? foundOther)
    rcases act_written acted with ⟨same, none, before⟩ | ⟨isOpen, accepted | took | withdrawn | ended⟩
    · rw [same, none, List.map_nil, List.append_nil]
      exact ⟨fun promised => held index deploying found (before promised), fun position other _ => held position other⟩
    · exact ⟨fun _ _ => accepted.2, fun _ _ _ _ _ _ => accepted.2⟩
    · have taken : Taken (history ++ said.map (some index, ·)) := by
        rw [took.1]
        exact ⟨some index, List.mem_append_right _ List.mem_cons_self⟩
      exact ⟨fun _ untaken => absurd taken untaken, fun _ _ _ _ _ untaken => absurd taken untaken⟩
    · refine ⟨fun promised => absurd promised (by rw [withdrawn.2.2]; decide), fun position other _ foundOther promised => ?_⟩
      rw [nobody isOpen (Or.inl withdrawn.2.1) position other foundOther] at promised
      cases promised
    · refine ⟨fun promised => absurd promised (by rw [ended.2.2]; decide), fun position other _ foundOther promised => ?_⟩
      rw [nobody isOpen (Or.inr ended.2.1) position other foundOther] at promised
      cases promised

/-- One deploy at most takes the row over and nothing is written to it afterwards; and when withdrawals and removals
are written alone, the row waits for the deploys that wait for it. -/
theorem registered_row_kept (registered : DeploymentRow) :
    (forall history system, (liveBuild registered).Reaches history system -> TakenForGood history system.row) ∧
      (forall history system, (liveBuild registered).Run WritesAlone history system ->
        WaitsForDeploy history system) := by
  refine ⟨fun history system run => takenForGood_of_run run, fun history system run waiting => ?_⟩
  rcases waiting with ⟨deploying, member, waits⟩
  rcases List.getElem?_of_mem member with ⟨position, found⟩
  apply promise_of_run run position deploying found
  cases deploying with
  | waiting claim => rfl
  | _ => cases waits

def registeredRow : DeploymentRow where
  status := .running
  buildOrigin := some "github-actions"
  externalBuildOnly := true
  applicationId := some "app"
  composeId := none
  serverId := none
  buildServerId := none
  logPath := "/logs/app.log"
  description := none
  deployQueuedAt := none
  deployStartedAt := none
  finishedAt := none
  errorMessage := none
  buildRunStatus := some "in_progress"
  buildRunStep := none

def sampleClaim : LiveBuildClaim where
  kind := .application
  serviceId := "app"
  logHost := none

/-- Two requests name the row.  The first is queued, the second cannot be queued and is withdrawn. -/
def secondWithdrawn : List (Actors.Happening LiveBuildClaim DeployEvent) :=
  [.starts sampleClaim, .starts sampleClaim, .acts 0 (.request 1), .acts 0 (.queued true), .acts 1 (.request 2),
    .acts 1 (.queued false), .acts 1 .withdraw]

theorem secondWithdrawn_forgets : Exists fun history => Exists fun system =>
    (liveBuild registeredRow).Reaches history system ∧ system.actors = [.waiting sampleClaim, .finished] ∧
      system.row.deployQueuedAt = none ∧ ¬ WaitsForDeploy history system := by
  have run : (liveBuild registeredRow).Reaches _ _ := @Machine.run_of_executes _ _ _ (liveBuild registeredRow) _
    (fun _ _ => true) (fun _ _ _ => trivial) secondWithdrawn (by decide)
  refine ⟨_, _, run, by decide, by decide, fun waits => ?_⟩
  have kept := waits ⟨.waiting sampleClaim, by decide, rfl⟩ (by
    rintro ⟨index, member⟩
    have notTaken : forall entry, entry ∈ [(some 0, Written.accepted), (some 1, .accepted), (some 1, .withdrawn)] ->
        entry.2 ≠ .tookOver := by decide
    exact notTaken _ member rfl)
  exact absurd kept.2 (by decide)

/-- Two requests name the row.  One is queued, and the other only after it has been withdrawn once. -/
def requestedTwice : List (Actors.Happening LiveBuildClaim DeployEvent) :=
  [.starts sampleClaim, .starts sampleClaim, .acts 0 (.request 1), .acts 0 (.queued false), .acts 0 .withdraw,
    .acts 1 (.request 2), .acts 1 (.queued true)]

def writesAlone (system : Actors.System DeploymentRow Deploying) (happening : Actors.Happening LiveBuildClaim DeployEvent) :
    Bool :=
  match happening with
  | .acts _ .withdraw | .acts _ (.endRow _) => system.actors.all fun deploying => !deploying.isPromised
  | _ => true

theorem writesAlone_sound (system : Actors.System DeploymentRow Deploying)
    (happening : Actors.Happening LiveBuildClaim DeployEvent) (tested : writesAlone system happening = true) :
    WritesAlone system happening := by
  have all : (system.actors.all fun deploying => !deploying.isPromised) = true ->
      forall deploying, deploying ∈ system.actors -> deploying.isPromised = false := by
    intro tested deploying member
    simpa using List.all_eq_true.mp tested deploying member
  cases happening with
  | starts claim => trivial
  | moves event => trivial
  | acts index event =>
      cases event with
      | withdraw => exact fun _ => all tested
      | endRow time => exact fun _ => all tested
      | _ => trivial

theorem requestedTwice_waits : Exists fun history => Exists fun system =>
    system.actors = [.finished, .waiting sampleClaim] ∧ system.row.deployQueuedAt = some 2 ∧
      TakenForGood history system.row ∧ WaitsForDeploy history system := by
  have run : (liveBuild registeredRow).Run WritesAlone _ _ := @Machine.run_of_executes _ _ _ (liveBuild registeredRow) _
    writesAlone writesAlone_sound requestedTwice (by decide)
  exact ⟨_, _, by decide, by decide, (registered_row_kept registeredRow).1 _ _ run.weaken,
    (registered_row_kept registeredRow).2 _ _ run⟩

end LiveBuild
end Dokploy
