import Dokploy.GithubDeployments.Poll

namespace Dokploy
namespace GithubDeployments

open Foundation

/-!
# What the operations of a poll do

The state is the stored watch, what the process remembers between polls, and the
deployments of the environment on GitHub, newest first.  What GitHub, the queue
and the service answer is left open, and every write to the database may throw,
also after it was made.

While a poll runs the watch may be saved again, renamed with its repository or
deleted, other polls may pause a connection, and deployments may be created.
-/

structure PollState where
  row : Option WatchRow
  statusAttempts : Nat -> DeploymentState -> Nat
  startAttempts : Nat -> Nat
  blocks : BlockKey -> Option Int
  deployments : List GithubDeployment

/-- The watch is not as the poll decided on: repointed, turned off and on, or
advanced. -/
def watchChangedSinceTick (stored : Option WatchRow) (watch : WatchRow) (deployment : GithubDeployment) : Bool :=
  match stored with
  | none => true
  | some row =>
      !row.enabled || row.inflightDeploymentId.isSome || decide (row.owner ≠ watch.owner) ||
        decide (row.repo ≠ watch.repo) || decide (row.environment ≠ watch.environment) ||
        decide (row.connectionId ≠ watch.connectionId) ||
        (match row.lastSeenDeploymentId with
          | none => true
          | some lastSeen => decide (deployment.id ≤ lastSeen)) ||
        decide (row.lastSeenDeploymentId ≠ watch.lastSeenDeploymentId)

/-- The claim moves the cursor to the deployment and takes it in flight. -/
def claim (row : WatchRow) (githubDeploymentId : Nat) (now : Int) : WatchRow :=
  { row with
    lastSeenDeploymentId := some githubDeploymentId
    inflightDeploymentId := some githubDeploymentId
    inflightStartedAt := some now
    lastError := none }

/-- Put the cursor back, while the deployment is still in flight. -/
def undoClaim (watch : WatchRow) (deployment : GithubDeployment) (stored : Option WatchRow) : Option WatchRow :=
  stored.map fun row =>
    if row.inflightDeploymentId = some deployment.id then
      { row with
        lastSeenDeploymentId := watch.lastSeenDeploymentId
        inflightDeploymentId := none
        inflightStartedAt := none }
    else row

/-- A write that succeeds, or that throws before or after it was made. -/
def WriteOf {State Value : Type} (before written : State) (value : Value) (answer : Except String Value)
    (after : State) : Prop :=
  (answer = .ok value ∧ after = written) ∨
    Exists fun error => answer = .error error ∧ (after = before ∨ after = written)

/-- The transaction that starts a deployment.  Whether the service rejects it is
left open. -/
def PrepareStart (before : PollState) (watch : WatchRow) (deployment : GithubDeployment)
    (answer : Except String Prepared) (after : PollState) : Prop :=
  if watchChangedSinceTick before.row watch deployment then WriteOf before before .stale answer after
  else
    (Exists fun reason => answer = .ok (.rejected reason) ∧ after = before) ∨
      Exists fun now => WriteOf before { before with row := before.row.map fun row => claim row deployment.id now }
        .prepared answer after

def Performs (before : PollState) : (op : PollOp) -> op.Answer -> PollState -> Prop
  | .patchWatch patch ifCursor, answer, after =>
      let result := patchGithubWatch before.row patch ifCursor
      WriteOf before { before with row := result.1 } result.2 answer after
  | .prepareStart watch deployment _, answer, after => PrepareStart before watch deployment answer after
  | .undoStart watch deployment, answer, after =>
      WriteOf before { before with row := undoClaim watch deployment before.row } () answer after
  | .block key time, _, after =>
      after = { before with blocks := fun other => if other = key then some time else before.blocks other }
  | .blockedUntil key, answer, after => answer = before.blocks key ∧ after = before
  | .statusAttempts id state, answer, after => answer = before.statusAttempts id state ∧ after = before
  | .setStatusAttempts id state attempts, _, after =>
      after = { before with statusAttempts := fun other otherState =>
        if other = id ∧ otherState = state then attempts else before.statusAttempts other otherState }
  | .startAttempts id, answer, after => answer = before.startAttempts id ∧ after = before
  | .setStartAttempts id attempts, _, after =>
      after = { before with startAttempts := fun other => if other = id then attempts else before.startAttempts other }
  | .now, _, after => after = before
  | .loadToken _, _, after => after = before
  | .markRevoked _, _, after => after = before
  | .fetchPage _ _, _, after => after = before
  | .createStatus _, _, after => after = before
  | .inspectInflight, _, after => after = before
  | .onDeployEnded _, _, after => after = before
  | .environmentUrl, _, after => after = before
  | .enqueue _ _, _, after => after = before
  | .serviceLink, _, after => after = before
  | .log _, _, after => after = before

inductive Others (before : PollState) : PollState -> Prop
  | saved {row : WatchRow} (input : WatchInput) : before.row = some row ->
      Others before { before with row := some (upsertGithubWatch row input) }
  | renamed {row : WatchRow} (owner repo : String) : before.row = some row ->
      Others before { before with row := some { row with owner := owner, repo := repo } }
  | deleted : Others before { before with row := none }
  | paused (blocks : BlockKey -> Option Int) : Others before { before with blocks := blocks }
  | created {deployment : GithubDeployment} : (forall older, older ∈ before.deployments -> older.id < deployment.id) ->
      Others before { before with deployments := deployment :: before.deployments }

def pollWorld : World PollState PollOp PollOp.Answer := ⟨Performs, Others⟩

abbrev PollEvent := Event PollState PollOp PollOp.Answer

/-- The deployments on the page that was read. -/
def pageOf : PollEvent -> List GithubDeployment
  | ⟨_, .fetchPage _ _, response, _⟩ =>
      match pageResult response with
      | .ok deployments _ => deployments
      | _ => []
  | _ => []

def listed (past : List PollEvent) : List GithubDeployment := past.flatMap pageOf

/-- GitHub takes the status, or nobody can use it. -/
def StatusResult.settles : StatusResult -> Bool
  | .ok => true
  | .failed _ (some _) => false
  | .failed status none => gone status

/-- A status was posted with this result. -/
def Posted (past : List PollEvent) (deploymentId : Nat) (state : DeploymentState) (result : StatusResult) : Prop :=
  Exists fun post : StatusPost => post.deploymentId = deploymentId ∧ post.state = state ∧
    Exists fun before => Exists fun after => (⟨before, .createStatus post, result, after⟩ : PollEvent) ∈ past

/-- The last of the attempts to post a status that are made. -/
def LastAttempt (past : List PollEvent) (deploymentId : Nat) (state : DeploymentState) : Prop :=
  Exists fun earlier : Nat => MAX_STATUS_ATTEMPTS ≤ earlier + 1 ∧
    Exists fun before => Exists fun after => (⟨before, .statusAttempts deploymentId state, earlier, after⟩ : PollEvent) ∈ past

/-- A deployment was answered with a settled status. -/
def Answered (past : List PollEvent) (deploymentId : Nat) (state : DeploymentState) : Prop :=
  Exists fun result => Posted past deploymentId state result ∧
    (result.settles = true ∨ LastAttempt past deploymentId state)

/-- The start of a deployment was committed, so it is on its way. -/
def Claimed (past : List PollEvent) (deploymentId : Nat) : Prop :=
  Exists fun watch => Exists fun deployment : GithubDeployment => deployment.id = deploymentId ∧
    Exists fun payload => Exists fun before => Exists fun answer => Exists fun after =>
      after.row.bind WatchRow.inflightDeploymentId = some deploymentId ∧
        (⟨before, .prepareStart watch deployment payload, answer, after⟩ : PollEvent) ∈ past

def EnqueueFailed (past : List PollEvent) (deployment : GithubDeployment) : Prop :=
  Exists fun payload => Exists fun before => Exists fun error => Exists fun after =>
    (⟨before, .enqueue deployment payload, .error error, after⟩ : PollEvent) ∈ past

def Started (past : List PollEvent) (deploymentId : Nat) : Prop :=
  Exists fun deployment : GithubDeployment => deployment.id = deploymentId ∧
    Exists fun payload => Exists fun before => Exists fun after =>
      (⟨before, .enqueue deployment payload, .ok (), after⟩ : PollEvent) ∈ past

end GithubDeployments
end Dokploy
