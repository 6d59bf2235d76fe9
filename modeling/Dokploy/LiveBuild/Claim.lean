import Dokploy.Foundation.Actors
import Dokploy.GhaRelease.Namespace

namespace Dokploy
namespace LiveBuild

open Foundation
open GhaRelease (trim)

/-!
# Deploys that continue a registered row

A GitHub Actions workflow registers a deployment row while it builds, and the
deploys that follow name the row.  A deploy request marks it, a queued job takes
it over when it starts, and a request that could not be queued or a job that
leaves the queue without running writes to it once more.  Every write is one
update that is guarded by `openRegisteredRow`.

The row carries one time for all accepted requests together: `deployQueuedAt`.
-/

inductive DeploymentStatus where
  | running
  | done
  | error
  | cancelled
deriving DecidableEq

inductive ServiceKind where
  | application
  | compose
deriving DecidableEq

/-- The columns of a deployment row that a claim reads or writes.  The run state and the error are texts; a time is a
reading of the clock. -/
structure DeploymentRow where
  status : DeploymentStatus
  buildOrigin : Option String
  externalBuildOnly : Bool
  applicationId : Option String
  composeId : Option String
  serverId : Option String
  buildServerId : Option String
  logPath : String
  description : Option String
  deployQueuedAt : Option Nat
  deployStartedAt : Option Nat
  finishedAt : Option Nat
  errorMessage : Option String
  buildRunStatus : Option String
  buildRunStep : Option String
deriving DecidableEq

structure LiveBuildClaim where
  kind : ServiceKind
  serviceId : String
  logHost : Option String
deriving DecidableEq

namespace DeploymentRow

def owner (row : DeploymentRow) : ServiceKind -> Option String
  | .application => row.applicationId
  | .compose => row.composeId

/-- `a || b || null` of two texts that may be missing or empty. -/
def firstFilled (first second : Option String) : Option String :=
  (first.filter (· ≠ "")).or (second.filter (· ≠ ""))

def canContinueLiveBuild (row : DeploymentRow) (claim : LiveBuildClaim) : Bool :=
  row.status = .running && row.buildOrigin = some "github-actions" && row.externalBuildOnly && row.logPath ≠ "" &&
    row.owner claim.kind = some claim.serviceId &&
    firstFilled row.buildServerId row.serverId = claim.logHost.filter (· ≠ "")

def openRegisteredRow (row : DeploymentRow) : Bool :=
  row.status = .running && row.buildOrigin = some "github-actions" && row.externalBuildOnly

/-- The row as a deploy that the claim cannot continue finds it: the claim ends it. -/
def acceptedElsewhere (row : DeploymentRow) (claim : LiveBuildClaim) : Bool :=
  row.deployQueuedAt.isSome && row.openRegisteredRow && row.owner claim.kind = some claim.serviceId

def continuedDescription (row : DeploymentRow) (description : Option String) : Option String :=
  match description.map trim with
  | none => none
  | some extra =>
      if extra = "" ∨ row.description = some extra then none
      else some (" - ".intercalate
        (((row.description.map trim).toList ++ [extra]).filter (· ≠ "")))

end DeploymentRow

open DeploymentRow

inductive Written where
  | accepted
  | tookOver
  | withdrawn
  | ended
deriving DecidableEq

/-- Where a deploy that names the row is.  An accepted request is `queueing` until the queue has answered; a started
job has read the row. -/
inductive Deploying where
  | requesting (claim : LiveBuildClaim)
  | refused
  | queueing (claim : LiveBuildClaim)
  | withdrawing
  | waiting (claim : LiveBuildClaim)
  | started (claim : LiveBuildClaim) (row : DeploymentRow)
  | ending (status : DeploymentStatus) (message : String)
  | finished
deriving DecidableEq

inductive DeployEvent where
  | request (now : Nat)
  | queued (accepted : Bool)
  | withdraw
  | start
  | claim (description : Option String) (now : Nat)
  | remove
  | endRow (now : Nat)
deriving DecidableEq

def QUEUED_DEPLOY_REMOVED_MESSAGE : String :=
  "The deploy that was waiting for this GitHub Actions build was removed from the queue before it ran."

def OTHER_HOST_MESSAGE : String :=
  "The deploy wrote its log on another host than the one this deployment was registered on, so it created its own deployment."

/-- The guarded update of `requestLiveBuildDeploy`. -/
def requestLiveBuildDeploy (row : DeploymentRow) (claim : LiveBuildClaim) (now : Nat) : Option DeploymentRow :=
  if row.openRegisteredRow && row.owner claim.kind = some claim.serviceId then
    some { row with deployQueuedAt := some now, buildRunStatus := some "deploy_queued" }
  else none

def withdrawLiveBuildDeploy (row : DeploymentRow) : Option DeploymentRow :=
  if row.openRegisteredRow then some { row with deployQueuedAt := none, buildRunStatus := some "in_progress" }
  else none

/-- The guarded update of `claimLiveGithubBuild`.  The description is computed from the row as it was read. -/
def claimLiveGithubBuild (row read : DeploymentRow) (claim : LiveBuildClaim) (description : Option String) (now : Nat) :
    Option DeploymentRow :=
  if row.openRegisteredRow && row.owner claim.kind = some claim.serviceId then
    some { row with
      externalBuildOnly := false
      buildRunStatus := some "completed"
      buildRunStep := none
      deployStartedAt := some now
      description := (read.continuedDescription description).or row.description }
  else none

def endQueuedLiveBuild (row : DeploymentRow) (status : DeploymentStatus) (message : String) (now : Nat) :
    Option DeploymentRow :=
  if row.openRegisteredRow && row.deployQueuedAt.isSome then
    some { row with
      status := status
      finishedAt := some now
      errorMessage := some message
      buildRunStatus := some "completed"
      buildRunStep := none }
  else none

/-- An update and what it did: nothing where the guard does not hold. -/
def written (row : DeploymentRow) (updated : Option DeploymentRow) (write : Written) (after : Deploying) :
    Option (DeploymentRow × Deploying × List Written) :=
  match updated with
  | some changed => some (changed, after, [write])
  | none => some (row, after, [])

/-- One deploy that names the row, action by action. -/
def deployingBehaviour : Actors.Behaviour DeploymentRow Deploying LiveBuildClaim DeployEvent Written where
  begins := .requesting
  act := fun row deploying event =>
    match deploying, event with
    | .requesting claim, .request now =>
        match requestLiveBuildDeploy row claim now with
        | some marked => some (marked, .queueing claim, [.accepted])
        | none => some (row, .refused, [])
    | .queueing claim, .queued accepted => some (row, if accepted then .waiting claim else .withdrawing, [])
    | .withdrawing, .withdraw => written row (withdrawLiveBuildDeploy row) .withdrawn .finished
    | .waiting claim, .start => some (row, .started claim row, [])
    | .waiting _, .remove => some (row, .ending .cancelled QUEUED_DEPLOY_REMOVED_MESSAGE, [])
    | .started claim read, .claim description now =>
        if read.canContinueLiveBuild claim then
          written row (claimLiveGithubBuild row read claim description now) .tookOver .finished
        else if read.acceptedElsewhere claim then some (row, .ending .error OTHER_HOST_MESSAGE, [])
        else some (row, .finished, [])
    | .ending status message, .endRow now => written row (endQueuedLiveBuild row status message now) .ended .finished
    | _, _ => none

def liveBuild (registered : DeploymentRow) :
    Machine (Actors.System DeploymentRow Deploying) (Actors.Happening LiveBuildClaim DeployEvent) (Option Nat × Written) :=
  deployingBehaviour.machine registered

/-- An accepted deploy that is waiting in the queue. -/
def Deploying.isWaiting : Deploying -> Bool
  | .waiting _ => true
  | _ => false

/-- An accepted deploy that is waiting, or on its way to the queue. -/
def Deploying.isPromised : Deploying -> Bool
  | .waiting _ | .queueing _ => true
  | _ => false

/-- The rule: no other accepted deploy is waiting for an open row, or on its way to the queue, when a withdrawal or
the end of another one is written to it. -/
def WritesAlone (system : Actors.System DeploymentRow Deploying) :
    Actors.Happening LiveBuildClaim DeployEvent -> Prop
  | .acts _ .withdraw | .acts _ (.endRow _) =>
      system.row.openRegisteredRow = true -> forall deploying, deploying ∈ system.actors -> deploying.isPromised = false
  | _ => True

end LiveBuild
end Dokploy
