import Mathlib.Data.List.Basic

namespace Dokploy
namespace DeployQueue

/-!
# Deployment job payloads

The payload of a queued job is one of four variants.  The queue reads its
properties across the variants, often through a cast, so the payload is one
record whose variant-specific properties are optional.  Properties which no
modelled function reads are left out.

The partition key names the lane (a server) and the group names the service.
Both are computed from the payload once, when the job object is created.
-/

inductive ApplicationType where
  | application
  | compose
  | applicationPreview
  | composePreview
  deriving DecidableEq, Repr

inductive JobType where
  | deploy
  | redeploy
  deriving DecidableEq, Repr

structure PinnedImage where
  ref : String
  tag : Option String
  digest : String
  deriving DecidableEq, Repr

/-- The properties of a job payload that the queue, its callers and the
journal read.  An absent property is `none`. -/
structure DeploymentJob where
  applicationType : ApplicationType
  type : JobType
  applicationId : Option String
  composeId : Option String
  previewDeploymentId : Option String
  titleLog : Option String
  descriptionLog : Option String
  serverId : Option String
  freshVolumes : Option Bool
  pinnedImage : Option PinnedImage
  deploymentId : Option String
  priority : Option Bool
  priorityBy : Option String
  deriving DecidableEq, Repr

def LOCAL_PARTITION : String := "__local__"

/-- Resolve the partition key (serverId) a job belongs to. -/
def getPartition (data : DeploymentJob) : String :=
  data.serverId.getD LOCAL_PARTITION

/-- Resolve the FIFO group a job belongs to (the service being deployed).
A missing id prints as it does in a template literal. -/
def getGroup (data : DeploymentJob) : String :=
  match data.applicationType with
  | .compose | .composePreview => "compose:" ++ data.composeId.getD "undefined"
  | .application | .applicationPreview => "application:" ++ data.applicationId.getD "undefined"

/-- Only the value `true` flags a payload, whatever else the property holds. -/
def flagged (data : DeploymentJob) : Bool :=
  data.priority == some true

def withoutPriority (data : DeploymentJob) : DeploymentJob :=
  { data with priority := none, priorityBy := none }

def freshOf (data : DeploymentJob) : Bool :=
  data.freshVolumes == some true

def pinnedOf (data : DeploymentJob) : String :=
  match data.pinnedImage with
  | none => ""
  | some image => image.ref ++ "|" ++ image.tag.getD "" ++ "|" ++ image.digest

/-- Two waiting jobs are interchangeable when they agree on everything that
changes what the build does.  Push coalescing leaves the pinned image out. -/
def sameJobProfile (a b : DeploymentJob) (pinnedImage : Bool) : Bool :=
  a.type == b.type &&
    freshOf a == freshOf b &&
    flagged a == flagged b &&
    a.priorityBy.getD "" == b.priorityBy.getD "" &&
    (!pinnedImage || pinnedOf a == pinnedOf b)

/-- The id of a registered deployment row, when the payload carries one.  The
empty string is falsy, so it never counts as an id that could be lost. -/
def registeredId (data : DeploymentJob) : Option String :=
  data.deploymentId

def carries (data : DeploymentJob) (deploymentId : String) : Prop :=
  deploymentId ≠ "" ∧ registeredId data = some deploymentId

instance (data : DeploymentJob) (deploymentId : String) : Decidable (carries data deploymentId) :=
  inferInstanceAs (Decidable (_ ∧ _))

/-- An unflagged deploy of one application on one server. -/
def plainDeploy (applicationId : String) (serverId : Option String) : DeploymentJob where
  applicationType := .application
  type := .deploy
  applicationId := some applicationId
  composeId := none
  previewDeploymentId := none
  titleLog := none
  descriptionLog := none
  serverId := serverId
  freshVolumes := none
  pinnedImage := none
  deploymentId := none
  priority := none
  priorityBy := none

@[simp] theorem getPartition_withoutPriority (data : DeploymentJob) :
    getPartition (withoutPriority data) = getPartition data := rfl

end DeployQueue
end Dokploy
