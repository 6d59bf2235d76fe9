import Dokploy.GhaRelease.ManifestSource
import Dokploy.GhaRelease.Namespace

namespace Dokploy
namespace GhaRelease

open Foundation
open DeployGate

/-!
# Whether a release is accepted

Six rules are applied to a run and an attempt in order: the run, the manifest
source, the manifest, every image, the branch policy of the environment, and the
order against what is deployed.  A rule that does not let the release pass ends
the evaluation with its own answer.
-/

/-- A job log can be missing for a while after its job finished. -/
def LOG_GRACE_MS : Int := 10 * 60 * 1000

/-- What an evaluation is given: the run and attempt of the wake-up, the
connection, where the wake-up says the release ran, and the time. -/
structure AcceptanceInput where
  runId : Nat
  runAttempt : Nat
  connection : ConnectionFacts
  hint : Option JobHint
  now : Int
  deriving DecidableEq, Repr

structure AcceptanceDeps where
  api : ActionsApi
  probe : RegistryProbe
  platform : Platform
  readers : Readers

variable (deps : AcceptanceDeps) (input : AcceptanceInput)

def ruleRun : Rule RunInfo := do
  let c := input.connection
  let run <- needs (deps.api.runAttempt input.runId input.runAttempt)
    (refuse .runMissing "GitHub has no such run attempt")
  let workflow := (given (some run.path)).getD "another workflow"
  let event := (given (some run.event)).getD "unknown"
  let conclusion := run.conclusion.getD "without a result"
  if run.path ≠ c.workflowPath then stopWith (refuse .runPath s!"The run belongs to {workflow}")
  else if run.headBranch ≠ some c.trackedBranch then
    stopWith (refuse .runBranch "The run is not on the tracked branch")
  else if run.event ≠ "push" ∧ run.event ≠ "workflow_dispatch" then
    stopWith (refuse .runEvent s!"A {event} run is never released")
  else if run.repositoryId ≠ some c.repoId ∨ run.headRepositoryId ≠ some c.repoId then
    stopWith (refuse .runRepository "The run comes from another repository")
  else if run.status ≠ "completed" then stopWith (.pending s!"The run is {run.status}")
  else if run.conclusion ≠ some "success" then stopWith (refuse .runFailed s!"The run concluded {conclusion}")
  else pure run

/-- The manifest of the job logs, when that of the artifact is unavailable. -/
def manifestFromLog (run : RunInfo) (unavailable : AcceptanceResult) : Rule (ManifestParse × ManifestSource) :=
  match readJobLogManifest deps.api run input.runAttempt input.connection input.hint with
  | .found text => pure (deps.readers.parseReleaseManifest text, .jobLog)
  | .result result => stopWith result
  | .none incomplete =>
      let updated := (given run.updatedAt).bind deps.platform.parseDate
      if updated.any fun time => decide (input.now - time < LOG_GRACE_MS) then stopWith (.retry (.error 404))
      else
        match unavailable, incomplete with
        | .refused code message _ _, true => stopWith (refuseWith code message true)
        | _, _ => stopWith unavailable

/-- Is this the manifest of an earlier attempt of the run? -/
def ofOlderAttempt (parsed : ManifestParse) : Option Nat :=
  match parsed with
  | .ok manifest =>
      if manifest.source.runId = toString input.runId ∧ manifest.source.runAttempt < input.runAttempt then
        some manifest.source.runAttempt
      else none
  | .failed _ _ => none

def ruleSource (run : RunInfo) : Rule (ManifestParse × ManifestSource) :=
  match readArtifactManifest deps.readers deps.api input.runId input.connection with
  | .failed result false => stopWith result
  | .failed result true => manifestFromLog deps input run result
  | .ok text =>
      let parsed := deps.readers.parseReleaseManifest text
      match ofOlderAttempt input parsed with
      | some older =>
          manifestFromLog deps input run
            (refuse .artifactBinding
              s!"The release artifact is from attempt {older} of this run, not attempt {input.runAttempt}")
      | none => pure (parsed, .artifact)

/-- Rule 3: the manifest, and the service of the connection in it. -/
def ruleManifest (run : RunInfo) (parsed : ManifestParse) : Rule (ReleaseManifest × ManifestService) :=
  let c := input.connection
  match parsed with
  | .failed code message =>
      stopWith (refuse
        (match code with
        | .unknownSchema => .manifestSchema
        | .migrationsUnsupported => .manifestMigrations
        | _ => .manifestInvalid) message)
  | .ok manifest =>
      if manifest.source.runId = toString input.runId ∧ input.runAttempt < manifest.source.runAttempt then
        stopWith (.superseded
          s!"Attempt {manifest.source.runAttempt} of this run replaced attempt {input.runAttempt}")
      else if manifest.sha ≠ run.headSha ∨ manifest.source.runId ≠ toString input.runId ∨
          manifest.source.runAttempt ≠ input.runAttempt ∨
          manifest.source.ref ≠ s!"refs/heads/{c.trackedBranch}" ∨ manifest.environment ≠ c.environment then
        stopWith (refuse .manifestBinding
          "The manifest does not describe this run, commit, branch and environment")
      else
        match manifest.services.find? fun service => service.key == c.serviceKey with
        | none => stopWith (.ignored s!"The release does not include {c.serviceKey}")
        | some service => pure (manifest, service)

def ManifestImage.short (image : ManifestImage) : String :=
  s!"{image.repository}@{String.ofList (image.digest.toList.take 19)}"

/-- Rule 4, first part: the repository of an image. -/
def ruleRepository (image : ManifestImage) : Rule Unit :=
  let c := input.connection
  let namespaces := allowedNamespaces deps.platform c.owner c.repo c.registryPrefix
  match checkImageRepository deps.platform image.repository namespaces c.currentRepositories with
  | some (.namespaceOf, message) => stopWith (refuse .imageNamespace message)
  | some (.repository, message) => stopWith (refuse .imageRepository message)
  | none => pure ()

/-- Where the registry is asked for an image: a mirrored one at the record of
the registry. -/
def probeHost (image : ManifestImage) (parts : RepositoryParts) : String :=
  let c := input.connection
  match given c.registryProbeHost, given (canonicalRepository deps.platform image.repository c.owner c.registryPrefix) with
  | some host, some _ => host
  | _, _ => parts.host

/-- Rule 4, second part: the registry serves the image. -/
def ruleServed (image : ManifestImage) : Rule Unit :=
  match splitRepository deps.platform image.repository with
  | none => stopWith (refuse .imageNamespace s!"{image.repository} has no registry host")
  | some parts =>
      match deps.probe.headDigest (probeHost deps input image parts) parts.name image.digest with
      | .unreachable status => stopWith (.retry (.error status))
      | .denied _ reason =>
          stopWith (refuseWith .imageUnverified s!"The registry would not show {image.short}: {reason}" true)
      | .notFound => stopWith (refuse .imageUnverified s!"The registry does not serve {image.short}")
      | .ok digest =>
          if digest ≠ some image.digest then
            stopWith (refuse .imageUnverified s!"The registry does not serve {image.short}")
          else pure ()

/-- Rule 5: the branch policy of the environment. -/
def rulePolicy : Rule Unit :=
  let c := input.connection
  match c.protectionMode with
  | .repositorySecret => pure ()
  | .environment =>
      match deps.api.environmentPolicy c.environment with
      | .ok policy =>
          match evaluateEnvironmentPolicy policy c.trackedBranch with
          | some message => stopWith (refuse .policyWider message)
          | none => pure ()
      | .failed .notFound =>
          stopWith (refuse .policyUnreadable s!"The GitHub environment {c.environment} does not exist")
      | .failed (.rateLimited time) => stopWith (.retry (.rateLimited time))
      | .failed .unauthorized => stopWith (.retry .unauthorized)
      -- A read error is never a downgrade.
      | .failed _ =>
          stopWith (refuse .policyUnreadable
            "GitHub would not show the deployment branch policy of the environment")

def reachableFromHead (sha : String) : Rule Bool := do
  let head <- needs (deps.api.branchHead input.connection.trackedBranch)
    (refuse .notOnBranch "The tracked branch no longer exists")
  if sha = head then pure true
  else
    let toHead <- needs (deps.api.compare sha head) (refuse .notOnBranch "The release commit is unknown to GitHub")
    pure (toHead == .ahead || toHead == .identical)

/-- How the commit relates to the deployed one; none, when there is nothing to
compare. -/
def comparedToDeployed (sha : String) (reachable : Bool) : Rule (Option CompareStatus) :=
  match input.connection.deployed with
  | none => pure none
  | some deployed =>
      if deployed.sha = sha then pure none
      else
        match deps.api.compare deployed.sha sha with
        | .ok status => pure (some status)
        | .failed .notFound =>
            -- The deployed commit is gone: a candidate on the branch recovers onto it.
            if !reachable then
              stopWith (refuseWith .notOnBranch
                "The deployed commit and the release commit are both unknown to the tracked branch" true)
            else pure (some .diverged)
        | .failed failure => stopWith (.retry failure)

def orderingRefusal : OrderingCode -> RefusalCode
  | .notOnBranch => .notOnBranch
  | .behind => .orderingBehind
  | .lowerAttempt => .orderingLowerAttempt
  | .olderRun => .orderingOlderRun

/-- Rule 6: the order.  Does the release change nothing? -/
def ruleOrder (sha : String) (digests : List String) : Rule Bool := do
  let reachable <- reachableFromHead deps input sha
  let deployedToCandidate <- comparedToDeployed deps input sha reachable
  match decideOrdering ⟨input.connection.deployed, ⟨sha, input.runId, input.runAttempt, digests⟩,
    deployedToCandidate, reachable, input.connection.allowBehind⟩ with
  | .error message => .error (.thrown message)
  | .ok (.refuse code message) => stopWith (refuse (orderingRefusal code) message)
  | .ok (.accept noop) => pure noop

/-- Mirrored repositories with their origin, each once. -/
def canonicalOf (images : List ManifestImage) : List (String × String) :=
  (images.filterMap fun image =>
    (canonicalRepository deps.platform image.repository input.connection.owner
      input.connection.registryPrefix).map fun origin => (image.repository, origin)).eraseDups

def acceptedRelease (run : RunInfo) (manifest : ReleaseManifest) (service : ManifestService)
    (manifestSource : ManifestSource) : AcceptedRelease where
  runId := input.runId
  runAttempt := input.runAttempt
  runUrl := run.htmlUrl
  sha := manifest.sha
  releaseId := manifest.releaseId
  delivery := manifest.delivery
  environment := manifest.environment
  serviceKey := input.connection.serviceKey
  images := service.images
  composePath := service.composePath
  releaseServices := manifest.releaseServices
  canonical := canonicalOf deps input service.images
  runEndedAt := ((given run.updatedAt).bind deps.platform.parseDate).filter fun time => time != 0
  manifestSource := manifestSource

def rulesOfRun (run : RunInfo) : Rule AcceptanceResult := do
  let (parsed, manifestSource) <- ruleSource deps input run
  let (manifest, service) <- ruleManifest input run parsed
  service.images.forM (ruleRepository deps input)
  service.images.forM (ruleServed deps input)
  rulePolicy deps input
  let noop <- ruleOrder deps input manifest.sha (digestsOf deps.platform service.images)
  let release := acceptedRelease deps input run manifest service manifestSource
  pure (if noop then .noop release else .accepted release)

def rules : Rule AcceptanceResult := do
  let run <- ruleRun deps input
  rulesOfRun deps input run

/-- The answer of the rules; an error is what the ordering throws. -/
def acceptRelease : Except String AcceptanceResult :=
  match rules deps input with
  | .ok result => .ok result
  | .error (.answer result) => .ok result
  | .error (.thrown message) => .error message

end GhaRelease
end Dokploy
