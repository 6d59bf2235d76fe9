import Dokploy.DeployGate.Results
import Dokploy.GhaRelease.ActionsApi

namespace Dokploy
namespace GhaRelease

open Foundation
open DeployGate

/-!
# Manifests and what becomes of a release

A release is a run and an attempt that a wake-up named, and a manifest says what
it contains.  Whatever is found out about it ends in one of seven results; the
refusals carry whether the service is blocked by them and whether they are looked
at again.

Parsing a manifest and reading an archive are parameters; both only ever get the
bytes that GitHub answered.
-/

def MANIFEST_ARTIFACT_NAME : String := "dokploy-release"

structure ManifestImage where
  name : String
  composeService : String
  /-- The repository and the digest. -/
  ref : String
  repository : String
  digest : String
  deriving DecidableEq, Repr

structure ManifestService where
  key : String
  images : List ManifestImage
  composePath : Option String
  deriving DecidableEq, Repr

structure ManifestRun where
  ref : String
  runId : String
  runAttempt : Nat
  deriving DecidableEq, Repr

structure ReleaseManifest where
  schema : String
  sha : String
  delivery : Delivery
  releaseId : String
  releaseServices : List String
  source : ManifestRun
  environment : String
  services : List ManifestService
  deriving DecidableEq, Repr

inductive ManifestFailure where
  | invalidJson
  | unknownSchema
  | invalid
  | migrationsUnsupported
  deriving DecidableEq, Repr

inductive ManifestParse where
  | ok (manifest : ReleaseManifest)
  | failed (code : ManifestFailure) (message : String)
  deriving DecidableEq, Repr

structure Readers where
  parseReleaseManifest : Units -> ManifestParse
  /-- The entry of an archive with a name, up to a size, or why there is none. -/
  readZipEntry : List UInt8 -> String -> Nat -> Except String (List UInt8)

/-- Who holds the credential of the registry. -/
inductive ProtectionMode where
  | environment
  | repositorySecret
  deriving DecidableEq, Repr

structure ConnectionFacts where
  repoId : Nat
  workflowPath : String
  trackedBranch : String
  environment : String
  serviceKey : String
  owner : String
  repo : String
  protectionMode : ProtectionMode
  registryPrefix : Option String
  registryProbeHost : Option String
  deployed : Option ReleaseStamp
  currentRepositories : List String
  /-- Only for an explicit rollback. -/
  allowBehind : Bool
  releaseJobName : Option String
  deriving DecidableEq, Repr

inductive ManifestSource where
  | artifact
  | jobLog
  deriving DecidableEq, Repr

structure AcceptedRelease where
  runId : Nat
  runAttempt : Nat
  runUrl : String
  sha : String
  releaseId : String
  delivery : Delivery
  environment : String
  serviceKey : String
  images : List ManifestImage
  composePath : Option String
  releaseServices : List String
  /-- Mirrored repositories with the ones they were copied from. -/
  canonical : List (String × String)
  runEndedAt : Option Int
  manifestSource : ManifestSource
  deriving DecidableEq, Repr

inductive RefusalCode where
  | runMissing
  | runPath
  | runBranch
  | runEvent
  | runRepository
  | runFailed
  | artifactMissing
  | artifactExpired
  | artifactBinding
  | artifactUnreadable
  | manifestInvalid
  | manifestSchema
  | manifestMigrations
  | manifestBinding
  | manifestMasked
  | imageNamespace
  | imageRepository
  | imageUnverified
  | policyWider
  | policyUnreadable
  | notOnBranch
  | orderingBehind
  | orderingLowerAttempt
  | orderingOlderRun
  deriving DecidableEq, Repr

/-- The run is proven to be the connection's own release run, so the release
itself is broken. -/
def BLOCKING : List RefusalCode :=
  [.manifestInvalid, .manifestSchema, .manifestMigrations, .manifestBinding, .imageNamespace, .imageRepository,
    .imageUnverified, .policyWider, .policyUnreadable]

inductive AcceptanceResult where
  | pending (reason : String)
  | retry (cause : ApiFailure)
  | ignored (reason : String)
  | refused (code : RefusalCode) (message : String) (block recheck : Bool)
  | superseded (reason : String)
  | noop (release : AcceptedRelease)
  | accepted (release : AcceptedRelease)
  deriving DecidableEq, Repr

def RECHECK : List RefusalCode := [.policyWider, .policyUnreadable]

def refuseWith (code : RefusalCode) (message : String) (recheck : Bool) : AcceptanceResult :=
  .refused code message (BLOCKING.contains code) recheck

def refuse (code : RefusalCode) (message : String) : AcceptanceResult :=
  refuseWith code message (RECHECK.contains code)

/-- Every rule goes on, ends with an answer, or throws. -/
inductive Stop where
  | answer (result : AcceptanceResult)
  | thrown (message : String)
  deriving DecidableEq, Repr

abbrev Rule := Except Stop

def stopWith {Value : Type} (result : AcceptanceResult) : Rule Value := .error (.answer result)

theorem bind_eq_ok {First Second : Type} {first : Rule First} {next : First -> Rule Second} {result : Second} :
    (first >>= next) = .ok result <-> Exists fun value => first = .ok value ∧ next value = .ok result := by
  cases first with
  | error _ => exact ⟨nofun, nofun⟩
  | ok value => exact ⟨fun done => ⟨value, rfl, done⟩, fun ⟨_, same, done⟩ => Except.ok.inj same ▸ done⟩

def needs {Value : Type} (result : ApiResult Value) (onMissing : AcceptanceResult) : Rule Value :=
  match result with
  | .ok value => .ok value
  | .failed .notFound => stopWith onMissing
  | .failed failure => stopWith (.retry failure)

theorem ok_of_needs {Value : Type} {result : ApiResult Value} {onMissing : AcceptanceResult} {value : Value}
    (done : needs result onMissing = .ok value) : result = .ok value := by
  cases result with
  | ok found => exact congrArg ApiResult.ok (Except.ok.inj done)
  | failed failure => cases failure <;> cases done

def digestsOf (platform : Platform) (images : List ManifestImage) : List String :=
  (images.map fun image => image.digest).mergeSort fun first second => platform.before first second

end GhaRelease
end Dokploy
