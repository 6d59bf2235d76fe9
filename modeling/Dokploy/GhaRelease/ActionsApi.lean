import Dokploy.Foundation.Unicode
import Dokploy.GhaRelease.Ordering

namespace Dokploy
namespace GhaRelease

open Foundation

/-!
# What GitHub and the registry answer

Every call either answers with a value or fails in one of six ways.  The calls
only read, so what GitHub answers is a function of the question.
-/

inductive ApiFailure where
  | notModified
  | notFound
  | unauthorized
  | forbidden (message : String)
  | rateLimited (retryAt : Int)
  | error (status : Nat)
  deriving DecidableEq, Repr

inductive ApiResult (Value : Type) where
  | ok (value : Value)
  | failed (failure : ApiFailure)
  deriving DecidableEq, Repr

structure RunInfo where
  id : Nat
  attempt : Nat
  /-- Without the ref GitHub may put behind it. -/
  path : String
  headBranch : Option String
  headSha : String
  event : String
  status : String
  conclusion : Option String
  repositoryId : Option Nat
  headRepositoryId : Option Nat
  htmlUrl : String
  runStartedAt : Option String
  updatedAt : Option String
  deriving DecidableEq, Repr

structure ArtifactInfo where
  id : Nat
  name : String
  expired : Bool
  sizeInBytes : Nat
  workflowRunId : Option Nat
  workflowRunRepositoryId : Option Nat
  workflowRunHeadRepositoryId : Option Nat
  deriving DecidableEq, Repr

structure JobInfo where
  id : Nat
  runId : Option Nat
  attempt : Option Nat
  name : String
  status : String
  conclusion : Option String
  headSha : Option String
  runnerName : Option String
  stepNames : List String
  deriving DecidableEq, Repr

structure BranchPolicy where
  name : String
  type : String
  deriving DecidableEq, Repr

structure EnvironmentPolicy where
  customBranchPolicies : Bool
  protectedBranches : Bool
  policies : List BranchPolicy
  deriving DecidableEq, Repr

structure ActionsApi where
  branchHead : String -> ApiResult String
  runAttempt : Nat -> Nat -> ApiResult RunInfo
  artifacts : Nat -> String -> ApiResult (List ArtifactInfo)
  downloadArtifact : Nat -> Nat -> ApiResult (List UInt8)
  /-- The jobs of one attempt of a run. -/
  runJobs : Nat -> Nat -> ApiResult (List JobInfo)
  /-- The log of a job, refused above a number of bytes. -/
  jobLog : Nat -> Nat -> ApiResult Units
  compare : String -> String -> ApiResult CompareStatus
  environmentPolicy : String -> ApiResult EnvironmentPolicy

inductive ProbeResult where
  | ok (digest : Option String)
  | notFound
  | unreachable (status : Nat)
  | denied (status : Nat) (reason : String)
  deriving DecidableEq, Repr

/-- The digest a registry serves: by host, name and digest. -/
structure RegistryProbe where
  headDigest : String -> String -> String -> ProbeResult

end GhaRelease
end Dokploy
