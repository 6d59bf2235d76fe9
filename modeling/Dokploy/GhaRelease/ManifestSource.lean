import Mathlib.Data.List.Infix
import Dokploy.GhaRelease.LogManifest
import Dokploy.GhaRelease.Release

namespace Dokploy
namespace GhaRelease

open Foundation
open Foundation.Unicode

/-!
# Where the manifest of a release is read

The manifest is the artifact of the run.  Where that is not available, it is the
marker line in the log of a job of the same attempt.  A hint and the name of the
release job only decide which logs are read first: the jobs are read in two
groups, and the first group with a marker decides.
-/

inductive ManifestRead where
  | ok (text : Units)
  /-- `fallback`: the job log may still hold the manifest. -/
  | failed (result : AcceptanceResult) (fallback : Bool)
  deriving DecidableEq, Repr

def unavailable (code : RefusalCode) (message : String) : ManifestRead := .failed (refuse code message) true

/-- A rate limit or a dead token fails the log read the same way. -/
def transient (failure : ApiFailure) : ManifestRead :=
  .failed (.retry failure)
    (match failure with
    | .rateLimited _ | .unauthorized => false
    | _ => true)

/-- The newest artifact with the name of a release. -/
def newestArtifact (listed : List ArtifactInfo) : Option ArtifactInfo :=
  ((listed.filter fun artifact => artifact.name == MANIFEST_ARTIFACT_NAME).mergeSort fun first second =>
    decide (second.id ≤ first.id)).head?

def readArtifactManifest (readers : Readers) (api : ActionsApi) (runId : Nat) (c : ConnectionFacts) : ManifestRead :=
  match api.artifacts runId MANIFEST_ARTIFACT_NAME with
  | .failed .notFound => unavailable .artifactMissing "The run has no release artifact"
  | .failed failure => transient failure
  | .ok listed =>
      match newestArtifact listed with
      | none => unavailable .artifactMissing "The run has no release artifact"
      | some artifact =>
          if artifact.expired then unavailable .artifactExpired "The release artifact has expired"
          else if artifact.workflowRunId ≠ some runId ∨ artifact.workflowRunRepositoryId ≠ some c.repoId ∨
              artifact.workflowRunHeadRepositoryId ≠ some c.repoId then
            -- An artifact that claims to belong elsewhere is an anomaly, not an absence.
            .failed (refuse .artifactBinding "The release artifact was not uploaded by this run of this repository")
              false
          else if 2 * MANIFEST_MAX_BYTES < artifact.sizeInBytes then
            unavailable .artifactUnreadable "The release artifact is too large"
          else
            match api.downloadArtifact artifact.id (2 * MANIFEST_MAX_BYTES) with
            | .failed .notFound => unavailable .artifactExpired "The release artifact is gone"
            | .failed failure => transient failure
            | .ok downloaded =>
                match readers.readZipEntry downloaded s!"{MANIFEST_ARTIFACT_NAME}.json" MANIFEST_MAX_BYTES with
                | .error reason => unavailable .artifactUnreadable reason
                | .ok bytes => .ok (utf16 (read bytes))

/-- At most this many logs are read for one release. -/
def MAX_LOG_JOBS : Nat := 10

def JOB_LOG_MAX_BYTES : Nat := 16 * 1024 * 1024

/-- Where the wake-up says the release ran. -/
structure JobHint where
  job : Option String
  runner : Option String
  deriving DecidableEq, Repr

def given (text : Option String) : Option String := text.filter fun value => value != ""

def releaseLikeName (name : String) : Bool :=
  let letters := name.toList.map Char.toLower
  decide ("dokploy".toList <:+: letters) || decide ("release".toList <:+: letters)

def releaseLike (job : JobInfo) : Bool := releaseLikeName job.name || job.stepNames.any releaseLikeName

/-- The jobs of this run and attempt, on its commit, that ended well. -/
def successfulJobs (jobs : List JobInfo) (runId attempt : Nat) (headSha : String) : List JobInfo :=
  jobs.filter fun job =>
    job.status == "completed" && job.conclusion == some "success" &&
      (job.runId == none || job.runId == some runId) && (job.attempt == none || job.attempt == some attempt) &&
      (job.headSha == none || job.headSha == some headSha)

def preferredJobs (successful : List JobInfo) (releaseJobName : Option String) (hint : Option JobHint) :
    List JobInfo :=
  match given releaseJobName with
  | some name => successful.filter fun job => job.name == name
  | none =>
      let onRunner :=
        match given (hint.bind JobHint.runner) with
        | some runner => successful.filter fun job => job.runnerName == some runner
        | none => []
      match given (hint.bind JobHint.job) with
      | some name => if onRunner = [] then successful.filter fun job => job.name == name else onRunner
      | none => onRunner

structure ReleaseJobs where
  preferred : List JobInfo
  rest : List JobInfo
  overCap : Bool
  deriving DecidableEq, Repr

/-- The jobs whose log may hold the marker.  A hint only orders them. -/
def releaseJobs (jobs : List JobInfo) (runId attempt : Nat) (headSha : String) (releaseJobName : Option String)
    (hint : Option JobHint) : ReleaseJobs :=
  let successful := successfulJobs jobs runId attempt headSha
  let preferred := preferredJobs successful releaseJobName hint
  let others := successful.filter fun job => !(preferred.map JobInfo.id).contains job.id
  ⟨preferred.take MAX_LOG_JOBS,
    (others.filter fun job => releaseLike job) ++ others.filter fun job => !releaseLike job,
    decide (MAX_LOG_JOBS < successful.length)⟩

inductive LogRead where
  | found (text : Units)
  /-- `incomplete`: the absence proves nothing. -/
  | none (incomplete : Bool)
  | result (result : AcceptanceResult)
  deriving DecidableEq, Repr

/-- What a group of jobs left: the logs, what is left of the budget, and whether
a log was missing. -/
structure GroupLogs where
  logs : List Units
  budget : Nat
  incomplete : Bool
  deriving DecidableEq, Repr

/-- Read the logs of a group one after the other. -/
def readLogs (api : ActionsApi) : List JobInfo -> GroupLogs -> Except ApiFailure GroupLogs
  | [], group => .ok group
  | job :: jobs, group =>
      if group.budget = 0 then .ok { group with incomplete := true }
      else
        let group := { group with budget := group.budget - 1 }
        match api.jobLog job.id JOB_LOG_MAX_BYTES with
        | .ok log => readLogs api jobs { group with logs := group.logs ++ [log] }
        -- Too large to be the small release job.
        | .failed (.error 413) => readLogs api jobs group
        | .failed .notFound => readLogs api jobs { group with incomplete := true }
        | .failed failure => .error failure

/-- The groups are read whole, and the first one with a marker decides. -/
def readGroups (api : ActionsApi) : List (List JobInfo) -> Nat -> Bool -> LogRead
  | [], _, incomplete => .none incomplete
  | jobs :: groups, budget, incomplete =>
      match readLogs api jobs ⟨[], budget, incomplete⟩ with
      | .error failure => .result (.retry failure)
      | .ok group =>
          match extractLogManifest group.logs with
          | .ok text => .found text
          | .failed .none _ => readGroups api groups group.budget group.incomplete
          | .failed .masked message => .result (refuse .manifestMasked message)
          | .failed _ message => .result (refuse .manifestInvalid message)

def readJobLogManifest (api : ActionsApi) (run : RunInfo) (runAttempt : Nat) (c : ConnectionFacts)
    (hint : Option JobHint) : LogRead :=
  match api.runJobs run.id runAttempt with
  | .failed .notFound => .none true
  | .failed failure => .result (.retry failure)
  | .ok jobs =>
      let chosen := releaseJobs jobs run.id runAttempt run.headSha c.releaseJobName hint
      readGroups api [chosen.preferred, chosen.rest] MAX_LOG_JOBS
        (decide (chosen.preferred.length + chosen.rest.length = 0) || chosen.overCap)

end GhaRelease
end Dokploy
