import Dokploy.Foundation.LatestBy

namespace Dokploy
namespace DeployGate

open Foundation

/-!
# The results of a commit that count

GitHub reports check runs, commit statuses and workflow runs for a commit.  The
sources are not equal: a workflow run counts only when it comes from the tracked
branch of the connection's own repository, a check run of a workflow counts
through such a run, and a status counts for a name no check run reports.

What the language does with texts is a parameter.  Lower-casing, reading a date
and comparing for a sort are only ever applied, so every result holds for the
real ones.
-/

structure Platform where
  toLowerCase : String -> String
  /-- Milliseconds since the epoch, or nothing for a text that is no date. -/
  parseDate : String -> Option Int
  /-- The order in which texts are sorted. -/
  before : String -> String -> Bool

inductive CheckKind where
  | checkRun
  | status
  deriving DecidableEq, Repr

/-- One check run or commit status of the release commit, as GitHub reports it. -/
structure GateCheck where
  name : String
  kind : CheckKind
  status : String
  conclusion : Option String
  id : Nat
  startedAt : Option String
  appSlug : Option String
  appId : Option Nat
  runId : Option Nat
  checkSuiteId : Option Nat
  deriving DecidableEq, Repr

/-- A workflow run of the release commit. -/
structure GateWorkflowRun where
  id : Nat
  name : String
  path : String
  runAttempt : Nat
  status : String
  conclusion : Option String
  startedAt : Option String
  event : String
  headBranch : Option String
  headRepository : Option String
  headRepositoryId : Option Nat
  checkSuiteId : Option Nat
  deriving DecidableEq, Repr

/-- The branch and repository a run must come from to count. -/
structure GateTrust where
  branch : String
  repository : String
  repositoryId : Option Nat
  deriving DecidableEq, Repr

structure ExclusionView where
  name : String
  kind : CheckKind
  appSlug : Option String
  runId : Option Nat
  deriving DecidableEq, Repr

def GateCheck.view (check : GateCheck) : ExclusionView :=
  ⟨check.name, check.kind, check.appSlug, check.runId⟩

abbrev GateExclusion : Type := ExclusionView -> Bool

/-- Status contexts Dokploy posts to GitHub itself start with this. -/
def DOKPLOY_STATUS_PREFIX : String := "dokploy/"

/-- Events whose runs are results of the tracked branch. -/
def TRUSTED_RUN_EVENTS : List String := ["push", "workflow_dispatch"]

def createDefaultExclusion (platform : Platform) (appSlug : Option String) (excludedRunIds : List Nat) :
    GateExclusion := fun check =>
  if DOKPLOY_STATUS_PREFIX.toList.isPrefixOf (platform.toLowerCase check.name).toList then true
  else if appSlug.getD "" != "" && check.appSlug == appSlug then true
  else match check.runId with
    | none => false
    | some runId => decide (runId ∈ excludedRunIds)

structure CheckRunLike where
  name : String
  status : String
  conclusion : Option String

inductive RequiredChecksState where
  | satisfied
  | pending (waitingOn : List String)
  | failed (failed : List String)

/-- Conclusions GitHub reports that do not block a deploy. -/
def PASSING_CONCLUSIONS : List String := ["success", "neutral", "skipped"]

/-- The newest run of a name: the list is oldest first. -/
def latestByName (runs : List CheckRunLike) (name : String) : Option CheckRunLike :=
  runs.reverse.find? (·.name == name)

def isWaiting (runs : List CheckRunLike) (name : String) : Bool :=
  match latestByName runs name with
  | none => true
  | some run => run.status != "completed"

def isFailed (runs : List CheckRunLike) (name : String) : Bool :=
  match latestByName runs name with
  | none => false
  | some run => run.status == "completed" && !decide (run.conclusion.getD "" ∈ PASSING_CONCLUSIONS)

def evaluateRequiredChecks (requiredChecks : List String) (runs : List CheckRunLike) : RequiredChecksState :=
  let failed := requiredChecks.filter (isFailed runs)
  let waitingOn := requiredChecks.filter (isWaiting runs)
  if requiredChecks = [] then .satisfied
  else if failed ≠ [] then .failed failed
  else if waitingOn ≠ [] then .pending waitingOn
  else .satisfied

inductive Verdict where
  | passed
  | failed
  | running
  deriving DecidableEq, Repr

/-- The pass or fail rule applied to one result. -/
def verdictOf (status : String) (conclusion : Option String) : Verdict :=
  match evaluateRequiredChecks ["x"] [⟨"x", status, conclusion⟩] with
  | .satisfied => .passed
  | .failed _ => .failed
  | .pending _ => .running

def GateCheck.verdict (check : GateCheck) : Verdict := verdictOf check.status check.conclusion

def GateWorkflowRun.verdict (run : GateWorkflowRun) : Verdict := verdictOf run.status run.conclusion

def time (platform : Platform) (value : Option String) : Option Int :=
  match value with
  | none | some "" => none
  | some text => platform.parseDate text

/-- Is the first a later attempt than the second?  By start time when both have
one, else by id. -/
def isLater (platform : Platform) (id otherId : Nat) (startedAt otherStartedAt : Option String) : Bool :=
  match time platform startedAt, time platform otherStartedAt with
  | some start, some otherStart =>
      if start ≠ otherStart then decide (otherStart < start) else decide (otherId < id)
  | _, _ => decide (otherId < id)

/-- A re-run keeps the run id and raises the attempt. -/
def withAttempt (run : GateWorkflowRun) : Nat :=
  run.id * 1000 + min run.runAttempt 999

def isLaterCheck (platform : Platform) (check other : GateCheck) : Bool :=
  isLater platform check.id other.id check.startedAt other.startedAt

def isLaterRun (platform : Platform) (run other : GateWorkflowRun) : Bool :=
  isLater platform (withAttempt run) (withAttempt other) run.startedAt other.startedAt

/-- The run's commit lives in the connection's repository. -/
def fromTrustedRepository (platform : Platform) (run : GateWorkflowRun) (trust : GateTrust) : Bool :=
  match trust.repositoryId, run.headRepositoryId with
  | some trusted, some head => head == trusted
  | _, _ =>
      match run.headRepository with
      | none => false
      | some head => platform.toLowerCase head == platform.toLowerCase trust.repository

def isTrustedRun (platform : Platform) (run : GateWorkflowRun) (trust : GateTrust) : Bool :=
  decide (run.event ∈ TRUSTED_RUN_EVENTS) && run.headBranch == some trust.branch &&
    fromTrustedRepository platform run trust

def workflowKey (run : GateWorkflowRun) : String :=
  if run.path = "" then run.name else run.path

/-- The latest run of each workflow among the runs that count. -/
def latestTrustedRuns (platform : Platform) (runs : List GateWorkflowRun) (trust : GateTrust)
    (excludedRunIds : List Nat) : List GateWorkflowRun :=
  let counting := runs.filter fun run =>
    !decide (run.id ∈ excludedRunIds) && isTrustedRun platform run trust
  (LatestBy.latestOf (isLaterRun platform) (counting.map fun run => (workflowKey run, run))).map (·.2)

/-- One result that counts, after the sources were sorted out. -/
structure ResolvedCheck where
  name : String
  kind : CheckKind
  verdict : Verdict
  appId : Option Nat
  since : Option Int
  deriving DecidableEq, Repr

structure ResolveInput where
  checks : List GateCheck
  workflowRuns : List GateWorkflowRun
  trust : GateTrust
  excludedRunIds : List Nat
  isExcluded : GateExclusion

/-- The run behind a check run: by its run id, else by its check suite.  A later
run in the list replaces an earlier one under the same id. -/
def runOf (runs : List GateWorkflowRun) (check : GateCheck) : Option GateWorkflowRun :=
  let byId := check.runId.bind fun runId => runs.reverse.find? (·.id == runId)
  byId.orElse fun _ => check.checkSuiteId.bind fun suite => runs.reverse.find? (·.checkSuiteId == some suite)

/-- Under which key a result competes; none, when it does not count. -/
def resultKey (runs : List GateWorkflowRun) (latestIds : List Nat) (check : GateCheck) : Option String :=
  if check.kind = .status then some ("status::" ++ check.name)
  else if check.appSlug = some "github-actions" ∨ check.runId ≠ none then
    match runOf runs check with
    | none => none
    | some run =>
        if run.id ∈ latestIds then some ("wf:" ++ workflowKey run ++ "::" ++ check.name) else none
  else
    let app := (check.appSlug.orElse fun _ => check.appId.map toString).getD ""
    some ("app:" ++ app ++ "::" ++ check.name)

def resolveChecks (platform : Platform) (input : ResolveInput) : List ResolvedCheck :=
  let latestRuns := latestTrustedRuns platform input.workflowRuns input.trust input.excludedRunIds
  let keyed := input.checks.filterMap fun check =>
    if input.isExcluded check.view then none
    else (resultKey input.workflowRuns (latestRuns.map (·.id)) check).map fun key => (key, check)
  let latest := (LatestBy.latestOf (isLaterCheck platform) keyed).map (·.2)
  let checkRunNames := (latest.filter fun (check : GateCheck) => check.kind == .checkRun).map (·.name)
  (latest.filter fun (check : GateCheck) => !(check.kind == .status && decide (check.name ∈ checkRunNames))).map
    fun check => ⟨check.name, check.kind, check.verdict, check.appId, time platform check.startedAt⟩

def unique (names : List String) : List String := names.eraseDups

/-- The names of the check runs of a commit, when that commit is green. -/
def greenCheckRunNames (platform : Platform) (input : ResolveInput) : Option (List String) :=
  let resolved := resolveChecks platform
    { input with checks := input.checks.filter fun check => check.kind == .checkRun }
  let runs := latestTrustedRuns platform input.workflowRuns input.trust input.excludedRunIds
  if resolved = [] then none
  else if resolved.any fun result => result.verdict != .passed then none
  else if runs.any fun run => run.verdict != .passed then none
  else some ((unique (resolved.map (·.name))).mergeSort platform.before)

end DeployGate
end Dokploy
