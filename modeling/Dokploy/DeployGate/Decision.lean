import Dokploy.DeployGate.Results

namespace Dokploy
namespace DeployGate

/-!
# The decision of the deploy gate

The gate waits for groups of names.  Something that failed blocks at once,
something missing or running is waited for until the time is up, and a release
is deployed when nothing is left to wait for.
-/

inductive ExpectedSource where
  | required
  | lastGreen
  | fallback
  deriving DecidableEq, Repr

structure ExpectedCheckSet where
  source : ExpectedSource
  names : List String
  /-- Required checks pinned to one GitHub App: name to app id. -/
  appIds : List (String × Nat)
  deriving DecidableEq, Repr

inductive GateDecision where
  | deploy
  | waiting (reason : String) (pendingNames : List String)
  | blocked (reason : String) (failedNames neverReported unfinished : List String)
  deriving DecidableEq, Repr

inductive GateMode where
  | image
  | checks
  | workflows
  deriving DecidableEq, Repr

structure DeployGateInput where
  mode : GateMode
  /-- Milliseconds since the epoch. -/
  now : Int
  startedAt : Option Int
  timeoutMs : Int
  expected : Option ExpectedCheckSet
  checks : List GateCheck
  workflows : List String
  workflowRuns : List GateWorkflowRun
  excludedRunIds : List Nat
  trust : GateTrust
  appSlug : Option String
  isExcluded : Option GateExclusion

inductive Noun where
  | check
  | workflow
  deriving DecidableEq, Repr

structure Pending where
  name : String
  since : Option Int
  deriving DecidableEq, Repr

structure Group where
  noun : Noun
  failed : List String
  missing : List String
  running : List Pending

structure Clock where
  now : Int
  gateStart : Int
  timeoutMs : Int

def minutes (ms : Int) : Int := max 1 ((ms + 30000) / 60000)

def list (names : List String) : String := ", ".intercalate names

def Noun.label : Noun -> String
  | .check => "Check"
  | .workflow => "Workflow"

def checkWord (names : List String) (noun : Noun) : String :=
  if names.length = 1 then noun.label else noun.label ++ "s"

/-- What of a group has been running for the whole timeout. -/
def Group.stuck (group : Group) (clock : Clock) : List String :=
  (group.running.filter fun pending =>
    decide (clock.timeoutMs ≤ clock.now - pending.since.getD clock.gateStart)).map (·.name)

def Group.pendingNames (group : Group) : List String :=
  group.missing ++ group.running.map (·.name)

def Clock.timedOut (clock : Clock) : Bool :=
  decide (clock.timeoutMs ≤ clock.now - clock.gateStart)

/-- What is said about a group that ran out of time. -/
def Group.lateParts (group : Group) (clock : Clock) : List String :=
  let late := group.stuck clock
  (if clock.timedOut && group.missing != [] then
    [checkWord group.missing group.noun ++ " " ++ list group.missing ++ " " ++
      (if group.noun = .check then "never reported" else "never ran")]
  else []) ++
  (if late ≠ [] then
    [checkWord late group.noun ++ " " ++ list late ++ " did not finish in " ++
      toString (minutes clock.timeoutMs) ++ " minutes"]
  else [])

def decideGroups (groups : List Group) (clock : Clock) : GateDecision :=
  let failed := groups.filter fun group => group.failed != []
  let pendingNames := unique (groups.flatMap Group.pendingNames)
  let parts := groups.flatMap fun group => group.lateParts clock
  if failed ≠ [] then
    .blocked
      ("; ".intercalate (failed.map fun group =>
        checkWord group.failed group.noun ++ " " ++ list group.failed ++ " failed"))
      (unique (failed.flatMap (·.failed))) [] []
  else if pendingNames = [] then .deploy
  else if parts = [] then .waiting ("Waiting for " ++ list pendingNames) pendingNames
  else
    .blocked ("; ".intercalate parts) []
      (unique (groups.flatMap fun group => if clock.timedOut then group.missing else []))
      (unique (groups.flatMap fun group => group.stuck clock))

/-- The last segment of a path, without a version after an at sign. -/
def baseName (path : String) : String :=
  (((path.splitOn "@").headD "").splitOn "/").getLastD ""

/-- An entry that ends in `.yml` or `.yaml`, in any case, is a file name. -/
def isFileName (wanted : String) : Bool :=
  let lower := wanted.toList.map Char.toLower
  ".yml".toList.isSuffixOf lower || ".yaml".toList.isSuffixOf lower

/-- Does the workflow run answer to the entry? -/
def runMatches (run : GateWorkflowRun) (wanted : String) : Bool :=
  if isFileName wanted then baseName run.path == wanted || run.path == wanted
  else run.name == wanted

def worst (verdicts : List Verdict) : Verdict :=
  if Verdict.failed ∈ verdicts then .failed
  else if Verdict.running ∈ verdicts then .running
  else .passed

def asLike (name : String) : Verdict -> CheckRunLike
  | .passed => ⟨name, "completed", some "success"⟩
  | .failed => ⟨name, "completed", some "failure"⟩
  | .running => ⟨name, "in_progress", none⟩

structure Result where
  verdict : Verdict
  since : Option Int
  deriving DecidableEq, Repr

/-- The most recent start of what is still running. -/
def lastStart (found : List Result) : Option Int :=
  ((found.filter fun result => result.verdict == .running).filterMap (·.since)).max?

/-- Wait for names, each judged by the worst of its results. -/
def waitFor (names : List String) (results : String -> List Result) (noun : Noun) : Group :=
  let missing := names.filter fun name => decide (results name = [])
  let found := names.filter fun name => !decide (results name = [])
  let likes := found.map fun name => asLike name (worst ((results name).map (·.verdict)))
  match evaluateRequiredChecks (names.filter fun name => !decide (name ∈ missing)) likes with
  | .failed failed => ⟨noun, failed, missing, []⟩
  | .pending waitingOn => ⟨noun, [], missing, waitingOn.map fun name => ⟨name, lastStart (results name)⟩⟩
  | .satisfied => ⟨noun, [], missing, []⟩

/-- Names the object of the pins answers for without having them as its own. -/
def OBJECT_PROPERTIES : List String :=
  ["constructor", "hasOwnProperty", "isPrototypeOf", "propertyIsEnumerable", "toLocaleString", "toString",
    "valueOf", "__proto__", "__defineGetter__", "__defineSetter__", "__lookupGetter__", "__lookupSetter__"]

namespace DeployGateInput

def exclusion (platform : Platform) (input : DeployGateInput) : GateExclusion :=
  input.isExcluded.getD (createDefaultExclusion platform input.appSlug input.excludedRunIds)

def resolveInput (platform : Platform) (input : DeployGateInput) : ResolveInput where
  checks := input.checks
  workflowRuns := input.workflowRuns
  trust := input.trust
  excludedRunIds := input.excludedRunIds
  isExcluded := input.exclusion platform

/-- The results of the commit that count. -/
def resolved (platform : Platform) (input : DeployGateInput) : List ResolvedCheck :=
  resolveChecks platform (input.resolveInput platform)

def runs (platform : Platform) (input : DeployGateInput) : List GateWorkflowRun :=
  latestTrustedRuns platform input.workflowRuns input.trust input.excludedRunIds

def appIds (input : DeployGateInput) : List (String × Nat) :=
  match input.expected with
  | none => []
  | some expected => expected.appIds

/-- The names that are waited for; none, when there is no expected set or only
the fallback. -/
def expectedNames (platform : Platform) (input : DeployGateInput) : List String :=
  match input.expected with
  | none => []
  | some expected =>
      if expected.source = .fallback then []
      else (unique expected.names).filter fun name => !input.exclusion platform ⟨name, .status, none, none⟩

/-- Is the result from the app its name is pinned to, if it is pinned to one? -/
def fromPinned (input : DeployGateInput) (result : ResolvedCheck) : Bool :=
  match input.appIds.lookup result.name with
  | some appId => result.kind == .checkRun && result.appId == some appId
  | none => !decide (result.name ∈ OBJECT_PROPERTIES)

/-- The results that decide an expected name: those of the pinned app, where one
is pinned. -/
def deciding (platform : Platform) (input : DeployGateInput) (name : String) : List ResolvedCheck :=
  (input.resolved platform).filter fun result => result.name == name && input.fromPinned result

end DeployGateInput

def failedRuns (runs : List GateWorkflowRun) : List String :=
  unique ((runs.filter fun run => run.verdict == .failed).map (·.name))

def evaluateChecks (platform : Platform) (input : DeployGateInput) (clock : Clock) : GateDecision :=
  let resolved := input.resolved platform
  let runs := input.runs platform
  let expectedNames := input.expectedNames platform
  if expectedNames ≠ [] then
    let checkGroup := waitFor expectedNames
      (fun name => (input.deciding platform name).map fun result => ⟨result.verdict, result.since⟩) .check
    let otherFailed := unique ((resolved.filter fun result =>
      result.verdict == .failed && !decide (result.name ∈ expectedNames)).map (·.name))
    decideGroups
      [{ checkGroup with failed := unique (checkGroup.failed ++ otherFailed) },
        ⟨.workflow, failedRuns runs, [], []⟩] clock
  else if resolved = [] ∧ runs = [] then
    if clock.timedOut then
      .blocked ("No checks reported on this commit in " ++ toString (minutes clock.timeoutMs) ++ " minutes") [] [] []
    else .waiting "Waiting for the first check to start" []
  else
    decideGroups
      [⟨.check, unique ((resolved.filter fun result => result.verdict == .failed).map (·.name)), [],
          (resolved.filter fun result => result.verdict == .running).map fun result => ⟨result.name, result.since⟩⟩,
        ⟨.workflow, failedRuns runs, [],
          (runs.filter fun run => run.verdict == .running).map fun run =>
            ⟨run.name, time platform run.startedAt⟩⟩] clock

def evaluateWorkflows (platform : Platform) (input : DeployGateInput) (clock : Clock) : GateDecision :=
  let wanted := unique input.workflows
  if wanted = [] then .blocked "No workflow is chosen for the gate" [] [] []
  else
    decideGroups
      [waitFor wanted
        (fun name => ((input.runs platform).filter (runMatches · name)).map fun run =>
          ⟨run.verdict, time platform run.startedAt⟩) .workflow] clock

def evaluateDeployGate (platform : Platform) (input : DeployGateInput) : GateDecision :=
  let clock : Clock := ⟨input.now, input.startedAt.getD input.now, input.timeoutMs⟩
  match input.mode with
  | .image => .deploy
  | .workflows => evaluateWorkflows platform input clock
  | .checks => evaluateChecks platform input clock

end DeployGate
end Dokploy
