import Dokploy.DeployGate.Decision
import Dokploy.Foundation.Inserted

namespace Dokploy
namespace DeployGate

open Foundation

/-!
# Runs that do not count cannot be seen

Someone without access to the tracked branch can still make workflow runs
appear on the commit, by a pull request from a fork or an event of another kind,
and each such run reports check runs.  An input with any number of them, put in
anywhere, is judged as the input without them.
-/

/-- A run that someone outside the tracked branch adds to an input: it is not
trusted, and its id and its check suite are its own. -/
structure Outside (platform : Platform) (input : DeployGateInput) (run : GateWorkflowRun) : Prop where
  untrusted : isTrustedRun platform run input.trust = false
  freshId : forall known, known ∈ input.workflowRuns -> known.id ≠ run.id
  freshSuite : forall known, known ∈ input.workflowRuns -> known.checkSuiteId ≠ none ->
    known.checkSuiteId ≠ run.checkSuiteId
  /-- A check of the input that already names the run was not one of another run. -/
  unclaimed : forall check, check ∈ input.checks -> check.runId = some run.id ->
    runOf input.workflowRuns check = none

/-- A check run is attributed to a run by its run id or, for checks of GitHub
Actions that name no listed run, by its check suite. -/
def Attributed (runs : List GateWorkflowRun) (check : GateCheck) (run : GateWorkflowRun) : Prop :=
  check.kind = .checkRun ∧
    (check.runId = some run.id ∨
      (check.appSlug = some "github-actions" ∧ (forall known, known ∈ runs -> check.runId ≠ some known.id) ∧
        check.checkSuiteId = run.checkSuiteId ∧ run.checkSuiteId ≠ none))

/-- Runs from outside and check runs of theirs are put into an input. -/
structure Intrudes (platform : Platform) (input : DeployGateInput) (runs : List GateWorkflowRun)
    (checks : List GateCheck) : Prop where
  ofRuns : Inserted (Outside platform input) input.workflowRuns runs
  ofChecks : Inserted (fun check => Exists fun run => run ∈ runs ∧ Outside platform input run ∧
    Attributed input.workflowRuns check run) input.checks checks

section

variable {platform : Platform} {input : DeployGateInput} {runs : List GateWorkflowRun} {checks : List GateCheck}

theorem Intrudes.latestTrustedRuns_eq (intrudes : Intrudes platform input runs checks) (excludedRunIds : List Nat) :
    latestTrustedRuns platform runs input.trust excludedRunIds =
      latestTrustedRuns platform input.workflowRuns input.trust excludedRunIds := by
  unfold latestTrustedRuns
  rw [intrudes.ofRuns.filter_eq fun run outside => by rw [outside.untrusted, Bool.and_false]]

variable {run : GateWorkflowRun}

theorem mem_of_mem_latestTrustedRuns {listed : List GateWorkflowRun} {trust : GateTrust}
    {excludedRunIds : List Nat}
    (member : run ∈ latestTrustedRuns platform listed trust excludedRunIds) : run ∈ listed := by
  rcases List.mem_map.mp member with ⟨entry, inLatest, same⟩
  rcases List.mem_map.mp (LatestBy.mem_of_mem_latestOf inLatest) with ⟨origin, inCounting, isEntry⟩
  subst same isEntry
  exact (List.mem_filter.mp inCounting).1

variable {check : GateCheck}

theorem resultKey_of_outside {latestIds : List Nat}
    (notStatus : check.kind ≠ .status) (ofWorkflow : check.appSlug = some "github-actions" ∨ check.runId ≠ none)
    (found : runOf runs check = some run) (notLatest : run.id ∉ latestIds) :
    resultKey runs latestIds check = none := by
  rw [resultKey, if_neg notStatus, if_pos ofWorkflow, found]
  exact if_neg notLatest

theorem Outside.not_latest (outside : Outside platform input run) (trust : GateTrust)
    (excludedRunIds : List Nat) :
    run.id ∉ (latestTrustedRuns platform input.workflowRuns trust excludedRunIds).map (·.id) := by
  intro member
  rcases List.mem_map.mp member with ⟨known, inLatest, same⟩
  exact outside.freshId known (mem_of_mem_latestTrustedRuns inLatest) same

/-- A search by check suite finds what it found before, or a run from outside
where there was nothing. -/
private theorem bySuite_cases (intrudes : Intrudes platform input runs checks) (suite : Option Nat) :
    (suite.bind fun suite => runs.reverse.find? (·.checkSuiteId == some suite)) =
        (suite.bind fun suite => input.workflowRuns.reverse.find? (·.checkSuiteId == some suite)) ∨
      ((suite.bind fun suite => input.workflowRuns.reverse.find? (·.checkSuiteId == some suite)) = none ∧
        Exists fun found => (suite.bind fun suite => runs.reverse.find? (·.checkSuiteId == some suite)) = some found ∧
          Outside platform input found) := by
  cases suite with
  | none => exact Or.inl rfl
  | some suite =>
      have cases := @Inserted.find?_reverse_cases _ _ _ _ intrudes.ofRuns (fun run => run.checkSuiteId == some suite) ?_
      · exact cases.imp_right fun ⟨before, found, after, outside, _⟩ => ⟨before, found, after, outside⟩
      · intro known member passes run outside
        have isSuite := beq_iff_eq.mp passes
        have differs := outside.freshSuite known member (isSuite ▸ Option.some_ne_none suite)
        exact beq_eq_false_iff_ne.mpr fun same => differs (isSuite.trans same.symm)

/-- A search by run id finds what it found before, or a run from outside where
there was nothing. -/
private theorem byId_cases (intrudes : Intrudes platform input runs checks) (runId : Nat) :
    runs.reverse.find? (·.id == runId) = input.workflowRuns.reverse.find? (·.id == runId) ∨
      (input.workflowRuns.reverse.find? (·.id == runId) = none ∧
        Exists fun found => runs.reverse.find? (·.id == runId) = some found ∧ Outside platform input found ∧
          found.id = runId) := by
  have cases := @Inserted.find?_reverse_cases _ _ _ _ intrudes.ofRuns (fun run => run.id == runId) ?_
  · exact cases.imp_right fun ⟨before, found, after, outside, passes⟩ =>
      ⟨before, found, after, outside, beq_iff_eq.mp passes⟩
  · intro known member passes run outside
    have isId := beq_iff_eq.mp passes
    exact beq_eq_false_iff_ne.mpr fun same => outside.freshId known member (isId.trans same.symm)

/-- Behind a check of the input stands the run of before, or a run from outside
where there was none. -/
theorem Intrudes.runOf_cases (intrudes : Intrudes platform input runs checks)
    (member : check ∈ input.checks) :
    runOf runs check = runOf input.workflowRuns check ∨
      (runOf input.workflowRuns check = none ∧
        Exists fun found => runOf runs check = some found ∧ Outside platform input found) := by
  have bySuite := bySuite_cases intrudes check.checkSuiteId
  cases named : check.runId with
  | none => simpa only [runOf, named, Option.bind_none, Option.orElse_none] using bySuite
  | some runId =>
      rcases byId_cases intrudes runId with same | ⟨before, found, after, outside, isId⟩
      · simp only [runOf, named, Option.bind_some, same]
        cases input.workflowRuns.reverse.find? (·.id == runId) with
        | none => exact bySuite
        | some known => exact Or.inl rfl
      · refine Or.inr ⟨outside.unclaimed check member (named.trans (isId ▸ rfl)), found, ?_, outside⟩
        simp only [runOf, named, Option.bind_some, after, Option.orElse_some]

theorem Intrudes.resultKey_eq (intrudes : Intrudes platform input runs checks)
    (member : check ∈ input.checks) (trust : GateTrust) (excludedRunIds : List Nat) :
    resultKey runs ((latestTrustedRuns platform input.workflowRuns trust excludedRunIds).map (·.id)) check =
      resultKey input.workflowRuns
        ((latestTrustedRuns platform input.workflowRuns trust excludedRunIds).map (·.id)) check := by
  rcases intrudes.runOf_cases member with same | ⟨before, found, after, outside⟩
  · simp only [resultKey, same]
  · simp only [resultKey, before, after, if_neg (outside.not_latest trust excludedRunIds)]

theorem Intrudes.resultKey_of_attributed (intrudes : Intrudes platform input runs checks) (member : run ∈ runs)
    (outside : Outside platform input run)
    (attributed : Attributed input.workflowRuns check run) (trust : GateTrust) (excludedRunIds : List Nat) :
    resultKey runs ((latestTrustedRuns platform input.workflowRuns trust excludedRunIds).map (·.id)) check = none := by
  have uncounted : forall found, runOf runs check = some found -> Outside platform input found ->
      resultKey runs ((latestTrustedRuns platform input.workflowRuns trust excludedRunIds).map (·.id)) check = none := by
    intro found isFound fromOutside
    refine resultKey_of_outside (fun status => ?_) ?_ isFound (fromOutside.not_latest trust excludedRunIds)
    · cases attributed.1.symm.trans status
    · exact attributed.2.elim (fun named => Or.inr (named ▸ Option.some_ne_none _)) fun bySuite => Or.inl bySuite.1
  rcases attributed.2 with named | ⟨_, unlisted, sameSuite, hasSuite⟩
  · rcases byId_cases intrudes run.id with same | ⟨_, found, after, fromOutside, _⟩
    · have listed : runs.reverse.find? (·.id == run.id) ≠ none := fun absent =>
        List.find?_eq_none.mp absent run (List.mem_reverse.mpr member) (beq_self_eq_true _)
      rw [same] at listed
      rcases Option.ne_none_iff_exists'.mp listed with ⟨known, isKnown⟩
      have passes := List.find?_some isKnown
      simp only [beq_iff_eq] at passes
      exact absurd passes (outside.freshId known (List.mem_reverse.mp (List.mem_of_find?_eq_some isKnown)))
    · refine uncounted found ?_ fromOutside
      simp only [runOf, named, Option.bind_some, after, Option.orElse_some]
  · -- The run id names no run of the input: at most one from outside.
    have byId : (check.runId.bind fun runId => runs.reverse.find? (·.id == runId)) = none ∨
        Exists fun found => (check.runId.bind fun runId => runs.reverse.find? (·.id == runId)) = some found ∧
          Outside platform input found := by
      cases named : check.runId with
      | none => exact Or.inl rfl
      | some runId =>
          rcases byId_cases intrudes runId with same | ⟨_, found, after, fromOutside, _⟩
          · refine Or.inl (same.trans (List.find?_eq_none.mpr fun known isKnown passes => ?_))
            apply unlisted known (List.mem_reverse.mp isKnown)
            rw [named, beq_iff_eq.mp passes]
          · exact Or.inr ⟨found, after, fromOutside⟩
    rcases byId with absent | ⟨found, isFound, fromOutside⟩
    · rcases bySuite_cases intrudes check.checkSuiteId with same | ⟨_, found, after, fromOutside⟩
      · rw [sameSuite] at same
        cases suite : run.checkSuiteId with
        | none => exact absurd suite hasSuite
        | some suiteId =>
            simp only [suite, Option.bind_some] at same
            have listed : runs.reverse.find? (·.checkSuiteId == some suiteId) ≠ none := fun absent =>
              List.find?_eq_none.mp absent run (List.mem_reverse.mpr member) (beq_iff_eq.mpr suite)
            rw [same] at listed
            rcases Option.ne_none_iff_exists'.mp listed with ⟨known, isKnown⟩
            have passes := List.find?_some isKnown
            simp only [beq_iff_eq] at passes
            exact absurd (passes.trans suite.symm) (outside.freshSuite known
              (List.mem_reverse.mp (List.mem_of_find?_eq_some isKnown)) (passes ▸ Option.some_ne_none suiteId))
      · refine uncounted found ?_ fromOutside
        simp only [runOf, absent, Option.orElse_none, after]
    · refine uncounted found ?_ fromOutside
      simp only [runOf, isFound, Option.orElse_some]

/-- The input with runs and checks put in. -/
def DeployGateInput.withRuns (input : DeployGateInput) (runs : List GateWorkflowRun) (checks : List GateCheck) :
    DeployGateInput :=
  { input with workflowRuns := runs, checks := checks }

private theorem Intrudes.keyed_eq (intrudes : Intrudes platform input runs checks) (trust : GateTrust)
    (excludedRunIds : List Nat) (excluded : GateCheck -> Bool) :
    (checks.filterMap fun check =>
      if excluded check then none
      else (resultKey runs
        ((latestTrustedRuns platform input.workflowRuns trust excludedRunIds).map (·.id)) check).map
          fun key => (key, check)) =
      input.checks.filterMap fun check =>
        if excluded check then none
        else (resultKey input.workflowRuns
          ((latestTrustedRuns platform input.workflowRuns trust excludedRunIds).map (·.id)) check).map
            fun key => (key, check) := by
  apply intrudes.ofChecks.filterMap_eq
  · rintro check ⟨run, member, outside, attributed⟩
    rw [intrudes.resultKey_of_attributed member outside attributed]
    exact ite_self _
  · intro check member
    rw [intrudes.resultKey_eq member]

theorem Intrudes.resolveChecks_eq (intrudes : Intrudes platform input runs checks) :
    resolveChecks platform ((input.withRuns runs checks).resolveInput platform) =
      resolveChecks platform (input.resolveInput platform) := by
  simp only [resolveChecks, DeployGateInput.resolveInput, DeployGateInput.withRuns, intrudes.latestTrustedRuns_eq]
  rw [intrudes.keyed_eq input.trust input.excludedRunIds fun check => _]
  rfl

theorem Intrudes.filterChecks (intrudes : Intrudes platform input runs checks) (test : GateCheck -> Bool) :
    Intrudes platform { input with checks := input.checks.filter test } runs (checks.filter test) := by
  have narrower : forall run, Outside platform input run ->
      Outside platform { input with checks := input.checks.filter test } run := by
    rintro run ⟨untrusted, freshId, freshSuite, unclaimed⟩
    exact ⟨untrusted, freshId, freshSuite, fun check member => unclaimed check (List.mem_filter.mp member).1⟩
  refine ⟨intrudes.ofRuns.imp narrower, (intrudes.ofChecks.filter test).imp ?_⟩
  rintro check ⟨run, member, outside, attributed⟩
  exact ⟨run, member, narrower run outside, attributed⟩

theorem Intrudes.evaluateDeployGate_eq (intrudes : Intrudes platform input runs checks) :
    evaluateDeployGate platform (input.withRuns runs checks) = evaluateDeployGate platform input := by
  have resolved : (input.withRuns runs checks).resolved platform = input.resolved platform :=
    intrudes.resolveChecks_eq
  have listed : (input.withRuns runs checks).runs platform = input.runs platform :=
    intrudes.latestTrustedRuns_eq input.excludedRunIds
  have names : (input.withRuns runs checks).expectedNames platform = input.expectedNames platform := rfl
  have deciding : (input.withRuns runs checks).deciding platform = input.deciding platform := by
    funext name
    simp only [DeployGateInput.deciding, resolved]
    rfl
  unfold evaluateDeployGate
  cases mode : input.mode with
  | image => simp only [DeployGateInput.withRuns, mode]
  | checks =>
      simp only [evaluateChecks, resolved, listed, names, deciding]
      simp only [DeployGateInput.withRuns, mode]
  | workflows =>
      simp only [evaluateWorkflows, listed]
      simp only [DeployGateInput.withRuns, mode]

theorem Intrudes.greenCheckRunNames_eq (intrudes : Intrudes platform input runs checks) :
    greenCheckRunNames platform ((input.withRuns runs checks).resolveInput platform) =
      greenCheckRunNames platform (input.resolveInput platform) := by
  have resolved : resolveChecks platform
      { (input.withRuns runs checks).resolveInput platform with
        checks := checks.filter fun check => check.kind == .checkRun } =
      resolveChecks platform
        { input.resolveInput platform with checks := input.checks.filter fun check => check.kind == .checkRun } :=
    (intrudes.filterChecks fun check => check.kind == .checkRun).resolveChecks_eq
  have listed : latestTrustedRuns platform runs input.trust input.excludedRunIds =
      latestTrustedRuns platform input.workflowRuns input.trust input.excludedRunIds :=
    intrudes.latestTrustedRuns_eq input.excludedRunIds
  unfold greenCheckRunNames
  rw [show ((input.withRuns runs checks).resolveInput platform).checks = checks from rfl,
    show (input.resolveInput platform).checks = input.checks from rfl, resolved]
  rw [show latestTrustedRuns platform ((input.withRuns runs checks).resolveInput platform).workflowRuns
    ((input.withRuns runs checks).resolveInput platform).trust
    ((input.withRuns runs checks).resolveInput platform).excludedRunIds = _ from listed]
  rfl

/-- Runs from outside and their check runs change neither the decision of the
gate nor the names learnt from a green commit. -/
theorem outside_unseen (platform : Platform) (input : DeployGateInput) (runs : List GateWorkflowRun)
    (checks : List GateCheck) (intrudes : Intrudes platform input runs checks) :
    evaluateDeployGate platform (input.withRuns runs checks) = evaluateDeployGate platform input ∧
      greenCheckRunNames platform ((input.withRuns runs checks).resolveInput platform) =
        greenCheckRunNames platform (input.resolveInput platform) :=
  ⟨intrudes.evaluateDeployGate_eq, intrudes.greenCheckRunNames_eq⟩

end

/-- A commit with one run of the tracked branch, on which all is green. -/
def pushedCommit : DeployGateInput where
  mode := .checks
  now := 0
  startedAt := none
  timeoutMs := 60000
  expected := none
  checks := [⟨"ci", .checkRun, "completed", some "success", 10, none, some "github-actions", some 1, some 5, some 50⟩]
  workflows := []
  workflowRuns :=
    [⟨5, "CI", ".github/workflows/ci.yml", 1, "completed", some "success", none, "push", some "main",
      some "acme/shop", some 7, some 50⟩]
  excludedRunIds := []
  trust := ⟨"main", "acme/shop", some 7⟩
  appSlug := none
  isExcluded := none

def forkRun : GateWorkflowRun :=
  ⟨6, "CI", ".github/workflows/ci.yml", 1, "completed", some "failure", none, "pull_request", some "main",
    some "mallory/shop", some 8, some 60⟩

def forkCheck (runId : Option Nat) : GateCheck :=
  ⟨"ci", .checkRun, "completed", some "failure", 11, none, some "github-actions", some 1, runId, some 60⟩

def forkPlatform : Platform := ⟨id, fun _ => none, fun _ _ => true⟩

theorem forkRun_outside : Outside forkPlatform pushedCommit forkRun :=
  ⟨by decide, by decide, by decide, by decide⟩

theorem forkRun_intrudes : Intrudes forkPlatform pushedCommit (forkRun :: pushedCommit.workflowRuns)
    ([forkCheck (some 6)] ++ pushedCommit.checks ++ [forkCheck none]) := by
  constructor
  · exact .insert _ forkRun_outside (.keep _ .done)
  · apply Inserted.insert
    · exact ⟨forkRun, List.mem_cons_self, forkRun_outside, rfl, Or.inl rfl⟩
    · apply Inserted.keep
      apply Inserted.insert
      · exact ⟨forkRun, List.mem_cons_self, forkRun_outside, rfl, Or.inr ⟨rfl, by decide, rfl, by decide⟩⟩
      · exact .done

theorem outside_unseen_fork :
    evaluateDeployGate forkPlatform (pushedCommit.withRuns (forkRun :: pushedCommit.workflowRuns)
        ([forkCheck (some 6)] ++ pushedCommit.checks ++ [forkCheck none])) =
        evaluateDeployGate forkPlatform pushedCommit ∧
      greenCheckRunNames forkPlatform ((pushedCommit.withRuns (forkRun :: pushedCommit.workflowRuns)
        ([forkCheck (some 6)] ++ pushedCommit.checks ++ [forkCheck none])).resolveInput forkPlatform) =
        greenCheckRunNames forkPlatform (pushedCommit.resolveInput forkPlatform) :=
  outside_unseen forkPlatform pushedCommit _ _ forkRun_intrudes

end DeployGate
end Dokploy
