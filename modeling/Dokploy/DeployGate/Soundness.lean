import Dokploy.DeployGate.Decision

namespace Dokploy
namespace DeployGate

/-!
# What a deploy decision says about the commit

A group lets a release pass when it has nothing failed, missing or running, and
waiting for names comes to that exactly when every name has results and all of
them passed.  What is left open is a failed result that has an expected name
and comes from another app than the pinned one: it is not waited for, and its
name keeps it out of the other failures.
-/

variable {names : List String}

theorem unique_eq_nil : unique names = [] <-> names = [] := by
  cases names with
  | nil => exact Iff.rfl
  | cons name rest =>
      rw [unique, List.eraseDups_cons]
      constructor <;> exact fun impossible => by cases impossible

def Group.Clear (group : Group) : Prop :=
  group.failed = [] ∧ group.missing = [] ∧ group.running = []

variable {clock : Clock}

theorem decideGroups_deploy {groups : List Group} :
    decideGroups groups clock = .deploy <-> forall group, group ∈ groups -> group.Clear := by
  have nothingFailed : (groups.filter fun group => group.failed != []) = [] <->
      forall group, group ∈ groups -> group.failed = [] := by
    simp only [List.filter_eq_nil_iff, bne_iff_ne, ne_eq, not_not]
  have nothingPending : unique (groups.flatMap Group.pendingNames) = [] <->
      forall group, group ∈ groups -> group.missing = [] ∧ group.running = [] := by
    simp only [unique_eq_nil, List.flatMap_eq_nil_iff, Group.pendingNames, List.append_eq_nil_iff, List.map_eq_nil_iff]
  constructor
  · intro deploys group member
    simp only [decideGroups] at deploys
    split at deploys
    · cases deploys
    · rename_i passed
      split at deploys
      · rename_i done
        exact ⟨nothingFailed.mp (not_not.mp passed) group member, nothingPending.mp done group member⟩
      · split at deploys <;> cases deploys
  · intro clear
    have failed := nothingFailed.mpr fun group member => (clear group member).1
    have pending := nothingPending.mpr fun group member => (clear group member).2
    simp only [decideGroups, failed, pending, ne_eq, not_true_eq_false, if_false, if_true]

theorem worst_passed {verdicts : List Verdict} :
    worst verdicts = .passed <-> forall verdict, verdict ∈ verdicts -> verdict = .passed := by
  unfold worst
  constructor
  · intro passed verdict member
    split at passed
    · cases passed
    · rename_i noneFailed
      split at passed
      · cases passed
      · rename_i noneRunning
        cases verdict with
        | passed => rfl
        | failed => exact absurd member noneFailed
        | running => exact absurd member noneRunning
  · intro all
    have noneFailed : Verdict.failed ∉ verdicts := fun member => by cases all _ member
    have noneRunning : Verdict.running ∉ verdicts := fun member => by cases all _ member
    rw [if_neg noneFailed, if_neg noneRunning]

variable {name : String}

private theorem latestByName_map (verdict : String -> Verdict)
    (member : name ∈ names) :
    latestByName (names.map fun name => asLike name (verdict name)) name = some (asLike name (verdict name)) := by
  have named : forall name verdict, (asLike name verdict).name = name := by
    intro name verdict
    cases verdict <;> rfl
  unfold latestByName
  cases found : (names.map fun name => asLike name (verdict name)).reverse.find? (·.name == name) with
  | none =>
      have absent := List.find?_eq_none.mp found (asLike name (verdict name))
        (List.mem_reverse.mpr (List.mem_map_of_mem member))
      exact absurd (beq_iff_eq.mpr (named _ _)) absent
  | some run =>
      have sameName := List.find?_some found
      simp only [beq_iff_eq] at sameName
      rcases List.mem_map.mp (List.mem_reverse.mp (List.mem_of_find?_eq_some found)) with ⟨other, _, same⟩
      subst same
      rw [named] at sameName
      rw [sameName]

theorem evaluateRequiredChecks_satisfied {runs : List CheckRunLike} :
    evaluateRequiredChecks names runs = .satisfied <-> forall name, name ∈ names ->
      isFailed runs name = false ∧ isWaiting runs name = false := by
  have none : forall test : String -> Bool, names.filter test = [] <-> forall name, name ∈ names -> test name = false := by
    intro test
    simp only [List.filter_eq_nil_iff, Bool.not_eq_true]
  constructor
  · intro satisfied name member
    simp only [evaluateRequiredChecks] at satisfied
    split at satisfied
    · rename_i nothing
      rw [nothing] at member
      cases member
    · split at satisfied
      · cases satisfied
      · rename_i passed
        split at satisfied
        · cases satisfied
        · rename_i ended
          exact ⟨(none _).mp (not_not.mp passed) name member, (none _).mp (not_not.mp ended) name member⟩
  · intro all
    have failed := (none (isFailed runs)).mpr fun name member => (all name member).1
    have waiting := (none (isWaiting runs)).mpr fun name member => (all name member).2
    simp only [evaluateRequiredChecks, failed, waiting, ne_eq, not_true_eq_false, if_false, ite_self]

theorem waitFor_clear_iff_satisfied {results : String -> List Result} {noun : Noun} :
    (waitFor names results noun).Clear <->
      (names.filter fun name => decide (results name = [])) = [] ∧
        evaluateRequiredChecks
          (names.filter fun name => !decide (name ∈ names.filter fun name => decide (results name = [])))
          ((names.filter fun name => !decide (results name = [])).map fun name =>
            asLike name (worst ((results name).map (·.verdict)))) = .satisfied := by
  simp only [waitFor]
  cases rule : evaluateRequiredChecks
      (names.filter fun name => !decide (name ∈ names.filter fun name => decide (results name = [])))
      ((names.filter fun name => !decide (results name = [])).map fun name =>
        asLike name (worst ((results name).map (·.verdict)))) with
  | satisfied => exact ⟨fun clear => ⟨clear.2.1, rfl⟩, fun both => ⟨rfl, both.1, rfl⟩⟩
  | failed failed =>
      refine ⟨fun clear => ?_, fun both => by cases both.2⟩
      simp only [evaluateRequiredChecks] at rule
      split at rule
      · cases rule
      · split at rule
        · rename_i some
          rw [RequiredChecksState.failed.inj rule] at some
          exact absurd clear.1 some
        · split at rule <;> cases rule
  | pending waitingOn =>
      refine ⟨fun clear => ?_, fun both => by cases both.2⟩
      simp only [evaluateRequiredChecks] at rule
      split at rule
      · cases rule
      · split at rule
        · cases rule
        · split at rule
          · rename_i some
            rw [RequiredChecksState.pending.inj rule] at some
            exact absurd (List.map_eq_nil_iff.mp clear.2.2) some
          · cases rule

theorem waitFor_clear {results : String -> List Result} {noun : Noun} :
    (waitFor names results noun).Clear <-> forall name, name ∈ names ->
      results name ≠ [] ∧ forall result, result ∈ results name -> result.verdict = .passed := by
  have noneMissing : (names.filter fun name => decide (results name = [])) = [] <->
      forall name, name ∈ names -> results name ≠ [] := by
    simp only [List.filter_eq_nil_iff, decide_eq_true_eq, ne_eq]
  rw [waitFor_clear_iff_satisfied, noneMissing]
  -- With nothing missing, the rule looks at every name.
  have judged : (forall name, name ∈ names -> results name ≠ []) ->
      (evaluateRequiredChecks
          (names.filter fun name => !decide (name ∈ names.filter fun name => decide (results name = [])))
          ((names.filter fun name => !decide (results name = [])).map fun name =>
            asLike name (worst ((results name).map (·.verdict)))) = .satisfied <->
        forall name, name ∈ names -> worst ((results name).map (·.verdict)) = .passed) := by
    intro present
    have all : (names.filter fun name => !decide (results name = [])) = names :=
      List.filter_eq_self.mpr fun name member => by rw [decide_eq_false (present name member)]; rfl
    have whole : (names.filter fun name => !decide (name ∈ ([] : List String))) = names :=
      List.filter_eq_self.mpr fun name _ => rfl
    rw [noneMissing.mpr present, all, whole, evaluateRequiredChecks_satisfied]
    refine forall₂_congr fun name member => ?_
    rw [isFailed, isWaiting, latestByName_map (fun name => worst ((results name).map (·.verdict))) member]
    cases worst ((results name).map (·.verdict)) <;> simp [asLike, PASSING_CONCLUSIONS]
  constructor
  · rintro ⟨present, satisfied⟩ name member
    refine ⟨present name member, fun result inResults => ?_⟩
    exact worst_passed.mp ((judged present).mp satisfied name member) _ (List.mem_map_of_mem inResults)
  · intro all
    have present := fun name member => (all name member).1
    refine ⟨present, (judged present).mpr fun name member => worst_passed.mpr fun verdict inVerdicts => ?_⟩
    rcases List.mem_map.mp inVerdicts with ⟨result, inResults, same⟩
    exact same ▸ (all name member).2 result inResults

theorem mem_unique : name ∈ unique names <-> name ∈ names :=
  List.mem_eraseDups

/-- A deploy in mode checks promises this about the commit. -/
structure ChecksSound (platform : Platform) (input : DeployGateInput) : Prop where
  noneFailed : forall result, result ∈ input.resolved platform -> result.verdict ≠ .failed
  noRunFailed : forall run, run ∈ input.runs platform -> run.verdict ≠ .failed
  /-- What is expected and not excluded has reported and passed. -/
  expectedPassed : forall expected, input.expected = some expected -> expected.source ≠ .fallback ->
    forall name, name ∈ expected.names -> input.exclusion platform ⟨name, .status, none, none⟩ = false ->
      input.deciding platform name ≠ [] ∧
        forall result, result ∈ input.deciding platform name -> result.verdict = .passed
  /-- With nothing to expect, something has reported and all of it passed. -/
  allPassed : input.expectedNames platform = [] ->
    (input.resolved platform ≠ [] ∨ input.runs platform ≠ []) ∧
      (forall result, result ∈ input.resolved platform -> result.verdict = .passed) ∧
      forall run, run ∈ input.runs platform -> run.verdict = .passed

/-- A deploy in mode workflows promises this about the commit. -/
def WorkflowsSound (platform : Platform) (input : DeployGateInput) : Prop :=
  forall name, name ∈ input.workflows ->
    (Exists fun run => run ∈ input.runs platform ∧ runMatches run name = true) ∧
      forall run, run ∈ input.runs platform -> runMatches run name = true -> run.verdict = .passed

/-- A failed result has an expected name, which is pinned to another app. -/
def Shadowed (platform : Platform) (input : DeployGateInput) : Prop :=
  Exists fun result => result ∈ input.resolved platform ∧ result.verdict = .failed ∧
    result.name ∈ input.expectedNames platform ∧ input.fromPinned result = false

theorem Verdict.passed_of_neither {verdict : Verdict} (notFailed : verdict ≠ .failed)
    (notRunning : verdict ≠ .running) : verdict = .passed := by
  cases verdict with
  | passed => rfl
  | failed => exact absurd rfl notFailed
  | running => exact absurd rfl notRunning

variable {input : DeployGateInput} {platform : Platform}

theorem DeployGateInput.mem_deciding
    {result : ResolvedCheck} :
    result ∈ input.deciding platform name <->
      result ∈ input.resolved platform ∧ result.name = name ∧ input.fromPinned result = true := by
  simp only [DeployGateInput.deciding, List.mem_filter, Bool.and_eq_true, beq_iff_eq]

theorem DeployGateInput.mem_expectedNames :
    name ∈ input.expectedNames platform <-> Exists fun expected => input.expected = some expected ∧
      expected.source ≠ .fallback ∧ name ∈ expected.names ∧
        input.exclusion platform ⟨name, .status, none, none⟩ = false := by
  unfold DeployGateInput.expectedNames
  cases input.expected with
  | none => simp
  | some expected =>
      by_cases fallback : expected.source = .fallback
      · simp [fallback]
      · simp [fallback, mem_unique]

private theorem expected_clear
    (expecting : input.expectedNames platform ≠ [])
    (deploys : evaluateChecks platform input clock = .deploy) :
    (forall name, name ∈ input.expectedNames platform -> input.deciding platform name ≠ [] ∧
      forall result, result ∈ input.deciding platform name -> result.verdict = .passed) ∧
    (forall result, result ∈ input.resolved platform -> result.verdict = .failed ->
      result.name ∈ input.expectedNames platform) ∧
    failedRuns (input.runs platform) = [] := by
  simp only [evaluateChecks, if_pos expecting] at deploys
  have clear := decideGroups_deploy.mp deploys
  have checks := clear _ List.mem_cons_self
  have workflows := clear _ (List.mem_cons_of_mem _ List.mem_cons_self)
  have failed := List.append_eq_nil_iff.mp (unique_eq_nil.mp checks.1)
  refine ⟨fun name member => ?_, fun result member hasFailed => ?_, workflows.1⟩
  · have waited := waitFor_clear.mp ⟨failed.1, checks.2⟩ name member
    refine ⟨fun nothing => waited.1 (by rw [nothing]; rfl), fun result inDeciding => ?_⟩
    exact waited.2 _ (List.mem_map_of_mem inDeciding)
  · apply Classical.byContradiction
    intro unexpected
    have listed : result.name ∈ unique (((input.resolved platform).filter fun result =>
        result.verdict == .failed && !decide (result.name ∈ input.expectedNames platform)).map (·.name)) := by
      apply mem_unique.mpr
      apply List.mem_map_of_mem
      rw [List.mem_filter, hasFailed, decide_eq_false unexpected]
      exact ⟨member, rfl⟩
    rw [failed.2] at listed
    cases listed

private theorem fallback_clear
    (nothing : input.expectedNames platform = [])
    (deploys : evaluateChecks platform input clock = .deploy) :
    (input.resolved platform ≠ [] ∨ input.runs platform ≠ []) ∧
      (forall result, result ∈ input.resolved platform -> result.verdict = .passed) ∧
      forall run, run ∈ input.runs platform -> run.verdict = .passed := by
  simp only [evaluateChecks, nothing, ne_eq, not_true_eq_false, if_false] at deploys
  split at deploys
  · split at deploys <;> cases deploys
  · rename_i some
    have clear := decideGroups_deploy.mp deploys
    have checks := clear _ List.mem_cons_self
    have workflows := clear _ (List.mem_cons_of_mem _ List.mem_cons_self)
    have noneFailed := List.map_eq_nil_iff.mp (unique_eq_nil.mp checks.1)
    have noneRunning := List.map_eq_nil_iff.mp checks.2.2
    have noRunFailed := List.map_eq_nil_iff.mp (unique_eq_nil.mp workflows.1)
    have noRunRunning := List.map_eq_nil_iff.mp workflows.2.2
    simp only [List.filter_eq_nil_iff, beq_iff_eq] at noneFailed noneRunning noRunFailed noRunRunning
    refine ⟨not_and_or.mp some, fun result member => ?_, fun run member => ?_⟩
    · exact Verdict.passed_of_neither (noneFailed result member) (noneRunning result member)
    · exact Verdict.passed_of_neither (noRunFailed run member) (noRunRunning run member)

theorem evaluateChecks_sound_iff
    (deploys : evaluateChecks platform input clock = .deploy) :
    ChecksSound platform input <-> ¬ Shadowed platform input := by
  constructor
  · rintro sound ⟨result, member, failed, _⟩
    exact sound.noneFailed result member failed
  · intro unshadowed
    by_cases expecting : input.expectedNames platform = []
    · have passed := fallback_clear expecting deploys
      refine ⟨fun result member failed => ?_, fun run member failed => ?_, ?_, fun _ => passed⟩
      · cases failed.symm.trans (passed.2.1 result member)
      · cases failed.symm.trans (passed.2.2 run member)
      · intro expected isExpected counts name inNames included
        have member := DeployGateInput.mem_expectedNames.mpr ⟨expected, isExpected, counts, inNames, included⟩
        rw [expecting] at member
        cases member
    · rcases expected_clear expecting deploys with ⟨waited, others, runs⟩
      have noRunFailed := List.map_eq_nil_iff.mp (unique_eq_nil.mp runs)
      simp only [List.filter_eq_nil_iff, beq_iff_eq] at noRunFailed
      refine ⟨fun result member failed => ?_, noRunFailed, ?_, fun nothing => absurd nothing expecting⟩
      · have named := others result member failed
        cases pinned : input.fromPinned result with
        | false => exact unshadowed ⟨result, member, failed, named, pinned⟩
        | true =>
            have deciding := DeployGateInput.mem_deciding.mpr ⟨member, rfl, pinned⟩
            cases failed.symm.trans ((waited _ named).2 result deciding)
      · intro expected isExpected counts name inNames included
        exact waited name (DeployGateInput.mem_expectedNames.mpr ⟨expected, isExpected, counts, inNames, included⟩)

theorem evaluateWorkflows_sound
    (deploys : evaluateWorkflows platform input clock = .deploy) : WorkflowsSound platform input := by
  simp only [evaluateWorkflows] at deploys
  split at deploys
  · cases deploys
  · have clear := decideGroups_deploy.mp deploys _ List.mem_cons_self
    intro name member
    rcases waitFor_clear.mp clear name (mem_unique.mpr member) with ⟨present, passed⟩
    constructor
    · rcases List.exists_mem_of_ne_nil _ present with ⟨result, inResults⟩
      rcases List.mem_map.mp inResults with ⟨run, inRuns, _⟩
      exact ⟨run, (List.mem_filter.mp inRuns).1, (List.mem_filter.mp inRuns).2⟩
    · intro run inRuns runIsMatch
      exact passed _ (List.mem_map_of_mem (List.mem_filter.mpr ⟨inRuns, runIsMatch⟩))

/-- In mode workflows a deploy is always sound.  In mode checks it is sound
unless a failed result hides behind an expected name that is pinned to another
app. -/
theorem deploy_sound (platform : Platform) (input : DeployGateInput)
    (deploys : evaluateDeployGate platform input = .deploy) :
    (input.mode = .checks -> (ChecksSound platform input <-> ¬ Shadowed platform input)) ∧
      (input.mode = .workflows -> WorkflowsSound platform input) := by
  constructor
  · intro mode
    simp only [evaluateDeployGate, mode] at deploys
    exact evaluateChecks_sound_iff deploys
  · intro mode
    simp only [evaluateDeployGate, mode] at deploys
    exact evaluateWorkflows_sound deploys

/-- A commit on which one app reports success and another one failure under the
same required name, which is pinned to the first. -/
def twoApps : DeployGateInput where
  mode := .checks
  now := 0
  startedAt := none
  timeoutMs := 60000
  expected := some ⟨.required, ["ci"], [("ci", 1)]⟩
  checks :=
    [⟨"ci", .checkRun, "completed", some "success", 10, none, some "circleci", some 1, none, none⟩,
      ⟨"ci", .checkRun, "completed", some "failure", 11, none, some "sonarcloud", some 2, none, none⟩]
  workflows := []
  workflowRuns := []
  excludedRunIds := []
  trust := ⟨"main", "acme/shop", some 7⟩
  appSlug := some "dokploy"
  isExcluded := none

def plainPlatform : Platform := ⟨id, fun _ => none, fun _ _ => true⟩

theorem deploy_sound_twoApps :
    (twoApps.mode = .checks -> (ChecksSound plainPlatform twoApps <-> ¬ Shadowed plainPlatform twoApps)) ∧
      (twoApps.mode = .workflows -> WorkflowsSound plainPlatform twoApps) :=
  deploy_sound plainPlatform twoApps (by decide)

/-- The failure of the second app does not keep the release from being deployed. -/
theorem deploy_despite_failure :
    twoApps.mode = .checks ∧ evaluateDeployGate plainPlatform twoApps = .deploy ∧
      Exists fun result => result ∈ twoApps.resolved plainPlatform ∧ result.verdict = .failed :=
  ⟨rfl, by decide, ⟨"ci", .checkRun, .failed, some 2, none⟩, by decide, rfl⟩

end DeployGate
end Dokploy
