import Dokploy.DeployGate.Trust

namespace Dokploy
namespace DeployGate

open Foundation

/-!
# The order in which GitHub lists things

Which result of a key is the latest is decided by a pass over the list, with a
comparison by start time where both are known and by id otherwise.  Where some
times are known and some are not, that comparison can go round in a circle, and the
pass then ends with whichever came last.  Where it does not, and no check is
attributed by a suite that two listed runs share, the decision is the same for every
order.
-/

def SameNames (names others : List String) : Prop := forall name, name ∈ names <-> name ∈ others

/-- The same state and the same sets of names; the words of the reason follow the order of the list. -/
def SameDecision : GateDecision -> GateDecision -> Prop
  | .deploy, .deploy => True
  | .waiting _ pending, .waiting _ others => SameNames pending others
  | .blocked _ failed never unfinished, .blocked _ otherFailed otherNever otherUnfinished =>
      SameNames failed otherFailed ∧ SameNames never otherNever ∧ SameNames unfinished otherUnfinished
  | _, _ => False

section Comparison

variable {platform : Platform} {id otherId : Nat} {startedAt otherStartedAt : Option String}

theorem isLater_total (distinct : id ≠ otherId) :
    isLater platform id otherId startedAt otherStartedAt = true ∨
      isLater platform otherId id otherStartedAt startedAt = true := by
  unfold isLater
  have byId : decide (otherId < id) = true ∨ decide (id < otherId) = true := by
    rcases Nat.lt_or_gt_of_ne distinct with less | greater
    · exact Or.inr (decide_eq_true less)
    · exact Or.inl (decide_eq_true greater)
  cases time platform startedAt with
  | none => cases time platform otherStartedAt <;> exact byId
  | some start =>
      cases time platform otherStartedAt with
      | none => exact byId
      | some otherStart =>
          dsimp only
          by_cases same : start = otherStart
          · rw [if_neg (not_not.mpr same), if_neg (not_not.mpr same.symm)]
            exact byId
          · rw [if_pos same, if_pos (Ne.symm same)]
            rcases Int.lt_or_gt_of_ne same with less | greater
            · exact Or.inr (decide_eq_true less)
            · exact Or.inl (decide_eq_true greater)

theorem isLater_asymmetric (later : isLater platform id otherId startedAt otherStartedAt = true) :
    isLater platform otherId id otherStartedAt startedAt = false := by
  unfold isLater at later ⊢
  have byId : decide (otherId < id) = true -> decide (id < otherId) = false := fun less =>
    decide_eq_false (Nat.lt_asymm (of_decide_eq_true less))
  cases isTime : time platform startedAt with
  | none =>
      rw [isTime] at later
      cases time platform otherStartedAt <;> exact byId later
  | some start =>
      rw [isTime] at later
      cases isOther : time platform otherStartedAt with
      | none =>
          rw [isOther] at later
          exact byId later
      | some otherStart =>
          rw [isOther] at later
          dsimp only at later ⊢
          by_cases same : start = otherStart
          · rw [if_neg (not_not.mpr same)] at later
            rw [if_neg (not_not.mpr same.symm)]
            exact byId later
          · rw [if_pos same] at later
            rw [if_pos (Ne.symm same)]
            exact decide_eq_false (Int.not_lt.mpr (Int.le_of_lt (of_decide_eq_true later)))

theorem withAttempt_injective {run other : GateWorkflowRun} (distinct : run.id ≠ other.id) :
    withAttempt run ≠ withAttempt other := by
  unfold withAttempt
  omega

end Comparison

def countingRuns (platform : Platform) (input : ResolveInput) : List GateWorkflowRun :=
  input.workflowRuns.filter fun run =>
    !decide (run.id ∈ input.excludedRunIds) && isTrustedRun platform run input.trust

def ResolveInput.latestIds (platform : Platform) (input : ResolveInput) : List Nat :=
  (latestTrustedRuns platform input.workflowRuns input.trust input.excludedRunIds).map (·.id)

/-- The results that count, each under its key. -/
def competing (platform : Platform) (input : ResolveInput) : List (String × GateCheck) :=
  input.checks.filterMap fun check =>
    if input.isExcluded check.view then none
    else (resultKey input.workflowRuns (input.latestIds platform) check).map fun key => (key, check)

def checkRunNames (latest : List GateCheck) : List String :=
  (latest.filter fun (check : GateCheck) => check.kind == .checkRun).map (·.name)

/-- What is made of the latest result of each key. -/
def resolvedOf (platform : Platform) (latest : List GateCheck) : List ResolvedCheck :=
  (latest.filter fun (check : GateCheck) =>
    !(check.kind == .status && decide (check.name ∈ checkRunNames latest))).map
    fun check => ⟨check.name, check.kind, check.verdict, check.appId, time platform check.startedAt⟩

theorem resolveChecks_eq (platform : Platform) (input : ResolveInput) :
    resolveChecks platform input =
      resolvedOf platform ((LatestBy.latestOf (isLaterCheck platform) (competing platform input)).map (·.2)) := rfl

/-- A check run that no listed run id and only its suite can attribute to a run. -/
def BySuite (input : ResolveInput) (check : GateCheck) (suite : Nat) : Prop :=
  check.checkSuiteId = some suite ∧ forall run, run ∈ input.workflowRuns -> check.runId ≠ some run.id

/-- No three results of a key, and no three runs of a workflow, follow each other in a circle, and a suite by which a
check is attributed has one run. -/
structure Comparable (platform : Platform) (input : ResolveInput) : Prop where
  runs : forall first second third, first ∈ countingRuns platform input -> second ∈ countingRuns platform input ->
    third ∈ countingRuns platform input -> workflowKey first = workflowKey second ->
    workflowKey second = workflowKey third -> isLaterRun platform first second = true ->
    isLaterRun platform second third = true -> isLaterRun platform first third = true
  checks : forall key first second third, (key, first) ∈ competing platform input ->
    (key, second) ∈ competing platform input -> (key, third) ∈ competing platform input ->
    isLaterCheck platform first second = true -> isLaterCheck platform second third = true ->
    isLaterCheck platform first third = true
  suites : forall check suite, check ∈ input.checks -> BySuite input check suite ->
    forall run other, run ∈ input.workflowRuns -> other ∈ input.workflowRuns -> run.checkSuiteId = some suite ->
      other.checkSuiteId = some suite -> run = other

section Competition

variable {platform : Platform} {input : ResolveInput}

theorem ordered_runs (runIds : (input.workflowRuns.map (·.id)).Nodup) (comparable : Comparable platform input) :
    LatestBy.Ordered (isLaterRun platform) ((countingRuns platform input).map fun run => (workflowKey run, run)) := by
  have parts : forall {key run}, (key, run) ∈ (countingRuns platform input).map (fun run => (workflowKey run, run)) ->
      run ∈ countingRuns platform input ∧ workflowKey run = key := by
    intro key run member
    rcases List.mem_map.mp member with ⟨origin, inCounting, same⟩
    cases same
    exact ⟨inCounting, rfl⟩
  constructor
  · intro key first second isFirst isSecond distinct
    refine isLater_total (withAttempt_injective fun sameId => distinct ?_)
    exact List.inj_on_of_nodup_map runIds (List.mem_of_mem_filter (parts isFirst).1)
      (List.mem_of_mem_filter (parts isSecond).1) sameId
  · exact fun key first second _ _ later => isLater_asymmetric later
  · intro key first second third isFirst isSecond isThird
    exact comparable.runs first second third (parts isFirst).1 (parts isSecond).1 (parts isThird).1
      ((parts isFirst).2.trans (parts isSecond).2.symm) ((parts isSecond).2.trans (parts isThird).2.symm)

theorem check_of_competing {key : String} {check : GateCheck} (member : (key, check) ∈ competing platform input) :
    check ∈ input.checks := by
  rcases List.mem_filterMap.mp member with ⟨origin, isOrigin, isEntry⟩
  split at isEntry
  · cases isEntry
  · rcases Option.map_eq_some_iff.mp isEntry with ⟨_, _, same⟩
    cases same
    exact isOrigin

theorem ordered_checks (checkIds : (input.checks.map (·.id)).Nodup) (comparable : Comparable platform input) :
    LatestBy.Ordered (isLaterCheck platform) (competing platform input) where
  total := by
    intro key first second isFirst isSecond distinct
    refine isLater_total fun sameId => distinct ?_
    exact List.inj_on_of_nodup_map checkIds (check_of_competing isFirst) (check_of_competing isSecond) sameId
  asymmetric := fun key first second _ _ later => isLater_asymmetric later
  transitive := comparable.checks

theorem find?_perm {α : Type} {test : α -> Bool} {entries others : List α} (perm : others.Perm entries)
    (one : forall entry other, entry ∈ entries -> other ∈ entries -> test entry = true -> test other = true ->
      entry = other) : others.find? test = entries.find? test := by
  cases found : entries.find? test with
  | none =>
      refine List.find?_eq_none.mpr fun entry member => ?_
      exact List.find?_eq_none.mp found entry (perm.mem_iff.mp member)
  | some entry =>
      have member := List.mem_of_find?_eq_some found
      have passes := List.find?_some found
      cases otherFound : others.find? test with
      | none => exact absurd passes (List.find?_eq_none.mp otherFound entry (perm.mem_iff.mpr member))
      | some other =>
          have otherMember := perm.mem_iff.mp (List.mem_of_find?_eq_some otherFound)
          rw [one other entry otherMember member (List.find?_some otherFound) passes]

end Competition

section Reordered

variable {platform : Platform} {input other : ResolveInput}

structure Reorders (input other : ResolveInput) : Prop where
  checks : other.checks.Perm input.checks
  workflowRuns : other.workflowRuns.Perm input.workflowRuns
  trust : other.trust = input.trust
  excludedRunIds : other.excludedRunIds = input.excludedRunIds
  isExcluded : other.isExcluded = input.isExcluded

theorem Reorders.latestTrustedRuns (reorders : Reorders input other)
    (runIds : (input.workflowRuns.map (·.id)).Nodup) (comparable : Comparable platform input) :
    (DeployGate.latestTrustedRuns platform other.workflowRuns other.trust other.excludedRunIds).Perm
      (DeployGate.latestTrustedRuns platform input.workflowRuns input.trust input.excludedRunIds) := by
  rw [reorders.trust, reorders.excludedRunIds]
  refine List.Perm.map _ (LatestBy.latestOf_perm (ordered_runs runIds comparable) ?_)
  exact (reorders.workflowRuns.filter _).map _

theorem Reorders.runOf_eq (reorders : Reorders input other) (runIds : (input.workflowRuns.map (·.id)).Nodup)
    (comparable : Comparable platform input) {check : GateCheck} (member : check ∈ input.checks) :
    runOf other.workflowRuns check = runOf input.workflowRuns check := by
  have perm : other.workflowRuns.reverse.Perm input.workflowRuns.reverse :=
    (List.reverse_perm _).trans (reorders.workflowRuns.trans (List.reverse_perm _).symm)
  have byId : (check.runId.bind fun runId => other.workflowRuns.reverse.find? (·.id == runId)) =
      check.runId.bind fun runId => input.workflowRuns.reverse.find? (·.id == runId) := by
    cases check.runId with
    | none => rfl
    | some runId =>
        refine find?_perm perm fun run known isRun isKnown passes alsoPasses => ?_
        exact List.inj_on_of_nodup_map runIds (List.mem_reverse.mp isRun) (List.mem_reverse.mp isKnown)
          ((beq_iff_eq.mp passes).trans (beq_iff_eq.mp alsoPasses).symm)
  rw [runOf, runOf, byId]
  cases found : check.runId.bind fun runId => input.workflowRuns.reverse.find? (·.id == runId) with
  | some run => rfl
  | none =>
      have unlisted : forall run, run ∈ input.workflowRuns -> check.runId ≠ some run.id := by
        intro run isRun named
        rw [named] at found
        exact List.find?_eq_none.mp found run (List.mem_reverse.mpr isRun) (beq_self_eq_true run.id)
      rw [Option.orElse_none, Option.orElse_none]
      cases isSuite : check.checkSuiteId with
      | none => rfl
      | some suite =>
          refine find?_perm perm fun run known isRun isKnown passes alsoPasses => ?_
          exact comparable.suites check suite member ⟨isSuite, unlisted⟩ run known (List.mem_reverse.mp isRun)
            (List.mem_reverse.mp isKnown) (beq_iff_eq.mp passes) (beq_iff_eq.mp alsoPasses)

theorem Reorders.competing (reorders : Reorders input other) (runIds : (input.workflowRuns.map (·.id)).Nodup)
    (comparable : Comparable platform input) :
    (DeployGate.competing platform other).Perm (DeployGate.competing platform input) := by
  have sameIds : forall id, id ∈ other.latestIds platform <-> id ∈ input.latestIds platform := fun id =>
    ((reorders.latestTrustedRuns runIds comparable).map (·.id)).mem_iff
  have sameKey : forall check, check ∈ input.checks ->
      resultKey other.workflowRuns (other.latestIds platform) check =
        resultKey input.workflowRuns (input.latestIds platform) check := by
    intro check member
    simp only [resultKey, reorders.runOf_eq runIds comparable member, sameIds]
  refine (reorders.checks.filterMap _).trans (List.Perm.of_eq ?_)
  refine List.filterMap_congr fun check member => ?_
  rw [reorders.isExcluded, sameKey check member]

theorem resolvedOf_perm {latest others : List GateCheck} (perm : others.Perm latest) :
    (resolvedOf platform others).Perm (resolvedOf platform latest) := by
  have names : forall name, name ∈ checkRunNames others <-> name ∈ checkRunNames latest := fun name =>
    ((perm.filter _).map _).mem_iff
  have sameTest : (fun check : GateCheck => !(check.kind == .status && decide (check.name ∈ checkRunNames others))) =
      fun check : GateCheck => !(check.kind == .status && decide (check.name ∈ checkRunNames latest)) := by
    funext check
    rw [decide_eq_decide.mpr (names check.name)]
  rw [resolvedOf, resolvedOf, sameTest]
  exact (perm.filter _).map _

theorem Reorders.resolveChecks (reorders : Reorders input other) (checkIds : (input.checks.map (·.id)).Nodup)
    (runIds : (input.workflowRuns.map (·.id)).Nodup) (comparable : Comparable platform input) :
    (DeployGate.resolveChecks platform other).Perm (DeployGate.resolveChecks platform input) := by
  have latest := LatestBy.latestOf_perm (ordered_checks checkIds comparable) (reorders.competing runIds comparable)
  rw [resolveChecks_eq, resolveChecks_eq]
  exact resolvedOf_perm (latest.map _)

end Reordered

section Groups

variable {clock : Clock}

theorem SameNames.refl (names : List String) : SameNames names names := fun _ => Iff.rfl

theorem SameNames.of_perm {names others : List String} (perm : names.Perm others) : SameNames names others :=
  fun _ => perm.mem_iff

theorem SameNames.eq_nil_iff {names others : List String} (same : SameNames names others) :
    names = [] <-> others = [] := by
  rw [List.eq_nil_iff_forall_not_mem, List.eq_nil_iff_forall_not_mem]
  exact forall_congr' fun name => not_congr (same name)

theorem SameNames.unique {names others : List String} (same : SameNames names others) :
    SameNames (unique names) (unique others) := by
  intro name
  rw [DeployGate.unique, DeployGate.unique, List.mem_eraseDups, List.mem_eraseDups]
  exact same name

theorem SameNames.append {names others more rest : List String} (same : SameNames names others)
    (alsoSame : SameNames more rest) : SameNames (names ++ more) (others ++ rest) := by
  intro name
  rw [List.mem_append, List.mem_append]
  exact or_congr (same name) (alsoSame name)

structure SameGroup (group other : Group) : Prop where
  noun : group.noun = other.noun
  failed : SameNames group.failed other.failed
  missing : group.missing = other.missing
  running : group.running.Perm other.running

theorem SameGroup.pendingNames {group other : Group} (same : SameGroup group other) :
    SameNames group.pendingNames other.pendingNames := by
  rw [Group.pendingNames, Group.pendingNames, same.missing]
  exact (SameNames.refl _).append (SameNames.of_perm (same.running.map _))

theorem SameGroup.stuck {group other : Group} (same : SameGroup group other) :
    SameNames (group.stuck clock) (other.stuck clock) :=
  SameNames.of_perm ((same.running.filter _).map _)

theorem lateParts_eq_nil_iff {group : Group} :
    group.lateParts clock = [] <->
      (clock.timedOut && group.missing != []) = false ∧ group.stuck clock = [] := by
  rw [Group.lateParts, List.append_eq_nil_iff]
  refine and_congr ?_ ?_
  · split
    · rename_i late
      rw [late]
      exact ⟨fun impossible => absurd impossible (List.cons_ne_nil _ _), fun impossible => nomatch impossible⟩
    · rename_i notLate
      exact ⟨fun _ => Bool.eq_false_iff.mpr notLate, fun _ => rfl⟩
  · split
    · rename_i late
      exact ⟨fun impossible => absurd impossible (List.cons_ne_nil _ _), fun none => absurd none late⟩
    · rename_i notLate
      exact ⟨fun _ => not_not.mp notLate, fun _ => rfl⟩

theorem sameNames_flatMap {groups others : List Group} {names : Group -> List String}
    (same : List.Forall₂ (fun group other => SameNames (names group) (names other)) groups others) :
    SameNames (groups.flatMap names) (others.flatMap names) := by
  induction same with
  | nil => exact SameNames.refl _
  | cons first _ ih =>
      rw [List.flatMap_cons, List.flatMap_cons]
      exact first.append ih

theorem sameNames_failed (groups : List Group) :
    SameNames ((groups.filter fun group => group.failed != []).flatMap (·.failed)) (groups.flatMap (·.failed)) := by
  intro name
  rw [List.mem_flatMap, List.mem_flatMap]
  constructor
  · rintro ⟨group, member, named⟩
    exact ⟨group, List.mem_of_mem_filter member, named⟩
  · rintro ⟨group, member, named⟩
    exact ⟨group, List.mem_filter.mpr ⟨member, bne_iff_ne.mpr (List.ne_nil_of_mem named)⟩, named⟩

theorem flatMap_eq_nil_of_same {groups others : List Group} {parts : Group -> List String}
    (same : List.Forall₂ (fun group other => parts group = [] <-> parts other = []) groups others) :
    groups.flatMap parts = [] <-> others.flatMap parts = [] := by
  induction same with
  | nil => exact Iff.rfl
  | cons first _ ih =>
      rw [List.flatMap_cons, List.flatMap_cons, List.append_eq_nil_iff, List.append_eq_nil_iff]
      exact and_congr first ih

theorem decideGroups_same {groups others : List Group} (same : List.Forall₂ SameGroup groups others) :
    SameDecision (decideGroups groups clock) (decideGroups others clock) := by
  have failedNames : SameNames (groups.flatMap (·.failed)) (others.flatMap (·.failed)) :=
    sameNames_flatMap (same.imp fun _ _ each => each.failed)
  have failed : SameNames ((groups.filter fun group => group.failed != []).flatMap (·.failed))
      ((others.filter fun group => group.failed != []).flatMap (·.failed)) := fun name =>
    (sameNames_failed groups name).trans ((failedNames name).trans (sameNames_failed others name).symm)
  have anyFailed : forall list : List Group, (list.filter fun group => group.failed != []) = [] <->
      list.flatMap (·.failed) = [] := by
    intro list
    rw [List.filter_eq_nil_iff, List.flatMap_eq_nil_iff]
    exact forall_congr' fun group => imp_congr_right fun _ => by rw [bne_iff_ne, ne_eq, not_not]
  have pending := (sameNames_flatMap (same.imp fun _ _ each => each.pendingNames)).unique
  have late : groups.flatMap (fun group => group.lateParts clock) = [] <->
      others.flatMap (fun group => group.lateParts clock) = [] := by
    refine flatMap_eq_nil_of_same (same.imp fun group other each => ?_)
    rw [lateParts_eq_nil_iff, lateParts_eq_nil_iff, each.missing, each.stuck.eq_nil_iff]
  have missing : SameNames (groups.flatMap fun group => if clock.timedOut then group.missing else [])
      (others.flatMap fun group => if clock.timedOut then group.missing else []) := by
    refine sameNames_flatMap (same.imp fun group other each => ?_)
    rw [each.missing]
    exact SameNames.refl _
  have stuck : SameNames (groups.flatMap fun group => group.stuck clock) (others.flatMap fun group => group.stuck clock) :=
    sameNames_flatMap (same.imp fun _ _ each => each.stuck)
  have noFailure : (groups.filter fun group => group.failed != []) = [] <->
      (others.filter fun group => group.failed != []) = [] :=
    (anyFailed groups).trans (failedNames.eq_nil_iff.trans (anyFailed others).symm)
  rw [decideGroups, decideGroups]
  by_cases none : (groups.filter fun group => group.failed != []) = []
  · rw [if_neg (not_not.mpr none), if_neg (not_not.mpr (noFailure.mp none))]
    by_cases idle : DeployGate.unique (groups.flatMap Group.pendingNames) = []
    · rw [if_pos idle, if_pos (pending.eq_nil_iff.mp idle)]
      trivial
    · rw [if_neg idle, if_neg fun nothing => idle (pending.eq_nil_iff.mpr nothing)]
      by_cases early : groups.flatMap (fun group => group.lateParts clock) = []
      · rw [if_pos early, if_pos (late.mp early)]
        exact pending
      · rw [if_neg early, if_neg fun nothing => early (late.mpr nothing)]
        exact ⟨SameNames.refl _, missing.unique, stuck.unique⟩
  · rw [if_pos none, if_pos fun nothing => none (noFailure.mpr nothing)]
    exact ⟨failed.unique, SameNames.refl _, SameNames.refl _⟩

theorem worst_perm {verdicts others : List Verdict} (perm : verdicts.Perm others) : worst verdicts = worst others := by
  rw [worst, worst]
  simp only [perm.mem_iff]

theorem max?_perm {starts others : List Int} (perm : starts.Perm others) : starts.max? = others.max? := by
  cases isMax : others.max? with
  | none =>
      have none : others = [] := List.max?_eq_none_iff.mp isMax
      rw [none] at perm
      rw [List.perm_nil.mp perm]
      rfl
  | some greatest =>
      have parts := List.max?_eq_some_iff.mp isMax
      exact List.max?_eq_some_iff.mpr ⟨perm.mem_iff.mpr parts.1, fun start member => parts.2 start (perm.mem_iff.mp member)⟩

theorem lastStart_perm {found others : List Result} (perm : found.Perm others) : lastStart found = lastStart others :=
  max?_perm ((perm.filter _).filterMap _)

theorem waitFor_perm {names : List String} {results others : String -> List Result} {noun : Noun}
    (perm : forall name, (results name).Perm (others name)) : waitFor names results noun = waitFor names others noun := by
  have none : forall name, results name = [] <-> others name = [] := by
    intro name
    constructor
    · intro isNone
      exact List.nil_perm.mp (isNone ▸ perm name)
    · intro isNone
      exact List.perm_nil.mp (isNone ▸ perm name)
  have worsts : forall name, worst ((results name).map (·.verdict)) = worst ((others name).map (·.verdict)) :=
    fun name => worst_perm ((perm name).map _)
  have starts : forall name, lastStart (results name) = lastStart (others name) := fun name => lastStart_perm (perm name)
  simp only [waitFor, none, worsts, starts]

end Groups

section Gate

variable {platform : Platform} {input : DeployGateInput} {checks : List GateCheck} {runs : List GateWorkflowRun}

theorem reorders_withRuns (ofChecks : checks.Perm input.checks) (ofRuns : runs.Perm input.workflowRuns) :
    Reorders (input.resolveInput platform) ((input.withRuns runs checks).resolveInput platform) where
  checks := ofChecks
  workflowRuns := ofRuns
  trust := rfl
  excludedRunIds := rfl
  isExcluded := rfl

theorem failedRuns_same {others : List GateWorkflowRun} (perm : runs.Perm others) :
    SameNames (failedRuns runs) (failedRuns others) :=
  (SameNames.of_perm ((perm.filter _).map _)).unique

theorem evaluateWorkflows_same {clock : Clock} {other : DeployGateInput} (workflows : other.workflows = input.workflows)
    (perm : (other.runs platform).Perm (input.runs platform)) :
    SameDecision (evaluateWorkflows platform other clock) (evaluateWorkflows platform input clock) := by
  have groups : forall names, waitFor names
      (fun name => ((other.runs platform).filter (runMatches · name)).map fun run =>
        (⟨run.verdict, time platform run.startedAt⟩ : Result)) .workflow =
      waitFor names (fun name => ((input.runs platform).filter (runMatches · name)).map fun run =>
        (⟨run.verdict, time platform run.startedAt⟩ : Result)) .workflow := fun names =>
    waitFor_perm fun name => (perm.filter _).map _
  rw [evaluateWorkflows, evaluateWorkflows, workflows]
  split
  · exact ⟨SameNames.refl _, SameNames.refl _, SameNames.refl _⟩
  · rw [groups]
    exact decideGroups_same (List.Forall₂.cons ⟨rfl, SameNames.refl _, rfl, List.Perm.refl _⟩ List.Forall₂.nil)

theorem evaluateChecks_same {clock : Clock} {other : DeployGateInput}
    (expectedNames : other.expectedNames platform = input.expectedNames platform)
    (fromPinned : other.fromPinned = input.fromPinned)
    (resolved : (other.resolved platform).Perm (input.resolved platform))
    (runs : (other.runs platform).Perm (input.runs platform)) :
    SameDecision (evaluateChecks platform other clock) (evaluateChecks platform input clock) := by
  have checkGroup : waitFor (input.expectedNames platform)
      (fun name => (other.deciding platform name).map fun result => (⟨result.verdict, result.since⟩ : Result)) .check =
      waitFor (input.expectedNames platform)
        (fun name => (input.deciding platform name).map fun result => (⟨result.verdict, result.since⟩ : Result)) .check := by
    refine waitFor_perm fun name => List.Perm.map _ ?_
    rw [DeployGateInput.deciding, DeployGateInput.deciding, fromPinned]
    exact resolved.filter _
  have none : other.resolved platform = [] ∧ other.runs platform = [] <->
      input.resolved platform = [] ∧ input.runs platform = [] := by
    rw [← List.isEmpty_iff, ← List.isEmpty_iff, ← List.isEmpty_iff, ← List.isEmpty_iff,
      resolved.isEmpty_eq, runs.isEmpty_eq]
  simp only [evaluateChecks, expectedNames, checkGroup]
  split
  · refine decideGroups_same (List.Forall₂.cons ⟨rfl, ?_, rfl, List.Perm.refl _⟩
      (List.Forall₂.cons ⟨rfl, failedRuns_same runs, rfl, List.Perm.refl _⟩ List.Forall₂.nil))
    exact ((SameNames.refl _).append (SameNames.of_perm ((resolved.filter _).map _)).unique).unique
  · by_cases nothing : input.resolved platform = [] ∧ input.runs platform = []
    · rw [if_pos nothing, if_pos (none.mpr nothing)]
      split
      · exact ⟨SameNames.refl _, SameNames.refl _, SameNames.refl _⟩
      · exact SameNames.refl _
    · rw [if_neg nothing, if_neg fun both => nothing (none.mp both)]
      refine decideGroups_same (List.Forall₂.cons ⟨rfl, ?_, rfl, (resolved.filter _).map _⟩
        (List.Forall₂.cons ⟨rfl, failedRuns_same runs, rfl, (runs.filter _).map _⟩ List.Forall₂.nil))
      exact (SameNames.of_perm ((resolved.filter _).map _)).unique

end Gate

/-- A platform on which two dates are known. -/
def twoDates : Platform := ⟨id, fun text => some (if text = "10:00" then 10 else 5), fun _ _ => true⟩

/-- A check run of another app, with a start time or without. -/
def appCheck (id : Nat) (startedAt : Option String) (conclusion : String) : GateCheck :=
  ⟨"ci", .checkRun, "completed", some conclusion, id, startedAt, some "circleci", some 9, none, none⟩

def appCommit (checks : List GateCheck) : DeployGateInput := { pushedCommit with checks, workflowRuns := [] }

theorem comparable_appCommit :
    Comparable twoDates ((appCommit [appCheck 1 (some "10:00") "success", appCheck 2 none "failure"]).resolveInput
      twoDates) where
  runs := fun _ _ _ isFirst => absurd isFirst List.not_mem_nil
  checks := by
    have all : forall first, first ∈ competing twoDates ((appCommit [appCheck 1 (some "10:00") "success",
        appCheck 2 none "failure"]).resolveInput twoDates) ->
        forall second, second ∈ competing twoDates ((appCommit [appCheck 1 (some "10:00") "success",
          appCheck 2 none "failure"]).resolveInput twoDates) ->
        forall third, third ∈ competing twoDates ((appCommit [appCheck 1 (some "10:00") "success",
          appCheck 2 none "failure"]).resolveInput twoDates) ->
        isLaterCheck twoDates first.2 second.2 = true -> isLaterCheck twoDates second.2 third.2 = true ->
          isLaterCheck twoDates first.2 third.2 = true := by decide
    exact fun key first second third isFirst isSecond isThird =>
      all (key, first) isFirst (key, second) isSecond (key, third) isThird
  suites := fun _ _ _ _ _ _ isRun => absurd isRun List.not_mem_nil

end DeployGate
end Dokploy
