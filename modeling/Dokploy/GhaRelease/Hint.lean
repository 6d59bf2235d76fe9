import Dokploy.GhaRelease.Acceptance
import Dokploy.GhaRelease.LogCodec

namespace Dokploy
namespace GhaRelease

open Foundation
open Foundation.Unicode

/-!
# A hint does not change what is released

A hint splits the successful jobs into two groups and orders them.  When there
are not more of them than logs may be read, every one of them is in one of the
groups.  When in addition all marker lines carry the same text, a group with a
marker yields that text and a group without one yields nothing, so that what is
read in the end is described by the successful jobs alone.
-/

section Logs

variable (api : ActionsApi)

/-- The log of a job, when GitHub has it. -/
def jobText (job : JobInfo) : Option Units :=
  match api.jobLog job.id JOB_LOG_MAX_BYTES with
  | .ok log => some log
  | .failed _ => none

def logMissing (job : JobInfo) : Bool := api.jobLog job.id JOB_LOG_MAX_BYTES == .failed .notFound

/-- The log is there, missing or too large. -/
def Readable (job : JobInfo) : Prop :=
  (Exists fun log => api.jobLog job.id JOB_LOG_MAX_BYTES = .ok log) ∨
    api.jobLog job.id JOB_LOG_MAX_BYTES = .failed .notFound ∨
    api.jobLog job.id JOB_LOG_MAX_BYTES = .failed (.error 413)

/-- The log of the job has a marker line. -/
def hasMarker (job : JobInfo) : Bool := (jobText api job).any fun log => !(markerLines log).isEmpty

/-- Every marker line in the logs of these jobs carries the text. -/
def Carry (jobs : List JobInfo) (text : Units) : Prop :=
  forall job, job ∈ jobs -> forall log, api.jobLog job.id JOB_LOG_MAX_BYTES = .ok log ->
    forall line, line ∈ markerLines log -> line = .text text

theorem readLogs_all {jobs : List JobInfo} {group : GroupLogs} (enough : jobs.length ≤ group.budget)
    (readable : forall job, job ∈ jobs -> Readable api job) :
    readLogs api jobs group = .ok ⟨group.logs ++ jobs.filterMap (jobText api), group.budget - jobs.length,
      group.incomplete || jobs.any (logMissing api)⟩ := by
  induction jobs generalizing group with
  | nil => simp [readLogs]
  | cons job jobs ih =>
      have budget : group.budget ≠ 0 := by
        rw [List.length_cons] at enough
        omega
      have left : jobs.length ≤ group.budget - 1 := by
        rw [List.length_cons] at enough
        omega
      have spent : group.budget - 1 - jobs.length = group.budget - (jobs.length + 1) := by omega
      have others : forall other, other ∈ jobs -> Readable api other :=
        fun other member => readable other (List.mem_cons_of_mem _ member)
      rw [readLogs, if_neg budget]
      rcases readable job List.mem_cons_self with ⟨log, answered⟩ | answered | answered
      · have text : jobText api job = some log := by rw [jobText, answered]
        have present : logMissing api job = false := by
          rw [logMissing, answered]
          rfl
        simp only [answered]
        rw [ih left others, List.filterMap_cons_some text, List.any_cons, present]
        simp only [List.append_assoc, List.singleton_append, List.length_cons, spent, Bool.false_or]
      · have text : jobText api job = none := by rw [jobText, answered]
        have missing : logMissing api job = true := by
          rw [logMissing, answered]
          rfl
        simp only [answered]
        rw [ih left others, List.filterMap_cons_none text, List.any_cons, missing]
        simp only [List.length_cons, spent, Bool.true_or, Bool.or_true]
      · have text : jobText api job = none := by rw [jobText, answered]
        have present : logMissing api job = false := by
          rw [logMissing, answered]
          rfl
        simp only [answered]
        rw [ih left others, List.filterMap_cons_none text, List.any_cons, present]
        simp only [List.length_cons, spent, Bool.false_or]

theorem jobText_eq_some {job : JobInfo} {log : Units} :
    jobText api job = some log <-> api.jobLog job.id JOB_LOG_MAX_BYTES = .ok log := by
  unfold jobText
  split
  · rename_i found answered
    rw [answered, Option.some.injEq, ApiResult.ok.injEq]
  · rename_i failure answered
    rw [answered]
    constructor <;> exact nofun

theorem hasMarker_iff {job : JobInfo} :
    hasMarker api job = true <-> Exists fun log => jobText api job = some log ∧ markerLines log ≠ [] := by
  unfold hasMarker
  cases jobText api job with
  | none => exact ⟨nofun, fun ⟨_, isLog, _⟩ => by cases isLog⟩
  | some log => simp

theorem extractLogManifest_group {jobs : List JobInfo} {text : Units} (carry : Carry api jobs text) :
    extractLogManifest (jobs.filterMap (jobText api)) =
      if jobs.any (hasMarker api) then .ok text else .failed .none "The job log has no manifest marker" := by
  have all : forall line, line ∈ (jobs.filterMap (jobText api)).flatMap markerLines -> line = .text text := by
    intro line member
    rcases List.mem_flatMap.mp member with ⟨log, inLogs, inLog⟩
    rcases List.mem_filterMap.mp inLogs with ⟨job, inJobs, isLog⟩
    exact carry job inJobs log ((jobText_eq_some api).mp isLog) line inLog
  split
  · rename_i marked
    rcases List.any_eq_true.mp marked with ⟨job, inJobs, marker⟩
    rcases (hasMarker_iff api).mp marker with ⟨log, isLog, lines⟩
    rcases List.exists_mem_of_ne_nil _ lines with ⟨line, inLog⟩
    have member : line ∈ (jobs.filterMap (jobText api)).flatMap markerLines :=
      List.mem_flatMap.mpr ⟨log, List.mem_filterMap.mpr ⟨job, inJobs, isLog⟩, inLog⟩
    exact manifestOf_same (all line member ▸ member) all
  · rename_i unmarked
    have nothing : (jobs.filterMap (jobText api)).flatMap markerLines = [] := by
      apply List.flatMap_eq_nil_iff.mpr
      intro log inLogs
      rcases List.mem_filterMap.mp inLogs with ⟨job, inJobs, isLog⟩
      by_contra some
      exact unmarked (List.any_eq_true.mpr ⟨job, inJobs, (hasMarker_iff api).mpr ⟨log, isLog, some⟩⟩)
    rw [extractLogManifest, nothing]
    rfl

theorem readGroups_pair {first second : List JobInfo} {budget : Nat} {incomplete : Bool} {text : Units}
    (enough : first.length + second.length ≤ budget)
    (readable : forall job, job ∈ first ++ second -> Readable api job) (carry : Carry api (first ++ second) text) :
    readGroups api [first, second] budget incomplete =
      if (first ++ second).any (hasMarker api) then .found text
      else .none (incomplete || (first ++ second).any (logMissing api)) := by
  have readFirst : forall job, job ∈ first -> Readable api job :=
    fun job member => readable job (List.mem_append_left _ member)
  have readSecond : forall job, job ∈ second -> Readable api job :=
    fun job member => readable job (List.mem_append_right _ member)
  have carryFirst : Carry api first text := fun job member => carry job (List.mem_append_left _ member)
  have carrySecond : Carry api second text := fun job member => carry job (List.mem_append_right _ member)
  simp only [readGroups]
  rw [readLogs_all api (by simp only; omega) readFirst]
  simp only [List.nil_append]
  rw [extractLogManifest_group api carryFirst, List.any_append]
  cases first.any (hasMarker api) with
  | true => rfl
  | false =>
      simp only [Bool.false_eq_true, if_false, Bool.false_or]
      rw [readLogs_all api (by simp only; omega) readSecond]
      simp only [List.nil_append]
      rw [extractLogManifest_group api carrySecond, List.any_append]
      cases second.any (hasMarker api) with
      | true => rfl
      | false => simp only [Bool.false_eq_true, if_false, Bool.or_assoc]

end Logs

theorem preferredJobs_eq_filter (successful : List JobInfo) (releaseJobName : Option String)
    (hint : Option JobHint) : Exists fun test : JobInfo -> Bool =>
      preferredJobs successful releaseJobName hint = successful.filter test := by
  have none : successful.filter (fun _ => false) = [] := List.filter_eq_nil_iff.mpr fun _ _ => Bool.false_ne_true
  simp only [preferredJobs]
  cases given releaseJobName with
  | some name => exact ⟨_, rfl⟩
  | none =>
      cases given (hint.bind JobHint.job) with
      | none =>
          cases given (hint.bind JobHint.runner) with
          | none => exact ⟨_, none.symm⟩
          | some runner => exact ⟨_, rfl⟩
      | some name =>
          cases given (hint.bind JobHint.runner) with
          | none => exact ⟨_, rfl⟩
          | some runner =>
              by_cases empty : (successful.filter fun job => job.runnerName == some runner) = []
              · exact ⟨_, if_pos empty⟩
              · exact ⟨_, if_neg empty⟩

/-- Two lists hold jobs with the same logs. -/
def SameLogs (jobs others : List JobInfo) : Prop :=
  (forall job, job ∈ jobs -> Exists fun other => other ∈ others ∧ other.id = job.id) ∧
    forall other, other ∈ others -> Exists fun job => job ∈ jobs ∧ job.id = other.id

theorem SameLogs.any {jobs others : List JobInfo} (same : SameLogs jobs others) {test : JobInfo -> Bool}
    (ofId : forall job other : JobInfo, job.id = other.id -> test job = test other) : jobs.any test = others.any test := by
  apply Bool.eq_iff_iff.mpr
  rw [List.any_eq_true, List.any_eq_true]
  constructor
  · rintro ⟨job, member, passes⟩
    rcases same.1 job member with ⟨other, inOthers, sameId⟩
    exact ⟨other, inOthers, (ofId other job sameId).trans passes⟩
  · rintro ⟨other, member, passes⟩
    rcases same.2 other member with ⟨job, inJobs, sameId⟩
    exact ⟨job, inJobs, (ofId job other sameId).trans passes⟩

theorem SameLogs.isEmpty {jobs others : List JobInfo} (same : SameLogs jobs others) :
    decide (jobs.length = 0) = others.isEmpty := by
  cases jobs with
  | nil =>
      cases others with
      | nil => rfl
      | cons other _ =>
          rcases same.2 other List.mem_cons_self with ⟨job, member, _⟩
          cases member
  | cons job _ =>
      cases others with
      | nil =>
          rcases same.1 job List.mem_cons_self with ⟨other, member, _⟩
          cases member
      | cons other _ => rfl

section Groups

variable (jobs : List JobInfo) (runId attempt : Nat) (headSha : String) (releaseJobName : Option String)
  (hint : Option JobHint)

theorem releaseJobs_covers (few : (successfulJobs jobs runId attempt headSha).length ≤ MAX_LOG_JOBS) :
    let chosen := releaseJobs jobs runId attempt headSha releaseJobName hint
    SameLogs (chosen.preferred ++ chosen.rest) (successfulJobs jobs runId attempt headSha) ∧
      (forall job, job ∈ chosen.preferred ++ chosen.rest -> job ∈ successfulJobs jobs runId attempt headSha) ∧
      chosen.preferred.length + chosen.rest.length ≤ MAX_LOG_JOBS ∧ chosen.overCap = false := by
  rcases preferredJobs_eq_filter (successfulJobs jobs runId attempt headSha) releaseJobName hint with ⟨test, picked⟩
  simp only [releaseJobs, picked]
  generalize successfulJobs jobs runId attempt headSha = successful at few
  let isChosen : JobInfo -> Bool := fun job => ((successful.filter test).map JobInfo.id).contains job.id
  have chosenOfTest : forall job, job ∈ successful -> test job = true -> isChosen job = true := by
    intro job member passes
    exact List.contains_iff_mem.mpr (List.mem_map.mpr ⟨job, List.mem_filter.mpr ⟨member, passes⟩, rfl⟩)
  have split : successful.length =
      (successful.filter isChosen).length + (successful.filter fun job => !isChosen job).length :=
    List.length_eq_length_filter_add isChosen
  have others := @List.length_eq_length_filter_add _ (successful.filter fun job => !isChosen job) fun job =>
    releaseLike job
  have preferred : (successful.filter test).length ≤ (successful.filter isChosen).length := by
    rw [<- List.countP_eq_length_filter, <- List.countP_eq_length_filter]
    exact List.countP_mono_left chosenOfTest
  have whole : (successful.filter test).take MAX_LOG_JOBS = successful.filter test :=
    List.take_of_length_le (by omega)
  rw [whole]
  refine ⟨⟨?_, ?_⟩, ?_, ?_, ?_⟩
  · intro job member
    refine ⟨job, ?_, rfl⟩
    simp only [List.mem_append, List.mem_filter] at member
    tauto
  · intro job member
    by_cases inChosen : isChosen job = true
    · rcases List.mem_map.mp (List.contains_iff_mem.mp inChosen) with ⟨other, inPreferred, sameId⟩
      exact ⟨other, List.mem_append_left _ inPreferred, sameId⟩
    · have inOthers : job ∈ successful.filter fun job => !isChosen job :=
        List.mem_filter.mpr ⟨member, by rw [Bool.not_eq_true] at inChosen; rw [inChosen]; rfl⟩
      refine ⟨job, List.mem_append_right _ (List.mem_append.mpr ?_), rfl⟩
      cases like : releaseLike job with
      | true => exact Or.inl (List.mem_filter.mpr ⟨inOthers, like⟩)
      | false => exact Or.inr (List.mem_filter.mpr ⟨inOthers, by rw [like]; rfl⟩)
  · intro job member
    simp only [List.mem_append, List.mem_filter] at member
    tauto
  · have total : (successful.filter test).length + (((successful.filter fun job => !isChosen job).filter fun job =>
        releaseLike job) ++ (successful.filter fun job => !isChosen job).filter fun job =>
          !releaseLike job).length ≤ MAX_LOG_JOBS := by
      rw [List.length_append]
      omega
    exact total
  · exact decide_eq_false (by omega)

end Groups

/-- GitHub has at most as many successful jobs as logs are read, every log is
there, missing or too large, and the marker lines agree. -/
structure OneManifest (api : ActionsApi) (run : RunInfo) (runAttempt : Nat) (jobs : List JobInfo) : Prop where
  few : (successfulJobs jobs run.id runAttempt run.headSha).length ≤ MAX_LOG_JOBS
  readable : forall job, job ∈ successfulJobs jobs run.id runAttempt run.headSha -> Readable api job
  agree : Exists fun text => Carry api (successfulJobs jobs run.id runAttempt run.headSha) text

theorem readJobLogManifest_eq {api : ActionsApi} {run : RunInfo} {runAttempt : Nat} {jobs : List JobInfo}
    (c : ConnectionFacts) (hint : Option JobHint) (listed : api.runJobs run.id runAttempt = .ok jobs) {text : Units}
    (few : (successfulJobs jobs run.id runAttempt run.headSha).length ≤ MAX_LOG_JOBS)
    (readable : forall job, job ∈ successfulJobs jobs run.id runAttempt run.headSha -> Readable api job)
    (carry : Carry api (successfulJobs jobs run.id runAttempt run.headSha) text) :
    readJobLogManifest api run runAttempt c hint =
      if (successfulJobs jobs run.id runAttempt run.headSha).any (hasMarker api) then .found text
      else .none ((successfulJobs jobs run.id runAttempt run.headSha).isEmpty ||
        (successfulJobs jobs run.id runAttempt run.headSha).any (logMissing api)) := by
  rcases releaseJobs_covers jobs run.id runAttempt run.headSha c.releaseJobName hint few with
    ⟨same, subset, fits, notOver⟩
  have marks := same.any fun job other sameId => show hasMarker api job = hasMarker api other by
    simp only [hasMarker, jobText, sameId]
  have misses := same.any fun job other sameId => show logMissing api job = logMissing api other by
    simp only [logMissing, sameId]
  simp only [readJobLogManifest, listed, <- List.length_append]
  rw [readGroups_pair api fits (fun job member => readable job (subset job member))
    (fun job member => carry job (subset job member)), marks, misses, notOver, Bool.or_false, same.isEmpty]

/-- The answers of GitHub are good enough that no hint can matter. -/
def HintFree (deps : AcceptanceDeps) (input : AcceptanceInput) : Prop :=
  forall run, deps.api.runAttempt input.runId input.runAttempt = .ok run ->
    forall jobs, deps.api.runJobs run.id input.runAttempt = .ok jobs -> OneManifest deps.api run input.runAttempt jobs

theorem readJobLogManifest_hint {deps : AcceptanceDeps} {input : AcceptanceInput} {run : RunInfo}
    (hintFree : HintFree deps input) (isRun : deps.api.runAttempt input.runId input.runAttempt = .ok run)
    (first second : Option JobHint) :
    readJobLogManifest deps.api run input.runAttempt input.connection first =
      readJobLogManifest deps.api run input.runAttempt input.connection second := by
  cases listed : deps.api.runJobs run.id input.runAttempt with
  | failed failure =>
      simp only [readJobLogManifest, listed]
      cases failure <;> rfl
  | ok jobs =>
      rcases hintFree run isRun jobs listed with ⟨few, readable, text, carry⟩
      rw [readJobLogManifest_eq _ first listed few readable carry,
        readJobLogManifest_eq _ second listed few readable carry]

theorem run_of_ruleRun {deps : AcceptanceDeps} {input : AcceptanceInput} {run : RunInfo}
    (passed : ruleRun deps input = .ok run) : deps.api.runAttempt input.runId input.runAttempt = .ok run := by
  rcases bind_eq_ok.mp passed with ⟨found, answered, checked⟩
  have same : found = run := by
    simp only [stopWith] at checked
    split_ifs at checked
    exact Except.ok.inj checked
  rw [<- same]
  exact ok_of_needs answered

/-- Two evaluations that differ in the hint alone give the same answer. -/
theorem acceptRelease_hint (deps : AcceptanceDeps) (input : AcceptanceInput) (first second : Option JobHint)
    (hintFree : HintFree deps input) :
    acceptRelease deps { input with hint := first } = acceptRelease deps { input with hint := second } := by
  have rulesSame : rules deps { input with hint := first } = rules deps { input with hint := second } := by
    have runSame : ruleRun deps { input with hint := first } = ruleRun deps { input with hint := second } := rfl
    unfold rules
    rw [runSame]
    cases passed : ruleRun deps { input with hint := second } with
    | error stop => rfl
    | ok run =>
        have logs := readJobLogManifest_hint hintFree (run_of_ruleRun passed) first second
        have sources : ruleSource deps { input with hint := first } run =
            ruleSource deps { input with hint := second } run := by
          simp only [ruleSource, manifestFromLog, logs]
          rfl
        show rulesOfRun deps { input with hint := first } run = rulesOfRun deps { input with hint := second } run
        unfold rulesOfRun
        rw [sources]
        rfl
  rw [acceptRelease, acceptRelease, rulesSame]

/-- A run of the connection with two jobs; the marker is in the log of the
second one. -/
def twoJobsRun : RunInfo where
  id := 7
  attempt := 1
  path := ".github/workflows/release.yml"
  headBranch := some "main"
  headSha := "a"
  event := "push"
  status := "completed"
  conclusion := some "success"
  repositoryId := some 1
  headRepositoryId := some 1
  htmlUrl := ""
  runStartedAt := none
  updatedAt := none

def jobOnRunner (id : Nat) (name runner : String) : JobInfo :=
  ⟨id, some 7, some 1, name, "completed", some "success", some "a", some runner, []⟩

def twoJobsApi : ActionsApi where
  branchHead := fun _ => .ok "a"
  runAttempt := fun _ _ => .ok twoJobsRun
  artifacts := fun _ _ => .ok []
  downloadArtifact := fun _ _ => .failed .notFound
  runJobs := fun _ _ => .ok [jobOnRunner 1 "test" "r1", jobOnRunner 2 "release" "r2"]
  jobLog := fun id _ => .ok (if id = 2 then units "dokploy-release/v1 mh" else units "tested")
  compare := fun _ _ => .ok .identical
  environmentPolicy := fun _ => .failed .notFound

def twoJobsDeps : AcceptanceDeps where
  api := twoJobsApi
  probe := ⟨fun _ _ _ => .notFound⟩
  platform := ⟨id, fun _ => none, fun _ _ => true⟩
  readers := ⟨fun _ => .failed .invalidJson "The manifest is not valid JSON",
    fun _ _ _ => .error "The archive is too small to be a zip"⟩

def twoJobsInput : AcceptanceInput where
  runId := 7
  runAttempt := 1
  connection := ⟨1, ".github/workflows/release.yml", "main", "production", "web", "o", "r", .repositorySecret, none,
    none, none, [], false, none⟩
  hint := none
  now := 0

theorem twoJobs_hintFree : HintFree twoJobsDeps twoJobsInput := by
  intro run isRun jobs listed
  obtain rfl := ApiResult.ok.inj isRun
  obtain rfl := ApiResult.ok.inj listed
  refine ⟨by decide, fun job _ => Or.inl ⟨_, rfl⟩, utf16 ['a'], ?_⟩
  have testLines : markerLines (units "tested") = [] := by decide
  have releaseLines : markerLines (units "dokploy-release/v1 mh") = [.text (utf16 ['a'])] := by decide
  intro job member log isLog line inLog
  obtain rfl := ApiResult.ok.inj isLog
  split at inLog
  · rw [releaseLines] at inLog
    exact List.mem_singleton.mp inLog
  · rw [testLines] at inLog
    cases inLog

theorem acceptRelease_hint_twoJobs :
    acceptRelease twoJobsDeps { twoJobsInput with hint := some ⟨some "test", some "r1"⟩ } =
      acceptRelease twoJobsDeps { twoJobsInput with hint := none } :=
  acceptRelease_hint twoJobsDeps twoJobsInput (some ⟨some "test", some "r1"⟩) none twoJobs_hintFree

end GhaRelease
end Dokploy
