import Dokploy.ComposeRollback.Deploys

namespace Dokploy
namespace ComposeRollback

open Foundation

/-!
# A restore brings back one release

Seen from outside, a service has a release on disk and a last good one, and a
deploy that fails goes back to the last good one, else to the one on disk.  The
host keeps six files instead, and the compose file and the `.env` of a release
are put back independently of each other.  Under `EnvMatches` the two are the
same: the host then stands for a whole release at the end of every deploy.
-/

variable {Content : Type}

namespace Host

theorem snapshot_eq (file copied : ReleaseFile) (host : Host Content) :
    host.snapshot file copied = Function.update host copied (host file) := by
  unfold snapshot copy remove
  cases host file <;> rfl

theorem backup_eq (host : Host Content) : host.getBackupCurrentDeploymentCommand = fun
    | .preDeployCompose => host .compose
    | .preDeployEnv => host .env
    | file => host file := by
  funext file
  rw [getBackupCurrentDeploymentCommand, snapshot_eq, snapshot_eq]
  cases file <;> simp [Function.update]

theorem rewrite_eq (release : Release Content) (host : Host Content) : host.rewrite release = fun
    | .compose => some release.compose
    | .env => release.env
    | file => host file := by
  funext file
  unfold rewrite
  cases file <;> simp [Function.update]

theorem putBack_fst (first second destination : ReleaseFile) (host : Host Content) :
    (host.putBack first second destination).1 =
      Function.update host destination (((host first).or (host second)).or (host destination)) := by
  unfold putBack copy
  cases host first with
  | some content => rfl
  | none =>
      cases host second with
      | some content => rfl
      | none => simp

theorem putBack_snd (first second destination : ReleaseFile) (host : Host Content) :
    (host.putBack first second destination).2 = ((host first).or (host second)).isSome := by
  unfold putBack copy
  cases host first with
  | some content => rfl
  | none => cases host second <;> rfl

theorem restore_fst (isEnvRequired upWorks : Bool) (host : Host Content) :
    (host.getRestoreCommands isEnvRequired upWorks).1 = fun
      | .compose => ((host .lastGoodCompose).or (host .preDeployCompose)).or (host .compose)
      | .env => ((host .lastGoodEnv).or (host .preDeployEnv)).or (host .env)
      | file => host file := by
  funext file
  simp only [getRestoreCommands, putBack_fst]
  cases file <;> simp [Function.update]

theorem restore_snd {isEnvRequired upWorks : Bool} {host : Host Content}
    (marker : (host.getRestoreCommands isEnvRequired upWorks).2 = true) :
    ((host .lastGoodCompose).or (host .preDeployCompose)).isSome = true := by
  simp only [getRestoreCommands, putBack_snd, Bool.and_eq_true] at marker
  exact marker.1.1

theorem persist_eq {host : Host Content} {compose : Content} (there : host .compose = some compose) :
    host.persistLastGood = fun
      | .lastGoodCompose => some compose
      | .lastGoodEnv => host .env
      | file => host file := by
  funext file
  unfold persistLastGood copy
  simp only [there, Option.map_some, snapshot_eq]
  cases file <;> simp [Function.update]

end Host

/-- The release on disk, and the last one that was deployed successfully. -/
structure Standing (Content : Type) where
  onDisk : Option (Release Content)
  lastGood : Option (Release Content)

namespace Standing

/-- The release that a failed deploy goes back to. -/
def target (standing : Standing Content) : Option (Release Content) := standing.lastGood.or standing.onDisk

def deploy (standing : Standing Content) (deploy : Deploy Content) : Standing Content :=
  match deploy.outcome with
  | .fetchFailed => { standing with onDisk := none }
  | .leftAsIs => { standing with onDisk := some deploy.release }
  | .succeeded => { onDisk := some deploy.release, lastGood := some deploy.release }
  | .restored _ => { standing with onDisk := standing.target.or (some deploy.release) }

/-- The files of a host are those of a standing.  What the last deploy copied aside at its start does not matter. -/
structure Of (standing : Standing Content) (host : Host Content) : Prop where
  compose : host .compose = standing.onDisk.map (·.compose)
  env : host .env = standing.onDisk.bind (·.env)
  lastGoodCompose : host .lastGoodCompose = standing.lastGood.map (·.compose)
  lastGoodEnv : host .lastGoodEnv = standing.lastGood.bind (·.env)

variable {standing : Standing Content} {host : Host Content} {next : Deploy Content}

theorem Of.files (of : standing.Of host) {release : Release Content} (onDisk : standing.onDisk = some release) :
    host.onDisk = release.files := by
  rw [Host.onDisk, Release.files, of.compose, of.env, onDisk]
  rfl

theorem Of.envMatches (of : standing.Of host) {upWorks : Bool} (outcome : next.outcome = .restored upWorks)
    (matches' : EnvMatches host next) :
    (standing.target.bind (·.env)).isSome = true ∨ standing.onDisk.bind (·.env) = none ∧ next.release.env = none := by
  unfold EnvMatches at matches'
  rw [outcome] at matches'
  simp only [of.lastGoodCompose, of.lastGoodEnv, of.env] at matches'
  unfold target
  cases good : standing.lastGood with
  | none =>
      rw [good] at matches'
      exact matches'
  | some release =>
      rw [good] at matches'
      exact matches'

theorem Of.deploy (of : standing.Of host) (matches' : EnvMatches host next) :
    (standing.deploy next).Of (host.deploy next).1 := by
  unfold Standing.deploy Host.deploy
  cases outcome : next.outcome with
  | fetchFailed =>
      simp only [Host.backup_eq, Host.remove]
      exact ⟨by simp [Function.update], by simp [Function.update], of.lastGoodCompose, of.lastGoodEnv⟩
  | leftAsIs =>
      simp only [Host.backup_eq, Host.rewrite_eq]
      exact ⟨rfl, rfl, of.lastGoodCompose, of.lastGoodEnv⟩
  | succeeded =>
      have there : (host.getBackupCurrentDeploymentCommand.rewrite next.release) .compose =
          some next.release.compose := by rw [Host.rewrite_eq]
      simp only
      rw [Host.persist_eq there, Host.rewrite_eq]
      exact ⟨rfl, rfl, rfl, rfl⟩
  | restored upWorks =>
      have condition := of.envMatches outcome matches'
      simp only [Host.backup_eq, Host.rewrite_eq, Host.restore_fst]
      refine ⟨?_, ?_, of.lastGoodCompose, of.lastGoodEnv⟩
      all_goals simp only [of.compose, of.env, of.lastGoodCompose, of.lastGoodEnv]
      · unfold target
        cases standing.lastGood with
        | some release => rfl
        | none => cases standing.onDisk <;> rfl
      · unfold target at condition ⊢
        cases good : standing.lastGood with
        | some release =>
            rw [good] at condition
            cases env : release.env with
            | some content => simp [env]
            | none =>
                rcases condition with impossible | ⟨started, written⟩
                · simp [env] at impossible
                · simp [env, started, written]
        | none =>
            rw [good] at condition
            cases disk : standing.onDisk with
            | none => rfl
            | some release =>
                rw [disk] at condition
                cases env : release.env with
                | some content => simp [env]
                | none =>
                    rcases condition with impossible | ⟨_, written⟩
                    · simp [env] at impossible
                    · simp [env, written]

theorem Of.target_of_marker (of : standing.Of host) (marker : (host.deploy next).2.marker = true) :
    Exists fun release => standing.target = some release ∧ (standing.deploy next).onDisk = some release := by
  unfold Host.deploy at marker
  cases outcome : next.outcome with
  | fetchFailed => simp [outcome, reportOf] at marker
  | leftAsIs => simp [outcome, reportOf] at marker
  | succeeded => simp [outcome, reportOf] at marker
  | restored upWorks =>
      simp only [outcome, reportOf] at marker
      have some := Host.restore_snd marker
      simp only [Host.backup_eq, Host.rewrite_eq, of.compose, of.lastGoodCompose] at some
      unfold Standing.deploy target
      rw [outcome]
      cases good : standing.lastGood with
      | some release => exact ⟨release, rfl, rfl⟩
      | none =>
          cases disk : standing.onDisk with
          | some release => exact ⟨release, rfl, rfl⟩
          | none => simp [good, disk] at some

end Standing

/-- What the reports so far say about a standing. -/
structure Standing.Known (standing : Standing Content) (reports : List (Report Content)) : Prop where
  onDisk : forall release, standing.onDisk = some release -> release ∈ writtenBy reports
  lastGood : standing.lastGood = lastDeployed reports

theorem writtenBy_append (reports : List (Report Content)) (report : Report Content) :
    writtenBy (reports ++ [report]) = writtenBy reports ++ report.written.toList := by
  unfold writtenBy
  rw [List.filterMap_append]
  cases written : report.written <;> simp [written]

theorem lastDeployed_append (reports : List (Report Content)) (report : Report Content) :
    lastDeployed (reports ++ [report]) = if report.succeeded then report.written else lastDeployed reports := by
  unfold lastDeployed
  rw [List.filter_append]
  cases succeeded : report.succeeded <;> simp [succeeded]

variable {reports : List (Report Content)}

theorem lastDeployed_written {release : Release Content}
    (last : lastDeployed reports = some release) : release ∈ writtenBy reports := by
  unfold lastDeployed at last
  rcases Option.bind_eq_some_iff.mp last with ⟨report, isLast, written⟩
  have member := List.mem_filter.mp (List.mem_of_getLast? isLast)
  exact List.mem_filterMap.mpr ⟨report, member.1, written⟩

theorem Standing.Known.target {standing : Standing Content}
    (known : standing.Known reports) {release : Release Content} (target : standing.target = some release) :
    release ∈ writtenBy reports := by
  unfold Standing.target at target
  cases good : standing.lastGood with
  | some last =>
      rw [good] at target
      cases target
      exact lastDeployed_written (known.lastGood.symm.trans good)
  | none =>
      rw [good] at target
      exact known.onDisk release target

theorem Standing.Known.deploy {standing : Standing Content}
    (known : standing.Known reports) (host : Host Content) (deploy : Deploy Content) :
    (standing.deploy deploy).Known (reports ++ [(host.deploy deploy).2]) := by
  unfold Standing.deploy Host.deploy
  cases outcome : deploy.outcome with
  | fetchFailed =>
      refine ⟨(fun release impossible => by cases impossible), ?_⟩
      rw [lastDeployed_append]
      exact known.lastGood
  | leftAsIs =>
      refine ⟨fun release same => ?_, ?_⟩
      · rw [writtenBy_append]
        exact List.mem_append_right _ (by simpa [reportOf] using same.symm)
      · rw [lastDeployed_append]
        exact known.lastGood
  | succeeded =>
      refine ⟨fun release same => ?_, ?_⟩
      · rw [writtenBy_append]
        exact List.mem_append_right _ (by simpa [reportOf] using same.symm)
      · rw [lastDeployed_append]
        rfl
  | restored upWorks =>
      refine ⟨fun release same => ?_, ?_⟩
      · rw [writtenBy_append]
        cases target : standing.target with
        | some old =>
            rw [target] at same
            cases same
            exact List.mem_append_left _ (known.target target)
        | none =>
            rw [target] at same
            exact List.mem_append_right _ (by simpa [reportOf] using same.symm)
      · rw [lastDeployed_append]
        exact known.lastGood

/-- The state of a run under the condition: it stands for whole releases, and every marker so far was printed over
one of them. -/
structure Whole (reports : List (Report Content)) (host : Host Content) : Prop where
  standing : Exists fun standing : Standing Content => standing.Of host ∧ standing.Known reports
  markers : forall earlier report later, reports = earlier ++ report :: later -> report.marker = true ->
    OneRelease earlier report

theorem Whole.deploy {host : Host Content} (whole : Whole reports host)
    {deploy : Deploy Content} (matches' : EnvMatches host deploy) :
    Whole (reports ++ [(host.deploy deploy).2]) (host.deploy deploy).1 := by
  rcases whole.standing with ⟨standing, of, known⟩
  have ofNext := of.deploy matches'
  refine ⟨⟨_, ofNext, known.deploy host deploy⟩, ?_⟩
  intro earlier report later same marker
  rcases List.eq_nil_or_concat later with isLast | ⟨front, last, isLater⟩
  · rw [isLast] at same
    rcases List.append_inj' same rfl with ⟨isEarlier, isReport⟩
    cases isReport
    rw [← isEarlier]
    rcases of.target_of_marker marker with ⟨release, target, onDisk⟩
    have ended : (host.deploy deploy).2.ended = (host.deploy deploy).1.onDisk := by
      unfold Host.deploy
      cases deploy.outcome <;> rfl
    have start : (host.deploy deploy).2.start = host.onDisk := by
      unfold Host.deploy
      cases deploy.outcome <;> rfl
    refine ⟨release, known.target target, ended.trans (ofNext.files onDisk), ?_⟩
    unfold Standing.target at target
    cases good : standing.lastGood with
    | some last =>
        rw [good] at target
        cases target
        exact Or.inl (known.lastGood.symm.trans good)
    | none =>
        rw [good] at target
        exact Or.inr (start.trans (of.files target))
  · rw [isLater, List.concat_eq_append, ← List.cons_append, ← List.append_assoc] at same
    exact whole.markers earlier report front (List.append_inj' same rfl).1 marker

theorem whole_of_run {host : Host Content}
    (run : (transactionalCompose Content).Run EnvMatches reports host) : Whole reports host := by
  induction run with
  | start =>
      refine ⟨⟨{ onDisk := none, lastGood := none }, ⟨rfl, rfl, rfl, rfl⟩,
        ⟨(fun _ impossible => nomatch impossible), rfl⟩⟩, ?_⟩
      intro earlier report later same
      exact absurd same (by simp)
  | next _ allowed stepped ih =>
      cases stepped
      exact ih.deploy allowed

/-- The reports of `envAdded`. -/
def envAddedReports : List (Report Nat) := ((transactionalCompose Nat).outcome (fun _ _ => true) envAdded).2

/-- A release with a `.env`, one that fails and changes it, and one without that fails. -/
def envChanged : List (Deploy Nat) :=
  [{ createEnvFile := true, release := { compose := 1, env := some 10 }, outcome := .succeeded },
    { createEnvFile := true, release := { compose := 2, env := some 20 }, outcome := .restored false },
    { createEnvFile := false, release := { compose := 3, env := none }, outcome := .restored true }]

def envMatches (host : Host Nat) (deploy : Deploy Nat) : Bool :=
  match deploy.outcome with
  | .restored _ => (if (host .lastGoodCompose).isSome then host .lastGoodEnv else host .env).isSome
  | _ => true

theorem envMatches_sound (host : Host Nat) (deploy : Deploy Nat) (tested : envMatches host deploy = true) :
    EnvMatches host deploy := by
  unfold EnvMatches
  cases outcome : deploy.outcome with
  | restored upWorks =>
      simp only [envMatches, outcome] at tested
      exact Or.inl tested
  | fetchFailed => trivial
  | leftAsIs => trivial
  | succeeded => trivial

/-- The reports of `envChanged`. -/
def envChangedReports : List (Report Nat) := ((transactionalCompose Nat).outcome envMatches envChanged).2

end ComposeRollback
end Dokploy
