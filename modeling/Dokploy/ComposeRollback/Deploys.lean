import Mathlib.Logic.Function.Basic
import Dokploy.Foundation.Machine

namespace Dokploy
namespace ComposeRollback

open Foundation

/-!
# Snapshots and restores of a compose service

A deploy of a `docker compose` service copies the files of the release on disk
aside, replaces the checkout, and after a successful docker command copies the
new files aside once more as the last good ones.  When it fails, the compose
file and the `.env` are put back, each from the last good copy or else from the
copy taken at the start.

The host here is one on which every copy of a file that is there succeeds.  A
release always has a compose file; its `.env` is written by Dokploy, comes with
the repository, or is not there.
-/

/-- The files of a service that are copied. -/
inductive ReleaseFile where
  | compose
  | env
  | preDeployCompose
  | preDeployEnv
  | lastGoodCompose
  | lastGoodEnv
deriving DecidableEq

structure Release (Content : Type) where
  compose : Content
  env : Option Content
deriving DecidableEq

/-- What each file holds, none where it is not there. -/
abbrev Host (Content : Type) : Type := ReleaseFile -> Option Content

namespace Host

variable {Content : Type}

/-- `cp`, which fails without a source. -/
def copy (source destination : ReleaseFile) (host : Host Content) : Option (Host Content) :=
  (host source).map fun content => Function.update host destination (some content)

/-- `rm -f` -/
def remove (file : ReleaseFile) (host : Host Content) : Host Content := Function.update host file none

/-- The copy of a file, or no copy where the file is not there. -/
def snapshot (file copied : ReleaseFile) (host : Host Content) : Host Content :=
  (host.copy file copied).getD (host.remove copied)

def getBackupCurrentDeploymentCommand (host : Host Content) : Host Content :=
  (host.snapshot .compose .preDeployCompose).snapshot .env .preDeployEnv

/-- `put first || put second || OK=0` -/
def putBack (first second destination : ReleaseFile) (host : Host Content) : Host Content × Bool :=
  match (host.copy first destination).or (host.copy second destination) with
  | some restored => (restored, true)
  | none => (host, false)

/-- The restore, and whether it prints the rollback marker.  `upWorks` is what the docker command that brings the
restored release up says. -/
def getRestoreCommands (isEnvRequired upWorks : Bool) (host : Host Content) : Host Content × Bool :=
  let compose := host.putBack .lastGoodCompose .preDeployCompose .compose
  let env := compose.1.putBack .lastGoodEnv .preDeployEnv .env
  let envMissing := !env.2 && (isEnvRequired || (env.1 .lastGoodEnv).isSome || (env.1 .preDeployEnv).isSome)
  (env.1, compose.2 && !envMissing && upWorks)

/-- The refresh of the last good copies: both, or neither. -/
def persistLastGood (host : Host Content) : Host Content :=
  match host.copy .compose .lastGoodCompose with
  | some copied => copied.snapshot .env .lastGoodEnv
  | none => (host.remove .lastGoodCompose).remove .lastGoodEnv

def rewrite (release : Release Content) (host : Host Content) : Host Content :=
  Function.update (Function.update host .compose (some release.compose)) .env release.env

/-- The compose file and the `.env` on disk. -/
def onDisk (host : Host Content) : Option Content × Option Content := (host .compose, host .env)

end Host

/-- How a deploy ends.  The fetch may fail on an empty checkout; a step after it may fail and be followed by the
restore, or fail and leave the files as they are; or the release is up. -/
inductive Outcome where
  | fetchFailed
  | restored (upWorks : Bool)
  | leftAsIs
  | succeeded
deriving DecidableEq

structure Deploy (Content : Type) where
  createEnvFile : Bool
  release : Release Content
  outcome : Outcome
deriving DecidableEq

/-- What can be said of a deploy afterwards: the files at its start, the release it has written, whether this is up,
whether the marker was printed, and the files at that moment. -/
structure Report (Content : Type) where
  start : Option Content × Option Content
  written : Option (Release Content)
  succeeded : Bool
  marker : Bool
  ended : Option Content × Option Content
deriving DecidableEq

variable {Content : Type}

/-- The report of a deploy that began on one host and ended on the other. -/
def reportOf (host after : Host Content) (written : Option (Release Content)) (succeeded marker : Bool) :
    Report Content where
  start := host.onDisk
  written := written
  succeeded := succeeded
  marker := marker
  ended := after.onDisk

def Host.deploy (host : Host Content) (deploy : Deploy Content) : Host Content × Report Content :=
  let backedUp := host.getBackupCurrentDeploymentCommand
  let rewritten := backedUp.rewrite deploy.release
  match deploy.outcome with
  | .fetchFailed =>
      let emptied := (backedUp.remove .compose).remove .env
      (emptied, reportOf host emptied none false false)
  | .leftAsIs => (rewritten, reportOf host rewritten (some deploy.release) false false)
  | .succeeded =>
      let kept := rewritten.persistLastGood
      (kept, reportOf host kept (some deploy.release) true false)
  | .restored upWorks =>
      let restored := rewritten.getRestoreCommands deploy.createEnvFile upWorks
      (restored.1, reportOf host restored.1 (some deploy.release) false restored.2)

/-- One service over its deploys.  Nothing is on the host before the first one. -/
def transactionalCompose (Content : Type) : Machine (Host Content) (Deploy Content) (Report Content) where
  initial := fun _ => none
  step := fun host deploy => some ((host.deploy deploy).1, [(host.deploy deploy).2])

/-- The releases that these deploys have written. -/
def writtenBy (reports : List (Report Content)) : List (Release Content) := reports.filterMap (·.written)

/-- The last release that was deployed successfully. -/
def lastDeployed (reports : List (Report Content)) : Option (Release Content) :=
  (reports.filter (·.succeeded)).getLast?.bind (·.written)

def Release.files (release : Release Content) : Option Content × Option Content := (some release.compose, release.env)

/-- The files at the marker are those of one earlier release: of the last one that was deployed successfully, or of
the one on disk when the deploy started. -/
def OneRelease (earlier : List (Report Content)) (report : Report Content) : Prop :=
  Exists fun release => release ∈ writtenBy earlier ∧ report.ended = release.files ∧
    (lastDeployed earlier = some release ∨ report.start = release.files)

/-- The release that a restore would put back has a `.env`, or neither the files on disk nor the new release have
one.  The release to put back is the last good one, else the one on disk. -/
def EnvMatches (host : Host Content) (deploy : Deploy Content) : Prop :=
  match deploy.outcome with
  | .restored _ =>
      (if (host .lastGoodCompose).isSome then host .lastGoodEnv else host .env).isSome = true ∨
        host .env = none ∧ deploy.release.env = none
  | _ => True

/-- A release without a `.env`, then one of a repository that brings a `.env`, whose docker command fails. -/
def envAdded : List (Deploy Nat) :=
  [{ createEnvFile := false, release := { compose := 1, env := none }, outcome := .succeeded },
    { createEnvFile := false, release := { compose := 2, env := some 20 }, outcome := .restored true }]

example : ((transactionalCompose Nat).outcome (fun _ _ => true) envAdded).2.map (·.ended) =
    [(some 1, none), (some 1, some 20)] := by decide

end ComposeRollback
end Dokploy
