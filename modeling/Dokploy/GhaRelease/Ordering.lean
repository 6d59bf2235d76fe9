import Mathlib.Data.List.Basic

namespace Dokploy
namespace GhaRelease

/-!
# Which release is newer

A release is ordered twice.  When it is accepted it is compared with what runs
by the ancestry of the two commits, and within one commit by run and attempt.
When it is about to be started it is compared by run and attempt alone.
-/

/-- GitHub's compare status of a head relative to a base. -/
inductive CompareStatus where
  | ahead
  | behind
  | identical
  | diverged
  deriving DecidableEq, Repr

structure ReleaseStamp where
  sha : String
  runId : Nat
  attempt : Nat
  /-- Sorted digests of every image of the release. -/
  digests : List String
  deriving DecidableEq, Repr

inductive OrderingCode where
  | notOnBranch
  | behind
  | lowerAttempt
  | olderRun
  deriving DecidableEq, Repr

inductive OrderingDecision where
  | accept (noop : Bool)
  | refuse (code : OrderingCode) (message : String)
  deriving DecidableEq, Repr

structure OrderingInput where
  deployed : Option ReleaseStamp
  candidate : ReleaseStamp
  /-- None, when there is no deployed commit or the commits are equal. -/
  deployedToCandidate : Option CompareStatus
  /-- The candidate commit is an ancestor of the tracked branch head, or it. -/
  reachableFromBranch : Bool
  /-- Only for an explicit rollback. -/
  allowBehind : Bool
  deriving DecidableEq, Repr

def decideSameCommit (deployed candidate : ReleaseStamp) : OrderingDecision :=
  let noop := decide (deployed.digests = candidate.digests)
  if candidate.runId = deployed.runId then
    if deployed.attempt < candidate.attempt then .accept noop
    else if candidate.attempt = deployed.attempt ∧ noop = true then .accept true
    else .refuse .lowerAttempt "A later attempt of this run was already released"
  else if deployed.runId < candidate.runId then .accept noop
  else .refuse .olderRun "A later run of this commit was already released"

/-- May the candidate follow what is deployed?  Two commits without their
compare status are an error. -/
def decideOrdering (input : OrderingInput) : Except String OrderingDecision :=
  if !input.reachableFromBranch then
    .ok (.refuse .notOnBranch "The release commit is not on the tracked branch")
  else
    match input.deployed with
    | none => .ok (.accept false)
    | some deployed =>
        if deployed.sha = input.candidate.sha then .ok (decideSameCommit deployed input.candidate)
        else
          match input.deployedToCandidate with
          | none => .error "decideOrdering needs the compare status for two commits"
          | some .behind | some .identical =>
              if input.allowBehind then .ok (.accept false)
              else .ok (.refuse .behind "The release commit is older than the deployed commit")
          -- Ahead is the normal case; diverged recovers from a force push.
          | some .ahead | some .diverged => .ok (.accept false)

inductive Delivery where
  | pull
  | push
  deriving DecidableEq, Repr

/-- What of an accepted release decides whether and when it is started. -/
structure PendingRelease where
  releaseId : String
  sha : String
  runId : Nat
  runAttempt : Nat
  delivery : Delivery
  githubDeploymentId : Option Nat
  deriving DecidableEq, Repr

/-- Is the release the same run and attempt as another one, or an earlier one? -/
def notNewerThan (release : PendingRelease) (runId attempt : Nat) : Bool :=
  decide (release.runId < runId) || (decide (release.runId = runId) && decide (release.runAttempt ≤ attempt))

/-- The later run, then the later attempt of the same run, first. -/
def newestFirst (release other : PendingRelease) : Bool :=
  decide (other.runId < release.runId ∨ (other.runId = release.runId ∧ other.runAttempt ≤ release.runAttempt))

/-- What a pass over the waiting releases settles before the gate is asked. -/
structure Settling where
  /-- Not newer than what runs now: never deployed over it. -/
  notNewer : List PendingRelease
  /-- The one that goes on to the gate. -/
  newest : Option PendingRelease
  /-- Superseded by it. -/
  older : List PendingRelease
  deriving DecidableEq, Repr

/-- Sort the waiting releases out against what is deployed. -/
def settlePending (deployed : Option ReleaseStamp) (loaded : List PendingRelease) : Settling :=
  let pending := loaded.filter fun release => release.delivery == .pull
  let isOld : PendingRelease -> Bool := fun release =>
    match deployed with
    | none => false
    | some stamp => notNewerThan release stamp.runId stamp.attempt
  let live := (pending.filter fun release => !isOld release).mergeSort newestFirst
  ⟨pending.filter isOld, live.head?, live.tail⟩

theorem notNewerThan_eq_false {release : PendingRelease} {runId attempt : Nat} :
    notNewerThan release runId attempt = false <->
      runId < release.runId ∨ (release.runId = runId ∧ attempt < release.runAttempt) := by
  simp only [notNewerThan, Bool.or_eq_false_iff, Bool.and_eq_false_iff, decide_eq_false_iff_not]
  omega

theorem mem_settlePending_notNewer {stamp : ReleaseStamp} {loaded : List PendingRelease} {release : PendingRelease} :
    release ∈ (settlePending (some stamp) loaded).notNewer <->
      release ∈ loaded ∧ release.delivery = .pull ∧ notNewerThan release stamp.runId stamp.attempt = true := by
  simp only [settlePending, List.mem_filter, beq_iff_eq, and_assoc]

theorem newer_of_sameCommit {deployed candidate : ReleaseStamp}
    (accepted : decideSameCommit deployed candidate = .accept false) :
    deployed.runId < candidate.runId ∨
      (candidate.runId = deployed.runId ∧ deployed.attempt < candidate.attempt) := by
  simp only [decideSameCommit] at accepted
  split at accepted
  · rename_i sameRun
    split at accepted
    · rename_i later
      exact Or.inr ⟨sameRun, later⟩
    · split at accepted <;> cases accepted
  · split at accepted
    · rename_i later
      exact Or.inl later
    · cases accepted

/-- An accepted candidate as it waits to be started. -/
def ReleaseStamp.waiting (candidate : ReleaseStamp) (releaseId : String) (githubDeploymentId : Option Nat) :
    PendingRelease :=
  ⟨releaseId, candidate.sha, candidate.runId, candidate.attempt, .pull, githubDeploymentId⟩

theorem sameCommit_of_decideOrdering {deployed candidate : ReleaseStamp} {compared : Option CompareStatus}
    {reachable allowBehind : Bool} {decision : OrderingDecision} (sameCommit : candidate.sha = deployed.sha)
    (decided : decideOrdering ⟨some deployed, candidate, compared, reachable, allowBehind⟩ = .ok decision)
    (accepts : decision = .accept false) : decideSameCommit deployed candidate = .accept false := by
  simp only [decideOrdering, sameCommit, if_true] at decided
  split at decided
  · cases decided
    cases accepts
  · cases decided
    exact accepts

/-- A candidate was accepted and changes something.  While the same release
still runs and no other one waits, it is kept for the gate exactly when it has
the commit that runs or is a later run or attempt: an accepted candidate of
another commit whose run began earlier is dropped. -/
theorem accepted_kept_iff (deployed candidate : ReleaseStamp) (deployedToCandidate : Option CompareStatus)
    (reachableFromBranch allowBehind : Bool) (releaseId : String) (githubDeploymentId : Option Nat)
    (accepted : decideOrdering ⟨some deployed, candidate, deployedToCandidate, reachableFromBranch, allowBehind⟩ =
      .ok (.accept false)) :
    candidate.waiting releaseId githubDeploymentId ∉
        (settlePending (some deployed) [candidate.waiting releaseId githubDeploymentId]).notNewer <->
      (candidate.sha = deployed.sha ∨ deployed.runId < candidate.runId ∨
        (candidate.runId = deployed.runId ∧ deployed.attempt < candidate.attempt)) := by
  have kept : candidate.waiting releaseId githubDeploymentId ∉
        (settlePending (some deployed) [candidate.waiting releaseId githubDeploymentId]).notNewer <->
      (deployed.runId < candidate.runId ∨
        (candidate.runId = deployed.runId ∧ deployed.attempt < candidate.attempt)) := by
    have later := @notNewerThan_eq_false (candidate.waiting releaseId githubDeploymentId) deployed.runId
      deployed.attempt
    rw [mem_settlePending_notNewer, <- Bool.not_eq_true] at *
    constructor
    · intro notDropped
      exact later.mp fun old => notDropped ⟨List.mem_singleton_self _, rfl, old⟩
    · rintro newer ⟨_, _, old⟩
      exact later.mpr newer old
  rw [kept]
  constructor
  · exact Or.inr
  · rintro (sameCommit | newer)
    · exact newer_of_sameCommit (sameCommit_of_decideOrdering sameCommit accepted rfl)
    · exact newer

/-- What runs was released by run 100 from a commit; a later commit was built by
run 90, which began earlier and ended later. -/
def runningStamp : ReleaseStamp := ⟨"a", 100, 1, ["sha256:1"]⟩

def slowerRun : ReleaseStamp := ⟨"b", 90, 1, ["sha256:2"]⟩

theorem accepted_kept_slowerRun :
    slowerRun.waiting "release" (some 7) ∉
        (settlePending (some runningStamp) [slowerRun.waiting "release" (some 7)]).notNewer <->
      (slowerRun.sha = runningStamp.sha ∨ runningStamp.runId < slowerRun.runId ∨
        (slowerRun.runId = runningStamp.runId ∧ runningStamp.attempt < slowerRun.attempt)) :=
  accepted_kept_iff runningStamp slowerRun (some .ahead) true false "release" (some 7) (by decide)

/-- The release of the later commit is accepted and then dropped. -/
theorem accepted_dropped :
    decideOrdering ⟨some runningStamp, slowerRun, some .ahead, true, false⟩ = .ok (.accept false) ∧
      slowerRun.waiting "release" (some 7) ∈
        (settlePending (some runningStamp) [slowerRun.waiting "release" (some 7)]).notNewer :=
  ⟨by decide, by decide⟩

end GhaRelease
end Dokploy
