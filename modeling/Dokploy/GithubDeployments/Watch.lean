import Mathlib.Data.List.Basic

namespace Dokploy
namespace GithubDeployments

/-!
# Watches and their cursor

A watch follows the deployments of one environment of a repository.  Its row
keeps the cursor, the highest deployment that was dealt with, and the deployment
that is on its way.  The cursor is moved by writes that compare it first and only
go forward; saving the watch again can forget it.

Times are milliseconds since the epoch.
-/

inductive ServiceType where
  | application
  | compose
  deriving DecidableEq, Repr

structure WatchRow where
  watchId : String
  organizationId : String
  serviceType : ServiceType
  serviceId : String
  connectionId : String
  owner : String
  repo : String
  environment : String
  enabled : Bool
  /-- The cursor; none before the first poll. -/
  lastSeenDeploymentId : Option Nat
  etag : Option String
  inflightDeploymentId : Option Nat
  inflightStartedAt : Option Int
  postLogUrl : Bool
  /-- Set when a connection of GitHub Actions owns the watch. -/
  ghaConnectionId : Option String
  lastError : Option String
  lastCheckedAt : Option Int
  deriving DecidableEq, Repr

/-- The fields that a write sets; the other ones stay. -/
structure WatchPatch where
  lastSeenDeploymentId : Option Nat := none
  etag : Option (Option String) := none
  inflightDeploymentId : Option (Option Nat) := none
  inflightStartedAt : Option (Option Int) := none
  lastError : Option (Option String) := none
  lastCheckedAt : Option Int := none
  deriving DecidableEq, Repr

def WatchRow.set (row : WatchRow) (patch : WatchPatch) : WatchRow :=
  { row with
    lastSeenDeploymentId := patch.lastSeenDeploymentId.or row.lastSeenDeploymentId
    etag := patch.etag.getD row.etag
    inflightDeploymentId := patch.inflightDeploymentId.getD row.inflightDeploymentId
    inflightStartedAt := patch.inflightStartedAt.getD row.inflightStartedAt
    lastError := patch.lastError.getD row.lastError
    lastCheckedAt := patch.lastCheckedAt.or row.lastCheckedAt }

/-- The cursor is not set yet or below the new one. -/
def forward (cursor lastSeenDeploymentId : Option Nat) : Bool :=
  match lastSeenDeploymentId, cursor with
  | none, _ => true
  | some _, none => true
  | some next, some current => decide (current < next)

/-- Write to a watch.  With `ifCursor` the whole write happens only while the
cursor is that one; without it only the cursor is held back.  Was it written? -/
def patchGithubWatch (stored : Option WatchRow) (patch : WatchPatch) (ifCursor : Option (Option Nat)) :
    Option WatchRow × Bool :=
  match ifCursor with
  | some cursor =>
      if patch = {} then (stored, true)
      else
        match stored with
        | none => (none, false)
        | some row =>
            if row.lastSeenDeploymentId = cursor ∧ forward row.lastSeenDeploymentId patch.lastSeenDeploymentId = true then
              (some (row.set patch), true)
            else (some row, false)
  | none =>
      (stored.map fun row =>
        let rest := row.set { patch with lastSeenDeploymentId := none }
        if forward row.lastSeenDeploymentId patch.lastSeenDeploymentId then
          rest.set { lastSeenDeploymentId := patch.lastSeenDeploymentId }
        else rest, true)

structure WatchInput where
  connectionId : String
  owner : String
  repo : String
  environment : String
  enabled : Bool
  postLogUrl : Option Bool
  deriving DecidableEq, Repr

/-- Another repository, environment or account, or turned on again. -/
def moved (existing : WatchRow) (input : WatchInput) : Bool :=
  decide (existing.owner ≠ input.owner) || decide (existing.repo ≠ input.repo) ||
    decide (existing.environment ≠ input.environment) || decide (existing.connectionId ≠ input.connectionId) ||
    (!existing.enabled && input.enabled)

/-- Save a watch that exists.  One that moved forgets its cursor. -/
def upsertGithubWatch (existing : WatchRow) (input : WatchInput) : WatchRow :=
  let saved := { existing with
    connectionId := input.connectionId
    owner := input.owner
    repo := input.repo
    environment := input.environment
    enabled := input.enabled
    postLogUrl := input.postLogUrl.getD existing.postLogUrl
    lastError := none }
  if moved existing input then
    { saved with lastSeenDeploymentId := none, etag := none, inflightDeploymentId := none, inflightStartedAt := none }
  else saved

def cursorOf (stored : Option WatchRow) : Option Nat := stored.bind WatchRow.lastSeenDeploymentId

@[simp] theorem cursorOf_none : cursorOf none = none := rfl

@[simp] theorem cursorOf_some (row : WatchRow) : cursorOf (some row) = row.lastSeenDeploymentId := rfl

/-- The cursor moved to a later deployment, or was set for the first time. -/
def Moved (before : Option Nat) (next : Nat) : Prop := forall current, before = some current -> current < next

theorem moved_of_forward {cursor : Option Nat} {next : Nat} (allowed : forward cursor (some next) = true) :
    Moved cursor next := by
  rintro current rfl
  exact of_decide_eq_true allowed

theorem cursorOf_patchGithubWatch {stored : Option WatchRow} {patch : WatchPatch} {ifCursor : Option (Option Nat)}
    (named : patch.lastSeenDeploymentId = none) :
    cursorOf (patchGithubWatch stored patch ifCursor).1 = cursorOf stored := by
  cases stored with
  | none =>
      cases ifCursor with
      | none => rfl
      | some cursor =>
          simp only [patchGithubWatch]
          split <;> rfl
  | some row =>
      cases ifCursor with
      | none => simp [patchGithubWatch, WatchRow.set, named, forward]
      | some cursor =>
          simp only [patchGithubWatch]
          split
          · rfl
          · split <;> simp [WatchRow.set, named]

/-- A write that compares the cursor moves it from there to a later deployment,
or does nothing. -/
theorem patchGithubWatch_ifCursor (stored : Option WatchRow) {patch : WatchPatch} (cursor : Option Nat) {next : Nat}
    (named : patch.lastSeenDeploymentId = some next) :
    patchGithubWatch stored patch (some cursor) = (stored, false) ∨
      Exists fun row => stored = some row ∧ row.lastSeenDeploymentId = cursor ∧ Moved cursor next ∧
        patchGithubWatch stored patch (some cursor) = (some (row.set patch), true) ∧
        (row.set patch).lastSeenDeploymentId = some next := by
  have writes : patch ≠ {} := fun empty => by
    rw [empty] at named
    cases named
  cases stored with
  | none =>
      refine Or.inl ?_
      simp only [patchGithubWatch, writes, if_false]
  | some row =>
      by_cases allowed : row.lastSeenDeploymentId = cursor ∧
          forward row.lastSeenDeploymentId patch.lastSeenDeploymentId = true
      · refine Or.inr ⟨row, rfl, allowed.1, ?_, ?_, ?_⟩
        · rw [named, allowed.1] at allowed
          exact moved_of_forward allowed.2
        · simp only [patchGithubWatch, writes, if_false]
          rw [if_pos allowed]
        · simp [WatchRow.set, named]
      · refine Or.inl ?_
        simp only [patchGithubWatch, writes, if_false]
        rw [if_neg allowed]

theorem upsertGithubWatch_cursor (existing : WatchRow) (input : WatchInput) :
    (upsertGithubWatch existing input).lastSeenDeploymentId = existing.lastSeenDeploymentId ∨
      (upsertGithubWatch existing input).lastSeenDeploymentId = none := by
  unfold upsertGithubWatch
  simp only
  split
  · exact Or.inr rfl
  · exact Or.inl rfl

end GithubDeployments
end Dokploy
