import Dokploy.DeployGate.Decision
import Dokploy.GhaRelease.ConnectionState
import Dokploy.GhaRelease.Ordering

namespace Dokploy
namespace GhaRelease

open DeployGate

/-!
# The stored connection and its releases

Every write below is one transaction over the rows of one connection.  The row
of the connection carries its state, what the deploy gate is set to, and what is
deployed; a row of a release says how far the release has come.
-/

inductive ServiceType where
  | application
  | compose
  deriving DecidableEq, Repr

inductive GhaReleaseStatus where
  | accepted
  | deployed
  | failed
  | noop
  | verified
  | superseded
  deriving DecidableEq, Repr

inductive GhaGateState where
  | waiting
  | blocked
  | passed
  | overridden
  deriving DecidableEq, Repr

/-- Who deployed a gated release anyway, when and why. -/
structure GhaGateOverride where
  user : String
  time : Int
  reason : Option String
  deriving DecidableEq, Repr

structure ReleaseImage where
  name : String
  composeService : String
  ref : String
  deriving DecidableEq, Repr

structure GhaConnectionRow where
  ghaConnectionId : String
  organizationId : String
  serviceType : ServiceType
  serviceId : String
  repoId : Nat
  repoFullName : String
  workflowPath : String
  trackedBranch : String
  gateMode : GateMode
  gateWorkflows : List String
  gateTimeoutMinutes : Nat
  gateStartedAt : Option Int
  /-- Raised on every settings change and Deploy anyway. -/
  gateVersion : Nat
  /-- The connection is blocked by the deploy gate and not by something else. -/
  gateBlocked : Bool
  state : ConnectionState
  stateDetail : Option String
  deployedSha : Option String
  deployedRunId : Option Nat
  deployedRunAttempt : Option Nat
  deployedDigests : List String
  lastError : Option String
  deriving DecidableEq, Repr

structure GhaReleaseRow where
  releaseId : String
  manifestReleaseId : String
  sha : String
  runId : Nat
  runAttempt : Nat
  delivery : Delivery
  status : GhaReleaseStatus
  githubDeploymentId : Option Nat
  images : List ReleaseImage
  digests : List String
  gateState : Option GhaGateState
  gateReason : Option String
  gateCheckedAt : Option Int
  gateExpected : Option ExpectedCheckSet
  gateOverride : Option GhaGateOverride
  createdAt : Int
  deriving DecidableEq, Repr

/-- The rows of one connection; none, once the connection is gone. -/
structure Tables where
  connection : Option GhaConnectionRow
  releases : List GhaReleaseRow
  deriving DecidableEq, Repr

def GhaConnectionRow.view (row : GhaConnectionRow) : StateView := ⟨row.state, row.stateDetail⟩

def GhaConnectionRow.foreignBlock (row : GhaConnectionRow) : Bool :=
  decide (row.state = .blocked) && !row.gateBlocked

/-- The note replaces the last error; without one the last error stays. -/
def GhaConnectionRow.applyEvent (row : GhaConnectionRow) (event : ConnectionEvent) (note : Option (Option String)) :
    GhaConnectionRow :=
  let after := reduceConnection row.view event
  { row with state := after.state, stateDetail := after.detail, lastError := note.getD row.lastError }

def applyConnectionEvent (tables : Tables) (event : ConnectionEvent) (note : Option (Option String)) : Tables :=
  { tables with connection := tables.connection.map fun row => row.applyEvent event note }

/-- Lift a block the gate set; one that is there for another reason is left
alone. -/
def GhaConnectionRow.unblockGate (row : GhaConnectionRow) (hasRelease : Bool) : GhaConnectionRow :=
  if !row.gateBlocked then row
  else if row.state ≠ .blocked then { row with gateBlocked := false }
  else
    let after := reduceConnection row.view (.unblock hasRelease)
    { row with state := after.state, stateDetail := after.detail, lastError := none, gateBlocked := false }

/-- Block the connection for the gate, unless something else already blocks it. -/
def GhaConnectionRow.blockGate (row : GhaConnectionRow) (reason : String) : GhaConnectionRow :=
  if row.foreignBlock then row
  else
    let after := reduceConnection row.view (.releaseRefused reason true)
    if after.state ≠ .blocked then row
    else { row with state := after.state, stateDetail := after.detail, lastError := some reason, gateBlocked := true }

inductive GateStart where
  | mark
  | clear
  | keep
  deriving DecidableEq, Repr

inductive GateEffect where
  | block
  | unblock
  | keep
  deriving DecidableEq, Repr

structure GateOutcome where
  gateState : GhaGateState
  gateReason : Option String
  checkedAt : Int
  /-- What was there when the release was read. -/
  previousCheckedAt : Option Int
  /-- The version of the settings when they were read. -/
  gateVersion : Nat
  gateExpected : Option ExpectedCheckSet
  gateStart : GateStart
  connection : GateEffect
  hasRelease : Bool
  deriving DecidableEq, Repr

/-- The outcome may be written to this row: it still waits to go out, was not
overridden, and was not evaluated by someone else since it was read. -/
def GhaReleaseRow.accepts (row : GhaReleaseRow) (releaseId : String) (outcome : GateOutcome) : Bool :=
  decide (row.releaseId = releaseId ∧ row.status = .accepted ∧ row.gateState ≠ some .overridden ∧
    row.gateCheckedAt = outcome.previousCheckedAt)

def GhaReleaseRow.withOutcome (row : GhaReleaseRow) (outcome : GateOutcome) : GhaReleaseRow :=
  { row with
    gateState := some outcome.gateState
    gateReason := outcome.gateReason
    gateCheckedAt := some outcome.checkedAt
    gateExpected := outcome.gateExpected.orElse fun _ => row.gateExpected }

def GhaConnectionRow.withGateStart (row : GhaConnectionRow) (outcome : GateOutcome) : GhaConnectionRow :=
  match outcome.gateStart with
  | .keep => row
  | .mark => { row with gateStartedAt := some outcome.checkedAt }
  | .clear => { row with gateStartedAt := none }

def GhaConnectionRow.withOutcome (row : GhaConnectionRow) (outcome : GateOutcome) : GhaConnectionRow :=
  let started := row.withGateStart outcome
  match outcome.connection with
  | .block => started.blockGate (outcome.gateReason.getD "Blocked by the deploy gate")
  | .unblock => started.unblockGate outcome.hasRelease
  | .keep => started

/-- Write one evaluation and its effects, and say whether it was written. -/
def recordGateOutcome (tables : Tables) (releaseId : String) (outcome : GateOutcome) : Tables × Bool :=
  match tables.connection with
  | none => (tables, false)
  | some owner =>
      if owner.gateVersion ≠ outcome.gateVersion then (tables, false)
      else if !tables.releases.any (·.accepts releaseId outcome) then (tables, false)
      else
        (⟨some (owner.withOutcome outcome),
          tables.releases.map fun row => if row.accepts releaseId outcome then row.withOutcome outcome else row⟩, true)

structure GateSettings where
  gateMode : GateMode
  gateWorkflows : List String
  gateTimeoutMinutes : Nat
  deriving DecidableEq, Repr

structure GateSettingsChange where
  gateMode : Option GateMode
  gateWorkflows : Option (List String)
  gateTimeoutMinutes : Option Nat
  deriving DecidableEq, Repr

/-- Does the change start the gate over for the release that waits? -/
def restartsFull (platform : Platform) (before after : GateSettings) : Bool :=
  after.gateMode != before.gateMode ||
    (after.gateMode == .workflows &&
      "\n".intercalate (after.gateWorkflows.mergeSort platform.before) !=
        "\n".intercalate (before.gateWorkflows.mergeSort platform.before))

/-- Does it give the release its time again? -/
def restartsTimer (platform : Platform) (before after : GateSettings) : Bool :=
  restartsFull platform before after || decide (before.gateTimeoutMinutes < after.gateTimeoutMinutes)

def GhaConnectionRow.settings (row : GhaConnectionRow) : GateSettings :=
  ⟨row.gateMode, row.gateWorkflows, row.gateTimeoutMinutes⟩

def GateSettingsChange.over (change : GateSettingsChange) (before : GateSettings) : GateSettings :=
  ⟨change.gateMode.getD before.gateMode, change.gateWorkflows.getD before.gateWorkflows,
    change.gateTimeoutMinutes.getD before.gateTimeoutMinutes⟩

def GhaConnectionRow.withSettings (row : GhaConnectionRow) (after : GateSettings) : GhaConnectionRow :=
  { row with
    gateMode := after.gateMode
    gateWorkflows := after.gateWorkflows
    gateTimeoutMinutes := after.gateTimeoutMinutes
    gateVersion := row.gateVersion + 1 }

/-- A release that waits and was not told to go anyway. -/
def GhaReleaseRow.restartable (row : GhaReleaseRow) : Bool :=
  decide (row.status = .accepted ∧ row.gateState ≠ some .overridden)

def GhaReleaseRow.restarted (row : GhaReleaseRow) (full : Bool) : GhaReleaseRow :=
  if full then { row with gateState := none, gateReason := none, gateCheckedAt := none, gateExpected := none }
  else { row with gateCheckedAt := none }

def updateGateSettings (platform : Platform) (tables : Tables) (change : GateSettingsChange) : Tables :=
  match tables.connection with
  | none => tables
  | some row =>
      let after := change.over row.settings
      if restartsTimer platform row.settings after then
        ⟨some (({ row with gateStartedAt := none }.withSettings after).unblockGate row.deployedSha.isSome),
          tables.releases.map fun release =>
            if release.restartable then release.restarted (restartsFull platform row.settings after) else release⟩
      else { tables with connection := some (row.withSettings after) }

/-- The newest of the releases that were accepted and are not deployed yet. -/
def newestAccepted (releases : List GhaReleaseRow) : Option GhaReleaseRow :=
  ((releases.filter fun row => row.status == .accepted).mergeSort
    fun row other => decide (other.createdAt ≤ row.createdAt)).head?

inductive OverrideResult where
  | ok (releaseId : String) (sha : String)
  | none
  | conflict (newestReleaseId : String) (newestSha : String)
  deriving DecidableEq, Repr

def GhaReleaseRow.overridden (row : GhaReleaseRow) (override : GhaGateOverride) : GhaReleaseRow :=
  { row with
    gateState := some .overridden
    gateReason := some ("Deployed anyway by " ++ override.user)
    gateCheckedAt := some override.time
    gateOverride := some override }

/-- Deploy anyway: the named release goes without its checks, provided it is
still the newest accepted one. -/
def overrideGate (tables : Tables) (releaseId : String) (override : GhaGateOverride) : Tables × OverrideResult :=
  match newestAccepted tables.releases with
  | none => (tables, .none)
  | some newest =>
      if newest.releaseId ≠ releaseId then (tables, .conflict newest.releaseId newest.sha)
      else
        (⟨tables.connection.map fun row =>
            { row with gateStartedAt := none, gateVersion := row.gateVersion + 1 }.unblockGate row.deployedSha.isSome,
          tables.releases.map fun row => if row.releaseId = newest.releaseId then row.overridden override else row⟩,
          .ok newest.releaseId newest.sha)

end GhaRelease
end Dokploy
