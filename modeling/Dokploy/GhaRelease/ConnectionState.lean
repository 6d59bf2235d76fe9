import Mathlib.Data.List.Basic

namespace Dokploy
namespace GhaRelease

/-!
# The state of a connection

A connection between a service and the releases of a repository is in one of
eight states.  The poll, the upkeep and the user feed it events; the reducer
says what becomes of the state and of the short reason that is shown with it.
-/

inductive ConnectionState where
  | notConnected
  | proposed
  | detected
  | waiting
  | connected
  | stale
  | blocked
  | disconnected
  deriving DecidableEq, Repr

structure StateView where
  state : ConnectionState
  /-- Short reason shown after the state text. -/
  detail : Option String
  deriving DecidableEq, Repr

inductive ConnectionEvent where
  | proposed
  | proposalClosed
  | workflowDetected
  /-- The user confirmed Connect. -/
  | connect
  | releaseDeployed
  | releaseRefused (message : String) (block : Bool)
  | stale (reason : String)
  | fresh (hasRelease : Bool)
  | tokenRevoked
  | tokenRestored (hasRelease : Bool)
  | unblock (hasRelease : Bool)
  deriving DecidableEq, Repr

/-- The states before the user confirmed Connect. -/
def ConnectionState.isEarly (state : ConnectionState) : Bool :=
  decide (state = .notConnected ∨ state = .proposed ∨ state = .detected)

/-- Where a connection goes back to: it has deployed a release, or waits for one. -/
def resting (hasRelease : Bool) : StateView := ⟨if hasRelease then .connected else .waiting, none⟩

def reduceConnection (current : StateView) : ConnectionEvent -> StateView
  | .proposed => if current.state = .notConnected then ⟨.proposed, none⟩ else current
  | .proposalClosed => if current.state = .proposed then ⟨.notConnected, none⟩ else current
  | .workflowDetected =>
      if current.state = .notConnected ∨ current.state = .proposed then ⟨.detected, none⟩ else current
  | .connect => if current.state.isEarly then ⟨.waiting, none⟩ else current
  | .releaseDeployed =>
      if current.state = .disconnected ∨ current.state.isEarly = true then current else ⟨.connected, none⟩
  | .releaseRefused message block =>
      if !block then current
      else if current.state = .disconnected ∨ current.state.isEarly = true then current
      else ⟨.blocked, some message⟩
  | .stale reason =>
      if current.state = .waiting ∨ current.state = .connected ∨ current.state = .stale then ⟨.stale, some reason⟩
      else current
  | .fresh hasRelease => if current.state = .stale then resting hasRelease else current
  | .tokenRevoked => if current.state = .notConnected then current else ⟨.disconnected, none⟩
  | .tokenRestored hasRelease => if current.state = .disconnected then resting hasRelease else current
  | .unblock hasRelease => if current.state = .blocked then resting hasRelease else current

/-- The events that end a block or put another one in its place. -/
def ConnectionEvent.endsBlock : ConnectionEvent -> Bool
  | .releaseDeployed | .tokenRevoked | .unblock _ => true
  | .releaseRefused _ block => block
  | _ => false

theorem reduceConnection_of_blocked {detail : Option String} {event : ConnectionEvent}
    (keeps : event.endsBlock = false) : reduceConnection ⟨.blocked, detail⟩ event = ⟨.blocked, detail⟩ := by
  cases event with
  | releaseRefused message block =>
      cases block with
      | false => rfl
      | true => cases keeps
  | releaseDeployed => cases keeps
  | tokenRevoked => cases keeps
  | unblock hasRelease => cases keeps
  | proposed => rfl
  | proposalClosed => rfl
  | workflowDetected => rfl
  | connect => rfl
  | stale reason => rfl
  | fresh hasRelease => rfl
  | tokenRestored hasRelease => rfl

end GhaRelease
end Dokploy
