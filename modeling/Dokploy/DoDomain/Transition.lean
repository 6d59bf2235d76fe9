import Dokploy.Foundation.Actors

namespace Dokploy
namespace DoDomain

open Foundation

/-!
# Changes of a domain's verification state

Webhooks and the poller describe what they learned as a transition and apply it
to the row of the domain.  Every call has read the row earlier.  Each update is
one statement with guards on the row as it is then, and only an update that
matched has side effects.
-/

inductive DnsVerificationStatus where
  | unverified
  | pending
  | verified
  | failed
deriving DecidableEq

/-- The columns of a domain that a transition reads or writes.  A time is a reading of the clock. -/
structure Domain where
  dnsVerificationStatus : Option DnsVerificationStatus
  dnsVerifiedAt : Option Nat
  dodomainConnectionId : Option String
  dodomainSessionId : Option String
deriving DecidableEq

structure DomainValues where
  dnsVerificationStatus : Option (Option DnsVerificationStatus) := none
  dnsVerifiedAt : Option (Option Nat) := none
  dodomainConnectionId : Option (Option String) := none
  dodomainSessionId : Option (Option String) := none
deriving DecidableEq

def Domain.set (domain : Domain) (values : DomainValues) : Domain where
  dnsVerificationStatus := values.dnsVerificationStatus.getD domain.dnsVerificationStatus
  dnsVerifiedAt := values.dnsVerifiedAt.getD domain.dnsVerifiedAt
  dodomainConnectionId := values.dodomainConnectionId.getD domain.dodomainConnectionId
  dodomainSessionId := values.dodomainSessionId.getD domain.dodomainSessionId

/-- The update of one row: nothing where a guard does not hold. -/
def updateDomainWhere (domain : Domain) (values : DomainValues) (guards : Bool) : Option Domain :=
  if guards then some (domain.set values) else none

inductive DoDomainTransition where
  | verified (connectionId : Option String) (verifiedAt : Option Nat)
  | failed (reason : String) (connectionId : Option String) (dropConnection : Bool)
  | linked (connectionId : String)
  | abandoned (sessionId : String)
deriving DecidableEq

def filled (text : Option String) : Option String := text.filter (· ≠ "")

/-- The transition and `expectedStatus`, where the caller passes one. -/
structure TransitionCall where
  transition : DoDomainTransition
  expectedStatus : Option (Option DnsVerificationStatus)
deriving DecidableEq

def TransitionCall.expected (call : TransitionCall) (row : Domain) : Bool :=
  call.expectedStatus.all fun status => row.dnsVerificationStatus = status

/-- The first update of a transition, with its values and its guard. -/
def firstUpdate (call : TransitionCall) (read : Domain) (now : Nat) : DomainValues × (Domain -> Bool) :=
  match call.transition with
  | .verified connectionId verifiedAt =>
      ({ dnsVerificationStatus := some (some .verified)
         dnsVerifiedAt := some (some (verifiedAt.getD now))
         dodomainConnectionId := (filled connectionId).map some },
        fun row => row.dnsVerificationStatus ≠ some .verified && call.expected row)
  | .failed _ connectionId dropConnection =>
      ({ dnsVerificationStatus := some (some .failed)
         dodomainConnectionId := if dropConnection then some none else (filled connectionId).map some },
        fun row => row.dnsVerificationStatus ≠ some .failed && call.expected row)
  | .linked connectionId =>
      ({ dodomainConnectionId := some (some connectionId) },
        fun row => row.dodomainConnectionId ≠ some connectionId && call.expected row)
  | .abandoned sessionId =>
      ({ dodomainSessionId := some none
         dnsVerificationStatus :=
          if read.dnsVerificationStatus = some .pending then some (some .unverified) else none },
        fun row => row.dodomainSessionId = some sessionId && call.expected row)

/-- What is updated where the status was the target already. -/
def followUp (call : TransitionCall) : Option (DomainValues × (Domain -> Bool)) :=
  match call.transition with
  | .verified connectionId _ =>
      match filled connectionId, call.expectedStatus with
      | some id, none =>
          some ({ dodomainConnectionId := some (some id) }, fun row =>
            row.dnsVerificationStatus = some .verified && row.dodomainConnectionId ≠ some id)
      | _, _ => none
  | .failed _ connectionId dropConnection =>
      if dropConnection then
        some ({ dodomainConnectionId := some none }, fun row =>
          row.dnsVerificationStatus = some .failed &&
            match filled connectionId with
            | some id => row.dodomainConnectionId = some id
            | none => row.dodomainConnectionId.isSome)
      else
        match filled connectionId, call.expectedStatus with
        | some id, none =>
            some ({ dodomainConnectionId := some (some id) }, fun row =>
              row.dnsVerificationStatus = some .failed && row.dodomainConnectionId ≠ some id)
        | _, _ => none
  | .linked _ | .abandoned _ => none

/-- What puts the previous state back, from the row as the call read it. -/
def undoValues (read : Domain) : DomainValues where
  dnsVerificationStatus := some read.dnsVerificationStatus
  dnsVerifiedAt := some read.dnsVerifiedAt
  dodomainConnectionId := some read.dodomainConnectionId

inductive TransitionResult where
  | applied (domain : Domain)
  | unchanged
  | staleSession
deriving DecidableEq

/-- Where a call of `applyDoDomainTransition` is.  `before` is the row that its own update changed. -/
inductive Applying where
  | reading (call : TransitionCall)
  | ready (call : TransitionCall) (read : Domain)
  | following (call : TransitionCall)
  | reapplying (read before updated : Domain)
  | undoing (read before : Domain)
  | notifying (reason : String) (updated : Domain)
  | finished (result : TransitionResult)
  | threw
deriving DecidableEq

/-- `applied` is the end of `applyVerifiedDomain`. -/
inductive ApplyEvent where
  | read
  | update (now : Nat)
  | follow
  | applied (succeeds : Bool)
  | undo
  | notify
deriving DecidableEq

inductive UpdateKind where
  | verified
  | failed
  | linked
  | abandoned
  | followUp
  | undo
deriving DecidableEq

/-- An update that matched `before`, a notification, or an error that is thrown while the row is `row`. -/
inductive DomainWrite where
  | wrote (kind : UpdateKind) (before : Domain) (values : DomainValues)
  | notified (reason : String)
  | threw (row : Domain)
deriving DecidableEq

def DoDomainTransition.kind : DoDomainTransition -> UpdateKind
  | .verified _ _ => .verified
  | .failed _ _ _ => .failed
  | .linked _ => .linked
  | .abandoned _ => .abandoned

/-- Where a call is after its first update has matched. -/
def afterUpdate (call : TransitionCall) (read before updated : Domain) : Applying :=
  match call.transition with
  | .verified _ _ => .reapplying read before updated
  | .failed reason _ _ => .notifying reason updated
  | .linked _ | .abandoned _ => .finished (.applied updated)

/-- Where a call is after its first update has matched no row. -/
def afterMiss (call : TransitionCall) : Applying :=
  match call.transition with
  | .abandoned _ => .finished .staleSession
  | _ => if (followUp call).isSome then .following call else .finished .unchanged

def staleSession (call : TransitionCall) (read : Domain) : Bool :=
  match call.transition with
  | .abandoned sessionId => read.dodomainSessionId ≠ some sessionId
  | _ => false

def applyAct (row : Domain) : Applying -> ApplyEvent -> Option (Domain × Applying × List DomainWrite)
  | .reading call, .read => some (row, .ready call row, [])
  | .ready call read, .update now =>
      if staleSession call read then some (row, .finished .staleSession, [])
      else
        let (values, guard) := firstUpdate call read now
        match updateDomainWhere row values (guard row) with
        | some updated =>
            some (updated, afterUpdate call read row updated, [.wrote call.transition.kind row values])
        | none => some (row, afterMiss call, [])
  | .following call, .follow =>
      match followUp call with
      | some (values, guard) =>
          match updateDomainWhere row values (guard row) with
          | some updated => some (updated, .finished .unchanged, [.wrote .followUp row values])
          | none => some (row, .finished .unchanged, [])
      | none => none
  | .reapplying read before updated, .applied succeeds =>
      some (row, if succeeds then .finished (.applied updated) else .undoing read before, [])
  | .undoing read _, .undo =>
      match updateDomainWhere row (undoValues read) (row.dnsVerificationStatus = some .verified) with
      | some undone => some (undone, .threw, [.wrote .undo row (undoValues read), .threw undone])
      | none => some (row, .threw, [.threw row])
  | .notifying reason updated, .notify => some (row, .finished (.applied updated), [.notified reason])
  | _, _ => none

def applyBehaviour : Actors.Behaviour Domain Applying TransitionCall ApplyEvent DomainWrite where
  begins := .reading
  act := applyAct

/-- Any number of calls on the row of one domain. -/
def domainTransitions (domain : Domain) :
    Machine (Actors.System Domain Applying) (Actors.Happening TransitionCall ApplyEvent)
      (Option Nat × DomainWrite) :=
  applyBehaviour.machine domain

end DoDomain
end Dokploy
