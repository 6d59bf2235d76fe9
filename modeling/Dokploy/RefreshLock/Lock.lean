import Dokploy.RefreshLock.Flags
import Dokploy.Foundation.KeyedQueue
import Dokploy.Foundation.Machine

namespace Dokploy
namespace RefreshLock

open Foundation

/-!
# The refresh lock of a process

The lock is a map from keys to tails.  A call reads the tail of its key, puts
its own in its place and waits for the one it read, and on its way out takes
its key from the map when nobody came after it.  Any number of calls go on at
the same time, each by its own events, and an output is the number of the call
whose function starts.
-/

structure LockState (Key Value Error : Type) where
  calls : List (LockCall Key Value Error)
  tails : Key -> Option Nat

inductive LockEvent (Key Value Error : Type) where
  | call (key : Key)
  | next (index : Nat) (event : CallEvent Value Error)

namespace LockState

variable {Key Value Error : Type}

/-- `await previous` is over: there was no tail, or its call has released it. -/
def released (state : LockState Key Value Error) (previous : Option Nat) : Bool :=
  previous.all fun index => state.calls[index]?.any LockCall.isSettled

def allows (state : LockState Key Value Error) (call : LockCall Key Value Error) : CallEvent Value Error -> Bool
  | .enter => state.released call.previous
  | _ => true

section

variable [DecidableEq Key]

/-- The map after a step of a call.  Only leaving changes it. -/
def tailsAfter (state : LockState Key Value Error) (index : Nat) (call : LockCall Key Value Error) :
    CallEvent Value Error -> Key -> Option Nat
  | .leave =>
      if state.tails call.key = some index then Function.update state.tails call.key none else state.tails
  | _ => state.tails

def step (advisory : Bool) (timedOut : Error) (state : LockState Key Value Error) :
    LockEvent Key Value Error -> Option (LockState Key Value Error × List Nat)
  | .call key =>
      some ({ calls := state.calls ++ [{ key := key, previous := state.tails key }]
              tails := Function.update state.tails key (some state.calls.length) }, [])
  | .next index event =>
      match state.calls[index]? with
      | none => none
      | some call =>
          if state.allows call event then
            match call.next advisory timedOut event with
            | none => none
            | some after =>
                some ({ calls := state.calls.set index after, tails := state.tailsAfter index call event },
                  if call.fnRuns.length < after.fnRuns.length then [index] else [])
          else none

end

/-- The calls as those who wait in the queue of their key. -/
def ticketOf (call : LockCall Key Value Error) : Ticket Key where
  key := call.key
  previous := call.previous
  entered := !call.isQueued
  left := call.isSettled

def queue (state : LockState Key Value Error) : KeyedQueue Key where
  tickets := state.calls.map ticketOf
  tails := state.tails

end LockState

/-- `advisory` is false for a lock that keeps the in-process layer only, and `timedOut` is the error of the
timer. -/
def createRefreshTokenLock {Key : Type} (Value : Type) {Error : Type} [DecidableEq Key] (advisory : Bool)
    (timedOut : Error) : Machine (LockState Key Value Error) (LockEvent Key Value Error) Nat where
  initial := { calls := [], tails := fun _ => none }
  step := LockState.step advisory timedOut

variable {Key Value Error : Type}

/-- A step by the rules of `CallEvent.Kept`. -/
def LockEvent.Kept (state : LockState Key Value Error) : LockEvent Key Value Error -> Prop
  | .call _ => True
  | .next index event => forall call, state.calls[index]? = some call -> event.Kept call

namespace LockState

section

variable {call after : LockCall Key Value Error} {advisory : Bool} {timedOut : Error} {event : CallEvent Value Error}

theorem ticket_next (step : call.next advisory timedOut event = some after) :
    (event = .enter ∧ call.isQueued = true ∧ ticketOf after = { ticketOf call with entered := true }) ∨
      (event = .leave ∧ call.isQueued = false ∧ ticketOf after = { ticketOf call with left := true }) ∨
      (event ≠ .enter ∧ event ≠ .leave ∧ ticketOf after = ticketOf call) := by
  unfold LockCall.next at step
  split at step
  all_goals split at step
  all_goals cases step
  · rename_i queued
    refine Or.inl ⟨rfl, by simp [LockCall.isQueued, queued], ?_⟩
    unfold LockCall.enter LockCall.runsByItself
    split <;> simp [ticketOf, LockCall.isQueued, LockCall.isSettled, queued]
  · refine Or.inr (Or.inr ⟨by simp, by simp, ?_⟩)
    unfold LockCall.timeout LockCall.raced
    split
    · rfl
    · simp only
      split <;> rfl
  · exact Or.inr (Or.inr ⟨by simp, by simp, rfl⟩)
  · exact Or.inr (Or.inr ⟨by simp, by simp, rfl⟩)
  · exact Or.inr (Or.inr ⟨by simp, by simp, rfl⟩)
  · exact Or.inr (Or.inr ⟨by simp, by simp, rfl⟩)
  · exact Or.inr (Or.inr ⟨by simp, by simp, rfl⟩)
  · refine Or.inr (Or.inr ⟨by simp, by simp, ?_⟩)
    unfold LockCall.fnSettled
    split <;> rfl
  · refine Or.inr (Or.inr ⟨by simp, by simp, ?_⟩)
    unfold LockCall.raced
    simp only
    split <;> rfl
  · refine Or.inr (Or.inr ⟨by simp, by simp, ?_⟩)
    unfold LockCall.raced
    simp only
    split <;> rfl
  · rename_i racing _
    refine Or.inr (Or.inr ⟨by simp, by simp, ?_⟩)
    unfold LockCall.resume LockCall.runsByItself
    repeat' split
    all_goals simp [ticketOf, LockCall.isQueued, LockCall.isSettled, racing]
  · rename_i running
    refine Or.inr (Or.inr ⟨by simp, by simp, ?_⟩)
    simp [ticketOf, LockCall.isQueued, LockCall.isSettled, running]
  · rename_i leaving
    refine Or.inr (Or.inl ⟨rfl, ?_, ?_⟩)
    · simp [LockCall.isQueued, leaving]
    · simp [ticketOf, LockCall.isQueued, LockCall.isSettled, leaving]

end

end LockState
end RefreshLock
end Dokploy
