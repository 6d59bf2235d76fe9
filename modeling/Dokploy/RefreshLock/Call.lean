import Mathlib.Data.List.Basic

namespace Dokploy
namespace RefreshLock

/-!
# One call of the refresh lock

A call waits for the call before it, asks the lock pool for a transaction and
runs its function inside it, under the advisory lock.  When the pool gives no
connection in time, or the transaction fails before the function has started,
the function runs without the advisory lock.

Four flags are shared by the waiting call, its timer and the callback of the
transaction, and each of the three goes on by itself.  `CallEvent` lists what
may happen next to a call; what the database client, the timer and the
function do is decided by nobody here.
-/

/-- The function of a call, in one of the two places where it can be run. -/
inductive FnRun (Value Error : Type) where
  | notStarted
  | running
  | settled (outcome : Except Error Value)
deriving DecidableEq

/-- The callback that is handed to `begin`.  It is absent until `begin` has been called. -/
inductive Callback (Error : Type) where
  | absent
  | waiting
  | setConfig
  | advisoryXactLock
  | inFn
  | returned
  | threw (error : Error)
deriving DecidableEq

inductive Position (Value Error : Type) where
  | previous
  | race
  | fn
  | leaving (outcome : Except Error (Option Value))
  | settled (outcome : Except Error (Option Value))
deriving DecidableEq

/-- `run` is the promise of `begin` and `race` the one the call waits for; neither is there before it settles.
`inCallback` and `byItself` are the two places where the function is run. -/
structure LockCall (Key Value Error : Type) where
  key : Key
  previous : Option Nat
  position : Position Value Error := .previous
  connected : Bool := false
  abandoned : Bool := false
  started : Bool := false
  finished : Bool := false
  result : Option Value := none
  timer : Bool := false
  callback : Callback Error := .absent
  run : Option (Except Error Unit) := none
  race : Option (Except Error Unit) := none
  inCallback : FnRun Value Error := .notStarted
  byItself : FnRun Value Error := .notStarted

inductive CallEvent (Value Error : Type) where
  | enter
  | timeout
  | connect
  | configured
  | locked
  | queryFailed (error : Error)
  | fnSettled (outcome : Except Error Value)
  | committed
  | rejected (error : Error)
  | resume
  | byItselfSettled (outcome : Except Error Value)
  | leave
deriving DecidableEq

namespace LockCall

variable {Key Value Error : Type}

/-- The function is called outside of any transaction. -/
def runsByItself (call : LockCall Key Value Error) : LockCall Key Value Error :=
  { call with position := .fn, byItself := .running }

/-- A promise of the race settles: the first one decides. -/
def raced (call : LockCall Key Value Error) (outcome : Except Error Unit) : LockCall Key Value Error :=
  match call.race with
  | none => { call with race := some outcome }
  | some _ => call

/-- The previous call has left: `advisory(key, fn)` is called, up to its race. -/
def enter (advisory : Bool) (call : LockCall Key Value Error) : LockCall Key Value Error :=
  if advisory then { call with position := .race, timer := true, callback := .waiting } else call.runsByItself

def timeout (timedOut : Error) (call : LockCall Key Value Error) : LockCall Key Value Error :=
  if call.connected then { call with timer := false }
  else { call with timer := false, abandoned := true }.raced (.error timedOut)

def connect (call : LockCall Key Value Error) : LockCall Key Value Error :=
  { call with
    connected := true
    timer := false
    callback := if call.abandoned then .returned else .setConfig }

def locked (call : LockCall Key Value Error) : LockCall Key Value Error :=
  { call with started := true, callback := .inFn, inCallback := .running }

def fnSettled (call : LockCall Key Value Error) : Except Error Value -> LockCall Key Value Error
  | .ok value =>
      { call with
        inCallback := .settled (.ok value)
        result := some value
        finished := true
        callback := .returned }
  | .error error => { call with inCallback := .settled (.error error), callback := .threw error }

/-- The race has settled: the rest of the call up to its end or to its own run of the function. -/
def resume (call : LockCall Key Value Error) (raced : Except Error Unit) : LockCall Key Value Error :=
  match raced with
  | .ok () => { call with timer := false, position := .leaving (.ok call.result) }
  | .error error =>
      if call.finished then { call with timer := false, position := .leaving (.ok call.result) }
      else if call.started then { call with timer := false, position := .leaving (.error error) }
      else { call with timer := false }.runsByItself

/-- What happens next, where it can happen. -/
def next (advisory : Bool) (timedOut : Error) (call : LockCall Key Value Error) :
    CallEvent Value Error -> Option (LockCall Key Value Error)
  | .enter => match call.position with
    | .previous => some (call.enter advisory)
    | _ => none
  | .timeout => if call.timer then some (call.timeout timedOut) else none
  | .connect => match call.callback with
    | .waiting => some call.connect
    | _ => none
  | .configured => match call.callback with
    | .setConfig => some { call with callback := .advisoryXactLock }
    | _ => none
  | .locked => match call.callback with
    | .advisoryXactLock => some call.locked
    | _ => none
  | .queryFailed error => match call.callback with
    | .setConfig | .advisoryXactLock => some { call with callback := .threw error }
    | _ => none
  | .fnSettled outcome => match call.callback with
    | .inFn => some (call.fnSettled outcome)
    | _ => none
  | .committed => match call.callback, call.run with
    | .returned, none => some ({ call with run := some (.ok ()) }.raced (.ok ()))
    | _, _ => none
  | .rejected error => match call.callback, call.run with
    | .absent, _ => none
    | _, none => some ({ call with run := some (.error error) }.raced (.error error))
    | _, some _ => none
  | .resume => match call.position, call.race with
    | .race, some raced => some (call.resume raced)
    | _, _ => none
  | .byItselfSettled outcome => match call.position with
    | .fn => some { call with byItself := .settled outcome, position := .leaving (outcome.map some) }
    | _ => none
  | .leave => match call.position with
    | .leaving outcome => some { call with position := .settled outcome }
    | _ => none

/-- The runs of the function of a call that have started. -/
def fnRuns (call : LockCall Key Value Error) : List (FnRun Value Error) :=
  [call.inCallback, call.byItself].filter fun
    | .notStarted => false
    | _ => true

def isQueued (call : LockCall Key Value Error) : Bool :=
  match call.position with
  | .previous => true
  | _ => false

def isSettled (call : LockCall Key Value Error) : Bool :=
  match call.position with
  | .settled _ => true
  | _ => false

end LockCall
end RefreshLock
end Dokploy
