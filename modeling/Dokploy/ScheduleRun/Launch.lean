import Dokploy.ScheduleRun.EndsOnce

namespace Dokploy
namespace ScheduleRun

open Foundation

/-!
# A cancel before the run has a pid

A run of a server or of the Dokploy host looks at its row one last time, marks
itself as launched and hands its command over.  A cancel claims the row, kills
whatever carries the tag of the run and, where it finds nothing, reads how far
the run is and decides.

The row, the launch record and the processes are three states.  The host keeps
the second and the third, and a clock that is read when a decision is made.
-/

def SCHEDULE_LAUNCH_SETTLE_MS : Nat := 10000

def SCHEDULE_STRANDED_MS : Nat := 10 * 60000

inductive ScheduleRunLaunch where
  | checking
  | launched (at_ : Nat)
deriving DecidableEq

inductive NoProcessOutcome where
  | claim
  | retry
  | gone
  | stranded
deriving DecidableEq

/-- `startedAt` is the start of the run where it is a valid date. -/
def decideRunWithoutProcess (launch : Option ScheduleRunLaunch) (startedAt : Option Nat) (now : Nat) : NoProcessOutcome :=
  match launch with
  | some .checking => .retry
  | some (.launched at_) => if now - at_ < SCHEDULE_LAUNCH_SETTLE_MS then .retry else .gone
  | none =>
      match startedAt with
      | some started => if SCHEDULE_STRANDED_MS ≤ now - started then .stranded else .claim
      | none => .claim

inductive ScheduleType where
  | server
  | dokployServer
deriving DecidableEq

/-- The command of the run.  It is seen by a scan for the tag once it is `visible`. -/
inductive Command where
  | notStarted
  | running (since : Nat) (visible : Bool)
  | finished
deriving DecidableEq

def Command.isRunning : Command -> Bool
  | .running _ _ => true
  | _ => false

def Command.isVisible : Command -> Bool
  | .running _ visible => visible
  | _ => false

/-- Where `runCommand` is.  `checking` and `passed` are before and after the answer to the last look at the row. -/
inductive RunPlace where
  | starting
  | connecting
  | checking
  | passed
  | executing
  | ending
  | forgotten
deriving DecidableEq

structure RunHost where
  scheduleType : ScheduleType
  startedAt : Option Nat
  record : RunRecord
  place : RunPlace
  launch : Option ScheduleRunLaunch
  command : Command
  clock : Nat
deriving DecidableEq

/-- Where a call of `killProcess` is.  A call that is over keeps the claim it made. -/
inductive KillCall where
  | reading
  | claiming
  | claimed (claim : String)
  | scanned (claim : String) (clock : Nat)
  | reverting (claim : String) (failed : Bool)
  | endingRun (claim : String)
  | returned (claim : String)
  | stillStarting
  | failed
  | refused
deriving DecidableEq

/-- The first five are steps of a cancel, the others of the run and of the host. -/
inductive HostEvent where
  | read
  | claim (reading : String)
  | scan (answered : Bool)
  | decide
  | settle (reading : String)
  | look
  | check
  | fail
  | handOver
  | exited (outcome : RunOutcome)
  | connectionLost
  | note (reading : String)
  | forget
  | appears
  | exits
  | passes (duration : Nat)
deriving DecidableEq

def RunRecord.hasStatus (record : RunRecord) (status : LiveBuild.DeploymentStatus) : Bool :=
  record.row.any fun kept => kept.status = status

def RunHost.ends (host : RunHost) (call : EndCall) : RunHost :=
  { host with place := .ending, record := { host.record with ending := call.begins } }

/-- `killProcess` of a run that has no pid.  The scan kills what it finds, also where its answer is lost. -/
def killAct (host : RunHost) : KillCall -> HostEvent -> Option (RunHost × KillCall × List RowWrite)
  | .reading, .read => some (host, if host.record.hasStatus .running then .claiming else .refused, [])
  | .claiming, .claim reading =>
      match updateRow host.record (claimScheduleRunCancel · reading) .claimed with
      | (_, []) => some (host, .refused, [])
      | (record, writes) => some ({ host with record := record }, .claimed (toISOString reading), writes)
  | .claimed claim, .scan answered =>
      if host.command.isVisible then
        some ({ host with command := .finished }, if answered then .returned claim else .reverting claim true, [])
      else some (host, if answered then .scanned claim host.clock else .reverting claim true, [])
  | .scanned claim _, .decide =>
      match decideRunWithoutProcess host.launch host.startedAt host.clock with
      | .claim => some (host, .returned claim, [])
      | .retry => some (host, .reverting claim false, [])
      | .gone | .stranded => some (host, .endingRun claim, [])
  | .reverting claim failed, .settle _ =>
      match updateRow host.record (revertScheduleRunCancel · claim) .reverted with
      | (_, []) => some (host, if failed then .failed else .returned claim, [])
      | (record, writes) =>
          some ({ host with record := record }, if failed then .failed else .stillStarting, writes)
  | .endingRun claim, .settle reading =>
      let (record, writes) := updateRow host.record (endScheduleRunCancelled · reading) .noted
      some ({ host with record := record }, .returned claim, writes)
  | _, _ => none

/-- The part of `runCommand` that looks at the row, and the hand-over. -/
def runCommandMove (host : RunHost) : HostEvent -> Option RunHost
  | .look =>
      match host.place, host.scheduleType with
      | .starting, .server =>
          some (if host.record.hasStatus .cancelled then host.ends .cancelledBeforeStart
            else { host with place := .connecting })
      | .checking, _ =>
          some (if host.record.hasStatus .cancelled then host.ends .cancelledBeforeStart
            else { host with place := .passed })
      | _, _ => none
  | .check =>
      match host.place, host.scheduleType with
      | .starting, .dokployServer | .connecting, .server =>
          some { host with place := .checking, launch := some .checking }
      | _, _ => none
  | .fail =>
      match host.place with
      | .starting | .connecting => some (host.ends (.finish .error))
      | _ => none
  | .handOver =>
      match host.place with
      | .passed =>
          some { host with
            place := .executing
            launch := some (.launched host.clock)
            command := .running host.clock false }
      | _ => none
  | .exited outcome =>
      match host.place, host.command with
      | .executing, .finished => some (host.ends (.finish outcome))
      | _, _ => none
  | .connectionLost =>
      match host.place, host.scheduleType with
      | .executing, .server => some (host.ends (.finish .error))
      | _, _ => none
  | .forget =>
      match host.place, host.record.ending.isOpen with
      | .ending, false => some { host with place := .forgotten, launch := none }
      | _, _ => none
  | _ => none

/-- The command and the clock.  A command that was handed over is visible before it had time to settle. -/
def commandMove (host : RunHost) : HostEvent -> Option RunHost
  | .appears =>
      match host.command with
      | .running since _ => some { host with command := .running since true }
      | _ => none
  | .exits =>
      match host.command with
      | .running _ _ => some { host with command := .finished }
      | _ => none
  | .passes duration =>
      match host.command with
      | .running since false =>
          if host.clock + duration < since + SCHEDULE_LAUNCH_SETTLE_MS then
            some { host with clock := host.clock + duration }
          else none
      | _ => some { host with clock := host.clock + duration }
  | _ => none

/-- One step of the call that ends the run. -/
def noteMove (host : RunHost) (reading : String) : Option (RunHost × List RowWrite) :=
  match host.place, host.record.ending with
  | .ending, .marking _ _ =>
      (runMove host.record (.mark reading)).map fun moved => ({ host with record := moved.1 }, moved.2)
  | .ending, _ =>
      (runMove host.record (.update reading)).map fun moved => ({ host with record := moved.1 }, moved.2)
  | _, _ => none

def hostMove (host : RunHost) (event : HostEvent) : Option (RunHost × List RowWrite) :=
  match event with
  | .note reading => noteMove host reading
  | event => ((runCommandMove host event).or (commandMove host event)).map fun after => (after, [])

def hostBehaviour : Actors.Behaviour RunHost KillCall Unit HostEvent RowWrite where
  begins := fun _ => .reading
  act := killAct
  move := hostMove

def startingHost (scheduleType : ScheduleType) (startedAt : Option Nat) (finishedAt : Option String) (clock : Nat) :
    RunHost where
  scheduleType := scheduleType
  startedAt := startedAt
  record := { row := some { status := .running, finishedAt := finishedAt }, ending := .running }
  place := .starting
  launch := none
  command := .notStarted
  clock := clock

/-- One run and any number of cancels of it. -/
def scheduleRun (scheduleType : ScheduleType) (startedAt : Option Nat) (finishedAt : Option String) (clock : Nat) :
    Machine (Actors.System RunHost KillCall) (Actors.Happening Unit HostEvent) (Option Nat × RowWrite) :=
  hostBehaviour.machine (startingHost scheduleType startedAt finishedAt clock)

/-- A cancel that claimed the row and has not answered yet. -/
def KillCall.inFlight : KillCall -> Bool
  | .claimed _ | .scanned _ _ | .reverting _ _ | .endingRun _ => true
  | _ => false

def KillCall.hasReturned : KillCall -> Bool
  | .returned _ => true
  | _ => false

/-- The rule: a launch that has settled when a cancel decides had settled when it scanned, and the connection of a run
is not lost while its command runs. -/
def ScannedSettled (system : Actors.System RunHost KillCall) : Actors.Happening Unit HostEvent -> Prop
  | .acts index .decide => forall claim clock at_, system.actors[index]? = some (.scanned claim clock) ->
      system.row.launch = some (.launched at_) -> at_ + SCHEDULE_LAUNCH_SETTLE_MS ≤ system.row.clock ->
        at_ + SCHEDULE_LAUNCH_SETTLE_MS ≤ clock
  | .moves .connectionLost => system.row.command.isRunning = false
  | _ => True

end ScheduleRun
end Dokploy
