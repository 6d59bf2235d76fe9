import Dokploy.Foundation.Together
import Dokploy.Watchdog.Config

namespace Dokploy
namespace Watchdog

open Foundation

/-!
# One sweep of the watchdog

The sweep is a program over the dependencies of the watchdog and over its own
memory.  A dependency that is awaited may fail, and then answers an error.  Two
arguments are marks of this model and no data of the source: a reading of the
clock says whether it decides about a job, and failing a service says for which
job that was decided.
-/

/-- What the watchdog remembers between its sweeps, each map in insertion order, and the deployments that
the sweep under way has found silent. -/
structure Memory where
  pending : List (String × PendingStop)
  keptLocks : List (String × KeptLock)
  suspects : List (String × Int)
  silent : List String
deriving DecidableEq, Repr

/-- `map.set(key, value)` -/
def put {Value : Type} (map : List (String × Value)) (key : String) (value : Value) : List (String × Value) :=
  if key ∈ map.map Prod.fst then map.map fun entry => if entry.1 = key then (key, value) else entry
  else map ++ [(key, value)]

/-- `map.delete(key)` -/
def remove {Value : Type} (map : List (String × Value)) (key : String) : List (String × Value) :=
  map.filter fun entry => entry.1 ≠ key

def has {Value : Type} (map : List (String × Value)) (key : String) : Bool :=
  map.any fun entry => entry.1 == key

/-- What a reading of the clock is for.  One that decides about a job says which readings release its slot. -/
inductive ClockUse where
  | elsewhere
  | decides (jobId : String) (releases : Int -> Bool)

inductive WatchdogOp where
  | now (use : ClockUse)
  | loadConfig
  | activeJobs
  | releaseJob (jobId : String) (keepGroupLock : Bool)
  | hasKeptGroupLock (jobId : String)
  | dropKeptGroupLock (jobId : String)
  | markDeploymentReleased (deploymentId : String)
  | readStatus (deploymentId : String)
  | listRunning
  | latestDeploys (service : ServiceRef)
  | resolveService (row : ServiceRef)
  | readLogIdleMs (row : WatchdogDeployment)
  | logHost (row : WatchdogDeployment)
  | appendLog (host : Option String) (logPath line : String)
  | stop (row : WatchdogDeployment) (launcherOnly : Bool)
  | markFailed (deploymentId message : String) (claimedCancel : Bool)
  | failServiceIfRunning (service : ServiceRef) (decided : String)
  | loadContext (service : ServiceRef)
  | notify (row : WatchdogDeployment) (host : Option String) (context : WatchdogServiceContext) (fallbackMessage : String)
  | recordAudit (input : CancelAudit)
  | memory
  | memorize (change : Memory -> Memory)
  | turn

abbrev Answer : WatchdogOp -> Type
  | .now _ => Int
  | .loadConfig => Except String WatchdogConfig
  | .activeJobs => Except String (List InMemoryJob)
  | .releaseJob _ _ => Bool
  | .hasKeptGroupLock _ => Bool
  | .dropKeptGroupLock _ => Bool
  | .markDeploymentReleased _ => Unit
  | .readStatus _ => Except String (Option String)
  | .listRunning => Except String (List WatchdogDeployment)
  | .latestDeploys _ => Except String (List LatestDeploy)
  | .resolveService _ => Except String (Option (Option String × Option String))
  | .readLogIdleMs _ => Except String (Option Int)
  | .logHost _ => Except String (Option (Option String))
  | .appendLog _ _ _ => Except String Unit
  | .stop _ _ => Except String StopResult
  | .markFailed _ _ _ => Except String WatchdogMarkOutcome
  | .failServiceIfRunning _ _ => Except String Unit
  | .loadContext _ => Except String (Option WatchdogServiceContext)
  | .notify _ _ _ _ => Except String Unit
  | .recordAudit _ => Except String Unit
  | .memory => Memory
  | .memorize _ => Unit
  | .turn => Bool

abbrev Watching (Result : Type) := Program WatchdogOp Answer String Result

structure Limits where
  releaseGraceMs : Int
  wedgedAfterMs : Int

def defaultLimits : Limits := ⟨STOP_RELEASE_GRACE_MS, WEDGED_AFTER_FINISH_MS⟩

def ask (op : WatchdogOp) : Watching (Answer op) := Program.perform op

def now : Watching Int := ask (.now .elsewhere)

def appendLog (host : Option String) (logPath line : String) : Watching Unit :=
  (ask (.appendLog host logPath line)).orThrow

/-- The host of the log; an unknown one falls back to the build server or the server of the row. -/
def hostOf (row : WatchdogDeployment) : Watching (Option String) := do
  let host <- (ask (.logHost row)).orThrow
  match host with
  | some known => pure known
  | none => pure (if truthy row.buildServerId then row.buildServerId else row.serverId)

def auditOf (row : Option WatchdogDeployment) (context : WatchdogServiceContext) (metadata : AuditMetadata) :
    CancelAudit where
  organizationId := context.organizationId
  targetType := if row.isSome then .deployment else .service context.serviceType
  targetId := match row with
    | some row => row.deploymentId
    | none => context.serviceId
  targetName := context.appName
  applicationId := if context.serviceType = .application then some context.serviceId else none
  composeId := if context.serviceType = .compose then some context.serviceId else none
  deploymentId := row.map (·.deploymentId)
  metadata := metadata

def audit (row : Option WatchdogDeployment) (context : WatchdogServiceContext) (metadata : AuditMetadata) :
    Watching Unit :=
  (ask (.recordAudit (auditOf row context metadata))).orThrow

/-- The text without a full stop at its end. -/
def withoutFullStop (text : String) : String :=
  if text.toList.getLast? = some '.' then String.ofList text.toList.dropLast else text

/-- What is written when the slot of the job is to be released: the service first, then the log. -/
def closeSlot (stopped : PendingStop) (lockKept : Bool) (jobId : String) : Watching Unit := do
  let _ <- ask (.failServiceIfRunning stopped.row.service jobId)
  appendLog stopped.host stopped.row.logPath
    (if lockKept then
      "Watchdog: nothing could stop the process, so the queue slot was released for other services; this service stays locked (no new deploy of it starts) until the old process ends or Dokploy restarts"
    else "Watchdog: the deployment did not end after it was stopped; its queue slot was released")

/-- The closing line, the notification and the trail. -/
def announceFailure (stopped : PendingStop) (outcome : WatchdogMarkOutcome) (slotReleased lockKept : Bool) :
    Watching Unit := do
  appendLog stopped.host stopped.row.logPath WATCHDOG_FAILED_LINE
  let context <- (ask (.loadContext stopped.row.service)).orThrow
  match context with
  | none => pure ()
  | some context =>
      let reason := watchdogTriggerLine stopped.trigger
      let flipped := outcome == .flipped
      -- A deploy flow that failed on its own after the stop already told people.
      let told : Watching Unit :=
        if flipped then
          (ask (.notify stopped.row stopped.host context (withoutFullStop reason ++ "; marked failed"))).orThrow
        else pure ()
      told
      audit (some stopped.row) context
        (.failed stopped.trigger.kind reason stopped.trigger.minutes stopped.trigger.observedMinutes
          stopped.stop.method slotReleased lockKept flipped stopped.stop.warning)

/-- Last step: the row, the log, the notification and the trail.  With a job its slot is about to be released. -/
def finish (stopped : PendingStop) (released : Option String) (lockKept : Bool) : Watching Unit := do
  let outcome <- (ask (.markFailed stopped.row.deploymentId
    (withoutFullStop (watchdogTriggerLine stopped.trigger) ++
      ". The deployment was stopped and marked failed by the watchdog.") stopped.stop.claimedCancelled)).orThrow
  match outcome, released with
  | .unchanged, _ => pure ()
  | outcome, none => announceFailure stopped outcome false lockKept
  | outcome, some jobId => do
      closeSlot stopped lockKept jobId
      announceFailure stopped outcome true lockKept

/-- A stop that fails counts as one that found nothing to stop. -/
def safeStop (row : WatchdogDeployment) (launcherOnly : Bool) : Watching StopResult := do
  match <- ask (.stop row launcherOnly) with
  | .ok result => pure result
  | .error error =>
      pure ⟨.none, false, false, some ("Could not stop the work: " ++ error), false⟩

/-- The trigger when it still holds: silence is read again right before anything is touched. -/
def confirmTrigger (row : WatchdogDeployment) (trigger : WatchdogTrigger) (config : WatchdogConfig) :
    Watching (Option WatchdogTrigger) :=
  match trigger.kind with
  | .wall => pure (some trigger)
  | .idle => do
      let time <- now
      let idleMs <- (ask (.readLogIdleMs row)).orThrow
      pure (evaluateWatchdog config (runningMsOf row time) idleMs)

def noteWarning (host : Option String) (row : WatchdogDeployment) (stop : StopResult) : Watching Unit :=
  match stop.warning with
  | some warning => if warning = "" then pure () else appendLog host row.logPath ("Watchdog: " ++ warning)
  | none => pure ()

def stopConfirmed (row : WatchdogDeployment) (trigger : WatchdogTrigger) (job : Option InMemoryJob) :
    Watching Unit := do
  let host <- hostOf row
  appendLog host row.logPath (watchdogTriggerLine trigger)
  -- No job runs it: only the launcher, which checks the process, may be used.
  let stop <- safeStop row job.isNone
  noteWarning host row stop
  let stoppedAt <- now
  let stopped : PendingStop := ⟨row, trigger, stop, host, job.map (·.id), stoppedAt⟩
  if job.isNone || stop.notRunning then
    finish stopped none false
  else
    ask (.memorize fun memory => { memory with pending := put memory.pending row.deploymentId stopped })

def stopAndTrack (row : WatchdogDeployment) (trigger : WatchdogTrigger) (config : WatchdogConfig) :
    Watching Unit := do
  let status <- (ask (.readStatus row.deploymentId)).orThrow
  if status ≠ some "running" then pure ()
  else
    match <- confirmTrigger row trigger config with
    | none => pure ()
    | some confirmed => do
        let jobs <- (ask .activeJobs).orThrow
        let job := findJobOf row jobs
        -- A leftover row of a service whose current job runs another deploy.
        if job.isNone && !(jobsOfService row.service jobs).isEmpty then pure ()
        else stopConfirmed row confirmed job

/-- Free the slot of a job, and remember a service lock that is kept. -/
def releaseSlot (jobId : String) (keepGroupLock : Bool) (row : Option WatchdogDeployment) (service : ServiceRef)
    (host : Option String) (config : WatchdogConfig) : Watching Unit := do
  let released <- ask (.releaseJob jobId keepGroupLock)
  if !released || !keepGroupLock then pure ()
  else do
    let since <- now
    let kept : KeptLock :=
      ⟨row, service, host, since, max (2 * config.maxMinutes) GROUP_LOCK_MIN_BOUND_MINUTES * MINUTE_MS⟩
    ask (.memorize fun memory => { memory with keptLocks := put memory.keptLocks jobId kept })

/-- The tracked stop of a deployment is replaced, if it is still tracked. -/
def trackAgain (stopped : PendingStop) : Watching Unit :=
  ask (.memorize fun memory =>
    if has memory.pending stopped.row.deploymentId then
      { memory with pending := put memory.pending stopped.row.deploymentId stopped }
    else memory)

/-- A stop that found no handle only because of other deploys is tried again. -/
def retryStop (stopped : PendingStop) : Watching PendingStop := do
  let status <- (ask (.readStatus stopped.row.deploymentId)).orThrow
  if status ≠ some "running" then pure stopped
  else do
    let next <- safeStop stopped.row false
    if next.method = .none && !next.notRunning then do
      let same := { stopped with stop := { stopped.stop with retryable := next.retryable } }
      trackAgain same
      pure same
    else do
      let claimed := { next with claimedCancelled := stopped.stop.claimedCancelled || next.claimedCancelled }
      let stoppedAt <- now
      let again := { stopped with stop := claimed, stoppedAt := stoppedAt }
      trackAgain again
      appendLog again.host again.row.logPath
        "Watchdog: the other deploys on the host had ended, so the build was stopped now"
      pure again

/-- Whether a stop is worth another try while its job runs. -/
def retries (stopped : PendingStop) : Bool :=
  stopped.stop.method = .none && stopped.stop.retryable && !stopped.stop.notRunning

/-- The stop after another try, when one is worth it. -/
def retriedStop (stopped : PendingStop) (job : Option InMemoryJob) : Watching PendingStop :=
  if job.isSome && retries stopped then retryStop stopped else pure stopped

/-- The grace period of a stop has passed; without a job there is nothing to wait for. -/
def graceOver (limits : Limits) (stopped : PendingStop) (job : Option InMemoryJob) : Watching Bool :=
  match job with
  | none => pure true
  | some job => do
      let releases : Int -> Bool := fun time => !(time - stopped.stoppedAt < limits.releaseGraceMs)
      let time <- ask (.now (.decides job.id releases))
      pure (releases time)

/-- `finally`: the last program runs however the first one ends, and an error is passed on. -/
def andFinally (body last : Watching Unit) : Watching Unit := do
  let ending <- body.attempt
  last
  match ending with
  | .ok () => pure ()
  | .error error => .thrown error

def settleOver (stopped : PendingStop) (job : Option InMemoryJob) (config : WatchdogConfig) : Watching Unit := do
  ask (.memorize fun memory => { memory with pending := remove memory.pending stopped.row.deploymentId })
  -- Nothing could be signalled: the service stays locked and only the slot is freed.
  let keepGroupLock := stopped.stop.method == .none
  match job with
  | none => finish stopped none false
  | some job => do
      ask (.markDeploymentReleased stopped.row.deploymentId)
      andFinally (finish stopped (some job.id) keepGroupLock)
        (releaseSlot job.id keepGroupLock (some stopped.row) stopped.row.service stopped.host config)

/-- Follow up on a stop issued by an earlier sweep. -/
def settle (limits : Limits) (stopped : PendingStop) (jobs : List InMemoryJob) (config : WatchdogConfig) :
    Watching Unit := do
  let job := jobs.find? fun candidate => some candidate.id == stopped.jobId
  let stopped <- retriedStop stopped job
  let expired <- graceOver limits stopped job
  if expired then settleOver stopped job config else pure ()

/-- The errors of a step are logged and swallowed. -/
def tolerate (body : Watching Unit) : Watching Unit := do
  let _ <- body.attempt
  pure ()

/-- The steps of a list, one after the other. -/
def inTurn {Item : Type} (step : Item -> Watching Unit) : List Item -> Watching Unit
  | [] => pure ()
  | item :: items => do
      step item
      inTurn step items

def recordDroppedLock (jobId : String) (kept : KeptLock) (heldMs : Int) : Watching Unit := do
  let heldMinutes := heldMs.fdiv MINUTE_MS
  let logged : Watching Unit :=
    match kept.row with
    | none => pure ()
    | some row =>
        appendLog kept.host row.logPath
          ("Watchdog: the old process had not ended " ++ toString heldMinutes ++
            " min after its queue slot was released, so the lock on this service was dropped; new deploys of it can start now (the old process may still be running)")
  logged
  let context <- (ask (.loadContext kept.service)).orThrow
  match context with
  | none => pure ()
  | some context => audit kept.row context (.groupLockDropped jobId heldMinutes)

def dropExpiredLock (entry : String × KeptLock) : Watching Unit := do
  let forget : Watching Unit :=
    ask (.memorize fun memory => { memory with keptLocks := remove memory.keptLocks entry.1 })
  let held <- ask (.hasKeptGroupLock entry.1)
  if !held then forget
  else do
    let time <- now
    let heldMs := time - entry.2.since
    if heldMs < entry.2.boundMs then pure ()
    else do
      forget
      let dropped <- ask (.dropKeptGroupLock entry.1)
      if !dropped then pure () else tolerate (recordDroppedLock entry.1 entry.2 heldMs)

/-- Drop service locks that were kept for too long. -/
def dropExpiredLocks : Watching Unit := do
  let memory <- ask .memory
  inTurn dropExpiredLock memory.keptLocks

/-- The deploy the job created, among the newest of its service. -/
def ownDeploy (startedAt : Int) (latest : List LatestDeploy) : Option LatestDeploy :=
  latest.find? fun row => ((row.deployStartedAt.or row.createdAt).getD 0) ≥ startedAt - MINUTE_MS

/-- Whether a job with no running deployment has hung. -/
def isHung (limits : Limits) (config : WatchdogConfig) (jobId : String) (startedAt : Int) (mine : Option LatestDeploy) :
    Watching Bool :=
  match mine with
  | none => do
      let releases : Int -> Bool := fun time => time - startedAt > config.maxMinutes * MINUTE_MS
      let time <- ask (.now (.decides jobId releases))
      pure (releases time)
  | some row =>
      if row.status = some "running" then pure false
      else
        match row.finishedAt with
        | none => pure false
        | some endedAt => do
            let releases : Int -> Bool := fun time => time - endedAt > limits.wedgedAfterMs
            let time <- ask (.now (.decides jobId releases))
            pure (releases time)

def recordHungJob (jobId : String) (service : ServiceRef) (startedAt : Int) (keepGroupLock : Bool) :
    Watching Unit := do
  let _ <- ask (.failServiceIfRunning service jobId)
  let context <- (ask (.loadContext service)).orThrow
  match context with
  | none => pure ()
  | some context => do
      let time <- now
      audit none context (.hungJob jobId ((time - startedAt).fdiv MINUTE_MS) true keepGroupLock)

def releaseHungJob (limits : Limits) (tracked : List (Option String)) (running : List WatchdogDeployment)
    (config : WatchdogConfig) (job : InMemoryJob) : Watching Unit :=
  let service := jobServiceOf job.data
  match job.processedOn with
  | none => pure ()
  | some startedAt =>
      if some job.id ∈ tracked then pure ()
      -- Its deployment is running: the deploy checks own it.
      else if running.any fun row => (findJobOf row [job]).isSome then pure ()
      else if isWatchdogExcluded config.exclusions service.applicationId service.composeId then pure ()
      else do
        let latest <- (ask (.latestDeploys service)).orThrow
        let mine := ownDeploy startedAt latest
        let hung <- isHung limits config job.id startedAt mine
        if !hung then pure ()
        else do
          -- A job with no deployment at all never reached a step that could be stopped.
          let keepGroupLock := mine.isNone
          tolerate (recordHungJob job.id service startedAt keepGroupLock)
          releaseSlot job.id keepGroupLock none service none config

/-- Active jobs with no running deployment that have been hung since. -/
def releaseHungJobs (limits : Limits) (jobs : List InMemoryJob) (running : List WatchdogDeployment)
    (config : WatchdogConfig) : Watching Unit := do
  let memory <- ask .memory
  inTurn (releaseHungJob limits (memory.pending.map fun entry => entry.2.jobId) running config) jobs

/-- The first limit a deployment is past; the log is read only when the wall limit is not. -/
def triggerOf (row : WatchdogDeployment) (time : Int) (config : WatchdogConfig) : Watching (Option WatchdogTrigger) :=
  match evaluateWatchdog config (runningMsOf row time) none with
  | some trigger => pure (some trigger)
  | none => do
      let idleMs <- (ask (.readLogIdleMs row)).orThrow
      pure (evaluateWatchdog config (runningMsOf row time) idleMs)

/-- Whether a trigger is acted on: silence must be seen on two consecutive sweeps. -/
def confirmedTwice (row : WatchdogDeployment) (trigger : WatchdogTrigger) (time : Int) : Watching Bool :=
  match trigger.kind with
  | .wall => pure true
  | .idle => do
      ask (.memorize fun memory => { memory with silent := memory.silent ++ [row.deploymentId] })
      let memory <- ask .memory
      if has memory.suspects row.deploymentId then pure true
      else do
        ask (.memorize fun memory => { memory with suspects := put memory.suspects row.deploymentId time })
        pure false

def actOn (row : WatchdogDeployment) (trigger : WatchdogTrigger) (time : Int) (config : WatchdogConfig) :
    Watching Unit := do
  let confirmed <- confirmedTwice row trigger time
  if !confirmed then pure ()
  else do
    ask (.memorize fun memory => { memory with suspects := remove memory.suspects row.deploymentId })
    stopAndTrack row trigger config

def checkRow (jobs : List InMemoryJob) (config : WatchdogConfig) (time : Int) (row : WatchdogDeployment) :
    Watching Unit := do
  let service <- (ask (.resolveService row.service)).orThrow
  match service with
  | none => pure ()
  | some (applicationId, composeId) =>
      if isWatchdogExcluded config.exclusions applicationId composeId then pure ()
      -- A leftover row of a service whose current job runs another deploy.
      else if (findJobOf row jobs).isNone && !(jobsOfService row.service jobs).isEmpty then pure ()
      else
        match <- triggerOf row time config with
        | none => pure ()
        | some trigger => actOn row trigger time config

/-- One running row; a row whose stop is tracked is left to `settle`. -/
def watchRow (jobs : List InMemoryJob) (config : WatchdogConfig) (time : Int) (row : WatchdogDeployment) :
    Watching Unit := do
  let memory <- ask .memory
  if has memory.pending row.deploymentId then pure ()
  else tolerate (checkRow jobs config time row)

/-- All running rows at once; then the deployments that are no longer silent start over. -/
def watchRunning (jobs : List InMemoryJob) (config : WatchdogConfig) (running : List WatchdogDeployment) :
    Watching Unit := do
  let time <- now
  ask (.memorize fun memory => { memory with silent := [] })
  (Program.allAtOnce .turn id (running.map fun row => (watchRow jobs config time row).settled)).unfailing
  ask (.memorize fun memory =>
    { memory with suspects := memory.suspects.filter fun entry => entry.1 ∈ memory.silent })

/-- The sweep, once it has listed the active jobs. -/
def sweepListed (limits : Limits) (config : WatchdogConfig) (jobs : List InMemoryJob) : Watching Unit := do
  let memory <- ask .memory
  inTurn (fun entry => tolerate (settle limits entry.2 jobs config)) memory.pending
  dropExpiredLocks
  if !config.enabled then pure ()
  else do
    let running <- (ask .listRunning).orThrow
    watchRunning jobs config running
    releaseHungJobs limits jobs running config

def sweepOnce (limits : Limits) : Watching Unit := do
  let config <- (ask .loadConfig).orThrow
  let jobs <- (ask .activeJobs).orThrow
  sweepListed limits config jobs

end Watchdog
end Dokploy
