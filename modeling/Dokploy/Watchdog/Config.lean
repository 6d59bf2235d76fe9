import Dokploy.DeployQueue.Payload

namespace Dokploy
namespace Watchdog

/-!
# Settings and decision rules of the stuck-deployment watchdog

Times are milliseconds.  A stored time that is no date reads as none.
-/

def MINUTE_MS : Int := 60000

/-- How long a stopped job gets to end by itself before its slot is released. -/
def STOP_RELEASE_GRACE_MS : Int := 10 * MINUTE_MS

/-- A job still active this long after its deployment ended is hung. -/
def WEDGED_AFTER_FINISH_MS : Int := 5 * MINUTE_MS

/-- A kept service lock is dropped after at least this long, in minutes. -/
def GROUP_LOCK_MIN_BOUND_MINUTES : Int := 180

inductive ServiceType where
  | application
  | compose
deriving DecidableEq, Repr

/-- WatchdogExclusion, without the reason, which no decision reads. -/
structure WatchdogExclusion where
  type : ServiceType
  id : String
deriving DecidableEq, Repr

structure WatchdogConfig where
  enabled : Bool
  idleMinutes : Int
  maxMinutes : Int
  exclusions : List WatchdogExclusion
deriving DecidableEq, Repr

/-- WatchdogServiceRef: the service, or the preview, that something belongs to. -/
structure ServiceRef where
  applicationId : Option String
  composeId : Option String
  previewDeploymentId : Option String
deriving DecidableEq, Repr

/-- Is the service on the exclusion list? -/
def isWatchdogExcluded (exclusions : List WatchdogExclusion) (applicationId composeId : Option String) : Bool :=
  exclusions.any fun entry =>
    (entry.type == .application && some entry.id == applicationId) ||
      (entry.type == .compose && some entry.id == composeId)

inductive TriggerKind where
  | idle
  | wall
deriving DecidableEq, Repr

structure WatchdogTrigger where
  kind : TriggerKind
  minutes : Int
  observedMinutes : Int
deriving DecidableEq, Repr

/-- Whether a deployment is past a limit; the wall limit comes first. -/
def evaluateWatchdog (config : WatchdogConfig) (runningMs : Int) (idleMs : Option Int) : Option WatchdogTrigger :=
  if runningMs > config.maxMinutes * MINUTE_MS then
    some ⟨.wall, config.maxMinutes, runningMs.fdiv MINUTE_MS⟩
  else
    match idleMs with
    | none => none
    | some idle =>
        if idle > config.idleMinutes * MINUTE_MS then
          some ⟨.idle, config.idleMinutes, idle.fdiv MINUTE_MS⟩
        else none

def WATCHDOG_SETTINGS_LOCATION : String := "Settings > Deployments > Stuck Deployment Watchdog"

/-- The line written to the deployment log when the watchdog steps in. -/
def watchdogTriggerLine (trigger : WatchdogTrigger) : String :=
  match trigger.kind with
  | .idle => "Watchdog: no log output for " ++ toString trigger.minutes ++ " min"
  | .wall =>
      "Deployment watchdog: stopped after " ++ toString trigger.observedMinutes ++
        " min, over the wall limit of " ++ toString trigger.minutes ++ " min (" ++ WATCHDOG_SETTINGS_LOCATION ++
        "). The wall limit applies even while a deploy keeps printing progress; raise it if long builds are expected."

def WATCHDOG_FAILED_LINE : String := "Watchdog: marked failed"

/-- A `deployment` row the watchdog may act on. -/
structure WatchdogDeployment where
  deploymentId : String
  logPath : String
  serverId : Option String
  buildServerId : Option String
  service : ServiceRef
  startedAt : Option Int
  deployStartedAt : Option Int
  createdAt : Option Int
deriving DecidableEq, Repr

structure InMemoryJob where
  id : String
  data : DeployQueue.DeploymentJob
  processedOn : Option Int
deriving DecidableEq, Repr

/-- A newest deploy row of a service, as `latestDeploys` reads it. -/
structure LatestDeploy where
  status : Option String
  createdAt : Option Int
  deployStartedAt : Option Int
  finishedAt : Option Int
deriving DecidableEq, Repr

def jobServiceOf (data : DeployQueue.DeploymentJob) : ServiceRef where
  applicationId := data.applicationId
  composeId := data.composeId
  previewDeploymentId := data.previewDeploymentId

def truthy (id : Option String) : Bool :=
  match id with
  | none => false
  | some text => text != ""

/-- The active jobs of the service, or preview, a deployment belongs to. -/
def jobsOfService (row : ServiceRef) (jobs : List InMemoryJob) : List InMemoryJob :=
  jobs.filter fun job =>
    let service := jobServiceOf job.data
    if truthy row.previewDeploymentId then service.previewDeploymentId == row.previewDeploymentId
    else if truthy service.previewDeploymentId then false
    else if truthy row.composeId then service.composeId == row.composeId
    else if truthy row.applicationId then service.applicationId == row.applicationId
    else false

/-- The active job that runs this deployment, if the queue has one. -/
def findJobOf (row : WatchdogDeployment) (jobs : List InMemoryJob) : Option InMemoryJob :=
  (jobsOfService row.service jobs).find? fun job =>
    match job.processedOn with
    | none => true
    | some processedOn =>
        -- A row registered while GitHub built is matched on its takeover.
        match row.deployStartedAt.or row.createdAt with
        | none => true
        | some createdAt => createdAt ≥ processedOn - MINUTE_MS

/-- When the deploy of this row began on Dokploy. -/
def deployStartOf (row : WatchdogDeployment) : Option Int :=
  (row.deployStartedAt.or row.startedAt).or row.createdAt

/-- How long the deploy has run; a start that is no date counts as now. -/
def runningMsOf (row : WatchdogDeployment) (now : Int) : Int :=
  match deployStartOf row with
  | none => 0
  | some startedAt => now - startedAt

inductive StopMethod where
  | launcher
  | pid
  | generic
  | none
deriving DecidableEq, Repr

structure StopResult where
  method : StopMethod
  notRunning : Bool
  claimedCancelled : Bool
  warning : Option String
  retryable : Bool
deriving DecidableEq, Repr

/-- A stop that was issued and is waiting for its job to end. -/
structure PendingStop where
  row : WatchdogDeployment
  trigger : WatchdogTrigger
  stop : StopResult
  host : Option String
  jobId : Option String
  stoppedAt : Int
deriving DecidableEq, Repr

/-- A released job that still holds its service lock. -/
structure KeptLock where
  row : Option WatchdogDeployment
  service : ServiceRef
  host : Option String
  since : Int
  boundMs : Int
deriving DecidableEq, Repr

inductive WatchdogMarkOutcome where
  | flipped
  | alreadyError
  | unchanged
deriving DecidableEq, Repr

structure WatchdogServiceContext where
  organizationId : String
  appName : String
  serviceType : ServiceType
  serviceId : String
deriving DecidableEq, Repr

/-- What is told about an action of the watchdog. -/
inductive AuditMetadata where
  | failed (reason : TriggerKind) (message : String) (thresholdMinutes observedMinutes : Int) (stop : StopMethod)
      (slotReleased groupLockKept notified : Bool) (warning : Option String)
  | groupLockDropped (jobId : String) (heldMinutes : Int)
  | hungJob (jobId : String) (activeMinutes : Int) (slotReleased groupLockKept : Bool)
deriving DecidableEq, Repr

inductive AuditTarget where
  | deployment
  | service (type : ServiceType)
deriving DecidableEq, Repr

/-- RecordDeploymentCancelAuditInput of the action `watchdog_fail` by the system. -/
structure CancelAudit where
  organizationId : String
  targetType : AuditTarget
  targetId : String
  targetName : String
  applicationId : Option String
  composeId : Option String
  deploymentId : Option String
  metadata : AuditMetadata
deriving DecidableEq, Repr

end Watchdog
end Dokploy
