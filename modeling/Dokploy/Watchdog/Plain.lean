import Dokploy.Watchdog.Sweep

namespace Dokploy
namespace Watchdog

open Foundation
open Foundation.Program (Asks)

/-!
# The steps that leave the queue and the services alone

Only two operations touch what belongs to a job: freeing its slot and failing
its service.  Everything the sweep does about a running deployment, and
everything `settle` does up to its last step, asks for other operations.
-/

/-- Neither frees a slot nor fails a service. -/
def Plain : WatchdogOp -> Prop
  | .releaseJob _ _ => False
  | .failServiceIfRunning _ _ => False
  | _ => True

/-- Reads or tells something, and neither remembers nor stops anything. -/
def Telling : WatchdogOp -> Prop
  | .releaseJob _ _ | .failServiceIfRunning _ _ | .memory | .memorize _ | .stop _ _ | .listRunning | .turn => False
  | _ => True

theorem plain_of_telling (op : WatchdogOp) (telling : Telling op) : Plain op := by
  cases op <;> first | exact telling | trivial

variable {Result : Type}

/-- The program leaves the queue and the services alone. -/
abbrev IsPlain (program : Watching Result) : Prop := program.Asks Plain

variable {allowed : WatchdogOp -> Prop}

theorem asks_ask (op : WatchdogOp) (asked : allowed op) : (ask op).Asks allowed :=
  Asks.perform asked

theorem plain_ask (op : WatchdogOp) (plain : Plain op) : IsPlain (ask op) := asks_ask op plain

theorem asks_tolerate {body : Watching Unit} (asks : body.Asks allowed) :
    (tolerate body).Asks allowed :=
  asks.attempt.bind fun _ => trivial

theorem asks_inTurn {Item : Type} {step : Item -> Watching Unit}
    (each : forall item, (step item).Asks allowed) (items : List Item) : (inTurn step items).Asks allowed := by
  induction items with
  | nil => trivial
  | cons item items ih => exact (each item).bind fun _ => ih

theorem telling_now : now.Asks Telling := asks_ask (.now .elsewhere) trivial

theorem telling_appendLog (host : Option String) (logPath line : String) : (appendLog host logPath line).Asks Telling :=
  (asks_ask (.appendLog _ _ _) trivial).orThrow

theorem telling_hostOf (row : WatchdogDeployment) : (hostOf row).Asks Telling := by
  refine Asks.bind (asks_ask (.logHost _) trivial).orThrow fun host => ?_
  cases host with
  | none => trivial
  | some known => trivial

theorem telling_audit (row : Option WatchdogDeployment) (context : WatchdogServiceContext) (metadata : AuditMetadata) :
    (audit row context metadata).Asks Telling :=
  (asks_ask (.recordAudit _) trivial).orThrow

theorem telling_announceFailure (stopped : PendingStop) (outcome : WatchdogMarkOutcome) (slotReleased lockKept : Bool) :
    (announceFailure stopped outcome slotReleased lockKept).Asks Telling := by
  refine Asks.bind (telling_appendLog _ _ _) fun _ => ?_
  refine Asks.bind (asks_ask (.loadContext _) trivial).orThrow fun context => ?_
  cases context with
  | none => trivial
  | some context =>
      refine Asks.bind ?_ fun _ => telling_audit _ _ _
      exact Asks.ite (asks_ask (.notify _ _ _ _) trivial).orThrow trivial

theorem telling_finish (stopped : PendingStop) (lockKept : Bool) : (finish stopped none lockKept).Asks Telling := by
  refine Asks.bind (asks_ask (.markFailed _ _ _) trivial).orThrow fun outcome => ?_
  cases outcome with
  | unchanged => trivial
  | flipped => exact telling_announceFailure _ _ _ _
  | alreadyError => exact telling_announceFailure _ _ _ _

theorem telling_confirmTrigger (row : WatchdogDeployment) (trigger : WatchdogTrigger) (config : WatchdogConfig) :
    (confirmTrigger row trigger config).Asks Telling := by
  unfold confirmTrigger
  cases trigger.kind with
  | wall => trivial
  | idle => exact telling_now.bind fun _ => (asks_ask (.readLogIdleMs _) trivial).orThrow.bind fun _ => trivial

theorem telling_noteWarning (host : Option String) (row : WatchdogDeployment) (stop : StopResult) :
    (noteWarning host row stop).Asks Telling := by
  unfold noteWarning
  cases stop.warning with
  | none => trivial
  | some warning => exact Asks.ite trivial (telling_appendLog _ _ _)

theorem telling_recordDroppedLock (jobId : String) (kept : KeptLock) (heldMs : Int) :
    (recordDroppedLock jobId kept heldMs).Asks Telling := by
  unfold recordDroppedLock
  refine Asks.bind ?_ fun _ => (asks_ask (.loadContext _) trivial).orThrow.bind fun context => ?_
  · cases kept.row with
    | none => trivial
    | some row => exact telling_appendLog _ _ _
  · cases context with
    | none => trivial
    | some context => exact telling_audit _ _ _

theorem telling_triggerOf (row : WatchdogDeployment) (time : Int) (config : WatchdogConfig) :
    (triggerOf row time config).Asks Telling := by
  unfold triggerOf
  split
  · trivial
  · exact (asks_ask (.readLogIdleMs _) trivial).orThrow.bind fun _ => trivial

theorem plain_now : IsPlain now := telling_now.mono plain_of_telling

theorem plain_appendLog (host : Option String) (logPath line : String) : IsPlain (appendLog host logPath line) :=
  (telling_appendLog host logPath line).mono plain_of_telling

theorem plain_audit (row : Option WatchdogDeployment) (context : WatchdogServiceContext) (metadata : AuditMetadata) :
    IsPlain (audit row context metadata) :=
  (telling_audit row context metadata).mono plain_of_telling

theorem plain_announceFailure (stopped : PendingStop) (outcome : WatchdogMarkOutcome) (slotReleased lockKept : Bool) :
    IsPlain (announceFailure stopped outcome slotReleased lockKept) :=
  (telling_announceFailure stopped outcome slotReleased lockKept).mono plain_of_telling

theorem plain_finish (stopped : PendingStop) (lockKept : Bool) : IsPlain (finish stopped none lockKept) :=
  (telling_finish stopped lockKept).mono plain_of_telling

theorem plain_safeStop (row : WatchdogDeployment) (launcherOnly : Bool) : IsPlain (safeStop row launcherOnly) := by
  refine Asks.bind (plain_ask (.stop _ _) trivial) fun answer => ?_
  cases answer with
  | error error => trivial
  | ok result => trivial

theorem plain_stopConfirmed (row : WatchdogDeployment) (trigger : WatchdogTrigger) (job : Option InMemoryJob) :
    IsPlain (stopConfirmed row trigger job) := by
  refine Asks.bind ((telling_hostOf row).mono plain_of_telling) fun host => ?_
  refine Asks.bind (plain_appendLog _ _ _) fun _ => ?_
  refine Asks.bind (plain_safeStop _ _) fun stop => ?_
  refine Asks.bind ((telling_noteWarning _ _ _).mono plain_of_telling) fun _ => ?_
  refine Asks.bind plain_now fun stoppedAt => ?_
  exact Asks.ite (plain_finish _ _) (plain_ask (.memorize _) trivial)

theorem plain_stopAndTrack (row : WatchdogDeployment) (trigger : WatchdogTrigger) (config : WatchdogConfig) :
    IsPlain (stopAndTrack row trigger config) := by
  refine Asks.bind (plain_ask (.readStatus _) trivial).orThrow fun status => ?_
  refine Asks.ite trivial ?_
  refine Asks.bind ((telling_confirmTrigger _ _ _).mono plain_of_telling) fun confirmed => ?_
  cases confirmed with
  | none => trivial
  | some confirmed =>
      refine Asks.bind (plain_ask (.activeJobs) trivial).orThrow fun jobs => ?_
      exact Asks.ite trivial (plain_stopConfirmed _ _ _)

theorem plain_trackAgain (stopped : PendingStop) : IsPlain (trackAgain stopped) := plain_ask (.memorize _) trivial

theorem plain_retryStop (stopped : PendingStop) : IsPlain (retryStop stopped) := by
  refine Asks.bind (plain_ask (.readStatus _) trivial).orThrow fun status => ?_
  refine Asks.ite trivial ?_
  refine Asks.bind (plain_safeStop _ _) fun next => ?_
  apply Asks.ite
  · exact (plain_trackAgain _).bind fun _ => trivial
  · exact plain_now.bind fun _ => (plain_trackAgain _).bind fun _ => (plain_appendLog _ _ _).bind fun _ => trivial

theorem plain_dropExpiredLock (entry : String × KeptLock) : IsPlain (dropExpiredLock entry) := by
  refine Asks.bind (plain_ask (.hasKeptGroupLock _) trivial) fun held => ?_
  apply Asks.ite (plain_ask (.memorize _) trivial)
  refine Asks.bind plain_now fun time => ?_
  refine Asks.ite trivial ?_
  refine Asks.bind (plain_ask (.memorize _) trivial) fun _ => ?_
  refine Asks.bind (plain_ask (.dropKeptGroupLock _) trivial) fun dropped => ?_
  exact Asks.ite trivial (asks_tolerate ((telling_recordDroppedLock _ _ _).mono plain_of_telling))

theorem plain_dropExpiredLocks : IsPlain dropExpiredLocks :=
  (plain_ask (.memory) trivial).bind fun _ => asks_inTurn plain_dropExpiredLock _

theorem plain_confirmedTwice (row : WatchdogDeployment) (trigger : WatchdogTrigger) (time : Int) :
    IsPlain (confirmedTwice row trigger time) := by
  unfold confirmedTwice
  cases trigger.kind with
  | wall => trivial
  | idle =>
      refine Asks.bind (plain_ask (.memorize _) trivial) fun _ => ?_
      refine Asks.bind (plain_ask (.memory) trivial) fun memory => ?_
      exact Asks.ite trivial ((plain_ask (.memorize _) trivial).bind fun _ => trivial)

theorem plain_actOn (row : WatchdogDeployment) (trigger : WatchdogTrigger) (time : Int) (config : WatchdogConfig) :
    IsPlain (actOn row trigger time config) := by
  refine Asks.bind (plain_confirmedTwice _ _ _) fun confirmed => ?_
  refine Asks.ite trivial ?_
  exact (plain_ask (.memorize _) trivial).bind fun _ => plain_stopAndTrack _ _ _

theorem plain_checkRow (jobs : List InMemoryJob) (config : WatchdogConfig) (time : Int) (row : WatchdogDeployment) :
    IsPlain (checkRow jobs config time row) := by
  refine Asks.bind (plain_ask (.resolveService _) trivial).orThrow fun service => ?_
  cases service with
  | none => trivial
  | some service =>
      refine Asks.ite trivial ?_
      refine Asks.ite trivial ?_
      refine Asks.bind ((telling_triggerOf _ _ _).mono plain_of_telling) fun trigger => ?_
      cases trigger with
      | none => trivial
      | some trigger => exact plain_actOn _ _ _ _

theorem plain_watchRow (jobs : List InMemoryJob) (config : WatchdogConfig) (time : Int) (row : WatchdogDeployment) :
    IsPlain (watchRow jobs config time row) := by
  refine Asks.bind (plain_ask (.memory) trivial) fun memory => ?_
  exact Asks.ite trivial (asks_tolerate (plain_checkRow _ _ _ _))

theorem plain_watchRunning (jobs : List InMemoryJob) (config : WatchdogConfig) (running : List WatchdogDeployment) :
    IsPlain (watchRunning jobs config running) := by
  refine Asks.bind plain_now fun time => ?_
  refine Asks.bind (plain_ask (.memorize _) trivial) fun _ => ?_
  refine Asks.bind (Asks.unfailing (Asks.allAtOnce trivial ?_)) fun _ => plain_ask (.memorize _) trivial
  intro program member
  rcases List.mem_map.mp member with ⟨row, _, rfl⟩
  exact (plain_watchRow _ _ _ _).settled

end Watchdog
end Dokploy
