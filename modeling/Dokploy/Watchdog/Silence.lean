import Mathlib.Data.List.Nodup
import Dokploy.Watchdog.Plain

namespace Dokploy
namespace Watchdog

open Foundation
open Foundation.World
open Foundation.Program (Asks)

/-!
# Silence that is seen on two sweeps in a row

The watchdog remembers which deployments the last sweep found silent.  It adds to
this memory in the checks of the single rows, which run at the same time, and takes
away only at the end of these checks.  A sweep that is over before, since the
watchdog is disabled or something could not be read, leaves the memory as it was.

Here everything that the sweep asks may be answered in any way.  Only the memory is
what was remembered, and the rows that are listed have different ids.
-/

abbrev Asked := Sigma Answer

abbrev SweepEvent := Event Memory WatchdogOp Answer

def asked (event : SweepEvent) : Asked := ⟨event.op, event.answer⟩

/-- The memory is the watchdog's own, and a deployment is listed once. -/
def recalls (before : Memory) (op : WatchdogOp) (answer : Answer op) (after : Memory) : Prop :=
  match op, answer with
  | .memory, memory => memory = before ∧ after = before
  | .memorize change, _ => after = change before
  | .listRunning, .ok rows => (rows.map (·.deploymentId)).Nodup ∧ after = before
  | _, _ => after = before

def silenceWorld : World Memory WatchdogOp Answer where
  performs := recalls
  others := fun _ _ => False

def Answered (past : List SweepEvent) (op : WatchdogOp) (answer : Answer op) : Prop :=
  (⟨op, answer⟩ : Asked) ∈ past.map asked

/-- The sweep read the log of the deployment and found it silent for too long. -/
def EvaluatedIdle (sweep : List SweepEvent) (deploymentId : String) : Prop :=
  Exists fun config => Exists fun time => Exists fun row => Exists fun idleMs => Exists fun trigger =>
    Answered sweep .loadConfig (.ok config) ∧ Answered sweep (.now .elsewhere) time ∧
      Answered sweep (.readLogIdleMs row) (.ok idleMs) ∧ row.deploymentId = deploymentId ∧
        evaluateWatchdog config (runningMsOf row time) idleMs = some trigger ∧ trigger.kind = .idle

/-- What gives the trigger that is acted on, and in which order it was read: the wall limit at the time of the sweep, or
the evaluation that was made again. -/
inductive Grounds (previous : List SweepEvent) (config : WatchdogConfig) (time : Int) (row : WatchdogDeployment)
    (trigger : WatchdogTrigger) : List Asked -> Prop
  | wall (idleMs : Option Int) (isWall : trigger.kind = .wall)
      (isTrigger : evaluateWatchdog config (runningMsOf row time) idleMs = some trigger) :
      Grounds previous config time row trigger [⟨.readStatus row.deploymentId, .ok (some "running")⟩]
  | again (later : Int) (idleMs : Option Int)
      (twice : trigger.kind = .idle -> EvaluatedIdle previous row.deploymentId)
      (isTrigger : evaluateWatchdog config (runningMsOf row later) idleMs = some trigger) :
      Grounds previous config time row trigger [⟨.readStatus row.deploymentId, .ok (some "running")⟩,
        ⟨.now .elsewhere, later⟩, ⟨.readLogIdleMs row, .ok idleMs⟩]

/-- The trigger was written to the log on these grounds. -/
def Justified (previous : List SweepEvent) (config : WatchdogConfig) (time : Int) (row : WatchdogDeployment)
    (past : List SweepEvent) : Prop :=
  Exists fun trigger => Exists fun steps => Exists fun host => Grounds previous config time row trigger steps ∧
    (steps ++ [(⟨.appendLog host row.logPath (watchdogTriggerLine trigger), .ok ()⟩ : Asked)]).Sublist (past.map asked)

/-- The stop of the row is tracked, and this is another try of it. -/
def Retried (memory : Memory) (row : WatchdogDeployment) : Prop :=
  Exists fun stopped => (row.deploymentId, stopped) ∈ memory.pending ∧ stopped.row = row

/-- A stop is another try of one that is tracked, or it has its grounds in this sweep and the previous one. -/
def StopJustified (previous past : List SweepEvent) (event : SweepEvent) : Prop :=
  forall row launcherOnly, event.op = .stop row launcherOnly -> Retried event.before row ∨
    Exists fun config => Exists fun time => Answered past .loadConfig (.ok config) ∧
      Answered past (.now .elsewhere) time ∧ Justified previous config time row past

theorem Answered.mono {past more : List SweepEvent} {op : WatchdogOp} {answer : Answer op}
    (answered : Answered past op answer) (inside : past.Sublist more) : Answered more op answer :=
  (inside.map asked).subset answered

theorem EvaluatedIdle.mono {past more : List SweepEvent} {deploymentId : String}
    (evaluated : EvaluatedIdle past deploymentId) (inside : past.Sublist more) : EvaluatedIdle more deploymentId := by
  rcases evaluated with ⟨config, time, row, idleMs, trigger, loaded, read, log, rest⟩
  exact ⟨config, time, row, idleMs, trigger, loaded.mono inside, read.mono inside, log.mono inside, rest⟩

theorem Justified.mono {previous past more : List SweepEvent} {config : WatchdogConfig} {time : Int}
    {row : WatchdogDeployment} (justified : Justified previous config time row past) (inside : past.Sublist more) :
    Justified previous config time row more := by
  rcases justified with ⟨trigger, steps, host, grounds, written⟩
  exact ⟨trigger, steps, host, grounds, written.trans (inside.map asked)⟩

/-- A stop is tracked under the id of its deployment, and once. -/
structure WellTracked (memory : Memory) : Prop where
  keys : forall entry, entry ∈ memory.pending -> entry.1 = entry.2.row.deploymentId
  once : (memory.pending.map Prod.fst).Nodup

/-- What is remembered about the deployment is the same. -/
structure Untouched (deploymentId : String) (before after : Memory) : Prop where
  suspects : has after.suspects deploymentId = has before.suspects deploymentId
  silent : deploymentId ∈ after.silent <-> deploymentId ∈ before.silent

/-- A deployment that is suspected was found silent by the sweep. -/
def Fresh (sweep : List SweepEvent) (memory : Memory) : Prop :=
  forall deploymentId, has memory.suspects deploymentId = true -> EvaluatedIdle sweep deploymentId

theorem Untouched.refl (deploymentId : String) (memory : Memory) : Untouched deploymentId memory memory :=
  ⟨rfl, Iff.rfl⟩

theorem Untouched.trans {deploymentId : String} {first second third : Memory}
    (before : Untouched deploymentId first second) (after : Untouched deploymentId second third) :
    Untouched deploymentId first third :=
  ⟨after.suspects.trans before.suspects, after.silent.trans before.silent⟩

section Maps

variable {Value : Type} {map : List (String × Value)} {key other : String}

theorem has_iff : has map key = true <-> key ∈ map.map Prod.fst := by
  rw [has, List.any_eq_true, List.mem_map]
  constructor
  · rintro ⟨entry, member, same⟩
    exact ⟨entry, member, beq_iff_eq.mp same⟩
  · rintro ⟨entry, member, same⟩
    exact ⟨entry, member, beq_iff_eq.mpr same⟩

theorem keys_put (map : List (String × Value)) (key : String) (value : Value) : (put map key value).map Prod.fst =
    if key ∈ map.map Prod.fst then map.map Prod.fst else map.map Prod.fst ++ [key] := by
  unfold put
  split
  · rw [List.map_map]
    refine List.map_congr_left fun entry _ => ?_
    rw [Function.comp_apply]
    split
    · rename_i here
      exact here.symm
    · rfl
  · rw [List.map_append, List.map_singleton]

theorem has_put_other (value : Value) (different : other ≠ key) : has (put map key value) other = has map other := by
  rw [Bool.eq_iff_iff, has_iff, has_iff, keys_put]
  split
  · rfl
  · rw [List.mem_append, List.mem_singleton]
    exact or_iff_left different

theorem has_remove_other (different : other ≠ key) : has (remove map key) other = has map other := by
  rw [Bool.eq_iff_iff, has, has, List.any_eq_true, List.any_eq_true]
  constructor
  · rintro ⟨entry, member, same⟩
    exact ⟨entry, (List.mem_filter.mp member).1, same⟩
  · rintro ⟨entry, member, same⟩
    refine ⟨entry, List.mem_filter.mpr ⟨member, decide_eq_true fun isKey => ?_⟩, same⟩
    exact different ((beq_iff_eq.mp same).symm.trans isKey)

theorem mem_put_other {value found : Value} (different : other ≠ key) (member : (other, found) ∈ map) :
    (other, found) ∈ put map key value := by
  unfold put
  split
  · refine List.mem_map.mpr ⟨(other, found), member, if_neg different⟩
  · exact List.mem_append_left _ member

theorem mem_put {value : Value} {entry : String × Value} (member : entry ∈ put map key value) :
    entry ∈ map ∨ entry = (key, value) := by
  unfold put at member
  split at member
  · rcases List.mem_map.mp member with ⟨old, isOld, same⟩
    split at same
    · exact Or.inr same.symm
    · exact Or.inl (same ▸ isOld)
  · exact (List.mem_append.mp member).imp_right List.mem_singleton.mp

end Maps

theorem WellTracked.put {memory : Memory} {stopped : PendingStop} (well : WellTracked memory) :
    WellTracked { memory with pending := put memory.pending stopped.row.deploymentId stopped } := by
  constructor
  · intro entry member
    rcases mem_put member with old | isNew
    · exact well.keys entry old
    · rw [isNew]
  · have keys := keys_put memory.pending stopped.row.deploymentId stopped
    change ((Watchdog.put _ _ _).map Prod.fst).Nodup
    rw [keys]
    split
    · exact well.once
    · rename_i new
      refine List.nodup_append.mpr ⟨well.once, List.nodup_singleton _, fun key member other isOther same => new ?_⟩
      rw [← List.mem_singleton.mp isOther, ← same]
      exact member

theorem WellTracked.remove {memory : Memory} {key : String} (well : WellTracked memory) :
    WellTracked { memory with pending := remove memory.pending key } :=
  ⟨fun entry member => well.keys entry (List.mem_filter.mp member).1, well.once.sublist (List.filter_sublist.map _)⟩

/-- Stops and lists nothing, and leaves what is remembered about deployments. -/
def Aside : WatchdogOp -> Prop
  | .stop _ _ => False
  | .listRunning => False
  | .memorize change => forall memory, (change memory).pending = memory.pending ∧
      (change memory).suspects = memory.suspects ∧ (change memory).silent = memory.silent
  | _ => True

theorem aside_of_telling (op : WatchdogOp) (telling : Telling op) : Aside op := by
  cases op <;> first | exact telling.elim | trivial

theorem aside_andFinally {body last : Watching Unit} (first : body.Asks Aside) (second : last.Asks Aside) :
    (andFinally body last).Asks Aside := by
  refine Asks.bind first.attempt fun ending => second.bind fun _ => ?_
  cases ending with
  | ok value => trivial
  | error error => trivial

theorem aside_releaseSlot (jobId : String) (keepGroupLock : Bool) (row : Option WatchdogDeployment)
    (service : ServiceRef) (host : Option String) (config : WatchdogConfig) :
    (releaseSlot jobId keepGroupLock row service host config).Asks Aside := by
  refine Asks.bind (asks_ask (.releaseJob _ _) trivial) fun released => Asks.ite trivial ?_
  refine Asks.bind (telling_now.mono aside_of_telling) fun since => ?_
  exact asks_ask (.memorize _) fun _ => ⟨rfl, rfl, rfl⟩

theorem aside_finish (stopped : PendingStop) (released : Option String) (lockKept : Bool) :
    (finish stopped released lockKept).Asks Aside := by
  have announces : forall outcome slotReleased, (announceFailure stopped outcome slotReleased lockKept).Asks Aside :=
    fun outcome slotReleased => (telling_announceFailure _ _ _ _).mono aside_of_telling
  have closes : forall jobId, (closeSlot stopped lockKept jobId).Asks Aside := fun jobId =>
    (asks_ask (.failServiceIfRunning _ _) trivial).bind fun _ => (telling_appendLog _ _ _).mono aside_of_telling
  refine Asks.bind (asks_ask (.markFailed _ _ _) trivial).orThrow fun outcome => ?_
  cases released with
  | none => cases outcome <;> first | trivial | exact announces _ _
  | some jobId => cases outcome <;> first | trivial | exact (closes jobId).bind fun _ => announces _ _

theorem aside_dropExpiredLocks : dropExpiredLocks.Asks Aside := by
  refine Asks.bind (asks_ask .memory trivial) fun memory => asks_inTurn (fun entry => ?_) _
  have forgets : (ask (.memorize fun memory : Memory =>
      { memory with keptLocks := remove memory.keptLocks entry.1 })).Asks Aside :=
    asks_ask (.memorize _) fun _ => ⟨rfl, rfl, rfl⟩
  refine Asks.bind (asks_ask (.hasKeptGroupLock _) trivial) fun held => Asks.ite forgets ?_
  refine Asks.bind (telling_now.mono aside_of_telling) fun time => Asks.ite trivial ?_
  refine forgets.bind fun _ => Asks.bind (asks_ask (.dropKeptGroupLock _) trivial) fun dropped => Asks.ite trivial ?_
  exact asks_tolerate ((telling_recordDroppedLock _ _ _).mono aside_of_telling)

theorem aside_isHung (limits : Limits) (config : WatchdogConfig) (jobId : String) (startedAt : Int)
    (mine : Option LatestDeploy) : (isHung limits config jobId startedAt mine).Asks Aside := by
  unfold isHung
  split
  · exact (asks_ask (.now _) trivial).bind fun _ => trivial
  · refine Asks.ite trivial ?_
    split
    · trivial
    · exact (asks_ask (.now _) trivial).bind fun _ => trivial

theorem aside_releaseHungJobs (limits : Limits) (jobs : List InMemoryJob) (running : List WatchdogDeployment)
    (config : WatchdogConfig) : (releaseHungJobs limits jobs running config).Asks Aside := by
  refine Asks.bind (asks_ask .memory trivial) fun memory => asks_inTurn (fun job => ?_) _
  unfold releaseHungJob
  dsimp only
  split
  · trivial
  refine Asks.ite trivial (Asks.ite trivial (Asks.ite trivial ?_))
  refine Asks.bind (asks_ask (.latestDeploys _) trivial).orThrow fun latest => ?_
  refine Asks.bind (aside_isHung _ _ _ _ _) fun hung => Asks.ite trivial ?_
  refine Asks.bind (asks_tolerate ?_) fun _ => aside_releaseSlot _ _ _ _ _ _
  refine Asks.bind (asks_ask (.failServiceIfRunning _ _) trivial) fun _ => ?_
  refine Asks.bind (asks_ask (.loadContext _) trivial).orThrow fun context => ?_
  cases context with
  | none => trivial
  | some context =>
      exact (telling_now.mono aside_of_telling).bind fun _ => (telling_audit _ _ _).mono aside_of_telling

theorem recalls_aside {before after : Memory} {op : WatchdogOp} {answer : Answer op} (aside : Aside op)
    (performed : recalls before op answer after) :
    after.pending = before.pending ∧ after.suspects = before.suspects ∧ after.silent = before.silent := by
  cases op with
  | memorize change =>
      cases performed
      exact aside before
  | memory =>
      rcases performed with ⟨_, rfl⟩
      exact ⟨rfl, rfl, rfl⟩
  | listRunning => exact aside.elim
  | _ =>
      cases performed
      exact ⟨rfl, rfl, rfl⟩

theorem not_stop_of_aside {op : WatchdogOp} (aside : Aside op) (row : WatchdogDeployment) (launcherOnly : Bool) :
    op ≠ .stop row launcherOnly := by
  rintro rfl
  exact aside

end Watchdog
end Dokploy
