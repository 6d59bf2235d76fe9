import Dokploy.Watchdog.Plain

namespace Dokploy
namespace Watchdog

open Foundation
open Foundation.World

/-!
# Services are failed before the slot is free

The queue goes on while a sweep runs: jobs end and jobs start.  The sweep decides
about the jobs it listed at its beginning, so what it decides is up to date only
as long as these jobs are still there.  A listed job is either still active or was
released by the sweep itself, and that is the invariant of a calm run: in it no
listed job ends by itself, and no reading of the clock decides about a job that
the sweep has already released.
-/

/-- The watchdog and the queue: what is remembered, the active jobs, the jobs the sweep has listed and those
it has released. -/
structure SweepState where
  memory : Memory
  active : List InMemoryJob
  listed : Option (List InMemoryJob)
  released : List String

/-- A sweep begins: nothing is listed yet, and nothing released. -/
def SweepState.begins (memory : Memory) (active : List InMemoryJob) : SweepState where
  memory := memory
  active := active
  listed := none
  released := []

def SweepState.isActive (state : SweepState) (jobId : String) : Prop :=
  jobId ∈ state.active.map (·.id)

def without (jobId : String) (jobs : List InMemoryJob) : List InMemoryJob :=
  jobs.filter fun job => job.id ≠ jobId

/-- What an operation does to the queue and to the memory.  The first listing is the one the sweep decides on. -/
def performs (before : SweepState) (op : WatchdogOp) (answer : Answer op) (after : SweepState) : Prop :=
  match op, answer with
  | .activeJobs, .ok jobs =>
      jobs = before.active ∧ after = { before with listed := before.listed.or (some before.active) }
  | .releaseJob jobId _, released =>
      (released = true <-> before.isActive jobId) ∧
        after = { before with active := without jobId before.active, released := before.released ++ [jobId] }
  | .memory, memory => memory = before.memory ∧ after = before
  | .memorize change, _ => after = { before with memory := change before.memory }
  | _, _ => after = before

/-- A job of the queue ends, or one starts. -/
inductive QueueMoves (before : SweepState) : SweepState -> Prop where
  | ended (jobId : String) : QueueMoves before { before with active := without jobId before.active }
  | started (job : InMemoryJob) : QueueMoves before { before with active := before.active ++ [job] }

def sweepWorld : World SweepState WatchdogOp Answer where
  performs := performs
  others := QueueMoves

/-- No reading of the clock decides about a job that was released. -/
def DecidesOnce (before : SweepState) (op : WatchdogOp) (answer : Answer op) : Prop :=
  match op, answer with
  | .now (.decides jobId releases), time => jobId ∈ before.released -> releases time = false
  | _, _ => True

/-- The job that ended was not one the sweep had listed. -/
inductive CalmMoves (before : SweepState) : SweepState -> Prop where
  | ended (jobId : String)
      (unlisted : forall jobs, before.listed = some jobs -> jobId ∉ jobs.map (·.id)) :
      CalmMoves before { before with active := without jobId before.active }
  | started (job : InMemoryJob) : CalmMoves before { before with active := before.active ++ [job] }

/-- A sweep during which no listed job ends by itself, and that decides about no job twice. -/
def calmWorld : World SweepState WatchdogOp Answer where
  performs := fun before op answer after => performs before op answer after ∧ DecidesOnce before op answer
  others := CalmMoves

/-- A service is failed only while the job that was decided about is active. -/
def FailsOnlyActive (event : Event SweepState WatchdogOp Answer) : Prop :=
  forall service jobId, event.op = .failServiceIfRunning service jobId -> event.before.isActive jobId

/-- Every listed job is active, or was released by this sweep. -/
structure Tracked (jobs : List InMemoryJob) (state : SweepState) : Prop where
  listed : state.listed = some jobs
  present : forall job, job ∈ jobs -> state.isActive job.id ∨ job.id ∈ state.released

theorem isActive_without {state : SweepState} {jobId other : String} (active : state.isActive jobId)
    (different : jobId ≠ other) : jobId ∈ (without other state.active).map (·.id) := by
  rcases List.mem_map.mp active with ⟨job, member, rfl⟩
  exact List.mem_map_of_mem (List.mem_filter.mpr ⟨member, decide_eq_true different⟩)

variable {jobs : List InMemoryJob}

theorem Tracked.moves {before after : SweepState} (tracked : Tracked jobs before) (moves : CalmMoves before after) :
    Tracked jobs after := by
  cases moves with
  | started job =>
      refine ⟨tracked.listed, fun listedJob member => (tracked.present listedJob member).imp_left fun active => ?_⟩
      rw [SweepState.isActive, List.map_append]
      exact List.mem_append_left _ active
  | ended jobId unlisted =>
      refine ⟨tracked.listed, fun listedJob member => (tracked.present listedJob member).imp_left fun active => ?_⟩
      apply isActive_without active
      intro same
      exact unlisted jobs tracked.listed (same ▸ List.mem_map_of_mem member)

/-- A job that is decided about and still active. -/
structure Holding (jobs : List InMemoryJob) (job : InMemoryJob) (state : SweepState) : Prop where
  tracked : Tracked jobs state
  member : job ∈ jobs
  active : state.isActive job.id

variable {job : InMemoryJob}

theorem Holding.moves {before after : SweepState} (holding : Holding jobs job before)
    (moves : CalmMoves before after) : Holding jobs job after := by
  refine ⟨holding.tracked.moves moves, holding.member, ?_⟩
  cases moves with
  | started other =>
      rw [SweepState.isActive, List.map_append]
      exact List.mem_append_left _ holding.active
  | ended jobId unlisted =>
      apply isActive_without holding.active
      intro same
      exact unlisted jobs holding.tracked.listed (same ▸ List.mem_map_of_mem holding.member)

theorem kept_of_plain {before after : SweepState} {op : WatchdogOp} {answer : Answer op} (plain : Plain op)
    (performed : performs before op answer after) (listed : before.listed = some jobs) :
    after.active = before.active ∧ after.released = before.released ∧ after.listed = some jobs := by
  cases op with
  | releaseJob jobId keep => exact absurd plain id
  | failServiceIfRunning service jobId => exact absurd plain id
  | activeJobs =>
      cases answer with
      | error error => cases performed; exact ⟨rfl, rfl, listed⟩
      | ok found =>
          rcases performed with ⟨_, rfl⟩
          refine ⟨rfl, rfl, ?_⟩
          change before.listed.or _ = _
          rw [listed]
          rfl
  | memory =>
      rcases performed with ⟨_, rfl⟩
      exact ⟨rfl, rfl, listed⟩
  | memorize change => cases performed; exact ⟨rfl, rfl, listed⟩
  | now | loadConfig | hasKeptGroupLock | dropKeptGroupLock | markDeploymentReleased | readStatus | listRunning
  | latestDeploys | resolveService | readLogIdleMs | logHost | appendLog | stop | markFailed | loadContext | notify
  | recordAudit | turn => cases performed; exact ⟨rfl, rfl, listed⟩

theorem Tracked.plain {before after : SweepState} {op : WatchdogOp} {answer : Answer op} (tracked : Tracked jobs before)
    (plain : Plain op) (performed : performs before op answer after) : Tracked jobs after := by
  rcases kept_of_plain plain performed tracked.listed with ⟨active, released, listed⟩
  refine ⟨listed, fun job member => ?_⟩
  rw [SweepState.isActive, active, released]
  exact tracked.present job member

theorem Holding.plain {before after : SweepState} {op : WatchdogOp} {answer : Answer op}
    (holding : Holding jobs job before) (plain : Plain op) (performed : performs before op answer after) :
    Holding jobs job after := by
  refine ⟨holding.tracked.plain plain performed, holding.member, ?_⟩
  rw [SweepState.isActive, (kept_of_plain plain performed holding.tracked.listed).1]
  exact holding.active

theorem failsOnlyActive_of_plain {event : Event SweepState WatchdogOp Answer} (plain : Plain event.op) :
    FailsOnlyActive event := by
  intro service jobId same
  rw [same] at plain
  exact absurd plain id

/-- From here on services are failed for active jobs only. -/
abbrev Ensured {Result : Type} (program : Watching Result)
    (post : Post SweepState WatchdogOp Answer String Result)
    (past : List (Event SweepState WatchdogOp Answer)) (state : SweepState) : Prop :=
  calmWorld.Ensures (fun _ event => FailsOnlyActive event) program post past state

variable {Result Other : Type} {past : List (Event SweepState WatchdogOp Answer)} {state : SweepState}

variable {program : Watching Result}

theorem ensured_plain {holds : SweepState -> Prop} (plain : IsPlain program)
    (moves : forall before after, holds before -> CalmMoves before after -> holds after)
    (keeps : forall before op (answer : Answer op) after, holds before -> Plain op ->
      performs before op answer after -> holds after)
    (initially : holds state) : Ensured program (fun _ _ last => holds last) past state := by
  apply Ensures.of_asks plain initially
  · exact fun _ before after held moved => moves before after held moved
  · intro _ before op answer after allowed held performed
    exact ⟨failsOnlyActive_of_plain allowed, keeps before op answer after held allowed performed.1⟩

theorem ensured_tracked (plain : IsPlain program) (tracked : Tracked jobs state) :
    Ensured program (fun _ _ last => Tracked jobs last) past state :=
  ensured_plain plain (fun _ _ held moved => held.moves moved)
    (fun _ _ _ _ held allowed performed => held.plain allowed performed) tracked

theorem ensured_holding (plain : IsPlain program)
    (holding : Holding jobs job state) : Ensured program (fun _ _ last => Holding jobs job last) past state :=
  ensured_plain plain (fun _ _ held moved => held.moves moved)
    (fun _ _ _ _ held allowed performed => held.plain allowed performed) holding

/-- The program keeps the invariant, whatever it did before and however it ends. -/
def Keeps (jobs : List InMemoryJob) (program : Watching Result) : Prop :=
  forall past state, Tracked jobs state -> Ensured program (fun _ _ last => Tracked jobs last) past state

theorem keeps_plain (plain : IsPlain program) : Keeps jobs program :=
  fun _ _ tracked => ensured_tracked plain tracked

theorem Keeps.bind {next : Result -> Watching Other} (keeps : Keeps jobs program)
    (after : forall result, Keeps jobs (next result)) : Keeps jobs (program >>= next) := by
  intro past state tracked
  apply Ensures.bind
  apply (keeps past state tracked).mono
  intro result last reached held
  cases result with
  | error error => exact held
  | ok value => exact after value last reached held

theorem Keeps.attempt (keeps : Keeps jobs program) : Keeps jobs program.attempt :=
  fun past state tracked => Ensures.attempt (keeps past state tracked)

theorem Keeps.tolerate {body : Watching Unit} (keeps : Keeps jobs body) : Keeps jobs (tolerate body) :=
  keeps.attempt.bind fun _ => keeps_plain trivial

theorem keeps_inTurn {Item : Type} {step : Item -> Watching Unit} {items : List Item}
    (each : forall item, item ∈ items -> Keeps jobs (step item)) : Keeps jobs (inTurn step items) := by
  induction items with
  | nil => exact keeps_plain trivial
  | cons item items ih =>
      apply (each item List.mem_cons_self).bind
      exact fun _ => ih fun other member => each other (List.mem_cons_of_mem _ member)

theorem keeps_releaseSlot (jobId : String) (keepGroupLock : Bool) (row : Option WatchdogDeployment)
    (service : ServiceRef) (host : Option String) (config : WatchdogConfig) :
    Keeps jobs (releaseSlot jobId keepGroupLock row service host config) := by
  have release : Keeps jobs (ask (.releaseJob jobId keepGroupLock)) := by
    intro past state tracked
    apply Ensures.perform
    intro before meanwhile answer after performed
    have reached : Tracked jobs before := Meanwhile.keeps meanwhile tracked fun _ _ held moved => held.moves moved
    rcases performed with ⟨⟨_, rfl⟩, _⟩
    refine ⟨fun _ _ other => (by cases other), reached.listed, fun job member => ?_⟩
    rcases reached.present job member with active | released
    · by_cases same : job.id = jobId
      · exact Or.inr (List.mem_append_right _ (List.mem_singleton.mpr same))
      · exact Or.inl (isActive_without active same)
    · exact Or.inr (List.mem_append_left _ released)
  apply release.bind
  intro released
  refine keeps_plain (Program.Asks.ite trivial (plain_now.bind fun _ => ?_))
  exact plain_ask (.memorize _) trivial

theorem ensured_fail (service : ServiceRef) {next : Answer (.failServiceIfRunning service job.id) -> Watching Unit}
    (plain : forall answer, IsPlain (next answer)) (holding : Holding jobs job state) :
    Ensured (ask (.failServiceIfRunning service job.id) >>= next) (fun _ _ last => Tracked jobs last) past state := by
  intro before meanwhile answer after performed
  have reached : Holding jobs job before := Meanwhile.keeps meanwhile holding fun _ _ held moved => held.moves moved
  cases performed.1
  refine ⟨?_, ensured_tracked (plain answer) reached.tracked⟩
  intro _ _ same
  cases same
  exact reached.active

theorem ensured_finish (stopped : PendingStop) (lockKept : Bool) (holding : Holding jobs job state) :
    Ensured (finish stopped (some job.id) lockKept) (fun _ _ last => Tracked jobs last) past state := by
  apply Ensures.bind
  apply (ensured_holding (plain_ask (.markFailed _ _ _) trivial).orThrow holding).mono
  intro result last reached held
  cases result with
  | error error => exact held.tracked
  | ok outcome =>
      have fails : forall outcome, Ensured (closeSlot stopped lockKept job.id >>= fun _ =>
          announceFailure stopped outcome true lockKept) (fun _ _ last => Tracked jobs last) last reached := by
        intro outcome
        refine ensured_fail stopped.row.service (fun _ => ?_) held
        exact (plain_appendLog _ _ _).bind fun _ => plain_announceFailure _ _ _ _
      cases outcome with
      | unchanged => exact held.tracked
      | flipped => exact fails .flipped
      | alreadyError => exact fails .alreadyError

theorem ensured_graceOver (limits : Limits) (stopped : PendingStop) (job : Option InMemoryJob)
    (member : forall found, job = some found -> found ∈ jobs) (tracked : Tracked jobs state) :
    Ensured (graceOver limits stopped job)
      (fun result _ last => Tracked jobs last ∧
        forall found, result = .ok true -> job = some found -> Holding jobs found last) past state := by
  cases job with
  | none => exact ⟨tracked, fun found _ none => by cases none⟩
  | some found =>
      intro before meanwhile answer after performed
      have reached : Tracked jobs before := Meanwhile.keeps meanwhile tracked fun _ _ held moved => held.moves moved
      rcases performed with ⟨performed, once⟩
      cases performed
      refine ⟨failsOnlyActive_of_plain trivial, reached, ?_⟩
      rintro other expired same
      cases same
      refine ⟨reached, member found rfl, ?_⟩
      rcases reached.present found (member found rfl) with active | released
      · exact active
      · have decided := once released
        have expires : _ = true := Except.ok.inj expired
        exact absurd (expires.symm.trans decided) (by decide)

theorem ensured_settleOver (stopped : PendingStop) (job : Option InMemoryJob) (config : WatchdogConfig)
    (tracked : Tracked jobs state) (held : forall found, job = some found -> Holding jobs found state) :
    Ensured (settleOver stopped job config) (fun _ _ last => Tracked jobs last) past state := by
  cases job with
  | none =>
      refine ensured_tracked ?_ tracked
      exact (plain_ask (.memorize _) trivial).bind fun _ => plain_finish _ _
  | some job =>
      apply Ensures.bind
      apply (ensured_holding (plain_ask (.memorize _) trivial) (held job rfl)).mono
      intro result last reached holding
      cases result with
      | error error => exact holding.tracked
      | ok _ =>
          apply Ensures.bind
          apply (ensured_holding (plain_ask (.markDeploymentReleased _) trivial) holding).mono
          intro result last reached holding
          cases result with
          | error error => exact holding.tracked
          | ok _ =>
              apply Ensures.bind
              apply Ensures.attempt
              apply (ensured_finish stopped _ holding).mono
              intro result last reached tracked
              refine (keeps_releaseSlot job.id _ _ _ _ config).bind (fun _ => ?_) last reached tracked
              cases result with
              | error error => exact keeps_plain trivial
              | ok _ => exact keeps_plain trivial

theorem keeps_settle (limits : Limits) (stopped : PendingStop) (config : WatchdogConfig) :
    Keeps jobs (settle limits stopped jobs config) := by
  have retried : forall job, IsPlain (retriedStop stopped job) :=
    fun job => Program.Asks.ite (plain_retryStop stopped) trivial
  apply (keeps_plain (retried _)).bind
  intro stopped past state tracked
  apply Ensures.bind
  apply (ensured_graceOver limits stopped _ (fun found same => List.mem_of_find?_eq_some same) tracked).mono
  rintro result last reached ⟨held, holding⟩
  cases result with
  | error error => exact held
  | ok expired =>
      cases expired with
      | false => exact held
      | true => exact ensured_settleOver stopped _ config held fun found same => holding found rfl same

theorem ensured_isHung (limits : Limits) (config : WatchdogConfig) (startedAt : Int)
    (mine : Option LatestDeploy) (member : job ∈ jobs) (tracked : Tracked jobs state) :
    Ensured (isHung limits config job.id startedAt mine)
      (fun result _ last => Tracked jobs last ∧ (result = .ok true -> Holding jobs job last)) past state := by
  have decides : forall releases : Int -> Bool,
      Ensured (ask (.now (.decides job.id releases)) >>= fun time : Int => pure (releases time))
        (fun result _ last => Tracked jobs last ∧ (result = .ok true -> Holding jobs job last)) past state := by
    intro releases before meanwhile answer after performed
    have reached : Tracked jobs before := Meanwhile.keeps meanwhile tracked fun _ _ held moved => held.moves moved
    rcases performed with ⟨performed, once⟩
    cases performed
    refine ⟨failsOnlyActive_of_plain trivial, reached, fun expired => ⟨reached, member, ?_⟩⟩
    rcases reached.present job member with active | released
    · exact active
    · have expires : releases answer = true := Except.ok.inj expired
      exact absurd (expires.symm.trans (once released)) (by decide)
  cases mine with
  | none => exact decides _
  | some row =>
      unfold isHung
      dsimp only
      split
      · exact ⟨tracked, fun expired => by cases expired⟩
      · cases row.finishedAt with
        | none => exact ⟨tracked, fun expired => by cases expired⟩
        | some endedAt => exact decides _

theorem ensured_recordHungJob (service : ServiceRef) (startedAt : Int) (keepGroupLock : Bool)
    (holding : Holding jobs job state) :
    Ensured (recordHungJob job.id service startedAt keepGroupLock) (fun _ _ last => Tracked jobs last) past state := by
  refine ensured_fail service (fun _ => ?_) holding
  refine (plain_ask (.loadContext _) trivial).orThrow.bind fun context => ?_
  cases context with
  | none => trivial
  | some context => exact plain_now.bind fun _ => plain_audit _ _ _

theorem keeps_releaseHungJob (limits : Limits) (tracked : List (Option String)) (running : List WatchdogDeployment)
    (config : WatchdogConfig) (member : job ∈ jobs) :
    Keeps jobs (releaseHungJob limits tracked running config job) := by
  unfold releaseHungJob
  dsimp only
  split
  · exact keeps_plain trivial
  split
  · exact keeps_plain trivial
  split
  · exact keeps_plain trivial
  split
  · exact keeps_plain trivial
  next startedAt _ _ _ _ =>
      apply (keeps_plain (plain_ask (.latestDeploys _) trivial).orThrow).bind
      intro latest past state trackedNow
      apply Ensures.bind
      apply (ensured_isHung limits config startedAt _ member trackedNow).mono
      rintro result last reached ⟨held, holding⟩
      cases result with
      | error error => exact held
      | ok hung =>
          cases hung with
          | false => exact held
          | true =>
              apply Ensures.bind
              apply Ensures.bind
              apply Ensures.attempt
              apply (ensured_recordHungJob _ _ _ (holding rfl)).mono
              intro result last reached trackedNow
              exact keeps_releaseSlot job.id _ _ _ _ config last reached trackedNow

theorem keeps_releaseHungJobs (limits : Limits) (running : List WatchdogDeployment) (config : WatchdogConfig) :
    Keeps jobs (releaseHungJobs limits jobs running config) := by
  apply (keeps_plain (plain_ask .memory trivial)).bind
  intro memory
  exact keeps_inTurn fun job member => keeps_releaseHungJob limits _ running config member

theorem keeps_sweepListed (limits : Limits) (config : WatchdogConfig) : Keeps jobs (sweepListed limits config jobs) := by
  apply (keeps_plain (plain_ask .memory trivial)).bind
  intro memory
  apply (keeps_inTurn fun entry _ => (keeps_settle limits entry.2 config).tolerate).bind
  intro _
  apply (keeps_plain plain_dropExpiredLocks).bind
  intro _
  split
  · exact keeps_plain trivial
  · apply (keeps_plain (plain_ask .listRunning trivial).orThrow).bind
    intro running
    apply (keeps_plain (plain_watchRunning jobs config running)).bind
    intro _
    exact keeps_releaseHungJobs limits running config

theorem tracked_listing {before after : SweepState} (unlisted : before.listed = none)
    (performed : performs before .activeJobs (.ok jobs) after) : Tracked jobs after := by
  rcases performed with ⟨rfl, rfl⟩
  refine ⟨?_, fun job member => Or.inl (List.mem_map_of_mem member)⟩
  change before.listed.or _ = _
  rw [unlisted]
  rfl

theorem ensured_sweepOnce (limits : Limits) (memory : Memory) (active : List InMemoryJob) :
    Ensured (sweepOnce limits) (fun _ _ _ => True) past (.begins memory active) := by
  let unlisted : SweepState -> Prop := fun state => state.listed = none
  have stays : forall before after, unlisted before -> CalmMoves before after -> unlisted after := by
    intro before after yet moved
    cases moved with
    | ended jobId _ => exact yet
    | started job => exact yet
  intro first meanwhile config second performed
  have still : unlisted first := Meanwhile.keeps meanwhile rfl stays
  cases performed.1
  refine ⟨failsOnlyActive_of_plain trivial, ?_⟩
  cases config with
  | error error => trivial
  | ok config =>
      intro before meanwhile answer after performed
      have yet : unlisted before := Meanwhile.keeps meanwhile still stays
      refine ⟨failsOnlyActive_of_plain trivial, ?_⟩
      cases answer with
      | error error => trivial
      | ok jobs =>
          apply (keeps_sweepListed limits config _ after (tracked_listing yet performed.1)).mono
          exact fun _ _ _ _ => trivial

/-- A deploy that has been active for four hours and never registered a deployment. -/
def hungJob : InMemoryJob := ⟨"hung", DeployQueue.plainDeploy "app" none, some 0⟩

def nextJob : InMemoryJob := ⟨"next", DeployQueue.plainDeploy "app" none, some 14400000⟩

def fourHours : Int := 240 * MINUTE_MS

def openConfig : WatchdogConfig := ⟨true, 20, 180, []⟩

def blankMemory : Memory := ⟨[], [], [], []⟩

/-- The state of the sweep once it has listed the hung job. -/
def listedHung : SweepState := ⟨blankMemory, [hungJob], some [hungJob], []⟩

theorem runs_decision {world : World SweepState WatchdogOp Answer}
    (config : world.performs (.begins blankMemory [hungJob]) .loadConfig (.ok openConfig) (.begins blankMemory [hungJob]))
    (listing : world.performs (.begins blankMemory [hungJob]) .activeJobs (.ok [hungJob]) listedHung)
    (memory : world.performs listedHung .memory blankMemory listedHung)
    (memorize : forall change : Memory -> Memory, change blankMemory = blankMemory ->
      world.performs listedHung (.memorize change) () listedHung)
    (running : world.performs listedHung .listRunning (.ok []) listedHung)
    (clock : forall use, world.performs listedHung (.now use) fourHours listedHung)
    (latest : world.performs listedHung (.latestDeploys (jobServiceOf hungJob.data)) (.ok []) listedHung) :
    Exists fun events => Exists fun next =>
      world.Runs (.begins blankMemory [hungJob]) (sweepOnce defaultLimits) events listedHung
        (.ask (.failServiceIfRunning (jobServiceOf hungJob.data) "hung") next) := by
  have begins : world.Runs (.begins blankMemory [hungJob]) (sweepOnce defaultLimits) []
      (.begins blankMemory [hungJob]) (sweepOnce defaultLimits) := .start
  have configured := begins.step _ _ config
  have listed := configured.step _ _ listing
  have settled := listed.step _ _ memory
  have unlocked := settled.step _ _ memory
  have read := unlocked.step _ _ running
  have timed := read.step _ _ (clock _)
  have silenced := timed.step _ _ (memorize _ rfl)
  have watched := silenced.step _ _ (memorize _ rfl)
  have tracked := watched.step _ _ memory
  have asked := tracked.step _ _ latest
  have decided := asked.step _ _ (clock _)
  exact ⟨_, _, decided⟩

end Watchdog
end Dokploy
