import Dokploy.QueueJournal.Rows

namespace Dokploy
namespace QueueJournal

open Foundation DeployQueue

/-!
# The rows tell what the queue remembers

Once everything pending has landed in the order in which it was sent, the row of
a job tells what the queue remembers of it.  That forecast is an invariant of the
process, as long as no write of a job in the queue lands before a write of the
same job that was sent earlier.  A write that outlasted its timeout can break
this order, since the chain does not wait for it.
-/

instance (write : Write) (jobId : String) : Decidable (write.writes jobId) :=
  match write with
  | .insert other _ | .markActive other | .updatePayload other _ => inferInstanceAs (Decidable (jobId = other))
  | .remove _ => isFalse id

/-- When the call lands, a write of the job that was sent earlier has not
landed. -/
def Journal.Overtakes (journal : Journal) (ticket : Nat) (jobId : String) : Prop :=
  Exists fun call => call ∈ journal.calls[ticket]? ∧ call.write.writes jobId ∧
    Exists fun earlier => earlier ∈ Journal.sentWrites (journal.calls.take ticket) ∧ earlier.writes jobId

instance (journal : Journal) (ticket : Nat) (jobId : String) : Decidable (journal.Overtakes ticket jobId) :=
  inferInstanceAs (Decidable (Exists fun call => call ∈ journal.calls[ticket]? ∧ call.write.writes jobId ∧
    Exists fun earlier => earlier ∈ Journal.sentWrites (journal.calls.take ticket) ∧ earlier.writes jobId))

/-- The writes of one job that is in the queue land in the order in which they
were sent. -/
def inJobOrder (process : Process) (ticket : Nat) : Prop :=
  forall jobId, jobId ∈ process.queue.knownJournalIds -> ¬ process.journal.Overtakes ticket jobId

instance (process : Process) (ticket : Nat) : Decidable (inJobOrder process ticket) :=
  inferInstanceAs (Decidable (forall jobId, jobId ∈ process.queue.knownJournalIds ->
    ¬ process.journal.Overtakes ticket jobId))

def Entry.Tells (entry : Entry) (data : DeploymentJob) (state : JobState) : Prop :=
  asJob entry.payload = data ∧ entry.state = state

/-- What the row of the job will tell once everything pending has landed. -/
def forecast (process : Process) (jobId : String) : Option Entry :=
  Pending.replay Write.act jobId process.journal.pending (process.table.entry jobId)

/-- The rows are going to tell what the queue remembers. -/
def Mirrors (process : Process) : Prop :=
  forall jobId data state, Remembers process.queue jobId data state ->
    Exists fun entry => forecast process jobId = some entry ∧ entry.Tells data state

theorem known_of_remembers {q : InMemoryQueue} {jobId : String} {data : DeploymentJob} {state : JobState}
    (remembered : Remembers q jobId data state) : jobId ∈ q.knownJournalIds := by
  rcases remembered.member with ⟨key, job, member, same⟩
  exact InMemoryQueue.mem_knownJournalIds.mpr ⟨key, job, List.mem_append.mp member, same⟩

section Preservation

variable {boot : Boot} {history : List Report} {process : Process}

private theorem not_removed (booked : Booked boot history process) (kept : KeptBy history process) {jobId : String}
    {data : DeploymentJob} {state : JobState} (remembered : Remembers process.queue jobId data state) {write : Write}
    (pending : write ∈ process.journal.pending) : ¬ write.removes jobId := by
  intro removed
  apply booked.audited.remembered_unsettled booked.acceptedNodup remembered
  exact kept.deleting jobId (Or.inl ⟨write, pending, removed⟩)

private theorem forecast_of_unmentioned {jobId : String} (unmentioned : ¬ process.journal.Mentions jobId) :
    forecast process jobId = process.table.entry jobId := by
  apply Pending.replay_of_spared
  intro write member
  apply Write.spares
  · exact fun written => unmentioned (Or.inl ⟨write, member, Or.inl written⟩)
  · exact fun removed => unmentioned (Or.inl ⟨write, member, Or.inr removed⟩)

private theorem mirrors_of_same {later : Process} (mirrors : Mirrors process)
    (memory : forall jobId data state, Remembers later.queue jobId data state ->
      Remembers process.queue jobId data state)
    (pending : later.journal.pending = process.journal.pending)
    (entries : forall jobId data state, Remembers process.queue jobId data state ->
      later.table.entry jobId = process.table.entry jobId) : Mirrors later := by
  intro jobId data state remembered
  have before := memory jobId data state remembered
  rw [forecast, pending, entries jobId data state before]
  exact mirrors jobId data state before

theorem Mirrors.heard (mirrors : Mirrors process) (booked : Booked boot history process)
    {queue : InMemoryQueue} {signals : List Signal}
    (next : Booked boot (history ++ (process.hear queue signals).2) (process.hear queue signals).1)
    (nextKept : KeptBy (history ++ (process.hear queue signals).2) (process.hear queue signals).1)
    (proper : ProperChange process.queue signals queue) : Mirrors (process.hear queue signals).1 := by
  have pending : (process.hear queue signals).1.journal.pending = _ :=
    Journal.pending_notifyAll process.journal signals
  rw [← Journal.taskOf_notices] at pending
  have forecasts : forall jobId, forecast (process.hear queue signals).1 jobId =
      Pending.replay Write.act jobId (((notices signals).flatMap Journal.taskOf).map Task.write)
        (forecast process jobId) := by
    intro jobId
    rw [forecast, pending, Pending.replay_append]
    rfl
  have newcomer : forall {jobId}, jobId ∈ enqueuedIds signals ->
      jobId ∉ acceptedJournalIds (signalsOf history) := by
    intro jobId new old
    have distinct := next.acceptedNodup
    rw [signalsOf_append, signalsOf_hear, acceptedJournalIds_append, proper.2] at distinct
    exact List.disjoint_of_nodup_append distinct old new
  -- A new task about another job leaves the forecast as it was.
  have other : forall {jobId data state} {task : Task}, (notices signals).flatMap Journal.taskOf = [task] ->
      ¬ task.write.writes jobId -> Remembers queue jobId data state -> Remembers process.queue jobId data state ->
      Exists fun entry => forecast (process.hear queue signals).1 jobId = some entry ∧ entry.Tells data state := by
    intro jobId data state task told notWritten remembered before
    have same : forecast (process.hear queue signals).1 jobId = forecast process jobId := by
      rw [forecasts, told]
      apply Write.spares notWritten
      apply not_removed next nextKept remembered
      rw [pending, told]
      exact List.mem_append_right _ List.mem_cons_self
    rw [same]
    exact mirrors jobId data state before
  intro jobId data state remembered
  cases notice_of_change booked.audited booked.acceptedNodup proper with
  | silent heard memory =>
      rw [forecasts, heard]
      exact mirrors jobId data state (memory jobId data state remembered)
  | enqueued job heard memory =>
      have announced : job.journalId ∈ enqueuedIds signals := by
        rw [enqueuedIds, ← enqueuedOf_notices, heard]
        exact List.mem_cons_self
      rcases memory jobId data state remembered with before | ⟨sameId, sameData, waits⟩
      · refine other (congrArg (List.flatMap Journal.taskOf) heard) (fun same => ?_) remembered before
        apply newcomer (same ▸ announced)
        exact booked.audited.remembered_accepted before
      · subst sameId sameData waits
        have unmentioned : ¬ process.journal.Mentions job.journalId :=
          fun mentioned => newcomer announced (booked.mentions _ mentioned)
        have absent : process.table.entry job.journalId = none := by
          rw [Option.eq_none_iff_forall_ne_some]
          intro entry found
          rcases booked.keys _ (JournalTable.mem_keys_iff.mpr ⟨entry, found⟩) with wasFound | old
          · have notFound := @Booked.announced_not_found _ _ _ next job.journalId (by
              rw [signalsOf_append, signalsOf_hear, enqueuedIds_append]
              exact List.mem_append_right _ announced)
            rw [notFound] at wasFound
            cases wasFound
          · exact newcomer announced (booked.mem_accepted.mpr (Or.inl old))
        refine ⟨⟨stored job.data, .waiting, 0⟩, ?_, asJob_stored job.data, rfl⟩
        rw [forecasts, heard, forecast_of_unmentioned unmentioned, absent]
        exact if_pos rfl
  | settled gone heard memory =>
      exact other (congrArg (List.flatMap Journal.taskOf) heard) (fun impossible => impossible) remembered
        (memory jobId data state remembered)
  | updated journalId payload old known heard memory =>
      rcases memory jobId data state remembered with ⟨different, before⟩ | ⟨sameId, sameData, waits⟩
      · exact other (congrArg (List.flatMap Journal.taskOf) heard) different remembered before
      · subst sameId sameData waits
        rcases mirrors _ _ _ known with ⟨entry, held, _, waiting⟩
        refine ⟨{ entry with payload := stored data }, ?_, asJob_stored data, waiting⟩
        rw [forecasts, heard, held]
        have acted : Write.act jobId (.updatePayload jobId (stored data)) (some entry) =
            some (entry.update (stored data)) := if_pos rfl
        exact acted.trans (congrArg some (if_pos waiting))
  | started key job known heard memory =>
      rcases memory jobId data state remembered with ⟨different, before⟩ | ⟨sameId, sameData, runs⟩
      · exact other (congrArg (List.flatMap Journal.taskOf) heard) different remembered before
      · subst sameId sameData runs
        rcases mirrors _ _ _ known with ⟨entry, held, tells, _⟩
        refine ⟨entry.activate, ?_, tells, rfl⟩
        rw [forecasts, heard, held]
        exact if_pos rfl

theorem Mirrors.landed (mirrors : Mirrors process) (booked : Booked boot history process)
    (kept : KeptBy history process) {journal : Journal} {ticket : Nat} {write : Write} (now : Nat)
    (done : process.journal.land ticket = some (journal, write)) (allowed : inJobOrder process ticket) :
    Mirrors { process with journal := journal, table := process.table.perform now write } := by
  rcases Journal.pending_land done with ⟨later, whole, rest⟩
  intro jobId data state remembered
  have notRemoved := fun {write : Write} => @not_removed _ _ _ booked kept _ _ _ remembered write
  rw [whole] at notRemoved
  have inOrder : Pending.Spares Write.act jobId write ∨
      forall earlier, earlier ∈ Journal.sentWrites (process.journal.calls.take ticket) ->
        Pending.Spares Write.act jobId earlier := by
    by_cases written : write.writes jobId
    · refine Or.inr fun earlier member => Write.spares (fun overtaken => ?_) ?_
      · apply allowed jobId (known_of_remembers remembered)
        exact ⟨_, (Journal.land_some done).1, written, earlier, member, overtaken⟩
      · exact notRemoved (List.mem_append_left _ member)
    · exact Or.inl (Write.spares written (notRemoved (List.mem_append_right _ List.mem_cons_self)))
  have same : forecast { process with journal := journal, table := process.table.perform now write } jobId =
      forecast process jobId := by
    rw [forecast, forecast, whole, rest, JournalTable.entry_perform]
    exact Pending.replay_applied inOrder _
  rw [same]
  exact mirrors jobId data state remembered

theorem Mirrors.answered (mirrors : Mirrors process) {journal : Journal} {ticket : Nat}
    (closed : process.journal.answer ticket = some journal)
    (next : Booked boot history { process with journal := journal })
    (nextKept : KeptBy history { process with journal := journal }) :
    Mirrors { process with journal := journal } := by
  have pending := Journal.pending_answer closed
  intro jobId data state remembered
  have same : forecast { process with journal := journal } jobId = forecast process jobId := by
    rw [forecast, pending, Pending.replay_append]
    apply Pending.replay_of_spared
    intro write member
    rcases List.mem_map.mp member with ⟨task, inLate, sameWrite⟩
    rcases Journal.mem_lateFor inLate with ⟨other, _, isLate⟩
    subst isLate sameWrite
    refine Write.spares (fun impossible => impossible) (not_removed next nextKept remembered ?_)
    change _ ∈ journal.pending
    rw [pending]
    exact List.mem_append_right _ member
  rw [same]
  exact mirrors jobId data state remembered

private theorem remembered_not_found (booked : Booked boot history process)
    (nobody : process.restoring.putBackIds = []) {jobId : String} {data : DeploymentJob} {state : JobState}
    (remembered : Remembers process.queue jobId data state) : jobId ∉ boot.table.keys := by
  have notFound := booked.known_not_found nobody (known_of_remembers remembered)
  exact of_decide_eq_false notFound

private theorem requeuedRow_tells (row : DeploymentQueueJobRow) {batch : Batch} (kept : row ∈ batch.keep) :
    (requeuedRow batch.interruptedIds row).value.entry.Tells (asJob row.value.payload) .waiting := by
  unfold requeuedRow
  split
  · exact ⟨rfl, rfl⟩
  · rename_i notInterrupted
    refine ⟨rfl, ?_⟩
    change row.value.state = .waiting
    cases state : row.value.state with
    | waiting => rfl
    | active =>
        refine absurd (decide_eq_true (List.mem_map_of_mem (List.mem_filter.mpr ⟨kept, ?_⟩))) notInterrupted
        rw [state]
        rfl

theorem Mirrors.putBack (mirrors : Mirrors process) (booked : Booked boot history process) {batch : Batch}
    (requeueing : process.restoring = .requeueing batch true) : Mirrors (process.putBack batch).1 := by
  have phase := booked.phase
  rw [requeueing] at phase
  have forecasts : forall jobId, forecast (process.putBack batch).1 jobId = forecast process jobId := by
    intro jobId
    rw [forecast, journal_putBack]
    rfl
  rintro jobId data state ⟨key, job, member, sameId, sameData⟩
  have lanes : (process.putBack batch).1.queue.lane = _ := lane_addRestored process.queue batch.restoredJobs
  rw [forecasts]
  have stays : job ∈ (process.queue.lane key).inState state ->
      Exists fun entry => forecast process jobId = some entry ∧ entry.Tells data state :=
    fun old => mirrors jobId data state ⟨key, job, old, sameId, sameData⟩
  rw [lanes] at member
  cases state with
  | active => exact stays member
  | waiting =>
      rcases List.mem_append.mp member with fresh | old
      · have origin : job.origin ∈ batch.restoredJobs := by
          rw [← booked.restored_all requeueing]
          exact List.mem_map_of_mem (List.mem_filter.mp fresh).1
        rcases List.mem_map.mp origin with ⟨row, inKeep, same⟩
        rcases RestoredJob.mk.inj same with ⟨rowId, rowData, _⟩
        rw [sameId] at rowId
        rw [sameData] at rowData
        have inTable : requeuedRow boot.batch.interruptedIds row ∈ process.table.rowsWhere boot.found := by
          rw [phase.2, if_pos rfl, ← phase.1]
          exact List.mem_map_of_mem inKeep
        rcases List.mem_filter.mp inTable with ⟨inRows, wasFound⟩
        have entry := JournalTable.entry_of_row inRows
        rw [requeuedRow_key, rowId] at entry
        have unmentioned : ¬ process.journal.Mentions jobId := by
          intro mentioned
          have notFound := booked.mentioned_not_found
            (fun _ _ impossible => by rw [requeueing] at impossible; cases impossible) mentioned
          rw [requeuedRow_key, rowId, notFound] at wasFound
          cases wasFound
        refine ⟨_, (forecast_of_unmentioned unmentioned).trans entry, ?_⟩
        rw [← rowData, ← phase.1]
        exact requeuedRow_tells row inKeep
      · exact stays old

theorem Mirrors.change {output : List Report} {after : Process} (mirrors : Mirrors process)
    (booked : Booked boot history process) (kept : KeptBy history process)
    (next : Booked boot (history ++ output) after) (nextKept : KeptBy (history ++ output) after)
    (change : ProcessChange inJobOrder process output after) : Mirrors after := by
  have same := fun {later : Process} => @mirrors_of_same _ later mirrors
  cases change with
  | heard proper fresh => exact mirrors.heard booked next nextKept proper
  | started taken =>
      exact same (fun _ _ _ held => held) (Journal.pending_startTask taken) fun _ _ _ _ => rfl
  | timedOut expired =>
      exact same (fun _ _ _ held => held) (Journal.pending_timeout expired) fun _ _ _ _ => rfl
  | landed now done allowed => exact mirrors.landed booked kept now done allowed
  | answered closed =>
      rw [List.append_nil] at next nextKept
      exact mirrors.answered closed next nextKept
  | advanced onward => exact mirrors
  | sorted reading => exact same (fun _ _ _ held => held) rfl fun _ _ _ _ => rfl
  | @dropped batch dropping =>
      have phase := booked.phase
      rw [dropping] at phase
      refine same (fun _ _ _ held => held) rfl fun jobId data state remembered => ?_
      have notFound := remembered_not_found booked (by rw [dropping]; rfl) remembered
      refine (JournalTable.entry_perform process.table 0 (.remove batch.dropIds) jobId).trans (if_neg fun given => ?_)
      rw [phase.1] at given
      exact notFound (((sortLeftovers_drop_sublist boot.table.rows).map _).subset given)
  | @requeued batch requeueing =>
      have phase := booked.phase
      rw [requeueing] at phase
      refine same (fun _ _ _ held => held) rfl fun jobId data state remembered => ?_
      have notFound := remembered_not_found booked (by rw [requeueing]; rfl) remembered
      refine (JournalTable.entry_requeue process.table batch.interruptedIds jobId).trans (if_neg fun interrupted => ?_)
      apply notFound
      rcases List.mem_map.mp interrupted with ⟨row, member, sameKey⟩
      rw [phase.1] at member
      rw [← sameKey]
      exact List.mem_map_of_mem ((sortLeftovers_keep_sublist boot.table.rows).subset (List.mem_filter.mp member).1)
  | putBack requeueing => exact mirrors.putBack booked requeueing

end Preservation

theorem mirrors_of_run {boot : Boot} {history : List Report} {process : Process}
    (run : (processMachine boot).Run (Environment inJobOrder) history process) :
    Booked boot history process ∧ KeptBy history process ∧ Mirrors process :=
  process_invariant (fun history process => KeptBy history process ∧ Mirrors process)
    ⟨kept_new boot.table, by rintro jobId data state ⟨key, job, member, _⟩; cases state <;> cases member⟩
    (fun _ _ _ _ booked next held change =>
      have nextKept := KeptBy.change booked next held.1 change
      ⟨nextKept, held.2.change booked held.1 next nextKept change⟩) run

/-- Every job that waits or runs has a row with its payload and its state, and a
restore of this table would take both from there. -/
def RowsCurrent (process : Process) : Prop :=
  forall key job state, job ∈ (process.queue.lane key).inState state ->
    Exists fun row : DeploymentQueueJobRow => row ∈ process.table.rows ∧ row.key = job.journalId ∧
      asJob row.value.payload = job.data ∧ row.value.state = state ∧
      (givenUp row = false -> ⟨job.journalId, job.data, row.value.enqueuedAt⟩ ∈ process.crash.batch.restoredJobs ∧
        (state = .active -> job.journalId ∈ process.crash.batch.interruptedIds))

/-- In every run in which the writes of one job land in the order in which they
were sent: once all calls have been answered, the rows tell what the queue
remembers, and so would a restore. -/
theorem rows_current {boot : Boot} {history : List Report} {process : Process}
    (run : (processMachine boot).Run (Environment inJobOrder) history process) (idle : process.journal.Idle) :
    RowsCurrent process := by
  rcases mirrors_of_run run with ⟨_, _, mirrors⟩
  intro key job state member
  rcases mirrors job.journalId job.data state ⟨key, job, member, rfl, rfl⟩ with ⟨entry, held, samePayload, sameState⟩
  rw [forecast, idle.pending] at held
  rcases Option.map_eq_some_iff.mp held with ⟨value, found, sameEntry⟩
  rcases SerialTable.lookup_eq_some.mp found with ⟨row, inRows, sameKey, sameValue⟩
  subst sameEntry sameValue
  refine ⟨row, inRows, sameKey, samePayload, sameState, fun kept => ?_⟩
  have inKeep : row ∈ process.crash.batch.keep := List.mem_filter.mpr ⟨inRows, by rw [kept]; rfl⟩
  constructor
  · exact List.mem_map.mpr ⟨row, inKeep, by rw [sameKey, ← samePayload]; rfl⟩
  · intro runs
    refine List.mem_map.mpr ⟨row, List.mem_filter.mpr ⟨inKeep, beq_iff_eq.mpr ?_⟩, sameKey⟩
    exact sameState.trans runs

/-- A job is raised while its insert is late, then starts; all of it reaches its
row. -/
theorem rows_current_started :
    let process := ((processMachine ⟨SerialTable.empty, []⟩).outcome
      (fun process event => decide (Environment inJobOrder process event))
      [.queue .process, .queue (.add (plainDeploy "a" none) "u1" 1), .queue (.add (plainDeploy "b" none) "u2" 2),
        .queue (.prioritize 2 none), .startTask, .land 0 3, .answer 0, .startTask, .timeout, .startTask,
        .queue (.concurrencyResolved 0 1), .queue (.drainTurn 0 4), .land 1 5, .land 2 6, .answer 1, .answer 2,
        .startTask, .land 3 7, .answer 3]).1
    (process.queue.lane "__local__").active.map (·.journalId) = ["u2"] ∧ RowsCurrent process := by
  intro process
  have idle : process.journal.chain = [] ∧ forall call, call ∈ process.journal.calls -> call.phase = .answered := by
    decide
  exact ⟨by decide, rows_current (Machine.run_of_executes (fun _ _ allowed => of_decide_eq_true allowed) (by decide)) idle⟩

/-- The insert of a job times out and lands after its job has started: the row
waits while the job runs. -/
theorem rows_stale :
    ¬ forall boot history process, (processMachine boot).Run (Environment anyOrder) history process ->
      process.journal.Idle -> RowsCurrent process := by
  intro claimed
  let outcome := (processMachine ⟨SerialTable.empty, []⟩).outcome
    (fun process event => decide (Environment anyOrder process event))
    [.queue .process, .queue (.add (plainDeploy "a" none) "u1" 1), .startTask, .timeout,
      .queue (.concurrencyResolved 0 1), .queue (.drainTurn 0 2), .startTask, .land 1 3, .answer 1,
      .land 0 4, .answer 0]
  have idle : outcome.1.journal.chain = [] ∧ forall call, call ∈ outcome.1.journal.calls -> call.phase = .answered := by
    decide
  have current := claimed _ _ outcome.1
    (Machine.run_of_executes (fun _ _ allowed => of_decide_eq_true allowed) (by decide)) idle
  have running : (outcome.1.queue.lane "__local__").active ≠ [] := by decide
  have waiting : forall row, row ∈ outcome.1.table.rows -> row.value.state = .waiting := by decide
  rcases List.exists_mem_of_ne_nil _ running with ⟨job, member⟩
  rcases current "__local__" job .active member with ⟨row, inRows, _, _, runs, _⟩
  rw [waiting row inRows] at runs
  cases runs

end QueueJournal
end Dokploy
