import Dokploy.QueueJournal.Process

namespace Dokploy
namespace QueueJournal

open Foundation DeployQueue

/-!
# The accounts of a process

Every journal id that a process deals with is one it announced itself, or one
it restored from a row it found.  The two kinds never meet, so no journal id is
accepted twice, and until the restore has finished nothing that the process
writes concerns a row it found.  These facts hold however the writes land, and
every result about the journal starts from them.

The steps of a process are cut into primitive changes, in which the queue makes
one change at a time.
-/

inductive ProcessChange (mayLand : Process -> Nat -> Prop) : Process -> List Report -> Process -> Prop
  /-- The queue changes and the journal hears of it. -/
  | heard {process : Process} {queue : InMemoryQueue} {signals : List Signal}
      (proper : ProperChange process.queue signals queue)
      (fresh : forall journalId, journalId ∈ enqueuedIds signals -> journalId ∉ process.drawn) :
      ProcessChange mayLand process (process.hear queue signals).2 (process.hear queue signals).1
  | started {process : Process} {journal : Journal} (taken : process.journal.startTask = some journal) :
      ProcessChange mayLand process [] { process with journal := journal }
  | timedOut {process : Process} {journal : Journal} (expired : process.journal.timeout = some journal) :
      ProcessChange mayLand process [] { process with journal := journal }
  | landed {process : Process} {journal : Journal} {ticket : Nat} {write : Write} (now : Nat)
      (done : process.journal.land ticket = some (journal, write)) (allowed : mayLand process ticket) :
      ProcessChange mayLand process []
        { process with journal := journal, table := process.table.perform now write }
  | answered {process : Process} {journal : Journal} {ticket : Nat}
      (closed : process.journal.answer ticket = some journal) :
      ProcessChange mayLand process [] { process with journal := journal }
  /-- The restore goes on without touching anything. -/
  | advanced {process : Process} {restoring : Restoring}
      (onward : (process.restoring = .notCalled ∧ restoring = .marking) ∨
        (process.restoring = .marking ∧ restoring = .listing) ∨
        (process.restoring = .listing ∧ restoring = .reading process.table.listQueueJobs) ∨
        Exists fun batch => process.restoring = .dropping batch true ∧ restoring = .requeueing batch false) :
      ProcessChange mayLand process [] { process with restoring := restoring }
  | sorted {process : Process} {rows : List DeploymentQueueJobRow} (reading : process.restoring = .reading rows) :
      ProcessChange mayLand process [] (process.sortRows rows)
  | dropped {process : Process} {batch : Batch} (dropping : process.restoring = .dropping batch false) :
      ProcessChange mayLand process []
        { process with table := process.table.deleteQueueJobs batch.dropIds, restoring := .dropping batch true }
  | requeued {process : Process} {batch : Batch} (requeueing : process.restoring = .requeueing batch false) :
      ProcessChange mayLand process [.requeued batch.interruptedIds]
        { process with
          table := process.table.requeueInterruptedQueueJobs batch.interruptedIds
          restoring := .requeueing batch true }
  | putBack {process : Process} {batch : Batch} (requeueing : process.restoring = .requeueing batch true) :
      ProcessChange mayLand process (process.putBack batch).2 (process.putBack batch).1

theorem signalsOf_hear (process : Process) (queue : InMemoryQueue) (signals : List Signal) :
    signalsOf (process.hear queue signals).2 = signals :=
  signalsOf_signals signals

theorem notices_putBack (process : Process) (batch : Batch) : notices (signalsOf (process.putBack batch).2) = [] := by
  have output : signalsOf (process.putBack batch).2 = (process.queue.addRestored batch.restoredJobs).signals :=
    signalsOf_signals _
  rw [output]
  exact notices_accepted _

theorem enqueuedIds_putBack (process : Process) (batch : Batch) :
    enqueuedIds (signalsOf (process.putBack batch).2) = [] := by
  rw [enqueuedIds, ← enqueuedOf_notices, notices_putBack]
  rfl

theorem journal_putBack (process : Process) (batch : Batch) :
    (process.putBack batch).1.journal = process.journal := by
  have heard : (process.putBack batch).1.journal = process.journal.notifyAll (signalsOf (process.putBack batch).2) :=
    congrArg process.journal.notifyAll (signalsOf_signals _).symm
  rw [heard, Journal.notifyAll_eq, ← Journal.taskOf_notices, notices_putBack, enqueuedIds_putBack]
  simp only [List.flatMap_nil, List.append_nil, Option.map_id']

def Restoring.putBackIds : Restoring -> List String
  | .finished batch _ => batch.keep.map (·.key)
  | _ => []

namespace Boot

/-- The id names a row the process found. -/
def found (boot : Boot) (journalId : String) : Bool :=
  decide (journalId ∈ boot.table.keys)

/-- The rows the process found, sorted by what is to become of them. -/
def batch (boot : Boot) : Batch :=
  sortLeftovers boot.table.rows

end Boot

/-- A row as it is once the interrupted jobs were requeued. -/
def requeuedRow (jobIds : List String) (row : DeploymentQueueJobRow) : DeploymentQueueJobRow :=
  if decide (row.key ∈ jobIds) then
    { row with value :=
      { row.value with state := .waiting, startedAt := none, attempts := row.value.attempts + 1 } }
  else row

@[simp] theorem requeuedRow_key (jobIds : List String) (row : DeploymentQueueJobRow) :
    (requeuedRow jobIds row).key = row.key := by
  unfold requeuedRow
  split <;> rfl

/-- What has become of the rows the process found, until they are put back. -/
def Phase (boot : Boot) (announced : List String) (journal : Journal) (table : JournalTable) : Restoring -> Prop
  | .notCalled | .marking | .listing =>
      journal.liveIds = some announced ∧ table.rowsWhere boot.found = boot.table.rows
  | .reading rows =>
      journal.liveIds = some announced ∧ table.rowsWhere boot.found = boot.table.rows ∧
        (rows.filter fun row => boot.found row.key) = boot.table.rows ∧
        forall row, row ∈ rows -> boot.found row.key = true ∨ row.key ∈ announced
  | .dropping batch landed =>
      batch = boot.batch ∧
        table.rowsWhere boot.found = if landed then boot.batch.keep else boot.table.rows
  | .requeueing batch landed =>
      batch = boot.batch ∧
        table.rowsWhere boot.found =
          if landed then boot.batch.keep.map (requeuedRow boot.batch.interruptedIds) else boot.batch.keep
  | .finished batch _ => batch = boot.batch

structure Booked (boot : Boot) (history : List Report) (process : Process) : Prop where
  audited : Audited (signalsOf history) process.queue
  drawn : process.drawn = boot.table.keys ++ boot.drawn ++ enqueuedIds (signalsOf history)
  distinct : (enqueuedIds (signalsOf history)).Nodup
  fresh : forall journalId, journalId ∈ enqueuedIds (signalsOf history) ->
    journalId ∉ boot.table.keys ++ boot.drawn
  accepted : (acceptedJournalIds (signalsOf history)).Perm
    (enqueuedIds (signalsOf history) ++ process.restoring.putBackIds)
  mentions : forall journalId, process.journal.Mentions journalId ->
    journalId ∈ acceptedJournalIds (signalsOf history)
  keys : forall journalId, journalId ∈ process.table.keys ->
    boot.found journalId = true ∨ journalId ∈ enqueuedIds (signalsOf history)
  phase : Phase boot (enqueuedIds (signalsOf history)) process.journal process.table process.restoring

theorem sortLeftovers_keep_sublist (rows : List DeploymentQueueJobRow) :
    (sortLeftovers rows).keep.Sublist rows := List.filter_sublist

theorem sortLeftovers_drop_sublist (rows : List DeploymentQueueJobRow) :
    (sortLeftovers rows).drop.Sublist rows := List.filter_sublist

namespace Booked

variable {boot : Boot} {history : List Report} {process : Process}

theorem putBack_found (booked : Booked boot history process) :
    process.restoring.putBackIds.Nodup ∧
      forall journalId, journalId ∈ process.restoring.putBackIds -> journalId ∈ boot.table.keys := by
  have phase := booked.phase
  cases restoring : process.restoring with
  | finished batch result =>
      rw [restoring] at phase
      have same : batch = boot.batch := phase
      rw [same]
      have sublist := (sortLeftovers_keep_sublist boot.table.rows).map (·.key)
      exact ⟨boot.table.unique.sublist sublist, fun journalId member => sublist.subset member⟩
  | _ => exact ⟨List.nodup_nil, fun _ member => by cases member⟩

theorem acceptedNodup (booked : Booked boot history process) :
    (acceptedJournalIds (signalsOf history)).Nodup := by
  refine booked.accepted.nodup_iff.mpr (List.nodup_append.mpr ⟨booked.distinct, booked.putBack_found.1, ?_⟩)
  intro journalId announced other restored same
  refine booked.fresh journalId announced (List.mem_append_left _ ?_)
  rw [same]
  exact booked.putBack_found.2 other restored

theorem mem_accepted (booked : Booked boot history process) {journalId : String} :
    journalId ∈ acceptedJournalIds (signalsOf history) <->
      journalId ∈ enqueuedIds (signalsOf history) ∨ journalId ∈ process.restoring.putBackIds := by
  rw [booked.accepted.mem_iff, List.mem_append]

theorem announced_not_found (booked : Booked boot history process) {journalId : String}
    (announced : journalId ∈ enqueuedIds (signalsOf history)) : boot.found journalId = false :=
  decide_eq_false fun member => booked.fresh journalId announced (List.mem_append_left _ member)

end Booked

theorem booked_start (boot : Boot) : Booked boot [] (Process.start boot) where
  audited := audited_new
  drawn := (List.append_nil _).symm
  distinct := List.nodup_nil
  fresh := fun _ member => by cases member
  accepted := List.Perm.refl _
  mentions := by
    rintro journalId (⟨write, member, _⟩ | ⟨ticket, member⟩)
    · cases member
    · cases member
  keys := fun journalId member => Or.inl (decide_eq_true member)
  phase := ⟨rfl, List.filter_eq_self.mpr fun row member => decide_eq_true (List.mem_map_of_mem member)⟩

theorem Phase.move {boot : Boot} {announced : List String} {journal later : Journal} {table changed : JournalTable}
    {restoring : Restoring} (phase : Phase boot announced journal table restoring)
    (live : later.liveIds = journal.liveIds)
    (rows : (forall batch result, restoring ≠ .finished batch result) ->
      changed.rowsWhere boot.found = table.rowsWhere boot.found) : Phase boot announced later changed restoring := by
  cases restoring with
  | finished batch result => exact phase
  | reading found =>
      rcases phase with ⟨known, same, left, either⟩
      exact ⟨live.trans known, (rows fun _ _ impossible => Restoring.noConfusion impossible).trans same, left, either⟩
  | dropping batch landed =>
      exact ⟨phase.1, (rows fun _ _ impossible => Restoring.noConfusion impossible).trans phase.2⟩
  | requeueing batch landed =>
      exact ⟨phase.1, (rows fun _ _ impossible => Restoring.noConfusion impossible).trans phase.2⟩
  | _ => exact ⟨live.trans phase.1, (rows fun _ _ impossible => Restoring.noConfusion impossible).trans phase.2⟩

theorem Phase.heard {boot : Boot} {announced : List String} {journal : Journal} {table : JournalTable}
    {restoring : Restoring} (phase : Phase boot announced journal table restoring) (signals : List Signal) :
    Phase boot (announced ++ enqueuedIds signals) (journal.notifyAll signals) table restoring := by
  have live : journal.liveIds = some announced ->
      (journal.notifyAll signals).liveIds = some (announced ++ enqueuedIds signals) := by
    intro known
    rw [Journal.notifyAll_eq, known]
    rfl
  cases restoring with
  | finished batch result => exact phase
  | reading found =>
      rcases phase with ⟨known, same, left, either⟩
      refine ⟨live known, same, left, fun row member => (either row member).imp_right fun old => ?_⟩
      exact List.mem_append_left _ old
  | dropping batch landed => exact phase
  | requeueing batch landed => exact phase
  | _ => exact ⟨live phase.1, phase.2⟩

theorem told_accepted {history signals : List Signal} {q queue : InMemoryQueue} (audited : Audited history q)
    (after : Audited (history ++ signals) queue) (distinct : (acceptedJournalIds history).Nodup)
    (proper : ProperChange q signals queue) {task : Task} (told : task ∈ signals.flatMap Journal.taskOf)
    {journalId : String} (about : task.write.writes journalId ∨ task.write.removes journalId) :
    journalId ∈ acceptedJournalIds (history ++ signals) := by
  have remembered : forall {data state}, Remembers q journalId data state ->
      journalId ∈ acceptedJournalIds (history ++ signals) := by
    intro data state known
    rw [acceptedJournalIds_append]
    exact List.mem_append_left _ (audited.remembered_accepted known)
  rw [← Journal.taskOf_notices] at told
  cases notice_of_change audited distinct proper with
  | silent heard memory =>
      rw [heard] at told
      cases told
  | enqueued job heard memory =>
      rw [heard] at told
      cases List.mem_singleton.mp told
      have same : journalId = job.journalId := about.resolve_right fun impossible => impossible
      rw [acceptedJournalIds_append, proper.2, enqueuedIds, ← enqueuedOf_notices, heard, same]
      exact List.mem_append_right _ List.mem_cons_self
  | settled gone heard memory =>
      rw [heard] at told
      cases List.mem_singleton.mp told
      have member : journalId ∈ gone.map (·.journalId) := about.resolve_left fun impossible => impossible
      refine after.settledJournalIds_accepted ?_
      rw [settledJournalIds_append, settledJournalIds, settledJournalIds, ← settledOf_notices signals, heard]
      refine List.mem_append_right _ ?_
      rw [settledOf_cons, settledOf_nil, List.append_nil]
      exact member
  | updated other payload old known heard memory =>
      rw [heard] at told
      cases List.mem_singleton.mp told
      have same : journalId = other := about.resolve_right fun impossible => impossible
      exact remembered (same ▸ known)
  | started key job known heard memory =>
      rw [heard] at told
      cases List.mem_singleton.mp told
      have same : journalId = job.journalId := about.resolve_right fun impossible => impossible
      exact remembered (same ▸ known)

theorem enqueuedIds_of_proper {history signals : List Signal} {q queue : InMemoryQueue} (audited : Audited history q)
    (distinct : (acceptedJournalIds history).Nodup) (proper : ProperChange q signals queue) :
    (enqueuedIds signals).Nodup := by
  rw [enqueuedIds, ← enqueuedOf_notices]
  cases notice_of_change audited distinct proper with
  | silent heard memory =>
      rw [heard]
      exact List.nodup_nil
  | enqueued job heard memory =>
      rw [heard]
      exact List.nodup_singleton _
  | settled gone heard memory =>
      rw [heard]
      exact List.nodup_nil
  | updated other payload old known heard memory =>
      rw [heard]
      exact List.nodup_nil
  | started key job known heard memory =>
      rw [heard]
      exact List.nodup_nil

namespace Booked

variable {boot : Boot} {history : List Report} {process : Process}

theorem heard (booked : Booked boot history process) {queue : InMemoryQueue} {signals : List Signal}
    (proper : ProperChange process.queue signals queue)
    (unused : forall journalId, journalId ∈ enqueuedIds signals -> journalId ∉ process.drawn) :
    Booked boot (history ++ (process.hear queue signals).2) (process.hear queue signals).1 := by
  have audited := booked.audited.change proper.1
  constructor <;> rw [signalsOf_append, signalsOf_hear]
  · exact audited
  · rw [enqueuedIds_append, ← List.append_assoc, ← booked.drawn]
    rfl
  · rw [enqueuedIds_append]
    refine List.nodup_append.mpr ⟨booked.distinct,
      enqueuedIds_of_proper booked.audited booked.acceptedNodup proper, fun journalId old other new same => ?_⟩
    refine unused other new ?_
    rw [booked.drawn, ← same]
    exact List.mem_append_right _ old
  · intro journalId member
    rw [enqueuedIds_append] at member
    rcases List.mem_append.mp member with old | new
    · exact booked.fresh journalId old
    · intro drawn
      refine unused journalId new ?_
      rw [booked.drawn]
      exact List.mem_append_left _ drawn
  · rw [acceptedJournalIds_append, enqueuedIds_append, proper.2, List.append_assoc]
    refine (booked.accepted.append_right _).trans ?_
    rw [List.append_assoc]
    exact List.perm_append_comm.append_left _
  · intro journalId mentioned
    have old : process.journal.Mentions journalId ->
        journalId ∈ acceptedJournalIds (signalsOf history ++ signals) := by
      intro before
      rw [acceptedJournalIds_append]
      exact List.mem_append_left _ (booked.mentions journalId before)
    rcases mentioned with ⟨write, member, about⟩ | ⟨ticket, member⟩
    · have pending : (process.hear queue signals).1.journal.pending = _ :=
        Journal.pending_notifyAll process.journal signals
      rw [pending] at member
      rcases List.mem_append.mp member with before | now
      · exact old (Or.inl ⟨write, before, about⟩)
      · rcases List.mem_map.mp now with ⟨task, told, same⟩
        exact told_accepted booked.audited audited booked.acceptedNodup proper told (same ▸ about)
    · have late : (process.hear queue signals).1.journal.lateDeletes = process.journal.lateDeletes := by
        change (process.journal.notifyAll signals).lateDeletes = _
        rw [Journal.notifyAll_eq]
      rw [late] at member
      exact old (Or.inr ⟨ticket, member⟩)
  · intro journalId member
    rw [enqueuedIds_append]
    exact (booked.keys journalId member).imp_right fun old => List.mem_append_left _ old
  · rw [enqueuedIds_append]
    exact booked.phase.heard signals

theorem mentioned_not_found (booked : Booked boot history process)
    (unfinished : forall batch result, process.restoring ≠ .finished batch result) {journalId : String}
    (mentioned : process.journal.Mentions journalId) : boot.found journalId = false := by
  rcases booked.mem_accepted.mp (booked.mentions journalId mentioned) with announced | restored
  · exact booked.announced_not_found announced
  · cases restoring : process.restoring with
    | finished batch result => exact absurd restoring (unfinished batch result)
    | _ =>
        rw [restoring] at restored
        cases restored

variable {journal : Journal}

theorem journaled (booked : Booked boot history process)
    (live : journal.liveIds = process.journal.liveIds)
    (mentions : forall journalId, journal.Mentions journalId -> process.journal.Mentions journalId) :
    Booked boot (history ++ []) { process with journal := journal } := by
  rw [List.append_nil]
  exact { booked with
    mentions := fun journalId mentioned => booked.mentions journalId (mentions journalId mentioned)
    phase := booked.phase.move live fun _ => rfl }

theorem landed (booked : Booked boot history process) {ticket : Nat} {write : Write} (now : Nat)
    (done : process.journal.land ticket = some (journal, write)) :
    Booked boot (history ++ []) { process with journal := journal, table := process.table.perform now write } := by
  have mentions : forall journalId, journal.Mentions journalId -> process.journal.Mentions journalId :=
    fun journalId => Journal.mentions_land done
  have written : forall journalId, write.writes journalId ∨ write.removes journalId ->
      process.journal.Mentions journalId := fun journalId about => Or.inl ⟨write, Journal.mem_pending_land done, about⟩
  rw [List.append_nil]
  refine { booked with
    mentions := fun journalId mentioned => booked.mentions journalId (mentions journalId mentioned)
    keys := fun journalId member => ?_
    phase := booked.phase.move (Journal.liveIds_land done) fun unfinished => ?_ }
  · rcases JournalTable.keys_perform member with old | about
    · exact booked.keys journalId old
    · rcases booked.mem_accepted.mp (booked.mentions journalId (written journalId (Or.inl about))) with
        announced | restored
      · exact Or.inr announced
      · exact Or.inl (decide_eq_true (booked.putBack_found.2 journalId restored))
  · exact JournalTable.rowsWhere_perform _ _ fun journalId about =>
      booked.mentioned_not_found unfinished (written journalId about)

theorem timedOut (booked : Booked boot history process)
    (expired : process.journal.timeout = some journal) :
    Booked boot (history ++ []) { process with journal := journal } := by
  refine booked.journaled (by rw [Journal.timeout_some expired]) fun journalId mentioned => ?_
  rcases mentioned with ⟨write, member, about⟩ | ⟨ticket, member⟩
  · rw [Journal.pending_timeout expired] at member
    exact Or.inl ⟨write, member, about⟩
  · rw [Journal.timeout_some expired] at member
    exact Or.inr ⟨ticket, member⟩

theorem restoringTo (booked : Booked boot history process) {table : JournalTable}
    {restoring : Restoring} {output : List Report} (quiet : signalsOf output = [])
    (mentions : forall journalId, journal.Mentions journalId -> process.journal.Mentions journalId)
    (keys : forall journalId, journalId ∈ table.keys -> journalId ∈ process.table.keys)
    (nobody : process.restoring.putBackIds = [] ∧ restoring.putBackIds = [])
    (phase : Phase boot (enqueuedIds (signalsOf history)) journal table restoring) :
    Booked boot (history ++ output) { process with journal := journal, table := table, restoring := restoring } := by
  have same : signalsOf (history ++ output) = signalsOf history := by
    rw [signalsOf_append, quiet, List.append_nil]
  have accepted := booked.accepted
  rw [nobody.1, ← nobody.2] at accepted
  constructor <;> rw [same]
  · exact booked.audited
  · exact booked.drawn
  · exact booked.distinct
  · exact booked.fresh
  · exact accepted
  · exact fun journalId mentioned => booked.mentions journalId (mentions journalId mentioned)
  · exact fun journalId member => booked.keys journalId (keys journalId member)
  · exact phase

theorem advanced (booked : Booked boot history process) {restoring : Restoring}
    (onward : (process.restoring = .notCalled ∧ restoring = .marking) ∨
      (process.restoring = .marking ∧ restoring = .listing) ∨
      (process.restoring = .listing ∧ restoring = .reading process.table.listQueueJobs) ∨
      Exists fun batch => process.restoring = .dropping batch true ∧ restoring = .requeueing batch false) :
    Booked boot (history ++ []) { process with restoring := restoring } := by
  have phase := booked.phase
  refine booked.restoringTo rfl (fun _ mentioned => mentioned) (fun _ member => member) ?_ ?_
  · rcases onward with ⟨before, after⟩ | ⟨before, after⟩ | ⟨before, after⟩ | ⟨batch, before, after⟩ <;>
      rw [before, after] <;> exact ⟨rfl, rfl⟩
  · rcases onward with ⟨before, after⟩ | ⟨before, after⟩ | ⟨before, after⟩ | ⟨batch, before, after⟩
    · rw [before] at phase
      rw [after]
      exact phase
    · rw [before] at phase
      rw [after]
      exact phase
    · rw [before] at phase
      rw [after]
      exact ⟨phase.1, phase.2, phase.2, fun row member => booked.keys row.key (List.mem_map_of_mem member)⟩
    · rw [before] at phase
      rw [after]
      exact phase

theorem known_not_found (booked : Booked boot history process) (nobody : process.restoring.putBackIds = [])
    {journalId : String} (known : journalId ∈ process.queue.knownJournalIds) : boot.found journalId = false := by
  rcases InMemoryQueue.mem_knownJournalIds.mp known with ⟨key, job, member, same⟩
  rcases booked.audited.traced.lanes key job (List.mem_append.mpr member) with ⟨first, firstMember, sameJob⟩
  have accepted : journalId ∈ acceptedJournalIds (signalsOf history) :=
    List.mem_map.mpr ⟨first, firstMember, sameJob.2.1.trans same⟩
  rw [booked.mem_accepted, nobody] at accepted
  exact booked.announced_not_found (accepted.resolve_right (List.not_mem_nil))

theorem leftovers_found (booked : Booked boot history process) {rows : List DeploymentQueueJobRow}
    (reading : process.restoring = .reading rows) : process.leftovers rows = boot.table.rows := by
  have phase := booked.phase
  rw [reading] at phase
  rcases phase with ⟨known, _, left, either⟩
  rw [← left, Process.leftovers, known]
  refine List.filter_congr fun row member => ?_
  rw [Option.getD_some]
  rcases either row member with found | announced
  · have notAnnounced : row.key ∉ enqueuedIds (signalsOf history) := by
      intro announced
      rw [booked.announced_not_found announced] at found
      cases found
    have notKnown : process.queue.hasJournalId row.key = false := by
      refine decide_eq_false fun inQueue => ?_
      rw [booked.known_not_found (by rw [reading]; rfl) inQueue] at found
      cases found
    rw [decide_eq_false notAnnounced, notKnown, found]
    rfl
  · rw [decide_eq_true announced, booked.announced_not_found announced]
    rfl

theorem sorted (booked : Booked boot history process) {rows : List DeploymentQueueJobRow}
    (reading : process.restoring = .reading rows) : Booked boot (history ++ []) (process.sortRows rows) := by
  have phase := booked.phase
  rw [reading] at phase
  have batch : sortLeftovers (process.leftovers rows) = boot.batch := by
    rw [booked.leftovers_found reading]
    rfl
  refine booked.restoringTo rfl (fun _ mentioned => mentioned) (fun _ member => member) ?_ ?_
  · rw [reading]
    refine ⟨rfl, ?_⟩
    split <;> rfl
  · rw [batch]
    split
    · rename_i nothing
      refine ⟨rfl, phase.2.1.trans ?_⟩
      refine (List.filter_eq_self.mpr fun row member => ?_).symm
      have kept := List.filter_eq_nil_iff.mp nothing row member
      rw [Bool.not_eq_true] at kept
      rw [kept]
      rfl
    · exact ⟨rfl, phase.2.1⟩

theorem keep_of_drop (boot : Boot) :
    (boot.table.rows.filter fun row => !decide (row.key ∈ boot.batch.dropIds)) = boot.batch.keep := by
  refine List.filter_congr fun row member => ?_
  congr 1
  cases given : givenUp row with
  | true => exact decide_eq_true (List.mem_map_of_mem (List.mem_filter.mpr ⟨member, given⟩))
  | false =>
      refine decide_eq_false fun inDrop => ?_
      rcases List.mem_map.mp inDrop with ⟨other, otherMember, sameKey⟩
      rcases List.mem_filter.mp otherMember with ⟨inRows, otherGiven⟩
      rw [List.inj_on_of_nodup_map boot.table.unique inRows member sameKey, given] at otherGiven
      cases otherGiven

theorem dropped (booked : Booked boot history process) {batch : Batch}
    (dropping : process.restoring = .dropping batch false) :
    Booked boot (history ++ [])
      { process with table := process.table.deleteQueueJobs batch.dropIds, restoring := .dropping batch true } := by
  have phase := booked.phase
  rw [dropping] at phase
  refine booked.restoringTo rfl (fun _ mentioned => mentioned) (fun journalId member => ?_) ?_ ⟨phase.1, ?_⟩
  · rw [JournalTable.deleteQueueJobs, SerialTable.keys_deleteWhere] at member
    exact (List.mem_filter.mp member).1
  · rw [dropping]
    exact ⟨rfl, rfl⟩
  · rw [JournalTable.deleteQueueJobs, SerialTable.rowsWhere_deleted, phase.2, phase.1]
    exact keep_of_drop boot

theorem requeued (booked : Booked boot history process) {batch : Batch}
    (requeueing : process.restoring = .requeueing batch false) :
    Booked boot (history ++ [.requeued batch.interruptedIds])
      { process with
        table := process.table.requeueInterruptedQueueJobs batch.interruptedIds
        restoring := .requeueing batch true } := by
  have phase := booked.phase
  rw [requeueing] at phase
  refine booked.restoringTo rfl (fun _ mentioned => mentioned) (fun journalId member => ?_) ?_ ⟨phase.1, ?_⟩
  · rw [JournalTable.requeueInterruptedQueueJobs, SerialTable.keys_updateWhere] at member
    exact member
  · rw [requeueing]
    exact ⟨rfl, rfl⟩
  · rw [JournalTable.requeueInterruptedQueueJobs, SerialTable.rowsWhere_updated, phase.2, phase.1]
    rfl

theorem restored_all (booked : Booked boot history process) {batch : Batch} {landed : Bool}
    (requeueing : process.restoring = .requeueing batch landed) :
    (process.queue.createRestored process.queue.knownJournalIds batch.restoredJobs).map InternalJob.origin =
      batch.restoredJobs := by
  have phase := booked.phase
  rw [requeueing] at phase
  have sublist : (batch.keep.map (·.key)).Sublist boot.table.keys := by
    rw [phase.1]
    exact (sortLeftovers_keep_sublist boot.table.rows).map _
  have ids : batch.restoredJobs.map (·.journalId) = batch.keep.map (·.key) := by
    rw [Batch.restoredJobs, List.map_map]
    rfl
  refine createRestored_all _ _ _ (ids ▸ boot.table.unique.sublist sublist) fun job member known => ?_
  have notFound := booked.known_not_found (by rw [requeueing]; rfl) known
  have found : boot.found job.journalId = true :=
    decide_eq_true (sublist.subset (ids ▸ List.mem_map_of_mem member))
  rw [notFound] at found
  cases found

theorem putBack (booked : Booked boot history process) {batch : Batch}
    (requeueing : process.restoring = .requeueing batch true) :
    Booked boot (history ++ (process.putBack batch).2) (process.putBack batch).1 := by
  have phase := booked.phase
  rw [requeueing] at phase
  have accepted : acceptedJournalIds (signalsOf (process.putBack batch).2) = batch.keep.map (·.key) := by
    have whole := congrArg (List.map RestoredJob.journalId) (booked.restored_all requeueing)
    rw [List.map_map, Batch.restoredJobs, List.map_map] at whole
    rw [show signalsOf (process.putBack batch).2 = _ from signalsOf_signals _, acceptedJournalIds]
    refine Eq.trans ?_ whole
    exact congrArg _ (acceptedOf_accepted _)
  have nobodyAnnounced := enqueuedIds_putBack process batch
  constructor <;> rw [signalsOf_append]
  · rw [show signalsOf (process.putBack batch).2 = _ from signalsOf_signals _]
    exact booked.audited.path (path_addRestored _ _)
  · rw [enqueuedIds_append, nobodyAnnounced, List.append_nil, ← booked.drawn]
    change process.drawn ++ enqueuedIds _ = _
    rw [← signalsOf_signals (process.queue.addRestored batch.restoredJobs).signals]
    exact (congrArg _ nobodyAnnounced).trans (List.append_nil _)
  · rw [enqueuedIds_append, nobodyAnnounced, List.append_nil]
    exact booked.distinct
  · rw [enqueuedIds_append, nobodyAnnounced, List.append_nil]
    exact booked.fresh
  · have before := booked.accepted
    rw [requeueing] at before
    rw [acceptedJournalIds_append, enqueuedIds_append, nobodyAnnounced, List.append_nil, accepted]
    refine (before.append_right _).trans (List.Perm.of_eq ?_)
    exact congrArg (· ++ _) (List.append_nil _)
  · intro journalId mentioned
    rw [journal_putBack] at mentioned
    rw [acceptedJournalIds_append]
    exact List.mem_append_left _ (booked.mentions journalId mentioned)
  · rw [enqueuedIds_append, nobodyAnnounced, List.append_nil]
    exact booked.keys
  · exact phase.1

theorem keep_present (booked : Booked boot history process) {batch : Batch}
    (requeueing : process.restoring = .requeueing batch true) {journalId : String}
    (kept : journalId ∈ batch.keep.map (·.key)) : journalId ∈ process.table.keys := by
  have phase := booked.phase
  rw [requeueing] at phase
  rcases List.mem_map.mp kept with ⟨row, member, same⟩
  have inTable : requeuedRow boot.batch.interruptedIds row ∈ process.table.rowsWhere boot.found := by
    rw [phase.2, if_pos rfl, ← phase.1]
    exact List.mem_map_of_mem member
  refine List.mem_map.mpr ⟨_, (List.mem_filter.mp inTable).1, ?_⟩
  rw [requeuedRow_key, same]

theorem change {mayLand : Process -> Nat -> Prop} (booked : Booked boot history process) {output : List Report}
    {after : Process} (change : ProcessChange mayLand process output after) :
    Booked boot (history ++ output) after := by
  cases change with
  | heard proper fresh => exact booked.heard proper fresh
  | started taken =>
      exact booked.journaled (Journal.liveIds_startTask taken) fun _ => Journal.mentions_startTask taken
  | timedOut expired => exact booked.timedOut expired
  | landed now done allowed => exact booked.landed now done
  | answered closed =>
      exact booked.journaled (Journal.liveIds_answer closed) fun _ => Journal.mentions_answer closed
  | advanced onward => exact booked.advanced onward
  | sorted reading => exact booked.sorted reading
  | dropped dropping => exact booked.dropped dropping
  | requeued requeueing => exact booked.requeued requeueing
  | putBack requeueing => exact booked.putBack requeueing

end Booked

private theorem hear_nothing (process : Process) : process.hear process.queue [] = (process, []) := by
  have nothing : process.drawn ++ enqueuedIds [] = process.drawn := List.append_nil _
  simp only [Process.hear, nothing, List.map_nil]
  rfl

private theorem hear_twice (process : Process) (middle queue : InMemoryQueue) (earlier later : List Signal) :
    process.hear queue (earlier ++ later) =
      (((process.hear middle earlier).1.hear queue later).1,
        (process.hear middle earlier).2 ++ ((process.hear middle earlier).1.hear queue later).2) := by
  simp only [Process.hear, Journal.notifyAll_append, enqueuedIds_append, List.append_assoc, List.map_append]

theorem path_heard {mayLand : Process -> Nat -> Prop} {process : Process} {queue : InMemoryQueue}
    {signals : List Signal} (path : Machine.Path ProperChange process.queue signals queue)
    (fresh : forall journalId, journalId ∈ enqueuedIds signals -> journalId ∉ process.drawn)
    (distinct : (enqueuedIds signals).Nodup) :
    Machine.Path (ProcessChange mayLand) process (process.hear queue signals).2 (process.hear queue signals).1 := by
  generalize origin : process.queue = first at path
  induction path with
  | refl =>
      rw [← origin, hear_nothing]
      exact Machine.Path.refl process
  | @tail middle last output more earlier proper ih =>
      subst origin
      rw [enqueuedIds_append] at fresh distinct
      have before := ih (fun journalId member => fresh journalId (List.mem_append_left _ member))
        distinct.of_append_left
      rw [hear_twice process middle last output more]
      refine Machine.Path.tail before (ProcessChange.heard proper fun journalId member drawn => ?_)
      rcases List.mem_append.mp drawn with old | new
      · exact fresh journalId (List.mem_append_right _ member) old
      · exact List.disjoint_of_nodup_append distinct new member

variable {mayLand : Process -> Nat -> Prop}

private theorem restoreStep_changes {process after : Process}
    {event : RestoreEvent} {output : List Report} (succeeds : Succeeds (.restore event))
    (stepped : process.restoreStep event = some (after, output)) :
    Machine.Path (ProcessChange mayLand) process output after := by
  have onward : forall {restoring : Restoring},
      some (({ process with restoring := restoring }, []) : Process × List Report) = some (after, output) ->
      ((process.restoring = .notCalled ∧ restoring = .marking) ∨
        (process.restoring = .marking ∧ restoring = .listing) ∨
        (process.restoring = .listing ∧ restoring = .reading process.table.listQueueJobs) ∨
        Exists fun batch => process.restoring = .dropping batch true ∧ restoring = .requeueing batch false) ->
      Machine.Path (ProcessChange mayLand) process output after := by
    intro restoring same moves
    rcases Prod.mk.inj (Option.some.inj same) with ⟨sameAfter, sameOutput⟩
    subst sameAfter sameOutput
    exact Machine.Path.single (ProcessChange.advanced moves)
  cases event with
  | listFailed => exact succeeds.elim
  | removeFailed => exact succeeds.elim
  | requeueFailed => exact succeeds.elim
  | called =>
      simp only [Process.restoreStep] at stepped
      split at stepped
      · rename_i phase
        exact onward stepped (Or.inl ⟨phase, rfl⟩)
      · rcases Prod.mk.inj (Option.some.inj stepped) with ⟨sameAfter, sameOutput⟩
        subst sameAfter sameOutput
        exact Machine.Path.refl process
  | marked =>
      simp only [Process.restoreStep] at stepped
      split at stepped
      · rename_i phase
        exact onward stepped (Or.inr (Or.inl ⟨phase, rfl⟩))
      · cases stepped
  | listed =>
      simp only [Process.restoreStep] at stepped
      split at stepped
      · rename_i phase
        exact onward stepped (Or.inr (Or.inr (Or.inl ⟨phase, rfl⟩)))
      · cases stepped
  | removeReturned =>
      simp only [Process.restoreStep] at stepped
      split at stepped
      · rename_i batch phase
        exact onward stepped (Or.inr (Or.inr (Or.inr ⟨batch, phase, rfl⟩)))
      · cases stepped
  | listReturned =>
      simp only [Process.restoreStep] at stepped
      split at stepped
      · rename_i rows phase
        rcases Prod.mk.inj (Option.some.inj stepped) with ⟨sameAfter, sameOutput⟩
        subst sameAfter sameOutput
        exact Machine.Path.single (ProcessChange.sorted phase)
      · cases stepped
  | removed =>
      simp only [Process.restoreStep] at stepped
      split at stepped
      · rename_i batch phase
        rcases Prod.mk.inj (Option.some.inj stepped) with ⟨sameAfter, sameOutput⟩
        subst sameAfter sameOutput
        exact Machine.Path.single (ProcessChange.dropped phase)
      · cases stepped
  | requeued =>
      simp only [Process.restoreStep] at stepped
      split at stepped
      · rename_i batch phase
        rcases Prod.mk.inj (Option.some.inj stepped) with ⟨sameAfter, sameOutput⟩
        subst sameAfter sameOutput
        exact Machine.Path.single (ProcessChange.requeued phase)
      · cases stepped
  | requeueReturned =>
      simp only [Process.restoreStep] at stepped
      split at stepped
      · rename_i batch phase
        rcases Prod.mk.inj (Option.some.inj stepped) with ⟨sameAfter, sameOutput⟩
        rw [← sameAfter, ← sameOutput]
        exact Machine.Path.single (ProcessChange.putBack phase)
      · cases stepped

theorem step_changes {boot : Boot} {history output : List Report}
    {process after : Process} {event : ProcessEvent} (booked : Booked boot history process)
    (allowed : Environment mayLand process event) (stepped : process.step event = some (after, output)) :
    Machine.Path (ProcessChange mayLand) process output after := by
  have journaled : forall {journal : Option Journal},
      (journal.map fun journal => (({ process with journal := journal }, []) : Process × List Report)) =
        some (after, output) ->
      Exists fun taken => journal = some taken ∧ after = { process with journal := taken } ∧ output = [] := by
    intro journal mapped
    rcases Option.map_eq_some_iff.mp mapped with ⟨taken, found, same⟩
    exact ⟨taken, found, (Prod.mk.inj same).1.symm, (Prod.mk.inj same).2.symm⟩
  cases event with
  | queue event =>
      have called : Exists fun queue => Exists fun signals => DeployQueue.step process.queue event = some (queue, signals) ∧
          (forall jobs, event ≠ .addRestored jobs) ∧ process.hear queue signals = (after, output) := by
        unfold Process.step at stepped
        split at stepped
        · cases stepped
        · rename_i notRestored same
          cases same
          split at stepped
          · cases stepped
          · rename_i queue signals reaction
            exact ⟨queue, signals, reaction, notRestored, Option.some.inj stepped⟩
        all_goals rename_i same; cases same
      rcases called with ⟨queue, signals, reaction, notRestored, same⟩
      have ids := enqueuedIds_step reaction
      have lifted := @path_heard mayLand process queue signals (step_proper booked.audited.placed reaction notRestored)
        (ids ▸ allowed.fresh) (by rw [ids]; cases event <;> first | exact List.nodup_nil | exact List.nodup_singleton _)
      rw [same] at lifted
      exact lifted
  | startTask =>
      rcases journaled stepped with ⟨journal, found, sameAfter, sameOutput⟩
      subst sameAfter sameOutput
      exact Machine.Path.single (ProcessChange.started found)
  | timeout =>
      rcases journaled stepped with ⟨journal, found, sameAfter, sameOutput⟩
      subst sameAfter sameOutput
      exact Machine.Path.single (ProcessChange.timedOut found)
  | land ticket now =>
      simp only [Process.step] at stepped
      split at stepped
      · cases stepped
      · rename_i journal write found
        rcases Prod.mk.inj (Option.some.inj stepped) with ⟨sameAfter, sameOutput⟩
        subst sameAfter sameOutput
        exact Machine.Path.single (ProcessChange.landed now found allowed.lands)
  | answer ticket =>
      rcases journaled stepped with ⟨journal, found, sameAfter, sameOutput⟩
      subst sameAfter sameOutput
      exact Machine.Path.single (ProcessChange.answered found)
  | fail ticket => exact allowed.succeeds.elim
  | restore event => exact restoreStep_changes allowed.succeeds stepped

/-- The invariant rule of a process: with the accounts in order before and
after, it is enough to look at one primitive change. -/
theorem process_invariant {boot : Boot}
    (holds : List Report -> Process -> Prop) (initially : holds [] (Process.start boot))
    (preserved : forall history before output after, Booked boot history before ->
      Booked boot (history ++ output) after -> holds history before ->
      ProcessChange mayLand before output after -> holds (history ++ output) after)
    {history : List Report} {process : Process}
    (run : (processMachine boot).Run (Environment mayLand) history process) :
    Booked boot history process ∧ holds history process :=
  run.invariant_of_primitive (fun history process => Booked boot history process ∧ holds history process)
    (fun _ _ _ _ _ held allowed stepped => step_changes held.1 allowed stepped)
    ⟨booked_start boot, initially⟩
    (fun _ _ _ _ held change =>
      ⟨held.1.change change, preserved _ _ _ _ held.1 (held.1.change change) held.2 change⟩)

end QueueJournal
end Dokploy
