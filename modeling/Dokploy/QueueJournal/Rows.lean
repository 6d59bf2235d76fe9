import Dokploy.QueueJournal.Accounts

namespace Dokploy
namespace QueueJournal

open Foundation DeployQueue
open Journal (Unanswered SettlesIn writesOf)

/-!
# No row is lost, none comes back

A delete can reach the table before the insert of its job.  The settle task
therefore looks for inserts that were not answered yet, and has the delete
repeated after each of them.  The invariant says when the journal is sure to
delete a settled job once more: as long as its row is in the table, or its
insert can still put it there.

Nothing is assumed about the order in which calls land.
-/

namespace Journal

/-- The journal is going to delete the row of the job. -/
def Deletes (journal : Journal) (journalId : String) : Prop :=
  (Exists fun write => write ∈ journal.pending ∧ write.removes journalId) ∨
    Exists fun ticket => (ticket, journalId) ∈ journal.lateDeletes

end Journal

/-- What the journal keeps in mind, given the ids of the jobs that were
announced, accepted and settled so far. -/
structure Kept (announced accepted settled : List String) (journal : Journal) (table : JournalTable) : Prop where
  issued : insertedIds (writesOf journal.calls) ++ insertedIds (journal.chain.map Task.write) = announced
  recorded : forall ticket journalId payload, Unanswered journal.calls ticket (.insert journalId payload) ->
    journal.inFlightInserts journalId = some ticket
  flying : forall ticket journalId, journal.inFlightInserts journalId = some ticket ->
    Exists fun payload => Unanswered journal.calls ticket (.insert journalId payload)
  registered : forall ticket journalId, (ticket, journalId) ∈ journal.lateDeletes ->
    Exists fun payload => Unanswered journal.calls ticket (.insert journalId payload)
  /-- No insert waits in the chain behind a delete of its job. -/
  ordered : journal.chain.Pairwise fun earlier later =>
    forall journalId, journalId ∈ later.write.inserted -> ¬ earlier.write.removes journalId
  deleting : forall journalId, journal.Deletes journalId -> journalId ∈ settled
  owed : forall journalId, journalId ∈ accepted -> journalId ∉ settled ->
    journalId ∈ table.keys ∨ journalId ∈ insertedIds journal.pending
  settling : forall journalId, journalId ∈ settled ->
    journalId ∈ insertedIds (journal.chain.map Task.write) -> SettlesIn journal.chain journalId
  covered : forall ticket journalId payload, journalId ∈ settled ->
    Unanswered journal.calls ticket (.insert journalId payload) ->
    SettlesIn journal.chain journalId ∨ (ticket, journalId) ∈ journal.lateDeletes
  gone : forall journalId, journalId ∈ settled -> journalId ∈ table.keys -> journal.Deletes journalId

theorem Journal.SettlesIn.deletes {journal : Journal} {journalId : String}
    (settles : SettlesIn journal.chain journalId) : journal.Deletes journalId := by
  rcases settles with ⟨jobIds, member, inTask⟩
  exact Or.inl ⟨_, Journal.mem_pending_chain member, inTask⟩

theorem kept_new (table : JournalTable) : Kept [] [] [] Journal.new table where
  issued := rfl
  recorded := by
    rintro ticket journalId payload ⟨phase, _, here⟩
    cases here
  flying := fun _ _ impossible => by cases impossible
  registered := fun _ _ member => by cases member
  ordered := List.Pairwise.nil
  deleting := by
    rintro journalId (⟨write, member, _⟩ | ⟨ticket, member⟩)
    · cases member
    · cases member
  owed := fun _ member => by cases member
  settling := fun _ member => by cases member
  covered := fun _ _ _ member => by cases member
  gone := fun _ member => by cases member

namespace Kept

variable {announced accepted settled : List String} {journal after : Journal} {table : JournalTable}

theorem told (kept : Kept announced accepted settled journal table) {tasks : List Task} {gone : List String}
    (live : Option (List String)) (single : tasks.length ≤ 1)
    (fresh : forall journalId, journalId ∈ insertedIds (tasks.map Task.write) -> journalId ∉ accepted)
    (known : forall journalId, journalId ∈ settled -> journalId ∈ accepted)
    (settles : forall journalId, journalId ∈ gone -> SettlesIn tasks journalId)
    (removes : forall task journalId, task ∈ tasks -> task.write.removes journalId -> journalId ∈ gone) :
    Kept (announced ++ insertedIds (tasks.map Task.write)) (accepted ++ insertedIds (tasks.map Task.write))
      (settled ++ gone) { journal with chain := journal.chain ++ tasks, liveIds := live } table := by
  have pending : Journal.pending { journal with chain := journal.chain ++ tasks, liveIds := live } =
      journal.pending ++ tasks.map Task.write := by
    rw [Journal.pending, Journal.pending, List.map_append, List.append_assoc]
  have deletes : forall journalId, journal.Deletes journalId ->
      Journal.Deletes { journal with chain := journal.chain ++ tasks, liveIds := live } journalId := by
    rintro journalId (⟨write, member, removed⟩ | late)
    · exact Or.inl ⟨write, by rw [pending]; exact List.mem_append_left _ member, removed⟩
    · exact Or.inr late
  have now : forall journalId, journalId ∈ gone -> SettlesIn (journal.chain ++ tasks) journalId :=
    fun journalId member => (settles journalId member).append_right _
  constructor
  case issued => rw [List.map_append, insertedIds_append, ← List.append_assoc, kept.issued]
  case recorded => exact kept.recorded
  case flying => exact kept.flying
  case registered => exact kept.registered
  case ordered =>
    refine List.pairwise_append.mpr ⟨kept.ordered, ?_, fun earlier member later inTasks journalId inserted removed => ?_⟩
    · rcases tasks with _ | ⟨task, _ | ⟨other, more⟩⟩
      · exact List.Pairwise.nil
      · exact List.pairwise_singleton _ _
      · exact absurd single (by simp)
    · apply fresh journalId
      · exact List.mem_flatMap.mpr ⟨_, List.mem_map_of_mem inTasks, inserted⟩
      · exact known journalId (kept.deleting journalId (Or.inl ⟨_, Journal.mem_pending_chain member, removed⟩))
  case deleting =>
    rintro journalId (⟨write, member, removed⟩ | late)
    · rw [pending] at member
      rcases List.mem_append.mp member with old | new
      · exact List.mem_append_left _ (kept.deleting journalId (Or.inl ⟨write, old, removed⟩))
      · rcases List.mem_map.mp new with ⟨task, inTasks, same⟩
        exact List.mem_append_right _ (removes task journalId inTasks (same ▸ removed))
    · exact List.mem_append_left _ (kept.deleting journalId (Or.inr late))
  case owed =>
    intro journalId member unsettled
    rw [pending, insertedIds_append]
    rcases List.mem_append.mp member with old | new
    · exact (kept.owed journalId old fun inSettled => unsettled (List.mem_append_left _ inSettled)).imp_right
        (List.mem_append_left _)
    · exact Or.inr (List.mem_append_right _ new)
  case settling =>
    intro journalId member inserted
    rcases List.mem_append.mp member with old | new
    · rw [List.map_append, insertedIds_append] at inserted
      rcases List.mem_append.mp inserted with before | fromNow
      · exact (kept.settling journalId old before).append_left _
      · exact absurd (known journalId old) (fresh journalId fromNow)
    · exact now journalId new
  case covered =>
    intro ticket journalId payload member unanswered
    rcases List.mem_append.mp member with old | new
    · exact (kept.covered ticket journalId payload old unanswered).imp_left (SettlesIn.append_left · _)
    · exact Or.inl (now journalId new)
  case gone =>
    intro journalId member present
    rcases List.mem_append.mp member with old | new
    · exact deletes journalId (kept.gone journalId old present)
    · exact Journal.SettlesIn.deletes (now journalId new)

theorem started (kept : Kept announced accepted settled journal table) (distinct : announced.Nodup)
    (taken : journal.startTask = some after) : Kept announced accepted settled after table := by
  have pending := Journal.pending_startTask taken
  rcases Journal.started_of_startTask taken with ⟨task, started⟩
  have queued : forall other, other ∈ after.chain -> other ∈ journal.chain := by
    intro other member
    rw [started.chain]
    exact List.mem_cons_of_mem _ member
  have head : task ∈ journal.chain := by
    rw [started.chain]
    exact List.mem_cons_self
  -- An insert is not sent while an earlier one of its job is unanswered.
  have alone : forall {journalId ticket payload}, journalId ∈ task.write.inserted ->
      ¬ Unanswered journal.calls ticket (.insert journalId payload) := by
    intro journalId ticket payload inserted unanswered
    rw [← kept.issued, started.chain] at distinct
    refine List.disjoint_of_nodup_append distinct (a := journalId) ?_ ?_
    · exact List.mem_flatMap.mpr ⟨_, unanswered.mem_writesOf, List.mem_cons_self⟩
    · exact List.mem_flatMap.mpr ⟨_, List.mem_cons_self, inserted⟩
  have deletes : forall journalId, after.Deletes journalId <-> journal.Deletes journalId := by
    intro journalId
    rw [Journal.Deletes, Journal.Deletes, pending]
    constructor
    · rintro (here | ⟨ticket, late⟩)
      · exact Or.inl here
      · rcases (started.late ticket journalId).mp late with old | ⟨jobIds, same, inTask, _⟩
        · exact Or.inr ⟨ticket, old⟩
        · subst same
          exact Or.inl ⟨_, Journal.mem_pending_chain head, inTask⟩
    · rintro (here | ⟨ticket, late⟩)
      · exact Or.inl here
      · exact Or.inr ⟨ticket, (started.late ticket journalId).mpr (Or.inl late)⟩
  -- A settle task that is not the one just started is still in the chain.
  have settles : forall {journalId}, SettlesIn journal.chain journalId ->
      SettlesIn after.chain journalId ∨ Exists fun jobIds => task = .settle jobIds ∧ journalId ∈ jobIds := by
    rintro journalId ⟨jobIds, member, inTask⟩
    rw [started.chain] at member
    rcases List.mem_cons.mp member with same | later
    · exact Or.inr ⟨jobIds, same.symm, inTask⟩
    · exact Or.inl ⟨jobIds, later, inTask⟩
  constructor
  case issued =>
    rw [← kept.issued, started.chain, started.calls]
    simp only [writesOf, List.map_append, List.map_cons, List.map_nil, insertedIds, List.flatMap_append,
      List.flatMap_cons, List.flatMap_nil, List.append_nil, List.append_assoc]
  case recorded =>
    intro ticket journalId payload unanswered
    rw [started.calls, Journal.unanswered_snoc] at unanswered
    rw [started.inserts]
    rcases unanswered with old | ⟨sameTicket, sameWrite⟩
    · exact Or.inr ⟨fun inserted => alone inserted old, kept.recorded ticket journalId payload old⟩
    · exact Or.inl ⟨sameWrite ▸ List.mem_cons_self, sameTicket⟩
  case flying =>
    intro ticket journalId recorded
    rcases (started.inserts journalId ticket).mp recorded with ⟨inserted, sameTicket⟩ | ⟨_, old⟩
    · rcases Write.mem_inserted.mp inserted with ⟨payload, sameWrite⟩
      refine ⟨payload, ?_⟩
      rw [started.calls, Journal.unanswered_snoc]
      exact Or.inr ⟨sameTicket, sameWrite.symm⟩
    · rcases kept.flying ticket journalId old with ⟨payload, unanswered⟩
      refine ⟨payload, ?_⟩
      rw [started.calls, Journal.unanswered_snoc]
      exact Or.inl unanswered
  case registered =>
    intro ticket journalId late
    have earlier : Exists fun payload => Unanswered journal.calls ticket (.insert journalId payload) := by
      rcases (started.late ticket journalId).mp late with old | ⟨_, _, _, recorded⟩
      · exact kept.registered ticket journalId old
      · exact kept.flying ticket journalId recorded
    rcases earlier with ⟨payload, unanswered⟩
    refine ⟨payload, ?_⟩
    rw [started.calls, Journal.unanswered_snoc]
    exact Or.inl unanswered
  case ordered =>
    have whole := kept.ordered
    rw [started.chain] at whole
    exact (List.pairwise_cons.mp whole).2
  case deleting => exact fun journalId doomed => kept.deleting journalId ((deletes journalId).mp doomed)
  case owed =>
    rw [pending]
    exact kept.owed
  case settling =>
    intro journalId member inserted
    have before : journalId ∈ insertedIds (journal.chain.map Task.write) := by
      rw [started.chain]
      exact List.mem_append_right _ inserted
    refine (settles (kept.settling journalId member before)).resolve_right ?_
    rintro ⟨jobIds, same, inTask⟩
    rcases List.mem_flatMap.mp inserted with ⟨write, inRest, isInsert⟩
    rcases List.mem_map.mp inRest with ⟨later, laterMember, sameWrite⟩
    have whole := kept.ordered
    rw [started.chain] at whole
    apply (List.pairwise_cons.mp whole).1 later laterMember journalId (sameWrite ▸ isInsert)
    rw [same]
    exact inTask
  case covered =>
    intro ticket journalId payload member unanswered
    rw [started.calls, Journal.unanswered_snoc] at unanswered
    rw [started.late]
    rcases unanswered with old | ⟨_, sameWrite⟩
    · rcases kept.covered ticket journalId payload member old with inChain | late
      · rcases settles inChain with still | ⟨jobIds, same, inTask⟩
        · exact Or.inl still
        · exact Or.inr (Or.inr ⟨jobIds, same, inTask, kept.recorded ticket journalId payload old⟩)
      · exact Or.inr (Or.inl late)
    · have inserted : journalId ∈ task.write.inserted := sameWrite ▸ List.mem_cons_self
      have before : journalId ∈ insertedIds (journal.chain.map Task.write) := by
        rw [started.chain]
        exact List.mem_append_left _ inserted
      refine Or.inl ((settles (kept.settling journalId member before)).resolve_right ?_)
      rintro ⟨jobIds, same, inTask⟩
      rw [same] at inserted
      cases inserted
  case gone => exact fun journalId member present => (deletes journalId).mpr (kept.gone journalId member present)

theorem landed (kept : Kept announced accepted settled journal table) {ticket : Nat} {write : Write} (now : Nat)
    (done : journal.land ticket = some (after, write)) :
    Kept announced accepted settled after (table.perform now write) := by
  rcases Journal.land_some done with ⟨found, same⟩
  rcases Journal.pending_land done with ⟨later, whole, rest⟩
  have unsent : CallPhase.sent ≠ .answered := fun impossible => CallPhase.noConfusion impossible
  have unanswered : forall {other sent}, Unanswered after.calls other sent <-> Unanswered journal.calls other sent := by
    intro other sent
    rw [same]
    refine (Journal.unanswered_set found unsent).trans (and_iff_left fun _ impossible => ?_)
    cases impossible
  have chain : after.chain = journal.chain := by rw [same]
  have late : after.lateDeletes = journal.lateDeletes := by rw [same]
  have inserts : after.inFlightInserts = journal.inFlightInserts := by rw [same]
  have fewer : forall {journalId}, after.Deletes journalId -> journal.Deletes journalId := by
    rintro journalId (⟨other, member, removed⟩ | ⟨other, registered⟩)
    · refine Or.inl ⟨other, ?_, removed⟩
      rw [whole]
      rw [rest] at member
      rcases List.mem_append.mp member with first | second
      · exact List.mem_append_left _ first
      · exact List.mem_append_right _ (List.mem_cons_of_mem _ second)
    · exact Or.inr ⟨other, late ▸ registered⟩
  constructor
  case issued =>
    rw [← kept.issued, chain, same]
    dsimp only
    rw [Journal.writesOf_set _ found]
  case recorded =>
    intro other journalId payload stillOpen
    rw [inserts]
    exact kept.recorded other journalId payload (unanswered.mp stillOpen)
  case flying =>
    intro other journalId recorded
    rw [inserts] at recorded
    exact (kept.flying other journalId recorded).imp fun _ => unanswered.mpr
  case registered =>
    intro other journalId registered
    rw [late] at registered
    exact (kept.registered other journalId registered).imp fun _ => unanswered.mpr
  case ordered =>
    rw [chain]
    exact kept.ordered
  case deleting => exact fun journalId deletes => kept.deleting journalId (fewer deletes)
  case owed =>
    intro journalId member unsettled
    rw [JournalTable.mem_keys_perform]
    rcases kept.owed journalId member unsettled with present | inserted
    · refine Or.inl (Or.inr ⟨present, fun removed => unsettled ?_⟩)
      exact kept.deleting journalId (Or.inl ⟨write, Journal.mem_pending_land done, removed⟩)
    · rw [whole, insertedIds_append] at inserted
      rw [rest, insertedIds_append]
      rcases List.mem_append.mp inserted with first | second
      · exact Or.inr (List.mem_append_left _ first)
      · rcases List.mem_append.mp second with here | third
        · exact Or.inl (Or.inl here)
        · exact Or.inr (List.mem_append_right _ third)
  case settling =>
    rw [chain]
    exact kept.settling
  case covered =>
    intro other journalId payload member stillOpen
    rw [chain, late]
    exact kept.covered other journalId payload member (unanswered.mp stillOpen)
  case gone =>
    intro journalId member present
    rcases JournalTable.mem_keys_perform.mp present with inserted | ⟨old, spared⟩
    · rcases Write.mem_inserted.mp inserted with ⟨payload, sameWrite⟩
      subst sameWrite
      rcases kept.covered ticket journalId payload member ⟨.sent, unsent, found⟩ with settles | registered
      · exact Journal.SettlesIn.deletes (chain ▸ settles)
      · exact Or.inr ⟨ticket, late ▸ registered⟩
    · rcases kept.gone journalId member old with ⟨other, pending, removed⟩ | ⟨other, registered⟩
      · refine Or.inl ⟨other, ?_, removed⟩
        rw [whole] at pending
        rw [rest]
        rcases List.mem_append.mp pending with first | second
        · exact List.mem_append_left _ first
        · rcases List.mem_cons.mp second with here | third
          · exact absurd (here ▸ removed) spared
          · exact List.mem_append_right _ third
      · exact Or.inr ⟨other, late ▸ registered⟩

theorem answered (kept : Kept announced accepted settled journal table) {ticket : Nat}
    (closed : journal.answer ticket = some after) : Kept announced accepted settled after table := by
  have answered := Journal.answered_of_answer closed
  rcases answered.calls with ⟨write, found, calls⟩
  have pending := Journal.pending_answer closed
  have unanswered : forall {other sent}, Unanswered after.calls other sent <->
      Unanswered journal.calls other sent ∧ other ≠ ticket := by
    intro other sent
    rw [calls]
    refine (Journal.unanswered_set found fun impossible => CallPhase.noConfusion impossible).trans ?_
    exact and_congr_right fun _ => ⟨fun notHere same => notHere same rfl, fun notHere same => absurd same notHere⟩
  have noInserts : insertedIds ((journal.lateFor ticket).map Task.write) = [] := by
    refine List.flatMap_eq_nil_iff.mpr fun write member => ?_
    rcases List.mem_map.mp member with ⟨task, inLate, same⟩
    rcases Journal.mem_lateFor inLate with ⟨_, _, isLate⟩
    rw [← same, isLate]
    rfl
  -- A delete that waited for this answer has moved to the chain.
  have deletes : forall {journalId}, after.Deletes journalId <-> journal.Deletes journalId := by
    intro journalId
    rw [Journal.Deletes, Journal.Deletes, pending]
    constructor
    · rintro (⟨other, member, removed⟩ | ⟨other, registered⟩)
      · rcases List.mem_append.mp member with old | new
        · exact Or.inl ⟨other, old, removed⟩
        · rcases List.mem_map.mp new with ⟨task, inLate, same⟩
          rcases Journal.mem_lateFor inLate with ⟨lateId, registered, isLate⟩
          rw [← same, isLate] at removed
          rw [List.mem_singleton.mp removed]
          exact Or.inr ⟨ticket, registered⟩
      · exact Or.inr ⟨other, ((answered.late other journalId).mp registered).1⟩
    · rintro (⟨other, member, removed⟩ | ⟨other, registered⟩)
      · exact Or.inl ⟨other, List.mem_append_left _ member, removed⟩
      · by_cases here : other = ticket
        · subst here
          refine Or.inl ⟨.remove [journalId], List.mem_append_right _ ?_, List.mem_cons_self⟩
          refine List.mem_map.mpr ⟨.settleLate journalId, List.mem_map.mpr ⟨(other, journalId), ?_, rfl⟩, rfl⟩
          exact List.mem_filter.mpr ⟨registered, beq_self_eq_true other⟩
        · exact Or.inr ⟨other, (answered.late other journalId).mpr ⟨registered, here⟩⟩
  constructor
  case issued =>
    rw [← kept.issued, calls, Journal.writesOf_set _ found, answered.chain, List.map_append, insertedIds_append,
      noInserts, List.append_nil]
  case recorded =>
    intro other journalId payload stillOpen
    rcases unanswered.mp stillOpen with ⟨before, notHere⟩
    exact answered.kept journalId other (kept.recorded other journalId payload before) notHere
  case flying =>
    intro other journalId recorded
    rcases answered.inserts journalId other recorded with ⟨before, notThis⟩
    rcases kept.flying other journalId before with ⟨payload, stillOpen⟩
    refine ⟨payload, unanswered.mpr ⟨stillOpen, fun here => ?_⟩⟩
    exact notThis here payload (here ▸ stillOpen)
  case registered =>
    intro other journalId registered
    rcases (answered.late other journalId).mp registered with ⟨before, notHere⟩
    exact (kept.registered other journalId before).imp fun _ stillOpen => unanswered.mpr ⟨stillOpen, notHere⟩
  case ordered =>
    rw [answered.chain]
    refine List.pairwise_append.mpr ⟨kept.ordered, ?_, ?_⟩
    · refine List.pairwise_of_forall_mem_list fun earlier _ later inLate journalId inserted => ?_
      rcases Journal.mem_lateFor inLate with ⟨_, _, same⟩
      rw [same] at inserted
      cases inserted
    · intro earlier _ later inLate journalId inserted
      rcases Journal.mem_lateFor inLate with ⟨_, _, same⟩
      rw [same] at inserted
      cases inserted
  case deleting => exact fun journalId doomed => kept.deleting journalId (deletes.mp doomed)
  case owed =>
    rw [pending, insertedIds_append, noInserts, List.append_nil]
    exact kept.owed
  case settling =>
    rw [answered.chain, List.map_append, insertedIds_append, noInserts, List.append_nil]
    exact fun journalId member inserted => (kept.settling journalId member inserted).append_left _
  case covered =>
    intro other journalId payload member stillOpen
    rcases unanswered.mp stillOpen with ⟨before, notHere⟩
    rw [answered.chain, answered.late]
    exact (kept.covered other journalId payload member before).imp (SettlesIn.append_left · _) fun registered =>
      ⟨registered, notHere⟩
  case gone => exact fun journalId member present => deletes.mpr (kept.gone journalId member present)

/-- The restore changes the table or forgets the live ids, and may put jobs back
whose rows are there. -/
theorem restored (kept : Kept announced accepted settled journal table) {changed : JournalTable}
    {more : List String} (live : Option (List String))
    (keys : forall journalId, journalId ∈ changed.keys -> journalId ∈ table.keys)
    (spared : forall journalId, journalId ∈ accepted -> journalId ∈ table.keys -> journalId ∈ changed.keys)
    (present : forall journalId, journalId ∈ more -> journalId ∈ accepted ∨ journalId ∈ changed.keys) :
    Kept announced more settled { journal with liveIds := live } changed := by
  refine ⟨kept.issued, kept.recorded, kept.flying, kept.registered, kept.ordered, kept.deleting, ?_, kept.settling,
    kept.covered, fun journalId member inTable => kept.gone journalId member (keys journalId inTable)⟩
  intro journalId member unsettled
  rcases present journalId member with old | inTable
  · exact (kept.owed journalId old unsettled).imp_left (spared journalId old)
  · exact Or.inl inTable

end Kept

/-- The books of the process and its journal agree. -/
def KeptBy (history : List Report) (process : Process) : Prop :=
  Kept (enqueuedIds (signalsOf history)) (acceptedJournalIds (signalsOf history))
    (settledJournalIds (signalsOf history)) process.journal process.table

theorem KeptBy.heard {boot : Boot} {history : List Report} {process : Process}
    (kept : KeptBy history process) (booked : Booked boot history process) {queue : InMemoryQueue}
    {signals : List Signal} (after : Booked boot (history ++ (process.hear queue signals).2) (process.hear queue signals).1)
    (proper : ProperChange process.queue signals queue) :
    KeptBy (history ++ (process.hear queue signals).2) (process.hear queue signals).1 := by
  have single := Journal.tasks_of_notice (notice_of_change booked.audited booked.acceptedNodup proper)
  have distinct := after.acceptedNodup
  rw [signalsOf_append, signalsOf_hear, acceptedJournalIds_append, proper.2] at distinct
  have told := kept.told (process.journal.liveIds.map (· ++ enqueuedIds signals)) single
    (fun journalId inserted old => List.disjoint_of_nodup_append distinct old (by rwa [Journal.inserted_taskOf] at inserted))
    (fun _ => booked.audited.settledJournalIds_accepted)
    (fun _ => Journal.settlesIn_taskOf.mp) (fun _ _ => Journal.removes_taskOf)
  rw [Journal.inserted_taskOf] at told
  have journal : (process.hear queue signals).1.journal = _ := Journal.notifyAll_eq process.journal signals
  rw [KeptBy, signalsOf_append, signalsOf_hear, enqueuedIds_append, acceptedJournalIds_append, proper.2,
    settledJournalIds_append, journal]
  exact told

theorem KeptBy.change {mayLand : Process -> Nat -> Prop} {boot : Boot} {history output : List Report}
    {process after : Process} (booked : Booked boot history process) (next : Booked boot (history ++ output) after)
    (kept : KeptBy history process) (change : ProcessChange mayLand process output after) :
    KeptBy (history ++ output) after := by
  have silent : forall {later : Process}, KeptBy history later -> KeptBy (history ++ []) later := by
    intro later held
    rw [List.append_nil]
    exact held
  cases change with
  | heard proper fresh => exact kept.heard booked next proper
  | started taken => exact silent (Kept.started kept booked.distinct taken)
  | timedOut expired =>
      refine silent ?_
      rw [Journal.timeout_some expired]
      exact ⟨kept.issued, kept.recorded, kept.flying, kept.registered, kept.ordered, kept.deleting, kept.owed,
        kept.settling, kept.covered, kept.gone⟩
  | landed now done allowed => exact silent (Kept.landed kept now done)
  | answered closed => exact silent (Kept.answered kept closed)
  | advanced onward => exact silent kept
  | sorted reading =>
      exact silent (Kept.restored kept none (fun _ member => member) (fun _ _ member => member)
        fun _ member => Or.inl member)
  | @dropped batch dropping =>
      have phase := booked.phase
      rw [dropping] at phase
      refine silent (Kept.restored kept process.journal.liveIds (fun journalId member => ?_) (fun journalId known member => ?_)
        fun _ member => Or.inl member)
      · rw [JournalTable.deleteQueueJobs, SerialTable.keys_deleteWhere] at member
        exact (List.mem_filter.mp member).1
      · rw [JournalTable.deleteQueueJobs, SerialTable.keys_deleteWhere]
        refine List.mem_filter.mpr ⟨member, ?_⟩
        rw [decide_eq_false, Bool.not_false]
        -- What is given up was found, what the journal knows was announced.
        intro given
        rw [booked.mem_accepted, dropping] at known
        have announced := booked.announced_not_found (known.resolve_right List.not_mem_nil)
        rw [phase.1] at given
        rw [Boot.found, decide_eq_true] at announced
        · cases announced
        · exact ((sortLeftovers_drop_sublist boot.table.rows).map _).subset given
  | @requeued batch requeueing =>
      rw [KeptBy, signalsOf_append, show signalsOf [Report.requeued batch.interruptedIds] = [] from rfl, List.append_nil]
      refine Kept.restored kept process.journal.liveIds (fun journalId member => ?_) (fun journalId _ member => ?_)
        fun _ member => Or.inl member
      · rw [JournalTable.requeueInterruptedQueueJobs, SerialTable.keys_updateWhere] at member
        exact member
      · rw [JournalTable.requeueInterruptedQueueJobs, SerialTable.keys_updateWhere]
        exact member
  | @putBack batch requeueing =>
      have unsettled : settledJournalIds (signalsOf (process.putBack batch).2) = [] := by
        rw [settledJournalIds, ← settledOf_notices, notices_putBack]
        rfl
      have phase := booked.phase
      rw [requeueing] at phase
      rw [KeptBy, signalsOf_append, enqueuedIds_append, settledJournalIds_append, unsettled, enqueuedIds_putBack,
        List.append_nil, List.append_nil, journal_putBack, ← signalsOf_append]
      refine Kept.restored kept process.journal.liveIds (fun _ member => member) (fun _ _ member => member)
        fun journalId member => ?_
      rcases next.mem_accepted.mp member with announced | restored
      · rw [signalsOf_append, enqueuedIds_append, enqueuedIds_putBack, List.append_nil] at announced
        exact Or.inl (booked.mem_accepted.mpr (Or.inl announced))
      · have same : (process.putBack batch).1.restoring.putBackIds = batch.keep.map (·.key) := rfl
        exact Or.inr (booked.keep_present requeueing (same ▸ restored))

theorem kept_of_run {mayLand : Process -> Nat -> Prop} {boot : Boot} {history : List Report} {process : Process}
    (run : (processMachine boot).Run (Environment mayLand) history process) :
    Booked boot history process ∧ KeptBy history process :=
  process_invariant KeptBy (kept_new boot.table)
    (fun _ _ _ _ booked next kept change => KeptBy.change booked next kept change) run

theorem Journal.Idle.pending {journal : Journal} (idle : journal.Idle) : journal.pending = [] := by
  have nothingSent : Journal.sentWrites journal.calls = [] := by
    refine List.map_eq_nil_iff.mpr (List.filter_eq_nil_iff.mpr fun call member sent => ?_)
    rw [idle.2 call member] at sent
    cases sent
  rw [Journal.pending, nothingSent, idle.1]
  rfl

theorem Journal.Idle.answered {journal : Journal} (idle : journal.Idle) {ticket : Nat} {write : Write} :
    ¬ Unanswered journal.calls ticket write := by
  rintro ⟨phase, stillOpen, here⟩
  exact stillOpen (idle.2 _ (List.mem_of_getElem? here))

/-- In every run, whatever times out and in whatever order the calls land: once
all calls have been answered, the table holds exactly one row for every job that
waits or runs, and none for a job that was settled. -/
theorem rows_conserved {boot : Boot} {history : List Report} {process : Process}
    (run : (processMachine boot).Run (Environment anyOrder) history process) (idle : process.journal.Idle) :
    (forall key job, job ∈ (process.queue.lane key).waiting ∨ job ∈ (process.queue.lane key).active ->
      process.table.keys.count job.journalId = 1) ∧
    forall job, job ∈ settledOf (signalsOf history) -> job.journalId ∉ process.table.keys := by
  rcases kept_of_run run with ⟨booked, kept⟩
  constructor
  · intro key job member
    rcases remembers_of_member (List.mem_append.mpr member) with ⟨state, remembered⟩
    have owed := kept.owed job.journalId (booked.audited.remembered_accepted remembered)
      (booked.audited.remembered_unsettled booked.acceptedNodup remembered)
    rw [idle.pending] at owed
    exact List.count_eq_one_of_mem process.table.unique (owed.resolve_right List.not_mem_nil)
  · intro job settled present
    rcases kept.gone job.journalId (List.mem_map_of_mem settled) present with
      ⟨write, pending, _⟩ | ⟨ticket, registered⟩
    · rw [idle.pending] at pending
      cases pending
    · rcases kept.registered ticket job.journalId registered with ⟨payload, unanswered⟩
      exact idle.answered unanswered

/-- An insert times out and lands after the delete of its job.  The delete is
repeated, and the row of the other job stays. -/
theorem rows_conserved_late :
    let outcome := (processMachine ⟨SerialTable.empty, []⟩).outcome
      (fun process event => decide (Environment anyOrder process event))
      [.queue (.add (plainDeploy "a" none) "u1" 1), .startTask, .timeout,
        .queue (.add (plainDeploy "b" none) "u2" 2), .queue (.removeWaitingJob 1),
        .startTask, .land 1 3, .answer 1, .startTask, .land 2 4, .answer 2,
        .land 0 5, .answer 0, .startTask, .land 3 6, .answer 3]
    ((outcome.1.queue.lane "__local__").waiting.map (·.journalId) = ["u2"] ∧ outcome.1.table.keys.count "u2" = 1) ∧
      settledJournalIds (signalsOf outcome.2) = ["u1"] ∧
        forall job, job ∈ settledOf (signalsOf outcome.2) -> job.journalId ∉ outcome.1.table.keys := by
  intro outcome
  have idle : outcome.1.journal.chain = [] ∧ forall call, call ∈ outcome.1.journal.calls -> call.phase = .answered := by
    decide
  have conserved := rows_conserved (Machine.run_of_executes
    (fun _ _ allowed => of_decide_eq_true allowed) (by decide)) idle
  have waiting : (outcome.1.queue.lane "__local__").waiting.map (·.journalId) = ["u2"] := by decide
  refine ⟨⟨waiting, ?_⟩, by decide, conserved.2⟩
  have member : "u2" ∈ (outcome.1.queue.lane "__local__").waiting.map (·.journalId) := waiting ▸ List.mem_cons_self
  rcases List.mem_map.mp member with ⟨job, inLane, same⟩
  rw [← same]
  exact conserved.1 "__local__" job (Or.inl inLane)

end QueueJournal
end Dokploy
