import Dokploy.DeployQueue.Notices
import Dokploy.QueueJournal.Store

namespace Dokploy
namespace QueueJournal

open Foundation DeployQueue

/-!
# The journal of one process

What the queue tells the journal becomes a task on one serial chain.  A task is
started when the write of the task before it was answered or has timed out, and
starting it sends its write to the store.  A write that timed out is still in
flight: it lands in the table at a time of its own.

Calls of the store are never forgotten, so the number of a call is its position
in the list of calls, and calls stand in the order in which they were sent.
-/

/-- The tasks, named as the code names its operations. -/
inductive Task where
  | enqueue (jobId : String) (payload : Json)
  | start (jobId : String)
  | update (jobId : String) (payload : Json)
  | settle (jobIds : List String)
  | settleLate (jobId : String)

/-- The write that a task sends to the store. -/
def Task.write : Task -> Write
  | .enqueue jobId payload => .insert jobId payload
  | .start jobId => .markActive jobId
  | .update jobId payload => .updatePayload jobId payload
  | .settle jobIds => .remove jobIds
  | .settleLate jobId => .remove [jobId]

inductive CallPhase where
  | sent
  | landed
  | answered
  deriving DecidableEq, Repr

structure Call where
  write : Write
  phase : CallPhase

structure Journal where
  chain : List Task
  /-- The call whose answer the chain waits for. -/
  current : Option Nat
  calls : List Call
  /-- Inserts issued and not yet settled, by job. -/
  inFlightInserts : String -> Option Nat
  /-- Deletes to be issued once a late insert resolves. -/
  lateDeletes : List (Nat × String)
  /-- Ids of jobs enqueued by this process, until the restore has read the
  journal. -/
  liveIds : Option (List String)

namespace Journal

def new : Journal where
  chain := []
  current := none
  calls := []
  inFlightInserts := fun _ => none
  lateDeletes := []
  liveIds := some []

/-- Run a task after every earlier journal write. -/
def run (journal : Journal) (task : Task) : Journal :=
  { journal with chain := journal.chain ++ [task] }

/-- The journal hooks of the queue.  Other signals are none of its business. -/
def notify (journal : Journal) : Signal -> Journal
  | .enqueued journalId data =>
      { journal with liveIds := journal.liveIds.map (· ++ [journalId]) }.run (.enqueue journalId (stored data))
  | .started _ job => journal.run (.start job.journalId)
  | .updated journalId data => journal.run (.update journalId (stored data))
  | .settled jobs => journal.run (.settle (jobs.map (·.journalId)))
  | _ => journal

def notifyAll (journal : Journal) (signals : List Signal) : Journal :=
  signals.foldl notify journal

/-- The late deletes a settle task registers: one for each of its jobs whose
insert is still pending. -/
def lateOf (journal : Journal) (jobIds : List String) : List (Nat × String) :=
  jobIds.filterMap fun jobId => (journal.inFlightInserts jobId).map fun ticket => (ticket, jobId)

/-- Start the next task of the chain, once nothing holds the chain back. -/
def startTask (journal : Journal) : Option Journal :=
  match journal.current, journal.chain with
  | none, task :: rest =>
      let ticket := journal.calls.length
      some
        { journal with
          chain := rest
          current := some ticket
          calls := journal.calls ++ [⟨task.write, .sent⟩]
          inFlightInserts := match task with
            | .enqueue jobId _ => Function.update journal.inFlightInserts jobId (some ticket)
            | _ => journal.inFlightInserts
          lateDeletes := match task with
            | .settle jobIds => journal.lateDeletes ++ journal.lateOf jobIds
            | _ => journal.lateDeletes }
  | _, _ => none

/-- The write of the current task timed out: the chain moves on without it. -/
def timeout (journal : Journal) : Option Journal :=
  match journal.current with
  | none => none
  | some _ => some { journal with current := none }

def land (journal : Journal) (ticket : Nat) : Option (Journal × Write) :=
  match journal.calls[ticket]? with
  | some ⟨write, .sent⟩ => some ({ journal with calls := journal.calls.set ticket ⟨write, .landed⟩ }, write)
  | _ => none

/-- A call is over, one way or the other. -/
def closeCall (journal : Journal) (ticket : Nat) (write : Write) : Journal :=
  { journal with
    calls := journal.calls.set ticket ⟨write, .answered⟩
    current := if journal.current = some ticket then none else journal.current
    inFlightInserts := match write with
      | .insert jobId _ =>
          if journal.inFlightInserts jobId = some ticket then
            Function.update journal.inFlightInserts jobId none
          else journal.inFlightInserts
      | _ => journal.inFlightInserts
    lateDeletes := journal.lateDeletes.filter fun late => !(late.1 == ticket) }

/-- The late deletes that wait for a call. -/
def lateFor (journal : Journal) (ticket : Nat) : List Task :=
  (journal.lateDeletes.filter fun late => late.1 == ticket).map fun late => .settleLate late.2

/-- The answer of a call that took effect arrives. -/
def answer (journal : Journal) (ticket : Nat) : Option Journal :=
  match journal.calls[ticket]? with
  | some ⟨write, .landed⟩ =>
      some { journal.closeCall ticket write with chain := journal.chain ++ journal.lateFor ticket }
  | _ => none

/-- A call fails, before or after it took effect.  No delete is issued for it. -/
def fail (journal : Journal) (ticket : Nat) : Option Journal :=
  match journal.calls[ticket]? with
  | none | some ⟨_, .answered⟩ => none
  | some ⟨write, _⟩ => some (journal.closeCall ticket write)

/-- Every write has been sent, has landed and was answered. -/
def Idle (journal : Journal) : Prop :=
  journal.chain = [] ∧ forall call, call ∈ journal.calls -> call.phase = .answered

/-- The writes among these calls that have not landed, in the order in which
they were sent. -/
def sentWrites (calls : List Call) : List Write :=
  (calls.filter fun call => call.phase == .sent).map (·.write)

/-- The writes that have not landed: those in flight, then those of the chain. -/
def pending (journal : Journal) : List Write :=
  sentWrites journal.calls ++ journal.chain.map Task.write

theorem sentWrites_append (earlier later : List Call) :
    sentWrites (earlier ++ later) = sentWrites earlier ++ sentWrites later := by
  rw [sentWrites, List.filter_append, List.map_append]
  rfl

theorem sentWrites_cons (write : Write) (phase : CallPhase) (later : List Call) :
    sentWrites (⟨write, phase⟩ :: later) = (if phase = .sent then [write] else []) ++ sentWrites later := by
  cases phase <;> rfl

theorem notifyAll_append (journal : Journal) (earlier later : List Signal) :
    journal.notifyAll (earlier ++ later) = (journal.notifyAll earlier).notifyAll later :=
  List.foldl_append

/-- The task a signal puts on the chain, if any. -/
def taskOf : Signal -> List Task
  | .enqueued journalId data => [.enqueue journalId (stored data)]
  | .started _ job => [.start job.journalId]
  | .updated journalId data => [.update journalId (stored data)]
  | .settled jobs => [.settle (jobs.map (·.journalId))]
  | _ => []

theorem taskOf_notices (signals : List Signal) : (notices signals).flatMap taskOf = signals.flatMap taskOf :=
  flatMap_notices taskOf (fun signal unnoticed => by cases signal <;> first | rfl | cases unnoticed) signals

private theorem notify_eq (journal : Journal) (signal : Signal) :
    journal.notify signal = { journal with
      chain := journal.chain ++ taskOf signal
      liveIds := journal.liveIds.map (· ++ enqueuedIds [signal]) } := by
  have quiet : forall {journal : Journal}, journal = { journal with
      chain := journal.chain ++ [], liveIds := journal.liveIds.map (· ++ []) } := by
    intro journal
    simp only [List.append_nil, Option.map_id']
  cases signal with
  | enqueued journalId data => rfl
  | started key job =>
      simp only [notify, run, taskOf, enqueuedIds, enqueuedOf, List.flatMap_cons, Signal.enqueuedJobs,
        List.flatMap_nil, List.map_nil, List.append_nil, Option.map_id']
  | updated journalId data =>
      simp only [notify, run, taskOf, enqueuedIds, enqueuedOf, List.flatMap_cons, Signal.enqueuedJobs,
        List.flatMap_nil, List.map_nil, List.append_nil, Option.map_id']
  | settled jobs =>
      simp only [notify, run, taskOf, enqueuedIds, enqueuedOf, List.flatMap_cons, Signal.enqueuedJobs,
        List.flatMap_nil, List.map_nil, List.append_nil, Option.map_id']
  | _ => exact quiet

theorem notifyAll_eq (journal : Journal) (signals : List Signal) :
    journal.notifyAll signals = { journal with
      chain := journal.chain ++ signals.flatMap taskOf
      liveIds := journal.liveIds.map (· ++ enqueuedIds signals) } := by
  induction signals generalizing journal with
  | nil =>
      have nothing : enqueuedIds [] = [] := rfl
      simp only [notifyAll, List.foldl_nil, List.flatMap_nil, List.append_nil, nothing, Option.map_id']
  | cons signal rest ih =>
      have first : journal.notifyAll (signal :: rest) = (journal.notify signal).notifyAll rest := rfl
      have ids : enqueuedIds (signal :: rest) = enqueuedIds [signal] ++ enqueuedIds rest :=
        enqueuedIds_append [signal] rest
      rw [first, ih, notify_eq, List.flatMap_cons, ids]
      simp only [List.append_assoc, Option.map_map]
      congr 2
      funext known
      exact List.append_assoc _ _ _

theorem pending_notifyAll (journal : Journal) (signals : List Signal) :
    (journal.notifyAll signals).pending = journal.pending ++ (signals.flatMap taskOf).map Task.write := by
  rw [notifyAll_eq, pending, pending, List.map_append, List.append_assoc]

variable {journal after : Journal}

theorem startTask_some (started : journal.startTask = some after) :
    Exists fun task => Exists fun rest => journal.current = none ∧ journal.chain = task :: rest ∧
      after = { journal with
        chain := rest
        current := some journal.calls.length
        calls := journal.calls ++ [⟨task.write, .sent⟩]
        inFlightInserts := match task with
          | .enqueue jobId _ => Function.update journal.inFlightInserts jobId (some journal.calls.length)
          | _ => journal.inFlightInserts
        lateDeletes := match task with
          | .settle jobIds => journal.lateDeletes ++ journal.lateOf jobIds
          | _ => journal.lateDeletes } := by
  unfold startTask at started
  split at started
  · rename_i task rest free chained
    exact ⟨task, rest, free, chained, (Option.some.inj started).symm⟩
  · cases started

variable {ticket : Nat} {write : Write}

theorem land_some
    (landed : journal.land ticket = some (after, write)) :
    journal.calls[ticket]? = some ⟨write, .sent⟩ ∧
      after = { journal with calls := journal.calls.set ticket ⟨write, .landed⟩ } := by
  unfold land at landed
  split at landed
  · rename_i write' found
    rcases Prod.mk.inj (Option.some.inj landed) with ⟨sameAfter, sameWrite⟩
    exact ⟨sameWrite ▸ found, sameWrite ▸ sameAfter.symm⟩
  · cases landed

theorem answer_some (answered : journal.answer ticket = some after) :
    Exists fun write => journal.calls[ticket]? = some ⟨write, .landed⟩ ∧
      after = { journal.closeCall ticket write with chain := journal.chain ++ journal.lateFor ticket } := by
  unfold answer at answered
  split at answered
  · rename_i write found
    exact ⟨write, found, (Option.some.inj answered).symm⟩
  · cases answered

theorem timeout_some (timedOut : journal.timeout = some after) :
    after = { journal with current := none } := by
  unfold timeout at timedOut
  split at timedOut
  · cases timedOut
  · exact (Option.some.inj timedOut).symm

theorem pending_startTask (started : journal.startTask = some after) :
    after.pending = journal.pending := by
  rcases startTask_some started with ⟨task, rest, _, chained, same⟩
  subst same
  simp only [pending, chained, sentWrites_append, sentWrites_cons, if_true, List.map_cons, List.append_assoc]
  rfl

theorem pending_land
    (landed : journal.land ticket = some (after, write)) :
    Exists fun later => journal.pending = sentWrites (journal.calls.take ticket) ++ write :: later ∧
      after.pending = sentWrites (journal.calls.take ticket) ++ later := by
  rcases land_some landed with ⟨found, same⟩
  rcases split_of_getElem? found with ⟨split, length⟩
  have replaced := @set_of_split _ _ _ _ _ ⟨write, .landed⟩ split
  rw [length] at replaced
  refine ⟨sentWrites (journal.calls.drop (ticket + 1)) ++ journal.chain.map Task.write, ?_, ?_⟩
  · rw [pending]
    conv_lhs => rw [split]
    rw [sentWrites_append, sentWrites_cons, if_pos rfl, List.append_assoc, List.append_assoc]
    rfl
  · rw [same, pending]
    dsimp only
    rw [replaced, sentWrites_append, sentWrites_cons, if_neg (by simp), List.nil_append, List.append_assoc]

variable {calls : List Call}

theorem sentWrites_answered
    (found : calls[ticket]? = some ⟨write, .landed⟩) :
    sentWrites (calls.set ticket ⟨write, .answered⟩) = sentWrites calls := by
  rcases split_of_getElem? found with ⟨split, length⟩
  have replaced := @set_of_split _ _ _ _ _ ⟨write, .answered⟩ split
  rw [length] at replaced
  rw [replaced]
  conv_rhs => rw [split]
  rw [sentWrites_append, sentWrites_append, sentWrites_cons, sentWrites_cons, if_neg (by simp), if_neg (by simp)]

theorem pending_answer (answered : journal.answer ticket = some after) :
    after.pending = journal.pending ++ (journal.lateFor ticket).map Task.write := by
  rcases answer_some answered with ⟨write, found, same⟩
  subst same
  rw [pending, pending]
  simp only [closeCall]
  rw [sentWrites_answered found, List.map_append, List.append_assoc]

theorem pending_timeout (timedOut : journal.timeout = some after) :
    after.pending = journal.pending := by
  rw [timeout_some timedOut]
  rfl

/-- The call of this number sends the write, and was not answered. -/
def Unanswered (calls : List Call) (ticket : Nat) (write : Write) : Prop :=
  Exists fun phase => phase ≠ CallPhase.answered ∧ calls[ticket]? = some ⟨write, phase⟩

theorem unanswered_snoc {sent : Write} :
    Unanswered (calls ++ [⟨sent, .sent⟩]) ticket write <->
      Unanswered calls ticket write ∨ ticket = calls.length ∧ write = sent := by
  constructor
  · rintro ⟨phase, stillOpen, here⟩
    rcases Nat.lt_or_ge ticket calls.length with earlier | later
    · rw [List.getElem?_append_left earlier] at here
      exact Or.inl ⟨phase, stillOpen, here⟩
    · rw [List.getElem?_append_right later, List.getElem?_singleton] at here
      split at here
      · cases here
        exact Or.inr ⟨by omega, rfl⟩
      · cases here
  · rintro (⟨phase, stillOpen, here⟩ | ⟨sameTicket, sameWrite⟩)
    · refine ⟨phase, stillOpen, ?_⟩
      rw [List.getElem?_append_left (List.getElem?_eq_some_iff.mp here).1, here]
    · subst sameTicket sameWrite
      exact ⟨.sent, fun impossible => CallPhase.noConfusion impossible, List.getElem?_concat_length⟩

theorem unanswered_set {other : Nat} {sent : Write} {before after : CallPhase}
    (found : calls[ticket]? = some ⟨sent, before⟩) (stillOpen : before ≠ .answered) :
    Unanswered (calls.set ticket ⟨sent, after⟩) other write <->
      Unanswered calls other write ∧ (other = ticket -> after ≠ .answered) := by
  have bound := (List.getElem?_eq_some_iff.mp found).1
  by_cases same : other = ticket
  · subst same
    constructor
    · rintro ⟨phase, notYet, here⟩
      rw [List.getElem?_set_self bound] at here
      cases here
      exact ⟨⟨before, stillOpen, found⟩, fun _ => notYet⟩
    · rintro ⟨⟨phase, notYet, here⟩, unfinished⟩
      rw [found] at here
      cases here
      exact ⟨after, unfinished rfl, List.getElem?_set_self bound⟩
  · have elsewhere : (calls.set ticket ⟨sent, after⟩)[other]? = calls[other]? :=
      List.getElem?_set_ne (fun equal => same equal.symm)
    constructor
    · rintro ⟨phase, notYet, here⟩
      exact ⟨⟨phase, notYet, elsewhere ▸ here⟩, fun equal => absurd equal same⟩
    · rintro ⟨⟨phase, notYet, here⟩, _⟩
      exact ⟨phase, notYet, elsewhere.trans here⟩

/-- The writes of all calls made so far, answered or not. -/
def writesOf (calls : List Call) : List Write :=
  calls.map (·.write)

theorem writesOf_set {sent : Write} {before : CallPhase} (after : CallPhase)
    (found : calls[ticket]? = some ⟨sent, before⟩) :
    writesOf (calls.set ticket ⟨sent, after⟩) = writesOf calls := by
  rcases split_of_getElem? found with ⟨split, length⟩
  have replaced := @set_of_split _ _ _ _ _ ⟨sent, after⟩ split
  rw [length] at replaced
  rw [replaced]
  conv_rhs => rw [split]
  rw [writesOf, writesOf, List.map_append, List.map_append]
  rfl

theorem Unanswered.mem_writesOf
    (unanswered : Unanswered calls ticket write) : write ∈ writesOf calls := by
  rcases unanswered with ⟨phase, _, here⟩
  exact List.mem_map.mpr ⟨_, List.mem_of_getElem? here, rfl⟩

/-- A settle task of the chain removes the job. -/
def SettlesIn (chain : List Task) (journalId : String) : Prop :=
  Exists fun jobIds => Task.settle jobIds ∈ chain ∧ journalId ∈ jobIds

variable {journalId : String}

theorem SettlesIn.append_left {chain : List Task} (settles : SettlesIn chain journalId)
    (later : List Task) : SettlesIn (chain ++ later) journalId := by
  rcases settles with ⟨jobIds, member, inTask⟩
  exact ⟨jobIds, List.mem_append_left _ member, inTask⟩

theorem SettlesIn.append_right {chain : List Task} (settles : SettlesIn chain journalId)
    (earlier : List Task) : SettlesIn (earlier ++ chain) journalId := by
  rcases settles with ⟨jobIds, member, inTask⟩
  exact ⟨jobIds, List.mem_append_right _ member, inTask⟩

theorem inserted_taskOf (signals : List Signal) :
    insertedIds ((signals.flatMap taskOf).map Task.write) = enqueuedIds signals := by
  induction signals with
  | nil => rfl
  | cons signal rest ih =>
      have ids : enqueuedIds (signal :: rest) = enqueuedIds [signal] ++ enqueuedIds rest :=
        enqueuedIds_append [signal] rest
      rw [List.flatMap_cons, List.map_append, insertedIds_append, ih, ids]
      cases signal <;> rfl

theorem settlesIn_taskOf {signals : List Signal} :
    journalId ∈ settledJournalIds signals <-> SettlesIn (signals.flatMap taskOf) journalId := by
  constructor
  · intro settled
    rcases List.mem_map.mp settled with ⟨job, member, same⟩
    rcases List.mem_flatMap.mp member with ⟨signal, inSignals, reported⟩
    cases signal with
    | settled jobs =>
        exact ⟨_, List.mem_flatMap.mpr ⟨_, inSignals, List.mem_cons_self⟩, List.mem_map.mpr ⟨job, reported, same⟩⟩
    | _ => cases reported
  · rintro ⟨jobIds, member, inTask⟩
    rcases List.mem_flatMap.mp member with ⟨signal, inSignals, told⟩
    cases signal with
    | settled jobs =>
        cases List.mem_singleton.mp told
        rcases List.mem_map.mp inTask with ⟨job, reported, same⟩
        exact List.mem_map.mpr ⟨job, List.mem_flatMap.mpr ⟨_, inSignals, reported⟩, same⟩
    | enqueued journalId data => cases List.mem_singleton.mp told
    | started key job => cases List.mem_singleton.mp told
    | updated journalId data => cases List.mem_singleton.mp told
    | _ => cases told

theorem removes_taskOf {signals : List Signal} {task : Task}
    (told : task ∈ signals.flatMap taskOf) (removed : task.write.removes journalId) :
    journalId ∈ settledJournalIds signals := by
  rcases List.mem_flatMap.mp told with ⟨signal, inSignals, here⟩
  cases signal with
  | settled jobs =>
      cases List.mem_singleton.mp here
      exact settlesIn_taskOf.mpr ⟨_, told, removed⟩
  | enqueued journalId data =>
      cases List.mem_singleton.mp here
      exact removed.elim
  | started key job =>
      cases List.mem_singleton.mp here
      exact removed.elim
  | updated journalId data =>
      cases List.mem_singleton.mp here
      exact removed.elim
  | _ => cases here

theorem tasks_of_notice {q after : InMemoryQueue} {output : List Signal} (notice : Notice q output after) :
    (output.flatMap taskOf).length ≤ 1 := by
  rw [← taskOf_notices]
  cases notice with
  | silent told memory => rw [told]; exact Nat.zero_le 1
  | enqueued job told memory => rw [told]; exact Nat.le_refl 1
  | settled gone told memory => rw [told]; exact Nat.le_refl 1
  | updated journalId payload old known told memory => rw [told]; exact Nat.le_refl 1
  | started key job known told memory => rw [told]; exact Nat.le_refl 1

structure Started (journal : Journal) (task : Task) (after : Journal) : Prop where
  chain : journal.chain = task :: after.chain
  calls : after.calls = journal.calls ++ [⟨task.write, .sent⟩]
  inserts : forall journalId ticket, after.inFlightInserts journalId = some ticket <->
    journalId ∈ task.write.inserted ∧ ticket = journal.calls.length ∨
      journalId ∉ task.write.inserted ∧ journal.inFlightInserts journalId = some ticket
  late : forall ticket journalId, (ticket, journalId) ∈ after.lateDeletes <->
    (ticket, journalId) ∈ journal.lateDeletes ∨ Exists fun jobIds => task = .settle jobIds ∧
      journalId ∈ jobIds ∧ journal.inFlightInserts journalId = some ticket

theorem mem_lateOf {jobIds : List String} :
    (ticket, journalId) ∈ journal.lateOf jobIds <->
      journalId ∈ jobIds ∧ journal.inFlightInserts journalId = some ticket := by
  rw [lateOf, List.mem_filterMap]
  constructor
  · rintro ⟨other, inTask, mapped⟩
    rcases Option.map_eq_some_iff.mp mapped with ⟨_, found, same⟩
    rcases Prod.mk.inj same with ⟨sameTicket, sameId⟩
    subst sameTicket sameId
    exact ⟨inTask, found⟩
  · rintro ⟨inTask, found⟩
    exact ⟨journalId, inTask, by rw [found, Option.map_some]⟩

theorem started_of_startTask (taken : journal.startTask = some after) :
    Exists fun task => Started journal task after := by
  rcases startTask_some taken with ⟨task, rest, _, chained, same⟩
  refine ⟨task, ?_⟩
  subst same
  have others : task.write.inserted = [] -> forall journalId ticket, journal.inFlightInserts journalId = some ticket <->
      journalId ∈ task.write.inserted ∧ ticket = journal.calls.length ∨
        journalId ∉ task.write.inserted ∧ journal.inFlightInserts journalId = some ticket := by
    intro none journalId ticket
    simp [none]
  refine ⟨chained, rfl, ?_, fun ticket journalId => ?_⟩
  · cases task with
    | enqueue jobId payload =>
        intro journalId ticket
        simp only [Task.write, Write.inserted, List.mem_singleton]
        by_cases same : journalId = jobId
        · subst same
          rw [Function.update_self]
          constructor
          · intro new
            exact Or.inl ⟨rfl, (Option.some.inj new).symm⟩
          · rintro (⟨_, new⟩ | ⟨different, _⟩)
            · rw [new]
            · exact absurd rfl different
        · rw [Function.update_of_ne same]
          simp only [same, false_and, false_or, not_false_eq_true, true_and]
    | _ => exact others rfl
  · cases task with
    | settle jobIds =>
        rw [List.mem_append, mem_lateOf]
        refine or_congr_right ⟨fun new => ⟨jobIds, rfl, new⟩, ?_⟩
        rintro ⟨_, same, new⟩
        rw [Task.settle.inj same]
        exact new
    | _ =>
        constructor
        · exact Or.inl
        · rintro (old | ⟨_, same, _⟩)
          · exact old
          · cases same

structure Answered (journal : Journal) (ticket : Nat) (after : Journal) : Prop where
  calls : Exists fun write => journal.calls[ticket]? = some ⟨write, .landed⟩ ∧
    after.calls = journal.calls.set ticket ⟨write, .answered⟩
  chain : after.chain = journal.chain ++ journal.lateFor ticket
  inserts : forall journalId other, after.inFlightInserts journalId = some other ->
    journal.inFlightInserts journalId = some other ∧
      (other = ticket -> forall payload, ¬ Unanswered journal.calls ticket (.insert journalId payload))
  kept : forall journalId other, journal.inFlightInserts journalId = some other -> other ≠ ticket ->
    after.inFlightInserts journalId = some other
  late : forall other journalId, (other, journalId) ∈ after.lateDeletes <->
    (other, journalId) ∈ journal.lateDeletes ∧ other ≠ ticket

theorem answered_of_answer (closed : journal.answer ticket = some after) :
    Answered journal ticket after := by
  rcases answer_some closed with ⟨write, found, same⟩
  subst same
  have sameWrite : forall {other}, Unanswered journal.calls ticket other -> other = write := by
    rintro other ⟨phase, _, here⟩
    rw [found] at here
    cases here
    rfl
  have others : (forall journalId payload, write ≠ .insert journalId payload) ->
      forall journalId other, journal.inFlightInserts journalId = some other ->
        journal.inFlightInserts journalId = some other ∧
          (other = ticket -> forall payload, ¬ Unanswered journal.calls ticket (.insert journalId payload)) := by
    intro noInsert journalId other recorded
    exact ⟨recorded, fun _ payload unanswered => noInsert journalId payload (sameWrite unanswered).symm⟩
  refine ⟨⟨write, found, rfl⟩, rfl, ?_, ?_, fun other journalId => ?_⟩
  · intro journalId other recorded
    cases write with
    | insert jobId payload =>
        simp only [closeCall] at recorded
        split at recorded
        · by_cases same : journalId = jobId
          · rw [same, Function.update_self] at recorded
            cases recorded
          · rw [Function.update_of_ne same] at recorded
            refine ⟨recorded, fun _ payload unanswered => same ?_⟩
            exact (Write.insert.inj (sameWrite unanswered)).1
        · rename_i notHere
          refine ⟨recorded, fun here payload unanswered => notHere ?_⟩
          rw [← (Write.insert.inj (sameWrite unanswered)).1, recorded, here]
    | _ => exact others (fun _ _ impossible => by cases impossible) journalId other recorded
  · intro journalId other recorded different
    cases write with
    | insert jobId payload =>
        simp only [closeCall]
        split
        · rename_i here
          by_cases same : journalId = jobId
          · rw [same, here] at recorded
            exact absurd (Option.some.inj recorded).symm different
          · rw [Function.update_of_ne same, recorded]
        · exact recorded
    | _ => exact recorded
  · simp only [closeCall, List.mem_filter, Bool.not_eq_true', beq_eq_false_iff_ne]

/-- The journal has something left to do about the job. -/
def Mentions (journal : Journal) (journalId : String) : Prop :=
  (Exists fun write => write ∈ journal.pending ∧ (write.writes journalId ∨ write.removes journalId)) ∨
    Exists fun ticket => (ticket, journalId) ∈ journal.lateDeletes

theorem mem_pending_chain {task : Task} (member : task ∈ journal.chain) :
    task.write ∈ journal.pending :=
  List.mem_append_right _ (List.mem_map_of_mem member)

theorem mentions_startTask
    (started : journal.startTask = some after) (mentioned : after.Mentions journalId) :
    journal.Mentions journalId := by
  rcases mentioned with ⟨write, member, about⟩ | ⟨ticket, member⟩
  · rw [pending_startTask started] at member
    exact Or.inl ⟨write, member, about⟩
  · rcases startTask_some started with ⟨task, rest, _, chained, same⟩
    subst same
    have head : task ∈ journal.chain := chained ▸ List.mem_cons_self
    cases task with
    | settle jobIds =>
        rcases List.mem_append.mp member with old | new
        · exact Or.inr ⟨ticket, old⟩
        · rcases List.mem_filterMap.mp new with ⟨other, inTask, registered⟩
          rcases Option.map_eq_some_iff.mp registered with ⟨_, _, same⟩
          rw [(Prod.mk.inj same).2] at inTask
          exact Or.inl ⟨_, mem_pending_chain head, Or.inr inTask⟩
    | _ => exact Or.inr ⟨ticket, member⟩

theorem liveIds_startTask (started : journal.startTask = some after) :
    after.liveIds = journal.liveIds := by
  rcases startTask_some started with ⟨task, rest, _, _, same⟩
  rw [same]

theorem liveIds_land
    (landed : journal.land ticket = some (after, write)) : after.liveIds = journal.liveIds := by
  rw [(land_some landed).2]

theorem mem_pending_land
    (landed : journal.land ticket = some (after, write)) : write ∈ journal.pending := by
  rcases pending_land landed with ⟨later, whole, _⟩
  rw [whole]
  exact List.mem_append_right _ List.mem_cons_self

theorem mentions_land
    (landed : journal.land ticket = some (after, write)) (mentioned : after.Mentions journalId) :
    journal.Mentions journalId := by
  rcases mentioned with ⟨other, member, about⟩ | ⟨late, member⟩
  · rcases pending_land landed with ⟨later, whole, rest⟩
    refine Or.inl ⟨other, ?_, about⟩
    rw [rest] at member
    rw [whole]
    rcases List.mem_append.mp member with earlier | after
    · exact List.mem_append_left _ earlier
    · exact List.mem_append_right _ (List.mem_cons_of_mem _ after)
  · rw [(land_some landed).2] at member
    exact Or.inr ⟨late, member⟩

theorem mem_lateFor {task : Task} (member : task ∈ journal.lateFor ticket) :
    Exists fun journalId => (ticket, journalId) ∈ journal.lateDeletes ∧ task = .settleLate journalId := by
  rcases List.mem_map.mp member with ⟨late, inFilter, same⟩
  rcases List.mem_filter.mp inFilter with ⟨inLate, here⟩
  rw [← beq_iff_eq.mp here]
  exact ⟨late.2, inLate, same.symm⟩

theorem mentions_answer
    (answered : journal.answer ticket = some after) (mentioned : after.Mentions journalId) :
    journal.Mentions journalId := by
  rcases mentioned with ⟨write, member, about⟩ | ⟨late, member⟩
  · rw [pending_answer answered] at member
    rcases List.mem_append.mp member with old | new
    · exact Or.inl ⟨write, old, about⟩
    · rcases List.mem_map.mp new with ⟨task, inLate, same⟩
      rcases mem_lateFor inLate with ⟨other, registered, isLate⟩
      rw [← same, isLate] at about
      have self : journalId = other := by
        rcases about with impossible | removed
        · exact impossible.elim
        · exact List.mem_singleton.mp removed
      exact Or.inr ⟨ticket, self ▸ registered⟩
  · rcases answer_some answered with ⟨write, _, same⟩
    rw [same] at member
    exact Or.inr ⟨late, (List.mem_filter.mp member).1⟩

theorem liveIds_answer (answered : journal.answer ticket = some after) :
    after.liveIds = journal.liveIds := by
  rcases answer_some answered with ⟨write, _, same⟩
  rw [same]
  rfl

end Journal
end QueueJournal
end Dokploy
