import Dokploy.Foundation.Rounds
import Dokploy.GithubRunPoller.Passes

namespace Dokploy
namespace GithubRunPoller

open Foundation
open Foundation.World (Ensures)

/-!
# No live row starves

Where a row is due in several passes in a row and is read in none of them, every
one of these passes spends its whole budget on rows that were read no later than
it.  Such a row is read once, unless the poller forgets it and sees it again.  So
the rows of these passes, counted once more for every return, are more than the
reads of these passes.
-/

structure Pass where
  now : Nat
  rows : List LiveRunRow
  events : List PassEvent
  before : Table
  after : Table

def PollerOp.fetches : PollerOp -> Option String
  | .fetchRun row => some row.deploymentId
  | _ => none

def readsOf (events : List PassEvent) : List String := events.filterMap fun event => event.op.fetches

def Pass.reads (pass : Pass) : List String := readsOf pass.events

def Pass.ids (pass : Pass) : List String := pass.rows.map LiveRunRow.deploymentId

section Runs

variable (round : Rat -> Number) (parseDate : String -> Option Int)

/-- The pass is a run of the poller over rows with different ids. -/
structure Pass.Happens (pass : Pass) : Prop where
  distinct : pass.ids.Nodup
  runs : Exists fun last : PassState => last.states = pass.after ∧
    (world (.ok pass.rows) pass.now).Runs { states := pass.before } (poll round parseDate) pass.events last (.done ())

/-- One pass after the other.  A pass that lists nothing leaves everything as it is and is left out. -/
inductive Passes : Table -> List Pass -> Table -> Prop
  | nil (table : Table) : Passes table [] table
  | cons {pass : Pass} {later : List Pass} {last : Table} :
      pass.Happens round parseDate -> Passes pass.after later last -> Passes pass.before (pass :: later) last

variable {round parseDate}

theorem Passes.split {earlier window : List Pass} {first last : Table}
    (passes : Passes round parseDate first (earlier ++ window) last) :
    Exists fun middle => Passes round parseDate first earlier middle ∧ Passes round parseDate middle window last := by
  induction earlier generalizing first with
  | nil => exact ⟨first, .nil first, passes⟩
  | cons pass rest ih =>
      cases passes with
      | cons happens more =>
          rcases ih more with ⟨middle, left, right⟩
          exact ⟨middle, .cons happens left, right⟩

theorem Passes.nil_eq {first last : Table} (passes : Passes round parseDate first [] last) : last = first := by
  cases passes
  rfl

theorem Performs.fetched {rows : Except String (List LiveRunRow)} {now : Nat} {before after : PassState} {op : PollerOp}
    {answer : op.Answer} (performed : Performs rows now before op answer after) :
    after.fetched = before.fetched ++ op.fetches.toList := by
  cases op with
  | fetchRun row => cases performed; rfl
  | listLiveRows => rw [performed.2]; exact (List.append_nil _).symm
  | now => rw [performed.2]; exact (List.append_nil _).symm
  | states => rw [performed.2]; exact (List.append_nil _).symm
  | stateOf row => rw [performed.2]; exact (List.append_nil _).symm
  | takeRead => rw [performed.2]; exact (List.append_nil _).symm
  | _ => cases performed; exact (List.append_nil _).symm

theorem readsOf_snoc (past : List PassEvent) (event : PassEvent) :
    readsOf (past ++ [event]) = readsOf past ++ event.op.fetches.toList := by
  rw [readsOf, List.filterMap_append]
  congr 1

theorem ensures_readsOf {rows : Except String (List LiveRunRow)} {now : Nat} {Result : Type} (program : Task Result)
    (table : Table) :
    (world rows now).Ensures (fun _ _ => True) program (fun _ past after => after.fetched = readsOf past) []
      { states := table } := by
  refine Ensures.of_asks program.asks_any rfl (fun _ _ _ _ never => never.elim) ?_
  intro past before op answer after _ same performed
  refine ⟨trivial, ?_⟩
  rw [performed.fetched, same, readsOf_snoc]

variable {pass : Pass}

theorem Pass.Happens.steps (happens : pass.Happens round parseDate) :
    Exists fun start : PassState => Exists fun last : PassState =>
      Pruned pass.rows { states := pass.before } start ∧
        Steps (fun row => RowStep parseDate row pass.now) (ordered start.states pass.rows) start last ∧
          last.states = pass.after ∧ last.fetched = pass.reads := by
  rcases happens.runs with ⟨last, isAfter, runs⟩
  have stepped : (world (.ok pass.rows) pass.now).Ensures (fun _ _ => True) (poll round parseDate)
      (fun _ _ after => Exists fun start => Pruned pass.rows { states := pass.before } start ∧
        Steps (fun row => RowStep parseDate row pass.now) (ordered start.states pass.rows) start after) []
      { states := pass.before } :=
    ensures_poll round parseDate (fun _ _ _ => trivial) fun row _ past state => ensures_pollRow round parseDate
  have counted := @ensures_readsOf (.ok pass.rows) pass.now Unit (poll round parseDate) pass.before
  rcases (stepped.and counted).of_done runs with ⟨reached, meanwhile, ⟨start, pruned, steps⟩, fetched⟩
  have same : last = reached := @World.Meanwhile.keeps _ _ _ _ (fun other => other = reached) _ _
    meanwhile rfl fun _ _ _ never => never.elim
  subst same
  exact ⟨start, last, pruned, steps, isAfter, fetched⟩

/-- When a row was read last; 0 when it never was. -/
def readAt (table : Table) (id : String) : Nat := ((getEntry table id).map RowState.lastReadAt).getD 0

/-- A row in its turn, with what the pass had done before. -/
structure InTurn (parseDate : String -> Option Int) (pass : Pass) (row : LiveRunRow) (earlier : List LiveRunRow)
    (middle next last : PassState) : Prop where
  turn : Exists fun start : PassState => start.reads = MAX_READS_PER_PASS ∧ start.fetched = [] ∧
    getEntry start.states row.deploymentId = getEntry pass.before row.deploymentId ∧
      Turn parseDate pass.now earlier row start last middle next
  after : last.states = pass.after
  reads : last.fetched = pass.reads
  older : forall other, other ∈ earlier.map LiveRunRow.deploymentId ->
    readAt pass.before other ≤ readAt pass.before row.deploymentId

variable {row : LiveRunRow}

theorem Pass.Happens.inTurn (happens : pass.Happens round parseDate)
    (member : row ∈ pass.rows) : Exists fun earlier => Exists fun middle => Exists fun next => Exists fun last =>
      InTurn parseDate pass row earlier middle next last := by
  rcases happens.steps with ⟨start, last, ⟨reads, fetched, entries⟩, steps, isAfter, isReads⟩
  have listed : forall other, other ∈ pass.rows ->
      getEntry start.states other.deploymentId = getEntry pass.before other.deploymentId := by
    intro other there
    rw [entries, if_pos (List.mem_map_of_mem there)]
  have perm := List.perm_insertionSort (fun first second : LiveRunRow =>
    lastReadAt start.states first ≤ lastReadAt start.states second) pass.rows
  rcases List.append_of_mem (perm.mem_iff.mpr member) with ⟨earlier, later, split⟩
  have sorted := List.pairwise_insertionSort (fun first second : LiveRunRow =>
    lastReadAt start.states first ≤ lastReadAt start.states second) pass.rows
  rw [split] at sorted perm
  rw [ordered, split] at steps
  have distinct := (perm.map LiveRunRow.deploymentId).nodup_iff.mpr happens.distinct
  rcases steps.turn distinct with ⟨middle, next, turn⟩
  refine ⟨earlier, middle, next, last, ⟨start, reads, fetched, listed row member, turn⟩, isAfter, isReads, ?_⟩
  intro other there
  rcases List.mem_map.mp there with ⟨first, before, rfl⟩
  have le := (List.pairwise_append.mp sorted).2.2 first before row List.mem_cons_self
  have known : first ∈ pass.rows := perm.mem_iff.mp (List.mem_append_left _ before)
  rw [lastReadAt, lastReadAt, listed first known, listed row member] at le
  exact le

theorem Pass.Happens.reads_le (happens : pass.Happens round parseDate) :
    pass.reads.length ≤ MAX_READS_PER_PASS := by
  rcases happens.steps with ⟨start, last, ⟨reads, fetched, _⟩, steps, _, isReads⟩
  have budget := steps.budget
  rw [reads, fetched, isReads] at budget
  simp only [List.length_nil] at budget
  omega

theorem Pass.Happens.reads_nodup (happens : pass.Happens round parseDate) :
    pass.reads.Nodup ∧ forall id, id ∈ pass.reads -> id ∈ pass.ids := by
  rcases happens.steps with ⟨start, last, ⟨_, fetched, _⟩, steps, _, isReads⟩
  rcases steps.fetched with ⟨read, same, sub⟩
  rw [fetched, List.nil_append, isReads] at same
  have perm := (List.perm_insertionSort (fun first second : LiveRunRow =>
    lastReadAt start.states first ≤ lastReadAt start.states second) pass.rows).map LiveRunRow.deploymentId
  rw [same]
  exact ⟨(perm.nodup_iff.mpr happens.distinct).sublist sub, fun id member => perm.mem_iff.mp (sub.subset member)⟩

theorem stateIn_lastReadAt (table : Table) (row : LiveRunRow) :
    (stateIn table row).lastReadAt = readAt table row.deploymentId := by
  unfold stateIn readAt
  cases getEntry table row.deploymentId with
  | none => rfl
  | some state => rfl

theorem stateIn_of_same {first second : Table}
    (same : getEntry first row.deploymentId = getEntry second row.deploymentId) :
    stateIn first row = stateIn second row := by
  rw [stateIn, same, stateIn]

variable {id : String}

theorem Pass.Happens.readAt_after (happens : pass.Happens round parseDate)
    {state : RowState} (found : getEntry pass.after id = some state) :
    id ∈ pass.ids ∧ state.lastReadAt = if id ∈ pass.reads then pass.now else readAt pass.before id := by
  by_cases listed : id ∈ pass.ids
  · refine ⟨listed, ?_⟩
    rcases List.mem_map.mp listed with ⟨row, member, rfl⟩
    rcases happens.inTurn member with ⟨earlier, middle, next, last, inTurn⟩
    rcases inTurn.turn with ⟨start, _, empty, same, turn⟩
    rw [← inTurn.after, turn.final] at found
    have served := turn.served_iff empty
    rw [inTurn.reads] at served
    split
    · rename_i read
      exact (served.mp read).own state found
    · rename_i unread
      rcases turn.step.outcome with kept | isServed
      · rw [kept.own state found, stateIn_lastReadAt, readAt, turn.untouched, same, readAt]
      · exact absurd (served.mpr isServed) unread
  · rcases happens.steps with ⟨start, last, ⟨_, _, entries⟩, steps, isAfter, _⟩
    have away : id ∉ (ordered start.states pass.rows).map LiveRunRow.deploymentId := by
      intro member
      exact listed (((List.perm_insertionSort _ _).map LiveRunRow.deploymentId).mem_iff.mp member)
    rw [← isAfter, steps.untouched away, entries] at found
    cases (if_neg listed).symm.trans found

/-- A row that is due and not read: the whole budget went to rows that were read no later than it. -/
theorem Pass.Happens.passed_over (happens : pass.Happens round parseDate)
    (member : row ∈ pass.rows) (due : Due parseDate pass.before row pass.now)
    (unread : row.deploymentId ∉ pass.reads) :
    pass.reads.length = MAX_READS_PER_PASS ∧
      (forall other, other ∈ pass.reads -> readAt pass.before other ≤ readAt pass.before row.deploymentId) ∧
        getEntry pass.after row.deploymentId = some (stateIn pass.before row) := by
  rcases happens.inTurn member with ⟨earlier, middle, next, last, inTurn⟩
  rcases inTurn.turn with ⟨start, reads, empty, same, turn⟩
  have sameState : stateIn middle.states row = stateIn pass.before row := stateIn_of_same (turn.untouched.trans same)
  have dueNow : Due parseDate middle.states row pass.now :=
    ⟨due.unqueued, due.young, due.waiting, sameState ▸ due.unfinished, sameState ▸ due.passed⟩
  have notServed : ¬ Served row.deploymentId pass.now middle next := by
    intro served
    exact unread (inTurn.reads ▸ (turn.served_iff empty).mpr served)
  rcases turn.step.due dueNow with served | ⟨nothing, found⟩
  · exact absurd served notServed
  have budget := turn.steps.budget
  rw [nothing, reads, empty] at budget
  rcases turn.steps.fetched with ⟨read, isRead, sub⟩
  rw [empty, List.nil_append] at isRead
  have kept := turn.step.outcome.resolve_right notServed
  -- The budget was spent before the turn of the row, so nothing is read after it.
  rcases turn.more with ⟨more, isLast, _⟩
  rw [kept.fetched, isRead, inTurn.reads] at isLast
  have bound := happens.reads_le
  rw [isLast, List.length_append] at bound
  rw [isRead, List.length_nil] at budget
  have none : more = [] := List.eq_nil_of_length_eq_zero (by omega)
  rw [none, List.append_nil] at isLast
  rw [isLast]
  refine ⟨by omega, fun other read => inTurn.older other (sub.subset read), ?_⟩
  rw [← inTurn.after, turn.final, found, sameState]

/-- The rows that are followed and were not read after a time. -/
def waitingAt (table : Table) (time : Nat) : Finset String :=
  (table.map Prod.fst).toFinset.filter fun id => readAt table id ≤ time

def roundOf (time : Nat) (pass : Pass) : Round String where
  came := pass.ids.toFinset
  known := (pass.before.map Prod.fst).toFinset
  waiting := waitingAt pass.before time

theorem mem_known {table : Table} :
    id ∈ (table.map Prod.fst).toFinset <-> Exists fun state => getEntry table id = some state := by
  rw [List.mem_toFinset, ← getEntry_isSome, Option.isSome_iff_exists]

theorem readAt_of_some {table : Table} {state : RowState} (found : getEntry table id = some state) :
    readAt table id = state.lastReadAt := by
  rw [readAt, found]
  rfl

theorem Pass.Happens.usesUp (happens : pass.Happens round parseDate)
    (member : row ∈ pass.rows) (due : Due parseDate pass.before row pass.now)
    (unread : row.deploymentId ∉ pass.reads) {time : Nat} (waits : readAt pass.before row.deploymentId ≤ time)
    (later : time < pass.now) :
    (roundOf time pass).UsesUp MAX_READS_PER_PASS (waitingAt pass.after time) := by
  rcases happens.passed_over member due unread with ⟨full, older, _⟩
  rcases happens.reads_nodup with ⟨distinct, listed⟩
  have candidate : forall id, id ∈ pass.ids -> readAt pass.before id ≤ time ->
      id ∈ (roundOf time pass).candidates := by
    intro id here old
    simp only [Round.candidates, roundOf, waitingAt, Finset.mem_union, Finset.mem_inter, Finset.mem_sdiff,
      Finset.mem_filter]
    by_cases known : id ∈ (pass.before.map Prod.fst).toFinset
    · exact Or.inl ⟨List.mem_toFinset.mpr here, known, old⟩
    · exact Or.inr ⟨List.mem_toFinset.mpr here, known⟩
  refine ⟨pass.reads.toFinset, ?_, ?_, ?_⟩
  · intro id read
    rw [List.mem_toFinset] at read
    exact candidate id (listed id read) ((older id read).trans waits)
  · rw [List.toFinset_card_of_nodup distinct, full]
  · intro id followed
    rcases Finset.mem_filter.mp followed with ⟨known, old⟩
    rcases mem_known.mp known with ⟨state, found⟩
    rcases happens.readAt_after found with ⟨here, isTime⟩
    rw [readAt_of_some found, isTime] at old
    rw [Finset.mem_sdiff, List.mem_toFinset]
    split at old
    · exact absurd later (Nat.not_lt.mpr old)
    · rename_i notRead
      exact ⟨candidate id here old, notRead⟩

theorem chain_of_unread {window : List Pass} {first last : Table} (passes : Passes round parseDate first window last)
    (due : forall pass, pass ∈ window -> Exists fun row => row ∈ pass.rows ∧ row.deploymentId = id ∧
      Due parseDate pass.before row pass.now)
    (unread : forall pass, pass ∈ window -> id ∉ pass.reads) {time : Nat} (waits : readAt first id ≤ time)
    (later : forall pass, pass ∈ window -> time < pass.now) :
    Round.Chain MAX_READS_PER_PASS (window.map (roundOf time)) (waitingAt first time) (waitingAt last time) ∧
      (window ≠ [] -> id ∈ waitingAt last time) := by
  induction passes with
  | nil table => exact ⟨.nil _, fun none => absurd rfl none⟩
  | @cons pass rest last happens more ih =>
      rcases due pass List.mem_cons_self with ⟨row, member, rfl, isDue⟩
      have notRead := unread pass List.mem_cons_self
      rcases happens.passed_over member isDue notRead with ⟨_, _, found⟩
      have still : readAt pass.after row.deploymentId ≤ time := by
        rw [readAt_of_some found, stateIn_lastReadAt]
        exact waits
      rcases ih (fun other there => due other (List.mem_cons_of_mem _ there))
        (fun other there => unread other (List.mem_cons_of_mem _ there)) still
        (fun other there => later other (List.mem_cons_of_mem _ there)) with ⟨chain, stays⟩
      have usesUp := happens.usesUp member isDue notRead waits (later pass List.mem_cons_self)
      refine ⟨.cons usesUp chain, fun _ => ?_⟩
      by_cases empty : rest = []
      · subst empty
        rw [more.nil_eq]
        exact Finset.mem_filter.mpr ⟨mem_known.mpr ⟨_, found⟩, still⟩
      · exact stays empty

def distinctRows (window : List Pass) : Nat := (window.flatMap Pass.ids).dedup.length

/-- How often a row is listed that was listed before and that the poller has forgotten since. -/
def returns (seen : List String) : List Pass -> Nat
  | [] => 0
  | pass :: later =>
      (pass.ids.filter fun id => decide (id ∈ seen) && (getEntry pass.before id).isNone).length +
        returns (seen ++ pass.ids) later

theorem everybody_rounds (time : Nat) (window : List Pass) (seen : List String) :
    Round.everybody seen.toFinset (window.map (roundOf time)) = (seen ++ window.flatMap Pass.ids).toFinset := by
  induction window generalizing seen with
  | nil => rw [List.flatMap_nil, List.append_nil]; rfl
  | cons pass rest ih =>
      rw [List.map_cons, Round.everybody, List.flatMap_cons, ← List.append_assoc, ← ih,
        List.toFinset_append]
      rfl

theorem comebacks_le_returns (time : Nat) (window : List Pass) (seen : List String) :
    Round.comebacks seen.toFinset (window.map (roundOf time)) ≤ returns seen window := by
  induction window generalizing seen with
  | nil => exact Nat.le_refl _
  | cons pass rest ih =>
      have more := ih (seen ++ pass.ids)
      rw [List.toFinset_append] at more
      refine Nat.add_le_add ?_ more
      refine le_trans (Finset.card_le_card ?_) (List.toFinset_card_le _)
      intro id member
      simp only [roundOf, Finset.mem_inter, Finset.mem_sdiff, List.mem_toFinset] at member
      rw [List.mem_toFinset, List.mem_filter]
      refine ⟨member.1.1, ?_⟩
      have unknown : (getEntry pass.before id).isNone = true := by
        rw [Option.isNone_iff_eq_none]
        exact getEntry_of_missing member.1.2
      rw [decide_eq_true member.2, unknown]
      rfl

theorem Passes.readAt_lt {passes : List Pass} {first last : Table} (run : Passes round parseDate first passes last)
    {time : Nat} (earlier : forall pass, pass ∈ passes -> pass.now < time)
    (before : forall id, readAt first id < time) (id : String) : readAt last id < time := by
  induction run with
  | nil table => exact before id
  | @cons pass rest last happens _ ih =>
      apply ih fun other there => earlier other (List.mem_cons_of_mem _ there)
      intro other
      cases found : getEntry pass.after other with
      | none =>
          have positive := Nat.lt_of_le_of_lt (Nat.zero_le _) (before other)
          rw [readAt, found]
          exact positive
      | some state =>
          rw [readAt_of_some found, (happens.readAt_after found).2]
          split
          · exact earlier pass List.mem_cons_self
          · exact before other

/-- Passes with increasing times, from the start of the process. -/
structure History (round : Rat -> Number) (parseDate : String -> Option Int) (passes : List Pass) : Prop where
  runs : Exists fun last => Passes round parseDate [] passes last
  increasing : (passes.map Pass.now).Pairwise (· < ·)
  positive : forall pass, pass ∈ passes -> 0 < pass.now

theorem History.no_row_starves {earlier window : List Pass} (history : History round parseDate (earlier ++ window))
    (some : window ≠ []) (enough : distinctRows window + returns [] window ≤ MAX_READS_PER_PASS * window.length)
    (due : forall pass, pass ∈ window -> Exists fun row => row ∈ pass.rows ∧ row.deploymentId = id ∧
      Due parseDate pass.before row pass.now) :
    Exists fun pass => pass ∈ window ∧ id ∈ pass.reads := by
  by_contra none
  have unread : forall pass, pass ∈ window -> id ∉ pass.reads := fun pass member read => none ⟨pass, member, read⟩
  rcases history.runs with ⟨last, passes⟩
  rcases passes.split with ⟨middle, before, inWindow⟩
  have later : forall pass, pass ∈ window -> readAt middle id < pass.now := by
    intro pass member
    have times := history.increasing
    rw [List.map_append, List.pairwise_append] at times
    refine before.readAt_lt (fun other there => ?_) (fun other => ?_) id
    · exact times.2.2 _ (List.mem_map_of_mem there) _ (List.mem_map_of_mem member)
    · exact history.positive pass (List.mem_append_right _ member)
  rcases chain_of_unread inWindow due unread (Nat.le_refl _) later with ⟨chain, stays⟩
  have came : id ∈ Round.everybody ∅ (window.map (roundOf (readAt middle id))) := by
    have all := everybody_rounds (readAt middle id) window []
    rw [List.toFinset_nil, List.nil_append] at all
    rw [all, List.mem_toFinset, List.mem_flatMap]
    rcases List.exists_mem_of_ne_nil window some with ⟨pass, member⟩
    rcases due pass member with ⟨row, listed, rfl, _⟩
    exact ⟨pass, member, List.mem_map_of_mem listed⟩
  have counted := chain.lt_everybody (stays some) came
  have all := everybody_rounds (readAt middle id) window []
  have back := comebacks_le_returns (readAt middle id) window []
  rw [List.toFinset_nil, List.nil_append] at all
  rw [List.toFinset_nil] at back
  rw [all, List.card_toFinset, List.length_map] at counted
  rw [distinctRows] at enough
  omega

theorem Quiet.about {op : PollerOp} (quiet : Quiet id op) : op.about = none ∨ op.about = some id := by
  cases op with
  | forget other => exact Or.inl rfl
  | assign other assignment => exact Or.inl rfl
  | readLog row => exact Or.inr (congrArg some quiet)
  | appendLines row lines => exact Or.inr (congrArg some quiet)
  | setProgress other status step => exact Or.inr (congrArg some quiet)
  | markRunFinished other => exact Or.inr (congrArg some quiet)
  | endRow other outcome => exact Or.inr (congrArg some quiet)
  | _ => exact quiet.elim

theorem pollRow_about (row : LiveRunRow) (now : Nat) :
    (pollRow round parseDate row now).Asks fun op => op.about = none ∨ op.about = some row.deploymentId := by
  have quietly : forall {program : Task Unit}, program.Asks (Quiet row.deploymentId) ->
      program.Asks fun op => op.about = none ∨ op.about = some row.deploymentId :=
    fun asks => asks.mono fun _ quiet => quiet.about
  have silently : forall op : PollerOp, op.about = none ->
      (call op).Asks fun op => op.about = none ∨ op.about = some row.deploymentId :=
    fun op silent => Program.Asks.perform (Or.inl silent)
  have assigned : forall state assignment, (assign row state assignment).Asks fun op =>
      op.about = none ∨ op.about = some row.deploymentId :=
    fun state assignment => (silently (.assign row.deploymentId assignment) rfl).bind fun _ => trivial
  have reads : (call (.fetchRun row)).Asks fun op => op.about = none ∨ op.about = some row.deploymentId :=
    Program.Asks.perform (Or.inr rfl)
  refine (silently (.stateOf row) rfl).bind fun state => ?_
  dsimp only
  split
  · exact Program.Asks.ite trivial (quietly (Quiet.endWith row _ _ _))
  · refine Program.Asks.ite (quietly (Quiet.endWith row _ _ _)) (Program.Asks.ite (quietly ?_) ?_)
    · exact (Quiet.assign id).bind fun state => Program.Asks.ite trivial (Quiet.endWith row state _ _)
    · refine Program.Asks.ite trivial ?_
      refine (silently .takeRead rfl).bind fun granted => Program.Asks.ite trivial ?_
      refine (assigned state (.lastReadAt now)).bind fun state => ?_
      refine (Program.Asks.orThrow reads).bind fun result => ?_
      exact quietly (Quiet.follow round parseDate row state now result)

theorem pollRow_queued {now : Nat} (queued : QueuedWithin parseDate row now) :
    (pollRow round parseDate row now).Asks fun op => op.about = none := by
  rcases queued with ⟨deployQueuedAt, isQueued, within⟩
  have known : (call (.stateOf row)).Asks fun op => op.about = none := Program.Asks.perform rfl
  refine known.bind fun state => ?_
  dsimp only
  rw [isQueued]
  dsimp only
  rw [if_pos within]
  trivial

theorem Pass.Happens.queued_untouched (happens : pass.Happens round parseDate)
    (member : row ∈ pass.rows) (queued : QueuedWithin parseDate row pass.now) :
    (forall event, event ∈ pass.events -> event.op.about ≠ some row.deploymentId) ∧
      getEntry pass.after row.deploymentId = some (stateIn pass.before row) := by
  constructor
  · have silent : (world (.ok pass.rows) pass.now).Ensures
        (fun _ event => event.op.about ≠ some row.deploymentId) (poll round parseDate)
        (fun _ _ after => Exists fun start => Pruned pass.rows { states := pass.before } start ∧
          Steps (fun _ _ _ => True) (ordered start.states pass.rows) start after) [] { states := pass.before } := by
      refine ensures_poll round parseDate (fun _ event none same => ?_) fun other listed past state => ?_
      · rw [none] at same
        cases same
      · have asks : (pollRow round parseDate other pass.now).Asks fun op => op.about ≠ some row.deploymentId := by
          by_cases same : other.deploymentId = row.deploymentId
          · have equal := List.inj_on_of_nodup_map happens.distinct listed member same
            subst equal
            refine (pollRow_queued queued).mono fun op none isAbout => ?_
            rw [none] at isAbout
            cases isAbout
          · refine (pollRow_about other pass.now).mono fun op about isAbout => ?_
            rw [isAbout] at about
            rcases about with none | some
            · cases none
            · exact same (Option.some.inj some).symm
        exact Ensures.of_asks asks trivial (fun _ _ _ _ never => never.elim)
          fun _ _ _ _ _ allowed _ _ => ⟨allowed, trivial⟩
    rcases happens.runs with ⟨last, _, runs⟩
    intro event there
    rcases List.append_of_mem there with ⟨before, after, split⟩
    exact (silent.of_runs runs).1 before event after split
  · rcases happens.inTurn member with ⟨earlier, middle, next, last, inTurn⟩
    rcases inTurn.turn with ⟨start, _, _, same, turn⟩
    rw [← inTurn.after, turn.final, turn.step.queued queued]
    exact congrArg some (stateIn_of_same (turn.untouched.trans same))

theorem Passes.happens {passes : List Pass} {first last : Table} (run : Passes round parseDate first passes last) (member : pass ∈ passes) :
    pass.Happens round parseDate := by
  induction run with
  | nil table => cases member
  | cons happens _ ih =>
      rcases List.mem_cons.mp member with rfl | there
      · exact happens
      · exact ih there

theorem History.start {earlier later : List Pass} (history : History round parseDate (earlier ++ later)) :
    History round parseDate earlier := by
  rcases history.runs with ⟨last, passes⟩
  rcases passes.split with ⟨middle, before, _⟩
  have times := history.increasing
  rw [List.map_append] at times
  exact ⟨⟨middle, before⟩, (List.pairwise_append.mp times).1,
    fun pass member => history.positive pass (List.mem_append_left _ member)⟩

/-- A row that is due in as many passes as there are rows, returns counted, for the budget is read in one of them. -/
def ServesDue (parseDate : String -> Option Int) (passes : List Pass) : Prop :=
  forall earlier window later, passes = earlier ++ window ++ later -> window ≠ [] ->
    distinctRows window + returns [] window ≤ MAX_READS_PER_PASS * window.length ->
    forall id, (forall pass, pass ∈ window -> Exists fun row => row ∈ pass.rows ∧ row.deploymentId = id ∧
      Due parseDate pass.before row pass.now) ->
    Exists fun pass => pass ∈ window ∧ id ∈ pass.reads

/-- A row whose deploy is queued is nobody's business until the backstop, and its state stays. -/
def LeavesQueued (parseDate : String -> Option Int) (pass : Pass) : Prop :=
  forall row, row ∈ pass.rows -> QueuedWithin parseDate row pass.now ->
    (forall event, event ∈ pass.events -> event.op.about ≠ some row.deploymentId) ∧
      getEntry pass.after row.deploymentId = some (stateIn pass.before row)

/-- The poller is fair to the rows it has not forgotten, within its budget, and leaves queued rows alone. -/
theorem live_rows_are_served (round : Rat -> Number) (parseDate : String -> Option Int) {passes : List Pass}
    (history : History round parseDate passes) :
    ServesDue parseDate passes ∧ (forall pass, pass ∈ passes -> pass.reads.length ≤ MAX_READS_PER_PASS) ∧
      forall pass, pass ∈ passes -> LeavesQueued parseDate pass := by
  rcases history.runs with ⟨last, run⟩
  refine ⟨?_, fun pass member => (run.happens member).reads_le, ?_⟩
  · rintro earlier window later rfl some enough id due
    exact history.start.no_row_starves some enough due
  · intro pass member row listed queued
    exact (run.happens member).queued_untouched listed queued

end Runs

/-- No row waits for GitHub any more when its progress is written; everything else succeeds. -/
def answering (rows : List LiveRunRow) (now : Nat) (before : PassState) : (op : PollerOp) -> op.Answer × PassState
  | .listLiveRows => (.ok rows, before)
  | .now => (now, before)
  | .states => (before.states, before)
  | .forget id => ((), { before with states := deleteEntry before.states id })
  | .stateOf row => (stateIn before.states row,
      { before with states := setEntry before.states row.deploymentId (stateIn before.states row) })
  | .assign id assignment => ((), { before with states := before.states.map fun entry =>
      if entry.1 = id then (entry.1, assignment.apply entry.2) else entry })
  | .takeRead => (decide (0 < before.reads), { before with reads := before.reads - 1 })
  | .fetchRun row => (.ok (.ok [] none true none none),
      { before with fetched := before.fetched ++ [row.deploymentId] })
  | .readLog _ => (.ok "", before)
  | .appendLines _ _ => (.ok (), before)
  | .setProgress _ _ _ => (.ok false, before)
  | .markRunFinished _ => (.ok true, before)
  | .endRow _ _ => (.ok true, before)

theorem answering_possible (rows : List LiveRunRow) (now : Nat) (before : PassState) (op : PollerOp) :
    (world (.ok rows) now).performs before op (answering rows now before op).1 (answering rows now before op).2 := by
  cases op <;> first | exact rfl | exact ⟨rfl, rfl⟩

def noDates (_value : String) : Option Int := none

/-- A pass over these rows with these answers. -/
def passOver (rows : List LiveRunRow) (now : Nat) (before : Table) : Pass :=
  let result := Program.performed (answering rows now) { states := before } (poll Number.finite noDates)
  { now := now, rows := rows, events := result.1, before := before, after := result.2.1.states }

theorem passOver_happens {rows : List LiveRunRow} {now : Nat} {before : Table}
    (distinct : (rows.map LiveRunRow.deploymentId).Nodup)
    (ends : (Program.performed (answering rows now) { states := before } (poll Number.finite noDates)).2.2 = .ok ()) :
    (passOver rows now before).Happens Number.finite noDates :=
  ⟨distinct, _, rfl, World.Runs.of_performed (answering_possible rows now) _ _ ends⟩

def rowOf (id : String) : LiveRunRow :=
  { deploymentId := id, buildRunId := "1", buildRunUrl := none, buildRunStatus := some "in_progress",
    buildRunStep := none, startedAt := none, createdAt := "", deployQueuedAt := none }

theorem due_rowOf {table : Table} {id : String} {now : Nat}
    (fresh : stateIn table (rowOf id) = freshState (rowOf id)) : Due noDates table (rowOf id) now := by
  have time : startedAtOf noDates (rowOf id) now = now := rfl
  have waiting : some "in_progress" ≠ some "completed" := by decide
  refine ⟨rfl, ?_, waiting, by rw [fresh]; rfl, ?_⟩
  · rw [time, Int.sub_self]
    decide
  · rw [fresh]
    exact decide_eq_false (Rat.not_lt.mpr (Rat.natCast_le_natCast.mpr (Nat.zero_le now)))

/-- One row that is due, and one whose deploy is queued. -/
def fewRows : List LiveRunRow := [rowOf "first", { rowOf "second" with deployQueuedAt := some "now" }]

theorem live_rows_are_served_few :
    ServesDue noDates [passOver fewRows 1 []] ∧
      (forall pass, pass ∈ [passOver fewRows 1 []] -> pass.reads.length ≤ MAX_READS_PER_PASS) ∧
        forall pass, pass ∈ [passOver fewRows 1 []] -> LeavesQueued noDates pass :=
  live_rows_are_served Number.finite noDates
    ⟨⟨_, .cons (passOver_happens (by decide) (by decide +kernel)) (.nil _)⟩, by decide, by decide⟩

def crowd : List LiveRunRow := (List.range 26).map fun index => rowOf (String.singleton (Char.ofNat (97 + index)))

/-- Two passes over all of them; the first forgets every row that it reads. -/
def crowded : List Pass := [passOver crowd 1 [], passOver crowd 2 (passOver crowd 1 []).after]

/-- The last of 26 rows is due in both of two passes and read in neither. -/
theorem forgotten_rows_come_first :
    History Number.finite noDates crowded ∧
      crowded.length = (distinctRows crowded + (MAX_READS_PER_PASS - 1)) / MAX_READS_PER_PASS ∧
        (forall pass, pass ∈ crowded -> Exists fun row => row ∈ pass.rows ∧ row.deploymentId = "z" ∧
          Due noDates pass.before row pass.now) ∧
            forall pass, pass ∈ crowded -> "z" ∉ pass.reads := by
  have distinct : (crowd.map LiveRunRow.deploymentId).Nodup := by decide +kernel
  have first := @passOver_happens crowd 1 [] distinct (by decide +kernel)
  have second := @passOver_happens crowd 2 (passOver crowd 1 []).after distinct (by decide +kernel)
  have listed : rowOf "z" ∈ crowd := by decide +kernel
  have known : stateIn (passOver crowd 1 []).after (rowOf "z") = freshState (rowOf "z") := by decide +kernel
  refine ⟨⟨⟨_, .cons first (.cons second (.nil _))⟩, by decide, by decide⟩, by decide +kernel, ?_, by decide +kernel⟩
  intro pass member
  simp only [crowded, List.mem_cons, List.not_mem_nil, or_false] at member
  rcases member with rfl | rfl
  · exact ⟨rowOf "z", listed, rfl, due_rowOf rfl⟩
  · exact ⟨rowOf "z", listed, rfl, due_rowOf known⟩

end GithubRunPoller
end Dokploy
