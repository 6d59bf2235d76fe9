import Dokploy.GithubRunPoller.Poller

namespace Dokploy
namespace GithubRunPoller

open Foundation

/-!
# What a pass does with one row

A row costs one read or none.  Whatever is answered, only its own state changes,
and the time of its last read only when it is read.  A row that is due is read
while the pass may read any more.  A row whose deploy is queued is left alone.
-/

def stateIn (states : Table) (row : LiveRunRow) : RowState :=
  (getEntry states row.deploymentId).getD (freshState row)

/-- The row is due for a read: no deploy queued, young enough, not finished, and its next poll time has passed. -/
structure Due (parseDate : String -> Option Int) (states : Table) (row : LiveRunRow) (now : Nat) : Prop where
  unqueued : given row.deployQueuedAt = none
  young : now - startedAtOf parseDate row now ≤ MAX_LIVE_ROW_AGE_MS
  waiting : row.buildRunStatus ≠ some "completed"
  unfinished : (stateIn states row).finishedAt = none
  passed : (Number.ofNat now).less (stateIn states row).nextPollAt = false

/-- A deploy is queued for the row, and not for longer than the backstop. -/
def QueuedWithin (parseDate : String -> Option Int) (row : LiveRunRow) (now : Nat) : Prop :=
  Exists fun deployQueuedAt => given row.deployQueuedAt = some deployQueuedAt ∧
    now - (timeOf parseDate (some deployQueuedAt)).getD (startedAtOf parseDate row now) ≤ DEPLOY_QUEUED_BACKSTOP_MS

def Assignment.IsLastReadAt : Assignment -> Prop
  | .lastReadAt _ => True
  | _ => False

/-- An operation about one row that neither reads GitHub nor sets the time of its last read. -/
def Quiet (id : String) : PollerOp -> Prop
  | .forget other => other = id
  | .assign other assignment => other = id ∧ ¬ assignment.IsLastReadAt
  | .readLog row => row.deploymentId = id
  | .appendLines row _ => row.deploymentId = id
  | .setProgress other _ _ => other = id
  | .markRunFinished other => other = id
  | .endRow other _ => other = id
  | _ => False

variable {row : LiveRunRow}

theorem Quiet.assign {state : RowState} {assignment : Assignment}
    (other : ¬ assignment.IsLastReadAt) :
    (GithubRunPoller.assign row state assignment).Asks (Quiet row.deploymentId) :=
  (Program.Asks.perform ⟨rfl, other⟩).bind fun _ => trivial

theorem Quiet.call (op : PollerOp) (quiet : Quiet row.deploymentId op) :
    (GithubRunPoller.call op).Asks (Quiet row.deploymentId) := Program.Asks.perform quiet

theorem Quiet.loggedLines (row : LiveRunRow) (state : RowState) :
    (GithubRunPoller.loggedLines row state).Asks (Quiet row.deploymentId) := by
  unfold GithubRunPoller.loggedLines
  split
  · trivial
  · refine (Program.Asks.orThrow (Quiet.call (.readLog row) rfl)).bind fun text => ?_
    exact (Quiet.assign id).bind fun _ => trivial

theorem Quiet.writeLines (row : LiveRunRow) (state : RowState) (lines : List String) :
    (GithubRunPoller.writeLines row state lines).Asks (Quiet row.deploymentId) := by
  unfold GithubRunPoller.writeLines
  refine Program.Asks.ite trivial ?_
  refine (Program.Asks.orThrow (Quiet.call (.appendLines row lines) rfl)).bind fun _ => ?_
  exact (Quiet.loggedLines row state).bind fun _ => Quiet.assign id

theorem Quiet.endBecause (row : LiveRunRow) (state : RowState) (outcome : EndOutcome) (lines : List String) :
    (GithubRunPoller.endBecause row state outcome lines).Asks (Quiet row.deploymentId) := by
  refine (Program.Asks.orThrow (Quiet.call (.endRow row.deploymentId outcome) rfl)).bind fun ended => ?_
  refine (Quiet.call (.forget row.deploymentId) rfl).bind fun _ => ?_
  exact Program.Asks.ite ((Quiet.writeLines row state lines).bind fun _ => trivial) trivial

theorem Quiet.endWith (row : LiveRunRow) (state : RowState) (message : String) (deployQueued : Bool) :
    (GithubRunPoller.endWith row state message deployQueued).Asks (Quiet row.deploymentId) :=
  Quiet.endBecause _ _ _ _

theorem Quiet.showProgress (row : LiveRunRow) (state : RowState) (status shown : RunStatus) (step : Option String) :
    (GithubRunPoller.showProgress row state status shown step).Asks (Quiet row.deploymentId) := by
  refine (Program.Asks.orThrow (Quiet.call (.setProgress row.deploymentId shown step) rfl)).bind fun stillWaiting => ?_
  refine Program.Asks.ite (Quiet.call (.forget row.deploymentId) rfl) ?_
  exact (Quiet.assign id).bind fun _ => (Quiet.assign id).bind fun _ => trivial

section Following

variable (round : Rat -> Number) (parseDate : String -> Option Int)

theorem Quiet.followUnreadable (row : LiveRunRow) (state : RowState) (now : Nat) :
    (GithubRunPoller.followUnreadable row state now).Asks (Quiet row.deploymentId) := by
  refine (Quiet.assign id).bind fun state => ?_
  refine (Quiet.loggedLines row state).bind fun logged => ?_
  rcases logged with ⟨lines, state⟩
  have shown : forall state : RowState,
      (if state.lastStep = none then
        GithubRunPoller.showProgress row state .inProgress .inProgress (some GITHUB_RUN_STEP_UNREADABLE)
      else pure ()).Asks (Quiet row.deploymentId) :=
    fun state => Program.Asks.ite (Quiet.showProgress row state _ _ _) trivial
  exact Program.Asks.ite (shown state) ((Quiet.writeLines row state _).bind shown)

theorem Quiet.finishRun (row : LiveRunRow) (state : RowState) (now : Nat) (run : Option RunRead)
    (conclusion : Option RunConclusion) :
    (GithubRunPoller.finishRun row state now run conclusion).Asks (Quiet row.deploymentId) := by
  unfold GithubRunPoller.finishRun
  refine Program.Asks.ite (Quiet.endBecause _ _ _ _) ?_
  refine (Program.Asks.orThrow (Quiet.call (.markRunFinished row.deploymentId) rfl)).bind fun marked => ?_
  refine Program.Asks.ite (Quiet.call (.forget row.deploymentId) rfl) ?_
  exact (Quiet.assign id).bind fun state => (Quiet.writeLines row state _).bind fun _ => trivial

theorem Quiet.followRun (row : LiveRunRow) (state : RowState) (now : Nat) (jobs : List GithubRunJob)
    (run : Option RunRead) (authenticated : Bool) (remaining resetAt : Option Number) :
    (GithubRunPoller.followRun parseDate row state now jobs run authenticated remaining resetAt).Asks
      (Quiet row.deploymentId) := by
  refine (Quiet.assign id).bind fun state => ?_
  refine (Quiet.loggedLines row state).bind fun logged => ?_
  refine (Quiet.writeLines row logged.2 _).bind fun state => ?_
  refine Program.Asks.ite ?_ (Quiet.finishRun row state now run _)
  exact Program.Asks.ite (Quiet.showProgress row state _ _ _) trivial

theorem Quiet.follow (row : LiveRunRow) (state : RowState) (now : Nat) (result : RunFetchResult) :
    (GithubRunPoller.follow round parseDate row state now result).Asks (Quiet row.deploymentId) := by
  cases result with
  | backoff retryAfterMs => exact (Quiet.assign id).bind fun _ => trivial
  | unreadable => exact Quiet.followUnreadable row state now
  | ok jobs run authenticated remaining resetAt =>
      exact Quiet.followRun parseDate row state now jobs run authenticated remaining resetAt

end Following

/-- Nothing was read, and the last read of the row is still at a time, if it is followed. -/
structure Kept (id : String) (time : Nat) (before after : PassState) : Prop where
  reads : after.reads = before.reads
  fetched : after.fetched = before.fetched
  others : forall other, other ≠ id -> getEntry after.states other = getEntry before.states other
  own : forall state, getEntry after.states id = some state -> state.lastReadAt = time

theorem Assignment.keeps_lastReadAt {assignment : Assignment} (other : ¬ assignment.IsLastReadAt)
    (state : RowState) : (assignment.apply state).lastReadAt = state.lastReadAt := by
  cases assignment with
  | lastReadAt value => exact absurd trivial other
  | _ => rfl

theorem Kept.refl {id : String} {time : Nat} {base : PassState}
    (own : forall state, getEntry base.states id = some state -> state.lastReadAt = time) : Kept id time base base :=
  ⟨rfl, rfl, fun _ _ => rfl, own⟩

variable {rows : Except String (List LiveRunRow)} {before : PassState}

theorem Kept.quiet {clock : Nat} {id : String} {time : Nat}
    {base after : PassState} {op : PollerOp} {answer : op.Answer} (kept : Kept id time base before)
    (quiet : Quiet id op) (performed : Performs rows clock before op answer after) : Kept id time base after := by
  cases op with
  | forget other =>
      cases quiet
      cases performed
      refine ⟨kept.reads, kept.fetched, ?_, ?_⟩
      · intro other different
        exact (getEntry_deleteEntry_other _ different).trans (kept.others other different)
      · intro state found
        rw [getEntry_deleteEntry_self] at found
        cases found
  | assign other assignment =>
      rcases quiet with ⟨rfl, keeps⟩
      cases performed
      refine ⟨kept.reads, kept.fetched, ?_, ?_⟩
      · intro id different
        have changed := getEntry_map_at before.states other id fun state => assignment.apply state
        rw [if_neg different] at changed
        exact changed.trans (kept.others id different)
      · intro state found
        have changed := getEntry_map_at before.states other other fun state => assignment.apply state
        rw [if_pos rfl] at changed
        rcases Option.map_eq_some_iff.mp (changed.symm.trans found) with ⟨old, stored, rfl⟩
        rw [Assignment.keeps_lastReadAt keeps]
        exact kept.own old stored
  | readLog row => cases performed; exact kept
  | appendLines row lines => cases performed; exact kept
  | setProgress other status step => cases performed; exact kept
  | markRunFinished other => cases performed; exact kept
  | endRow other outcome => cases performed; exact kept
  | listLiveRows => exact quiet.elim
  | now => exact quiet.elim
  | states => exact quiet.elim
  | stateOf row => exact quiet.elim
  | takeRead => exact quiet.elim
  | fetchRun row => exact quiet.elim

variable {past : List (Event PassState PollerOp PollerOp.Answer)}

theorem ensures_kept {clock : Nat} {id : String} {time : Nat}
    {base state : PassState} {Result : Type} {program : Task Result} (quiet : program.Asks (Quiet id))
    (kept : Kept id time base state) :
    (world rows clock).Ensures (fun _ _ => True) program (fun _ _ after => Kept id time base after) past state :=
  World.Ensures.of_asks quiet kept (fun _ _ _ _ never => never.elim)
    (fun _ _ _ _ _ quiet kept performed => ⟨trivial, kept.quiet quiet performed⟩)

structure Served (id : String) (now : Nat) (before after : PassState) : Prop where
  reads : after.reads + 1 = before.reads
  fetched : after.fetched = before.fetched ++ [id]
  others : forall other, other ≠ id -> getEntry after.states other = getEntry before.states other
  own : forall state, getEntry after.states id = some state -> state.lastReadAt = now

/-- The state of a pass when GitHub is asked for a row. -/
def readBegun (before : PassState) (id : String) (now : Nat) : PassState :=
  { states := before.states.map fun entry =>
      if entry.1 = id then (entry.1, (Assignment.lastReadAt now).apply entry.2) else entry
    reads := before.reads - 1
    fetched := before.fetched ++ [id] }

theorem getEntry_readBegun (before : PassState) (id : String) (now : Nat) (other : String) :
    getEntry (readBegun before id now).states other =
      if other = id then (getEntry before.states other).map fun state => { state with lastReadAt := now }
      else getEntry before.states other :=
  getEntry_map_at before.states id other fun state => (Assignment.lastReadAt now).apply state

theorem readBegun_kept (before : PassState) (id : String) (now : Nat) :
    Kept id now (readBegun before id now) (readBegun before id now) := by
  apply Kept.refl
  intro state found
  rw [getEntry_readBegun, if_pos rfl] at found
  rcases Option.map_eq_some_iff.mp found with ⟨old, _, rfl⟩
  rfl

theorem Served.of_kept {id : String} {now : Nat} {after : PassState} (left : 0 < before.reads)
    (kept : Kept id now (readBegun before id now) after) : Served id now before after := by
  refine ⟨?_, kept.fetched, ?_, kept.own⟩
  · rw [kept.reads]
    exact Nat.succ_pred_eq_of_pos left
  · intro other different
    rw [kept.others other different, getEntry_readBegun, if_neg different]

structure RowStep (parseDate : String -> Option Int) (row : LiveRunRow) (now : Nat) (before after : PassState) :
    Prop where
  outcome : Kept row.deploymentId (stateIn before.states row).lastReadAt before after ∨
    Served row.deploymentId now before after
  due : Due parseDate before.states row now -> Served row.deploymentId now before after ∨
    before.reads = 0 ∧ getEntry after.states row.deploymentId = some (stateIn before.states row)
  queued : QueuedWithin parseDate row now ->
    getEntry after.states row.deploymentId = some (stateIn before.states row)

theorem RowStep.others {parseDate : String -> Option Int} {now : Nat} {after : PassState}
    (step : RowStep parseDate row now before after) {other : String} (different : other ≠ row.deploymentId) :
    getEntry after.states other = getEntry before.states other := by
  rcases step.outcome with kept | served
  · exact kept.others other different
  · exact served.others other different

theorem ensures_call {clock : Nat} {state : PassState} {op : PollerOp}
    {guarantee : List (Event PassState PollerOp PollerOp.Answer) -> Event PassState PollerOp PollerOp.Answer -> Prop}
    {post : World.Post PassState PollerOp PollerOp.Answer String op.Answer}
    (kept : forall answer after, guarantee past ⟨state, op, answer, after⟩)
    (each : forall answer after, Performs rows clock state op answer after ->
      post (.ok answer) (past ++ [⟨state, op, answer, after⟩]) after) :
    (world rows clock).Ensures guarantee (call op) post past state := by
  intro before meanwhile answer after performed
  have same : before = state := @World.Meanwhile.keeps _ _ _ (world rows clock) (fun other => other = state) _ _
    meanwhile rfl fun _ _ _ never => never.elim
  subst same
  exact ⟨kept answer after, each answer after performed⟩

theorem ensures_readRow (round : Rat -> Number) (parseDate : String -> Option Int) {clock now : Nat} {state : RowState} :
    (world rows clock).Ensures (fun _ _ => True) (readRow round parseDate row state now)
      (fun _ _ after => (before.reads = 0 ∧ after = before) ∨ Served row.deploymentId now before after)
      past before := by
  apply World.Ensures.bind
  apply ensures_call fun _ _ => trivial
  rintro granted after ⟨rfl, rfl⟩
  dsimp only
  by_cases left : 0 < before.reads
  · rw [decide_eq_true left, Bool.not_true, if_neg (by decide)]
    apply World.Ensures.bind
    apply World.Ensures.bind
    apply ensures_call fun _ _ => trivial
    rintro _ after rfl
    dsimp only
    apply World.Ensures.bind
    apply World.Ensures.orThrow
    apply ensures_call fun _ _ => trivial
    rintro answer after rfl
    -- From here on nothing is read.
    have kept := readBegun_kept before row.deploymentId now
    cases answer with
    | error error => exact Or.inr (Served.of_kept left kept)
    | ok result =>
        exact (ensures_kept (Quiet.follow round parseDate row _ now result) kept).mono
          fun _ _ last kept => Or.inr (Served.of_kept left kept)
  · rw [decide_eq_false left, Bool.not_false, if_pos rfl]
    have none : before.reads = 0 := by omega
    refine Or.inl ⟨none, ?_⟩
    cases before with
    | mk states reads fetched =>
        cases none
        rfl

theorem getEntry_followed (states : Table) (row : LiveRunRow) (id : String) :
    getEntry (setEntry states row.deploymentId (stateIn states row)) id =
      if id = row.deploymentId then some (stateIn states row) else getEntry states id := by
  split
  · rename_i same
    rw [same, getEntry_setEntry_self]
  · rename_i different
    exact getEntry_setEntry_other _ _ different

theorem Kept.of_followed {after : PassState}
    (kept : Kept row.deploymentId (stateIn before.states row).lastReadAt
      { before with states := setEntry before.states row.deploymentId (stateIn before.states row) } after) :
    Kept row.deploymentId (stateIn before.states row).lastReadAt before after := by
  refine ⟨kept.reads, kept.fetched, ?_, kept.own⟩
  intro other different
  rw [kept.others other different, getEntry_followed, if_neg different]

theorem Served.of_followed {now : Nat} {after : PassState}
    (served : Served row.deploymentId now
      { before with states := setEntry before.states row.deploymentId (stateIn before.states row) } after) :
    Served row.deploymentId now before after := by
  refine ⟨served.reads, served.fetched, ?_, served.own⟩
  intro other different
  rw [served.others other different, getEntry_followed, if_neg different]

theorem ensures_pollRow (round : Rat -> Number) (parseDate : String -> Option Int) {clock now : Nat} :
    (world rows clock).Ensures (fun _ _ => True) (pollRow round parseDate row now)
      (fun _ _ after => RowStep parseDate row now before after) past before := by
  apply World.Ensures.bind
  apply ensures_call fun _ _ => trivial
  rintro state after ⟨rfl, rfl⟩
  have own : Kept row.deploymentId (stateIn before.states row).lastReadAt
      { before with states := setEntry before.states row.deploymentId (stateIn before.states row) }
      { before with states := setEntry before.states row.deploymentId (stateIn before.states row) } := by
    apply Kept.refl
    intro state found
    rw [getEntry_followed, if_pos rfl] at found
    rw [← Option.some.inj found]
  -- A row that is neither due nor queued is not read, whatever happens to it.
  have quietly : forall {program : Task Unit}, program.Asks (Quiet row.deploymentId) ->
      ¬ Due parseDate before.states row now -> ¬ QueuedWithin parseDate row now ->
      forall past, (world rows clock).Ensures (fun _ _ => True) program
        (fun _ _ after => RowStep parseDate row now before after) past
        { before with states := setEntry before.states row.deploymentId (stateIn before.states row) } := by
    intro program asks notDue notQueued past
    refine (ensures_kept asks own).mono fun _ _ last kept => ?_
    exact ⟨Or.inl kept.of_followed, fun due => absurd due notDue, fun queued => absurd queued notQueued⟩
  dsimp only
  split
  · rename_i deployQueuedAt queued
    split
    · rename_i within
      refine ⟨Or.inl own.of_followed, fun due => ?_, fun _ => ?_⟩
      · rw [due.unqueued] at queued
        cases queued
      · exact (getEntry_followed _ _ _).trans (if_pos rfl)
    · rename_i past
      refine quietly (Quiet.endWith row _ _ _) (fun due => ?_) (fun within => ?_) _
      · rw [due.unqueued] at queued
        cases queued
      · rcases within with ⟨other, same, within⟩
        rw [queued] at same
        cases same
        exact past within
  · rename_i unqueued
    have notQueued : ¬ QueuedWithin parseDate row now := by
      rintro ⟨deployQueuedAt, queued, _⟩
      rw [unqueued] at queued
      cases queued
    split
    · rename_i old
      exact quietly (Quiet.endWith row _ _ _) (fun due => absurd due.young (Int.not_le.mpr old)) notQueued _
    · split
      · rename_i finished
        have notDue : ¬ Due parseDate before.states row now :=
          fun due => finished.elim due.waiting fun ended => ended due.unfinished
        refine quietly ?_ notDue notQueued _
        exact (Quiet.assign id).bind fun state => Program.Asks.ite trivial (Quiet.endWith row state _ _)
      · split
        · rename_i early
          refine ⟨Or.inl own.of_followed, fun due => ?_, fun queued => absurd queued notQueued⟩
          cases early.symm.trans due.passed
        · refine (ensures_readRow round parseDate).mono ?_
          rintro _ _ last (⟨none, rfl⟩ | served)
          · exact ⟨Or.inl own.of_followed,
              fun _ => Or.inr ⟨none, (getEntry_followed _ _ _).trans (if_pos rfl)⟩,
              fun queued => absurd queued notQueued⟩
          · exact ⟨Or.inr served.of_followed, fun _ => Or.inl served.of_followed,
              fun queued => absurd queued notQueued⟩

end GithubRunPoller
end Dokploy
