import Dokploy.GithubDeployments.Handling

namespace Dokploy
namespace GithubDeployments

open Foundation
open Foundation.World

/-!
# Before the walk

Until the walk begins a poll reads pages, reports the end of the deployment on
its way, or sets the cursor of a watch that has none.  It hands a list on only
when the watch has a cursor, nothing is on its way, and every page was read.

All of this holds in any world that can do no more than the one of a poll, and
what is known of the list that was read is passed on with it.
-/

variable {classify : WatchRow -> GithubDeployment -> Classified} {watch : WatchRow}

/-- A world that can do no more than the one of a poll. -/
structure Within (world : World PollState PollOp PollOp.Answer) : Prop where
  performs : forall before op answer after, world.performs before op answer after -> Performs before op answer after
  others : forall before after, world.others before after -> Others before after

theorem within_pollWorld : Within pollWorld := ⟨fun _ _ _ _ performed => performed, fun _ _ step => step⟩

/-- Where a poll stands that has read these deployments and started nothing. -/
structure Idle (watch : WatchRow) (all : List GithubDeployment) (past : List PollEvent) (state : PollState) : Prop where
  isList : listed past = all
  notStarted : forall id, ¬ Started past id
  stored : forall cursor, watch.lastSeenDeploymentId = some cursor -> Stored cursor state

theorem Idle.of_others {all : List GithubDeployment} {past : List PollEvent} {before after : PollState}
    (idle : Idle watch all past before) (others : Others before after) : Idle watch all past after :=
  { idle with stored := fun cursor isCursor => (idle.stored cursor isCursor).of_others others }

theorem Idle.append {all : List GithubDeployment} {past : List PollEvent} {before : PollState} {event : PollEvent}
    (idle : Idle watch all past before) (noEnqueue : event.op.isEnqueue = false)
    (same : cursorOf event.after.row = cursorOf before.row) :
    Idle watch (all ++ pageOf event) (past ++ [event]) event.after where
  isList := by rw [listed_append, idle.isList]
  notStarted := fun id started => idle.notStarted id (started_append noEnqueue started)
  stored := fun cursor isCursor => (idle.stored cursor isCursor).of_cursor same

theorem Idle.append_silent {all : List GithubDeployment} {past : List PollEvent} {before after : PollState} {op : PollOp}
    {answer : op.Answer} (idle : Idle watch all past before) (silent : op.silent = true)
    (performed : Performs before op answer after) : Idle watch all (past ++ [⟨before, op, answer, after⟩]) after := by
  have later := @Idle.append watch all past before ⟨before, op, answer, after⟩ idle
    (PollOp.isEnqueue_of_silent silent) (cursor_of_quiet (PollOp.quiet_of_silent silent) performed)
  rw [pageOf_of_silent silent, List.append_nil] at later
  exact later

theorem Idle.walking {past : List PollEvent} {state : PollState} {tick : TickInput}
    (idle : Idle watch tick.deployments past state) (isTick : watch.lastSeenDeploymentId = some tick.lastSeen) :
    Walking classify watch tick tick.lastSeen past state where
  isList := idle.isList
  notStarted := idle.notStarted
  stored := Or.inl (idle.stored tick.lastSeen isTick)
  above := Nat.le_refl _
  reached := Or.inl rfl
  accounted := fun deployment member below => absurd (mem_selectNewDeployments.mp member).2 (Nat.not_lt.mpr below)

section

variable {world : World PollState PollOp PollOp.Answer} (within : Within world)
include within

theorem Idle.meanwhile {all : List GithubDeployment} {past : List PollEvent} {before after : PollState}
    (idle : Idle watch all past before) (meanwhile : world.Meanwhile before after) : Idle watch all past after :=
  Meanwhile.keeps meanwhile idle fun _ _ reached step => reached.of_others (within.others _ _ step)

theorem Idle.call {all : List GithubDeployment} {past : List PollEvent} {state : PollState} {op : PollOp}
    {post : Post PollState PollOp PollOp.Answer String op.Answer} (silent : op.silent = true)
    (idle : Idle watch all past state)
    (next : forall before answer after, Idle watch all (past ++ [⟨before, op, answer, after⟩]) after ->
      post (.ok answer) (past ++ [⟨before, op, answer, after⟩]) after) :
    world.Ensures (CursorSafe classify watch) (GithubDeployments.call op) post past state := by
  apply Ensures.perform
  intro before meanwhile answer after performed
  have isPerformed := within.performs _ _ _ _ performed
  refine ⟨safe_of_quiet (PollOp.quiet_of_silent silent) isPerformed, next before answer after ?_⟩
  exact (idle.meanwhile within meanwhile).append_silent silent isPerformed

theorem Idle.ensures_asks {Result : Type} {past : List PollEvent} {state : PollState} {id : Nat} {program : Task Result}
    (idle : Idle watch [] past state) (asks : program.Asks (ActsOn id)) :
    world.Ensures (CursorSafe classify watch) program (fun _ past state => Idle watch [] past state) past state := by
  apply Ensures.of_asks asks idle
  · exact fun _ _ _ reached step => reached.of_others (within.others _ _ step)
  · rintro past before op answer after (silent | ⟨post, rfl, _⟩) reached performed
    · have isPerformed := within.performs _ _ _ _ performed
      exact ⟨safe_of_quiet (PollOp.quiet_of_silent silent) isPerformed, reached.append_silent silent isPerformed⟩
    · have unchanged : after = before := within.performs _ _ _ _ performed
      have safe : CursorSafe classify watch past ⟨before, .createStatus post, answer, after⟩ := by
        apply safe_of_unmoved (by rw [unchanged]) rfl
        intro id _ deployment member
        rw [reached.isList] at member
        cases member
      refine ⟨safe, ?_⟩
      exact @Idle.append watch [] past before ⟨before, .createStatus post, answer, after⟩ reached rfl (by rw [unchanged])

theorem Idle.ensures_page {all : List GithubDeployment} {past : List PollEvent} {state : PollState} (page : Nat)
    (etag : Option String) (idle : Idle watch all past state) :
    world.Ensures (CursorSafe classify watch) (fetchDeploymentsPage page etag)
      (fun result past state => Exists fun listing => result = .ok listing ∧ Exists fun more =>
        Idle watch (all ++ more) past state ∧ forall deployments etag, listing = .ok deployments etag -> deployments = more)
      past state := by
  unfold fetchDeploymentsPage
  apply Ensures.bind
  apply Ensures.perform
  intro before meanwhile response after performed
  have isPerformed : Performs before (.fetchPage page etag) response after := within.performs _ _ _ _ performed
  refine ⟨safe_of_quiet rfl isPerformed, pageResult response, rfl,
    pageOf ⟨before, .fetchPage page etag, response, after⟩, ?_, ?_⟩
  · exact @Idle.append watch all past before ⟨before, .fetchPage page etag, response, after⟩
      (idle.meanwhile within meanwhile) rfl (cursor_of_quiet rfl isPerformed)
  · intro deployments etag isOk
    simp only [pageOf, isOk]

/-- What a listing ends with: when it hands a list on, that is all it read. -/
def Read (watch : WatchRow) (result : Except String ListResult) (past : List PollEvent) (state : PollState) : Prop :=
  Exists fun listing => result = .ok listing ∧ Exists fun all => Idle watch all past state ∧
    forall deployments etag, listing = .ok deployments etag -> deployments = all

theorem Idle.ensures_olderPages {lastSeen : Option Nat} {all : List GithubDeployment} {past : List PollEvent}
    {state : PollState} (left page : Nat) (etag : Option String) (idle : Idle watch all past state) :
    world.Ensures (CursorSafe classify watch) (listOlderPages lastSeen left page all etag) (Read watch) past state := by
  induction left generalizing page all past state with
  | zero =>
      refine ⟨_, rfl, all, idle, ?_⟩
      rintro deployments etag ⟨⟩
      rfl
  | succ left ih =>
      unfold listOlderPages
      apply Ensures.bind
      apply (idle.ensures_page within page none).mono
      rintro _ past state ⟨listing, rfl, more, read, isMore⟩
      cases listing with
      | ok deployments pageEtag =>
          obtain rfl := isMore deployments pageEtag rfl
          by_cases last : lastPage lastSeen deployments = true
          · simp only [last, if_true]
            refine ⟨_, rfl, _, read, ?_⟩
            rintro deployments etag ⟨⟩
            rfl
          · simp only [last, if_false]
            exact ih (page + 1) read
      | _ => exact ⟨_, rfl, _, read, nofun⟩

theorem Idle.ensures_list {past : List PollEvent} {state : PollState} (etag : Option String) (lastSeen : Option Nat)
    (idle : Idle watch [] past state) :
    world.Ensures (CursorSafe classify watch) (listDeployments etag lastSeen) (Read watch) past state := by
  unfold listDeployments
  apply Ensures.bind
  apply (idle.ensures_page within 1 etag).mono
  rintro _ past state ⟨listing, rfl, more, read, isMore⟩
  cases listing with
  | ok deployments firstEtag =>
      obtain rfl := isMore deployments firstEtag rfl
      by_cases last : lastPage lastSeen deployments = true
      · simp only [last, if_true]
        refine ⟨_, rfl, _, read, ?_⟩
        rintro deployments etag ⟨⟩
        rfl
      · simp only [last, if_false]
        exact read.ensures_olderPages within _ 2 firstEtag
  | _ => exact ⟨_, rfl, _, read, nofun⟩

omit within in
theorem asks_handleInflight (watched : WatchRow) (now : Int) (id : Nat) :
    (handleInflight watched now id).Asks (ActsOn id) := by
  have links (ended : EndState) : (environmentUrlOf watched ended).Asks (ActsOn id) := by
    apply Program.Asks.ite
    · exact asks_silent rfl
    · trivial
  have tells (ended : EndState) : (tellConnection watched ended).Asks (ActsOn id) := by
    apply Program.Asks.ite
    · exact (@asks_silent id (.onDeployEnded ended) rfl).orThrow
    · trivial
  unfold handleInflight
  apply Program.Asks.bind (@asks_silent id .inspectInflight rfl).orThrow
  intro state
  cases endOf state (now - watched.inflightStartedAt.getD now) with
  | none => trivial
  | some ended =>
      apply (tells ended).bind
      intro _
      apply Program.Asks.bind ((links ended).bind fun _ => asks_postStatus _ _ _ _ _ _)
      intro reported
      cases reported with
      | notYet => trivial
      | settled problem => exact (asks_writeWatch none rfl).bind fun _ => trivial

/-- The cursor is still the one of the poll, and a list is handed on to a walk
that may begin. -/
def Begun (classify : WatchRow -> GithubDeployment -> Classified) (watch : WatchRow)
    (known : List GithubDeployment -> PollState -> Prop) (result : Except String (Option TickInput))
    (past : List PollEvent) (state : PollState) : Prop :=
  (forall cursor, watch.lastSeenDeploymentId = some cursor -> Stored cursor state) ∧
    forall tick, result = .ok (some tick) -> watch.lastSeenDeploymentId = some tick.lastSeen ∧
      Walking classify watch tick tick.lastSeen past state ∧ known tick.deployments state

omit within in
theorem Idle.nothing {all : List GithubDeployment} {past : List PollEvent} {state : PollState}
    {known : List GithubDeployment -> PollState -> Prop} (idle : Idle watch all past state) :
    Begun classify watch known (.ok none) past state := ⟨idle.stored, nofun⟩

omit within in
theorem Idle.failed {all : List GithubDeployment} {past : List PollEvent} {state : PollState}
    {known : List GithubDeployment -> PollState -> Prop} {error : String} (idle : Idle watch all past state) :
    Begun classify watch known (.error error) past state := ⟨idle.stored, nofun⟩

theorem Idle.ensures_blocked {all : List GithubDeployment} {past : List PollEvent} {state : PollState}
    {known : List GithubDeployment -> PollState -> Prop} (message : String) (key : BlockKey) (time : Int)
    (idle : Idle watch all past state) :
    world.Ensures (CursorSafe classify watch)
      (do
        let _ <- writeWatch { lastError := some (some message) } none
        GithubDeployments.call (.block key time)
        pure none)
      (Begun classify watch known) past state := by
  apply Ensures.bind
  apply Ensures.orThrow
  apply idle.call within rfl
  intro _ written _ saved
  cases written with
  | error error => exact saved.failed
  | ok done =>
      apply Ensures.bind
      apply saved.call within rfl
      intro _ _ _ paused
      exact paused.nothing

omit within in
theorem safe_baseline {past : List PollEvent} {before after : PollState} {patch : WatchPatch} {next : Nat}
    {written : Except String Bool} (isFirst : watch.lastSeenDeploymentId = none)
    (named : patch.lastSeenDeploymentId = some next)
    (performed : Performs before (.patchWatch patch (some none)) written after) :
    CursorSafe classify watch past ⟨before, .patchWatch patch (some none), written, after⟩ := by
  have moves : cursorOf after.row = cursorOf before.row ∨
      (cursorOf before.row = none ∧ cursorOf after.row = some next) := by
    rcases after_of_writeOf performed with rfl | rfl
    · exact Or.inl rfl
    · rcases patchGithubWatch_ifCursor before.row none named with unwritten | ⟨row, isRow, noCursor, _, isWritten, isNext⟩
      · exact Or.inl (by rw [unwritten])
      · refine Or.inr ⟨?_, ?_⟩
        · rw [isRow]
          exact noCursor
        · rw [isWritten]
          exact isNext
  constructor
  case forward =>
    rcases moves with same | ⟨noCursor, isNext⟩
    · exact Or.inl same
    · refine Or.inr (Or.inl ⟨next, isNext, ?_⟩)
      intro current isCurrent
      cases noCursor.symm.trans isCurrent
  case notPassed =>
    intro first last isFirst isLast deployment _ above below
    rcases moves with same | ⟨noCursor, _⟩
    · have unchanged := Option.some.inj (isLast.symm.trans (same.trans isFirst))
      omega
    · cases noCursor.symm.trans isFirst
  case held =>
    intro id _ deployment _ reason isHold
    rw [classifiedOf, freshOf, isFirst] at isHold
    cases isHold
  case newest =>
    intro deployment isStart
    cases isStart
  case claimed => exact fun _ _ isEnqueue => PollOp.noConfusion isEnqueue
  case once => exact fun _ _ isEnqueue => PollOp.noConfusion isEnqueue

theorem ensures_baseline {past : List PollEvent} {state : PollState}
    {known : List GithubDeployment -> PollState -> Prop} (now : Int) (deployments : List GithubDeployment)
    (etag : Option String) (isFirst : watch.lastSeenDeploymentId = none) :
    world.Ensures (CursorSafe classify watch) (baseline {} now deployments etag)
      (Begun classify watch known) past state := by
  have nothing (result : Except String (Option TickInput)) (past : List PollEvent) (state : PollState)
      (none : forall tick, result ≠ .ok (some tick)) : Begun classify watch known result past state := by
    refine ⟨?_, fun tick isTick => absurd isTick (none tick)⟩
    intro cursor isCursor
    cases isFirst.symm.trans isCursor
  unfold baseline
  apply Ensures.bind
  apply Ensures.orThrow
  apply Ensures.perform
  intro before _ written after performed
  have isPerformed : Performs before (.patchWatch _ _) written after := within.performs _ _ _ _ performed
  refine ⟨safe_baseline isFirst rfl isPerformed, ?_⟩
  cases written with
  | error error => exact nothing _ _ _ nofun
  | ok done => exact nothing _ _ _ nofun

theorem Idle.ensures_listed {all : List GithubDeployment} {past : List PollEvent} {state : PollState}
    {known : List GithubDeployment -> PollState -> Prop} (now : Int) (listing : ListResult)
    (idle : Idle watch all past state) (isAll : forall deployments etag, listing = .ok deployments etag -> deployments = all)
    (isKnown : forall deployments etag, listing = .ok deployments etag -> known deployments state) :
    world.Ensures (CursorSafe classify watch) (prepareListed watch {} now listing)
      (Begun classify watch known) past state := by
  unfold prepareListed
  cases listing with
  | notModified =>
      apply Ensures.bind
      apply Ensures.orThrow
      apply idle.call within rfl
      intro _ written _ saved
      cases written with
      | error error => exact saved.failed
      | ok done =>
          simp only
          split
          · exact saved.nothing
          · exact saved.nothing
  | rateLimited retryAt =>
      apply Ensures.bind
      apply idle.call within rfl
      intro _ _ _ paused
      apply Ensures.bind
      apply paused.call within rfl
      intro _ _ _ logged
      exact logged.nothing
  | unauthorized =>
      apply Ensures.bind
      apply Ensures.orThrow
      apply idle.call within rfl
      intro _ revoked _ marked
      cases revoked with
      | error error => exact marked.failed
      | ok done => exact marked.nothing
  | notFound => exact idle.ensures_blocked within _ _ _
  | forbidden message => exact idle.ensures_blocked within _ _ _
  | error status => exact idle.ensures_blocked within _ _ _
  | ok deployments etag =>
      cases isCursor : watch.lastSeenDeploymentId with
      | none => exact ensures_baseline within now deployments etag isCursor
      | some lastSeen =>
          obtain rfl := isAll deployments etag rfl
          refine ⟨idle.stored, ?_⟩
          rintro tick ⟨⟩
          exact ⟨isCursor, Idle.walking idle isCursor, isKnown deployments etag rfl⟩

theorem Idle.ensures_prepare {past : List PollEvent} {state : PollState}
    {known : List GithubDeployment -> PollState -> Prop} (idle : Idle watch [] past state)
    (reads : forall past state, world.Ensures (fun _ _ => True) (listDeployments watch.etag watch.lastSeenDeploymentId)
      (fun result _ state => forall deployments etag, result = .ok (.ok deployments etag) -> known deployments state)
      past state) :
    world.Ensures (CursorSafe classify watch) (prepareTick watch {}) (Begun classify watch known) past state := by
  unfold prepareTick
  by_cases enabled : (!watch.enabled) = true
  · rw [if_pos enabled]
    exact idle.nothing
  · rw [if_neg enabled]
    apply Ensures.bind
    apply idle.call within rfl
    intro _ now _ timed
    apply Ensures.bind
    apply timed.call within rfl
    intro _ watchBlock _ ofWatch
    by_cases waits : blocked watchBlock now = true
    · simp only [waits, if_true]
      exact ofWatch.nothing
    · simp only [waits, if_false]
      apply Ensures.bind
      apply ofWatch.call within rfl
      intro _ connBlock _ ofConnection
      by_cases waits : blocked connBlock now = true
      · simp only [waits, if_true]
        exact ofConnection.nothing
      · simp only [waits, if_false]
        apply Ensures.bind
        apply Ensures.orThrow
        apply ofConnection.call within rfl
        intro _ token _ loaded
        cases token with
        | error error => exact loaded.failed
        | ok token =>
            by_cases missing : token = none
            · simp only [if_pos missing]
              exact loaded.ensures_blocked within _ _ _
            · simp only [if_neg missing]
              cases watch.inflightDeploymentId with
              | some inflight =>
                  apply Ensures.bind
                  apply (loaded.ensures_asks within (asks_handleInflight watch now inflight)).mono
                  intro result past state reported
                  cases result with
                  | error error => exact reported.failed
                  | ok done => exact reported.nothing
              | none =>
                  apply Ensures.bind
                  apply ((loaded.ensures_list within _ _).and (reads _ _)).mono
                  rintro _ past state ⟨⟨listing, rfl, all, read, isAll⟩, isKnown⟩
                  apply read.ensures_listed within now listing isAll
                  rintro deployments etag rfl
                  exact isKnown deployments etag rfl

end

end GithubDeployments
end Dokploy
