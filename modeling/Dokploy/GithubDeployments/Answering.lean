import Dokploy.GithubDeployments.Walk

namespace Dokploy
namespace GithubDeployments

open Foundation
open Foundation.World

/-!
# What one step of the walk ensures

A status that is posted changes nothing about the walk, and when it is settled
the deployment was answered.  The cursor is moved to a deployment only after
that, from where the walk stands.
-/

variable {classify : WatchRow -> GithubDeployment -> Classified} {watch : WatchRow} {tick : TickInput}

variable {past : List PollEvent} {current : Nat}

theorem Walking.meanwhile {before after : PollState}
    (walking : Walking classify watch tick current past before) (meanwhile : pollWorld.Meanwhile before after) :
    Walking classify watch tick current past after :=
  Meanwhile.keeps meanwhile walking fun _ _ reached others => reached.of_others others

theorem Ended.meanwhile {before after : PollState}
    (ended : Ended classify watch tick past before) (meanwhile : pollWorld.Meanwhile before after) :
    Ended classify watch tick past after :=
  Meanwhile.keeps meanwhile ended fun _ _ reached others => reached.of_others others

theorem PollOp.isEnqueue_of_silent {op : PollOp} (silent : op.silent = true) : op.isEnqueue = false := by
  cases op <;> first | rfl | cases silent

variable {state : PollState}

theorem Walking.call {op : PollOp}
    {post : Post PollState PollOp PollOp.Answer String op.Answer} (silent : op.silent = true)
    (walking : Walking classify watch tick current past state)
    (next : forall before answer after, Walking classify watch tick current (past ++ [⟨before, op, answer, after⟩]) after ->
      post (.ok answer) (past ++ [⟨before, op, answer, after⟩]) after) :
    pollWorld.Ensures (CursorSafe classify watch) (call op) post past state := by
  apply Ensures.perform
  intro before meanwhile answer after performed
  have quiet := PollOp.quiet_of_silent silent
  refine ⟨safe_of_quiet quiet performed, next before answer after ?_⟩
  exact (walking.meanwhile meanwhile).append (pageOf_of_silent silent) (PollOp.isEnqueue_of_silent silent)
    (cursor_of_quiet quiet performed)

theorem Ended.call {op : PollOp}
    {post : Post PollState PollOp PollOp.Answer String op.Answer} (silent : op.silent = true)
    (ended : Ended classify watch tick past state)
    (next : forall before answer after, Ended classify watch tick (past ++ [⟨before, op, answer, after⟩]) after ->
      post (.ok answer) (past ++ [⟨before, op, answer, after⟩]) after) :
    pollWorld.Ensures (CursorSafe classify watch) (GithubDeployments.call op) post past state := by
  apply Ensures.perform
  intro before meanwhile answer after performed
  have quiet := PollOp.quiet_of_silent silent
  refine ⟨safe_of_quiet quiet performed, next before answer after ?_⟩
  exact (ended.meanwhile meanwhile).append (pageOf_of_silent silent) (cursor_of_quiet quiet performed)

theorem safe_status {before after : PollState} (posted : StatusPost)
    (isList : listed past = tick.deployments) (may : MayTouch classify watch tick posted.deploymentId) {result : StatusResult}
    (performed : Performs before (.createStatus posted) result after) :
    CursorSafe classify watch past ⟨before, .createStatus posted, result, after⟩ := by
  apply safe_of_unmoved (congrArg (fun state => cursorOf state.row) performed) rfl
  intro id isId deployment member reason isHold
  rw [isList] at member isHold
  rw [<- Option.some.inj isId]
  exact may deployment member reason isHold

theorem Walking.postStatus (watched : WatchRow) (id : Nat)
    (status : DeploymentState) (text : String) (logUrl environmentUrl : Option String)
    (walking : Walking classify watch tick current past state) (may : MayTouch classify watch tick id) :
    pollWorld.Ensures (CursorSafe classify watch) (postStatus watched id status text logUrl environmentUrl)
      (fun result past state => Walking classify watch tick current past state ∧
        forall problem, result = .ok (.settled problem) -> Answered past id status) past state := by
  unfold GithubDeployments.postStatus
  apply Ensures.bind
  apply Ensures.perform
  intro before meanwhile result after performed
  have reached := walking.meanwhile meanwhile
  refine ⟨safe_status _ reached.isList may performed, ?_⟩
  have posted : Posted (past ++ [⟨before, .createStatus _, result, after⟩]) id status result :=
    ⟨_, rfl, rfl, before, after, List.mem_append_right _ (List.mem_singleton_self _)⟩
  have walked : Walking classify watch tick current (past ++ [⟨before, .createStatus _, result, after⟩]) after :=
    reached.append rfl rfl (congrArg (fun state => cursorOf state.row) performed)
  revert posted walked
  generalize past ++ [⟨before, PollOp.createStatus _, result, after⟩] = answeredPast
  intro posted walked
  cases result with
  | ok =>
      apply Ensures.bind
      apply walked.call rfl
      intro _ _ _ cleared
      exact ⟨cleared, fun _ _ => ⟨.ok, posted.append _, Or.inl rfl⟩⟩
  | failed code limited =>
      cases limited with
      | some time =>
          apply Ensures.bind
          apply walked.call rfl
          intro _ _ _ paused
          exact ⟨paused, nofun⟩
      | none =>
          simp only
          by_cases dead : code = 401
          · rw [if_pos dead]
            apply Ensures.bind
            apply Ensures.orThrow
            apply walked.call rfl
            intro _ revoked _ marked
            cases revoked with
            | error error => exact ⟨marked, nofun⟩
            | ok done => exact ⟨marked, nofun⟩
          · rw [if_neg dead]
            by_cases isGone : gone code = true
            · rw [if_pos isGone]
              apply Ensures.bind
              apply walked.call rfl
              intro _ _ _ cleared
              exact ⟨cleared, fun _ _ => ⟨.failed code none, posted.append _, Or.inl isGone⟩⟩
            · rw [if_neg isGone]
              apply Ensures.bind
              apply walked.call rfl
              intro counted (earlier : Nat) afterCount recalled
              simp only
              by_cases enough : MAX_STATUS_ATTEMPTS ≤ earlier + 1
              · rw [if_pos enough]
                have last : LastAttempt (answeredPast ++ [⟨counted, .statusAttempts id status, earlier, afterCount⟩]) id
                    status :=
                  ⟨earlier, enough, counted, afterCount, List.mem_append_right _ (List.mem_singleton_self _)⟩
                apply Ensures.bind
                apply recalled.call rfl
                intro _ _ _ cleared
                exact ⟨cleared, fun _ _ => ⟨.failed code none, (posted.append _).append _, Or.inr (last.append _)⟩⟩
              · rw [if_neg enough]
                apply Ensures.bind
                apply recalled.call rfl
                intro _ _ _ counted
                apply Ensures.bind
                apply counted.call rfl
                intro _ _ _ timed
                apply Ensures.bind
                apply timed.call rfl
                intro _ _ _ paused
                exact ⟨paused, nofun⟩

/-- Everything new up to this new deployment is accounted for. -/
def Ready (classify : WatchRow -> GithubDeployment -> Classified) (watch : WatchRow) (tick : TickInput)
    (past : List PollEvent) (id : Nat) : Prop :=
  Reached tick id ∧ forall deployment, deployment ∈ selectNewDeployments tick.deployments tick.lastSeen ->
    deployment.id ≤ id -> Accounted (passOf (classify watch) watch tick) past deployment.id

theorem Walking.safe_advance {id : Nat} {before after : PollState} {patch : WatchPatch}
    {ifCursor : Option (Option Nat)} {written : Except String Bool}
    (isTick : watch.lastSeenDeploymentId = some tick.lastSeen) (walking : Walking classify watch tick current past before)
    (may : MayTouch classify watch tick id) (ready : Ready classify watch tick past id)
    (named : patch.lastSeenDeploymentId = some id)
    (moves : cursorOf after.row = cursorOf before.row ∨
      (cursorOf before.row = some current ∧ cursorOf after.row = some id ∧ current < id)) :
    CursorSafe classify watch past ⟨before, .patchWatch patch ifCursor, written, after⟩ where
  forward := by
    rcases moves with same | ⟨isCurrent, isNext, later⟩
    · exact Or.inl same
    · refine Or.inr (Or.inl ⟨id, isNext, ?_⟩)
      intro known isKnown
      obtain rfl := Option.some.inj (isCurrent.symm.trans isKnown)
      exact later
  notPassed := by
    intro first next isFirst isNext deployment member above below
    rcases moves with same | ⟨isCurrent, isMoved, later⟩
    · have unchanged := Option.some.inj (isNext.symm.trans (same.trans isFirst))
      omega
    · obtain rfl := Option.some.inj (isCurrent.symm.trans isFirst)
      obtain rfl := Option.some.inj (isMoved.symm.trans isNext)
      rw [walking.isList] at member
      have isNew : deployment ∈ selectNewDeployments tick.deployments tick.lastSeen :=
        mem_selectNewDeployments.mpr ⟨member, Nat.lt_of_le_of_lt walking.above above⟩
      exact (dealt_of_accounted isTick walking.isList ⟨deployment, isNew, rfl⟩ (ready.2 deployment isNew below)).append rfl
  held := by
    intro known isKnown deployment member reason isHold
    rw [walking.isList] at member isHold
    obtain rfl := Option.some.inj (named.symm.trans isKnown)
    exact may deployment member reason isHold
  newest := nofun
  claimed := fun _ _ isEnqueue => PollOp.noConfusion isEnqueue
  once := fun _ _ isEnqueue => PollOp.noConfusion isEnqueue

/-- What a step of the walk leaves: a walk that goes on from the deployment, or
an end. -/
def Stepped (classify : WatchRow -> GithubDeployment -> Classified) (watch : WatchRow) (tick : TickInput) (id : Nat)
    (result : Except String PassStep) (past : List PollEvent) (state : PollState) : Prop :=
  Ended classify watch tick past state ∧ forall cursor problem, result = .ok (.next cursor problem) ->
    cursor = some id ∧ Walking classify watch tick id past state

theorem Walking.moved {id : Nat} {before after : PollState} {patch : WatchPatch}
    {ifCursor : Option (Option Nat)} {written : Except String Bool}
    (walking : Walking classify watch tick current past before) (ready : Ready classify watch tick past id)
    (later : current < id) (isNext : cursorOf after.row = some id) :
    Walking classify watch tick id (past ++ [⟨before, .patchWatch patch ifCursor, written, after⟩]) after where
  isList := by rw [listed_append, walking.isList]; exact List.append_nil _
  notStarted := fun id started => walking.notStarted id (started_append rfl started)
  stored := Or.inl (Or.inr isNext)
  above := Nat.le_trans walking.above (Nat.le_of_lt later)
  reached := ready.1
  accounted := fun deployment member below => (ready.2 deployment member below).append _

theorem Walking.advance {id : Nat} (problem : Option String)
    (isTick : watch.lastSeenDeploymentId = some tick.lastSeen) (walking : Walking classify watch tick current past state)
    (may : MayTouch classify watch tick id) (ready : Ready classify watch tick past id) :
    pollWorld.Ensures (CursorSafe classify watch) (advance (some current) id problem)
      (Stepped classify watch tick id) past state := by
  unfold GithubDeployments.advance writeWatch
  apply Ensures.bind
  apply Ensures.orThrow
  apply Ensures.perform
  intro before meanwhile written after performed
  have reached := walking.meanwhile meanwhile
  rcases @patchGithubWatch_ifCursor before.row { lastSeenDeploymentId := some id } (some current) id rfl with
    unwritten | ⟨row, isRow, isCursor, moved, isWritten, isNext⟩
  · have unchanged : after = before := by
      rcases after_of_writeOf performed with same | same
      · exact same
      · rw [same, unwritten]
    have same : cursorOf after.row = cursorOf before.row := by rw [unchanged]
    have walked : Walking classify watch tick current (past ++ [⟨before, .patchWatch _ _, written, after⟩]) after :=
      reached.append rfl rfl same
    refine ⟨reached.safe_advance isTick may ready rfl (Or.inl same), ?_⟩
    rcases performed with ⟨isAnswer, _⟩ | ⟨error, rfl, _⟩
    · obtain rfl : written = .ok false := isAnswer.trans (by rw [unwritten])
      exact ⟨walked.ended isTick, nofun⟩
    · exact ⟨walked.ended isTick, nofun⟩
  · have isCurrent : cursorOf before.row = some current := by rw [isRow]; exact isCursor
    have later : current < id := moved current rfl
    rcases performed with ⟨isAnswer, isAfter⟩ | ⟨error, rfl, unchanged | isAfter⟩
    · have isMoved : cursorOf after.row = some id := by rw [isAfter, isWritten]; exact isNext
      obtain rfl : written = .ok true := isAnswer.trans (by rw [isWritten])
      have walked : Walking classify watch tick id (past ++ [⟨before,
          .patchWatch { lastSeenDeploymentId := some id } (some (some current)), .ok true, after⟩]) after :=
        reached.moved ready later isMoved
      refine ⟨reached.safe_advance isTick may ready rfl (Or.inr ⟨isCurrent, isMoved, later⟩), walked.ended isTick, ?_⟩
      rintro cursor problem ⟨⟩
      exact ⟨congrArg some (Nat.max_eq_right (Nat.le_of_lt later)), walked⟩
    · have same : cursorOf after.row = cursorOf before.row := by rw [unchanged]
      refine ⟨reached.safe_advance isTick may ready rfl (Or.inl same), ?_⟩
      exact ⟨(reached.append rfl rfl same).ended isTick, nofun⟩
    · have isMoved : cursorOf after.row = some id := by rw [isAfter, isWritten]; exact isNext
      refine ⟨reached.safe_advance isTick may ready rfl (Or.inr ⟨isCurrent, isMoved, later⟩), ?_⟩
      exact ⟨(reached.moved ready later isMoved).ended isTick, nofun⟩

theorem Walking.answer (deployment : GithubDeployment)
    (status : DeploymentState) (text : String) (problem : Option String)
    (isTick : watch.lastSeenDeploymentId = some tick.lastSeen) (walking : Walking classify watch tick current past state)
    (may : MayTouch classify watch tick deployment.id) (reaches : Reached tick deployment.id)
    (ready : forall later, listed later = tick.deployments -> Answered later deployment.id status ->
      Accounted (passOf (classify watch) watch tick) later deployment.id)
    (others : forall other, other ∈ selectNewDeployments tick.deployments tick.lastSeen -> other.id ≤ deployment.id ->
      other.id ≤ current ∨ other.id = deployment.id) :
    pollWorld.Ensures (CursorSafe classify watch)
      (answer (passOf (classify watch) watch tick) (some current) deployment.id status text problem)
      (Stepped classify watch tick deployment.id) past state := by
  unfold GithubDeployments.answer
  apply Ensures.bind
  apply (walking.postStatus _ deployment.id status text none none may).mono
  rintro result after last ⟨walked, answered⟩
  cases result with
  | error error => exact ⟨walked.ended isTick, nofun⟩
  | ok settled =>
      cases settled with
      | notYet => exact ⟨walked.ended isTick, nofun⟩
      | settled given =>
          apply walked.advance problem isTick may
          refine ⟨reaches, fun other member below => ?_⟩
          rcases others other member below with earlier | same
          · exact walked.accounted other member earlier
          · rw [same]
            exact ready after walked.isList (answered given rfl)

end GithubDeployments
end Dokploy
