import Dokploy.GithubDeployments.Answering

namespace Dokploy
namespace GithubDeployments

open Foundation
open Foundation.World

/-!
# Starting a deployment

The claim compares the stored watch with the one of the poll under a lock, so it
moves the cursor only from where the walk stands.  When the deployment cannot be
enqueued the claim is undone; where that fails too, the deployment stays claimed.
-/

variable {classify : WatchRow -> GithubDeployment -> Classified} {watch : WatchRow} {tick : TickInput}

/-- The deployment is the first one after the cursor of the walk. -/
structure AtHead (tick : TickInput) (current : Nat) (deployment : GithubDeployment) : Prop where
  member : deployment ∈ selectNewDeployments tick.deployments tick.lastSeen
  others : forall other, other ∈ selectNewDeployments tick.deployments tick.lastSeen -> other.id ≤ deployment.id ->
    other.id ≤ current ∨ other.id = deployment.id

variable {deployment : GithubDeployment} {current : Nat}

theorem AtHead.reached (atHead : AtHead tick current deployment) :
    Reached tick deployment.id := Or.inr ⟨deployment, atHead.member, rfl⟩

variable {past : List PollEvent} {state : PollState}

theorem Walking.mayTouch
    (isTick : watch.lastSeenDeploymentId = some tick.lastSeen) (walking : Walking classify watch tick current past state)
    (atHead : AtHead tick current deployment)
    (notHeld : forall reason, (passOf (classify watch) watch tick).classified deployment.id ≠ some (.hold reason)) :
    MayTouch classify watch tick deployment.id := by
  intro held _ reason isHold
  rw [classifiedOf_tick isTick] at isHold
  rcases mem_of_classification isHold with ⟨new, inNew, sameId⟩
  by_contra notAfter
  rcases atHead.others new inNew (by omega) with earlier | same
  · have accounted := walking.accounted new inNew earlier
    rw [Accounted, sameId, isHold] at accounted
    exact accounted
  · rw [sameId.symm.trans same] at isHold
    exact notHeld reason isHold

/-- The deployment is claimed, unless the watch was reset. -/
def Taken (id : Nat) (state : PollState) : Prop :=
  forall row, state.row = some row ->
    (row.inflightDeploymentId = some id ∧ row.lastSeenDeploymentId = some id) ∨
      (row.inflightDeploymentId = none ∧ row.lastSeenDeploymentId = none)

theorem Taken.of_others {id : Nat} {before after : PollState} (taken : Taken id before)
    (others : Others before after) : Taken id after := by
  cases others with
  | @saved row input isRow =>
      intro saved isSaved
      obtain rfl := Option.some.inj isSaved
      unfold upsertGithubWatch
      simp only
      split
      · exact Or.inr ⟨rfl, rfl⟩
      · exact taken row isRow
  | @renamed row owner repo isRow =>
      intro renamed isRenamed
      obtain rfl := Option.some.inj isRenamed
      exact taken row isRow
  | deleted =>
      intro row isRow
      cases isRow
  | paused blocks => exact taken
  | created newest => exact taken

theorem Taken.stored {id : Nat} (taken : Taken id state) : Stored id state := by
  unfold Stored
  cases isRow : state.row with
  | none => exact Or.inl rfl
  | some row =>
      rcases taken row isRow with ⟨_, isCursor⟩ | ⟨_, forgotten⟩
      · exact Or.inr isCursor
      · exact Or.inl forgotten

theorem Taken.undone {before : PollState} {claimed : WatchRow}
    (taken : Taken deployment.id before) (isCursor : claimed.lastSeenDeploymentId = some current) :
    Stored current { before with row := undoClaim claimed deployment before.row } := by
  unfold Stored
  cases isRow : before.row with
  | none => exact Or.inl rfl
  | some row =>
      simp only [undoClaim, Option.map_some, cursorOf_some]
      rcases taken row isRow with ⟨isInflight, _⟩ | ⟨noInflight, forgotten⟩
      · rw [if_pos isInflight]
        exact Or.inr isCursor
      · rw [if_neg (by rw [noInflight]; exact nofun)]
        exact Or.inl forgotten

variable {decided : WatchRow}

theorem of_watchChangedSinceTick {stored : Option WatchRow} (unchanged : watchChangedSinceTick stored decided deployment = false)
    (isCursor : decided.lastSeenDeploymentId = some current) :
    Exists fun row => stored = some row ∧ row.lastSeenDeploymentId = some current ∧ current < deployment.id := by
  cases stored with
  | none => cases unchanged
  | some row =>
      refine ⟨row, rfl, ?_⟩
      simp only [watchChangedSinceTick, Bool.or_eq_false_iff, decide_eq_false_iff_not, not_not] at unchanged
      have same : row.lastSeenDeploymentId = some current := unchanged.2.trans isCursor
      have later := unchanged.1.2
      rw [same] at later
      exact ⟨same, by simpa using later⟩

/-- What is said of the deployment that is started. -/
structure Startable (classify : WatchRow -> GithubDeployment -> Classified) (watch : WatchRow) (tick : TickInput)
    (current : Nat) (deployment : GithubDeployment) : Prop where
  atHead : AtHead tick current deployment
  valid : Exists fun payload =>
    (passOf (classify watch) watch tick).classified deployment.id = some (.deploy payload)
  target : (passOf (classify watch) watch tick).targetId = some deployment.id

theorem Startable.mayTouch
    (startable : Startable classify watch tick current deployment)
    (isTick : watch.lastSeenDeploymentId = some tick.lastSeen)
    (walking : Walking classify watch tick current past state) : MayTouch classify watch tick deployment.id := by
  apply walking.mayTouch isTick startable.atHead
  intro reason isHold
  rcases startable.valid with ⟨payload, isDeploy⟩
  cases isDeploy.symm.trans isHold

theorem Startable.newest
    (startable : Startable classify watch tick current deployment)
    (isTick : watch.lastSeenDeploymentId = some tick.lastSeen)
    (walking : Walking classify watch tick current past state) :
    (Exists fun payload => classifiedOf classify watch (listed past) deployment.id = some (.deploy payload)) ∧
      forall other, other ∈ listed past ->
        forall payload, classifiedOf classify watch (listed past) other.id = some (.deploy payload) ->
          other.id ≤ deployment.id ∧ (other.id < deployment.id -> Answered past other.id .inactive) := by
  simp only [walking.isList, classifiedOf_tick isTick]
  refine ⟨startable.valid, ?_⟩
  intro other _ payload isDeploy
  rcases mem_of_classification isDeploy with ⟨new, inNew, sameId⟩
  have isValid : (((passOf (classify watch) watch tick).classified new.id).any Classified.isDeploy) = true := by
    rw [sameId, isDeploy]
    rfl
  have notNewer := newestDeploy_of_mem (selectNewDeployments_sorted _ _) startable.target inNew isValid
  refine ⟨by omega, fun older => ?_⟩
  rcases startable.atHead.others new inNew notNewer with earlier | same
  · have accounted := walking.accounted new inNew earlier
    have notTarget : some other.id ≠ (passOf (classify watch) watch tick).targetId := by
      rw [startable.target]
      exact fun same => absurd (Option.some.inj same) (by omega)
    rw [Accounted, sameId, isDeploy] at accounted
    simp only [notTarget, ne_eq, not_false_eq_true, if_true] at accounted
    exact accounted
  · omega

variable {payload : DeployPayload}

theorem Walking.claimed {before after : PollState} {answer : Except String Prepared}
    (isTick : watch.lastSeenDeploymentId = some tick.lastSeen) (walking : Walking classify watch tick current past before)
    (atHead : AtHead tick current deployment) (stored : Stored deployment.id after)
    (isInflight : after.row.bind WatchRow.inflightDeploymentId = some deployment.id) :
    Walking classify watch tick current
      (past ++ [⟨before, .prepareStart decided deployment payload, answer, after⟩]) after where
  isList := by rw [listed_append, walking.isList]; exact List.append_nil _
  notStarted := fun id started => walking.notStarted id (started_append rfl started)
  stored := by
    refine Or.inr ⟨deployment.id, stored, atHead.reached, fun other inNew below => ?_⟩
    rcases atHead.others other inNew below with earlier | same
    · exact ((walking.dealt isTick).2 other inNew earlier).append rfl
    · rw [same]
      exact Or.inr (Or.inr ⟨decided, deployment, rfl, payload, before, answer, after, isInflight,
        List.mem_append_right _ (List.mem_singleton_self _)⟩)
  above := walking.above
  reached := walking.reached
  accounted := fun other member below => (walking.accounted other member below).append _

theorem Walking.safe_claim {before after : PollState} {answer : Except String Prepared}
    (isTick : watch.lastSeenDeploymentId = some tick.lastSeen) (walking : Walking classify watch tick current past before)
    (startable : Startable classify watch tick current deployment)
    (moves : cursorOf after.row = cursorOf before.row ∨
      (cursorOf before.row = some current ∧ cursorOf after.row = some deployment.id ∧ current < deployment.id ∧
        after.row.bind WatchRow.inflightDeploymentId = some deployment.id)) :
    CursorSafe classify watch past ⟨before, .prepareStart decided deployment payload, answer, after⟩ where
  forward := by
    rcases moves with same | ⟨isCurrent, isNext, later, _⟩
    · exact Or.inl same
    · refine Or.inr (Or.inl ⟨deployment.id, isNext, ?_⟩)
      intro known isKnown
      obtain rfl := Option.some.inj (isCurrent.symm.trans isKnown)
      exact later
  notPassed := by
    intro first next isFirst isNext other member above below
    rcases moves with same | ⟨isCurrent, isMoved, later, isInflight⟩
    · have unchanged := Option.some.inj (isNext.symm.trans (same.trans isFirst))
      omega
    · obtain rfl := Option.some.inj (isCurrent.symm.trans isFirst)
      obtain rfl := Option.some.inj (isMoved.symm.trans isNext)
      rw [walking.isList] at member
      have isNew : other ∈ selectNewDeployments tick.deployments tick.lastSeen :=
        mem_selectNewDeployments.mpr ⟨member, Nat.lt_of_le_of_lt walking.above above⟩
      rcases startable.atHead.others other isNew below with earlier | same
      · omega
      · rw [same]
        exact Or.inr (Or.inr ⟨decided, deployment, rfl, payload, before, answer, after, isInflight,
          List.mem_append_right _ (List.mem_singleton_self _)⟩)
  held := by
    intro known isKnown other member reason isHold
    rw [walking.isList] at member isHold
    obtain rfl := Option.some.inj isKnown
    exact startable.mayTouch isTick walking other member reason isHold
  newest := by
    intro other isStart
    obtain rfl := Option.some.inj isStart
    exact startable.newest isTick walking
  claimed := fun _ _ isEnqueue => PollOp.noConfusion isEnqueue
  once := fun _ _ isEnqueue => PollOp.noConfusion isEnqueue

/-- The transaction of a start: the walk stands where it did, and a claim that
was made is the deployment's. -/
theorem Walking.ensures_prepare (payload : DeployPayload)
    (isTick : watch.lastSeenDeploymentId = some tick.lastSeen) (walking : Walking classify watch tick current past state)
    (startable : Startable classify watch tick current deployment)
    (isCursor : decided.lastSeenDeploymentId = some current) :
    pollWorld.Ensures (CursorSafe classify watch)
      (Program.orThrow (GithubDeployments.call (.prepareStart decided deployment payload)))
      (fun result past state => Walking classify watch tick current past state ∧
        (result = .ok Prepared.prepared -> Taken deployment.id state ∧ Claimed past deployment.id)) past state := by
  apply Ensures.orThrow
  apply Ensures.perform
  intro before meanwhile answer after performed
  have reached := walking.meanwhile meanwhile
  have write : PrepareStart before decided deployment answer after := performed
  have kept (same : after = before) :
      CursorSafe classify watch past ⟨before, .prepareStart decided deployment payload, answer, after⟩ ∧
        Walking classify watch tick current
          (past ++ [⟨before, .prepareStart decided deployment payload, answer, after⟩]) after :=
    ⟨reached.safe_claim isTick startable (Or.inl (by rw [same])), reached.append rfl rfl (by rw [same])⟩
  cases unchanged : watchChangedSinceTick before.row decided deployment with
  | true =>
      unfold PrepareStart at write
      rw [if_pos unchanged] at write
      rcases kept ((after_of_writeOf write).elim id id) with ⟨safe, walked⟩
      refine ⟨safe, ?_⟩
      rcases write with ⟨rfl, _⟩ | ⟨error, rfl, _⟩
      · exact ⟨walked, nofun⟩
      · exact ⟨walked, nofun⟩
  | false =>
      unfold PrepareStart at write
      rw [if_neg (by rw [unchanged]; exact Bool.false_ne_true)] at write
      rcases of_watchChangedSinceTick unchanged isCursor with ⟨row, isRow, isCurrent, later⟩
      rcases write with ⟨reason, rfl, same⟩ | ⟨now, write⟩
      · rcases kept same with ⟨safe, walked⟩
        exact ⟨safe, walked, nofun⟩
      · have taken (isClaimed : after = { before with row := before.row.map fun row => claim row deployment.id now }) :
            Taken deployment.id after ∧ cursorOf after.row = some deployment.id ∧
              after.row.bind WatchRow.inflightDeploymentId = some deployment.id := by
          rw [isClaimed, isRow]
          refine ⟨?_, rfl, rfl⟩
          rintro claimed ⟨⟩
          exact Or.inl ⟨rfl, rfl⟩
        have moved (isClaimed : after = { before with row := before.row.map fun row => claim row deployment.id now }) :
            CursorSafe classify watch past ⟨before, .prepareStart decided deployment payload, answer, after⟩ ∧
              Walking classify watch tick current
                (past ++ [⟨before, .prepareStart decided deployment payload, answer, after⟩]) after := by
          have isBefore : cursorOf before.row = some current := by rw [isRow]; exact isCurrent
          refine ⟨reached.safe_claim isTick startable (Or.inr ⟨isBefore, (taken isClaimed).2.1, later, (taken isClaimed).2.2⟩), ?_⟩
          exact reached.claimed isTick startable.atHead (taken isClaimed).1.stored (taken isClaimed).2.2
        rcases write with ⟨rfl, isClaimed⟩ | ⟨error, rfl, same | isClaimed⟩
        · rcases moved isClaimed with ⟨safe, walked⟩
          refine ⟨safe, walked, fun _ => ⟨(taken isClaimed).1, decided, deployment, rfl, payload, before, _, after,
            (taken isClaimed).2.2, List.mem_append_right _ (List.mem_singleton_self _)⟩⟩
        · rcases kept same with ⟨safe, walked⟩
          exact ⟨safe, walked, nofun⟩
        · rcases moved isClaimed with ⟨safe, walked⟩
          exact ⟨safe, walked, nofun⟩

theorem Walking.safe_enqueue {before after : PollState} {answer : Except String Unit}
    (isTick : watch.lastSeenDeploymentId = some tick.lastSeen) (walking : Walking classify watch tick current past before)
    (startable : Startable classify watch tick current deployment) (claimed : Claimed past deployment.id)
    (same : cursorOf after.row = cursorOf before.row) :
    CursorSafe classify watch past ⟨before, .enqueue deployment payload, answer, after⟩ where
  forward := Or.inl same
  notPassed := by
    intro first next isFirst isNext other _ above below
    have unchanged := Option.some.inj (isNext.symm.trans (same.trans isFirst))
    omega
  held := by
    intro known isKnown other member reason isHold
    rw [walking.isList] at member isHold
    obtain rfl := Option.some.inj isKnown
    exact startable.mayTouch isTick walking other member reason isHold
  newest := by
    intro other isStart
    obtain rfl := Option.some.inj isStart
    exact startable.newest isTick walking
  claimed := by
    intro other given isEnqueue
    obtain ⟨rfl, rfl⟩ := PollOp.enqueue.inj isEnqueue
    exact claimed
  once := fun _ _ _ => walking.notStarted

theorem safe_undo {before after : PollState} {answer : Except String Unit} (failed : EnqueueFailed past deployment)
    (later : current ≤ deployment.id)
    (stored : Stored deployment.id before) (back : cursorOf after.row = cursorOf before.row ∨ Stored current after) :
    CursorSafe classify watch past ⟨before, .undoStart decided deployment, answer, after⟩ where
  forward := Or.inr (Or.inr ⟨decided, deployment, rfl, failed⟩)
  notPassed := by
    intro first next isFirst isNext other _ above below
    rcases back with same | undone
    · have unchanged := Option.some.inj (isNext.symm.trans (same.trans isFirst))
      omega
    · rcases stored with none | isTaken
      · cases none.symm.trans isFirst
      · obtain rfl := Option.some.inj (isTaken.symm.trans isFirst)
        rcases undone with none | isCurrent
        · cases none.symm.trans isNext
        · obtain rfl := Option.some.inj (isCurrent.symm.trans isNext)
          omega
  held := nofun
  newest := nofun
  claimed := fun _ _ isEnqueue => PollOp.noConfusion isEnqueue
  once := fun _ _ isEnqueue => PollOp.noConfusion isEnqueue

theorem Walking.enqueueFailed {before after : PollState} {error : String}
    (walking : Walking classify watch tick current past before) (same : cursorOf after.row = cursorOf before.row) :
    Walking classify watch tick current (past ++ [⟨before, .enqueue deployment payload, .error error, after⟩]) after where
  isList := by rw [listed_append, walking.isList]; exact List.append_nil _
  notStarted := by
    rintro id ⟨other, isId, given, first, last, member⟩
    rcases List.mem_append.mp member with inPast | isEvent
    · exact walking.notStarted id ⟨other, isId, given, first, last, inPast⟩
    · cases List.mem_singleton.mp isEvent
  stored := walking.stored.imp (fun stored => stored.of_cursor same) fun ⟨taken, stored, dealt⟩ =>
    ⟨taken, stored.of_cursor same, dealt.append rfl⟩
  above := walking.above
  reached := walking.reached
  accounted := fun other member below => (walking.accounted other member below).append _

theorem Walking.ensures_undo (texts : Texts)
    (walking : Walking classify watch tick current past state) (failed : EnqueueFailed past deployment)
    (taken : Taken deployment.id state)
    (isCursor : decided.lastSeenDeploymentId = some current) (later : current ≤ deployment.id) :
    pollWorld.Ensures (CursorSafe classify watch) (undoStart texts decided deployment)
      (fun _ past state => Walking classify watch tick current past state) past state := by
  unfold undoStart
  apply Ensures.bind
  apply Ensures.perform
  intro before meanwhile answer after performed
  have reached := walking.meanwhile meanwhile
  have stillTaken : Taken deployment.id before :=
    Meanwhile.keeps meanwhile taken fun _ _ held others => held.of_others others
  have undone : CursorSafe classify watch past ⟨before, .undoStart decided deployment, answer, after⟩ ∧
      Walking classify watch tick current (past ++ [⟨before, .undoStart decided deployment, answer, after⟩]) after := by
    rcases after_of_writeOf performed with same | isUndone
    · have unchanged : cursorOf after.row = cursorOf before.row := by rw [same]
      exact ⟨safe_undo failed later stillTaken.stored (Or.inl unchanged), reached.append rfl rfl unchanged⟩
    · have back : Stored current after := by rw [isUndone]; exact stillTaken.undone isCursor
      exact ⟨safe_undo failed later stillTaken.stored (Or.inr back),
        { isList := by rw [listed_append, reached.isList]; exact List.append_nil _
          notStarted := fun id started => reached.notStarted id (started_append rfl started)
          stored := Or.inl back
          above := reached.above
          reached := reached.reached
          accounted := fun other member below => (reached.accounted other member below).append _ }⟩
  refine ⟨undone.1, ?_⟩
  cases answer with
  | error undoError =>
      apply undone.2.call rfl
      intro _ _ _ logged
      exact logged
  | ok done => exact undone.2

theorem Ended.ensures_logUrl (decided : WatchRow)
    (ended : Ended classify watch tick past state) :
    pollWorld.Ensures (CursorSafe classify watch) (logUrlOf decided)
      (fun result past state => (Exists fun logUrl => result = .ok logUrl) ∧ Ended classify watch tick past state)
      past state := by
  unfold logUrlOf
  by_cases links : decided.postLogUrl = true
  · rw [if_pos links]
    apply ended.call rfl
    intro _ logUrl _ linked
    exact ⟨⟨logUrl, rfl⟩, linked⟩
  · rw [if_neg links]
    exact ⟨⟨none, rfl⟩, ended⟩

theorem Walking.ensures_start (texts : Texts) (payload : DeployPayload)
    (isTick : watch.lastSeenDeploymentId = some tick.lastSeen) (walking : Walking classify watch tick current past state)
    (startable : Startable classify watch tick current deployment)
    (isCursor : decided.lastSeenDeploymentId = some current) (later : current ≤ deployment.id) :
    pollWorld.Ensures (CursorSafe classify watch) (startDeploy texts decided deployment payload)
      (fun result past state => Ended classify watch tick past state ∧
        ((forall logUrl, result ≠ .ok (.started logUrl)) -> Walking classify watch tick current past state))
      past state := by
  unfold startDeploy
  apply Ensures.bind
  apply (walking.ensures_prepare payload isTick startable isCursor).mono
  rintro result preparedPast prepared ⟨walked, taken⟩
  cases result with
  | error error => exact ⟨walked.ended isTick, fun _ => walked⟩
  | ok answer =>
      cases answer with
      | stale => exact ⟨walked.ended isTick, fun _ => walked⟩
      | rejected reason => exact ⟨walked.ended isTick, fun _ => walked⟩
      | prepared =>
          rcases taken rfl with ⟨isTaken, isClaimed⟩
          apply Ensures.bind
          apply Ensures.perform
          intro before meanwhile enqueued after performed
          have reached := walked.meanwhile meanwhile
          have unchanged : after = before := performed
          have same : cursorOf after.row = cursorOf before.row := by rw [unchanged]
          refine ⟨reached.safe_enqueue isTick startable isClaimed same, ?_⟩
          cases enqueued with
          | error error =>
              have failed : Walking classify watch tick current
                  (preparedPast ++ [⟨before, .enqueue deployment payload, .error error, after⟩]) after :=
                reached.enqueueFailed same
              have stillTaken : Taken deployment.id after := by
                rw [unchanged]
                exact Meanwhile.keeps meanwhile isTaken fun _ _ held others => held.of_others others
              apply Ensures.bind
              have isFailure : EnqueueFailed
                  (preparedPast ++ [⟨before, .enqueue deployment payload, .error error, after⟩]) deployment :=
                ⟨payload, before, error, after, List.mem_append_right _ (List.mem_singleton_self _)⟩
              apply (failed.ensures_undo texts isFailure stillTaken isCursor later).mono
              intro result past state walked
              cases result with
              | error undoError => exact ⟨walked.ended isTick, fun _ => walked⟩
              | ok done => exact ⟨walked.ended isTick, fun _ => walked⟩
          | ok done =>
              have ended : Ended classify watch tick
                  (preparedPast ++ [⟨before, .enqueue deployment payload, .ok done, after⟩]) after :=
                (reached.ended isTick).append rfl same
              apply Ensures.bind
              apply (ended.ensures_logUrl decided).mono
              rintro _ past state ⟨⟨logUrl, rfl⟩, linked⟩
              exact ⟨linked, fun notStarted => absurd rfl (notStarted logUrl)⟩

end GithubDeployments
end Dokploy
