import Dokploy.Foundation.Paging
import Dokploy.GithubDeployments.Polling

namespace Dokploy
namespace GithubDeployments

open Foundation
open Foundation.World

/-!
# Every deployment is listed

GitHub serves the deployments page by page, newest first, and new ones come while
the pages are read.  The list that a poll reads has every deployment above the
cursor, up to the newest one in it, when the pages reach down to the cursor.  The
page cap is the only limit: at most so many may be newer than the cursor when the
last page that is read is served.
-/

def pageAt (page : Nat) (deployments : List GithubDeployment) : List GithubDeployment :=
  (deployments.drop ((page - 1) * DEPLOYMENTS_PER_PAGE)).take DEPLOYMENTS_PER_PAGE

/-- The deployments newer than the cursor fit on the pages that are read. -/
def Fits (cursor : Nat) (deployments : List GithubDeployment) : Prop :=
  (deployments.filter fun deployment => decide (cursor < deployment.id)).length ≤
    MAX_DEPLOYMENT_PAGES * DEPLOYMENTS_PER_PAGE

/-- GitHub serves pages of the list, and what is said of it holds when the last
page that is read is served. -/
def Serves (limit : List GithubDeployment -> Prop) (before : PollState) : (op : PollOp) -> op.Answer -> Prop
  | .fetchPage page _, response =>
      NewestFirst GithubDeployment.id before.deployments ∧
        (forall deployments etag, pageResult response = .ok deployments etag ->
          deployments = pageAt page before.deployments) ∧
        (page = MAX_DEPLOYMENT_PAGES -> limit before.deployments)
  | _, _ => True

/-- A poll with a GitHub that serves pages. -/
def servedWorld (limit : List GithubDeployment -> Prop) : World PollState PollOp PollOp.Answer :=
  ⟨fun before op answer after => Performs before op answer after ∧ Serves limit before op answer, Others⟩

variable {cursor : Nat} {limit : List GithubDeployment -> Prop}

theorem within_servedWorld : Within (servedWorld limit) :=
  ⟨fun _ _ _ _ performed => performed.1, fun _ _ step => step⟩

theorem deployments_of_performs {before after : PollState} {op : PollOp} {answer : op.Answer}
    (performed : Performs before op answer after) : after.deployments = before.deployments := by
  cases op with
  | patchWatch patch ifCursor => rcases after_of_writeOf performed with rfl | rfl <;> rfl
  | undoStart watch deployment => rcases after_of_writeOf performed with rfl | rfl <;> rfl
  | prepareStart watch deployment payload =>
      have write : PrepareStart before watch deployment answer after := performed
      unfold PrepareStart at write
      split at write
      · rcases after_of_writeOf write with rfl | rfl <;> rfl
      · rcases write with ⟨reason, _, rfl⟩ | ⟨now, write⟩
        · rfl
        · rcases after_of_writeOf write with rfl | rfl <;> rfl
  | blockedUntil key => exact congrArg PollState.deployments performed.2
  | statusAttempts id state => exact congrArg PollState.deployments performed.2
  | startAttempts id => exact congrArg PollState.deployments performed.2
  | _ => exact congrArg (fun state => state.deployments) performed

/-- Everything above the cursor was listed, up to the newest one that was. -/
def Listed (cursor : Nat) (deployments : List GithubDeployment) (state : PollState) : Prop :=
  Complete GithubDeployment.id cursor deployments state.deployments

theorem lasting_listed : Lasting (servedWorld limit) (Listed cursor) where
  others := by
    intro deployments before after complete others
    have step : Others before after := others
    cases step with
    | created newest => exact complete.grow newest
    | _ => exact complete
  performs := by
    intro deployments before op answer after complete performed
    rw [Listed, deployments_of_performs performed.1]
    exact complete

/-- The first `pages` pages were read. -/
def PagesRead (pages : Nat) (all : List GithubDeployment) (state : PollState) : Prop :=
  Covers GithubDeployment.id (pages * DEPLOYMENTS_PER_PAGE) all state.deployments

variable {all : List GithubDeployment}

theorem PagesRead.meanwhile {pages : Nat} {before after : PollState}
    (read : PagesRead pages all before) (meanwhile : (servedWorld limit).Meanwhile before after) :
    PagesRead pages all after := by
  apply Meanwhile.keeps meanwhile read
  intro state next reached others
  have step : Others state next := others
  cases step with
  | created newest => exact reached.grow newest
  | _ => exact reached

structure NextPage (cursor pages : Nat) (all more : List GithubDeployment) (state : PollState) : Prop where
  read : PagesRead (pages + 1) (all ++ more) state
  complete : lastPage (some cursor) more = true ∨ pages + 1 = MAX_DEPLOYMENT_PAGES -> Listed cursor (all ++ more) state

variable {past : List PollEvent}

theorem PagesRead.ensures_page {pages : Nat} {state : PollState}
    (etag : Option String) (read : PagesRead pages all state) :
    (servedWorld (Fits cursor)).Ensures (fun _ _ => True) (fetchDeploymentsPage (pages + 1) etag)
      (fun result _ state => Exists fun listing => result = .ok listing ∧
        forall deployments etag, listing = .ok deployments etag -> NextPage cursor pages all deployments state)
      past state := by
  unfold fetchDeploymentsPage
  apply Ensures.bind
  apply Ensures.perform
  rintro before meanwhile response after ⟨performed, order, isPage, fits⟩
  have unchanged : after = before := performed
  have reached := read.meanwhile meanwhile
  refine ⟨trivial, pageResult response, rfl, ?_⟩
  intro deployments etag isOk
  obtain rfl := isPage deployments etag isOk
  rw [unchanged]
  have next : Covers GithubDeployment.id ((pages + 1) * DEPLOYMENTS_PER_PAGE)
      (all ++ pageAt (pages + 1) before.deployments) before.deployments := by
    rw [Nat.succ_mul]
    exact reached.page order
  refine ⟨next, fun ends => next.complete order ?_⟩
  intro deployment member above
  rcases ends with last | isCap
  · rw [lastPage, Bool.or_eq_true] at last
    rcases last with handled | short
    · rcases List.any_eq_true.mp handled with ⟨old, inPage, isOld⟩
      apply order.among_of_handled _ (of_decide_eq_true isOld) member above
      rw [Nat.succ_mul, List.take_add]
      exact List.mem_append_right _ inPage
    · rw [Nat.succ_mul]
      exact among_of_short (of_decide_eq_true short) member
  · have few := fits isCap
    rw [Fits, <- isCap] at few
    exact order.among_of_few few member above

theorem PagesRead.ensures_olderPages {pages : Nat}
    {state : PollState} (left : Nat) (etag : Option String) (read : PagesRead pages all state)
    (isLeft : pages + left = MAX_DEPLOYMENT_PAGES) (complete : left = 0 -> Listed cursor all state) :
    (servedWorld (Fits cursor)).Ensures (fun _ _ => True) (listOlderPages (some cursor) left (pages + 1) all etag)
      (fun result _ state => forall deployments etag, result = .ok (.ok deployments etag) -> Listed cursor deployments state)
      past state := by
  induction left generalizing pages all past state with
  | zero =>
      rintro deployments etag ⟨⟩
      exact complete rfl
  | succ left ih =>
      unfold listOlderPages
      apply Ensures.bind
      apply (read.ensures_page none).mono
      rintro _ past state ⟨listing, rfl, next⟩
      cases listing with
      | ok deployments pageEtag =>
          have nextPage := next deployments pageEtag rfl
          by_cases last : lastPage (some cursor) deployments = true
          · simp only [last, if_true]
            rintro listed etag ⟨⟩
            exact nextPage.complete (Or.inl last)
          · simp only [last]
            apply ih nextPage.read (by omega)
            intro isZero
            exact nextPage.complete (Or.inr (by omega))
      | _ => rintro listed etag ⟨⟩

theorem ensures_listed (etag : Option String) (past : List PollEvent) (state : PollState) :
    (servedWorld (Fits cursor)).Ensures (fun _ _ => True) (listDeployments etag (some cursor))
      (fun result _ state => forall deployments etag, result = .ok (.ok deployments etag) -> Listed cursor deployments state)
      past state := by
  unfold listDeployments
  apply Ensures.bind
  have begins : PagesRead 0 [] state := Covers.none _
  apply (begins.ensures_page etag).mono
  rintro _ past state ⟨listing, rfl, next⟩
  cases listing with
  | ok deployments firstEtag =>
      have nextPage := next deployments firstEtag rfl
      by_cases last : lastPage (some cursor) deployments = true
      · simp only [last, if_true]
        rintro listed etag ⟨⟩
        exact nextPage.complete (Or.inl last)
      · simp only [last, if_false]
        exact nextPage.read.ensures_olderPages _ firstEtag rfl nofun
  | _ => exact nofun

/-- Where a poll of a watch with a cursor ends, everything listed up to the stored
cursor was dealt with, and the list is complete. -/
theorem answered_of_polled {texts : Texts} {watch : WatchRow} {state : PollState}
    {stored : Nat} (hasCursor : watch.lastSeenDeploymentId = some cursor)
    (polled : Polled (parseDeploymentPayload texts) watch (Listed cursor) past state)
    (isStored : cursorOf state.row = some stored) {deployment : GithubDeployment} (member : deployment ∈ state.deployments)
    (above : cursor < deployment.id) (notAfter : deployment.id ≤ stored) {dokploy : DokployPayload}
    (isDokploy : deployment.dokploy = some dokploy) (named : dokploy.serviceId = some watch.serviceId) :
    (Exists fun answer => Answered past deployment.id answer) ∨ Claimed past deployment.id := by
  have storedAt {current : Nat} (at_ : Stored current state) : stored = current := by
    rcases at_ with forgotten | isCurrent
    · cases forgotten.symm.trans isStored
    · exact Option.some.inj (isStored.symm.trans isCurrent)
  rcases polled with unmoved | ⟨tick, isTick, ⟨isList, current, atCurrent, reached, dealt⟩, complete⟩
  · have := storedAt (unmoved cursor hasCursor)
    omega
  · obtain rfl := Option.some.inj (hasCursor.symm.trans isTick)
    obtain rfl := storedAt atCurrent
    rcases reached with rfl | ⟨newest, isNewest, isStoredId⟩
    · omega
    · have isListed : deployment ∈ tick.deployments := by
        apply complete.complete deployment member above
        exact ⟨newest, (mem_selectNewDeployments.mp isNewest).1, by omega⟩
      have isNew : deployment ∈ selectNewDeployments tick.deployments tick.lastSeen :=
        mem_selectNewDeployments.mpr ⟨isListed, above⟩
      rcases dealt deployment isNew notAfter with ⟨reason, isIgnored⟩ | answered
      · rw [isList, classifiedOf_tick isTick] at isIgnored
        rcases Option.map_eq_some_iff.mp isIgnored with ⟨found, isFound, ignores⟩
        have inNew := List.mem_reverse.mp (List.mem_of_find?_eq_some isFound)
        have isId := List.find?_some isFound
        have same := complete.order.unique (complete.known found (mem_selectNewDeployments.mp inNew).1) member
          (beq_iff_eq.mp isId)
        rw [same, parseDeploymentPayload, isDokploy] at ignores
        simp only [named, ne_eq, not_true_eq_false, if_false] at ignores
        split at ignores <;> cases ignores
      · exact answered

/-- A poll skips nothing: every deployment for the service, above the old cursor
and up to the new one, was answered or started when the poll ends. -/
theorem pollWatch_skipsNothing (texts : Texts) {watch : WatchRow} {start last : PollState} {events : List PollEvent}
    (isRow : start.row = some watch) (hasCursor : watch.lastSeenDeploymentId = some cursor)
    (runs : (servedWorld (Fits cursor)).Runs start (pollWatch texts (parseDeploymentPayload texts) watch) events last
      (.done ()))
    {stored : Nat} (isStored : cursorOf last.row = some stored) :
    forall deployment, deployment ∈ last.deployments -> cursor < deployment.id -> deployment.id ≤ stored ->
      forall dokploy, deployment.dokploy = some dokploy -> dokploy.serviceId = some watch.serviceId ->
        (Exists fun state => Answered events deployment.id state) ∨ Claimed events deployment.id := by
  have reads (past : List PollEvent) (state : PollState) :
      (servedWorld (Fits cursor)).Ensures (fun _ _ => True) (listDeployments watch.etag watch.lastSeenDeploymentId)
        (fun result _ state => forall deployments etag, result = .ok (.ok deployments etag) ->
          Listed cursor deployments state) past state := by
    rw [hasCursor]
    exact ensures_listed watch.etag past state
  have ensures := @Idle.ensures_poll (parseDeploymentPayload texts) watch _ (Listed cursor) [] start texts within_servedWorld
    lasting_listed (idle_of_row isRow) reads
  rcases ensures.of_done runs with ⟨reached, meanwhile, polled⟩
  have ended : Polled (parseDeploymentPayload texts) watch (Listed cursor) events last :=
    Meanwhile.keeps meanwhile polled fun _ _ before step => before.of_others within_servedWorld lasting_listed step
  intro deployment member above notAfter dokploy isDokploy named
  exact answered_of_polled hasCursor ended isStored member above notAfter isDokploy named

/-- A poll of a watch at 5 that finds a deployment whose image is not pinned. -/
theorem pollWatch_skipsNothing_invalid : Exists fun events =>
    (Exists fun state => Answered events 7 state) ∨ Claimed events 7 := by
  let texts : Texts := { plainTexts with parsePinnedImage := fun _ => none }
  let watch : WatchRow := { newWatch with lastSeenDeploymentId := some 5 }
  let before := stateOf watch [validDeployment 7]
  let tick : TickInput := ⟨0, [validDeployment 7], none, 5, false⟩
  let pass := passOf (parseDeploymentPayload texts watch) watch tick
  let world := servedWorld (Fits 5)
  have fresh : selectNewDeployments [validDeployment 7] 5 = [validDeployment 7] := List.mergeSort_singleton _
  have invalid : Exists fun reason => parseDeploymentPayload texts watch (validDeployment 7) = .invalid reason none :=
    ⟨_, rfl⟩
  rcases invalid with ⟨reason, isInvalid⟩
  have classified : pass.classified (validDeployment 7).id = some (.invalid reason none) := by
    change classification _ (selectNewDeployments [validDeployment 7] 5) 7 = _
    rw [fresh, <- isInvalid]
    rfl
  have begins : world.Runs before (prepareTick watch {}) [] before (prepareTick watch {}) := .start
  have timed := begins.step (0 : Int) before ⟨rfl, trivial⟩
  have ofWatch := timed.step none before ⟨⟨rfl, rfl⟩, trivial⟩
  have ofAccount := ofWatch.step none before ⟨⟨rfl, rfl⟩, trivial⟩
  have loaded := ofAccount.step (.ok (some "token")) before ⟨rfl, trivial⟩
  have prepared : world.Runs before (prepareTick watch {}) _ before (.done (some tick)) :=
    loaded.step (some ⟨200, none, some [some (validDeployment 7)], none⟩) before
      ⟨rfl, List.pairwise_singleton _ _, by rintro deployments etag ⟨⟩; rfl, nofun⟩
  have answers : world.Runs before (handleOne texts pass (some 5) none (validDeployment 7)) [] before
      (answer pass (some 5) 7 .failure STATUS_TEXT.unreadable
        (some s!"Deployment #{(validDeployment 7).id}: {short reason 200}")) := by
    unfold handleOne
    rw [classified]
    exact .start
  have posted := answers.step StatusResult.ok before ⟨rfl, trivial⟩
  have cleared := posted.step () _ ⟨rfl, trivial⟩
  have moved := cleared.step (.ok true) _ ⟨Or.inl ⟨rfl, rfl⟩, trivial⟩
  have goesOn : world.Runs before (handleFresh texts pass [validDeployment 7] (some 5) none) _ _
      (handleFresh texts pass [] (some 7) _) := moved.bind _
  have walks := goesOn.step (.ok true) _ ⟨Or.inl ⟨rfl, rfl⟩, trivial⟩
  rw [<- fresh] at walks
  have polls : world.Runs before (pollWatch texts (parseDeploymentPayload texts) watch) _ _ (.done ()) :=
    ((prepared.bind _).attempt.bind _).trans (walks.attempt.bind _)
  exact ⟨_, pollWatch_skipsNothing texts rfl rfl polls rfl (validDeployment 7) (List.mem_singleton_self _) (by decide)
    (by decide) _ rfl rfl⟩
end GithubDeployments
end Dokploy
