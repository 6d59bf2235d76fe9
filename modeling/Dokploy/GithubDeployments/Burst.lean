import Dokploy.GithubDeployments.Coverage

namespace Dokploy
namespace GithubDeployments

open Foundation
open Foundation.World

/-!
# More deployments than pages

The pages of a burst are read one after the other until the cap.  A walk over
deployments that are ignored moves the cursor to the newest of them, so a
deployment below the last page is passed and never answered.
-/

variable {limit : List GithubDeployment -> Prop}

theorem selectNewDeployments_newestFirst {deployments : List GithubDeployment} (lastSeen : Nat)
    (order : NewestFirst GithubDeployment.id deployments) :
    selectNewDeployments deployments lastSeen =
      (deployments.filter fun deployment => decide (lastSeen < deployment.id)).reverse := by
  have isReverse : (selectNewDeployments deployments lastSeen).Perm
      (deployments.filter fun deployment => decide (lastSeen < deployment.id)).reverse :=
    (List.mergeSort_perm _ _).trans (List.reverse_perm _).symm
  apply List.Perm.eq_of_pairwise _ (selectNewDeployments_sorted deployments lastSeen) _ isReverse
  · intro first second inFirst inSecond below above
    have inDeployments := (mem_selectNewDeployments.mp inFirst).1
    have alsoIn := List.mem_of_mem_filter (List.mem_reverse.mp inSecond)
    exact order.unique inDeployments alsoIn (Nat.le_antisymm below above)
  · apply List.pairwise_reverse.mpr
    exact (List.Pairwise.filter _ order).imp fun below => Nat.le_of_lt below

/-- An operation that answers or starts a deployment. -/
def PollOp.handles : PollOp -> Bool
  | .createStatus _ | .prepareStart _ _ _ => true
  | _ => false

theorem runs_page {state : PollState} (order : NewestFirst GithubDeployment.id state.deployments) (page : Nat)
    (etag : Option String) (limited : page = MAX_DEPLOYMENT_PAGES -> limit state.deployments) :
    Exists fun events => (servedWorld limit).Runs state (fetchDeploymentsPage page etag) events state
        (.done (.ok (pageAt page state.deployments) none)) ∧
      forall event, event ∈ events -> event.op.handles = false := by
  have isPage : pageResult (some ⟨200, none, some ((pageAt page state.deployments).map some), none⟩) =
      .ok (pageAt page state.deployments) none := by
    simp [pageResult]
  have served : (servedWorld limit).performs state (.fetchPage page etag)
      (some ⟨200, none, some ((pageAt page state.deployments).map some), none⟩) state := by
    refine ⟨rfl, order, ?_, limited⟩
    intro deployments pageEtag isOk
    exact (ListResult.ok.inj (isPage.symm.trans isOk)).1.symm
  have begins : (servedWorld limit).Runs state (fetchDeploymentsPage page etag) [] state
      (fetchDeploymentsPage page etag) := .start
  have read := begins.step _ state served
  rw [<- isPage]
  refine ⟨_, read, ?_⟩
  intro event member
  rw [List.mem_singleton.mp member]
  rfl

theorem runs_olderPages {state : PollState} (order : NewestFirst GithubDeployment.id state.deployments) {cursor : Nat}
    (limited : limit state.deployments) (left read : Nat) (etag : Option String)
    (full : forall page, read < page -> page ≤ read + left -> lastPage (some cursor) (pageAt page state.deployments) = false) :
    Exists fun events => (servedWorld limit).Runs state
        (listOlderPages (some cursor) left (read + 1) (state.deployments.take (read * DEPLOYMENTS_PER_PAGE)) etag)
        events state (.done (.ok (state.deployments.take ((read + left) * DEPLOYMENTS_PER_PAGE)) etag)) ∧
      forall event, event ∈ events -> event.op.handles = false := by
  induction left generalizing read with
  | zero =>
      refine ⟨[], .start, ?_⟩
      intro event member
      cases member
  | succ left ih =>
      have next : state.deployments.take ((read + 1) * DEPLOYMENTS_PER_PAGE) =
          state.deployments.take (read * DEPLOYMENTS_PER_PAGE) ++ pageAt (read + 1) state.deployments := by
        rw [Nat.succ_mul, List.take_add]
        rfl
      rcases runs_page order (read + 1) none fun _ => limited with ⟨pageEvents, reads, pageQuiet⟩
      rcases ih (read + 1) fun page after upTo => full page (by omega) (by omega) with
        ⟨events, goesOn, quiet⟩
      refine ⟨pageEvents ++ events, ?_, ?_⟩
      · unfold listOlderPages
        apply (reads.bind _).trans
        have notLast := full (read + 1) (by omega) (by omega)
        change (servedWorld limit).Runs state (if lastPage (some cursor) (pageAt (read + 1) state.deployments) = true then _ else _) _ _ _
        rw [notLast, if_neg Bool.false_ne_true, <- next]
        rw [show read + (left + 1) = read + 1 + left by omega]
        exact goesOn
      · intro event member
        rcases List.mem_append.mp member with inPage | later
        · exact pageQuiet event inPage
        · exact quiet event later

theorem runs_listing {state : PollState} (order : NewestFirst GithubDeployment.id state.deployments) {cursor : Nat}
    (limited : limit state.deployments) (etag : Option String)
    (full : forall page, 0 < page -> page ≤ MAX_DEPLOYMENT_PAGES ->
      lastPage (some cursor) (pageAt page state.deployments) = false) :
    Exists fun events => (servedWorld limit).Runs state (listDeployments etag (some cursor)) events state
        (.done (.ok (state.deployments.take (MAX_DEPLOYMENT_PAGES * DEPLOYMENTS_PER_PAGE)) none)) ∧
      forall event, event ∈ events -> event.op.handles = false := by
  rcases runs_page order 1 etag fun _ => limited with ⟨pageEvents, reads, pageQuiet⟩
  rcases runs_olderPages order limited 4 1 none fun page after upTo => full page (by omega) upTo with
    ⟨events, goesOn, quiet⟩
  refine ⟨pageEvents ++ events, ?_, ?_⟩
  · unfold listDeployments
    apply (reads.bind _).trans
    change (servedWorld limit).Runs state (if lastPage (some cursor) (pageAt 1 state.deployments) = true then _ else _) _ _ _
    rw [full 1 Nat.one_pos (by decide), if_neg Bool.false_ne_true]
    exact goesOn
  · intro event member
    rcases List.mem_append.mp member with inPage | later
    · exact pageQuiet event inPage
    · exact quiet event later

theorem runs_advance {state : PollState} {row : WatchRow} {cursor id : Nat} (problem : Option String)
    (isRow : state.row = some row) (isCursor : row.lastSeenDeploymentId = some cursor) (later : cursor < id) :
    Exists fun events => (servedWorld limit).Runs state (advance (some cursor) id problem) events
        { state with row := some { row with lastSeenDeploymentId := some id } } (.done (.next (some id) problem)) ∧
      forall event, event ∈ events -> event.op.handles = false := by
  have written : patchGithubWatch state.row { lastSeenDeploymentId := some id } (some (some cursor)) =
      (some { row with lastSeenDeploymentId := some id }, true) := by
    rw [isRow]
    simp [patchGithubWatch, isCursor, forward, later, WatchRow.set]
  have performed : (servedWorld limit).performs state
      (.patchWatch { lastSeenDeploymentId := some id } (some (some cursor))) (.ok true)
      { state with row := some { row with lastSeenDeploymentId := some id } } := by
    refine ⟨Or.inl ?_, trivial⟩
    rw [written]
    exact ⟨rfl, rfl⟩
  have begins : (servedWorld limit).Runs state (advance (some cursor) id problem) [] state
      (advance (some cursor) id problem) := .start
  have reached := begins.step _ _ performed
  have isLast : max cursor id = id := Nat.max_eq_right (Nat.le_of_lt later)
  have isDone : (Program.done (PassStep.next (some (max cursor id)) problem) : Task PassStep) =
      .done (.next (some id) problem) := by
    rw [isLast]
  rw [<- isDone]
  refine ⟨_, reached, ?_⟩
  intro event member
  rw [List.mem_singleton.mp member]
  rfl

theorem runs_ignored (texts : Texts) (pass : Pass) {left : List GithubDeployment} {state : PollState} {row : WatchRow}
    {cursor : Nat} (isRow : state.row = some row) (isCursor : row.lastSeenDeploymentId = some cursor)
    (ignored : forall deployment, deployment ∈ left ->
      Exists fun reason => pass.classified deployment.id = some (.ignore reason))
    (ascending : left.Pairwise fun first second => first.id < second.id)
    (above : forall deployment, deployment ∈ left -> cursor < deployment.id) :
    Exists fun events => Exists fun last => Exists fun stored =>
      (servedWorld limit).Runs state (handleFresh texts pass left (some cursor) none) events last (.done ()) ∧
        cursorOf last.row = some stored ∧ (forall deployment, deployment ∈ left -> deployment.id ≤ stored) ∧
        cursor ≤ stored ∧ last.deployments = state.deployments ∧
        forall event, event ∈ events -> event.op.handles = false := by
  induction left generalizing state row cursor with
  | nil =>
      let patch : WatchPatch :=
        { etag := some pass.tick.etag, lastCheckedAt := some pass.tick.now, lastError := some none }
      let written := patchGithubWatch state.row patch (some (some cursor))
      have performed : (servedWorld limit).performs state (.patchWatch patch (some (some cursor))) (.ok written.2)
          { state with row := written.1 } := ⟨Or.inl ⟨rfl, rfl⟩, trivial⟩
      have begins : (servedWorld limit).Runs state (handleFresh texts pass [] (some cursor) none) [] state
          (handleFresh texts pass [] (some cursor) none) := .start
      refine ⟨_, _, cursor, begins.step _ _ performed, ?_, nofun, Nat.le_refl _, rfl, ?_⟩
      · have same : cursorOf written.1 = cursorOf state.row := cursorOf_patchGithubWatch rfl
        rw [same, isRow]
        exact isCursor
      · intro event member
        rw [List.mem_singleton.mp member]
        rfl
  | cons deployment rest ih =>
      rcases ignored deployment List.mem_cons_self with ⟨reason, isIgnored⟩
      rcases @runs_advance limit state row cursor deployment.id none isRow isCursor (above deployment List.mem_cons_self) with
        ⟨first, advances, firstQuiet⟩
      have skips : handleOne texts pass (some cursor) none deployment = advance (some cursor) deployment.id none := by
        unfold handleOne
        rw [isIgnored]
      have before : forall other, other ∈ rest -> deployment.id < other.id := fun other inRest =>
        List.rel_of_pairwise_cons ascending inRest
      rcases @ih { state with row := some { row with lastSeenDeploymentId := some deployment.id } } _
          deployment.id rfl rfl (fun other inRest => ignored other (List.mem_cons_of_mem _ inRest)) ascending.tail before with
        ⟨events, last, stored, goesOn, isStored, passed, atLeast, same, quiet⟩
      refine ⟨first ++ events, last, stored, ?_, isStored, ?_, ?_, same, ?_⟩
      · unfold handleFresh
        rw [skips]
        exact (advances.bind _).trans goesOn
      · intro other member
        rcases List.mem_cons.mp member with rfl | inRest
        · exact atLeast
        · exact passed other inRest
      · exact Nat.le_trans (Nat.le_of_lt (above deployment List.mem_cons_self)) atLeast
      · intro event member
        rcases List.mem_append.mp member with inFirst | later
        · exact firstQuiet event inFirst
        · exact quiet event later

def polledWatch : WatchRow := { newWatch with lastSeenDeploymentId := some 5 }

/-- 150 deployments for nobody after one for the service. -/
def burst : List GithubDeployment := (List.range 150).map (fun index => ⟨156 - index, none⟩) ++ [validDeployment 6]

theorem burst_order : NewestFirst GithubDeployment.id burst := by
  apply List.pairwise_append.mpr
  refine ⟨?_, List.pairwise_singleton _ _, ?_⟩
  · apply List.pairwise_map.mpr
    apply (List.pairwise_lt_range (n := 150)).imp_of_mem
    intro first second inFirst inSecond below
    have := List.mem_range.mp inSecond
    simp only
    omega
  · intro newer inNewer older isOlder
    rcases List.mem_map.mp inNewer with ⟨index, inRange, rfl⟩
    have := List.mem_range.mp inRange
    rw [List.mem_singleton.mp isOlder]
    simp only [validDeployment]
    omega

theorem burst_listed : burst.take (MAX_DEPLOYMENT_PAGES * DEPLOYMENTS_PER_PAGE) =
    (List.range 150).map (fun index => ⟨156 - index, none⟩) := by
  apply List.take_left'
  rw [List.length_map, List.length_range]
  rfl

theorem burst_full : forall page, 0 < page -> page ≤ MAX_DEPLOYMENT_PAGES ->
    lastPage (some 5) (pageAt page burst) = false := by
  intro page positive upTo
  have cases : page = 1 ∨ page = 2 ∨ page = 3 ∨ page = 4 ∨ page = 5 := by
    unfold MAX_DEPLOYMENT_PAGES at upTo
    omega
  rcases cases with rfl | rfl | rfl | rfl | rfl <;> decide +kernel

def burstTick : TickInput := ⟨0, burst.take (MAX_DEPLOYMENT_PAGES * DEPLOYMENTS_PER_PAGE), none, 5, false⟩

theorem runs_burstTick : Exists fun events =>
    (servedWorld fun _ => True).Runs (stateOf polledWatch burst) (prepareTick polledWatch {}) events
        (stateOf polledWatch burst) (.done (some burstTick)) ∧
      forall event, event ∈ events -> event.op.handles = false := by
  let before := stateOf polledWatch burst
  rcases @runs_listing (fun _ => True) before burst_order 5 trivial none burst_full with ⟨events, lists, quiet⟩
  have begins : (servedWorld fun _ => True).Runs before (prepareTick polledWatch {}) [] before
      (prepareTick polledWatch {}) := .start
  have timed := begins.step (0 : Int) before ⟨rfl, trivial⟩
  have ofWatch := timed.step none before ⟨⟨rfl, rfl⟩, trivial⟩
  have ofAccount := ofWatch.step none before ⟨⟨rfl, rfl⟩, trivial⟩
  have loaded : (servedWorld fun _ => True).Runs before (prepareTick polledWatch {}) _ before
      (listDeployments none (some 5) >>= fun listed => prepareListed polledWatch {} 0 listed) :=
    ofAccount.step (.ok (some "token")) before ⟨rfl, trivial⟩
  refine ⟨_, loaded.trans (lists.bind _), ?_⟩
  intro event member
  rcases List.mem_append.mp member with first | listing
  · simp only [List.nil_append, List.cons_append, List.mem_cons, List.not_mem_nil, or_false] at first
    rcases first with rfl | rfl | rfl | rfl <;> rfl
  · exact quiet event listing

/-- A poll passes the deployment that did not fit, and does nothing with it. -/
theorem burst_passes : Exists fun events => Exists fun last => Exists fun stored =>
    (servedWorld fun _ => True).Runs (stateOf polledWatch burst)
      (pollWatch plainTexts (parseDeploymentPayload plainTexts) polledWatch) events last (.done ()) ∧
    cursorOf (stateOf polledWatch burst).row = some 5 ∧ cursorOf last.row = some stored ∧
    Exists fun deployment => deployment ∈ last.deployments ∧ 5 < deployment.id ∧ deployment.id ≤ stored ∧
      (Exists fun payload => parseDeploymentPayload plainTexts polledWatch deployment = .deploy payload) ∧
      (forall state, ¬ Answered events deployment.id state) ∧ ¬ Claimed events deployment.id := by
  let pass := passOf (parseDeploymentPayload plainTexts polledWatch) polledWatch burstTick
  let fresh := selectNewDeployments burstTick.deployments burstTick.lastSeen
  have nobody (deployment : GithubDeployment) (member : deployment ∈ fresh) : deployment.dokploy = none := by
    have inList := (mem_selectNewDeployments.mp member).1
    rw [burstTick, burst_listed] at inList
    rcases List.mem_map.mp inList with ⟨index, _, rfl⟩
    rfl
  have ignored (deployment : GithubDeployment) (member : deployment ∈ fresh) :
      Exists fun reason => pass.classified deployment.id = some (.ignore reason) := by
    have exists_ : (fresh.reverse.find? fun other => other.id == deployment.id).isSome = true := by
      apply List.find?_isSome.mpr
      exact ⟨deployment, List.mem_reverse.mpr member, beq_self_eq_true _⟩
    rcases Option.isSome_iff_exists.mp exists_ with ⟨found, isFound⟩
    have inFresh := List.mem_reverse.mp (List.mem_of_find?_eq_some isFound)
    refine ⟨"no dokploy payload", Option.map_eq_some_iff.mpr ⟨found, isFound, ?_⟩⟩
    rw [parseDeploymentPayload, nobody found inFresh]
  have ascending : fresh.Pairwise fun first second => first.id < second.id := by
    have order : NewestFirst GithubDeployment.id burstTick.deployments :=
      burst_order.sublist (List.take_sublist _ _)
    have isReverse : fresh = _ := selectNewDeployments_newestFirst burstTick.lastSeen order
    rw [isReverse]
    exact List.pairwise_reverse.mpr (List.Pairwise.filter _ order)
  have newest : (⟨156, none⟩ : GithubDeployment) ∈ fresh := by
    apply mem_selectNewDeployments.mpr
    rw [burstTick, burst_listed]
    exact ⟨List.mem_map.mpr ⟨0, List.mem_range.mpr (by decide), rfl⟩, by decide⟩
  rcases runs_burstTick with ⟨tickEvents, begins, tickQuiet⟩
  rcases @runs_ignored (fun _ => True) plainTexts pass fresh (stateOf polledWatch burst) polledWatch 5 rfl rfl ignored
      ascending (fun _ member => (mem_selectNewDeployments.mp member).2) with
    ⟨walkEvents, last, stored, walks, isStored, passed, _, same, walkQuiet⟩
  have quiet (event : PollEvent) (member : event ∈ tickEvents ++ walkEvents) : event.op.handles = false := by
    rcases List.mem_append.mp member with inTick | inWalk
    · exact tickQuiet event inTick
    · exact walkQuiet event inWalk
  refine ⟨tickEvents ++ walkEvents, last, stored, ?_, rfl, isStored, validDeployment 6, ?_, by decide, ?_, ⟨_, rfl⟩, ?_, ?_⟩
  · unfold pollWatch pollWatchInner
    exact ((begins.bind _).attempt.bind _).trans (walks.attempt.bind _)
  · rw [same]
    exact List.mem_append_right _ (List.mem_singleton_self _)
  · have : 156 ≤ stored := passed _ newest
    exact Nat.le_trans (by decide) this
  · rintro state ⟨result, ⟨post, _, _, before, after, member⟩, _⟩
    cases quiet _ member
  · rintro ⟨watch, deployment, _, payload, before, answer, after, _, member⟩
    cases quiet _ member

end GithubDeployments
end Dokploy
