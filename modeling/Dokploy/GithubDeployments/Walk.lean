import Dokploy.GithubDeployments.Cursor
import Mathlib.Data.List.Sort

namespace Dokploy
namespace GithubDeployments

open Foundation

/-!
# The walk over the new deployments

While the new deployments are walked, the stored cursor is the one the walk keeps
or was forgotten, and every new deployment up to it is accounted for: it was
skipped, or it was answered as its classification asks.
-/

/-- The stored cursor, unless the watch was reset. -/
def Stored (current : Nat) (state : PollState) : Prop :=
  cursorOf state.row = none ∨ cursorOf state.row = some current

theorem Stored.of_cursor {current : Nat} {before after : PollState} (stored : Stored current before)
    (same : cursorOf after.row = cursorOf before.row) : Stored current after := by
  rw [Stored, same]
  exact stored

theorem cursor_of_others {before after : PollState} (others : Others before after) :
    cursorOf after.row = cursorOf before.row ∨ cursorOf after.row = none := by
  cases others with
  | @saved row input isRow =>
      rcases upsertGithubWatch_cursor row input with same | forgotten
      · exact Or.inl (by rw [isRow]; exact same)
      · exact Or.inr forgotten
  | renamed owner repo isRow => exact Or.inl (by rw [isRow]; rfl)
  | deleted => exact Or.inr rfl
  | paused blocks => exact Or.inl rfl
  | created newest => exact Or.inl rfl

theorem Stored.of_others {current : Nat} {before after : PollState} (stored : Stored current before)
    (others : Others before after) : Stored current after := by
  rcases cursor_of_others others with same | forgotten
  · exact stored.of_cursor same
  · exact Or.inl forgotten

/-- A deployment that was handled as it is classified. -/
def Accounted (pass : Pass) (past : List PollEvent) (id : Nat) : Prop :=
  match pass.classified id with
  | none | some (.ignore _) => True
  | some (.invalid _ _) => Answered past id .failure
  | some .superseded => Answered past id .inactive
  | some (.deploy _) => Answered past id (if some id ≠ pass.targetId then .inactive else .failure)
  | some (.hold _) => False

theorem Accounted.append {pass : Pass} {past : List PollEvent} {id : Nat} (accounted : Accounted pass past id)
    (event : PollEvent) : Accounted pass (past ++ [event]) id := by
  unfold Accounted at accounted ⊢
  split at accounted
  · trivial
  · trivial
  · exact Answered.append accounted event
  · exact Answered.append accounted event
  · exact Answered.append accounted event
  · exact accounted.elim

theorem mem_selectNewDeployments {deployments : List GithubDeployment} {lastSeen : Nat} {deployment : GithubDeployment} :
    deployment ∈ selectNewDeployments deployments lastSeen <->
      deployment ∈ deployments ∧ lastSeen < deployment.id := by
  rw [selectNewDeployments, List.mem_mergeSort, List.mem_filter, decide_eq_true_eq]

theorem selectNewDeployments_sorted (deployments : List GithubDeployment) (lastSeen : Nat) :
    (selectNewDeployments deployments lastSeen).Pairwise fun first second => first.id ≤ second.id := by
  have sorted := @List.pairwise_mergeSort _ (fun first second : GithubDeployment => decide (first.id ≤ second.id))
    (fun first second third below above => by
      simp only [decide_eq_true_eq] at below above ⊢
      omega)
    (fun first second => by
      simp only [Bool.or_eq_true, decide_eq_true_eq]
      omega)
    (deployments.filter fun deployment => decide (lastSeen < deployment.id))
  apply List.Pairwise.imp _ sorted
  intro first second below
  exact of_decide_eq_true below

theorem mem_of_classification {classify : GithubDeployment -> Classified} {fresh : List GithubDeployment} {id : Nat}
    {found : Classified} (classified : classification classify fresh id = some found) :
    Exists fun deployment => deployment ∈ fresh ∧ deployment.id = id := by
  rcases Option.map_eq_some_iff.mp classified with ⟨deployment, isFound, _⟩
  have member := List.mem_of_find?_eq_some isFound
  have isId := List.find?_some isFound
  exact ⟨deployment, List.mem_reverse.mp member, beq_iff_eq.mp isId⟩

theorem newestDeploy_of_mem {classified : Nat -> Option Classified} {fresh : List GithubDeployment} {id : Nat}
    (sorted : fresh.Pairwise fun first second => first.id ≤ second.id) (isNewest : newestDeploy classified fresh = some id)
    {deployment : GithubDeployment} (member : deployment ∈ fresh)
    (isDeploy : (classified deployment.id).any Classified.isDeploy = true) : deployment.id ≤ id := by
  rcases Option.map_eq_some_iff.mp isNewest with ⟨newest, isFound, rfl⟩
  rcases List.find?_eq_some_iff_append.mp isFound with ⟨_, later, earlier, split, none⟩
  have order : fresh = earlier.reverse ++ newest :: later.reverse := by
    rw [<- List.reverse_reverse fresh, split]
    simp
  rw [order] at member sorted
  rcases List.mem_append.mp member with before | atOrAfter
  · exact (List.pairwise_append.mp sorted).2.2 _ before _ List.mem_cons_self
  · rcases List.mem_cons.mp atOrAfter with rfl | after
    · exact Nat.le_refl _
    · have no := none _ (List.mem_reverse.mp after)
      rw [isDeploy] at no
      cases no

section

variable (classify : WatchRow -> GithubDeployment -> Classified) (watch : WatchRow) (tick : TickInput)

/-- The cursor of the tick, or a new deployment. -/
def Reached (id : Nat) : Prop :=
  id = tick.lastSeen ∨ Exists fun deployment =>
    deployment ∈ selectNewDeployments tick.deployments tick.lastSeen ∧ deployment.id = id

/-- Everything new up to this deployment was dealt with. -/
def DealtUpTo (past : List PollEvent) (id : Nat) : Prop :=
  Reached tick id ∧ forall deployment, deployment ∈ selectNewDeployments tick.deployments tick.lastSeen -> deployment.id ≤ id ->
    Dealt classify watch past deployment.id

/-- Where a walk stands: the list is the one of the poll, nothing was started,
and everything up to the cursor is accounted for.  A claim that could not be
undone may have left the stored cursor further on. -/
structure Walking (current : Nat) (past : List PollEvent) (state : PollState) : Prop where
  isList : listed past = tick.deployments
  notStarted : forall id, ¬ Started past id
  stored : Stored current state ∨ Exists fun taken => Stored taken state ∧ DealtUpTo classify watch tick past taken
  above : tick.lastSeen ≤ current
  reached : Reached tick current
  accounted : forall deployment, deployment ∈ selectNewDeployments tick.deployments tick.lastSeen ->
    deployment.id ≤ current -> Accounted (passOf (classify watch) watch tick) past deployment.id

/-- Where a walk may end: everything up to the stored cursor was dealt with. -/
def Ended (past : List PollEvent) (state : PollState) : Prop :=
  listed past = tick.deployments ∧
    Exists fun current => Stored current state ∧ DealtUpTo classify watch tick past current

/-- No deployment that is held comes at or before this one. -/
def MayTouch (id : Nat) : Prop :=
  forall deployment, deployment ∈ tick.deployments -> forall reason,
    classifiedOf classify watch tick.deployments deployment.id = some (.hold reason) -> id < deployment.id

end

section

variable {classify : WatchRow -> GithubDeployment -> Classified} {watch : WatchRow} {tick : TickInput}

theorem freshOf_tick (isTick : watch.lastSeenDeploymentId = some tick.lastSeen) :
    freshOf watch tick.deployments = selectNewDeployments tick.deployments tick.lastSeen := by
  rw [freshOf, isTick]

theorem classifiedOf_tick (isTick : watch.lastSeenDeploymentId = some tick.lastSeen) (id : Nat) :
    classifiedOf classify watch tick.deployments id = (passOf (classify watch) watch tick).classified id := by
  rw [classifiedOf, freshOf_tick isTick]
  rfl

variable {past : List PollEvent}

theorem dealt_of_accounted {id : Nat} (isTick : watch.lastSeenDeploymentId = some tick.lastSeen)
    (isList : listed past = tick.deployments) (member : Exists fun deployment =>
      deployment ∈ selectNewDeployments tick.deployments tick.lastSeen ∧ deployment.id = id)
    (accounted : Accounted (passOf (classify watch) watch tick) past id) : Dealt classify watch past id := by
  have same : classifiedOf classify watch (listed past) id = (passOf (classify watch) watch tick).classified id := by
    rw [isList, classifiedOf_tick isTick]
  rw [Dealt, same]
  unfold Accounted at accounted
  split at accounted
  · rename_i missing
    rcases member with ⟨deployment, inFresh, isId⟩
    have found := Option.map_eq_none_iff.mp missing
    have no := List.find?_eq_none.mp found deployment (List.mem_reverse.mpr inFresh)
    exact absurd (beq_iff_eq.mpr isId) no
  · rename_i reason isIgnored
    exact Or.inl ⟨reason, isIgnored⟩
  · exact Or.inr (Or.inl ⟨_, accounted⟩)
  · exact Or.inr (Or.inl ⟨_, accounted⟩)
  · exact Or.inr (Or.inl ⟨_, accounted⟩)
  · exact accounted.elim

theorem Dealt.append {past : List PollEvent} {event : PollEvent} {id : Nat} (dealt : Dealt classify watch past id)
    (noPage : pageOf event = []) : Dealt classify watch (past ++ [event]) id := by
  rcases dealt with ⟨reason, isIgnored⟩ | ⟨state, answered⟩ | claimed
  · refine Or.inl ⟨reason, ?_⟩
    rw [listed_append, noPage, List.append_nil]
    exact isIgnored
  · exact Or.inr (Or.inl ⟨state, answered.append event⟩)
  · exact Or.inr (Or.inr (claimed.append event))

theorem DealtUpTo.append {past : List PollEvent} {event : PollEvent} {id : Nat}
    (dealt : DealtUpTo classify watch tick past id) (noPage : pageOf event = []) :
    DealtUpTo classify watch tick (past ++ [event]) id :=
  ⟨dealt.1, fun deployment member below => (dealt.2 deployment member below).append noPage⟩

theorem Walking.dealt {current : Nat} {state : PollState}
    (isTick : watch.lastSeenDeploymentId = some tick.lastSeen) (walking : Walking classify watch tick current past state) :
    DealtUpTo classify watch tick past current :=
  ⟨walking.reached, fun deployment member below =>
    dealt_of_accounted isTick walking.isList ⟨deployment, member, rfl⟩ (walking.accounted deployment member below)⟩

theorem Walking.ended {current : Nat} {past : List PollEvent} {state : PollState}
    (isTick : watch.lastSeenDeploymentId = some tick.lastSeen) (walking : Walking classify watch tick current past state) :
    Ended classify watch tick past state := by
  rcases walking.stored with stored | ⟨taken, stored, dealt⟩
  · exact ⟨walking.isList, current, stored, walking.dealt isTick⟩
  · exact ⟨walking.isList, taken, stored, dealt⟩

theorem Ended.append {past : List PollEvent} {before : PollState} {event : PollEvent}
    (ended : Ended classify watch tick past before) (noPage : pageOf event = [])
    (same : cursorOf event.after.row = cursorOf before.row) :
    Ended classify watch tick (past ++ [event]) event.after := by
  rcases ended with ⟨isList, current, stored, dealt⟩
  refine ⟨?_, current, stored.of_cursor same, dealt.append noPage⟩
  rw [listed_append, noPage, List.append_nil, isList]

theorem Ended.of_others {before after : PollState}
    (ended : Ended classify watch tick past before) (others : Others before after) :
    Ended classify watch tick past after := by
  rcases ended with ⟨isList, current, stored, dealt⟩
  exact ⟨isList, current, stored.of_others others, dealt⟩

theorem Walking.of_others {current : Nat} {before after : PollState}
    (walking : Walking classify watch tick current past before) (others : Others before after) :
    Walking classify watch tick current past after :=
  { walking with
    stored := walking.stored.imp (fun stored => stored.of_others others) fun ⟨taken, stored, dealt⟩ =>
      ⟨taken, stored.of_others others, dealt⟩ }

theorem Walking.append {current : Nat} {past : List PollEvent} {before : PollState} {event : PollEvent}
    (walking : Walking classify watch tick current past before) (noPage : pageOf event = [])
    (noEnqueue : event.op.isEnqueue = false) (same : cursorOf event.after.row = cursorOf before.row) :
    Walking classify watch tick current (past ++ [event]) event.after where
  isList := by rw [listed_append, noPage, List.append_nil, walking.isList]
  notStarted := fun id started => walking.notStarted id (started_append noEnqueue started)
  stored := walking.stored.imp (fun stored => stored.of_cursor same) fun ⟨taken, stored, dealt⟩ =>
    ⟨taken, stored.of_cursor same, dealt.append noPage⟩
  above := walking.above
  reached := walking.reached
  accounted := fun deployment member below => (walking.accounted deployment member below).append event

end

end GithubDeployments
end Dokploy
