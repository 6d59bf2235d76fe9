import Dokploy.GithubDeployments.Preparing

namespace Dokploy
namespace GithubDeployments

open Foundation
open Foundation.World

/-!
# Polls one after the other

A poll works on the watch as it was read.  In between, and while it runs, others
save, rename or delete the watch, and the process can be started again, also in
the middle of a poll.
-/

variable {classify : WatchRow -> GithubDeployment -> Classified} {watch : WatchRow}

section

variable {world : World PollState PollOp PollOp.Answer} {known : List GithubDeployment -> PollState -> Prop}

/-- Where a poll ends: at its own cursor, or with everything up to the stored one
dealt with. -/
def Polled (classify : WatchRow -> GithubDeployment -> Classified) (watch : WatchRow)
    (known : List GithubDeployment -> PollState -> Prop) (past : List PollEvent) (state : PollState) : Prop :=
  (forall cursor, watch.lastSeenDeploymentId = some cursor -> Stored cursor state) ∨
    Exists fun tick => watch.lastSeenDeploymentId = some tick.lastSeen ∧ Ended classify watch tick past state ∧
      known tick.deployments state

structure Lasting (world : World PollState PollOp PollOp.Answer) (known : List GithubDeployment -> PollState -> Prop) :
    Prop where
  others : forall deployments before after, known deployments before -> world.others before after ->
    known deployments after
  performs : forall deployments before op answer after, known deployments before ->
    world.performs before op answer after -> known deployments after

variable {past : List PollEvent}

theorem Polled.of_others {before after : PollState} (within : Within world)
    (lasting : Lasting world known) (polled : Polled classify watch known past before)
    (others : world.others before after) : Polled classify watch known past after := by
  rcases polled with unmoved | ⟨tick, isTick, ended, isKnown⟩
  · exact Or.inl fun cursor isCursor => (unmoved cursor isCursor).of_others (within.others _ _ others)
  · exact Or.inr ⟨tick, isTick, ended.of_others (within.others _ _ others), lasting.others _ _ _ isKnown others⟩

theorem Polled.append {past : List PollEvent} {before after : PollState} {op : PollOp} {answer : op.Answer}
    (within : Within world) (lasting : Lasting world known) (polled : Polled classify watch known past before)
    (silent : op.silent = true) (performed : world.performs before op answer after) :
    Polled classify watch known (past ++ [⟨before, op, answer, after⟩]) after := by
  have same := cursor_of_quiet (PollOp.quiet_of_silent silent) (within.performs _ _ _ _ performed)
  rcases polled with unmoved | ⟨tick, isTick, ended, isKnown⟩
  · exact Or.inl fun cursor isCursor => (unmoved cursor isCursor).of_cursor same
  · exact Or.inr ⟨tick, isTick, ended.append (pageOf_of_silent silent) same, lasting.performs _ _ _ _ _ isKnown performed⟩

theorem Polled.ensures_silent {Result : Type} {state : PollState} {program : Task Result}
    (within : Within world) (lasting : Lasting world known) (polled : Polled classify watch known past state)
    (asks : program.Asks fun op => op.silent = true) :
    world.Ensures (CursorSafe classify watch) program (fun _ past state => Polled classify watch known past state)
      past state := by
  apply Ensures.of_asks asks polled
  · exact fun _ _ _ reached step => reached.of_others within lasting step
  · intro past before op answer after silent reached performed
    exact ⟨safe_of_quiet (PollOp.quiet_of_silent silent) (within.performs _ _ _ _ performed),
      reached.append within lasting silent performed⟩

theorem Idle.ensures_inner {state : PollState} (texts : Texts) (within : Within world)
    (lasting : Lasting world known) (idle : Idle watch [] past state)
    (reads : forall past state, world.Ensures (fun _ _ => True) (listDeployments watch.etag watch.lastSeenDeploymentId)
      (fun result _ state => forall deployments etag, result = .ok (.ok deployments etag) -> known deployments state)
      past state) :
    world.Ensures (CursorSafe classify watch) (pollWatchInner texts classify watch)
      (fun _ past state => Polled classify watch known past state) past state := by
  unfold pollWatchInner
  apply Ensures.bind
  apply (idle.ensures_prepare within reads).mono
  rintro result past state ⟨unmoved, begins⟩
  cases result with
  | error error => exact Or.inl unmoved
  | ok begun =>
      cases begun with
      | none => exact Or.inl unmoved
      | some tick =>
          rcases begins tick rfl with ⟨isTick, walking, isKnown⟩
          have walks := (ensures_pass texts none isTick walking).restrict within.performs within.others
          apply (walks.and (Ensures.always isKnown (lasting.others tick.deployments)
            (lasting.performs tick.deployments))).mono
          rintro _ past state ⟨ended, stillKnown⟩
          exact Or.inr ⟨tick, isTick, ended, stillKnown⟩

theorem Idle.ensures_poll {past : List PollEvent} {state : PollState} (texts : Texts) (within : Within world)
    (lasting : Lasting world known) (idle : Idle watch [] past state)
    (reads : forall past state, world.Ensures (fun _ _ => True) (listDeployments watch.etag watch.lastSeenDeploymentId)
      (fun result _ state => forall deployments etag, result = .ok (.ok deployments etag) -> known deployments state)
      past state) :
    world.Ensures (CursorSafe classify watch) (pollWatch texts classify watch)
      (fun _ past state => Polled classify watch known past state) past state := by
  unfold pollWatch
  apply Ensures.bind
  apply Ensures.attempt
  apply (idle.ensures_inner texts within lasting reads).mono
  intro result past state polled
  cases result with
  | ok done => exact polled
  | error error =>
      have asks (op : PollOp) (silent : op.silent = true) :
          (GithubDeployments.call op).Asks fun op => op.silent = true := Program.Asks.perform silent
      apply polled.ensures_silent within lasting
      apply (asks (.log _) rfl).bind
      intro _
      apply (asks (.patchWatch { lastError := some (some _) } none) rfl).orThrow.attempt.bind
      intro _
      exact (asks .now rfl).bind fun _ => asks (.block _ _) rfl

end

theorem idle_of_row {state : PollState} (isRow : state.row = some watch) : Idle watch [] [] state where
  isList := rfl
  notStarted := by
    rintro id ⟨_, _, _, _, _, member⟩
    cases member
  stored := fun cursor isCursor => Or.inr (by rw [isRow]; exact isCursor)

/-- What a process that is started again has forgotten. -/
def PollState.restarted (state : PollState) : PollState :=
  { state with statusAttempts := fun _ _ => 0, startAttempts := fun _ => 0, blocks := fun _ => none }

/-- The polls of a watch so far, each with the watch it read and what it did. -/
inductive Polls (texts : Texts) (classify : WatchRow -> GithubDeployment -> Classified) (start : PollState) :
    List (WatchRow × List PollEvent) -> PollState -> Prop
  | none : Polls texts classify start [] start
  | others {polls : List (WatchRow × List PollEvent)} {before after : PollState} :
      Polls texts classify start polls before -> Others before after -> Polls texts classify start polls after
  | restarted {polls : List (WatchRow × List PollEvent)} {before : PollState} :
      Polls texts classify start polls before -> Polls texts classify start polls before.restarted
  | poll {polls : List (WatchRow × List PollEvent)} {before after : PollState} {watch : WatchRow}
      {events : List PollEvent} {left : Task Unit} :
      Polls texts classify start polls before -> before.row = some watch ->
      pollWorld.Runs before (pollWatch texts classify watch) events after left ->
      Polls texts classify start (polls ++ [(watch, events)]) after

theorem Polls.safe {texts : Texts} {start last : PollState} {polls : List (WatchRow × List PollEvent)}
    (reached : Polls texts classify start polls last) {events : List PollEvent}
    (member : (watch, events) ∈ polls) {past later : List PollEvent} {event : PollEvent}
    (split : events = past ++ event :: later) : CursorSafe classify watch past event := by
  induction reached with
  | none => cases member
  | others _ _ ih => exact ih member
  | restarted _ ih => exact ih member
  | poll _ isRow runs ih =>
      rcases List.mem_append.mp member with before | isLast
      · exact ih before
      · obtain ⟨rfl, rfl⟩ := Prod.mk.inj (List.mem_singleton.mp isLast)
        have lasting : Lasting pollWorld fun _ _ => True := ⟨fun _ _ _ _ _ => trivial, fun _ _ _ _ _ _ _ => trivial⟩
        have ensures := @Idle.ensures_poll classify watch pollWorld (fun _ _ => True) [] _ texts within_pollWorld lasting
          (idle_of_row isRow) fun _ _ => Ensures.of_all fun _ _ _ _ _ _ => trivial
        exact (ensures.of_runs runs).1 past event later split

def plainTexts : Texts := ⟨fun image => some ⟨image, image, image⟩, fun _ _ _ => none, fun error _ => error⟩

def newWatch : WatchRow :=
  ⟨"watch", "organization", .application, "web", "account", "owner", "repo", "production", true, none, none, none, none,
    false, none, none, none⟩

/-- A deployment for the service of the watch. -/
def validDeployment (id : Nat) : GithubDeployment := ⟨id, some ⟨some "web", some "image", none⟩⟩

/-- The watch is stored, and nothing is known of it yet. -/
def stateOf (watch : WatchRow) (deployments : List GithubDeployment) : PollState :=
  ⟨some watch, fun _ _ => 0, fun _ => 0, fun _ => none, deployments⟩

private theorem firstPoll : Exists fun last => Exists fun events =>
    Polls plainTexts (parseDeploymentPayload plainTexts) (stateOf newWatch [validDeployment 7]) [(newWatch, events)] last ∧
      listed events = [validDeployment 7] ∧ cursorOf last.row = some 7 ∧
      (forall state, ¬ Answered events 7 state) ∧ ¬ Claimed events 7 := by
  let before := stateOf newWatch [validDeployment 7]
  let program := pollWatch plainTexts (parseDeploymentPayload plainTexts) newWatch
  have begins : pollWorld.Runs before program [] before program := .start
  have timed := begins.step (0 : Int) before rfl
  have ofWatch := timed.step none before ⟨rfl, rfl⟩
  have ofAccount := ofWatch.step none before ⟨rfl, rfl⟩
  have loaded := ofAccount.step (.ok (some "token")) before rfl
  have read := loaded.step (some ⟨200, none, some [some (validDeployment 7)], none⟩) before rfl
  have passed := read.step (.ok true) _ (Or.inl ⟨rfl, rfl⟩)
  refine ⟨_, _, Polls.poll Polls.none rfl passed, rfl, rfl, ?_, ?_⟩
  · rintro state ⟨result, ⟨post, _, _, before, after, member⟩, _⟩
    simp at member
  · rintro ⟨watch, deployment, _, payload, before, answer, after, _, member⟩
    simp at member

end GithubDeployments
end Dokploy
