import Dokploy.GithubDeployments.Starting

namespace Dokploy
namespace GithubDeployments

open Foundation
open Foundation.World

/-!
# The whole walk

Each deployment is handled at the head of the walk: it is skipped, answered or
started, and the walk goes on from it or ends.  By induction over the new
deployments the walk is safe, and everything up to the stored cursor was dealt
with when it ends.
-/

variable {classify : WatchRow -> GithubDeployment -> Classified} {watch : WatchRow} {tick : TickInput}

/-- Silent operations and statuses of one deployment. -/
def ActsOn (id : Nat) (op : PollOp) : Prop :=
  op.silent = true ∨ Exists fun post : StatusPost => op = .createStatus post ∧ post.deploymentId = id

theorem asks_silent {id : Nat} {op : PollOp} (silent : op.silent = true) : (call op).Asks (ActsOn id) :=
  Program.Asks.perform (Or.inl silent)

/-- What is asked for to post a status of a deployment. -/
def PostsOf (id : Nat) : PollOp -> Prop
  | .createStatus post => post.deploymentId = id
  | .statusAttempts _ _ | .setStatusAttempts _ _ _ | .block _ _ | .markRevoked _ | .now => True
  | _ => False

theorem posts_postStatus (watched : WatchRow) (id : Nat) (state : DeploymentState) (text : String)
    (logUrl environmentUrl : Option String) :
    (postStatus watched id state text logUrl environmentUrl).Asks (PostsOf id) := by
  have asks (op : PollOp) (posts : PostsOf id op) : (call op).Asks (PostsOf id) := Program.Asks.perform posts
  unfold postStatus
  apply Program.Asks.bind
  · exact asks (.createStatus _) rfl
  · intro result
    cases result with
    | ok => exact (asks (.setStatusAttempts id state 0) trivial).bind fun _ => trivial
    | failed status limited =>
        cases limited with
        | some time => exact (asks (.block _ time) trivial).bind fun _ => trivial
        | none =>
            apply Program.Asks.ite
            · exact (asks (.markRevoked _) trivial).orThrow.bind fun _ => trivial
            · apply Program.Asks.ite
              · exact (asks (.setStatusAttempts id state 0) trivial).bind fun _ => trivial
              · apply (asks (.statusAttempts id state) trivial).bind
                intro earlier
                apply Program.Asks.ite
                · exact (asks (.setStatusAttempts id state 0) trivial).bind fun _ => trivial
                · apply (asks (.setStatusAttempts id state (earlier + 1)) trivial).bind
                  intro _
                  apply (asks .now trivial).bind
                  intro _
                  exact (asks (.block _ _) trivial).bind fun _ => trivial

theorem asks_postStatus (watched : WatchRow) (id : Nat) (state : DeploymentState) (text : String)
    (logUrl environmentUrl : Option String) :
    (postStatus watched id state text logUrl environmentUrl).Asks (ActsOn id) := by
  apply (posts_postStatus watched id state text logUrl environmentUrl).mono
  intro op posts
  cases op with
  | createStatus post => exact Or.inr ⟨post, rfl, posts⟩
  | statusAttempts _ _ | setStatusAttempts _ _ _ | block _ _ | markRevoked _ | now => exact Or.inl rfl
  | _ => exact posts.elim

theorem asks_writeWatch {id : Nat} {patch : WatchPatch} (ifCursor : Option (Option Nat))
    (named : patch.lastSeenDeploymentId = none) : (writeWatch patch ifCursor).Asks (ActsOn id) :=
  (@asks_silent id (.patchWatch patch ifCursor) (Option.isNone_iff_eq_none.mpr named)).orThrow

variable {past : List PollEvent} {state : PollState}

theorem Ended.ensures_asks {Result : Type} {id : Nat} {program : Task Result}
    (ended : Ended classify watch tick past state) (may : MayTouch classify watch tick id)
    (asks : program.Asks (ActsOn id)) :
    pollWorld.Ensures (CursorSafe classify watch) program (fun _ past state => Ended classify watch tick past state)
      past state := by
  apply Ensures.of_asks asks ended
  · exact fun _ _ _ held others => held.of_others others
  · rintro past before op answer after (silent | ⟨post, rfl, isId⟩) held performed
    · have quiet := PollOp.quiet_of_silent silent
      exact ⟨safe_of_quiet quiet performed, held.append (pageOf_of_silent silent) (cursor_of_quiet quiet performed)⟩
    · have unchanged : after = before := performed
      refine ⟨safe_status post held.1 (isId ▸ may) performed, held.append rfl ?_⟩
      rw [unchanged]

theorem Ended.ensures_accepted {id : Nat} (pass : Pass)
    (logUrl : Option String) (ended : Ended classify watch tick past state) (may : MayTouch classify watch tick id) :
    pollWorld.Ensures (CursorSafe classify watch) (accepted pass id logUrl) (Stepped classify watch tick id)
      past state := by
  unfold accepted
  apply Ensures.bind
  apply (ended.ensures_asks may (asks_postStatus _ _ _ _ _ _)).mono
  intro answered past state told
  cases answered with
  | error error => exact ⟨told, nofun⟩
  | ok settled =>
      apply Ensures.bind
      apply (told.ensures_asks may (asks_writeWatch none rfl)).mono
      intro written past state saved
      cases written with
      | error error => exact ⟨saved, nofun⟩
      | ok done => exact ⟨saved, nofun⟩

variable {deployment : GithubDeployment} {current : Nat}

theorem Startable.accounted
    (startable : Startable classify watch tick current deployment)
    (answered : Answered past deployment.id .failure) :
    Accounted (passOf (classify watch) watch tick) past deployment.id := by
  rcases startable.valid with ⟨payload, isDeploy⟩
  rw [Accounted, isDeploy]
  simp only [startable.target, ne_eq, not_true_eq_false, if_false]
  exact answered

theorem Walking.ensures_failed (texts : Texts) (error : String) (isTick : watch.lastSeenDeploymentId = some tick.lastSeen)
    (walking : Walking classify watch tick current past state)
    (startable : Startable classify watch tick current deployment) :
    pollWorld.Ensures (CursorSafe classify watch)
      (startFailed texts (passOf (classify watch) watch tick) (some current) deployment.id error)
      (Stepped classify watch tick deployment.id) past state := by
  unfold startFailed
  apply Ensures.bind
  apply walking.call rfl
  intro _ earlier _ counted
  apply Ensures.bind
  apply counted.call rfl
  intro _ _ _ stored
  by_cases again : (earlier : Nat) + 1 < MAX_START_ATTEMPTS
  · simp only [again, if_true]
    exact ⟨stored.ended isTick, nofun⟩
  · simp only [again, if_false]
    apply Ensures.bind
    apply stored.call rfl
    intro _ _ _ cleared
    apply cleared.answer deployment _ _ _ isTick (startable.mayTouch isTick cleared) startable.atHead.reached _
      startable.atHead.others
    intro later _ answered
    exact startable.accounted answered

theorem Walking.ensures_target (texts : Texts) (payload : DeployPayload) (isTick : watch.lastSeenDeploymentId = some tick.lastSeen)
    (walking : Walking classify watch tick current past state)
    (startable : Startable classify watch tick current deployment) (later : current ≤ deployment.id) :
    pollWorld.Ensures (CursorSafe classify watch)
      (startTarget texts (passOf (classify watch) watch tick) (some current) deployment payload)
      (Stepped classify watch tick deployment.id) past state := by
  have may : MayTouch classify watch tick deployment.id := startable.mayTouch isTick walking
  unfold startTarget
  apply Ensures.bind
  apply Ensures.attempt
  apply (walking.ensures_start texts payload isTick startable rfl later).mono
  rintro result past state ⟨ended, walks⟩
  cases result with
  | error error => exact (walks nofun).ensures_failed texts error isTick startable
  | ok outcome =>
      apply Ensures.bind
      cases outcome with
      | started logUrl =>
          apply ended.call rfl
          intro _ _ _ cleared
          exact cleared.ensures_accepted _ logUrl may
      | stale =>
          apply (walks nofun).call rfl
          intro _ _ _ cleared
          exact ⟨cleared.ended isTick, nofun⟩
      | rejected reason =>
          apply (walks nofun).call rfl
          intro _ _ _ cleared
          apply cleared.answer deployment _ _ _ isTick may startable.atHead.reached _ startable.atHead.others
          intro later _ answered
          exact startable.accounted answered

theorem Walking.ensures_one (texts : Texts) (problem : Option String) (isTick : watch.lastSeenDeploymentId = some tick.lastSeen)
    (walking : Walking classify watch tick current past state) (atHead : AtHead tick current deployment)
    (later : current ≤ deployment.id) :
    pollWorld.Ensures (CursorSafe classify watch)
      (handleOne texts (passOf (classify watch) watch tick) (some current) problem deployment)
      (Stepped classify watch tick deployment.id) past state := by
  have answers (state : DeploymentState) (text : String) (problem : Option String)
      (notHeld : forall reason, (passOf (classify watch) watch tick).classified deployment.id ≠ some (.hold reason))
      (ready : forall past, Answered past deployment.id state ->
        Accounted (passOf (classify watch) watch tick) past deployment.id) :=
    walking.answer deployment state text problem isTick (walking.mayTouch isTick atHead notHeld) atHead.reached
      (fun past _ answered => ready past answered) atHead.others
  have skips (notHeld : forall reason, (passOf (classify watch) watch tick).classified deployment.id ≠ some (.hold reason))
      (accounted : Accounted (passOf (classify watch) watch tick) past deployment.id) :=
    walking.advance problem isTick (walking.mayTouch isTick atHead notHeld) ⟨atHead.reached, fun other member below => by
      rcases atHead.others other member below with earlier | same
      · exact walking.accounted other member earlier
      · rw [same]
        exact accounted⟩
  unfold handleOne
  cases found : (passOf (classify watch) watch tick).classified deployment.id with
  | none =>
      apply skips
      · intro reason isHold
        cases found.symm.trans isHold
      · rw [Accounted, found]
        trivial
  | some classified =>
      have notHeld (other : forall reason, classified ≠ .hold reason) (reason : String) :
          (passOf (classify watch) watch tick).classified deployment.id ≠ some (.hold reason) := by
        rw [found]
        exact fun same => other reason (Option.some.inj same)
      cases classified with
      | ignore reason =>
          apply skips (notHeld fun _ same => by cases same)
          rw [Accounted, found]
          trivial
      | hold reason =>
          apply Ensures.bind
          apply Ensures.orThrow
          apply walking.call rfl
          intro _ written _ saved
          cases written with
          | error error => exact ⟨saved.ended isTick, fun _ _ impossible => by cases impossible⟩
          | ok done => exact ⟨saved.ended isTick, fun _ _ impossible => by cases impossible⟩
      | invalid reason statusText =>
          apply answers _ _ _ (notHeld fun _ same => by cases same)
          intro past answered
          rw [Accounted, found]
          exact answered
      | superseded =>
          apply answers _ _ _ (notHeld fun _ same => by cases same)
          intro past answered
          rw [Accounted, found]
          exact answered
      | deploy payload =>
          by_cases target : some deployment.id = (passOf (classify watch) watch tick).targetId
          · simp only [target, ne_eq, not_true_eq_false, if_false]
            exact walking.ensures_target texts payload isTick ⟨atHead, ⟨payload, found⟩, target.symm⟩ later
          · simp only [target, ne_eq, not_false_eq_true, if_true]
            apply answers _ _ _ (notHeld fun _ same => by cases same)
            intro past answered
            rw [Accounted, found]
            simp only [target, ne_eq, not_false_eq_true, if_true]
            exact answered

theorem Walking.ensures_fresh (texts : Texts)
    (left : List GithubDeployment) (problem : Option String) (isTick : watch.lastSeenDeploymentId = some tick.lastSeen)
    (walking : Walking classify watch tick current past state)
    (isNew : forall deployment, deployment ∈ left -> deployment ∈ selectNewDeployments tick.deployments tick.lastSeen)
    (covers : forall deployment, deployment ∈ selectNewDeployments tick.deployments tick.lastSeen ->
      deployment.id ≤ current ∨ deployment ∈ left)
    (sorted : left.Pairwise fun first second => first.id ≤ second.id)
    (above : forall deployment, deployment ∈ left -> current ≤ deployment.id) :
    pollWorld.Ensures (CursorSafe classify watch)
      (handleFresh texts (passOf (classify watch) watch tick) left (some current) problem)
      (fun _ past state => Ended classify watch tick past state) past state := by
  induction left generalizing current past state problem with
  | nil =>
      unfold handleFresh
      apply Ensures.bind
      apply Ensures.orThrow
      apply walking.call rfl
      intro _ written _ saved
      cases written with
      | error error => exact saved.ended isTick
      | ok done => exact saved.ended isTick
  | cons deployment rest ih =>
      have atHead : AtHead tick current deployment := by
        refine ⟨isNew deployment List.mem_cons_self, fun other member below => ?_⟩
        rcases covers other member with earlier | waiting
        · exact Or.inl earlier
        · rcases List.mem_cons.mp waiting with rfl | inRest
          · exact Or.inr rfl
          · exact Or.inr (Nat.le_antisymm below (List.rel_of_pairwise_cons sorted inRest))
      unfold handleFresh
      apply Ensures.bind
      apply (walking.ensures_one texts problem isTick atHead (above deployment List.mem_cons_self)).mono
      rintro result past state ⟨ended, goesOn⟩
      cases result with
      | error error => exact ended
      | ok step =>
          cases step with
          | stop => exact ended
          | next cursor problem =>
              rcases goesOn cursor problem rfl with ⟨rfl, walked⟩
              apply ih problem walked
              · exact fun other inRest => isNew other (List.mem_cons_of_mem _ inRest)
              · intro other member
                rcases covers other member with earlier | waiting
                · exact Or.inl (Nat.le_trans earlier (above deployment List.mem_cons_self))
                · rcases List.mem_cons.mp waiting with rfl | inRest
                  · exact Or.inl (Nat.le_refl _)
                  · exact Or.inr inRest
              · exact sorted.tail
              · exact fun other inRest => List.rel_of_pairwise_cons sorted inRest

theorem ensures_pass (texts : Texts) (problem : Option String)
    (isTick : watch.lastSeenDeploymentId = some tick.lastSeen)
    (walking : Walking classify watch tick tick.lastSeen past state) :
    pollWorld.Ensures (CursorSafe classify watch)
      (handleFresh texts (passOf (classify watch) watch tick)
        (selectNewDeployments tick.deployments tick.lastSeen) (some tick.lastSeen) problem)
      (fun _ past state => Ended classify watch tick past state) past state := by
  apply walking.ensures_fresh texts _ problem isTick
  · exact fun _ member => member
  · exact fun _ member => Or.inr member
  · exact selectNewDeployments_sorted _ _
  · exact fun _ member => Nat.le_of_lt (mem_selectNewDeployments.mp member).2

end GithubDeployments
end Dokploy
