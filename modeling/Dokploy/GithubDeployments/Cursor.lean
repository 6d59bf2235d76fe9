import Dokploy.GithubDeployments.PollWorld

namespace Dokploy
namespace GithubDeployments

open Foundation

/-!
# The cursor passes nothing unanswered

Every operation of a poll is judged by what the poll did before it.  The cursor
only goes forward, except when a claim is undone; it passes a listed deployment
only when that was ignored, answered or claimed; nothing is done at or after a
deployment that is held; and only the newest valid deployment is started, after
every older one was answered.
-/

section

variable (classify : WatchRow -> GithubDeployment -> Classified) (watch : WatchRow)

/-- The new deployments among the listed ones; a first poll has none. -/
def freshOf (deployments : List GithubDeployment) : List GithubDeployment :=
  match watch.lastSeenDeploymentId with
  | none => []
  | some lastSeen => selectNewDeployments deployments lastSeen

/-- How a listed deployment is classified, by its id. -/
def classifiedOf (deployments : List GithubDeployment) (id : Nat) : Option Classified :=
  classification (classify watch) (freshOf watch deployments) id

/-- The deployment that an operation acts on. -/
def PollOp.concerns : PollOp -> Option Nat
  | .patchWatch patch _ => patch.lastSeenDeploymentId
  | .createStatus post => some post.deploymentId
  | .prepareStart _ deployment _ => some deployment.id
  | .enqueue deployment _ => some deployment.id
  | _ => none

/-- The deployment that an operation starts. -/
def PollOp.starts : PollOp -> Option GithubDeployment
  | .prepareStart _ deployment _ => some deployment
  | .enqueue deployment _ => some deployment
  | _ => none

/-- A listed deployment that may be passed. -/
def Dealt (past : List PollEvent) (id : Nat) : Prop :=
  (Exists fun reason => classifiedOf classify watch (listed past) id = some (.ignore reason)) ∨
    (Exists fun state => Answered past id state) ∨ Claimed past id

/-- What holds of every operation of a poll. -/
structure CursorSafe (past : List PollEvent) (event : PollEvent) : Prop where
  /-- The cursor stays, is set for the first time or moves on; the claim of a
  deployment that could not be enqueued is undone. -/
  forward : cursorOf event.after.row = cursorOf event.before.row ∨
    (Exists fun next => cursorOf event.after.row = some next ∧ Moved (cursorOf event.before.row) next) ∨
    (Exists fun decided => Exists fun deployment => event.op = .undoStart decided deployment ∧
      EnqueueFailed past deployment)
  /-- Nothing is passed that was not dealt with. -/
  notPassed : forall current next, cursorOf event.before.row = some current -> cursorOf event.after.row = some next ->
    forall deployment, deployment ∈ listed past -> current < deployment.id -> deployment.id ≤ next ->
      Dealt classify watch (past ++ [event]) deployment.id
  /-- A deployment that is held stops the pass before it. -/
  held : forall id, event.op.concerns = some id -> forall deployment, deployment ∈ listed past ->
    forall reason, classifiedOf classify watch (listed past) deployment.id = some (.hold reason) -> id < deployment.id
  /-- What is started is the newest valid deployment, and the older valid ones
  were answered. -/
  newest : forall deployment, event.op.starts = some deployment ->
    (Exists fun payload => classifiedOf classify watch (listed past) deployment.id = some (.deploy payload)) ∧
      forall other, other ∈ listed past ->
        forall payload, classifiedOf classify watch (listed past) other.id = some (.deploy payload) ->
          other.id ≤ deployment.id ∧ (other.id < deployment.id -> Answered past other.id .inactive)
  /-- A deployment is enqueued after its start was committed. -/
  claimed : forall deployment payload, event.op = .enqueue deployment payload -> Claimed past deployment.id
  /-- At most one deployment is started. -/
  once : forall deployment payload, event.op = .enqueue deployment payload -> forall id, ¬ Started past id

end

theorem listed_append (past : List PollEvent) (event : PollEvent) : listed (past ++ [event]) = listed past ++ pageOf event := by
  rw [listed, List.flatMap_append, List.flatMap_singleton]
  rfl

theorem Posted.append {past : List PollEvent} {id : Nat} {state : DeploymentState} {result : StatusResult}
    (posted : Posted past id state result) (event : PollEvent) : Posted (past ++ [event]) id state result := by
  rcases posted with ⟨post, isId, isState, before, after, member⟩
  exact ⟨post, isId, isState, before, after, List.mem_append_left _ member⟩

theorem LastAttempt.append {past : List PollEvent} {id : Nat} {state : DeploymentState}
    (last : LastAttempt past id state) (event : PollEvent) : LastAttempt (past ++ [event]) id state := by
  rcases last with ⟨earlier, enough, before, after, member⟩
  exact ⟨earlier, enough, before, after, List.mem_append_left _ member⟩

theorem Answered.append {past : List PollEvent} {id : Nat} {state : DeploymentState}
    (answered : Answered past id state) (event : PollEvent) : Answered (past ++ [event]) id state := by
  rcases answered with ⟨result, posted, settles | last⟩
  · exact ⟨result, posted.append event, Or.inl settles⟩
  · exact ⟨result, posted.append event, Or.inr (last.append event)⟩

theorem Claimed.append {past : List PollEvent} {id : Nat} (claimed : Claimed past id) (event : PollEvent) :
    Claimed (past ++ [event]) id := by
  rcases claimed with ⟨watch, deployment, isId, payload, before, answer, after, isInflight, member⟩
  exact ⟨watch, deployment, isId, payload, before, answer, after, isInflight, List.mem_append_left _ member⟩

def PollOp.isEnqueue : PollOp -> Bool
  | .enqueue _ _ => true
  | _ => false

variable {past : List PollEvent}

theorem started_append {event : PollEvent} (other : event.op.isEnqueue = false) {id : Nat}
    (started : Started (past ++ [event]) id) : Started past id := by
  rcases started with ⟨deployment, isId, payload, before, after, member⟩
  rcases List.mem_append.mp member with inPast | isEvent
  · exact ⟨deployment, isId, payload, before, after, inPast⟩
  · rw [<- List.mem_singleton.mp isEvent] at other
    cases other

/-- An operation that neither moves the cursor nor acts on a deployment. -/
def PollOp.quiet : PollOp -> Bool
  | .patchWatch patch _ => patch.lastSeenDeploymentId.isNone
  | .createStatus _ | .prepareStart _ _ _ | .enqueue _ _ | .undoStart _ _ => false
  | _ => true

/-- An operation that is quiet and reads no page. -/
def PollOp.silent : PollOp -> Bool
  | .fetchPage _ _ => false
  | op => op.quiet

variable {op : PollOp}

theorem PollOp.quiet_of_silent (silent : op.silent = true) : op.quiet = true := by
  cases op <;> first | exact silent | rfl

theorem PollOp.concerns_of_quiet (quiet : op.quiet = true) : op.concerns = none := by
  cases op with
  | patchWatch patch ifCursor => exact Option.isNone_iff_eq_none.mp quiet
  | _ => first | rfl | cases quiet

theorem PollOp.starts_of_quiet (quiet : op.quiet = true) : op.starts = none := by
  cases op <;> first | rfl | cases quiet

theorem after_of_writeOf {State Value : Type} {before written after : State} {value : Value} {answer : Except String Value}
    (write : WriteOf before written value answer after) : after = before ∨ after = written := by
  rcases write with ⟨_, same⟩ | ⟨_, _, same⟩
  · exact Or.inr same
  · exact same

variable {answer : op.Answer}

theorem cursor_of_quiet {before after : PollState} (quiet : op.quiet = true)
    (performed : Performs before op answer after) : cursorOf after.row = cursorOf before.row := by
  cases op with
  | patchWatch patch ifCursor =>
      rcases after_of_writeOf performed with rfl | rfl
      · rfl
      · exact cursorOf_patchGithubWatch (Option.isNone_iff_eq_none.mp quiet)
  | createStatus post => cases quiet
  | prepareStart watch deployment payload => cases quiet
  | enqueue deployment payload => cases quiet
  | undoStart watch deployment => cases quiet
  | blockedUntil key => exact congrArg (fun state => cursorOf state.row) performed.2
  | statusAttempts id state => exact congrArg (fun state => cursorOf state.row) performed.2
  | startAttempts id => exact congrArg (fun state => cursorOf state.row) performed.2
  | _ => exact congrArg (fun state => cursorOf state.row) performed

variable {classify : WatchRow -> GithubDeployment -> Classified} {watch : WatchRow}

/-- An operation that leaves the cursor and starts nothing is safe, when nothing
is held up to the deployment it acts on. -/
theorem safe_of_unmoved {before after : PollState}
    (same : cursorOf after.row = cursorOf before.row) (noStart : op.starts = none)
    (held : forall id, op.concerns = some id -> forall deployment, deployment ∈ listed past -> forall reason,
      classifiedOf classify watch (listed past) deployment.id = some (.hold reason) -> id < deployment.id) :
    CursorSafe classify watch past ⟨before, op, answer, after⟩ where
  forward := Or.inl same
  notPassed := by
    intro current next isCurrent isNext deployment _ above below
    have unchanged := Option.some.inj (isNext.symm.trans (same.trans isCurrent))
    omega
  held := held
  newest := by
    intro deployment isStart
    cases noStart.symm.trans isStart
  claimed := by
    rintro deployment payload rfl
    cases noStart
  once := by
    rintro deployment payload rfl
    cases noStart

theorem safe_of_quiet {before after : PollState}
    (quiet : op.quiet = true) (performed : Performs before op answer after) :
    CursorSafe classify watch past ⟨before, op, answer, after⟩ := by
  apply safe_of_unmoved (cursor_of_quiet quiet performed) (PollOp.starts_of_quiet quiet)
  intro id isId
  cases (PollOp.concerns_of_quiet quiet).symm.trans isId

theorem pageOf_of_silent {before after : PollState} (silent : op.silent = true) :
    pageOf ⟨before, op, answer, after⟩ = [] := by
  cases op <;> first | rfl | cases silent

end GithubDeployments
end Dokploy
