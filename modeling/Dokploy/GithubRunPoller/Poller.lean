import Dokploy.Foundation.Number
import Dokploy.Foundation.Objects
import Dokploy.GithubRunPoller.Progress

namespace Dokploy
namespace GithubRunPoller

open Foundation

/-!
# One pass over the live rows

The poller follows the GitHub run behind every live deployment row.  A pass lists
the rows, forgets those that are not listed, and goes through the listed ones,
the one read longest ago first.  It reads GitHub for at most a fixed number of
rows.

Everything the poller asks of others is an operation, and so is everything it
does to what it remembers between two passes.  A row that throws does not end the
pass.
-/

def POLL_INTERVAL_MS : Nat := 15000

def UNAUTHENTICATED_POLL_INTERVAL_MS : Nat := 60000

def UNREADABLE_POLL_INTERVAL_MS : Nat := 300000

def MAX_BACKOFF_MS : Nat := 900000

def MAX_LIVE_ROW_AGE_MS : Nat := 21600000

def DEPLOY_TAKEOVER_GRACE_MS : Nat := 600000

def MAX_READS_PER_PASS : Nat := 25

def DEPLOY_QUEUED_BACKSTOP_MS : Nat := 86400000

def RUN_UNREADABLE_LINE : String :=
  GITHUB_LOG_PREFIX ++ " Dokploy cannot read this run, so the steps are not shown here. Connect GitHub in Settings to see them, or open the run."

/-- A deployment row that waits for its run, as far as the poller reads it. -/
structure LiveRunRow where
  deploymentId : String
  buildRunId : String
  buildRunUrl : Option String
  buildRunStatus : Option String
  buildRunStep : Option String
  startedAt : Option String
  createdAt : String
  deployQueuedAt : Option String
  deriving DecidableEq

structure RunRead where
  status : Option String
  conclusion : Option String
  deriving DecidableEq

inductive RunFetchResult where
  | ok (jobs : List GithubRunJob) (run : Option RunRead) (authenticated : Bool)
      (rateLimitRemaining rateLimitResetAt : Option Number)
  | unreadable
  | backoff (retryAfterMs : Number)
  deriving DecidableEq

structure RowState where
  nextPollAt : Number
  logged : Option (List String)
  lastStatus : Option String
  lastStep : Option String
  finishedAt : Option Nat
  lastReadAt : Nat
  deriving DecidableEq

/-- An assignment to one field of a row's state. -/
inductive Assignment where
  | nextPollAt (value : Number)
  | logged (lines : List String)
  | lastStatus (value : Option String)
  | lastStep (value : Option String)
  | finishedAt (value : Nat)
  | lastReadAt (value : Nat)
  deriving DecidableEq

def Assignment.apply (state : RowState) : Assignment -> RowState
  | .nextPollAt value => { state with nextPollAt := value }
  | .logged lines => { state with logged := some lines }
  | .lastStatus value => { state with lastStatus := value }
  | .lastStep value => { state with lastStep := value }
  | .finishedAt value => { state with finishedAt := some value }
  | .lastReadAt value => { state with lastReadAt := value }

abbrev Table : Type := List (String × RowState)

inductive PollerOp where
  | listLiveRows
  | now
  | states
  | forget (id : String)
  | stateOf (row : LiveRunRow)
  | assign (id : String) (assignment : Assignment)
  | takeRead
  | fetchRun (row : LiveRunRow)
  | readLog (row : LiveRunRow)
  | appendLines (row : LiveRunRow) (lines : List String)
  | setProgress (id : String) (status : RunStatus) (step : Option String)
  | markRunFinished (id : String)
  | endRow (id : String) (outcome : EndOutcome)
  deriving DecidableEq

abbrev PollerOp.Answer : PollerOp -> Type
  | .listLiveRows => Except String (List LiveRunRow)
  | .now => Nat
  | .states => Table
  | .forget _ => Unit
  | .stateOf _ => RowState
  | .assign _ _ => Unit
  | .takeRead => Bool
  | .fetchRun _ => Except String RunFetchResult
  | .readLog _ => Except String String
  | .appendLines _ _ => Except String Unit
  | .setProgress _ _ _ => Except String Bool
  | .markRunFinished _ => Except String Bool
  | .endRow _ _ => Except String Bool

abbrev Task := Program PollerOp PollerOp.Answer String

def call (op : PollerOp) : Task op.Answer := Program.perform op

/-- Assign to the state in the table, and to the copy at hand. -/
def assign (row : LiveRunRow) (state : RowState) (assignment : Assignment) : Task RowState := do
  call (.assign row.deploymentId assignment)
  pure (assignment.apply state)

def conclusionOfRun (run : Option RunRead) (fromJobs : RunConclusion) : RunConclusion :=
  match run.bind RunRead.conclusion with
  | some "success" => .success
  | some "failure" | some "timed_out" | some "startup_failure" | some "action_required" => .failure
  | some "cancelled" => .cancelled
  | some "skipped" | some "neutral" =>
      if fromJobs = .failure ∨ fromJobs = .cancelled then fromJobs else .skipped
  | _ => fromJobs

def openRunLine (row : LiveRunRow) : List String :=
  match given row.buildRunUrl with
  | some url => [GITHUB_LOG_PREFIX ++ " Open the run: " ++ url]
  | none => []

/-- The text without the first place where a part stands in it. -/
def removeFirst (part : List Char) : List Char -> List Char
  | [] => []
  | char :: rest =>
      if part.isPrefixOf (char :: rest) then (char :: rest).drop part.length else char :: removeFirst part rest

/-- What a row is followed with when it is seen first. -/
def freshState (row : LiveRunRow) : RowState :=
  { nextPollAt := .ofNat 0, logged := none, lastStatus := row.buildRunStatus, lastStep := row.buildRunStep,
    finishedAt := none, lastReadAt := 0 }

def loggedLines (row : LiveRunRow) (state : RowState) : Task (List String × RowState) :=
  match state.logged with
  | some lines => pure (lines, state)
  | none => do
      let text <- (call (.readLog row)).orThrow
      let state <- assign row state (.logged (loggedLinesOf text))
      pure (loggedLinesOf text, state)

def withLines (logged lines : List String) : List String := logged ++ unseen logged lines

def writeLines (row : LiveRunRow) (state : RowState) (lines : List String) : Task RowState :=
  if lines.isEmpty then pure state
  else do
    (call (.appendLines row lines)).orThrow
    let (logged, state) <- loggedLines row state
    assign row state (.logged (withLines logged lines))

def endBecause (row : LiveRunRow) (state : RowState) (outcome : EndOutcome) (lines : List String) : Task Unit := do
  let ended <- (call (.endRow row.deploymentId outcome)).orThrow
  call (.forget row.deploymentId)
  -- A row a deploy took over in the meantime is not written to.
  if ended then
    let _ <- writeLines row state lines
    pure ()
  else pure ()

/-- End a row with a message, which is also logged. -/
def endWith (row : LiveRunRow) (state : RowState) (message : String) (deployQueued : Bool) : Task Unit :=
  endBecause row state { status := .error, errorMessage := message, deployQueued := deployQueued }
    ((GITHUB_LOG_PREFIX ++ " " ++ message) :: openRunLine row)

/-- Write the progress, unless the row has stopped waiting. -/
def showProgress (row : LiveRunRow) (state : RowState) (status : RunStatus) (shown : RunStatus) (step : Option String) :
    Task Unit := do
  let stillWaiting <- (call (.setProgress row.deploymentId shown step)).orThrow
  if !stillWaiting then call (.forget row.deploymentId)
  else
    let state <- assign row state (.lastStatus (some status.text))
    let _ <- assign row state (.lastStep step)
    pure ()

section Reading

variable (round : Rat -> Number) (parseDate : String -> Option Int)

def timeOf (value : Option String) : Option Int := (given value).bind parseDate

def startedAtOf (row : LiveRunRow) (now : Nat) : Int :=
  ((timeOf parseDate row.startedAt).or (timeOf parseDate (some row.createdAt))).getD now

/-- When the row is polled next after a read that succeeded. -/
def nextPollAfter (now : Nat) (authenticated : Bool) (remaining resetAt : Option Number) : Number :=
  let regular := Number.ofNat (now + if authenticated then POLL_INTERVAL_MS else UNAUTHENTICATED_POLL_INTERVAL_MS)
  match remaining, resetAt with
  | some remaining, some resetAt =>
      if remaining.less (.ofNat 5) then regular.max (resetAt.min (.ofNat (now + MAX_BACKOFF_MS))) else regular
  | _, _ => regular

def followUnreadable (row : LiveRunRow) (state : RowState) (now : Nat) : Task Unit := do
  let state <- assign row state (.nextPollAt (.ofNat (now + UNREADABLE_POLL_INTERVAL_MS)))
  let (logged, state) <- loggedLines row state
  let state <- if RUN_UNREADABLE_LINE ∈ logged then pure state else writeLines row state [RUN_UNREADABLE_LINE]
  if state.lastStep = none then showProgress row state .inProgress .inProgress (some GITHUB_RUN_STEP_UNREADABLE)
  else pure ()

def finishRun (row : LiveRunRow) (state : RowState) (now : Nat) (run : Option RunRead)
    (conclusion : Option RunConclusion) : Task Unit := do
  let conclusion := conclusionOfRun run (conclusion.getD .success)
  if conclusion ≠ .success then
    let outcome := externalBuildOutcome conclusion row.buildRunId
    let words := String.ofList (removeFirst " The run has the details.".toList outcome.errorMessage.toList)
    endBecause row state outcome ((GITHUB_LOG_PREFIX ++ " " ++ words) :: openRunLine row)
  else
    let marked <- (call (.markRunFinished row.deploymentId)).orThrow
    if !marked then call (.forget row.deploymentId)
    else
      let state <- assign row state (.finishedAt now)
      let _ <- writeLines row state
        [GITHUB_LOG_PREFIX ++ " Run #" ++ row.buildRunId ++ " finished. Waiting for the workflow's deploy to take it over."]
      pure ()

def followRun (row : LiveRunRow) (state : RowState) (now : Nat) (jobs : List GithubRunJob) (run : Option RunRead)
    (authenticated : Bool) (remaining resetAt : Option Number) : Task Unit := do
  let state <- assign row state (.nextPollAt (nextPollAfter now authenticated remaining resetAt))
  let (logged, state) <- loggedLines row state
  let progress := mapRunJobs parseDate jobs logged
  let isOver := progress.status = .completed ∧ (run = none ∨ run.bind RunRead.status = some "completed")
  let state <- writeLines row state progress.newLines
  if !isOver then
    let status := if progress.status = .completed then .inProgress else progress.status
    if some status.text ≠ state.lastStatus ∨ progress.step ≠ state.lastStep then
      showProgress row state status (if status = .queued then .queued else .inProgress) progress.step
    else pure ()
  else finishRun row state now run progress.conclusion

def follow (row : LiveRunRow) (state : RowState) (now : Nat) : RunFetchResult -> Task Unit
  | .backoff retryAfterMs => do
      let _ <- assign row state
        (.nextPollAt ((Number.ofNat now).plus round (retryAfterMs.min (.ofNat MAX_BACKOFF_MS))))
      pure ()
  | .unreadable => followUnreadable row state now
  | .ok jobs run authenticated remaining resetAt =>
      followRun parseDate row state now jobs run authenticated remaining resetAt

/-- Read GitHub for a row, if the pass may read any more. -/
def readRow (row : LiveRunRow) (state : RowState) (now : Nat) : Task Unit := do
  let granted <- call .takeRead
  if !granted then pure ()
  else
    let state <- assign row state (.lastReadAt now)
    let result <- (call (.fetchRun row)).orThrow
    follow round parseDate row state now result

def pollRow (row : LiveRunRow) (now : Nat) : Task Unit := do
  let state <- call (.stateOf row)
  let startedAt := startedAtOf parseDate row now
  match given row.deployQueuedAt with
  | some deployQueuedAt =>
      let queuedAt := (timeOf parseDate (some deployQueuedAt)).getD startedAt
      if now - queuedAt ≤ DEPLOY_QUEUED_BACKSTOP_MS then pure ()
      else
        endWith row state ("GitHub Actions run #" ++ row.buildRunId ++
          ": the deploy that was queued for this deployment never started within 24 hours.") true
  | none =>
      if MAX_LIVE_ROW_AGE_MS < now - startedAt then
        endWith row state ("GitHub Actions run #" ++ row.buildRunId ++
          " finished without deploying: no deploy took over this deployment within 6 hours.") false
      else if row.buildRunStatus = some "completed" ∨ state.finishedAt ≠ none then
        let finishedAt := state.finishedAt.getD now
        let state <- assign row state (.finishedAt finishedAt)
        if now - finishedAt < DEPLOY_TAKEOVER_GRACE_MS then pure ()
        else
          endWith row state ("GitHub Actions run #" ++ row.buildRunId ++
            " finished without deploying to Dokploy. Open the run for details.") false
      else if (Number.ofNat now).less state.nextPollAt then pure ()
      else readRow round parseDate row state now

def forEach {Item : Type} (body : Item -> Task Unit) : List Item -> Task Unit
  | [] => pure ()
  | item :: rest => do
      body item
      forEach body rest

def lastReadAt (states : Table) (row : LiveRunRow) : Nat :=
  ((getEntry states row.deploymentId).map RowState.lastReadAt).getD 0

/-- Oldest read first; the order of the list decides between equals. -/
def ordered (states : Table) (rows : List LiveRunRow) : List LiveRunRow :=
  rows.insertionSort fun first second => lastReadAt states first ≤ lastReadAt states second

def poll : Task Unit := do
  match <- call .listLiveRows with
  | .error _ => pure ()
  | .ok rows =>
      let followed <- call .states
      forEach (fun id => call (.forget id))
        ((followed.map Prod.fst).filter fun id => id ∉ rows.map LiveRunRow.deploymentId)
      let now <- call .now
      let states <- call .states
      forEach (fun row => do
        let _ <- (pollRow round parseDate row now).attempt
        pure ()) (ordered states rows)

end Reading

/-- What a pass works on: the table, the reads it has left and the rows it has read so far. -/
structure PassState where
  states : Table
  reads : Nat := MAX_READS_PER_PASS
  fetched : List String := []
  deriving DecidableEq

/-- The rows are listed as given, the clock stands still in a pass, and everybody else answers anything. -/
def Performs (rows : Except String (List LiveRunRow)) (now : Nat) (before : PassState) :
    (op : PollerOp) -> op.Answer -> PassState -> Prop
  | .listLiveRows, answer, after => answer = rows ∧ after = before
  | .now, answer, after => answer = now ∧ after = before
  | .states, answer, after => answer = before.states ∧ after = before
  | .forget id, _, after => after = { before with states := deleteEntry before.states id }
  | .stateOf row, answer, after =>
      answer = (getEntry before.states row.deploymentId).getD (freshState row) ∧
        after = { before with states := setEntry before.states row.deploymentId answer }
  | .assign id assignment, _, after =>
      after = { before with states := before.states.map fun entry =>
        if entry.1 = id then (entry.1, assignment.apply entry.2) else entry }
  | .takeRead, answer, after =>
      answer = decide (0 < before.reads) ∧ after = { before with reads := before.reads - 1 }
  | .fetchRun row, _, after => after = { before with fetched := before.fetched ++ [row.deploymentId] }
  | _, _, after => after = before

def world (rows : Except String (List LiveRunRow)) (now : Nat) : World PassState PollerOp PollerOp.Answer where
  performs := Performs rows now
  others := fun _ _ => False

end GithubRunPoller
end Dokploy
