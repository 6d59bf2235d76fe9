import Mathlib.Data.List.Sort
import Dokploy.Foundation.Program

namespace Dokploy
namespace GithubRunPoller

/-!
# What the jobs of a run say

The jobs of a GitHub Actions run are mapped to the state of the run, the label of
its current step and the lines that are not in the log yet.  How a date is read
is a parameter.
-/

def GITHUB_LOG_PREFIX : String := "[GitHub Actions]"

def GITHUB_RUN_STEP_UNREADABLE : String := "steps not readable"

structure GithubRunStep where
  name : String
  number : Option Int
  status : String
  conclusion : Option String
  startedAt : Option String
  completedAt : Option String
  deriving DecidableEq

structure GithubRunJob where
  name : String
  status : String
  conclusion : Option String
  steps : List GithubRunStep
  deriving DecidableEq

inductive RunStatus where
  | queued
  | inProgress
  | completed
  deriving DecidableEq

inductive RunConclusion where
  | success
  | failure
  | cancelled
  | skipped
  deriving DecidableEq

structure RunProgress where
  status : RunStatus
  conclusion : Option RunConclusion
  step : Option String
  newLines : List String
  deriving DecidableEq

/-- The text of a state, as the row stores it. -/
def RunStatus.text : RunStatus -> String
  | .queued => "queued"
  | .inProgress => "in_progress"
  | .completed => "completed"

def isNoiseStep (name : String) : Bool :=
  name == "Set up job" || name == "Complete job" || "Post ".toList.isPrefixOf name.toList

def FAILED_CONCLUSIONS : List String := ["failure", "timed_out", "startup_failure", "action_required"]

def given (value : Option String) : Option String := value.filter (· ≠ "")

section Dates

variable (parseDate : String -> Option Int)

def secondsBetween (start finish : Option String) : Option Nat := do
  let start <- (given start).bind parseDate
  let finish <- (given finish).bind parseDate
  if finish < start then none else some (((finish - start).toNat + 500) / 1000)

def twoDigits (value : Nat) : String := if value < 10 then "0" ++ toString value else toString value

def formatRunDuration (seconds : Nat) : String :=
  if seconds < 60 then toString seconds ++ "s"
  else
    let minutes := seconds / 60
    if minutes < 60 then toString minutes ++ "m" ++ twoDigits (seconds % 60) ++ "s"
    else toString (minutes / 60) ++ "h" ++ twoDigits (minutes % 60) ++ "m"

def stepLabelPrefix (jobName stepName : String) : String := GITHUB_LOG_PREFIX ++ " " ++ jobName ++ " › " ++ stepName

def relevantSteps (job : GithubRunJob) : List GithubRunStep :=
  (job.steps.filter fun step => !isNoiseStep step.name).insertionSort fun first second =>
    first.number.getD 0 ≤ second.number.getD 0

def stepLines (job : GithubRunJob) (step : GithubRunStep) : List String :=
  if step.status ≠ "in_progress" ∧ step.status ≠ "completed" then []
  else if step.conclusion = some "skipped" then []
  else
    let base := stepLabelPrefix job.name step.name
    let started := base ++ " started"
    if step.status ≠ "completed" then [started]
    else
      let duration := (secondsBetween parseDate step.startedAt step.completedAt).map formatRunDuration
      match step.conclusion with
      | none | some "success" =>
          [started, match duration with
            | some duration => base ++ " completed in " ++ duration
            | none => base ++ " completed"]
      | some conclusion =>
          let word := if conclusion ∈ FAILED_CONCLUSIONS then "failed" else "cancelled"
          [started, match duration with
            | some duration => base ++ " " ++ word ++ " after " ++ duration
            | none => base ++ " " ++ word]

def runConclusionOf (jobs : List GithubRunJob) : RunConclusion :=
  if jobs.any fun job => job.conclusion.getD "" ∈ FAILED_CONCLUSIONS then .failure
  else if jobs.any fun job => job.conclusion = some "cancelled" then .cancelled
  else if !jobs.isEmpty && jobs.all fun job => job.conclusion = some "skipped" then .skipped
  else .success

/-- The place of the last step that is over; the first place when there is none. -/
def lastCompleted (steps : List GithubRunStep) : Nat :=
  match steps.reverse.findIdx? fun step => step.status = "completed" with
  | some index => steps.length - 1 - index
  | none => 0

def currentStepLabel (jobs : List GithubRunJob) : Option String :=
  match jobs.find? fun job => job.status = "in_progress" with
  | some running =>
      let steps := relevantSteps running
      if steps.isEmpty then some (running.name ++ " · starting")
      else
        let place := (steps.findIdx? fun step => step.status = "in_progress").getD (lastCompleted steps)
        steps[place]?.map fun step =>
          running.name ++ " · " ++ step.name ++ " (" ++ toString (place + 1) ++ "/" ++ toString steps.length ++ ")"
  | none =>
      (jobs.find? fun job => job.status = "queued" ∨ job.status = "waiting").map fun waiting =>
        waiting.name ++ " · waiting to start"

/-- The lines that are neither in the log nor among those before them. -/
def unseen (seen : List String) : List String -> List String
  | [] => []
  | line :: rest => if line ∈ seen then unseen seen rest else line :: unseen (line :: seen) rest

def mapRunJobs (jobs : List GithubRunJob) (alreadyLogged : List String) : RunProgress :=
  let finished := !jobs.isEmpty && jobs.all fun job => job.status = "completed"
  let started := jobs.any fun job => job.status = "in_progress" ∨ job.status = "completed"
  { status := if finished then .completed else if started then .inProgress else .queued
    conclusion := if finished then some (runConclusionOf jobs) else none
    step := if finished then none else currentStepLabel jobs
    newLines := unseen alreadyLogged (jobs.flatMap fun job => (relevantSteps job).flatMap (stepLines parseDate job)) }

end Dates

def isWhiteSpace (char : Char) : Bool :=
  (9 ≤ char.toNat && char.toNat ≤ 13) || (0x2000 ≤ char.toNat && char.toNat ≤ 0x200A) ||
    [0x20, 0xA0, 0x1680, 0x2028, 0x2029, 0x202F, 0x205F, 0x3000, 0xFEFF].contains char.toNat

def trim (text : List Char) : List Char :=
  ((text.dropWhile isWhiteSpace).reverse.dropWhile isWhiteSpace).reverse

/-- The lines of a log.  A carriage return at the end of a line is trimmed with the rest. -/
def loggedLinesOf (logText : String) : List String :=
  (((logText.toList.splitOn '\n').map trim).filter (· ≠ [])).map String.ofList

inductive EndStatus where
  | error
  | cancelled
  deriving DecidableEq

/-- How a row ends; `deployQueued` ends one whose deploy was accepted. -/
structure EndOutcome where
  status : EndStatus
  errorMessage : String
  deployQueued : Bool := false
  deriving DecidableEq

/-- The outcome of a run that did not succeed, without a message. -/
def externalBuildOutcome (conclusion : RunConclusion) (runId : String) : EndOutcome :=
  let number := if runId = "" then "" else " #" ++ runId
  match conclusion with
  | .skipped => { status := .cancelled, errorMessage := "Build skipped" }
  | .failure =>
      { status := .error,
        errorMessage := "GitHub Actions run" ++ number ++ " failed. The run has the details." }
  | _ =>
      { status := .cancelled,
        errorMessage := "GitHub Actions run" ++ number ++ " was cancelled. The run has the details." }

end GithubRunPoller
end Dokploy
