import Dokploy.Foundation.Actors
import Dokploy.Foundation.Splits
import Dokploy.LiveBuild.Claim

namespace Dokploy
namespace ScheduleRun

open Foundation
open LiveBuild (DeploymentStatus)

/-!
# The status of a schedule run

A cancel claims the row of a run before it kills anything and may undo its claim,
and the run notes its own end on the row.  Each is one conditional update.  They
recognise each other by the finish time.  A claim is a time that ends in `Z`, the
end of a run on a cancelled row is one that ends in `+00:00`.

The second half is about any history of such updates: what they say about the
row, and who may still undo a claim.
-/

structure RunRow where
  status : DeploymentStatus
  finishedAt : Option String
deriving DecidableEq

/-- How a run that came to an end is recorded. -/
inductive RunOutcome where
  | done
  | error
deriving DecidableEq

def RunOutcome.status : RunOutcome -> DeploymentStatus
  | .done => .done
  | .error => .error

/-- `toISOString()` of a clock reading, which is the text before the `Z`. -/
def toISOString (reading : String) : String := reading ++ "Z"

/-- The same instant with an offset in place of the `Z`. -/
def endedFinishTime (reading : String) : String := reading ++ "+00:00"

theorem toISOString_ne_endedFinishTime (reading other : String) : toISOString reading ≠ endedFinishTime other := by
  intro same
  have characters := congrArg String.toList same
  simp only [toISOString, endedFinishTime, String.toList_append] at characters
  have lasts := congrArg List.getLast? characters
  simp only [List.getLast?_append] at lasts
  exact absurd lasts (by simp)

def claimScheduleRunCancel (row : RunRow) (reading : String) : Option RunRow :=
  if row.status = .running then some { status := .cancelled, finishedAt := some (toISOString reading) } else none

def revertScheduleRunCancel (row : RunRow) (claim : String) : Option RunRow :=
  if row.status = .cancelled ∧ row.finishedAt = some claim then some { status := .running, finishedAt := none }
  else none

def markCancelledRunEnded (row : RunRow) (reading : String) : Option RunRow :=
  if row.status = .cancelled then some { row with finishedAt := some (endedFinishTime reading) } else none

def endScheduleRunCancelled (row : RunRow) (reading : String) : Option RunRow :=
  if row.status = .running ∨ row.status = .cancelled then
    some { status := .cancelled, finishedAt := some (endedFinishTime reading) }
  else none

/-- The first update of an attempt of `finishScheduleRun`. -/
def recordRunEnd (row : RunRow) (outcome : RunOutcome) (reading : String) : Option RunRow :=
  if row.status ≠ .cancelled then some { status := outcome.status, finishedAt := some (toISOString reading) }
  else none

/-- An update that applied.  `noted` is the end of a run on a row that is cancelled then. -/
inductive RowWrite where
  | claimed
  | reverted
  | noted
  | recorded (outcome : RunOutcome)
  | deleted
deriving DecidableEq

/-- The row is cancelled for good, or it is gone. -/
def Ended (row : Option RunRow) : Prop :=
  forall kept, row = some kept -> kept.status = .cancelled ∧
    Exists fun reading => kept.finishedAt = some (endedFinishTime reading)

/-- What an update of the past says about the row now. -/
def Fits : RowWrite -> Option RunRow -> Prop
  | .noted, row => Ended row
  | .recorded outcome, row => forall kept, row = some kept -> kept.status = outcome.status
  | .deleted, row => row = none
  | _, _ => True

def MayFollow : RowWrite -> RowWrite -> Prop
  | .noted, later => later = .noted ∨ later = .deleted
  | .recorded _, later => later = .deleted
  | .deleted, _ => False
  | _, _ => True

/-- Whoever reverts made the claim that is undone, and it was the last update before. -/
def RevertsOwnClaim (history : List (Option Nat × RowWrite)) : Prop :=
  forall earlier author later, history = earlier ++ (author, .reverted) :: later ->
    earlier.getLast? = some (author, .claimed)

structure Story (history : List (Option Nat × RowWrite)) (row : Option RunRow) : Prop where
  fits : forall entry, entry ∈ history -> Fits entry.2 row
  ordered : history.Pairwise fun before after => MayFollow before.2 after.2
  reverts : RevertsOwnClaim history

/-- What an attempt that has not used its claim can rely on.  The row ended, or it still bears the claim and nobody
has written to it since. -/
def Held (history : List (Option Nat × RowWrite)) (row : Option RunRow) (index : Nat) (claim : String) : Prop :=
  (Exists fun reading => claim = toISOString reading) ∧
    (Ended row ∨ row = some { status := .cancelled, finishedAt := some claim } ∧
      history.getLast? = some (some index, .claimed))

theorem unended_of_running {kept : RunRow} (running : kept.status = .running) : ¬ Ended (some kept) := by
  intro ended
  have cancelled := (ended kept rfl).1
  rw [running] at cancelled
  cases cancelled

namespace Held

variable {history : List (Option Nat × RowWrite)} {row : Option RunRow} {kept : RunRow} {index : Nat} {claim : String}

theorem of_ended (isClaim : Exists fun reading => claim = toISOString reading) (ended : Ended row) :
    Held history row index claim :=
  ⟨isClaim, Or.inl ended⟩

theorem of_claimed {reading : String} {claimed : RunRow} (updated : claimScheduleRunCancel kept reading = some claimed) :
    Held (history ++ [(some index, .claimed)]) (some claimed) index (toISOString reading) := by
  unfold claimScheduleRunCancel at updated
  split at updated
  · cases updated
    exact ⟨⟨reading, rfl⟩, Or.inr ⟨rfl, List.getLast?_concat⟩⟩
  · cases updated

theorem cancelled (held : Held history (some kept) index claim) : kept.status = .cancelled := by
  rcases held.2 with ended | ⟨bears, _⟩
  · exact (ended kept rfl).1
  · cases bears
    rfl

theorem not_running (held : Held history (some kept) index claim) (running : kept.status = .running) : False := by
  have cancelled := held.cancelled
  rw [running] at cancelled
  cases cancelled

theorem of_reverted {reverted : RunRow} (held : Held history (some kept) index claim)
    (updated : revertScheduleRunCancel kept claim = some reverted) :
    ¬ Ended (some kept) ∧ kept.status = .cancelled ∧ history.getLast? = some (some index, .claimed) := by
  unfold revertScheduleRunCancel at updated
  split at updated
  · rename_i bears
    have unended : ¬ Ended (some kept) := by
      intro ended
      rcases (ended kept rfl).2 with ⟨reading, isEnded⟩
      rcases held.1 with ⟨other, isClaim⟩
      rw [bears.2, Option.some.injEq, isClaim] at isEnded
      exact toISOString_ne_endedFinishTime other reading isEnded
    exact ⟨unended, bears.1, (held.2.resolve_left unended).2⟩
  · cases updated

theorem not_others {other : Nat} {otherClaim : String} (otherHeld : Held history (some kept) other otherClaim)
    (unended : ¬ Ended (some kept)) (last : history.getLast? = some (some index, .claimed))
    (different : other ≠ index) : False := by
  have otherLast := (otherHeld.2.resolve_left unended).2
  rw [last] at otherLast
  cases otherLast
  exact different rfl

end Held

namespace Story

variable {history : List (Option Nat × RowWrite)} {row after : Option RunRow} {kept : RunRow} {author : Option Nat}

theorem nil (row : Option RunRow) : Story [] row where
  fits := fun _ member => absurd member List.not_mem_nil
  ordered := List.Pairwise.nil
  reverts := fun _ _ _ same => absurd same (by simp)

theorem append (story : Story history row) {write : RowWrite}
    (follows : forall entry, entry ∈ history -> MayFollow entry.2 write ∧ Fits entry.2 after)
    (fitsNow : Fits write after) (own : write = .reverted -> history.getLast? = some (author, .claimed)) :
    Story (history ++ [(author, write)]) after where
  fits := by
    intro entry member
    rcases List.mem_append.mp member with old | new
    · exact (follows entry old).2
    · rw [List.mem_singleton.mp new]
      exact fitsNow
  ordered := by
    refine List.pairwise_append.mpr ⟨story.ordered, List.pairwise_singleton _ _, fun before member next isNew => ?_⟩
    rw [List.mem_singleton.mp isNew]
    exact (follows before member).1
  reverts := by
    intro earlier author later same
    rcases split_of_snoc same with ⟨isEarlier, isWrite, _⟩ | ⟨middle, _, old⟩
    · cases isWrite
      rw [← isEarlier]
      exact own rfl
    · exact story.reverts earlier author middle old

theorem quiet (story : Story history (some kept)) (status : kept.status = .running ∨ kept.status = .cancelled)
    (unended : ¬ Ended (some kept)) {entry : Option Nat × RowWrite} (member : entry ∈ history) :
    entry.2 = .claimed ∨ entry.2 = .reverted := by
  rcases entry with ⟨by_, write⟩
  have fits := story.fits _ member
  cases write with
  | claimed => exact Or.inl rfl
  | reverted => exact Or.inr rfl
  | noted => exact absurd fits unended
  | recorded outcome =>
      have same : kept.status = outcome.status := fits kept rfl
      rw [same] at status
      cases outcome <;> rcases status with impossible | impossible <;> cases impossible
  | deleted => cases fits

theorem append_quiet (story : Story history row) {write : RowWrite}
    (quiet : forall entry, entry ∈ history -> entry.2 = .claimed ∨ entry.2 = .reverted)
    (fitsNow : Fits write after) (own : write = .reverted -> history.getLast? = some (author, .claimed)) :
    Story (history ++ [(author, write)]) after := by
  refine story.append (fun entry member => ?_) fitsNow own
  rcases quiet entry member with claimed | reverted
  · rw [claimed]
    exact ⟨trivial, trivial⟩
  · rw [reverted]
    exact ⟨trivial, trivial⟩

theorem claimed {reading : String} {claimed : RunRow} (story : Story history (some kept))
    (updated : claimScheduleRunCancel kept reading = some claimed) :
    Story (history ++ [(author, .claimed)]) (some claimed) := by
  unfold claimScheduleRunCancel at updated
  split at updated
  · rename_i running
    exact story.append_quiet (fun entry member => story.quiet (Or.inl running) (unended_of_running running) member)
      trivial fun impossible => nomatch impossible
  · cases updated

theorem reverted {claim : String} {reverted : RunRow} {index : Nat} (story : Story history (some kept))
    (held : Held history (some kept) index claim) (updated : revertScheduleRunCancel kept claim = some reverted) :
    Story (history ++ [(some index, .reverted)]) (some reverted) := by
  rcases held.of_reverted updated with ⟨unended, cancelled, last⟩
  exact story.append_quiet (fun entry member => story.quiet (Or.inr cancelled) unended member) trivial fun _ => last

theorem noted {noted : RunRow} (story : Story history (some kept))
    (status : kept.status = .running ∨ kept.status = .cancelled) (ended : Ended (some noted)) :
    Story (history ++ [(author, .noted)]) (some noted) := by
  refine story.append (fun entry member => ?_) ended fun impossible => nomatch impossible
  rcases entry with ⟨by_, write⟩
  have fits := story.fits _ member
  cases write with
  | claimed => exact ⟨trivial, trivial⟩
  | reverted => exact ⟨trivial, trivial⟩
  | noted => exact ⟨Or.inl rfl, ended⟩
  | recorded outcome =>
      have same : kept.status = outcome.status := fits kept rfl
      rw [same] at status
      cases outcome <;> rcases status with impossible | impossible <;> cases impossible
  | deleted => cases fits

theorem recorded {outcome : RunOutcome} {reading : String} {recorded : RunRow} (story : Story history (some kept))
    (running : kept.status = .running) (updated : recordRunEnd kept outcome reading = some recorded) :
    Story (history ++ [(author, .recorded outcome)]) (some recorded) := by
  unfold recordRunEnd at updated
  split at updated
  · refine story.append_quiet (fun entry member => story.quiet (Or.inl running) (unended_of_running running) member)
      ?_ fun impossible => nomatch impossible
    intro now isNow
    cases updated
    cases isNow
    rfl
  · cases updated

theorem deleted (story : Story history (some kept)) : Story (history ++ [(author, .deleted)]) none := by
  refine story.append (fun entry member => ?_) rfl fun impossible => nomatch impossible
  rcases entry with ⟨by_, write⟩
  have fits := story.fits _ member
  cases write with
  | claimed => exact ⟨trivial, trivial⟩
  | reverted => exact ⟨trivial, trivial⟩
  | noted => exact ⟨Or.inr rfl, fun _ impossible => nomatch impossible⟩
  | recorded outcome => exact ⟨rfl, fun _ impossible => nomatch impossible⟩
  | deleted => cases fits

end Story

end ScheduleRun
end Dokploy
