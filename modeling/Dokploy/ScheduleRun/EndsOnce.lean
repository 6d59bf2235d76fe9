import Dokploy.ScheduleRun.RunStatus

namespace Dokploy
namespace ScheduleRun

open Foundation

/-!
# A schedule run ends once

The run notes its end with one call while any number of cancels claim its row,
undo their claims or end the run as cancelled.  The updates never undo or
overwrite each other's ends.

The end of a finished run tries twice, each time with an update for a row that
is not cancelled and one for a row that is.  Claims and reverts of two cancels
can make all four miss.  The run then counts as gone while its row is running.
-/

inductive ScheduleRunEnd where
  | recorded
  | cancelled
  | missing
deriving DecidableEq

/-- The call that ends the run.  A run that was cancelled before its command started ends with
`endScheduleRunCancelled`, every other one with `finishScheduleRun`. -/
inductive EndCall where
  | finish (outcome : RunOutcome)
  | cancelledBeforeStart
deriving DecidableEq

/-- Where that call is, once it was made.  `attempt` counts the loop of `finishScheduleRun`. -/
inductive RunEnding where
  | running
  | finishing (outcome : RunOutcome) (attempt : Nat)
  | marking (outcome : RunOutcome) (attempt : Nat)
  | endingCancelled
  | answered (answer : ScheduleRunEnd) (outcome : RunOutcome)
  | finished
deriving DecidableEq

def EndCall.begins : EndCall -> RunEnding
  | .finish outcome => .finishing outcome 0
  | .cancelledBeforeStart => .endingCancelled

def RunEnding.isOpen : RunEnding -> Bool
  | .answered _ _ | .finished => false
  | _ => true

structure RunRecord where
  row : Option RunRow
  ending : RunEnding
deriving DecidableEq

/-- A cancel of the run, from its claim to what follows it. -/
inductive CancelAttempt where
  | claiming
  | claimed (claim : String)
  | finished
deriving DecidableEq

/-- A step with the clock reading it takes.  The first four are steps of a cancel, the others of the run and of
whoever deletes the row. -/
inductive StatusEvent where
  | claim (reading : String)
  | revert
  | endWithoutProcess (reading : String)
  | leave
  | ends (call : EndCall)
  | update (reading : String)
  | mark (reading : String)
  | delete
deriving DecidableEq

/-- An update of the row and what it is in the history.  A row that is gone is not updated. -/
def updateRow (record : RunRecord) (update : RunRow -> Option RunRow) (write : RowWrite) :
    RunRecord × List RowWrite :=
  match record.row.bind update with
  | some updated => ({ record with row := some updated }, [write])
  | none => (record, [])

def cancelAct (record : RunRecord) : CancelAttempt -> StatusEvent -> Option (RunRecord × CancelAttempt × List RowWrite)
  | .claiming, .claim reading =>
      match updateRow record (claimScheduleRunCancel · reading) .claimed with
      | (after, []) => some (after, .finished, [])
      | (after, writes) => some (after, .claimed (toISOString reading), writes)
  | .claimed claim, .revert =>
      let (after, writes) := updateRow record (revertScheduleRunCancel · claim) .reverted
      some (after, .finished, writes)
  | .claimed _, .endWithoutProcess reading =>
      let (after, writes) := updateRow record (endScheduleRunCancelled · reading) .noted
      some (after, .finished, writes)
  | .claimed _, .leave => some (record, .finished, [])
  | _, _ => none

def runMove (record : RunRecord) (event : StatusEvent) : Option (RunRecord × List RowWrite) :=
  match record.ending, event with
  | .running, .ends call => some ({ record with ending := call.begins }, [])
  | .finishing outcome attempt, .update reading =>
      match updateRow record (recordRunEnd · outcome reading) (.recorded outcome) with
      | (_, []) => some ({ record with ending := .marking outcome attempt }, [])
      | (after, writes) => some ({ after with ending := .answered .recorded outcome }, writes)
  | .marking outcome attempt, .mark reading =>
      match updateRow record (markCancelledRunEnded · reading) .noted with
      | (_, []) =>
          some ({ record with
            ending := if attempt + 1 < 2 then .finishing outcome (attempt + 1) else .answered .missing outcome }, [])
      | (after, writes) => some ({ after with ending := .answered .cancelled outcome }, writes)
  | .endingCancelled, .update reading =>
      let (after, writes) := updateRow record (endScheduleRunCancelled · reading) .noted
      some ({ after with ending := .finished }, writes)
  | _, .delete =>
      match record.row with
      | some _ => some ({ record with row := none }, [.deleted])
      | none => none
  | _, _ => none

def runBehaviour : Actors.Behaviour RunRecord CancelAttempt Unit StatusEvent RowWrite where
  begins := fun _ => .claiming
  act := cancelAct
  move := runMove

/-- A running run with any number of cancels. -/
def runStatus (finishedAt : Option String) :
    Machine (Actors.System RunRecord CancelAttempt) (Actors.Happening Unit StatusEvent) (Option Nat × RowWrite) :=
  runBehaviour.machine { row := some { status := .running, finishedAt := finishedAt }, ending := .running }

/-- What the answer of the end says about the row. -/
def AnswerHolds (record : RunRecord) : Prop :=
  match record.ending with
  | .answered .recorded outcome => forall kept, record.row = some kept -> kept.status = outcome.status
  | .answered .cancelled _ | .finished => Ended record.row
  | _ => True

/-- The row of a run that is not recorded yet. -/
def StillOpen (record : RunRecord) : Prop :=
  record.ending.isOpen = true -> forall kept, record.row = some kept -> kept.status = .running ∨ kept.status = .cancelled

structure Consistent (history : List (Option Nat × RowWrite)) (record : RunRecord) : Prop where
  story : Story history record.row
  answer : AnswerHolds record
  stillOpen : StillOpen record

def Holding (history : List (Option Nat × RowWrite)) (record : RunRecord) (index : Nat) : CancelAttempt -> Prop
  | .claimed claim => Held history record.row index claim
  | _ => True

variable {writes : List RowWrite} {update : RunRow -> Option RunRow}

theorem updateRow_cases {record after : RunRecord} {write : RowWrite} (updated : updateRow record update write = (after, writes)) :
    (after = record ∧ writes = [] ∧ record.row.bind update = none) ∨
      Exists fun kept => Exists fun changed => record.row = some kept ∧ update kept = some changed ∧
        after = { record with row := some changed } ∧ writes = [write] := by
  unfold updateRow at updated
  split at updated
  · rename_i changed applied
    rcases Option.bind_eq_some_iff.mp applied with ⟨kept, isKept, isChanged⟩
    cases updated
    exact Or.inr ⟨kept, changed, isKept, isChanged, rfl, rfl⟩
  · rename_i missed
    cases updated
    exact Or.inl ⟨rfl, rfl, missed⟩

section Steps

variable {history : List (Option Nat × RowWrite)} {record after : RunRecord} {kept changed : RunRow}

variable {reading : String}

theorem ended_of_endScheduleRunCancelled
    (updated : endScheduleRunCancelled kept reading = some changed) :
    (kept.status = .running ∨ kept.status = .cancelled) ∧ Ended (some changed) := by
  unfold endScheduleRunCancelled at updated
  split at updated
  · rename_i status
    cases updated
    refine ⟨status, fun now isNow => ?_⟩
    cases isNow
    exact ⟨rfl, reading, rfl⟩
  · cases updated

theorem ended_of_markCancelledRunEnded
    (updated : markCancelledRunEnded kept reading = some changed) :
    kept.status = .cancelled ∧ Ended (some changed) := by
  unfold markCancelledRunEnded at updated
  split at updated
  · rename_i cancelled
    cases updated
    refine ⟨cancelled, fun now isNow => ?_⟩
    cases isNow
    exact ⟨cancelled, reading, rfl⟩
  · cases updated

/-- While the row can still be claimed or reopened the end has given no answer that speaks about it. -/
theorem answer_silent (answer : AnswerHolds record) (isKept : record.row = some kept)
    (status : kept.status = .running ∨ kept.status = .cancelled) (unended : ¬ Ended (some kept)) (row : Option RunRow) :
    AnswerHolds { record with row := row } := by
  rcases record with ⟨old, ending⟩
  cases isKept
  cases ending with
  | answered said outcome =>
      cases said with
      | recorded =>
          have same : kept.status = outcome.status := answer kept rfl
          rw [same] at status
          cases outcome <;> rcases status with impossible | impossible <;> cases impossible
      | cancelled => exact absurd answer unended
      | missing => trivial
  | finished => exact absurd answer unended
  | _ => trivial

theorem answer_ended (answer : AnswerHolds record) (isKept : record.row = some kept)
    (status : kept.status = .running ∨ kept.status = .cancelled) (ended : Ended (some changed)) :
    AnswerHolds { record with row := some changed } := by
  rcases record with ⟨old, ending⟩
  cases isKept
  cases ending with
  | answered said outcome =>
      cases said with
      | recorded =>
          have same : kept.status = outcome.status := answer kept rfl
          rw [same] at status
          cases outcome <;> rcases status with impossible | impossible <;> cases impossible
      | cancelled => exact ended
      | missing => trivial
  | finished => exact ended
  | _ => trivial

theorem stillOpen_of_status (status : changed.status = .running ∨ changed.status = .cancelled) :
    StillOpen { record with row := some changed } := by
  intro _ now isNow
  cases isNow
  exact status

theorem runs_of_claim (updated : claimScheduleRunCancel kept reading = some changed) :
    kept.status = .running := by
  unfold claimScheduleRunCancel at updated
  split at updated
  · assumption
  · cases updated

theorem Holding.of_ended {more : List (Option Nat × RowWrite)} {index : Nat} {attempt : CancelAttempt}
    (holding : Holding history record index attempt) (ended : Ended after.row) : Holding more after index attempt := by
  cases attempt with
  | claimed claim => exact Held.of_ended holding.1 ended
  | _ => trivial

theorem Holding.of_ending {index : Nat} {attempt : CancelAttempt} (holding : Holding history record index attempt)
    (ending : RunEnding) : Holding history { record with ending := ending } index attempt := by
  cases attempt with
  | claimed claim => exact holding
  | _ => trivial

theorem Consistent.of_ending (consistent : Consistent history record) {ending : RunEnding}
    (silent : forall row, AnswerHolds { row := row, ending := ending }) (isOpen : record.ending.isOpen = true) :
    Consistent history { record with ending := ending } where
  story := consistent.story
  answer := silent _
  stillOpen := fun _ => consistent.stillOpen isOpen

theorem Consistent.claimed {author : Option Nat} (consistent : Consistent history record)
    (isKept : record.row = some kept) (updated : claimScheduleRunCancel kept reading = some changed) :
    Consistent (history ++ [(author, .claimed)]) { record with row := some changed } := by
  have running := runs_of_claim updated
  refine ⟨(isKept ▸ consistent.story).claimed updated, ?_, ?_⟩
  · exact answer_silent consistent.answer isKept (Or.inl running) (unended_of_running running) _
  · unfold claimScheduleRunCancel at updated
    rw [if_pos running] at updated
    cases updated
    exact stillOpen_of_status (Or.inr rfl)

theorem Consistent.reverted {index : Nat} {claim : String} (consistent : Consistent history record)
    (isKept : record.row = some kept) (held : Held history (some kept) index claim)
    (updated : revertScheduleRunCancel kept claim = some changed) :
    Consistent (history ++ [(some index, .reverted)]) { record with row := some changed } := by
  rcases held.of_reverted updated with ⟨unended, cancelled, _⟩
  refine ⟨(isKept ▸ consistent.story).reverted held updated, ?_, ?_⟩
  · exact answer_silent consistent.answer isKept (Or.inr cancelled) unended _
  · unfold revertScheduleRunCancel at updated
    split at updated
    · cases updated
      exact stillOpen_of_status (Or.inl rfl)
    · cases updated

theorem Consistent.noted {author : Option Nat} (consistent : Consistent history record)
    (isKept : record.row = some kept) (status : kept.status = .running ∨ kept.status = .cancelled)
    (ended : Ended (some changed)) :
    Consistent (history ++ [(author, .noted)]) { record with row := some changed } where
  story := (isKept ▸ consistent.story).noted status ended
  answer := answer_ended consistent.answer isKept status ended
  stillOpen := stillOpen_of_status (Or.inr (ended changed rfl).1)

theorem cancelAct_keeps {actors : List CancelAttempt} {index : Nat} {attempt now : CancelAttempt} {event : StatusEvent}
    {writes : List RowWrite} (consistent : Consistent history record)
    (holding : forall position other, actors[position]? = some other -> Holding history record position other)
    (found : actors[index]? = some attempt) (acted : cancelAct record attempt event = some (after, now, writes)) :
    Consistent (history ++ writes.map (some index, ·)) after ∧
      Holding (history ++ writes.map (some index, ·)) after index now ∧
        forall position other, position ≠ index -> actors[position]? = some other ->
          Holding (history ++ writes.map (some index, ·)) after position other := by
  have nothing : Consistent (history ++ [].map (some index, ·)) record ∧
      Holding (history ++ [].map (some index, ·)) record index .finished ∧
        forall position other, position ≠ index -> actors[position]? = some other ->
          Holding (history ++ [].map (some index, ·)) record position other := by
    rw [List.map_nil, List.append_nil]
    exact ⟨consistent, trivial, fun position other _ => holding position other⟩
  unfold cancelAct at acted
  split at acted
  · rename_i reading
    split at acted
    · rename_i missedRecord missed
      cases acted
      rcases updateRow_cases missed with ⟨same, _, _⟩ | ⟨_, _, _, _, _, impossible⟩
      · rw [same]
        exact nothing
      · cases impossible
    · rename_i claimedRecord claimedWrites isWritten applied
      cases acted
      rcases updateRow_cases applied with ⟨_, none, _⟩ | ⟨kept, changed, isKept, updated, isAfter, isWrites⟩
      · exact absurd none isWritten
      · rw [isAfter, isWrites]
        refine ⟨consistent.claimed isKept updated, Held.of_claimed updated, fun position other _ foundOther => ?_⟩
        have held := holding position other foundOther
        cases other with
        | claimed claim =>
            rw [Holding, isKept] at held
            exact (held.not_running (runs_of_claim updated)).elim
        | _ => trivial
  · rename_i claim
    split at acted
    rename_i reverted writes applied
    cases acted
    rcases updateRow_cases applied with ⟨same, none, _⟩ | ⟨kept, changed, isKept, updated, isAfter, isWrites⟩
    · rw [same, none]
      exact nothing
    · rw [isAfter, isWrites]
      have held := holding index _ found
      rw [Holding, isKept] at held
      rcases held.of_reverted updated with ⟨unended, _, last⟩
      refine ⟨consistent.reverted isKept held updated, trivial, fun position other different foundOther => ?_⟩
      have otherHeld := holding position other foundOther
      cases other with
      | claimed otherClaim =>
          rw [Holding, isKept] at otherHeld
          exact (otherHeld.not_others unended last different).elim
      | _ => trivial
  · split at acted
    rename_i ended writes applied
    cases acted
    rcases updateRow_cases applied with ⟨same, none, _⟩ | ⟨kept, changed, isKept, updated, isAfter, isWrites⟩
    · rw [same, none]
      exact nothing
    · rw [isAfter, isWrites]
      rcases ended_of_endScheduleRunCancelled updated with ⟨status, ended⟩
      refine ⟨consistent.noted isKept status ended, trivial, fun position other _ foundOther => ?_⟩
      exact (holding position other foundOther).of_ended ended
  · cases acted
    exact nothing
  · cases acted

theorem runMove_keeps {actors : List CancelAttempt} {event : StatusEvent} {writes : List RowWrite}
    (consistent : Consistent history record)
    (holding : forall position other, actors[position]? = some other -> Holding history record position other)
    (moved : runMove record event = some (after, writes)) :
    Consistent (history ++ writes.map (none, ·)) after ∧
      forall position other, actors[position]? = some other ->
        Holding (history ++ writes.map (none, ·)) after position other := by
  -- The row stays and the end moves on without an answer.
  have waits : forall ending, (forall row, AnswerHolds { row := row, ending := ending }) ->
      record.ending.isOpen = true ->
      Consistent (history ++ [].map (none, ·)) { record with ending := ending } ∧
        forall position other, actors[position]? = some other ->
          Holding (history ++ [].map (none, ·)) { record with ending := ending } position other := by
    intro ending silent isOpen
    rw [List.map_nil, List.append_nil]
    refine ⟨consistent.of_ending silent isOpen, fun position other foundOther => ?_⟩
    exact (holding position other foundOther).of_ending ending
  unfold runMove at moved
  split at moved
  · rename_i call isEnding
    cases moved
    exact waits call.begins (fun _ => by cases call <;> trivial) (by rw [isEnding]; rfl)
  · rename_i outcome attempt reading isEnding
    have isOpen : record.ending.isOpen = true := by rw [isEnding]; rfl
    split at moved
    · cases moved
      exact waits (.marking outcome attempt) (fun _ => trivial) isOpen
    · rename_i recorded writes isWritten applied
      cases moved
      rcases updateRow_cases applied with ⟨_, none, _⟩ | ⟨kept, changed, isKept, updated, isAfter, isWrites⟩
      · exact absurd none isWritten
      · have running : kept.status = .running := by
          rcases consistent.stillOpen isOpen kept isKept with running | cancelled
          · exact running
          · unfold recordRunEnd at updated
            rw [if_neg (not_not_intro cancelled)] at updated
            cases updated
        have story : Story (history ++ [(none, .recorded outcome)]) (some changed) :=
          (isKept ▸ consistent.story).recorded running updated
        rw [isAfter, isWrites]
        refine ⟨⟨story, fun now isNow => ?_, fun impossible => nomatch impossible⟩, fun position other foundOther => ?_⟩
        · exact story.fits (none, .recorded outcome) (List.mem_append_right _ List.mem_cons_self) now isNow
        · have held := holding position other foundOther
          cases other with
          | claimed claim =>
              rw [Holding, isKept] at held
              exact (held.not_running running).elim
          | _ => trivial
  · rename_i outcome attempt reading isEnding
    have isOpen : record.ending.isOpen = true := by rw [isEnding]; rfl
    split at moved
    · cases moved
      refine waits _ (fun row => ?_) isOpen
      split <;> trivial
    · rename_i marked writes isWritten applied
      cases moved
      rcases updateRow_cases applied with ⟨_, none, _⟩ | ⟨kept, changed, isKept, updated, isAfter, isWrites⟩
      · exact absurd none isWritten
      · rw [isAfter, isWrites]
        rcases ended_of_markCancelledRunEnded updated with ⟨cancelled, ended⟩
        refine ⟨⟨(isKept ▸ consistent.story).noted (Or.inr cancelled) ended, ended, fun impossible => nomatch impossible⟩,
          fun position other foundOther => (holding position other foundOther).of_ended ended⟩
  · rename_i reading isEnding
    have isOpen : record.ending.isOpen = true := by rw [isEnding]; rfl
    split at moved
    rename_i changedRecord writes applied
    cases moved
    rcases updateRow_cases applied with ⟨same, unwritten, missed⟩ | ⟨kept, changed, isKept, updated, isAfter, isWrites⟩
    · rw [same, unwritten]
      have gone : record.row = none := by
        cases isRow : record.row with
        | none => rfl
        | some kept =>
            have status := consistent.stillOpen isOpen kept isRow
            rw [isRow, Option.bind_some, endScheduleRunCancelled, if_pos status] at missed
            cases missed
      have ended : Ended record.row := fun kept isKept => by rw [gone] at isKept; cases isKept
      rw [List.map_nil, List.append_nil]
      exact ⟨⟨consistent.story, ended, fun impossible => nomatch impossible⟩,
        fun position other foundOther => (holding position other foundOther).of_ended ended⟩
    · rw [isAfter, isWrites]
      rcases ended_of_endScheduleRunCancelled updated with ⟨status, ended⟩
      refine ⟨⟨(isKept ▸ consistent.story).noted status ended, ended, fun impossible => nomatch impossible⟩,
        fun position other foundOther => (holding position other foundOther).of_ended ended⟩
  · split at moved
    · rename_i kept isKept
      cases moved
      have gone : Ended (none : Option RunRow) := fun _ impossible => nomatch impossible
      refine ⟨⟨(isKept ▸ consistent.story).deleted, ?_, fun _ _ impossible => nomatch impossible⟩,
        fun position other foundOther => (holding position other foundOther).of_ended gone⟩
      unfold AnswerHolds
      split
      · exact fun _ impossible => nomatch impossible
      · exact gone
      · exact gone
      · trivial
    · cases moved
  · cases moved

end Steps

/-- The rule: the second mark of `finishScheduleRun` does not find the row running again. -/
def LastMarkFinds (system : Actors.System RunRecord CancelAttempt) : Actors.Happening Unit StatusEvent -> Prop
  | .moves (.mark _) => forall outcome attempt kept, system.row.ending = .marking outcome attempt -> 2 ≤ attempt + 1 ->
      system.row.row = some kept -> kept.status ≠ .running
  | _ => True

/-- A row that no update of a cancel applies to. -/
def Settled (row : Option RunRow) : Prop :=
  forall kept, row = some kept -> kept.status ≠ .running ∧ kept.status ≠ .cancelled

def MissingSettled (record : RunRecord) : Prop :=
  forall outcome, record.ending = .answered .missing outcome -> Settled record.row

theorem updateRow_ending {record after : RunRecord} {write : RowWrite} (updated : updateRow record update write = (after, writes)) :
    after.ending = record.ending := by
  rcases updateRow_cases updated with ⟨same, _⟩ | ⟨_, _, _, _, same, _⟩
  · rw [same]
  · rw [same]

theorem updateRow_settled {record after : RunRecord} {write : RowWrite} (updated : updateRow record update write = (after, writes))
    (settled : Settled record.row)
    (needs : forall kept changed, update kept = some changed -> kept.status = .running ∨ kept.status = .cancelled) :
    after = record := by
  rcases updateRow_cases updated with ⟨same, _⟩ | ⟨kept, changed, isKept, applied, _⟩
  · exact same
  · rcases needs kept changed applied with running | cancelled
    · exact absurd running (settled kept isKept).1
    · exact absurd cancelled (settled kept isKept).2

theorem cancelAct_settled {record after : RunRecord} {attempt now : CancelAttempt} {event : StatusEvent}
    (acted : cancelAct record attempt event = some (after, now, writes)) :
    after.ending = record.ending ∧ (Settled record.row -> after = record) := by
  unfold cancelAct at acted
  split at acted
  · have needs : forall (reading : String) (kept changed : RunRow),
        claimScheduleRunCancel kept reading = some changed -> kept.status = .running ∨ kept.status = .cancelled :=
      fun _ _ _ updated => Or.inl (runs_of_claim updated)
    split at acted
    · rename_i missed
      cases acted
      exact ⟨updateRow_ending missed, fun settled => updateRow_settled missed settled (needs _)⟩
    · rename_i applied
      cases acted
      exact ⟨updateRow_ending applied, fun settled => updateRow_settled applied settled (needs _)⟩
  · split at acted
    rename_i applied
    cases acted
    refine ⟨updateRow_ending applied, fun settled => updateRow_settled applied settled fun kept changed updated => ?_⟩
    unfold revertScheduleRunCancel at updated
    split at updated
    · rename_i bears
      exact Or.inr bears.1
    · cases updated
  · split at acted
    rename_i applied
    cases acted
    exact ⟨updateRow_ending applied, fun settled => updateRow_settled applied settled
      fun _ _ updated => (ended_of_endScheduleRunCancelled updated).1⟩
  · cases acted
    exact ⟨rfl, fun _ => rfl⟩
  · cases acted

variable {system : Actors.System RunRecord CancelAttempt} {history : List (Option Nat × RowWrite)}

theorem runMove_missing
    {after : RunRecord} {event : StatusEvent} (consistent : Consistent history system.row)
    (finds : LastMarkFinds system (.moves event)) (moved : runMove system.row event = some (after, writes)) :
    MissingSettled after := by
  intro outcome missing
  unfold runMove at moved
  split at moved
  · rename_i call _
    cases moved
    cases call <;> cases missing
  · split at moved <;> cases moved <;> cases missing
  · rename_i marked attempt reading isEnding
    split at moved
    · rename_i missedRecord missed
      cases moved
      intro kept isKept
      by_cases again : attempt + 1 < 2
      · rw [if_pos again] at missing
        cases missing
      · refine ⟨finds marked attempt kept isEnding (by omega) isKept, fun cancelled => ?_⟩
        rcases updateRow_cases missed with ⟨_, _, unapplied⟩ | ⟨_, _, _, _, _, impossible⟩
        · rw [isKept, Option.bind_some, markCancelledRunEnded, if_pos cancelled] at unapplied
          cases unapplied
        · cases impossible
    · cases moved
      cases missing
  · split at moved
    cases moved
    cases missing
  · split at moved
    · cases moved
      exact fun _ impossible => nomatch impossible
    · cases moved
  · cases moved

theorem consistent_start (finishedAt : Option String) :
    Consistent [] { row := some { status := .running, finishedAt := finishedAt }, ending := .running } where
  story := Story.nil _
  answer := trivial
  stillOpen := fun _ _ isKept => by cases isKept; exact Or.inl rfl

theorem consistent_of_run {finishedAt : Option String} (run : (runStatus finishedAt).Reaches history system) :
    Consistent history system.row := by
  refine (Actors.rely Consistent Holding (consistent_start finishedAt) ?_ ?_ ?_ run).1
  · exact fun _ _ _ _ _ => trivial
  · intro history system index attempt event record now writes consistent holding _ found acted
    exact cancelAct_keeps consistent holding found acted
  · intro history system event record writes consistent holding _ moved
    exact runMove_keeps consistent holding moved

theorem missingSettled_of_run {finishedAt : Option String} (run : (runStatus finishedAt).Run LastMarkFinds history system) :
    Consistent history system.row ∧ MissingSettled system.row := by
  refine (Actors.rely (fun history record => Consistent history record ∧ MissingSettled record) Holding
    ⟨consistent_start finishedAt, ?_⟩ ?_ ?_ ?_ run).1
  · intro outcome missing
    cases missing
  · exact fun _ _ _ _ _ => trivial
  · intro history system index attempt event record now writes before holding _ found acted
    rcases cancelAct_settled acted with ⟨sameEnding, settled⟩
    have kept := cancelAct_keeps before.1 holding found acted
    refine ⟨⟨kept.1, fun outcome missing => ?_⟩, kept.2⟩
    have isSettled := before.2 outcome (sameEnding ▸ missing)
    rw [settled isSettled]
    exact isSettled
  · intro history system event record writes before holding finds moved
    have kept := runMove_keeps before.1 holding moved
    exact ⟨⟨kept.1, runMove_missing before.1 finds moved⟩, kept.2⟩

/-- Once the call that ends the run has returned, a row that is still there is not running. -/
def NotLeftRunning (record : RunRecord) : Prop :=
  record.ending.isOpen = false -> forall kept, record.row = some kept -> kept.status ≠ .running

/-- In every run a revert undoes its own claim and nothing else, ends are final and the answers are true.  The row is
not left running when the last mark does not find it running. -/
theorem run_ends_once (finishedAt : Option String) :
    (forall history system, (runStatus finishedAt).Reaches history system ->
      RevertsOwnClaim history ∧ (history.Pairwise fun before after => MayFollow before.2 after.2) ∧
        AnswerHolds system.row) ∧
      (forall history system, (runStatus finishedAt).Run LastMarkFinds history system ->
        NotLeftRunning system.row) := by
  refine ⟨fun history system run => ?_, fun history system run closed kept isKept => ?_⟩
  · have consistent := consistent_of_run run
    exact ⟨consistent.story.reverts, consistent.story.ordered, consistent.answer⟩
  · rcases missingSettled_of_run run with ⟨consistent, missing⟩
    have answer := consistent.answer
    unfold AnswerHolds at answer
    split at answer
    · rename_i outcome _
      rw [answer kept isKept]
      cases outcome <;> decide
    · exact fun running => unended_of_running running (isKept ▸ answer)
    · exact fun running => unended_of_running running (isKept ▸ answer)
    · rename_i notRecorded notCancelled notOver
      cases isEnding : system.row.ending with
      | answered said outcome =>
          cases said with
          | recorded => exact absurd isEnding (notRecorded outcome)
          | cancelled => exact absurd isEnding (notCancelled outcome)
          | missing => exact (missing outcome isEnding kept isKept).1
      | finished => exact absurd isEnding notOver
      | _ =>
          rw [isEnding] at closed
          cases closed

/-- Two cancels, each undone, between the updates of a run that finished. -/
def reopenedTwice : List (Actors.Happening Unit StatusEvent) :=
  [.starts (), .starts (), .moves (.ends (.finish .done)), .acts 0 (.claim "1"), .moves (.update "2"),
    .acts 0 .revert, .moves (.mark "3"), .acts 1 (.claim "4"), .moves (.update "5"), .acts 1 .revert, .moves (.mark "6")]

theorem reopenedTwice_left : Exists fun history => Exists fun system =>
    (runStatus none).Reaches history system ∧ system.actors = [.finished, .finished] ∧
      system.row.ending = .answered .missing .done ∧ ¬ NotLeftRunning system.row := by
  have run : (runStatus none).Reaches _ _ := @Machine.run_of_executes _ _ _
    (runStatus none) _ (fun _ _ => true) (fun _ _ _ => trivial) reopenedTwice (by decide)
  exact ⟨_, _, run, by decide, by decide, fun kept =>
    kept (by decide) { status := .running, finishedAt := none } (by decide) rfl⟩

/-- A cancel that is undone, and another one that the end of the run finds. -/
def cancelledOnce : List (Actors.Happening Unit StatusEvent) :=
  [.starts (), .starts (), .moves (.ends (.finish .done)), .acts 0 (.claim "1"), .moves (.update "2"),
    .acts 0 .revert, .moves (.mark "3"), .acts 1 (.claim "1"), .moves (.update "4"), .moves (.mark "5"),
    .acts 1 .revert]

def lastMarkFinds (system : Actors.System RunRecord CancelAttempt) : Actors.Happening Unit StatusEvent -> Bool
  | .moves (.mark _) =>
      match system.row.ending with
      | .marking _ attempt => attempt + 1 < 2 || system.row.row.all fun kept => kept.status ≠ .running
      | _ => true
  | _ => true

theorem lastMarkFinds_sound (system : Actors.System RunRecord CancelAttempt)
    (happening : Actors.Happening Unit StatusEvent) (tested : lastMarkFinds system happening = true) :
    LastMarkFinds system happening := by
  cases happening with
  | moves event =>
      cases event with
      | mark reading =>
          intro outcome attempt kept isEnding last isKept
          simp only [lastMarkFinds, isEnding, isKept, Option.all_some, Bool.or_eq_true, decide_eq_true_eq] at tested
          rcases tested with first | notRunning
          · exact absurd first (by omega)
          · exact notRunning
      | _ => trivial
  | _ => trivial

theorem cancelledOnce_ends : Exists fun history => Exists fun (system : Actors.System RunRecord CancelAttempt) =>
    system.row.ending = .answered .cancelled .done ∧ RevertsOwnClaim history ∧ NotLeftRunning system.row := by
  have run : (runStatus none).Run LastMarkFinds _ _ := @Machine.run_of_executes _ _ _
    (runStatus none) _ lastMarkFinds lastMarkFinds_sound cancelledOnce (by decide)
  exact ⟨_, _, by decide, ((run_ends_once none).1 _ _ run.weaken).1,
    (run_ends_once none).2 _ _ run⟩

end ScheduleRun
end Dokploy
