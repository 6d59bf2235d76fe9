import Dokploy.RefreshLock.Call

namespace Dokploy
namespace RefreshLock

/-!
# What the flags of a call say

The flags are right about the function as long as the database client keeps two
rules.  It does not reject while the function runs inside its callback, and
when the function has failed there it rejects with the function's error.  And
the advisory lock is not granted to a callback whose transaction has already
been rejected.  Where a step follows these rules it keeps `Sound`.
-/

variable {Key Value Error : Type}

def CallEvent.Kept (call : LockCall Key Value Error) : CallEvent Value Error -> Prop
  | .rejected error => call.callback ≠ .inFn ∧ forall own, call.inCallback = .settled (.error own) -> error = own
  | .locked => forall error, call.run ≠ some (.error error)
  | _ => True

namespace LockCall

/-- What the callback has done by the place where it is. -/
def CallbackTells (call : LockCall Key Value Error) : Prop :=
  match call.callback with
  | .absent | .waiting =>
      call.connected = false ∧ call.started = false ∧ call.finished = false ∧ call.inCallback = .notStarted
  | .setConfig | .advisoryXactLock =>
      call.connected = true ∧ call.abandoned = false ∧ call.started = false ∧ call.finished = false ∧
        call.inCallback = .notStarted
  | .inFn =>
      call.connected = true ∧ call.abandoned = false ∧ call.started = true ∧ call.finished = false ∧
        call.inCallback = .running ∧ call.byItself = .notStarted
  | .returned => call.connected = true ∧
      ((call.abandoned = true ∧ call.started = false ∧ call.finished = false ∧ call.inCallback = .notStarted) ∨
        (call.abandoned = false ∧ call.started = true ∧ call.finished = true ∧ call.byItself = .notStarted ∧
          Exists fun value => call.result = some value ∧ call.inCallback = .settled (.ok value)))
  | .threw error => call.connected = true ∧ call.abandoned = false ∧ call.finished = false ∧
      ((call.started = false ∧ call.inCallback = .notStarted) ∨
        (call.started = true ∧ call.inCallback = .settled (.error error) ∧ call.byItself = .notStarted))

/-- The function does not run inside the callback, and will not. -/
def GaveUp (call : LockCall Key Value Error) : Prop :=
  call.inCallback = .notStarted ∧
    (call.callback = .absent ∨ call.abandoned = true ∨ Exists fun error => call.run = some (.error error))

/-- The call ends with what its function ended with. -/
def OwnOutcome (call : LockCall Key Value Error) (outcome : Except Error (Option Value)) : Prop :=
  Exists fun own => outcome = own.map some ∧
    ((call.byItself = .settled own ∧ call.GaveUp) ∨ (call.inCallback = .settled own ∧ call.byItself = .notStarted))

def PositionTells (call : LockCall Key Value Error) : Prop :=
  match call.position with
  | .previous => call.callback = .absent ∧ call.byItself = .notStarted ∧ call.run = none ∧ call.race = none ∧
      call.timer = false
  | .race => call.callback ≠ .absent ∧ call.byItself = .notStarted
  | .fn => call.byItself = .running ∧ call.GaveUp
  | .leaving outcome | .settled outcome => call.OwnOutcome outcome

structure Sound (call : LockCall Key Value Error) : Prop where
  callback : call.CallbackTells
  position : call.PositionTells
  unraced : call.race = none -> call.run = none ∧ call.abandoned = false
  won : call.race = some (.ok ()) -> call.finished = true
  lost : forall error, call.race = some (.error error) -> call.abandoned = true ∨ call.run = some (.error error)
  committed : call.run = some (.ok ()) -> call.callback = .returned
  rejected : forall error, call.run = some (.error error) ->
    call.callback ≠ .inFn ∧ forall own, call.inCallback = .settled (.error own) -> error = own
  timer : call.timer = true -> call.connected = false

theorem sound_fresh (key : Key) (previous : Option Nat) :
    ({ key := key, previous := previous } : LockCall Key Value Error).Sound := by
  constructor <;> simp [CallbackTells, PositionTells]

variable {call after : LockCall Key Value Error}

theorem PositionTells.stays (tells : call.PositionTells) (entered : call.position ≠ .previous)
    (same : after.position = call.position) (byItself : after.byItself = call.byItself)
    (present : call.callback ≠ .absent -> after.callback ≠ .absent) (gaveUp : call.GaveUp -> after.GaveUp)
    (settled : forall own, call.inCallback = .settled own -> after.inCallback = .settled own) : after.PositionTells := by
  have own : forall outcome, call.OwnOutcome outcome -> after.OwnOutcome outcome := by
    intro outcome isOwn
    rcases isOwn with ⟨own, sameOutcome, ⟨ended, gave⟩ | ⟨ended, unstarted⟩⟩
    · exact ⟨own, sameOutcome, Or.inl ⟨byItself.trans ended, gaveUp gave⟩⟩
    · exact ⟨own, sameOutcome, Or.inr ⟨settled own ended, byItself.trans unstarted⟩⟩
  unfold PositionTells at tells ⊢
  rw [same]
  cases position : call.position with
  | previous => exact absurd position entered
  | race =>
      rw [position] at tells
      exact ⟨present tells.1, byItself.trans tells.2⟩
  | fn =>
      rw [position] at tells
      exact ⟨byItself.trans tells.1, gaveUp tells.2⟩
  | leaving outcome =>
      rw [position] at tells
      exact own outcome tells
  | settled outcome =>
      rw [position] at tells
      exact own outcome tells

theorem Sound.entered (sound : call.Sound) (present : call.callback ≠ .absent) : call.position ≠ .previous := by
  intro position
  have tells := sound.position
  simp only [PositionTells, position] at tells
  exact present tells.1

theorem GaveUp.reason (gave : call.GaveUp) (present : call.callback ≠ .absent) :
    call.abandoned = true ∨ Exists fun error => call.run = some (.error error) :=
  gave.2.resolve_left present

theorem Sound.enter (sound : call.Sound) (queued : call.position = .previous) (advisory : Bool) :
    (call.enter advisory).Sound := by
  have tells := sound.position
  have flags := sound.callback
  simp only [PositionTells, queued] at tells
  simp only [CallbackTells, tells.1] at flags
  unfold LockCall.enter runsByItself
  split <;> constructor <;> simp_all [CallbackTells, PositionTells, GaveUp, sound.unraced]

theorem sound_raced {outcome : Except Error Unit} (callback : call.CallbackTells) (position : call.PositionTells)
    (entered : call.position ≠ .previous)
    (won : call.race = some (.ok ()) ∨ call.race = none ∧ outcome = .ok () -> call.finished = true)
    (lost : forall error, call.race = some (.error error) ∨ call.race = none ∧ outcome = .error error ->
      call.abandoned = true ∨ call.run = some (.error error))
    (committed : call.run = some (.ok ()) -> call.callback = .returned)
    (rejected : forall error, call.run = some (.error error) ->
      call.callback ≠ .inFn ∧ forall own, call.inCallback = .settled (.error own) -> error = own)
    (timer : call.timer = true -> call.connected = false) : (call.raced outcome).Sound := by
  unfold LockCall.raced
  cases race : call.race with
  | none =>
      refine ⟨callback, ?_, (by intro none; cases none), ?_, ?_, committed, rejected, timer⟩
      · exact position.stays entered (by rfl) (by rfl) id id fun _ => id
      · intro same
        exact won (Or.inr ⟨race, Option.some.inj same⟩)
      · intro error same
        exact lost error (Or.inr ⟨race, Option.some.inj same⟩)
  | some first =>
      refine ⟨callback, position, ?_, ?_, ?_, committed, rejected, timer⟩
      · intro none
        rw [race] at none
        cases none
      · exact fun same => won (Or.inl same)
      · exact fun error same => lost error (Or.inl same)

theorem Sound.timeout (sound : call.Sound) (pending : call.timer = true) (timedOut : Error) :
    (call.timeout timedOut).Sound := by
  have connected : call.connected = false := sound.timer pending
  have entered : call.position ≠ .previous := by
    intro position
    have tells := sound.position
    simp only [PositionTells, position, pending] at tells
    exact absurd tells.2.2.2.2 (by decide)
  have flags := sound.callback
  rw [LockCall.timeout, connected, if_neg Bool.false_ne_true]
  apply sound_raced
  · cases callback : call.callback <;> simp_all [CallbackTells]
  · refine sound.position.stays entered (by rfl) (by rfl) id ?_ fun _ => id
    exact fun gave => ⟨gave.1, Or.inr (Or.inl rfl)⟩
  · exact entered
  · rintro (won | ⟨_, timeout⟩)
    · exact sound.won won
    · cases timeout
  · exact fun _ _ => Or.inl rfl
  · exact sound.committed
  · exact sound.rejected
  · exact fun impossible => nomatch impossible

theorem Sound.connect (sound : call.Sound) (waiting : call.callback = .waiting) : call.connect.Sound := by
  have flags := sound.callback
  simp only [CallbackTells, waiting] at flags
  have present : call.callback ≠ .absent := by rw [waiting]; exact fun same => nomatch same
  unfold LockCall.connect
  refine ⟨?_, ?_, sound.unraced, sound.won, sound.lost, ?_, ?_, fun impossible => nomatch impossible⟩
  · cases abandoned : call.abandoned
    · simp [CallbackTells, flags]
    · simp [CallbackTells, flags]
  · refine sound.position.stays (sound.entered present) (by rfl) (by rfl) ?_ ?_ fun _ => id
    · intro _
      split <;> exact fun same => nomatch same
    · intro gave
      exact ⟨gave.1, Or.inr (gave.reason present)⟩
  · intro committed
    exact nomatch waiting.symm.trans (sound.committed committed)
  · intro error rejected
    refine ⟨?_, (sound.rejected error rejected).2⟩
    split <;> exact fun same => nomatch same

theorem Sound.configured (sound : call.Sound) (config : call.callback = .setConfig) :
    ({ call with callback := .advisoryXactLock } : LockCall Key Value Error).Sound := by
  have flags := sound.callback
  simp only [CallbackTells, config] at flags
  have present : call.callback ≠ .absent := by rw [config]; exact fun same => nomatch same
  refine ⟨flags, ?_, sound.unraced, sound.won, sound.lost, ?_, ?_, sound.timer⟩
  · refine sound.position.stays (sound.entered present) (by rfl) (by rfl) (fun _ same => nomatch same) ?_ fun _ => id
    intro gave
    exact ⟨gave.1, Or.inr (gave.reason present)⟩
  · intro committed
    exact nomatch config.symm.trans (sound.committed committed)
  · intro error rejected
    exact ⟨(fun same => nomatch same), (sound.rejected error rejected).2⟩

theorem Sound.locked (sound : call.Sound) (waits : call.callback = .advisoryXactLock)
    (live : forall error, call.run ≠ some (.error error)) : call.locked.Sound := by
  have flags := sound.callback
  simp only [CallbackTells, waits] at flags
  have entered := sound.entered (by rw [waits]; exact fun same => nomatch same)
  have unwilling : ¬ call.GaveUp := by
    rintro ⟨_, absent | abandoned | ⟨error, rejected⟩⟩
    · exact nomatch waits.symm.trans absent
    · exact nomatch flags.2.1.symm.trans abandoned
    · exact live error rejected
  have unstarted : call.byItself = .notStarted := by
    have tells := sound.position
    unfold PositionTells at tells
    split at tells
    · exact absurd ‹_› entered
    · exact tells.2
    · exact absurd tells.2 unwilling
    · rcases tells with ⟨_, _, ⟨_, gave⟩ | ⟨_, never⟩⟩
      · exact absurd gave unwilling
      · exact never
    · rcases tells with ⟨_, _, ⟨_, gave⟩ | ⟨_, never⟩⟩
      · exact absurd gave unwilling
      · exact never
  refine ⟨?_, ?_, sound.unraced, ?_, ?_, ?_, fun error rejected => absurd rejected (live error), sound.timer⟩
  · exact ⟨flags.1, flags.2.1, rfl, flags.2.2.2.1, rfl, unstarted⟩
  · refine sound.position.stays entered (by rfl) (by rfl) (fun _ same => nomatch same) (fun gave => absurd gave unwilling) ?_
    intro own settled
    exact nomatch flags.2.2.2.2.symm.trans settled
  · intro won
    exact sound.won won
  · exact fun error lost => sound.lost error lost
  · intro committed
    exact nomatch waits.symm.trans (sound.committed committed)

theorem Sound.queryFailed (sound : call.Sound) (error : Error)
    (waits : call.callback = .setConfig ∨ call.callback = .advisoryXactLock) :
    ({ call with callback := .threw error } : LockCall Key Value Error).Sound := by
  have flags : call.connected = true ∧ call.abandoned = false ∧ call.started = false ∧ call.finished = false ∧
      call.inCallback = .notStarted := by
    have flags := sound.callback
    rcases waits with waits | waits <;> simpa only [CallbackTells, waits] using flags
  have present : call.callback ≠ .absent := by
    rcases waits with waits | waits <;> rw [waits] <;> exact fun same => nomatch same
  refine ⟨?_, ?_, sound.unraced, sound.won, sound.lost, ?_, ?_, sound.timer⟩
  · exact ⟨flags.1, flags.2.1, flags.2.2.2.1, Or.inl ⟨flags.2.2.1, flags.2.2.2.2⟩⟩
  · refine sound.position.stays (sound.entered present) (by rfl) (by rfl) (fun _ same => nomatch same) ?_ fun _ => id
    intro gave
    exact ⟨gave.1, Or.inr (gave.reason present)⟩
  · intro committed
    have returned := sound.committed committed
    rcases waits with waits | waits <;> exact nomatch waits.symm.trans returned
  · intro other rejected
    exact ⟨(fun same => nomatch same), (sound.rejected other rejected).2⟩

theorem Sound.fnSettled (sound : call.Sound) (running : call.callback = .inFn) (outcome : Except Error Value) :
    (call.fnSettled outcome).Sound := by
  have flags := sound.callback
  simp only [CallbackTells, running] at flags
  rcases flags with ⟨connected, abandoned, started, finished, isRunning, unstarted⟩
  have entered := sound.entered (by rw [running]; exact fun same => nomatch same)
  have unsettled : forall own, call.inCallback ≠ .settled own := fun own settled => nomatch isRunning.symm.trans settled
  have unwilling : ¬ call.GaveUp := fun gave => nomatch isRunning.symm.trans gave.1
  have pending : forall error, call.run ≠ some (.error error) :=
    fun error rejected => (sound.rejected error rejected).1 running
  have open' : call.run ≠ some (.ok ()) := fun committed => nomatch running.symm.trans (sound.committed committed)
  cases outcome with
  | ok value =>
      refine ⟨?_, ?_, sound.unraced, fun _ => rfl, sound.lost, fun _ => rfl, ?_, sound.timer⟩
      · exact ⟨connected, Or.inr ⟨abandoned, started, rfl, unstarted, value, rfl, rfl⟩⟩
      · exact sound.position.stays entered (by rfl) (by rfl) (fun _ same => nomatch same) (fun gave => absurd gave unwilling)
          fun own settled => absurd settled (unsettled own)
      · exact fun error rejected => absurd rejected (pending error)
  | error error =>
      refine ⟨?_, ?_, sound.unraced, sound.won, sound.lost, ?_, ?_, sound.timer⟩
      · exact ⟨connected, abandoned, finished, Or.inr ⟨started, rfl, unstarted⟩⟩
      · exact sound.position.stays entered (by rfl) (by rfl) (fun _ same => nomatch same) (fun gave => absurd gave unwilling)
          fun own settled => absurd settled (unsettled own)
      · exact fun committed => absurd committed open'
      · exact fun other rejected => absurd rejected (pending other)

theorem Sound.commits (sound : call.Sound) (returned : call.callback = .returned) (unsettled : call.run = none) :
    ({ call with run := some (.ok ()) }.raced (.ok ())).Sound := by
  have flags := sound.callback
  simp only [CallbackTells, returned] at flags
  have present : call.callback ≠ .absent := by rw [returned]; exact fun same => nomatch same
  have unrejected : forall error, call.run ≠ some (.error error) := by
    intro error rejected
    rw [unsettled] at rejected
    cases rejected
  apply sound_raced
  · simp only [CallbackTells, returned]
    exact flags
  · refine sound.position.stays (sound.entered present) (by rfl) (by rfl) id ?_ fun _ => id
    intro gave
    rcases gave.reason present with abandoned | ⟨error, rejected⟩
    · exact ⟨gave.1, Or.inr (Or.inl abandoned)⟩
    · exact absurd rejected (unrejected error)
  · exact sound.entered present
  · rintro (won | ⟨unraced, _⟩)
    · exact sound.won won
    · rcases flags.2 with abandoned | finished
      · exact nomatch (sound.unraced unraced).2.symm.trans abandoned.1
      · exact finished.2.2.1
  · rintro error (lost | ⟨_, impossible⟩)
    · exact (sound.lost error lost).imp id fun rejected => absurd rejected (unrejected error)
    · cases impossible
  · exact fun _ => returned
  · exact fun _ impossible => nomatch impossible
  · exact sound.timer

theorem Sound.rejects (sound : call.Sound) (present : call.callback ≠ .absent) (unsettled : call.run = none)
    {error : Error}
    (own : call.callback ≠ .inFn ∧ forall own, call.inCallback = .settled (.error own) -> error = own) :
    ({ call with run := some (.error error) }.raced (.error error)).Sound := by
  apply sound_raced
  · exact sound.callback
  · refine sound.position.stays (sound.entered present) (by rfl) (by rfl) id ?_ fun _ => id
    exact fun gave => ⟨gave.1, Or.inr (Or.inr ⟨error, rfl⟩)⟩
  · exact sound.entered present
  · rintro (won | ⟨_, impossible⟩)
    · exact sound.won won
    · cases impossible
  · rintro other (lost | ⟨_, same⟩)
    · rcases sound.lost other lost with abandoned | rejected
      · exact Or.inl abandoned
      · rw [unsettled] at rejected
        cases rejected
    · cases same
      exact Or.inr rfl
  · exact fun impossible => nomatch impossible
  · intro other rejected
    cases rejected
    exact own
  · exact sound.timer

theorem Sound.resumes (sound : call.Sound) (racing : call.position = .race) {raced : Except Error Unit}
    (race : call.race = some raced) : (call.resume raced).Sound := by
  have tells := sound.position
  simp only [PositionTells, racing] at tells
  have callback := sound.callback
  have finishes : call.finished = true ->
      ({ call with timer := false, position := .leaving (.ok call.result) } : LockCall Key Value Error).Sound := by
    intro finished
    refine ⟨callback, ?_, sound.unraced, sound.won, sound.lost, sound.committed, sound.rejected,
      fun impossible => nomatch impossible⟩
    have own : Exists fun value => call.result = some value ∧ call.inCallback = .settled (.ok value) := by
      unfold CallbackTells at callback
      split at callback <;> simp_all
    rcases own with ⟨value, result, settled⟩
    exact ⟨.ok value, by rw [result]; rfl, Or.inr ⟨settled, tells.2⟩⟩
  cases raced with
  | ok _ => exact finishes (sound.won race)
  | error error =>
      unfold LockCall.resume
      simp only
      split
      · rename_i finished
        exact finishes finished
      · rename_i unfinished
        split
        · rename_i started
          refine ⟨callback, ?_, sound.unraced, sound.won, sound.lost, sound.committed, sound.rejected,
            fun impossible => nomatch impossible⟩
          have failed : call.abandoned = false ∧
              ((Exists fun own => call.inCallback = .settled (.error own)) ∨ call.callback = .inFn) := by
            unfold CallbackTells at callback
            split at callback <;> simp_all
          have rejected : call.run = some (.error error) := by
            refine (sound.lost error race).resolve_left fun abandoned => ?_
            exact nomatch failed.1.symm.trans abandoned
          have allowed := sound.rejected error rejected
          rcases failed.2 with ⟨own, settled⟩ | running
          · exact ⟨.error error, rfl, Or.inr ⟨allowed.2 own settled ▸ settled, tells.2⟩⟩
          · exact absurd running allowed.1
        · rename_i unstarted
          have never : call.inCallback = .notStarted := by
            unfold CallbackTells at callback
            split at callback <;> simp_all
          refine ⟨?_, ?_, sound.unraced, sound.won, sound.lost, sound.committed, sound.rejected,
            fun impossible => nomatch impossible⟩
          · unfold CallbackTells at callback ⊢
            simp only [runsByItself]
            split at callback <;> simp_all
          · exact ⟨rfl, never, Or.inr ((sound.lost error race).imp id fun rejected => ⟨error, rejected⟩)⟩

theorem Sound.byItself (sound : call.Sound) (running : call.position = .fn) (outcome : Except Error Value) :
    ({ call with byItself := .settled outcome, position := .leaving (outcome.map some) } :
      LockCall Key Value Error).Sound := by
  have tells := sound.position
  simp only [PositionTells, running] at tells
  refine ⟨?_, ?_, sound.unraced, sound.won, sound.lost, sound.committed, sound.rejected, sound.timer⟩
  · have callback := sound.callback
    unfold CallbackTells at callback ⊢
    simp only
    split at callback <;> simp_all
  · exact ⟨outcome, rfl, Or.inl ⟨rfl, tells.2⟩⟩

theorem Sound.leaves (sound : call.Sound) {outcome : Except Error (Option Value)}
    (leaving : call.position = .leaving outcome) :
    ({ call with position := .settled outcome } : LockCall Key Value Error).Sound := by
  have tells := sound.position
  simp only [PositionTells, leaving] at tells
  exact ⟨sound.callback, tells, sound.unraced, sound.won, sound.lost, sound.committed, sound.rejected, sound.timer⟩

theorem Sound.next (sound : call.Sound) {advisory : Bool} {timedOut : Error} {event : CallEvent Value Error}
    (kept : event.Kept call) (step : call.next advisory timedOut event = some after) : after.Sound := by
  unfold LockCall.next at step
  split at step
  all_goals split at step
  all_goals cases step
  · exact sound.enter ‹_› advisory
  · exact sound.timeout ‹_› timedOut
  · exact sound.connect ‹_›
  · exact sound.configured ‹_›
  · exact sound.locked ‹_› kept
  · exact sound.queryFailed _ (Or.inl ‹_›)
  · exact sound.queryFailed _ (Or.inr ‹_›)
  · exact sound.fnSettled ‹_› _
  · exact sound.commits ‹_› ‹_›
  · exact sound.rejects ‹_› ‹_› kept
  · exact sound.resumes ‹_› ‹_›
  · exact sound.byItself ‹_› _
  · exact sound.leaves ‹_›

end LockCall
end RefreshLock
end Dokploy
