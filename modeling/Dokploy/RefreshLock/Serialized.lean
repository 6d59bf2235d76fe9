import Mathlib.Algebra.GroupWithZero.Nat
import Dokploy.RefreshLock.Lock

namespace Dokploy
namespace RefreshLock

open Foundation

/-!
# Grants of one key run one after the other

Two invariants carry the result and do not know of each other: the flags of
every call are right, and the calls of a key are in order.  A function that
runs belongs to a call that has entered and has not left, and of those there is
one for each key.

Whether a run comes to an end is not a matter of fairness.  Every step of a
call takes something from a finite weight, and where no step is left every call
has settled.
-/

variable {Key Value Error : Type}

namespace LockCall

variable {call after : LockCall Key Value Error}

def isRunning (call : LockCall Key Value Error) : Prop :=
  call.inCallback = .running ∨ call.byItself = .running

theorem mem_fnRuns (call : LockCall Key Value Error) (ran : FnRun Value Error) :
    ran ∈ call.fnRuns <-> (ran = call.inCallback ∨ ran = call.byItself) ∧ ran ≠ .notStarted := by
  unfold fnRuns
  rw [List.mem_filter]
  cases ran <;> simp

theorem Sound.once (sound : call.Sound) : call.inCallback = .notStarted ∨ call.byItself = .notStarted := by
  have position := sound.position
  unfold PositionTells at position
  split at position
  · exact Or.inr position.2.1
  · exact Or.inr position.2
  · exact Or.inl position.2.1
  · rcases position with ⟨_, _, ⟨_, gave⟩ | ⟨_, never⟩⟩
    · exact Or.inl gave.1
    · exact Or.inr never
  · rcases position with ⟨_, _, ⟨_, gave⟩ | ⟨_, never⟩⟩
    · exact Or.inl gave.1
    · exact Or.inr never

theorem Sound.fnRuns_length (sound : call.Sound) : call.fnRuns.length ≤ 1 := by
  rcases sound.once with never | never
  · cases byItself : call.byItself <;> simp [fnRuns, never, byItself]
  · cases inCallback : call.inCallback <;> simp [fnRuns, never, inCallback]

theorem Sound.ownOutcome (sound : call.Sound) {outcome : Except Error (Option Value)}
    (settled : call.position = .settled outcome) :
    Exists fun own => call.fnRuns = [.settled own] ∧ outcome = own.map some := by
  have position := sound.position
  simp only [PositionTells, settled] at position
  rcases position with ⟨own, same, ⟨settled, gave⟩ | ⟨settled, never⟩⟩
  · exact ⟨own, by simp [fnRuns, settled, gave.1], same⟩
  · exact ⟨own, by simp [fnRuns, settled, never], same⟩

theorem Sound.notQueued (sound : call.Sound) (started : call.fnRuns ≠ []) : call.isQueued = false := by
  unfold isQueued
  split
  · rename_i queued
    have position := sound.position
    have callback := sound.callback
    simp only [PositionTells, queued] at position
    simp only [CallbackTells, position.1] at callback
    exact absurd (by simp [fnRuns, position.2.1, callback.2.2.2]) started
  · rfl

theorem Sound.notSettled (sound : call.Sound) (running : call.isRunning) : call.isSettled = false := by
  unfold isSettled
  split
  · rename_i outcome settled
    rcases sound.ownOutcome settled with ⟨own, runs, _⟩
    have member : FnRun.running ∈ call.fnRuns := by
      rw [mem_fnRuns]
      rcases running with running | running
      · exact ⟨Or.inl running.symm, by simp⟩
      · exact ⟨Or.inr running.symm, by simp⟩
    rw [runs] at member
    cases List.mem_singleton.mp member
  · rfl

theorem fnRuns_ne_nil (running : call.isRunning) : call.fnRuns ≠ [] := by
  intro none
  have member : FnRun.running ∈ call.fnRuns := by
    rw [mem_fnRuns]
    rcases running with running | running
    · exact ⟨Or.inl running.symm, by simp⟩
    · exact ⟨Or.inr running.symm, by simp⟩
  rw [none] at member
  cases member

/-- Where a call that is past its wait has not settled, it can go on, whatever the client's rules. -/
theorem Sound.goesOn (sound : call.Sound) (entered : call.isQueued = false) (open' : call.isSettled = false)
    (advisory : Bool) (timedOut : Error) : Exists fun event : CallEvent Value Error =>
      event ≠ .enter ∧ event.Kept call ∧ (call.next advisory timedOut event).isSome = true := by
  cases position : call.position with
  | previous => simp [isQueued, position] at entered
  | fn => exact ⟨.byItselfSettled (.error timedOut), by simp, trivial, by simp [LockCall.next, position]⟩
  | leaving outcome => exact ⟨.leave, by simp, trivial, by simp [LockCall.next, position]⟩
  | settled outcome => simp [isSettled, position] at open'
  | race =>
      cases race : call.race with
      | some raced => exact ⟨.resume, by simp, trivial, by simp [LockCall.next, position, race]⟩
      | none =>
          have unsettled := (sound.unraced race).1
          cases callback : call.callback with
          | absent =>
              have tells := sound.position
              simp only [PositionTells, position] at tells
              exact absurd callback tells.1
          | waiting => exact ⟨.connect, by simp, trivial, by simp [LockCall.next, callback]⟩
          | setConfig => exact ⟨.configured, by simp, trivial, by simp [LockCall.next, callback]⟩
          | advisoryXactLock =>
              refine ⟨.locked, by simp, fun error rejected => ?_, by simp [LockCall.next, callback]⟩
              rw [unsettled] at rejected
              cases rejected
          | inFn => exact ⟨.fnSettled (.error timedOut), by simp, trivial, by simp [LockCall.next, callback]⟩
          | returned => exact ⟨.committed, by simp, trivial, by simp [LockCall.next, callback, unsettled]⟩
          | threw error =>
              have tells := sound.callback
              simp only [CallbackTells, callback] at tells
              refine ⟨.rejected error, by simp, ⟨by simp [callback], fun own settled => ?_⟩,
                by simp [LockCall.next, callback, unsettled]⟩
              rcases tells.2.2.2 with ⟨_, never⟩ | ⟨_, failed, _⟩
              · rw [never] at settled
                cases settled
              · rw [failed] at settled
                cases settled
                rfl

def positionWeight : Position Value Error -> Nat
  | .previous => 15
  | .race => 3
  | .fn => 2
  | .leaving _ => 1
  | .settled _ => 0

def callbackWeight : Callback Error -> Nat
  | .waiting => 5
  | .setConfig => 4
  | .advisoryXactLock => 3
  | .inFn => 2
  | .absent | .returned | .threw _ => 0

def weight (call : LockCall Key Value Error) : Nat :=
  positionWeight call.position + callbackWeight call.callback + call.run.isNone.toNat + call.timer.toNat

theorem weight_raced (call : LockCall Key Value Error) (outcome : Except Error Unit) :
    (call.raced outcome).weight = call.weight := by
  unfold raced
  split <;> rfl

theorem weight_next {advisory : Bool} {timedOut : Error} {event : CallEvent Value Error}
    (step : call.next advisory timedOut event = some after) : after.weight < call.weight := by
  unfold LockCall.next at step
  split at step
  all_goals split at step
  all_goals cases step
  · rename_i queued
    unfold LockCall.enter runsByItself
    split <;> simp only [weight, queued, positionWeight, callbackWeight, Bool.toNat_true] <;> omega
  · rename_i pending
    unfold LockCall.timeout
    split
    · simp only [weight, pending, Bool.toNat_true, Bool.toNat_false]
      omega
    · rw [weight_raced]
      simp only [weight, pending, Bool.toNat_true, Bool.toNat_false]
      omega
  · rename_i waiting
    unfold LockCall.connect
    cases call.abandoned <;> simp [weight, waiting, callbackWeight] <;> omega
  · rename_i config
    simp only [weight, config, callbackWeight]
    omega
  · rename_i waits
    simp only [LockCall.locked, weight, waits, callbackWeight]
    omega
  · rename_i waits
    simp only [weight, waits, callbackWeight]
    omega
  · rename_i waits
    simp only [weight, waits, callbackWeight]
    omega
  · rename_i running
    unfold LockCall.fnSettled
    split <;> simp only [weight, running, callbackWeight] <;> omega
  · rename_i unsettled
    rw [weight_raced]
    simp only [weight, unsettled, Option.isNone_none, Option.isNone_some, Bool.toNat_true, Bool.toNat_false]
    omega
  · rename_i unsettled _
    rw [weight_raced]
    simp only [weight, unsettled, Option.isNone_none, Option.isNone_some, Bool.toNat_true, Bool.toNat_false]
    omega
  · rename_i racing _
    unfold LockCall.resume runsByItself
    repeat' split
    all_goals simp only [weight, racing, positionWeight, Bool.toNat_false]
    all_goals omega
  · rename_i running
    simp only [weight, running, positionWeight]
    omega
  · rename_i leaving
    simp only [weight, leaving, positionWeight]
    omega

theorem fnRuns_next {advisory : Bool} {timedOut : Error} {event : CallEvent Value Error}
    (step : call.next advisory timedOut event = some after) (ran : call.fnRuns ≠ []) : after.fnRuns ≠ [] := by
  have kept : (call.inCallback ≠ .notStarted -> after.inCallback ≠ .notStarted) ∧
      (call.byItself ≠ .notStarted -> after.byItself ≠ .notStarted) := by
    unfold LockCall.next at step
    split at step
    all_goals split at step
    all_goals cases step
    · unfold LockCall.enter runsByItself
      split <;> simp
    · unfold LockCall.timeout raced
      repeat' split
      all_goals simp
    · exact ⟨id, id⟩
    · exact ⟨id, id⟩
    · simp [LockCall.locked]
    · exact ⟨id, id⟩
    · exact ⟨id, id⟩
    · unfold LockCall.fnSettled
      split <;> simp
    · unfold raced
      split <;> simp
    · unfold raced
      split <;> simp
    · unfold LockCall.resume runsByItself
      repeat' split
      all_goals simp
    · simp
    · exact ⟨id, id⟩
  rcases List.exists_mem_of_ne_nil _ ran with ⟨one, member⟩
  rw [mem_fnRuns] at member
  rcases member with ⟨same | same, started⟩
  · exact List.ne_nil_of_mem ((mem_fnRuns after _).mpr ⟨Or.inl rfl, kept.1 (same ▸ started)⟩)
  · exact List.ne_nil_of_mem ((mem_fnRuns after _).mpr ⟨Or.inr rfl, kept.2 (same ▸ started)⟩)

end LockCall

namespace LockState

variable {state after : LockState Key Value Error}

/-- What is still ahead of the calls there are. -/
def weight (state : LockState Key Value Error) : Nat := (state.calls.map LockCall.weight).sum

variable {index : Nat}

theorem sum_set_lt {calls : List (LockCall Key Value Error)} {call after : LockCall Key Value Error}
    (found : calls[index]? = some call) (less : after.weight < call.weight) :
    ((calls.set index after).map LockCall.weight).sum < (calls.map LockCall.weight).sum := by
  induction calls generalizing index with
  | nil => cases found
  | cons head rest ih =>
      cases index with
      | zero =>
          cases found
          simpa using less
      | succ index => simpa using ih found

/-- The keys of the calls, by their numbers. -/
def keyAt (state : LockState Key Value Error) (index : Nat) : Option Key := state.calls[index]?.map (·.key)

theorem found_queue {call : LockCall Key Value Error} (found : state.calls[index]? = some call) :
    state.queue.tickets[index]? = some (ticketOf call) := by
  rw [queue, List.getElem?_map, found, Option.map_some]

theorem free_queue (previous : Option Nat) : state.queue.free previous = state.released previous := by
  cases previous with
  | none => rfl
  | some index =>
      simp only [KeyedQueue.free, released, Option.all_some, queue, List.getElem?_map]
      cases state.calls[index]? <;> rfl

theorem keyAt_set {call now : LockCall Key Value Error} (found : state.calls[index]? = some call)
    (same : now.key = call.key) (tails : Key -> Option Nat) (other : Nat) :
    keyAt { calls := state.calls.set index now, tails := tails } other = state.keyAt other := by
  simp only [keyAt]
  by_cases here : index = other
  · rw [← here, List.getElem?_set_self (List.getElem?_eq_some_iff.mp found).1, found]
    simp [same]
  · rw [List.getElem?_set_ne here]

/-- What holds after every run by the rules: the flags are right, the calls are in order, and the functions that
have started did so in the order of their calls. -/
structure Held (starts : List Nat) (state : LockState Key Value Error) : Prop where
  flags : forall (index : Nat) (call : LockCall Key Value Error), state.calls[index]? = some call -> call.Sound
  order : state.queue.Orderly
  ran : forall index, index ∈ starts ->
    Exists fun call : LockCall Key Value Error => state.calls[index]? = some call ∧ call.fnRuns ≠ []
  inTurn : starts.Pairwise fun first second => state.keyAt first = state.keyAt second -> first < second

theorem Held.earlier_left {starts : List Nat} (held : Held starts state) {first second : Nat}
    {one other : LockCall Key Value Error} (foundOne : state.calls[first]? = some one)
    (foundOther : state.calls[second]? = some other) (same : one.key = other.key) (less : first < second)
    (started : other.fnRuns ≠ []) : one.isSettled = true := by
  have entered : (ticketOf other).entered = true := by
    simp [ticketOf, (held.flags second other foundOther).notQueued started]
  exact held.order.inTurn second _ (found_queue foundOther) entered first _ less (found_queue foundOne) same

variable [DecidableEq Key] {advisory : Bool} {timedOut : Error} {output : List Nat}

theorem step_next {event : CallEvent Value Error}
    (step : state.step advisory timedOut (.next index event) = some (after, output)) :
    Exists fun call => Exists fun now => state.calls[index]? = some call ∧ state.allows call event = true ∧
      call.next advisory timedOut event = some now ∧
      after = { calls := state.calls.set index now, tails := state.tailsAfter index call event } ∧
      output = if call.fnRuns.length < now.fnRuns.length then [index] else [] := by
  simp only [LockState.step] at step
  split at step
  · cases step
  · rename_i call found
    split at step
    · rename_i allowed
      split at step
      · cases step
      · rename_i now next
        cases step
        exact ⟨call, now, found, allowed, next, rfl, rfl⟩
    · cases step

theorem queue_join (key : Key) : @queue Key Value Error
    { calls := state.calls ++ [{ key := key, previous := state.tails key }]
      tails := Function.update state.tails key (some state.calls.length) } = state.queue.join key := by
  simp only [queue, KeyedQueue.join, List.map_append, List.map_cons, List.map_nil, List.length_map]
  rfl

/-- The queue after a step of a call is in order, if the call waited for nobody or was past its wait. -/
theorem orderly_step {event : CallEvent Value Error} {call now : LockCall Key Value Error}
    (orderly : state.queue.Orderly) (found : state.calls[index]? = some call)
    (allowed : state.allows call event = true) (next : call.next advisory timedOut event = some now) :
    (queue { calls := state.calls.set index now, tails := state.tailsAfter index call event }).Orderly := by
  rcases ticket_next next with ⟨isEnter, _, ticket⟩ | ⟨isLeave, entered, ticket⟩ | ⟨_, notLeave, ticket⟩
  · subst isEnter
    have same : queue { calls := state.calls.set index now, tails := state.tailsAfter index call .enter } =
        state.queue.enter index (ticketOf call) := by
      rw [queue, KeyedQueue.enter, List.map_set, ticket]
      rfl
    rw [same]
    apply orderly.enter (found_queue found)
    rw [free_queue]
    exact allowed
  · subst isLeave
    have same : queue { calls := state.calls.set index now, tails := state.tailsAfter index call .leave } =
        state.queue.leave index (ticketOf call) := by
      rw [queue, KeyedQueue.leave, List.map_set, ticket]
      rfl
    rw [same]
    apply orderly.leave (found_queue found)
    simp [ticketOf, entered]
  · have same : queue { calls := state.calls.set index now, tails := state.tailsAfter index call event } =
        state.queue := by
      have tails : state.tailsAfter index call event = state.tails := by
        unfold tailsAfter
        split
        · exact absurd rfl notLeave
        · rfl
      rw [queue, queue, List.map_set, ticket, tails]
      rcases List.getElem?_eq_some_iff.mp (found_queue found) with ⟨small, same⟩
      congr 1
      rw [← same]
      exact List.set_getElem_self small
    rw [same]
    exact orderly

theorem held_initial : Held [] (@createRefreshTokenLock Key Value Error _ advisory timedOut).initial where
  flags := fun _ _ found => by cases found
  order := KeyedQueue.orderly_empty
  ran := fun _ member => by cases member
  inTurn := List.Pairwise.nil

theorem Held.call {starts : List Nat} (held : Held starts state) (key : Key) : Held starts
    { calls := state.calls ++ [{ key := key, previous := state.tails key }]
      tails := Function.update state.tails key (some state.calls.length) } where
  flags := by
    intro index call found
    rcases Nat.lt_or_ge index state.calls.length with inside | outside
    · rw [List.getElem?_append_left inside] at found
      exact held.flags index call found
    · rw [List.getElem?_append_right outside] at found
      have fresh := List.mem_of_getElem? found
      rw [List.mem_singleton.mp fresh]
      exact LockCall.sound_fresh key _
  order := by
    rw [queue_join]
    exact held.order.join key
  ran := by
    intro index member
    rcases held.ran index member with ⟨call, found, ran⟩
    refine ⟨call, ?_, ran⟩
    rw [List.getElem?_append_left (List.getElem?_eq_some_iff.mp found).1]
    exact found
  inTurn := by
    refine held.inTurn.imp_of_mem fun first second inTurn same => inTurn ?_
    rcases held.ran _ first with ⟨one, foundOne, _⟩
    rcases held.ran _ second with ⟨other, foundOther, _⟩
    simp only [keyAt] at same ⊢
    rw [List.getElem?_append_left (List.getElem?_eq_some_iff.mp foundOne).1,
      List.getElem?_append_left (List.getElem?_eq_some_iff.mp foundOther).1] at same
    exact same

theorem Held.next {starts : List Nat} (held : Held starts state) {index : Nat} {event : CallEvent Value Error}
    (kept : LockEvent.Kept state (.next index event))
    (step : state.step advisory timedOut (.next index event) = some (after, output)) :
    Held (starts ++ output) after := by
  rcases step_next step with ⟨call, now, found, allowed, next, isAfter, isOutput⟩
  have small := (List.getElem?_eq_some_iff.mp found).1
  have sound := held.flags index call found
  have soundNow : now.Sound := sound.next (kept call found) next
  have sameKey : now.key = call.key := by
    have sameTicket : (ticketOf now).key = (ticketOf call).key := by
      rcases ticket_next next with ⟨_, _, ticket⟩ | ⟨_, _, ticket⟩ | ⟨_, _, ticket⟩ <;> rw [ticket]
    exact sameTicket
  subst isAfter
  have keys := keyAt_set found sameKey (state.tailsAfter index call event)
  have ranNow : forall other, other ∈ starts -> Exists fun one : LockCall Key Value Error =>
      (state.calls.set index now)[other]? = some one ∧ one.fnRuns ≠ [] := by
    intro other member
    rcases held.ran other member with ⟨one, foundOne, ran⟩
    by_cases here : index = other
    · rw [← here, found] at foundOne
      cases foundOne
      exact ⟨now, by rw [← here, List.getElem?_set_self small], LockCall.fnRuns_next next ran⟩
    · exact ⟨one, by rw [List.getElem?_set_ne here]; exact foundOne, ran⟩
  refine ⟨?_, orderly_step held.order found allowed next, ?_, ?_⟩
  · intro other one foundOne
    by_cases here : index = other
    · rw [← here, List.getElem?_set_self small] at foundOne
      cases foundOne
      exact soundNow
    · rw [List.getElem?_set_ne here] at foundOne
      exact held.flags other one foundOne
  · intro other member
    rcases List.mem_append.mp member with old | new
    · exact ranNow other old
    · rw [isOutput] at new
      split at new
      · rename_i started
        rw [List.mem_singleton.mp new]
        refine ⟨now, List.getElem?_set_self small, ?_⟩
        exact List.ne_nil_of_length_pos (Nat.lt_of_le_of_lt (Nat.zero_le _) started)
      · cases new
  · have before : starts.Pairwise fun first second =>
        keyAt { calls := state.calls.set index now, tails := state.tailsAfter index call event } first =
          keyAt { calls := state.calls.set index now, tails := state.tailsAfter index call event } second ->
        first < second := by
      refine held.inTurn.imp fun inTurn same => inTurn ?_
      rw [keys, keys] at same
      exact same
    rw [isOutput]
    split
    · rename_i started
      refine List.pairwise_append.mpr ⟨before, List.pairwise_singleton _ _, fun first member second new same => ?_⟩
      rw [List.mem_singleton.mp new]
      rw [List.mem_singleton.mp new, keys, keys] at same
      rcases held.ran first member with ⟨one, foundOne, ran⟩
      have unstarted : call.fnRuns = [] := by
        have short := soundNow.fnRuns_length
        exact List.eq_nil_of_length_eq_zero (by omega)
      have keyEq : one.key = call.key := by
        simp only [keyAt, foundOne, found, Option.map_some, Option.some.injEq] at same
        exact same
      rcases Nat.lt_trichotomy first index with less | equal | greater
      · exact less
      · rw [equal, found] at foundOne
        cases foundOne
        exact absurd unstarted ran
      · -- The call has left, so its function has run before.
        have left := held.earlier_left found foundOne keyEq.symm greater ran
        unfold LockCall.isSettled at left
        split at left
        · rename_i settled
          rcases sound.ownOutcome settled with ⟨own, runs, _⟩
          rw [unstarted] at runs
          cases runs
        · cases left
    · rw [List.append_nil]
      exact before

theorem held_of_run {starts : List Nat}
    (run : (createRefreshTokenLock Value advisory timedOut).Run LockEvent.Kept starts state) : Held starts state := by
  induction run with
  | start => exact held_initial
  | @next history output before after event _ allowed stepped ih =>
      cases event with
      | call key =>
          cases stepped
          rw [List.append_nil]
          exact ih.call key
      | next index event => exact ih.next allowed stepped

end LockState

/-- The grants are serialized and run once. -/
structure Serialized [DecidableEq Key] (advisory : Bool) (timedOut : Error) (starts : List Nat)
    (state : LockState Key Value Error) : Prop where
  /-- No function is run twice. -/
  once : forall call, call ∈ state.calls -> call.fnRuns.length ≤ 1
  /-- A call settles with the outcome of its own function, which is over by then. -/
  own : forall call outcome, call ∈ state.calls -> call.position = .settled outcome ->
    Exists fun own => call.fnRuns = [.settled own] ∧ outcome = own.map some
  /-- Two functions of one key do not run at the same time. -/
  alone : forall (first second : Nat) (one other : LockCall Key Value Error), state.calls[first]? = some one ->
    state.calls[second]? = some other -> one.key = other.key -> one.isRunning -> other.isRunning -> first = second
  /-- The functions of one key start in the order of the calls. -/
  inTurn : starts.Pairwise fun first second => state.keyAt first = state.keyAt second -> first < second
  /-- The map is empty when no call is pending. -/
  emptied : (forall call, call ∈ state.calls -> call.isSettled = true) -> forall key, state.tails key = none
  /-- A step of a call brings the calls nearer to their end. -/
  ahead : forall index event after output,
    state.step advisory timedOut (.next index event) = some (after, output) -> after.weight < state.weight
  /-- Where the calls cannot go on, they have settled. -/
  ends : (forall index event, LockEvent.Kept state (.next index event) ->
      state.step advisory timedOut (.next index event) = none) ->
    forall call, call ∈ state.calls -> call.isSettled = true

/-- In every run by the rules, each function runs once and alone. -/
theorem grants_serialized [DecidableEq Key] {advisory : Bool} {timedOut : Error} {starts : List Nat}
    {state : LockState Key Value Error}
    (run : (createRefreshTokenLock Value advisory timedOut).Run LockEvent.Kept starts state) :
    Serialized advisory timedOut starts state := by
  have held := LockState.held_of_run run
  have flags : forall call, call ∈ state.calls -> call.Sound := by
    intro call member
    rcases List.getElem?_of_mem member with ⟨index, found⟩
    exact held.flags index call found
  refine ⟨fun call member => (flags call member).fnRuns_length,
    fun call outcome member settled => (flags call member).ownOutcome settled, ?_, held.inTurn, ?_, ?_, ?_⟩
  · intro first second one other foundOne foundOther same runsOne runsOther
    have inside : forall (index : Nat) (call : LockCall Key Value Error), state.calls[index]? = some call ->
        call.isRunning -> (LockState.ticketOf call).entered = true ∧ (LockState.ticketOf call).left = false := by
      intro index call found runs
      have sound := held.flags index call found
      refine ⟨?_, sound.notSettled runs⟩
      simp [LockState.ticketOf, sound.notQueued (LockCall.fnRuns_ne_nil runs)]
    exact held.order.alone (LockState.found_queue foundOne) (LockState.found_queue foundOther) same
      (inside first one foundOne runsOne) (inside second other foundOther runsOther)
  · intro settled key
    apply held.order.emptied _ key
    intro index ticket found
    rw [LockState.queue, List.getElem?_map] at found
    rcases Option.map_eq_some_iff.mp found with ⟨call, foundCall, isTicket⟩
    rw [← isTicket]
    exact settled call (List.mem_of_getElem? foundCall)
  · intro index event after output step
    rcases LockState.step_next step with ⟨call, now, found, _, next, isAfter, _⟩
    rw [isAfter]
    exact LockState.sum_set_lt found (LockCall.weight_next next)
  · intro stuck
    have settled : forall (index : Nat) (call : LockCall Key Value Error), state.calls[index]? = some call ->
        call.isSettled = true := by
      intro index
      induction index using Nat.strongRecOn with
      | _ index ih =>
          intro call found
          by_contra pending
          rw [Bool.not_eq_true] at pending
          have impossible : forall event : CallEvent Value Error, event.Kept call ->
              state.allows call event = true -> (call.next advisory timedOut event).isSome = true -> False := by
            intro event kept allowed goes
            rcases Option.isSome_iff_exists.mp goes with ⟨now, next⟩
            have none := stuck index event fun other foundOther => by
              rw [found] at foundOther
              cases foundOther
              exact kept
            simp only [LockState.step, found, allowed, if_true, next] at none
            cases none
          cases queued : call.isQueued with
          | true =>
              -- Everyone before has settled, so nobody is waited for.
              apply impossible .enter trivial
              · rw [LockState.allows, ← LockState.free_queue]
                apply held.order.first_free (LockState.found_queue found)
                intro other was less foundWas
                rw [LockState.queue, List.getElem?_map] at foundWas
                rcases Option.map_eq_some_iff.mp foundWas with ⟨earlier, foundEarlier, isTicket⟩
                rw [← isTicket]
                exact ih other less earlier foundEarlier
              · unfold LockCall.isQueued at queued
                split at queued
                · rename_i position
                  simp [LockCall.next, position]
                · cases queued
          | false =>
              rcases (held.flags index call found).goesOn queued pending advisory timedOut with
                ⟨event, notEnter, kept, goes⟩
              apply impossible event kept _ goes
              cases event <;> first | rfl | exact absurd rfl notEnter
    intro call member
    rcases List.getElem?_of_mem member with ⟨index, found⟩
    exact settled index call found

/-- Two calls with one key.  The connection of the first is lost while its function runs. -/
def connectionLost : List (LockEvent Nat Nat String) :=
  [.call 7, .call 7, .next 0 .enter, .next 0 .connect, .next 0 .configured, .next 0 .locked,
    .next 0 (.rejected "connection closed"), .next 0 .resume, .next 0 .leave,
    .next 1 .enter, .next 1 .connect, .next 1 .configured, .next 1 .locked]

/-- The first call has settled with the error of the connection, its function still runs, and so does the one of
the second call. -/
theorem connectionLost_overlaps : Exists fun starts => Exists fun state =>
    (createRefreshTokenLock Nat true "timed out").Reaches starts state ∧
      (state.calls.map fun call => (call.key, call.inCallback, call.position)) =
        [(7, .running, .settled (.error "connection closed")), (7, .running, .race)] ∧
      ¬ Serialized true "timed out" starts state := by
  let M := @createRefreshTokenLock Nat Nat String _ true "timed out"
  have executes : (M.exec (fun _ _ => true) M.initial connectionLost).isSome = true := by decide
  have calls : ((M.outcome (fun _ _ => true) connectionLost).1.calls.map fun call =>
      (call.key, call.inCallback, call.position)) =
        [(7, .running, .settled (.error "connection closed")), (7, .running, .race)] := by decide
  have first : ((M.outcome (fun _ _ => true) connectionLost).1.calls[0]?.map fun call =>
      (call.fnRuns, call.position)) = some ([.running], .settled (.error "connection closed")) := by decide
  refine ⟨_, _, Machine.run_of_executes (fun _ _ _ => trivial) executes, calls, fun serialized => ?_⟩
  rcases Option.map_eq_some_iff.mp first with ⟨call, found, same⟩
  rcases Prod.mk.inj same with ⟨runs, settled⟩
  rcases serialized.own call _ (List.mem_of_getElem? found) settled with ⟨own, settled, _⟩
  rw [runs] at settled
  cases settled

/-- Two calls with one key: the first gets no connection in time, the second runs under the advisory lock and
loses its connection when its function is over. -/
def slowPool : List (LockEvent Nat Nat String) :=
  [.call 7, .call 7, .next 0 .enter, .next 0 .timeout, .next 0 .resume, .next 0 .connect, .next 0 .committed,
    .next 0 (.byItselfSettled (.ok 1)), .next 0 .leave, .next 1 .enter, .next 1 .connect, .next 1 .configured,
    .next 1 .locked, .next 1 (.fnSettled (.error "refused")), .next 1 (.rejected "refused"), .next 1 .resume,
    .next 1 .leave]

/-- A test for the two rules, enough for the run. -/
def obeys (state : LockState Nat Nat String) : LockEvent Nat Nat String -> Bool
  | .next index .locked => state.calls[index]?.all (·.run.isNone)
  | .next index (.rejected error) =>
      state.calls[index]?.all fun call => decide (call.callback ≠ .inFn ∧ call.inCallback = .settled (.error error))
  | _ => true

theorem obeys_kept (state : LockState Nat Nat String) (event : LockEvent Nat Nat String)
    (obeyed : obeys state event = true) : LockEvent.Kept state event := by
  unfold obeys at obeyed
  split at obeyed
  · intro call found error rejected
    rw [found, Option.all_some, rejected] at obeyed
    cases obeyed
  · intro call found
    rw [found, Option.all_some, decide_eq_true_eq] at obeyed
    refine ⟨obeyed.1, fun own settled => ?_⟩
    rw [obeyed.2] at settled
    cases settled
    rfl
  · rename_i notLocked notRejected
    unfold LockEvent.Kept
    split
    · trivial
    · rename_i index event
      intro call _
      cases event with
      | locked => exact absurd rfl (notLocked index)
      | rejected error => exact absurd rfl (notRejected index error)
      | _ => trivial

theorem slowPool_serialized :
    Serialized true "timed out" ((@createRefreshTokenLock Nat Nat String _ true "timed out").outcome obeys slowPool).2
        ((@createRefreshTokenLock Nat Nat String _ true "timed out").outcome obeys slowPool).1 ∧
      ((@createRefreshTokenLock Nat Nat String _ true "timed out").outcome obeys slowPool).2 = [0, 1] :=
  ⟨grants_serialized (Machine.run_of_executes obeys_kept (by decide)), by decide⟩

end RefreshLock
end Dokploy
