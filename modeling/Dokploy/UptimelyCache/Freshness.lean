import Dokploy.UptimelyCache.Fetching

namespace Dokploy
namespace UptimelyCache

open Foundation
open Foundation.Histories

/-!
# No value from before a change

In every run in which fetchers return promises, a read is answered with a value
that was fetched after every invalidation before the read, one fetch of a key
runs in each epoch, no fetch begins while a back-off is in force, and nothing
stays in flight after its fetch.

A fetcher that throws at once leaves its settled promise in flight for ever.
-/

variable {Value : Type}

/-- The back-off that was recorded last since the last invalidation, if it has not ended. -/
def BackoffInForce (history : List (Signal Value)) (integration : Units) (now : Nat) : Prop :=
  Exists fun ends => Exists fun fetch =>
    latest (concernsBackoff integration) history = some (.backedOff integration ends fetch) ∧
      (Number.ofNat now).less ends = true

/-- What a signal promises of everything before it. -/
def Correct (before : List (Signal Value)) : Signal Value -> Prop
  | .returned read value source =>
      .fetchSettled source (.value value) ∈ before ∧
        forall key integration, .readBegan read key integration ∈ before -> Exists fun now =>
          Follows (.invalidated integration) before (.readBegan read key integration)
            (.fetchBegan source key integration now)
  | .fetchBegan _ _ integration now => ¬ BackoffInForce before integration now
  | .backedOff integration _ fetch => Exists fun key => Exists fun now =>
      Since (.invalidated integration) before (.fetchBegan fetch key integration now)
  | .failed read _ (some fetch) => forall key integration earlier later answer,
      before = earlier ++ .readBegan read key integration :: later -> .fetchSettled fetch answer ∉ earlier
  | _ => True

/-- One fetch of a key runs in each epoch, and what is in flight belongs to a running fetch. -/
structure Tidy (history : List (Signal Value)) (state : State Value) : Prop where
  single : forall first second, first ∈ state.running -> second ∈ state.running -> first.key = second.key ->
    Since (.invalidated first.integration) history first.began ->
      Since (.invalidated second.integration) history second.began -> first = second
  clear : forall key flight, getEntry state.inflight key = some flight ->
    Exists fun fetch => fetch ∈ state.running ∧ fetch.key = key

variable {history : List (Signal Value)} {state : State Value}

theorem Sound.tidy (sound : Sound history state) :
    Tidy history state := by
  constructor
  · intro first second inFirst inSecond sameKey firstSince secondSince
    have firstShared := sound.shared first inFirst ((sound.running first inFirst).current.mpr firstSince)
    have secondShared := sound.shared second inSecond ((sound.running second inSecond).current.mpr secondSince)
    rw [sameKey, secondShared] at firstShared
    injection firstShared with flights
    injection flights with numbers
    exact sound.distinct first second inFirst inSecond numbers.symm
  · intro key flight found
    rcases sound.inflight key flight found with ⟨fetch, member, sameKey, _⟩
    exact ⟨fetch, member, sameKey⟩

/-- Fetchers that are called return a promise. -/
def Promises (state : State Value) : Event Value -> Prop
  | .reads scope name _ (.throws _) => forall entry, lookUp state scope name ≠ .missing entry
  | _ => True

/-- What the state holds where a read looks. -/
def LookedUp (state : State Value) (scope : Scope) (name : Units) : Lookup Value -> Prop
  | .fresh entry => getEntry state.entries (keyOf scope name) = some entry
  | .backedOff _ entry => getEntry state.entries (keyOf scope name) = entry
  | .pending flight => getEntry state.inflight (keyOf scope name) = some flight
  | .missing entry =>
      getEntry state.entries (keyOf scope name) = entry ∧
        (getUptimelyBackoffUntil state scope.toIntegrationScope).1 = none ∧
          getEntry state.inflight (keyOf scope name) = none

theorem lookUp_spec (state : State Value) (scope : Scope) (name : Units) :
    LookedUp state scope name (lookUp state scope name) := by
  unfold lookUp
  dsimp only
  split
  · rename_i entry found
    exact Option.eq_some_of_filter_eq_some found
  · split
    · exact rfl
    · split
      · assumption
      · rename_i missing
        exact ⟨rfl, by assumption, missing⟩

theorem mem_of_getEntry {Item : Type} {entries : List (Units × Item)} {key : Units} {item : Item}
    (found : getEntry entries key = some item) : (key, item) ∈ entries := by
  rcases Option.map_eq_some_iff.mp found with ⟨entry, first, rfl⟩
  have sameKey := List.find?_some first
  rw [decide_eq_true_eq] at sameKey
  rw [← sameKey]
  exact List.mem_of_find?_eq_some first

theorem Sound.entry_correct (sound : Sound history state)
    {read : Nat} {key : Units} {entry : Entry Value} (own : OwnRead history read key)
    (found : getEntry state.entries key = some entry) :
    Correct history (.returned read entry.value entry.source) := by
  rcases sound.entries key entry (mem_of_getEntry found) with ⟨home, belongs, produced⟩
  refine ⟨produced.settled, ?_⟩
  intro other integration recorded
  rcases own _ _ recorded with ⟨rfl, also⟩
  have same := also.unique belongs
  subst same
  rcases produced.since with ⟨now, since⟩
  exact ⟨now, since.follows _⟩

theorem Sound.no_backoff (sound : Sound history state)
    {scope : IntegrationScope} (none : (getUptimelyBackoffUntil state scope).1 = none) :
    ¬ BackoffInForce history (integrationPrefix scope) state.clock := by
  rintro ⟨ends, fetch, last, inForce⟩
  have ended : ends.atMost (.ofNat state.clock) = true := by
    rcases sound.backoffs _ _ _ last with stored | ended
    · unfold getUptimelyBackoffUntil at none
      dsimp only at none
      rw [stored] at none
      dsimp only at none
      split at none
      · assumption
      · cases none
    · exact ended
  rw [Number.not_less_of_atMost ended] at inForce
  cases inForce

/-- The state and everything recorded are in order. -/
structure InOrder (history : List (Signal Value)) (state : State Value) : Prop where
  sound : Sound history state
  correct : EachAt Correct history

theorem InOrder.begin (inOrder : InOrder history state)
    (scope : Scope) (name : Units) :
    InOrder
        (history ++ [.readBegan state.nextRead (keyOf scope name) (integrationPrefix scope.toIntegrationScope)])
        { state with nextRead := state.nextRead + 1 } ∧
      OwnRead
        (history ++ [.readBegan state.nextRead (keyOf scope name) (integrationPrefix scope.toIntegrationScope)])
        state.nextRead (keyOf scope name) := by
  refine ⟨⟨inOrder.sound.extend ?_ (Nat.le_succ _) ?_, inOrder.correct.snoc trivial⟩, ?_⟩
  · constructor
    · intro read key integration member
      cases List.mem_singleton.mp member
      exact ⟨Nat.le_refl _, Nat.lt_succ_self _⟩
    · intro number key integration now member
      cases List.mem_singleton.mp member
    · intro number answer member
      cases List.mem_singleton.mp member
    · intro integration member
      cases List.mem_singleton.mp member
  · intro integration signal member
    rw [List.mem_singleton.mp member]
    rfl
  · intro key integration member
    rcases List.mem_append.mp member with old | new
    · exact absurd (inOrder.sound.reads _ _ _ old) (Nat.lt_irrefl _)
    · cases List.mem_singleton.mp new
      exact ⟨rfl, BelongsTo.of_read scope name⟩

def IsAnswer : Signal Value -> Prop
  | .returned _ _ _ => True
  | .failed _ _ _ => True
  | _ => False

theorem Harmless.of_answers (state : State Value) {output : List (Signal Value)}
    (answers : forall signal, signal ∈ output -> IsAnswer signal) : Harmless state state.nextRead output where
  reads := fun _ _ _ member => (answers _ member).elim
  fetches := fun _ _ _ _ member => answers _ member
  settled := fun _ _ member => (answers _ member).elim
  unmarked := fun _ member => answers _ member

theorem IsAnswer.unconcerned {signal : Signal Value} (answer : IsAnswer signal) (integration : Units) :
    concernsBackoff integration signal = false := by
  cases signal with
  | returned => rfl
  | failed => rfl
  | _ => exact answer.elim

theorem IsAnswer.answered (read fetch : Nat) (outcome : Outcome Value) : IsAnswer (answered read fetch outcome) := by
  cases outcome with
  | value => trivial
  | failure => trivial

theorem Sound.answers {output : List (Signal Value)} (sound : Sound history state)
    (answers : forall signal, signal ∈ output -> IsAnswer signal) : Sound (history ++ output) state :=
  sound.extend (Harmless.of_answers state answers) (Nat.le_refl _)
    fun integration signal member => (answers signal member).unconcerned integration

theorem InOrder.answer {signal : Signal Value}
    (inOrder : InOrder history state) (isAnswer : IsAnswer signal) (correct : Correct history signal) :
    InOrder (history ++ [signal]) state := by
  refine ⟨inOrder.sound.answers ?_, inOrder.correct.snoc correct⟩
  intro other member
  rw [List.mem_singleton.mp member]
  exact isAnswer

theorem getUptimelyBackoffUntil_keeps (state : State Value) (scope : IntegrationScope) :
    (getUptimelyBackoffUntil state scope).2 =
      { state with backoffUntil := (getUptimelyBackoffUntil state scope).2.backoffUntil } := by
  unfold getUptimelyBackoffUntil
  dsimp only
  split
  · rfl
  · split
    · rfl
    · rfl

theorem getUptimelyBackoffUntil_reads (state : State Value) (nextRead : Nat) (scope : IntegrationScope) :
    (getUptimelyBackoffUntil { state with nextRead := nextRead } scope).1 =
      (getUptimelyBackoffUntil state scope).1 := by
  unfold getUptimelyBackoffUntil
  dsimp only
  cases getEntry state.backoffUntil (integrationPrefix scope) with
  | none => rfl
  | some ends =>
      dsimp only
      split
      · rfl
      · rfl

theorem InOrder.reads (inOrder : InOrder history state)
    (round : Rat -> Number) {scope : Scope} {name : Units} {ttlMs : Option Number} {fetcher : Fetcher}
    (allowed : Promises state (.reads scope name ttlMs fetcher)) :
    InOrder (history ++ (readUptimelyCached round state scope name ttlMs fetcher).2)
      (readUptimelyCached round state scope name ttlMs fetcher).1 := by
  rcases inOrder.begin scope name with ⟨begun, own⟩
  have known := lookUp_spec state scope name
  have expired := begun.sound.expire scope.toIntegrationScope
  rw [getUptimelyBackoffUntil_keeps] at expired
  unfold readUptimelyCached
  dsimp only
  rw [List.append_cons, getUptimelyBackoffUntil_keeps]
  split
  · rename_i entry found
    rw [found] at known
    exact begun.answer trivial (begun.sound.entry_correct own known)
  · rename_i ends entry found
    rw [found] at known
    exact begun.answer trivial (begun.sound.entry_correct own known)
  · exact begun.answer trivial trivial
  · rename_i flight found
    rw [found] at known
    rcases begun.sound.inflight _ _ known with ⟨fetch, _, _, flies, _⟩
    rw [flies]
    dsimp only
    rw [List.append_nil]
    rw [flies] at known
    exact ⟨expired.join known (Nat.lt_succ_self _) own, begun.correct⟩
  · rename_i entry found
    cases fetcher with
    | throws error => exact absurd found (allowed entry)
    | promises =>
        rw [found] at known
        rcases known with ⟨stored, none, missing⟩
        refine ⟨expired.start round (BelongsTo.of_read scope name) rfl rfl missing (Nat.lt_succ_self _) own ?_, ?_⟩
        · rintro entry rfl
          exact mem_of_getEntry stored
        · exact begun.correct.snoc
            (begun.sound.no_backoff ((getUptimelyBackoffUntil_reads state _ _).trans none))

/-- What a fetch settles with is a value that is recorded, of its own epoch. -/
def Justified (history : List (Signal Value)) (fetch : Fetch Value) : Outcome Value -> Prop
  | .value value source =>
      .fetchSettled source (.value value) ∈ history ∧ Exists fun now =>
        Follows (.invalidated fetch.integration) history fetch.began
          (.fetchBegan source fetch.key fetch.integration now)
  | .failure _ => True

theorem Justified.append {history more : List (Signal Value)} {fetch : Fetch Value} {outcome : Outcome Value}
    (justified : Justified history fetch outcome) (old : fetch.began ∉ more) :
    Justified (history ++ more) fetch outcome := by
  cases outcome with
  | failure => trivial
  | value value source =>
      rcases justified with ⟨settled, now, follows⟩
      exact ⟨List.mem_append_left _ settled, now, follows.append old⟩

variable {fetch : Fetch Value} {outcome : Outcome Value}

theorem Sound.answered_correct {more : List (Signal Value)}
    (sound : Sound history state) {read : Nat}
    (member : fetch ∈ state.running) (waits : (read, fetch.number) ∈ state.waiting)
    (justified : Justified (history ++ more) fetch outcome)
    (old : forall key integration, .readBegan read key integration ∉ more) :
    Correct (history ++ more) (answered read fetch.number outcome) := by
  rcases sound.waiting _ _ waits with ⟨awaited, runs, same, awaits⟩
  have equal := sound.distinct awaited fetch runs member same
  subst equal
  cases outcome with
  | value value source =>
      rcases justified with ⟨settled, now, follows⟩
      refine ⟨settled, ?_⟩
      intro key integration recorded
      have before := (List.mem_append.mp recorded).resolve_right (old key integration)
      rcases awaits.follows key integration before with ⟨rfl, rfl, joined⟩
      exact ⟨now, (joined.append (old _ _)).trans follows⟩
  | failure error =>
      intro key integration earlier later answer split settled
      rcases split_of_append split with ⟨rest, here, _⟩ | ⟨skipped, _, new⟩
      · refine (sound.running awaited runs).unsettled answer ?_
        rw [here]
        exact List.mem_append_left _ settled
      · exact old key integration (new ▸ List.mem_append_right _ List.mem_cons_self)

theorem leave_with (state : State Value) (entries : List (Units × Entry Value))
    (backoffUntil : List (Units × Number)) (key : Units) (run : Option Nat) :
    leave { state with entries := entries, backoffUntil := backoffUntil } key run =
      { state with
        entries := entries
        backoffUntil := backoffUntil
        inflight := (leave state key run).inflight } := by
  unfold leave
  dsimp only
  split
  · rfl
  · rfl

/-- The state without a fetch that has settled. -/
def without (state : State Value) (fetch : Fetch Value) : State Value :=
  { state with
    inflight := (leave state fetch.key (some fetch.number)).inflight
    running := state.running.filter fun other => other.number ≠ fetch.number
    waiting := state.waiting.filter fun waits => waits.2 ≠ fetch.number }

variable {round : Rat -> Number}

theorem settles_eq {answer : Answer Value}
    {entries : List (Units × Entry Value)} {backoffUntil : List (Units × Number)}
    {signals : List (Signal Value)}
    (settled : settle round state fetch answer =
      ({ state with entries := entries, backoffUntil := backoffUntil }, outcome, signals)) :
    settles round state fetch answer =
      ({ without state fetch with entries := entries, backoffUntil := backoffUntil },
        .fetchSettled fetch.number answer :: signals ++
          (state.waiting.filter fun waits => waits.2 = fetch.number).map fun waits =>
            answered waits.1 fetch.number outcome) := by
  unfold settles
  rw [settled]
  dsimp only
  rw [leave_with]
  rfl

theorem Sound.settle (sound : Sound history state) (member : fetch ∈ state.running) (answer : Answer Value) :
    Sound (history ++ [.fetchSettled fetch.number answer]) (without state fetch) := by
  have removed : Sound history (without state fetch) := sound.remove member
  refine removed.extend ?_ (Nat.le_refl state.nextRead) ?_
  · constructor
    · intro read key integration new
      cases List.mem_singleton.mp new
    · intro number key integration now new
      cases List.mem_singleton.mp new
    · intro number other new
      cases List.mem_singleton.mp new
      refine ⟨(sound.running fetch member).number, fun other runs same => ?_⟩
      exact of_decide_eq_true (List.mem_filter.mp runs).2 same
    · intro integration new
      cases List.mem_singleton.mp new
  · intro integration signal new
    rw [List.mem_singleton.mp new]
    rfl

/-- What a settling fetch stores and records, in order; what it settles with is justified. -/
structure Settled (round : Rat -> Number) (history : List (Signal Value)) (state : State Value)
    (fetch : Fetch Value) (answer : Answer Value) (entries : List (Units × Entry Value))
    (backoffUntil : List (Units × Number)) (outcome : Outcome Value) (signals : List (Signal Value)) : Prop where
  settled : settle round state fetch answer =
    ({ state with entries := entries, backoffUntil := backoffUntil }, outcome, signals)
  inOrder : InOrder (history ++ [.fetchSettled fetch.number answer] ++ signals)
    { without state fetch with entries := entries, backoffUntil := backoffUntil }
  justified : Justified (history ++ [.fetchSettled fetch.number answer] ++ signals) fetch outcome
  unread : forall key integration read, .readBegan read key integration ∉ signals

theorem Settled.quiet {answer : Answer Value} {entries : List (Units × Entry Value)}
    (settled : settle round state fetch answer = ({ state with entries := entries }, outcome, []))
    (inOrder : InOrder (history ++ [.fetchSettled fetch.number answer])
      { without state fetch with entries := entries })
    (justified : Justified (history ++ [.fetchSettled fetch.number answer]) fetch outcome) :
    Settled round history state fetch answer entries state.backoffUntil outcome [] :=
  ⟨settled, by rwa [List.append_nil], by rwa [List.append_nil], fun _ _ _ => List.not_mem_nil⟩

theorem InOrder.fetchEnds (inOrder : InOrder history state)
    (round : Rat -> Number) (member : fetch ∈ state.running) (answer : Answer Value) :
    Exists fun entries => Exists fun backoffUntil => Exists fun outcome => Exists fun signals =>
      Settled round history state fetch answer entries backoffUntil outcome signals := by
  have runs := inOrder.sound.running fetch member
  have sound := inOrder.sound.settle member answer
  have correct : EachAt Correct (history ++ [.fetchSettled fetch.number answer]) := inOrder.correct.snoc trivial
  have old : fetch.began ∉ [.fetchSettled fetch.number answer] := by
    intro new
    cases List.mem_singleton.mp new
  have unmarked : (.invalidated fetch.integration : Signal Value) ∉ [.fetchSettled fetch.number answer] := by
    intro new
    cases List.mem_singleton.mp new
  cases answer with
  | value value =>
      have recorded : .fetchSettled fetch.number (.value value) ∈
          history ++ [.fetchSettled fetch.number (.value value)] :=
        List.mem_append_right _ (List.mem_singleton_self _)
      have justified : Justified (history ++ [.fetchSettled fetch.number (.value value)]) fetch
          (.value value fetch.number) :=
        ⟨recorded, fetch.startedAt, fun _ _ _ member => member⟩
      by_cases current : generationOf state fetch.integration = fetch.generation
      · have since := (runs.current.mp current.symm).append unmarked
        have produced : Produced (history ++ [.fetchSettled fetch.number (.value value)]) fetch.key
            fetch.integration
            { value := value, source := fetch.number,
              expiresAt := (Number.ofNat state.clock).plus round
                (fetch.ttlMs.getD (.ofNat UPTIMELY_READ_CACHE_TTL_MS)) } :=
          ⟨recorded, fetch.startedAt, since⟩
        refine ⟨_, _, _, _, Settled.quiet ?_ ⟨sound.store round runs.belongs produced, correct⟩ justified⟩
        unfold settle
        dsimp only
        rw [if_pos current]
        rfl
      · refine ⟨state.entries, _, _, _, Settled.quiet ?_ ⟨sound, correct⟩ justified⟩
        unfold settle
        dsimp only
        rw [if_neg current]
  | failure error =>
      cases quota : isUptimelyQuotaError error with
      | false =>
          refine ⟨state.entries, _, .failure error, _, Settled.quiet ?_ ⟨sound, correct⟩ trivial⟩
          unfold settle
          dsimp only
          rw [quota]
          rfl
      | true =>
          have result : Exists fun retryAt => Exists fun outcome =>
              settle round state fetch (.failure error) =
                (if generationOf state fetch.integration = fetch.generation then
                  ({ state with backoffUntil := setEntry state.backoffUntil fetch.integration retryAt }, outcome,
                    [.backedOff fetch.integration retryAt fetch.number])
                else (state, outcome, [])) ∧
              Justified (history ++ [.fetchSettled fetch.number (.failure error)]) fetch outcome := by
            unfold settle
            dsimp only
            rw [quota, Bool.not_true, if_neg (by decide)]
            refine ⟨_, _, rfl, ?_⟩
            split
            · rename_i entry held
              rcases runs.captured entry held with ⟨recorded, now, follows⟩
              exact ⟨List.mem_append_left _ recorded, now, follows.append old⟩
            · trivial
          rcases result with ⟨retryAt, outcome, settled, justified⟩
          by_cases current : generationOf state fetch.integration = fetch.generation
          · rw [if_pos current] at settled
            have since := (runs.current.mp current.symm).append unmarked
            refine ⟨state.entries, _, outcome, _, settled, ⟨?_, ?_⟩, justified.append ?_, ?_⟩
            · exact sound.backOff fetch.integration retryAt fetch.number
            · exact correct.snoc ⟨fetch.key, fetch.startedAt, since⟩
            · intro new
              cases List.mem_singleton.mp new
            · intro key integration read new
              cases List.mem_singleton.mp new
          · rw [if_neg current] at settled
            exact ⟨state.entries, _, outcome, _, Settled.quiet settled ⟨sound, correct⟩ justified⟩

theorem InOrder.settles (inOrder : InOrder history state)
    (round : Rat -> Number) (member : fetch ∈ state.running) (answer : Answer Value) :
    InOrder (history ++ (settles round state fetch answer).2) (settles round state fetch answer).1 := by
  rcases inOrder.fetchEnds round member answer with ⟨entries, backoffUntil, outcome, signals, ended⟩
  rw [settles_eq ended.settled]
  dsimp only
  rw [List.cons_append, List.append_cons, ← List.append_assoc]
  have answers : forall signal, signal ∈ ((state.waiting.filter fun waits => waits.2 = fetch.number).map
      fun waits => answered waits.1 fetch.number outcome) -> IsAnswer signal := by
    intro signal member
    rcases List.mem_map.mp member with ⟨waits, _, rfl⟩
    exact IsAnswer.answered _ _ _
  refine ⟨ended.inOrder.sound.answers answers, ended.inOrder.correct.append answers ?_⟩
  intro passed quiet signal told
  rcases List.mem_map.mp told with ⟨⟨read, number⟩, waits, rfl⟩
  rcases List.mem_filter.mp waits with ⟨waiting, own⟩
  have same : number = fetch.number := of_decide_eq_true own
  subst same
  have justified : Justified (history ++ ([.fetchSettled fetch.number answer] ++ signals ++ passed)) fetch outcome := by
    rw [← List.append_assoc, ← List.append_assoc]
    exact ended.justified.append fun member => quiet _ member
  have correct := inOrder.sound.answered_correct member waiting justified fun key integration recorded => by
    rcases List.mem_append.mp recorded with earlier | later
    · rcases List.mem_append.mp earlier with first | second
      · cases List.mem_singleton.mp first
      · exact ended.unread _ _ _ second
    · exact quiet _ later
  rwa [← List.append_assoc, ← List.append_assoc] at correct

theorem InOrder.invalidates (inOrder : InOrder history state)
    (scope : IntegrationScope) :
    InOrder (history ++ [.invalidated (integrationPrefix scope)]) (invalidateUptimelyCache state scope) :=
  ⟨inOrder.sound.invalidate scope, inOrder.correct.snoc trivial⟩

theorem InOrder.step {output : List (Signal Value)} {after : State Value}
    {event : Event Value} (inOrder : InOrder history state) (allowed : Promises state event)
    (stepped : UptimelyCache.step round state event = some (after, output)) :
    InOrder (history ++ output) after := by
  cases event with
  | passes ms =>
      cases stepped
      rw [List.append_nil]
      exact ⟨inOrder.sound.pass ms, inOrder.correct⟩
  | reads scope name ttlMs fetcher =>
      have result := inOrder.reads round allowed
      cases stepped
      exact result
  | settles number answer =>
      rcases Option.map_eq_some_iff.mp stepped with ⟨fetch, found, settled⟩
      have result := inOrder.settles round (List.mem_of_find?_eq_some found) answer
      rwa [settled] at result
  | invalidates scope =>
      cases stepped
      exact inOrder.invalidates scope

theorem asksInOrder_of_run {round : Rat -> Number} {history : List (Signal Value)} {state : State Value}
    (run : (cache round).Run Promises history state) : InOrder history state :=
  run.invariant InOrder ⟨Sound.initial, EachAt.nil⟩
    fun _ _ _ _ _ _ inOrder allowed stepped => inOrder.step allowed stepped

def someScope : Scope := { organizationId := [0x61], uptimelyId := [0x62], projectId := [0x63], baseUrl := [] }

/-- Reads before and after an invalidation; the second fetch meets a refusal, so the last read finds a back-off. -/
def reading : List (Event Nat) :=
  [.reads someScope [] none .promises, .reads someScope [] none .promises, .settles 0 (.value 7),
    .reads someScope [] none .promises, .invalidates someScope.toIntegrationScope,
    .reads someScope [] none .promises, .settles 1 (.failure (.uptimely (some (.number (.ofNat 429))) none)),
    .reads someScope [] none .promises]

def returnsPromise (_state : State Nat) : Event Nat -> Bool
  | .reads _ _ _ (.throws _) => false
  | _ => true

theorem promises_of_returnsPromise (state : State Nat) (event : Event Nat)
    (returns : returnsPromise state event = true) : Promises state event := by
  cases event with
  | reads scope name ttlMs fetcher =>
      cases fetcher with
      | promises => trivial
      | throws error => cases returns
  | _ => trivial

/-- A fetcher throws at once, and the key is read again. -/
def throwing : List (Event Nat) :=
  [.reads someScope [] none (.throws (.other [])), .reads someScope [] none .promises]

end UptimelyCache
end Dokploy
