import Dokploy.Foundation.Histories
import Dokploy.UptimelyCache.Keys

namespace Dokploy
namespace UptimelyCache

open Foundation
open Foundation.Histories

/-!
# What the cache holds

The generation of an integration tells whether a fetch began since its last
invalidation.  Such a fetch is the one in flight for its key, so there is one of
them, and only such a fetch stores its value.  Every stored value was therefore
fetched since the last invalidation, and a read that joins a fetch began no
earlier than the last invalidation before that fetch.

The invariant says this of the state and of everything recorded so far.  It is
kept by each of the small changes that a step of the cache consists of.
-/

variable {Value : Type}

/-- The signals that concern the back-off of an integration. -/
def concernsBackoff (integration : Units) : Signal Value -> Bool
  | .backedOff other _ _ => decide (other = integration)
  | .invalidated other => decide (other = integration)
  | _ => false

def Fetch.began (fetch : Fetch Value) : Signal Value :=
  .fetchBegan fetch.number fetch.key fetch.integration fetch.startedAt

/-- A value that was fetched for a key since the last invalidation. -/
structure Produced (history : List (Signal Value)) (key integration : Units) (entry : Entry Value) : Prop where
  settled : .fetchSettled entry.source (.value entry.value) ∈ history
  since : Exists fun now =>
    Since (.invalidated integration) history (.fetchBegan entry.source key integration now)

structure Runs (history : List (Signal Value)) (state : State Value) (fetch : Fetch Value) : Prop where
  belongs : BelongsTo fetch.key fetch.integration
  number : fetch.number < state.nextFetch
  unsettled : forall answer, .fetchSettled fetch.number answer ∉ history
  generation : fetch.generation ≤ generationOf state fetch.integration
  current : fetch.generation = generationOf state fetch.integration <->
    Since (.invalidated fetch.integration) history fetch.began
  captured : forall entry, fetch.entry = some entry ->
    .fetchSettled entry.source (.value entry.value) ∈ history ∧ Exists fun now =>
      Follows (.invalidated fetch.integration) history fetch.began
        (.fetchBegan entry.source fetch.key fetch.integration now)

/-- A read that awaits a fetch began no earlier than the last invalidation before it. -/
structure Awaits (history : List (Signal Value)) (state : State Value) (read : Nat) (fetch : Fetch Value) :
    Prop where
  begun : read < state.nextRead
  follows : forall key integration, .readBegan read key integration ∈ history ->
    key = fetch.key ∧ integration = fetch.integration ∧
      Follows (.invalidated integration) history (.readBegan read key integration) fetch.began

structure Sound (history : List (Signal Value)) (state : State Value) : Prop where
  reads : forall read key integration, .readBegan read key integration ∈ history -> read < state.nextRead
  fetches : forall number key integration now, .fetchBegan number key integration now ∈ history ->
    number < state.nextFetch
  settled : forall number answer, .fetchSettled number answer ∈ history -> number < state.nextFetch
  running : forall fetch, fetch ∈ state.running -> Runs history state fetch
  distinct : forall first second, first ∈ state.running -> second ∈ state.running ->
    first.number = second.number -> first = second
  shared : forall fetch, fetch ∈ state.running -> fetch.generation = generationOf state fetch.integration ->
    getEntry state.inflight fetch.key = some { fetch := fetch.number, outcome := none }
  inflight : forall key flight, getEntry state.inflight key = some flight ->
    Exists fun fetch => fetch ∈ state.running ∧ fetch.key = key ∧
      flight = { fetch := fetch.number, outcome := none } ∧
        fetch.generation = generationOf state fetch.integration
  entries : forall key entry, (key, entry) ∈ state.entries -> Exists fun integration =>
    BelongsTo key integration ∧ Produced history key integration entry
  waiting : forall read number, (read, number) ∈ state.waiting -> Exists fun fetch =>
    fetch ∈ state.running ∧ fetch.number = number ∧ Awaits history state read fetch
  backoffs : forall integration ends number,
    latest (concernsBackoff integration) history = some (.backedOff integration ends number) ->
      getEntry state.backoffUntil integration = some ends ∨ ends.atMost (.ofNat state.clock) = true

theorem Sound.initial : Sound ([] : List (Signal Value)) {} where
  reads := fun _ _ _ member => absurd member List.not_mem_nil
  fetches := fun _ _ _ _ member => absurd member List.not_mem_nil
  settled := fun _ _ member => absurd member List.not_mem_nil
  running := fun _ member => absurd member List.not_mem_nil
  distinct := fun _ _ member => absurd member List.not_mem_nil
  shared := fun _ member => absurd member List.not_mem_nil
  inflight := fun _ _ found => by cases found
  entries := fun _ _ member => absurd member List.not_mem_nil
  waiting := fun _ _ member => absurd member List.not_mem_nil
  backoffs := fun _ _ _ found => by cases found

/-- New signals that neither begin a fetch nor end an epoch, and whose reads are new. -/
structure Harmless (state : State Value) (nextRead : Nat) (output : List (Signal Value)) : Prop where
  reads : forall read key integration, .readBegan read key integration ∈ output ->
    state.nextRead ≤ read ∧ read < nextRead
  fetches : forall number key integration now, .fetchBegan number key integration now ∉ output
  settled : forall number answer, .fetchSettled number answer ∈ output ->
    number < state.nextFetch ∧ forall fetch, fetch ∈ state.running -> fetch.number ≠ number
  unmarked : forall integration, .invalidated integration ∉ output

theorem Produced.append {history more : List (Signal Value)} {key integration : Units} {entry : Entry Value}
    (produced : Produced history key integration entry) (unmarked : .invalidated integration ∉ more) :
    Produced (history ++ more) key integration entry := by
  rcases produced.since with ⟨now, since⟩
  exact ⟨List.mem_append_left _ produced.settled, now, since.append unmarked⟩

theorem Runs.append {history more : List (Signal Value)} {state after : State Value} {fetch : Fetch Value}
    (runs : Runs history state fetch) (unmarked : .invalidated fetch.integration ∉ more)
    (old : fetch.began ∉ more) (unsettled : forall answer, .fetchSettled fetch.number answer ∉ more)
    (fetches : state.nextFetch ≤ after.nextFetch) (generations : after.generations = state.generations) :
    Runs (history ++ more) after fetch := by
  have same : generationOf after fetch.integration = generationOf state fetch.integration := by
    rw [generationOf, generations, generationOf]
  refine ⟨runs.belongs, Nat.lt_of_lt_of_le runs.number fetches, ?_, same ▸ runs.generation, ?_, ?_⟩
  · intro answer member
    exact (List.mem_append.mp member).elim (runs.unsettled answer) (unsettled answer)
  · rw [same, runs.current]
    exact ⟨fun since => since.append unmarked, fun since => since.of_append old⟩
  · intro entry found
    rcases runs.captured entry found with ⟨settled, now, follows⟩
    exact ⟨List.mem_append_left _ settled, now, follows.append old⟩

theorem Awaits.append {history more : List (Signal Value)} {state after : State Value} {read : Nat}
    {fetch : Fetch Value} (awaits : Awaits history state read fetch)
    (old : forall key integration, .readBegan read key integration ∉ more)
    (reads : state.nextRead ≤ after.nextRead) : Awaits (history ++ more) after read fetch := by
  refine ⟨Nat.lt_of_lt_of_le awaits.begun reads, ?_⟩
  intro key integration member
  have before := (List.mem_append.mp member).resolve_right (old key integration)
  rcases awaits.follows key integration before with ⟨sameKey, sameIntegration, follows⟩
  exact ⟨sameKey, sameIntegration, follows.append (old key integration)⟩

variable {history : List (Signal Value)} {state : State Value} {entries : List (Units × Entry Value)}

theorem Sound.change {output : List (Signal Value)} {nextRead clock : Nat} {backoffUntil : List (Units × Number)}
    (sound : Sound history state)
    (harmless : Harmless state nextRead output) (later : state.nextRead ≤ nextRead)
    (stored : forall key entry, (key, entry) ∈ entries -> Exists fun integration =>
      BelongsTo key integration ∧ Produced (history ++ output) key integration entry)
    (backoffs : forall integration ends number,
      latest (concernsBackoff integration) (history ++ output) = some (.backedOff integration ends number) ->
        getEntry backoffUntil integration = some ends ∨ ends.atMost (.ofNat clock) = true) :
    Sound (history ++ output)
      { state with entries := entries, backoffUntil := backoffUntil, clock := clock, nextRead := nextRead } where
  reads := by
    intro read key integration member
    rcases List.mem_append.mp member with old | new
    · exact Nat.lt_of_lt_of_le (sound.reads _ _ _ old) later
    · exact (harmless.reads _ _ _ new).2
  fetches := by
    intro number key integration now member
    exact sound.fetches _ _ _ _ ((List.mem_append.mp member).resolve_right (harmless.fetches _ _ _ _))
  settled := by
    intro number answer member
    exact (List.mem_append.mp member).elim (sound.settled _ _) fun new => (harmless.settled _ _ new).1
  running := by
    intro fetch member
    exact (sound.running fetch member).append (harmless.unmarked _) (harmless.fetches _ _ _ _)
      (fun answer new => (harmless.settled _ _ new).2 fetch member rfl) (Nat.le_refl _) rfl
  distinct := sound.distinct
  shared := sound.shared
  inflight := sound.inflight
  entries := stored
  waiting := by
    intro read number member
    rcases sound.waiting read number member with ⟨fetch, runs, same, awaits⟩
    refine ⟨fetch, runs, same, awaits.append ?_ later⟩
    intro key integration new
    exact absurd awaits.begun (Nat.not_lt.mpr (harmless.reads _ _ _ new).1)
  backoffs := backoffs

theorem Harmless.nil (state : State Value) : Harmless state state.nextRead [] where
  reads := fun _ _ _ member => absurd member List.not_mem_nil
  fetches := fun _ _ _ _ => List.not_mem_nil
  settled := fun _ _ member => absurd member List.not_mem_nil
  unmarked := fun _ => List.not_mem_nil

theorem Sound.extend {output : List (Signal Value)} {nextRead : Nat}
    (sound : Sound history state) (harmless : Harmless state nextRead output) (later : state.nextRead ≤ nextRead)
    (others : forall integration signal, signal ∈ output -> concernsBackoff integration signal = false) :
    Sound (history ++ output) { state with nextRead := nextRead } := by
  refine sound.change harmless later ?_ ?_
  · intro key entry member
    rcases sound.entries key entry member with ⟨integration, belongs, produced⟩
    exact ⟨integration, belongs, produced.append (harmless.unmarked _)⟩
  · intro integration ends number found
    rw [latest_append_of_none (others integration)] at found
    exact sound.backoffs _ _ _ found

theorem Sound.keep {clock : Nat} {backoffUntil : List (Units × Number)} (sound : Sound history state)
    (stored : forall key entry, (key, entry) ∈ entries -> Exists fun integration =>
      BelongsTo key integration ∧ Produced history key integration entry)
    (backoffs : forall integration ends number,
      latest (concernsBackoff integration) history = some (.backedOff integration ends number) ->
        getEntry backoffUntil integration = some ends ∨ ends.atMost (.ofNat clock) = true) :
    Sound history { state with entries := entries, backoffUntil := backoffUntil, clock := clock } := by
  have changed :
      Sound (history ++ []) { state with entries := entries, backoffUntil := backoffUntil, clock := clock } :=
    sound.change (Harmless.nil state) (Nat.le_refl _) (by rwa [List.append_nil]) (by rwa [List.append_nil])
  rwa [List.append_nil] at changed

theorem Sound.pass (sound : Sound history state)
    (ms : Nat) : Sound history { state with clock := state.clock + ms } :=
  sound.keep sound.entries fun integration ends number found =>
    (sound.backoffs integration ends number found).imp_right
      fun ended => Number.atMost_later ended (Nat.le_add_right _ _)

theorem Sound.expire (sound : Sound history state)
    (scope : IntegrationScope) : Sound history (getUptimelyBackoffUntil state scope).2 := by
  unfold getUptimelyBackoffUntil
  dsimp only
  split
  · exact sound
  · rename_i ends stored
    split
    · rename_i ended
      refine sound.keep sound.entries ?_
      intro integration other number found
      rcases sound.backoffs integration other number found with kept | past
      · by_cases same : integration = integrationPrefix scope
        · rw [same, stored] at kept
          exact Or.inr (Option.some.inj kept ▸ ended)
        · exact Or.inl ((getEntry_deleteEntry_other _ same).trans kept)
      · exact Or.inr past
    · exact sound

theorem mem_prune {round : Rat -> Number} {now : Nat}
    {entry : Units × Entry Value} (member : entry ∈ prune round entries now) : entry ∈ entries :=
  (List.mem_filter.mp (List.mem_of_mem_drop member)).1

theorem Sound.store (sound : Sound history state)
    (round : Rat -> Number) {key integration : Units} {entry : Entry Value} (belongs : BelongsTo key integration)
    (produced : Produced history key integration entry) :
    Sound history { state with entries := prune round (setEntry state.entries key entry) state.clock } := by
  refine sound.keep ?_ sound.backoffs
  intro other item member
  rcases mem_setEntry (mem_prune member) with new | old
  · cases new
    exact ⟨integration, belongs, produced⟩
  · exact sound.entries other item old

theorem Sound.backOff (sound : Sound history state)
    (integration : Units) (ends : Number) (number : Nat) :
    Sound (history ++ [.backedOff integration ends number])
      { state with backoffUntil := setEntry state.backoffUntil integration ends } := by
  have harmless : Harmless state state.nextRead [.backedOff integration ends number] := by
    constructor
    · intro read key other member
      cases List.mem_singleton.mp member
    · intro other key home now member
      cases List.mem_singleton.mp member
    · intro other answer member
      cases List.mem_singleton.mp member
    · intro other member
      cases List.mem_singleton.mp member
  refine sound.change harmless (Nat.le_refl _) ?_ ?_
  · intro key entry member
    rcases sound.entries key entry member with ⟨home, belongs, produced⟩
    exact ⟨home, belongs, produced.append (harmless.unmarked _)⟩
  · intro other last by_ found
    by_cases same : other = integration
    · subst same
      rw [latest_snoc (by simp [concernsBackoff])] at found
      cases found
      exact Or.inl (getEntry_setEntry_self _ _ _)
    · rw [latest_append_of_none (by simp [concernsBackoff, Ne.symm same])] at found
      rw [getEntry_setEntry_other _ _ same]
      exact sound.backoffs other last by_ found

theorem generationOf_invalidate (state : State Value) (scope : IntegrationScope) (integration : Units) :
    generationOf (invalidateUptimelyCache state scope) integration =
      if integration = integrationPrefix scope then generationOf state integration + 1
      else generationOf state integration := by
  unfold invalidateUptimelyCache
  dsimp only
  rw [generationOf]
  split
  · rename_i same
    rw [same, getEntry_setEntry_self]
    rfl
  · rename_i other
    rw [getEntry_setEntry_other _ _ other]
    rfl

theorem Sound.invalidate (sound : Sound history state)
    (scope : IntegrationScope) :
    Sound (history ++ [.invalidated (integrationPrefix scope)]) (invalidateUptimelyCache state scope) := by
  -- Only the epoch of the one integration ends.
  have unmarked : forall integration, integration ≠ integrationPrefix scope ->
      (.invalidated integration : Signal Value) ∉ [.invalidated (integrationPrefix scope)] := by
    intro integration other member
    cases List.mem_singleton.mp member
    exact other rfl
  have away : forall {key integration : Units}, BelongsTo key integration ->
      (integrationPrefix scope).isPrefixOf key = false -> integration ≠ integrationPrefix scope := by
    intro key integration belongs kept same
    rw [← same, belongs.begins] at kept
    cases kept
  have apart : forall {key integration : Units}, BelongsTo key integration ->
      integration ≠ integrationPrefix scope -> (integrationPrefix scope).isPrefixOf key = false := by
    intro key integration belongs other
    rw [Bool.eq_false_iff]
    exact fun begins => other (belongs.same begins)
  refine
    { reads := ?_, fetches := ?_, settled := ?_, running := ?_, distinct := sound.distinct, shared := ?_, inflight := ?_,
      entries := ?_, waiting := ?_, backoffs := ?_ }
  · intro read key integration member
    rcases List.mem_append.mp member with old | new
    · exact sound.reads _ _ _ old
    · cases List.mem_singleton.mp new
  · intro number key integration now member
    rcases List.mem_append.mp member with old | new
    · exact sound.fetches _ _ _ _ old
    · cases List.mem_singleton.mp new
  · intro number answer member
    rcases List.mem_append.mp member with old | new
    · exact sound.settled _ _ old
    · cases List.mem_singleton.mp new
  · intro fetch member
    have runs := sound.running fetch member
    have old : fetch.began ∉ [.invalidated (integrationPrefix scope)] := by
      intro new
      cases List.mem_singleton.mp new
    have later := generationOf_invalidate state scope fetch.integration
    refine ⟨runs.belongs, runs.number, ?_, ?_, ?_, ?_⟩
    · intro answer settled
      rcases List.mem_append.mp settled with before | new
      · exact runs.unsettled answer before
      · cases List.mem_singleton.mp new
    · have bound := runs.generation
      rw [later]
      split
      · omega
      · exact bound
    · rw [later]
      split
      · rename_i same
        have bound := runs.generation
        rw [same]
        refine ⟨fun impossible => ?_, fun since => absurd since not_since_mark⟩
        rw [same] at bound
        omega
      · rename_i other
        rw [runs.current]
        exact ⟨fun since => since.append (unmarked _ other), fun since => since.of_append old⟩
    · intro entry captured
      rcases runs.captured entry captured with ⟨settled, now, follows⟩
      exact ⟨List.mem_append_left _ settled, now, follows.append old⟩
  · intro fetch member current
    have runs := sound.running fetch member
    rw [generationOf_invalidate] at current
    split at current
    · have bound := runs.generation
      omega
    · rename_i other
      change getEntry (dropPrefixed _ _) _ = _
      rw [getEntry_dropPrefixed, if_neg (by rw [apart runs.belongs other]; decide)]
      exact sound.shared fetch member current
  · intro key flight found
    change getEntry (dropPrefixed _ _) _ = _ at found
    rw [getEntry_dropPrefixed] at found
    split at found
    · cases found
    · rename_i kept
      rcases sound.inflight key flight found with ⟨fetch, member, sameKey, flies, current⟩
      have other := away (sound.running fetch member).belongs (Bool.eq_false_iff.mpr (sameKey ▸ kept))
      refine ⟨fetch, member, sameKey, flies, ?_⟩
      rw [generationOf_invalidate, if_neg other]
      exact current
  · intro key entry member
    rcases mem_dropPrefixed.mp member with ⟨old, kept⟩
    rcases sound.entries key entry old with ⟨integration, belongs, produced⟩
    exact ⟨integration, belongs, produced.append (unmarked _ (away belongs kept))⟩
  · intro read number member
    rcases sound.waiting read number member with ⟨fetch, runs, same, awaits⟩
    refine ⟨fetch, runs, same, awaits.append ?_ (Nat.le_refl _)⟩
    intro key integration new
    cases List.mem_singleton.mp new
  · intro integration ends number found
    by_cases same : integration = integrationPrefix scope
    · rw [latest_snoc (by simp [concernsBackoff, same])] at found
      cases found
    · rw [latest_append_of_none (by simp [concernsBackoff, Ne.symm same])] at found
      rcases sound.backoffs integration ends number found with kept | ended
      · exact Or.inl ((getEntry_deleteEntry_other _ same).trans kept)
      · exact Or.inr ended

end UptimelyCache
end Dokploy
