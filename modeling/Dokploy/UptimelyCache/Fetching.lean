import Dokploy.UptimelyCache.Soundness

namespace Dokploy
namespace UptimelyCache

open Foundation
open Foundation.Histories

/-!
# Fetches begin, are joined and end

A fetch begins where no fetch is in flight for its key.  Until it settles or its
integration is invalidated it stays in flight, so it is the only one of its
epoch.  When it settles it leaves the map, unless the map has gone on to another
fetch in the meantime.
-/

variable {Value : Type}

theorem getEntry_leave (state : State Value) (key other : Units) (run : Option Nat) :
    getEntry (leave state key run).inflight other =
      if other = key ∧ (getEntry state.inflight key).map Flight.fetch = run then none
      else getEntry state.inflight other := by
  unfold leave
  split
  · rename_i own
    by_cases same : other = key
    · rw [if_pos ⟨same, own⟩, same]
      exact getEntry_deleteEntry_self _ _
    · rw [if_neg fun both => same both.1]
      exact getEntry_deleteEntry_other _ same
  · rename_i another
    rw [if_neg fun both => another both.2]

/-- What the read that starts or joins a fetch has recorded. -/
def OwnRead (history : List (Signal Value)) (read : Nat) (key : Units) : Prop :=
  forall other integration, .readBegan read other integration ∈ history -> other = key ∧ BelongsTo key integration

variable {history : List (Signal Value)} {state : State Value}

theorem Sound.start (sound : Sound history state)
    (round : Rat -> Number) {read : Nat} {fetch : Fetch Value} (belongs : BelongsTo fetch.key fetch.integration)
    (number : fetch.number = state.nextFetch) (generation : fetch.generation = generationOf state fetch.integration)
    (missing : getEntry state.inflight fetch.key = none) (begun : read < state.nextRead)
    (own : OwnRead history read fetch.key)
    (captured : forall entry, fetch.entry = some entry -> (fetch.key, entry) ∈ state.entries) :
    Sound (history ++ [fetch.began]) (startFetch round state read fetch .promises).1 := by
  have unmarked : forall integration, (.invalidated integration : Signal Value) ∉ [fetch.began] := by
    intro integration member
    cases List.mem_singleton.mp member
  have fresh : forall other, other ∈ state.running -> other.number ≠ fetch.number := by
    intro other member same
    exact absurd (sound.running other member).number (Nat.not_lt.mpr (by omega))
  have since : Since (.invalidated fetch.integration) (history ++ [fetch.began]) fetch.began :=
    Since.of_new (List.mem_singleton_self _) (unmarked _)
  refine
    { reads := ?_, fetches := ?_, settled := ?_, running := ?_, distinct := ?_, shared := ?_, inflight := ?_, entries := ?_,
      waiting := ?_, backoffs := ?_ }
  · intro other key integration member
    rcases List.mem_append.mp member with old | new
    · exact sound.reads _ _ _ old
    · cases List.mem_singleton.mp new
  · intro other key integration now member
    change other < fetch.number + 1
    rcases List.mem_append.mp member with old | new
    · have bound := sound.fetches _ _ _ _ old
      omega
    · cases List.mem_singleton.mp new
      exact Nat.lt_succ_self _
  · intro other answer member
    change other < fetch.number + 1
    rcases List.mem_append.mp member with old | new
    · have bound := sound.settled _ _ old
      omega
    · cases List.mem_singleton.mp new
  · intro other member
    rcases List.mem_append.mp member with old | new
    · refine (sound.running other old).append (unmarked _) ?_ ?_ (number ▸ Nat.le_succ _) rfl
      · intro same
        have numbers := List.mem_singleton.mp same
        injection numbers with sameNumber
        exact fresh other old sameNumber
      · intro answer member
        cases List.mem_singleton.mp member
    · cases List.mem_singleton.mp new
      refine ⟨belongs, Nat.lt_succ_self _, ?_, Nat.le_of_eq generation, ⟨fun _ => since, fun _ => generation⟩, ?_⟩
      · intro answer settled
        rcases List.mem_append.mp settled with old | new
        · exact absurd (sound.settled _ _ old) (Nat.not_lt.mpr (Nat.le_of_eq number.symm))
        · cases List.mem_singleton.mp new
      · intro entry held
        rcases sound.entries _ _ (captured entry held) with ⟨integration, home, produced⟩
        rw [home.unique belongs] at produced
        rcases (produced.append (unmarked _)).since with ⟨now, entrySince⟩
        exact ⟨List.mem_append_left _ produced.settled, now, entrySince.follows _⟩
  · intro first second inFirst inSecond same
    rcases List.mem_append.mp inFirst with oldFirst | newFirst
    · rcases List.mem_append.mp inSecond with oldSecond | newSecond
      · exact sound.distinct first second oldFirst oldSecond same
      · cases List.mem_singleton.mp newSecond
        exact absurd same (fresh first oldFirst)
    · rcases List.mem_append.mp inSecond with oldSecond | newSecond
      · cases List.mem_singleton.mp newFirst
        exact absurd same.symm (fresh second oldSecond)
      · rw [List.mem_singleton.mp newFirst, List.mem_singleton.mp newSecond]
  · intro other member current
    change getEntry (setEntry _ _ _) _ = _
    rcases List.mem_append.mp member with old | new
    · have shared := sound.shared other old current
      have apart : other.key ≠ fetch.key := by
        intro same
        rw [same, missing] at shared
        cases shared
      rw [getEntry_setEntry_other _ _ apart]
      exact shared
    · rw [List.mem_singleton.mp new]
      exact getEntry_setEntry_self _ _ _
  · intro key flight found
    change getEntry (setEntry _ _ _) _ = _ at found
    by_cases same : key = fetch.key
    · rw [same, getEntry_setEntry_self] at found
      exact ⟨fetch, List.mem_append_right _ (List.mem_singleton_self _), same.symm, (Option.some.inj found).symm,
        generation⟩
    · rw [getEntry_setEntry_other _ _ same] at found
      rcases sound.inflight key flight found with ⟨other, member, facts⟩
      exact ⟨other, List.mem_append_left _ member, facts⟩
  · intro key entry member
    rcases sound.entries key entry member with ⟨integration, home, produced⟩
    exact ⟨integration, home, produced.append (unmarked _)⟩
  · intro waits awaited member
    rcases List.mem_append.mp member with old | new
    · rcases sound.waiting waits awaited old with ⟨other, runs, same, awaits⟩
      refine ⟨other, List.mem_append_left _ runs, same, awaits.append ?_ (Nat.le_refl _)⟩
      intro key integration new
      cases List.mem_singleton.mp new
    · cases List.mem_singleton.mp new
      refine ⟨fetch, List.mem_append_right _ (List.mem_singleton_self _), rfl, begun, ?_⟩
      intro key integration recorded
      rcases List.mem_append.mp recorded with old | new
      · rcases own _ _ old with ⟨sameKey, home⟩
        have sameIntegration := home.unique belongs
        exact ⟨sameKey, sameIntegration, sameIntegration ▸ since.follows _⟩
      · cases List.mem_singleton.mp new
  · intro integration ends other found
    rw [latest_append_of_none] at found
    · exact sound.backoffs _ _ _ found
    · intro signal member
      rw [List.mem_singleton.mp member]
      rfl

theorem Sound.join (sound : Sound history state) {read : Nat}
    {key : Units} {flight : Flight Value} (found : getEntry state.inflight key = some flight)
    (begun : read < state.nextRead) (own : OwnRead history read key) :
    Sound history { state with waiting := state.waiting ++ [(read, flight.fetch)] } := by
  rcases sound.inflight key flight found with ⟨fetch, flies, sameKey, rfl, current⟩
  refine
    { sound with
      running := fun other runs => ?_
      waiting := fun waits awaited member => ?_ }
  · have known := sound.running other runs
    exact ⟨known.belongs, known.number, known.unsettled, known.generation, known.current, known.captured⟩
  · rcases List.mem_append.mp member with old | new
    · rcases sound.waiting waits awaited old with ⟨other, runs, same, awaits⟩
      exact ⟨other, runs, same, awaits.begun, awaits.follows⟩
    · cases List.mem_singleton.mp new
      refine ⟨fetch, flies, rfl, begun, ?_⟩
      intro other integration recorded
      rcases own _ _ recorded with ⟨rfl, home⟩
      have known := sound.running fetch flies
      have sameIntegration := home.unique (sameKey ▸ known.belongs)
      exact ⟨sameKey.symm, sameIntegration, sameIntegration ▸ (known.current.mp current).follows _⟩

theorem Sound.remove (sound : Sound history state)
    {fetch : Fetch Value} (member : fetch ∈ state.running) :
    Sound history
      { state with
        inflight := (leave state fetch.key (some fetch.number)).inflight
        running := state.running.filter fun other => other.number ≠ fetch.number
        waiting := state.waiting.filter fun waits => waits.2 ≠ fetch.number } := by
  have kept : forall {other : Fetch Value},
      other ∈ state.running.filter (fun other => other.number ≠ fetch.number) ->
        other ∈ state.running ∧ other.number ≠ fetch.number := by
    intro other filtered
    rcases List.mem_filter.mp filtered with ⟨runs, different⟩
    exact ⟨runs, of_decide_eq_true different⟩
  have keeps : forall {other : Fetch Value}, other ∈ state.running -> other.number ≠ fetch.number ->
      other ∈ state.running.filter (fun other => other.number ≠ fetch.number) :=
    fun runs different => List.mem_filter.mpr ⟨runs, decide_eq_true different⟩
  refine
    { sound with
      running := fun other filtered => ?_
      distinct := fun first second inFirst inSecond =>
        sound.distinct first second (kept inFirst).1 (kept inSecond).1
      shared := fun other filtered current => ?_
      inflight := fun key flight found => ?_
      waiting := fun waits awaited filtered => ?_ }
  · have known := sound.running other (kept filtered).1
    exact ⟨known.belongs, known.number, known.unsettled, known.generation, known.current, known.captured⟩
  · have shared := sound.shared other (kept filtered).1 current
    change getEntry (leave state fetch.key (some fetch.number)).inflight other.key = _
    rw [getEntry_leave, if_neg, shared]
    rintro ⟨sameKey, own⟩
    rw [← sameKey, shared] at own
    exact (kept filtered).2 (Option.some.inj own)
  · change getEntry (leave state fetch.key (some fetch.number)).inflight key = _ at found
    rw [getEntry_leave] at found
    split at found
    · cases found
    · rename_i stays
      rcases sound.inflight key flight found with ⟨other, runs, sameKey, flies, current⟩
      refine ⟨other, keeps runs ?_, sameKey, flies, current⟩
      intro same
      have equal := sound.distinct other fetch runs member same
      subst equal
      subst sameKey
      exact stays ⟨rfl, by rw [found, flies]; rfl⟩
  · rcases List.mem_filter.mp filtered with ⟨old, different⟩
    rcases sound.waiting waits awaited old with ⟨other, runs, same, awaits⟩
    exact ⟨other, keeps runs (same ▸ of_decide_eq_true different), same, awaits.begun, awaits.follows⟩

end UptimelyCache
end Dokploy
