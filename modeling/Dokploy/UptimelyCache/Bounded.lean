import Dokploy.UptimelyCache.Freshness

namespace Dokploy
namespace UptimelyCache

open Foundation

/-!
# How much the cache holds

A settled fetch is the only one to store a value, and it prunes the map then.  The map
is small in every run, even where fetchers throw.
-/

variable {Value : Type} {round : Rat -> Number} {state after : State Value} {output : List (Signal Value)}

def Small (state : State Value) : Prop := state.entries.length ≤ MAX_ENTRIES

theorem Small.settle (small : Small state) (fetch : Fetch Value) (answer : Answer Value) :
    Small (settle round state fetch answer).1 := by
  unfold UptimelyCache.settle
  cases answer with
  | value value =>
      dsimp only
      split
      · rw [Small, prune, List.length_drop]
        omega
      · exact small
  | failure error =>
      dsimp only
      split
      · exact small
      · split <;> exact small

theorem Small.leave (small : Small state) (key : Units) (run : Option Nat) : Small (leave state key run) := by
  unfold UptimelyCache.leave
  split <;> exact small

theorem Small.reads (small : Small state) (scope : Scope) (name : Units) (ttlMs : Option Number) (fetcher : Fetcher) :
    Small (readUptimelyCached round state scope name ttlMs fetcher).1 := by
  have expired : Small (getUptimelyBackoffUntil { state with nextRead := state.nextRead + 1 } scope.toIntegrationScope).2 := by
    rw [Small, getUptimelyBackoffUntil_keeps]
    exact small
  unfold readUptimelyCached
  dsimp only
  cases lookUp state scope name with
  | fresh entry => exact small
  | backedOff ends entry => cases entry <;> exact small
  | pending flight => cases flight with | mk fetch outcome => cases outcome <;> exact expired
  | missing entry =>
      cases fetcher with
      | promises => exact expired
      | throws error => exact (expired.settle _ (.failure error)).leave _ none

theorem Small.step (small : Small state) {event : Event Value} (stepped : step round state event = some (after, output)) :
    Small after := by
  cases event with
  | passes ms =>
      cases stepped
      exact small
  | reads scope name ttlMs fetcher =>
      cases stepped
      exact small.reads scope name ttlMs fetcher
  | settles number answer =>
      rcases Option.map_eq_some_iff.mp stepped with ⟨fetch, _, same⟩
      have held : Small (settles round state fetch answer).1 := (small.settle fetch answer).leave _ _
      rw [same] at held
      exact held
  | invalidates scope =>
      cases stepped
      exact (List.length_filter_le _ _).trans small

end UptimelyCache
end Dokploy
