import Dokploy.UptimelyCache.Cache

namespace Dokploy
namespace UptimelyCache

open Foundation
open Foundation.Unicode

/-!
# Which keys belong to an integration

The keys of an integration begin with its prefix.  Both texts of a prefix are
quoted, so no prefix is the beginning of a key of another integration: what an
invalidation drops is what belongs to its integration, and nothing else.
-/

/-- A key that some read of the integration uses. -/
structure BelongsTo (key integration : Units) : Prop where
  witness : Exists fun scope : Scope => Exists fun name =>
    key = keyOf scope name ∧ integration = integrationPrefix scope.toIntegrationScope

theorem integrationPrefix_inj {first second : IntegrationScope} {rest other : Units}
    (same : integrationPrefix first ++ rest = integrationPrefix second ++ other) : first = second := by
  have read := congrArg characters same
  unfold integrationPrefix at read
  rw [characters_utf16_append, characters_utf16_append] at read
  simp only [Stringify.array, List.intercalate, List.intersperse, List.flatten_cons, List.flatten_nil,
    List.append_nil, List.cons_append, List.append_assoc, List.cons.injEq, true_and] at read
  rcases Stringify.quote_append_inj read with ⟨sameOrganization, rest⟩
  simp only [List.nil_append, List.cons.injEq, true_and] at rest
  rcases Stringify.quote_append_inj rest with ⟨sameUptimely, _⟩
  cases first
  cases second
  exact congrArg₂ IntegrationScope.mk sameOrganization sameUptimely

theorem BelongsTo.begins {key integration : Units} (belongs : BelongsTo key integration) :
    integration.isPrefixOf key = true := by
  rcases belongs.witness with ⟨scope, name, rfl, rfl⟩
  rw [List.isPrefixOf_iff_prefix, keyOf, scopeKey, List.append_assoc]
  exact List.prefix_append _ _

theorem BelongsTo.same {key integration : Units} (belongs : BelongsTo key integration) {scope : IntegrationScope}
    (begins : (integrationPrefix scope).isPrefixOf key = true) : integration = integrationPrefix scope := by
  rcases belongs.witness with ⟨home, name, rfl, rfl⟩
  rcases List.isPrefixOf_iff_prefix.mp begins with ⟨rest, split⟩
  rw [keyOf, scopeKey, List.append_assoc] at split
  rw [integrationPrefix_inj split]

theorem BelongsTo.of_read (scope : Scope) (name : Units) :
    BelongsTo (keyOf scope name) (integrationPrefix scope.toIntegrationScope) :=
  ⟨⟨scope, name, rfl, rfl⟩⟩

theorem BelongsTo.unique {key first second : Units} (belongs : BelongsTo key first)
    (also : BelongsTo key second) : first = second := by
  rcases also.witness with ⟨scope, name, _, isPrefix⟩
  rw [isPrefix]
  exact belongs.same (isPrefix ▸ also.begins)

theorem mem_dropPrefixed {Item : Type} {entries : List (Units × Item)} {start : Units} {entry : Units × Item} :
    entry ∈ dropPrefixed entries start <-> entry ∈ entries ∧ start.isPrefixOf entry.1 = false := by
  rw [dropPrefixed, List.mem_filter, Bool.not_eq_true']

theorem getEntry_dropPrefixed {Item : Type} (entries : List (Units × Item)) (start key : Units) :
    getEntry (dropPrefixed entries start) key = if start.isPrefixOf key then none else getEntry entries key := by
  induction entries with
  | nil => simp [dropPrefixed]
  | cons entry rest ih =>
      unfold dropPrefixed at ih ⊢
      rw [List.filter_cons, getEntry_cons]
      by_cases here : entry.1 = key
      · rw [here]
        cases begins : start.isPrefixOf key with
        | true => simpa [begins] using ih
        | false => simp [getEntry_cons, here]
      · rw [if_neg here]
        split
        · rw [getEntry_cons, if_neg here, ih]
        · exact ih

end UptimelyCache
end Dokploy
