import Dokploy.ComposeSpec.Interpolation

namespace Dokploy
namespace ComposeSpec

open Foundation

/-!
# Interpolated values

A value keeps its shape and only its strings change, unless one of its mappings
has an entry named like the prototype: the copy is filled by assignments, and
that assignment makes no entry.  So the copy is what the strings make of the
value, without those entries.
-/

variable {Scalar : Type}

mutual

/-- The value with every string changed, in the order of the value; everything else stays. -/
def ComposeValue.eachString (change : Text -> Interpolating Text) :
    ComposeValue Scalar -> Interpolating (ComposeValue Scalar)
  | .string text => do
      let value <- change text
      pure (.string value)
  | .scalar scalar => pure (.scalar scalar)
  | .array items => do
      let changed <- eachItem change items
      pure (.array changed)
  | .mapping entries => do
      let changed <- eachEntry change entries
      pure (.mapping changed)

def eachItem (change : Text -> Interpolating Text) :
    List (ComposeValue Scalar) -> Interpolating (List (ComposeValue Scalar))
  | [] => pure []
  | item :: items => do
      let first <- item.eachString change
      let rest <- eachItem change items
      pure (first :: rest)

def eachEntry (change : Text -> Interpolating Text) : Entries Scalar -> Interpolating (Entries Scalar)
  | [] => pure []
  | (key, item) :: entries => do
      let value <- item.eachString change
      let rest <- eachEntry change entries
      pure ((key, value) :: rest)

end

mutual

/-- No mapping of the value has two entries of one key. -/
def ComposeValue.Distinct : ComposeValue Scalar -> Prop
  | .string _ => True
  | .scalar _ => True
  | .array items => DistinctItems items
  | .mapping entries => DistinctEntries entries

def DistinctItems : List (ComposeValue Scalar) -> Prop
  | [] => True
  | item :: items => item.Distinct ∧ DistinctItems items

def DistinctEntries : Entries Scalar -> Prop
  | [] => True
  | (key, item) :: entries => key ∉ entries.map Prod.fst ∧ item.Distinct ∧ DistinctEntries entries

end

mutual

/-- Some mapping of the value has an entry named like the prototype. -/
def ComposeValue.hasPrototypeKey : ComposeValue Scalar -> Bool
  | .string _ => false
  | .scalar _ => false
  | .array items => itemsHavePrototypeKey items
  | .mapping entries => entriesHavePrototypeKey entries

def itemsHavePrototypeKey : List (ComposeValue Scalar) -> Bool
  | [] => false
  | item :: items => item.hasPrototypeKey || itemsHavePrototypeKey items

def entriesHavePrototypeKey : Entries Scalar -> Bool
  | [] => false
  | (key, item) :: entries => key == prototypeKey || item.hasPrototypeKey || entriesHavePrototypeKey entries

end

mutual

/-- The value without the entries named like the prototype. -/
def ComposeValue.withoutPrototype : ComposeValue Scalar -> ComposeValue Scalar
  | .string text => .string text
  | .scalar scalar => .scalar scalar
  | .array items => .array (itemsWithoutPrototype items)
  | .mapping entries => .mapping (entriesWithoutPrototype entries)

def itemsWithoutPrototype : List (ComposeValue Scalar) -> List (ComposeValue Scalar)
  | [] => []
  | item :: items => item.withoutPrototype :: itemsWithoutPrototype items

def entriesWithoutPrototype : Entries Scalar -> Entries Scalar
  | [] => []
  | (key, item) :: entries =>
      if key = prototypeKey then entriesWithoutPrototype entries
      else (key, item.withoutPrototype) :: entriesWithoutPrototype entries

end

/-- A parsed compose file in which the keys of each mapping differ. -/
structure ComposeDocument (Scalar : Type) where
  value : ComposeValue Scalar
  distinct : value.Distinct

theorem assign_prototype (copy : Entries Scalar) (item : ComposeValue Scalar) :
    assign copy prototypeKey item = copy := if_pos rfl

theorem assign_new {copy : Entries Scalar} {key : Text} (item : ComposeValue Scalar) (other : key ≠ prototypeKey)
    (new : key ∉ copy.map Prod.fst) : assign copy key item = copy ++ [(key, item)] := by
  rw [assign, if_neg other, if_neg new]

mutual

/-- The copy is the value with every string interpolated, without the entries named like the prototype. -/
theorem interpolateComposeValue_eq (value : ComposeValue Scalar) (distinct : value.Distinct) :
    interpolateComposeValue value =
      value.eachString interpolateComposeString >>= fun changed => pure changed.withoutPrototype := by
  match value with
  | .string text =>
      rw [interpolateComposeValue, ComposeValue.eachString, Program.bind_assoc]
      rfl
  | .scalar scalar => rw [interpolateComposeValue, ComposeValue.eachString]; rfl
  | .array items =>
      rw [interpolateComposeValue, ComposeValue.eachString, interpolateItems_eq items distinct,
        Program.bind_assoc, Program.bind_assoc]
      rfl
  | .mapping entries =>
      rw [interpolateComposeValue, ComposeValue.eachString,
        interpolateEntries_eq entries distinct [] (fun _ _ member => List.not_mem_nil member),
        Program.bind_assoc, Program.bind_assoc]
      rfl

theorem interpolateItems_eq (items : List (ComposeValue Scalar)) (distinct : DistinctItems items) :
    interpolateItems items =
      eachItem interpolateComposeString items >>= fun changed => pure (itemsWithoutPrototype changed) := by
  match items with
  | [] => rfl
  | item :: items =>
      rw [interpolateItems, eachItem, interpolateComposeValue_eq item distinct.1,
        interpolateItems_eq items distinct.2, Program.bind_assoc, Program.bind_assoc]
      apply congrArg (item.eachString interpolateComposeString >>= ·)
      funext first
      rw [Program.bind_assoc]
      exact Program.bind_assoc _ _ _

theorem interpolateEntries_eq (entries : Entries Scalar) (distinct : DistinctEntries entries)
    (copy : Entries Scalar) (apart : forall key, key ∈ entries.map Prod.fst -> key ∉ copy.map Prod.fst) :
    interpolateEntries copy entries =
      eachEntry interpolateComposeString entries >>= fun changed =>
        pure (copy ++ entriesWithoutPrototype changed) := by
  match entries with
  | [] =>
      rw [interpolateEntries, eachEntry]
      exact congrArg pure (List.append_nil copy).symm
  | (key, item) :: entries =>
      rcases distinct with ⟨new, itemDistinct, restDistinct⟩
      rw [interpolateEntries, eachEntry, interpolateComposeValue_eq item itemDistinct, Program.bind_assoc,
        Program.bind_assoc]
      apply congrArg (item.eachString interpolateComposeString >>= ·)
      funext changed
      rw [Program.bind_assoc]
      have later : forall other, other ∈ entries.map Prod.fst -> other ∉ copy.map Prod.fst :=
        fun other member => apart other (List.mem_cons_of_mem _ member)
      change interpolateEntries (assign copy key changed.withoutPrototype) entries = _
      by_cases prototype : key = prototypeKey
      · subst prototype
        rw [assign_prototype, interpolateEntries_eq entries restDistinct copy later]
        rfl
      · have apartNext : forall other, other ∈ entries.map Prod.fst ->
            other ∉ (copy ++ [(key, changed.withoutPrototype)]).map Prod.fst := by
          intro other member present
          rw [List.map_append, List.mem_append] at present
          rcases present with old | own
          · exact later other member old
          · rw [List.map_singleton, List.mem_singleton] at own
            have same : other = key := own
            exact new (same ▸ member)
        rw [assign_new _ prototype (apart key List.mem_cons_self),
          interpolateEntries_eq entries restDistinct _ apartNext]
        apply congrArg (eachEntry interpolateComposeString entries >>= ·)
        funext rest
        change pure _ = pure (copy ++ entriesWithoutPrototype ((key, changed) :: rest))
        rw [entriesWithoutPrototype, if_neg prototype, List.append_assoc, List.singleton_append]

end

theorem length_entriesWithoutPrototype (entries : Entries Scalar) :
    (entriesWithoutPrototype entries).length ≤ entries.length := by
  induction entries with
  | nil => exact Nat.le_refl _
  | cons entry entries ih =>
      rw [entriesWithoutPrototype]
      split
      · exact Nat.le_succ_of_le ih
      · exact Nat.succ_le_succ ih

mutual

theorem withoutPrototype_eq_self (value : ComposeValue Scalar) :
    value.withoutPrototype = value <-> value.hasPrototypeKey = false := by
  match value with
  | .string text => exact ⟨fun _ => rfl, fun _ => rfl⟩
  | .scalar scalar => exact ⟨fun _ => rfl, fun _ => rfl⟩
  | .array items =>
      rw [ComposeValue.withoutPrototype, ComposeValue.hasPrototypeKey, ComposeValue.array.injEq]
      exact itemsWithoutPrototype_eq_self items
  | .mapping entries =>
      rw [ComposeValue.withoutPrototype, ComposeValue.hasPrototypeKey, ComposeValue.mapping.injEq]
      exact entriesWithoutPrototype_eq_self entries

theorem itemsWithoutPrototype_eq_self (items : List (ComposeValue Scalar)) :
    itemsWithoutPrototype items = items <-> itemsHavePrototypeKey items = false := by
  match items with
  | [] => exact ⟨fun _ => rfl, fun _ => rfl⟩
  | item :: items =>
      rw [itemsWithoutPrototype, itemsHavePrototypeKey, List.cons.injEq, Bool.or_eq_false_iff]
      exact and_congr (withoutPrototype_eq_self item) (itemsWithoutPrototype_eq_self items)

theorem entriesWithoutPrototype_eq_self (entries : Entries Scalar) :
    entriesWithoutPrototype entries = entries <-> entriesHavePrototypeKey entries = false := by
  match entries with
  | [] => exact ⟨fun _ => rfl, fun _ => rfl⟩
  | (key, item) :: entries =>
      rw [entriesWithoutPrototype, entriesHavePrototypeKey]
      by_cases prototype : key = prototypeKey
      · rw [if_pos prototype, prototype, beq_self_eq_true, Bool.true_or, Bool.true_or]
        constructor
        · intro same
          have shorter := length_entriesWithoutPrototype entries
          rw [same, List.length_cons] at shorter
          omega
        · intro absurdity
          cases absurdity
      · rw [if_neg prototype, beq_eq_false_iff_ne.mpr prototype, Bool.false_or, Bool.or_eq_false_iff,
          List.cons.injEq, Prod.mk.injEq]
        constructor
        · rintro ⟨⟨_, itemSame⟩, restSame⟩
          exact ⟨(withoutPrototype_eq_self item).mp itemSame, (entriesWithoutPrototype_eq_self entries).mp restSame⟩
        · rintro ⟨itemNone, restNone⟩
          exact ⟨⟨rfl, (withoutPrototype_eq_self item).mpr itemNone⟩,
            (entriesWithoutPrototype_eq_self entries).mpr restNone⟩

end

variable {lookup : ComposeVariableLookup} {change : Text -> Interpolating Text}

theorem ending_bind {Result Other : Type} {program : Interpolating Result} {next : Result -> Interpolating Other}
    {last : Other} (ended : (answered lookup (program >>= next)).2 = .ok last) :
    Exists fun middle => (answered lookup program).2 = .ok middle ∧ (answered lookup (next middle)).2 = .ok last := by
  rw [answered_bind, Ending.sequel] at ended
  split at ended
  next middle first => exact ⟨middle, first, ended⟩
  next error first => cases ended

mutual

theorem hasPrototypeKey_eachString {value changed : ComposeValue Scalar}
    (ended : (answered lookup (value.eachString change)).2 = .ok changed) :
    changed.hasPrototypeKey = value.hasPrototypeKey := by
  match value with
  | .string text =>
      rw [ComposeValue.eachString] at ended
      rcases ending_bind ended with ⟨text, _, last⟩
      cases last
      rfl
  | .scalar scalar =>
      cases ended
      rfl
  | .array items =>
      rw [ComposeValue.eachString] at ended
      rcases ending_bind ended with ⟨copies, first, last⟩
      cases last
      exact itemsHavePrototypeKey_eachItem first
  | .mapping entries =>
      rw [ComposeValue.eachString] at ended
      rcases ending_bind ended with ⟨copies, first, last⟩
      cases last
      exact entriesHavePrototypeKey_eachEntry first

theorem itemsHavePrototypeKey_eachItem {items changed : List (ComposeValue Scalar)}
    (ended : (answered lookup (eachItem change items)).2 = .ok changed) :
    itemsHavePrototypeKey changed = itemsHavePrototypeKey items := by
  match items with
  | [] =>
      cases ended
      rfl
  | item :: items =>
      rw [eachItem] at ended
      rcases ending_bind ended with ⟨copy, first, following⟩
      rcases ending_bind following with ⟨copies, second, last⟩
      cases last
      rw [itemsHavePrototypeKey, itemsHavePrototypeKey, hasPrototypeKey_eachString first,
        itemsHavePrototypeKey_eachItem second]

theorem entriesHavePrototypeKey_eachEntry {entries changed : Entries Scalar}
    (ended : (answered lookup (eachEntry change entries)).2 = .ok changed) :
    entriesHavePrototypeKey changed = entriesHavePrototypeKey entries := by
  match entries with
  | [] =>
      cases ended
      rfl
  | (key, item) :: entries =>
      rw [eachEntry] at ended
      rcases ending_bind ended with ⟨copy, first, following⟩
      rcases ending_bind following with ⟨copies, second, last⟩
      cases last
      rw [entriesHavePrototypeKey, entriesHavePrototypeKey, hasPrototypeKey_eachString first,
        entriesHavePrototypeKey_eachEntry second]

end

theorem scanned_literal {text out : Text} {evaluate : Bool} (literal : '$' ∉ text) :
    scanned text false evaluate out = pure (out ++ text, []) := by
  induction text generalizing out with
  | nil => rw [scanned_end, List.append_nil]
  | cons char rest ih =>
      have other : char ≠ '$' := fun same => literal (same ▸ List.mem_cons_self)
      rw [scanned_char rest other (fun inside => absurd inside Bool.false_ne_true),
        ih fun member => literal (List.mem_cons_of_mem _ member), List.append_assoc,
        List.singleton_append]

theorem interpolateComposeString_eq (text : Text) :
    interpolateComposeString text = scanned text false true [] >>= fun result => pure result.1 := by
  rw [interpolateComposeString]
  split
  next plain =>
      have literal : '$' ∉ text := by
        rw [Bool.not_eq_true', List.contains_eq_mem, decide_eq_false_iff_not] at plain
        exact plain
      rw [scanned_literal literal]
      rfl
  next => rw [scanned_bind]; rfl

def doubled : Text -> Text
  | [] => []
  | char :: rest => if char = '$' then '$' :: '$' :: doubled rest else char :: doubled rest

theorem scanned_doubled (text out : Text) : scanned (doubled text) false true out = pure (out ++ text, []) := by
  induction text generalizing out with
  | nil => rw [doubled, scanned_end, List.append_nil]
  | cons char rest ih =>
      rw [doubled]
      split
      next dollar => rw [scanned_dollars, ih, dollar, List.append_assoc, List.singleton_append]
      next other =>
          rw [scanned_char _ other (fun inside => absurd inside Bool.false_ne_true), ih,
            List.append_assoc, List.singleton_append]

/-- The text of the template has the value the template means, after the same lookups. -/
def InterpolatesTemplate (lookup : ComposeVariableLookup) (template : ComposeTemplate) : Prop :=
  answered lookup (interpolateComposeString template.template.print) = (template.template.meaning lookup).told id

def RestoresDoubled (lookup : ComposeVariableLookup) (text : Text) : Prop :=
  answered lookup (interpolateComposeString (doubled text)) = ([], .ok text)

/-- The document is copied with its strings interpolated, one after the other, and nothing else changed. -/
def ChangesOnlyStrings (lookup : ComposeVariableLookup) (document : ComposeDocument Scalar) : Prop :=
  answered lookup (interpolateComposeValue document.value) =
    answered lookup (document.value.eachString interpolateComposeString)

/-- Some string of the document stops the interpolation, so that nothing is returned. -/
def Stops (lookup : ComposeVariableLookup) (document : ComposeDocument Scalar) : Prop :=
  Exists fun error => (answered lookup (document.value.eachString interpolateComposeString)).2 = .error error

theorem interpolatesTemplate (lookup : ComposeVariableLookup) (template : ComposeTemplate) :
    InterpolatesTemplate lookup template := by
  have whole := @answered_scanned lookup template.template false template.grammatical [] []
  rw [InterpolatesTemplate, interpolateComposeString_eq, Template.print]
  change answered lookup (scanned (template.template.printOnto (closing false [])) false true [] >>= _) = _
  rw [answered_bind, whole, sequel_told]
  exact sequel_settled _ _

theorem restoresDoubled (lookup : ComposeVariableLookup) (text : Text) : RestoresDoubled lookup text := by
  rw [RestoresDoubled, interpolateComposeString_eq, scanned_doubled]
  rfl

theorem changesOnlyStrings_iff (lookup : ComposeVariableLookup) (document : ComposeDocument Scalar) :
    ChangesOnlyStrings lookup document <-> document.value.hasPrototypeKey = false ∨ Stops lookup document := by
  rw [ChangesOnlyStrings, Stops, interpolateComposeValue_eq _ document.distinct, answered_bind]
  cases ended : (answered lookup (document.value.eachString interpolateComposeString)).2 with
  | error error =>
      have stopped : (answered lookup (document.value.eachString interpolateComposeString)) =
          ((answered lookup (document.value.eachString interpolateComposeString)).1, .error error) := by
        rw [<- ended]
      rw [stopped]
      exact ⟨fun _ => Or.inr ⟨error, rfl⟩, fun _ => rfl⟩
  | ok changed =>
      have returned : (answered lookup (document.value.eachString interpolateComposeString)) =
          ((answered lookup (document.value.eachString interpolateComposeString)).1, .ok changed) := by
        rw [<- ended]
      have kept := hasPrototypeKey_eachString ended
      rw [returned]
      change ((_ ++ [], .ok changed.withoutPrototype) : Ending _) = (_, .ok changed) <-> _
      rw [List.append_nil, Prod.mk.injEq, Except.ok.injEq, withoutPrototype_eq_self, kept]
      constructor
      · exact fun same => Or.inl same.2
      · rintro (none | ⟨error, absurdity⟩)
        · exact ⟨rfl, none⟩
        · cases absurdity

/-- A template gets its meaning, a doubled text is restored, and a document changes only in its strings,
exactly when no entry of the document is named like the prototype or nothing is returned at all.  The
scanners are total, so every other text has a value or an error. -/
theorem interpolation_exact (lookup : ComposeVariableLookup) (template : ComposeTemplate) (text : Text)
    (document : ComposeDocument Scalar) :
    (InterpolatesTemplate lookup template ∧ RestoresDoubled lookup text ∧ ChangesOnlyStrings lookup document) <->
      (document.value.hasPrototypeKey = false ∨ Stops lookup document) := by
  constructor
  · rintro ⟨_, _, only⟩
    exact (changesOnlyStrings_iff lookup document).mp only
  · intro holds
    exact ⟨interpolatesTemplate lookup template, restoresDoubled lookup text,
      (changesOnlyStrings_iff lookup document).mpr holds⟩

/-- `services: {web: {image: a}, __proto__: {image: b}}` -/
def prototypeDocument : ComposeDocument Unit where
  value := .mapping [("services".toList, .mapping [
    ("web".toList, .mapping [("image".toList, .string "a".toList)]),
    (prototypeKey, .mapping [("image".toList, .string "b".toList)])])]
  distinct := by
    simp only [ComposeValue.Distinct, DistinctEntries, List.map_cons, List.map_nil]
    decide

theorem interpolation_drops_prototype :
    ¬ ChangesOnlyStrings (fun _ => .unset) prototypeDocument := by
  rw [changesOnlyStrings_iff]
  rintro (none | ⟨error, stopped⟩)
  · exact absurd none (by decide)
  · exact absurd stopped (by nofun)

end ComposeSpec
end Dokploy
