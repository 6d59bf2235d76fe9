import Dokploy.Foundation.Entries
import Dokploy.Foundation.Json
import Mathlib.Data.List.Forall2

namespace Dokploy
namespace Foundation
namespace Json

/-!
# JSON values with some fields rewritten

A rewriter goes through a value and stops at the fields that it knows.  Such a field is
given a new value, and nothing below it is looked at any more.  Every other field, and
every item of an array, is gone through in turn.  What holds nothing to rewrite is given
back as it was.

Two values that are alike up to fields whose rewriting agrees are rewritten to the same
value.  A value is alike to what it is rewritten to, up to the fields at which the
rewriter stops.
-/

theorem induct {motive : Json -> Prop} (null : motive .null) (bool : forall value, motive (.bool value))
    (number : forall literal, motive (.number literal)) (string : forall text, motive (.string text))
    (array : forall items, (forall item, item ∈ items -> motive item) -> motive (.array items))
    (object : forall entries, (forall entry, entry ∈ entries -> motive entry.2) -> motive (.object entries)) :
    forall value, motive value
  | .null => null
  | .bool value => bool value
  | .number literal => number literal
  | .string text => string text
  | .array items => array items fun item _ => induct null bool number string array object item
  | .object entries => object entries fun entry _ => induct null bool number string array object entry.2
termination_by value => sizeOf value
decreasing_by
  · have smaller := List.sizeOf_lt_of_mem ‹item ∈ items›
    simp only [Json.array.sizeOf_spec]
    omega
  · have smaller := List.sizeOf_lt_of_mem ‹entry ∈ entries›
    have isPart : sizeOf entry = 1 + sizeOf entry.1 + sizeOf entry.2 := rfl
    simp only [Json.object.sizeOf_spec]
    omega

/-- A new value, and whether it is another one. -/
structure Rewritten where
  value : Json
  changed : Bool

abbrev Rewriter := List Char -> Json -> Rewritten

def kept (value : Json) : Rewritten := ⟨value, false⟩

section

variable (stops : List Char -> Bool) (field : Rewriter)

mutual

def rewrite : Json -> Rewritten
  | .array items => ⟨.array (rewriteItems items).1, (rewriteItems items).2⟩
  | .object entries => ⟨.object (rewriteEntries entries).1, (rewriteEntries entries).2⟩
  | value => kept value

def rewriteItems : List Json -> List Json × Bool
  | [] => ([], false)
  | item :: rest => ((rewrite item).value :: (rewriteItems rest).1, (rewrite item).changed || (rewriteItems rest).2)

def rewriteEntries : List (List Char × Json) -> List (List Char × Json) × Bool
  | [] => ([], false)
  | (key, value) :: rest =>
      let next := if stops key then field key value else rewrite value
      ((key, next.value) :: (rewriteEntries rest).1, next.changed || (rewriteEntries rest).2)

end

def rewriteField (key : List Char) (value : Json) : Rewritten :=
  if stops key then field key value else rewrite stops field value

theorem rewriteItems_eq (items : List Json) : rewriteItems stops field items =
    (items.map fun item => (rewrite stops field item).value, items.any fun item => (rewrite stops field item).changed) := by
  induction items with
  | nil => rfl
  | cons item rest ih => simp [rewriteItems, ih]

theorem rewriteEntries_eq (entries : List (List Char × Json)) : rewriteEntries stops field entries =
    (entries.map fun entry => (entry.1, (rewriteField stops field entry.1 entry.2).value),
      entries.any fun entry => (rewriteField stops field entry.1 entry.2).changed) := by
  induction entries with
  | nil => rfl
  | cons entry rest ih => simp [rewriteEntries, ih, rewriteField]

@[simp] theorem rewrite_array (items : List Json) : rewrite stops field (.array items) =
    ⟨.array (items.map fun item => (rewrite stops field item).value),
      items.any fun item => (rewrite stops field item).changed⟩ := by
  rw [rewrite, rewriteItems_eq]

@[simp] theorem rewrite_object (entries : List (List Char × Json)) : rewrite stops field (.object entries) =
    ⟨.object (entries.map fun entry => (entry.1, (rewriteField stops field entry.1 entry.2).value)),
      entries.any fun entry => (rewriteField stops field entry.1 entry.2).changed⟩ := by
  rw [rewrite, rewriteEntries_eq]

end

section Alikeness

variable (stops : List Char -> Bool) (leaf : List Char -> Json -> Json -> Prop)

mutual

/-- Alike but for the fields at which a rewriter stops.  These are in a relation of their own. -/
def Alike : Json -> Json -> Prop
  | .array items, .array others => AlikeItems items others
  | .object entries, .object others => AlikeEntries entries others
  | value, other => value = other

def AlikeItems : List Json -> List Json -> Prop
  | [], [] => True
  | item :: rest, other :: others => Alike item other ∧ AlikeItems rest others
  | _, _ => False

def AlikeEntries : List (List Char × Json) -> List (List Char × Json) -> Prop
  | [], [] => True
  | (key, value) :: rest, (name, other) :: others =>
      key = name ∧ (if stops key = true then leaf key value other else Alike value other) ∧ AlikeEntries rest others
  | _, _ => False

end

/-- Two entries of objects that are alike. -/
def AlikeEntry (entry other : List Char × Json) : Prop :=
  entry.1 = other.1 ∧ if stops entry.1 = true then leaf entry.1 entry.2 other.2 else Alike stops leaf entry.2 other.2

theorem alikeItems_iff (items others : List Json) :
    AlikeItems stops leaf items others <-> List.Forall₂ (Alike stops leaf) items others := by
  induction items generalizing others with
  | nil => cases others <;> simp [AlikeItems]
  | cons item rest ih => cases others <;> simp [AlikeItems, ih]

theorem alikeEntries_iff (entries others : List (List Char × Json)) :
    AlikeEntries stops leaf entries others <-> List.Forall₂ (AlikeEntry stops leaf) entries others := by
  induction entries generalizing others with
  | nil => cases others <;> simp [AlikeEntries]
  | cons entry rest ih => cases others <;> simp [AlikeEntries, AlikeEntry, ih, and_assoc]

@[simp] theorem alike_array (items : List Json) (other : Json) : Alike stops leaf (.array items) other <->
    Exists fun others => other = .array others ∧ List.Forall₂ (Alike stops leaf) items others := by
  cases other <;> simp [Alike, alikeItems_iff]

@[simp] theorem alike_object (entries : List (List Char × Json)) (other : Json) : Alike stops leaf (.object entries) other <->
    Exists fun others => other = .object others ∧ List.Forall₂ (AlikeEntry stops leaf) entries others := by
  cases other <;> simp [Alike, alikeEntries_iff]

end Alikeness

section Rewriting

variable {stops : List Char -> Bool} {field : Rewriter} {leaf : List Char -> Json -> Json -> Prop}

theorem map_eq_of_forall₂ {First Second Image : Type} {relation : First -> Second -> Prop} {f : First -> Image} {g : Second -> Image}
    {firsts : List First} {seconds : List Second} (pairs : List.Forall₂ relation firsts seconds)
    (agrees : forall first, first ∈ firsts -> forall second, relation first second -> f first = g second) :
    firsts.map f = seconds.map g := by
  induction pairs with
  | nil => rfl
  | cons pair _ ih =>
    rw [List.map_cons, List.map_cons, agrees _ List.mem_cons_self _ pair,
      ih fun first present => agrees first (List.mem_cons_of_mem _ present)]

theorem rewrite_of_alike (agrees : forall key value other, stops key = true -> leaf key value other -> field key value = field key other)
    {value other : Json} (alike : Alike stops leaf value other) : rewrite stops field value = rewrite stops field other := by
  induction value using induct generalizing other with
  | null | bool | number | string => cases other <;> simp_all [Alike]
  | array items ih =>
    obtain ⟨others, rfl, pairs⟩ := (alike_array stops leaf items other).mp alike
    have same : items.map (rewrite stops field) = others.map (rewrite stops field) :=
      map_eq_of_forall₂ pairs fun item present _ pair => ih item present pair
    have values := congrArg (List.map Rewritten.value) same
    have changes := congrArg (fun list => list.any Rewritten.changed) same
    simp only [List.map_map, List.any_map] at values changes
    simp only [rewrite_array, Rewritten.mk.injEq, array.injEq]
    exact ⟨values, changes⟩
  | object entries ih =>
    obtain ⟨others, rfl, pairs⟩ := (alike_object stops leaf entries other).mp alike
    let rewritten (entry : List Char × Json) := (entry.1, rewriteField stops field entry.1 entry.2)
    have same : entries.map rewritten = others.map rewritten := by
      refine map_eq_of_forall₂ pairs fun entry present second pair => ?_
      obtain ⟨key, value⟩ := entry
      obtain ⟨name, other⟩ := second
      obtain ⟨isSame, pair⟩ := pair
      subst isSame
      refine Prod.ext rfl ?_
      unfold rewritten rewriteField
      split at pair
      · rename_i stopped
        simp only [stopped, if_true]
        exact agrees key value other stopped pair
      · rename_i goesOn
        simp only [goesOn, Bool.false_eq_true, if_false]
        exact ih (key, value) present pair
    have values := congrArg (List.map fun entry => (entry.1, entry.2.value)) same
    have changes := congrArg (fun list => list.any fun entry => entry.2.changed) same
    simp only [List.map_map, List.any_map] at values changes
    simp only [rewrite_object, Rewritten.mk.injEq, object.injEq]
    exact ⟨values, changes⟩

theorem value_of_unchanged (keeps : forall key value, stops key = true -> (field key value).changed = false -> (field key value).value = value)
    {value : Json} (unchanged : (rewrite stops field value).changed = false) : (rewrite stops field value).value = value := by
  induction value using induct with
  | null | bool | number | string => rfl
  | array items ih =>
    simp only [rewrite_array, List.any_eq_false, Bool.not_eq_true] at unchanged
    simp only [rewrite_array, array.injEq]
    have same : items.map (fun item => (rewrite stops field item).value) = items.map id :=
      List.map_congr_left fun item present => ih item present (unchanged item present)
    rw [same, List.map_id]
  | object entries ih =>
    simp only [rewrite_object, List.any_eq_false, Bool.not_eq_true] at unchanged
    simp only [rewrite_object, object.injEq]
    have same : entries.map (fun entry => (entry.1, (rewriteField stops field entry.1 entry.2).value)) = entries.map id := by
      refine List.map_congr_left fun entry present => Prod.ext rfl ?_
      have isKept := unchanged entry present
      by_cases stopped : stops entry.1 = true
      · simp only [rewriteField, stopped, if_true] at isKept ⊢
        exact keeps entry.1 entry.2 stopped isKept
      · simp only [rewriteField, stopped, Bool.false_eq_true, if_false] at isKept ⊢
        exact ih entry present isKept
    rw [same, List.map_id]

theorem alike_rewrite (value : Json) : Alike stops (fun _ _ _ => True) value (rewrite stops field value).value := by
  induction value using induct with
  | null | bool | number | string => rfl
  | array items ih =>
    rw [alike_array, rewrite_array]
    refine ⟨_, rfl, ?_⟩
    rw [List.forall₂_map_right_iff, List.forall₂_same]
    exact ih
  | object entries ih =>
    rw [alike_object, rewrite_object]
    refine ⟨_, rfl, ?_⟩
    rw [List.forall₂_map_right_iff, List.forall₂_same]
    intro entry present
    refine ⟨rfl, ?_⟩
    split
    · trivial
    · rename_i goesOn
      simp only [rewriteField, goesOn, Bool.false_eq_true, if_false]
      exact ih entry present

inductive Reaches (stops : List Char -> Bool) : Json -> List Char -> Json -> Prop where
  | here {entries : List (List Char × Json)} {key : List Char} {value : Json} : (key, value) ∈ entries ->
      Reaches stops (.object entries) key value
  | item {items : List Json} {item : Json} {key : List Char} {value : Json} : item ∈ items -> Reaches stops item key value ->
      Reaches stops (.array items) key value
  | field {entries : List (List Char × Json)} {entry : List Char × Json} {key : List Char} {value : Json} :
      entry ∈ entries -> stops entry.1 = false -> Reaches stops entry.2 key value -> Reaches stops (.object entries) key value

theorem rewrite_settled {value : Json} (settles : forall key reached, Reaches stops value key reached -> stops key = true ->
    field key (field key reached).value = kept (field key reached).value) :
    rewrite stops field (rewrite stops field value).value = kept (rewrite stops field value).value := by
  induction value using induct with
  | null | bool | number | string => rfl
  | array items ih =>
    have below (item : Json) (present : item ∈ items) :
        rewrite stops field (rewrite stops field item).value = kept (rewrite stops field item).value :=
      ih item present fun key reached comes => settles key reached (.item present comes)
    simp only [rewrite_array, kept, List.map_map, List.any_map, Rewritten.mk.injEq, array.injEq]
    constructor
    · exact List.map_congr_left fun item present => by rw [Function.comp_apply, below item present, kept]
    · rw [List.any_eq_false]
      intro item present
      rw [Function.comp_apply, below item present]
      exact Bool.false_ne_true
  | object entries ih =>
    have below (entry : List Char × Json) (present : entry ∈ entries) :
        rewriteField stops field entry.1 (rewriteField stops field entry.1 entry.2).value =
          kept (rewriteField stops field entry.1 entry.2).value := by
      cases stopped : stops entry.1 with
      | true =>
        simp only [rewriteField, stopped, if_true]
        exact settles entry.1 entry.2 (.here present) stopped
      | false =>
        simp only [rewriteField, stopped, Bool.false_eq_true, if_false]
        exact ih entry present fun key reached comes => settles key reached (.field present stopped comes)
    simp only [rewrite_object, kept, List.map_map, List.any_map, Rewritten.mk.injEq, object.injEq]
    constructor
    · exact List.map_congr_left fun entry present => by rw [Function.comp_apply, below entry present, kept]
    · rw [List.any_eq_false]
      intro entry present
      rw [Function.comp_apply, below entry present]
      exact Bool.false_ne_true

theorem rewrite_object_eq_kept {entries : List (List Char × Json)} :
    rewrite stops field (.object entries) = kept (.object entries) <->
      forall entry, entry ∈ entries -> rewriteField stops field entry.1 entry.2 = kept entry.2 := by
  rw [rewrite_object, kept, Rewritten.mk.injEq, object.injEq, List.any_eq_false]
  constructor
  · rintro ⟨values, unchanged⟩ entry present
    have same := List.map_inj_left.mp (values.trans (List.map_id entries).symm) entry present
    have isValue : (rewriteField stops field entry.1 entry.2).value = entry.2 := congrArg Prod.snd same
    have isKept := unchanged entry present
    rw [Bool.not_eq_true] at isKept
    exact congrArg₂ Rewritten.mk isValue isKept
  · intro fields
    constructor
    · refine (List.map_congr_left fun entry present => ?_).trans (List.map_id entries)
      rw [fields entry present]
      rfl
    · intro entry present
      rw [fields entry present]
      exact Bool.false_ne_true

/-- A field that holds nothing to rewrite may be set in an object that holds nothing to rewrite. -/
theorem rewrite_setEntry {entries : List (List Char × Json)} {key : List Char} {value : Json}
    (settled : rewrite stops field (.object entries) = kept (.object entries))
    (isKept : rewriteField stops field key value = kept value) :
    rewrite stops field (.object (setEntry entries key value)) = kept (.object (setEntry entries key value)) := by
  rw [rewrite_object_eq_kept] at settled ⊢
  intro entry present
  rcases mem_setEntry present with rfl | among
  · exact isKept
  · exact settled entry among

end Rewriting

end Json
end Foundation
end Dokploy
