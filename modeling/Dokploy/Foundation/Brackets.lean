import Mathlib.Data.List.Basic

namespace Dokploy
namespace Foundation

/-!
# Replacing what stands between brackets

A bracket opens with one text and closes with another, and the name between them
stands on one line and is as short as it can be.  All of them are replaced from left
to right by the values of their names.  The items of a text need not be characters:
some may be characters that cannot be read, and those are part of no bracket.  The
same replacement on items of two kinds agrees when they read alike.
-/

def isLineEnd (char : Char) : Bool := [0x0A, 0x0D, 0x2028, 0x2029].contains char.toNat

section Finding

variable {Item : Type} (reads : Item -> Option Char)

/-- The text after a word it starts with. -/
def stripWord : List Char -> List Item -> Option (List Item)
  | [], text => some text
  | _ :: _, [] => none
  | char :: word, item :: text => if reads item = some char then stripWord word text else none

/-- The shortest name before the closing text, and what stands behind that. -/
def readUpTo (closing : List Char) : List Item -> Option (List Char × List Item)
  | [] => (stripWord reads closing []).map fun rest => ([], rest)
  | item :: text =>
      match stripWord reads closing (item :: text) with
      | some rest => some ([], rest)
      | none =>
          match reads item with
          | some char =>
              if isLineEnd char then none
              else (readUpTo closing text).map fun (name, rest) => (char :: name, rest)
          | none => none

structure Bracket where
  opening : List Char
  closing : List Char

namespace Bracket

variable (bracket : Bracket)

/-- The name of the bracket that the text starts with, and the text behind it. -/
def find (text : List Item) : Option (List Char × List Item) :=
  (stripWord reads bracket.opening text).bind (readUpTo reads bracket.closing)

variable {Error : Type}

def replaceFrom (value : List Char -> Except Error (List Item)) : Nat -> List Item -> Except Error (List Item)
  | 0, text => .ok text
  | _ + 1, [] => .ok []
  | fuel + 1, item :: text =>
      match bracket.find reads (item :: text) with
      | some (name, rest) => do
          let put <- value name
          let more <- replaceFrom value fuel rest
          .ok (put ++ more)
      | none => do
          let more <- replaceFrom value fuel text
          .ok (item :: more)

def replaceAll (value : List Char -> Except Error (List Item)) (text : List Item) : Except Error (List Item) :=
  bracket.replaceFrom reads value text.length text

/-- The names of the brackets that are replaced, from left to right. -/
def namesFrom : Nat -> List Item -> List (List Char)
  | 0, _ => []
  | _ + 1, [] => []
  | fuel + 1, item :: text =>
      match bracket.find reads (item :: text) with
      | some (name, rest) => name :: namesFrom fuel rest
      | none => namesFrom fuel text

def names (text : List Item) : List (List Char) := bracket.namesFrom reads text.length text

/-- At every place the same bracket is found, or none, whichever way the items are read. -/
def AgreeFrom (other : Item -> Option Char) : Nat -> List Item -> Prop
  | 0, _ => True
  | _ + 1, [] => True
  | fuel + 1, item :: text =>
      bracket.find reads (item :: text) = bracket.find other (item :: text) ∧
        match bracket.find reads (item :: text) with
        | some (_, rest) => AgreeFrom other fuel rest
        | none => AgreeFrom other fuel text

instance decidableAgreeFrom [DecidableEq Item] (other : Item -> Option Char) :
    forall (fuel : Nat) (text : List Item), Decidable (bracket.AgreeFrom reads other fuel text)
  | 0, _ => isTrue trivial
  | _ + 1, [] => isTrue trivial
  | fuel + 1, item :: text =>
      have later : Decidable (match bracket.find reads (item :: text) with
          | some (_, rest) => bracket.AgreeFrom reads other fuel rest
          | none => bracket.AgreeFrom reads other fuel text) :=
        match bracket.find reads (item :: text) with
        | some (_, rest) => decidableAgreeFrom other fuel rest
        | none => decidableAgreeFrom other fuel text
      @instDecidableAnd _ _ inferInstance later

def Agree (other : Item -> Option Char) (text : List Item) : Prop := bracket.AgreeFrom reads other text.length text

instance [DecidableEq Item] (other : Item -> Option Char) (text : List Item) : Decidable (bracket.Agree reads other text) :=
  decidableAgreeFrom reads bracket other text.length text

end Bracket

end Finding

section Replacing

variable {Item Other Error : Type} {reads : Item -> Option Char} {bracket : Bracket}

namespace Bracket

theorem replaceFrom_agree {other : Item -> Option Char} (value : List Char -> Except Error (List Item)) (fuel : Nat)
    (text : List Item) (agree : bracket.AgreeFrom reads other fuel text) :
    bracket.replaceFrom other value fuel text = bracket.replaceFrom reads value fuel text := by
  induction fuel generalizing text with
  | zero => rfl
  | succ fuel ih =>
      cases text with
      | nil => rfl
      | cons item text =>
          rcases agree with ⟨same, later⟩
          rw [replaceFrom, replaceFrom, <- same]
          cases found : bracket.find reads (item :: text) with
          | none =>
              rw [found] at later
              simp only [ih text later]
          | some place =>
              rw [found] at later
              simp only [ih place.2 later]

theorem replaceAll_agree {other : Item -> Option Char} (value : List Char -> Except Error (List Item)) (text : List Item)
    (agree : bracket.Agree reads other text) : bracket.replaceAll other value text = bracket.replaceAll reads value text :=
  replaceFrom_agree value text.length text agree

theorem replaceFrom_congr {value other : List Char -> Except Error (List Item)} (fuel : Nat) (text : List Item)
    (same : forall name, name ∈ bracket.namesFrom reads fuel text -> value name = other name) :
    bracket.replaceFrom reads value fuel text = bracket.replaceFrom reads other fuel text := by
  induction fuel generalizing text with
  | zero => rfl
  | succ fuel ih =>
      cases text with
      | nil => rfl
      | cons item text =>
          rw [namesFrom] at same
          rw [replaceFrom, replaceFrom]
          cases found : bracket.find reads (item :: text) with
          | none =>
              rw [found] at same
              simp only [ih text same]
          | some place =>
              rw [found] at same
              simp only [same place.1 List.mem_cons_self,
                ih place.2 fun name member => same name (List.mem_cons_of_mem _ member)]

theorem replaceAll_congr {value other : List Char -> Except Error (List Item)} {text : List Item}
    (same : forall name, name ∈ bracket.names reads text -> value name = other name) :
    bracket.replaceAll reads value text = bracket.replaceAll reads other text :=
  replaceFrom_congr text.length text same

theorem replaceFrom_nothing (value : List Char -> Except Error (List Item)) (fuel : Nat) (text : List Item)
    (none : bracket.namesFrom reads fuel text = []) : bracket.replaceFrom reads value fuel text = .ok text := by
  induction fuel generalizing text with
  | zero => rfl
  | succ fuel ih =>
      cases text with
      | nil => rfl
      | cons item text =>
          rw [namesFrom] at none
          rw [replaceFrom]
          cases found : bracket.find reads (item :: text) with
          | none =>
              rw [found] at none
              simp only [ih text none]
              rfl
          | some place =>
              rw [found] at none
              cases none

theorem replaceAll_nothing (value : List Char -> Except Error (List Item)) {text : List Item}
    (none : bracket.names reads text = []) : bracket.replaceAll reads value text = .ok text :=
  replaceFrom_nothing value text.length text none

end Bracket

end Replacing

section Mapping

variable {Item Other Error : Type} {reads : Item -> Option Char} {readsOther : Other -> Option Char} {image : Item -> Other}

theorem stripWord_map (alike : forall item, readsOther (image item) = reads item) (word : List Char) (text : List Item) :
    stripWord readsOther word (text.map image) = (stripWord reads word text).map (List.map image) := by
  induction word generalizing text with
  | nil => rfl
  | cons char word ih =>
      cases text with
      | nil => rfl
      | cons item text =>
          rw [List.map_cons, stripWord, stripWord, alike]
          split
          · exact ih text
          · rfl

theorem readUpTo_map (alike : forall item, readsOther (image item) = reads item) (closing : List Char) (text : List Item) :
    readUpTo readsOther closing (text.map image) =
      (readUpTo reads closing text).map fun found => (found.1, found.2.map image) := by
  induction text with
  | nil =>
      rw [List.map_nil, readUpTo, readUpTo]
      cases closing <;> rfl
  | cons item text ih =>
      have closed := stripWord_map alike closing (item :: text)
      rw [List.map_cons] at closed
      rw [List.map_cons, readUpTo, readUpTo, closed, alike, ih]
      cases stripWord reads closing (item :: text) with
      | some rest => rfl
      | none =>
          cases reads item with
          | none => rfl
          | some char =>
              dsimp only [Option.map_none]
              split
              · rfl
              · rw [Option.map_map, Option.map_map]
                rfl

namespace Bracket

variable {bracket : Bracket}

theorem find_map (alike : forall item, readsOther (image item) = reads item) (text : List Item) :
    bracket.find readsOther (text.map image) = (bracket.find reads text).map fun found => (found.1, found.2.map image) := by
  rw [find, find, stripWord_map alike]
  cases stripWord reads bracket.opening text with
  | none => rfl
  | some rest => exact readUpTo_map alike bracket.closing rest

theorem replaceFrom_map (alike : forall item, readsOther (image item) = reads item)
    (value : List Char -> Except Error (List Item)) (fuel : Nat) (text : List Item) :
    bracket.replaceFrom readsOther (fun name => (value name).map (List.map image)) fuel (text.map image) =
      (bracket.replaceFrom reads value fuel text).map (List.map image) := by
  induction fuel generalizing text with
  | zero => rfl
  | succ fuel ih =>
      cases text with
      | nil => rfl
      | cons item text =>
          have found := @find_map _ _ _ _ _ bracket alike (item :: text)
          rw [List.map_cons] at found
          rw [List.map_cons, replaceFrom, replaceFrom, found]
          cases bracket.find reads (item :: text) with
          | none =>
              simp only [Option.map_none, ih]
              cases bracket.replaceFrom reads value fuel text <;> rfl
          | some place =>
              simp only [Option.map_some, ih]
              cases value place.1 with
              | error error => rfl
              | ok put =>
                  cases bracket.replaceFrom reads value fuel place.2 with
                  | error error => rfl
                  | ok more => exact congrArg Except.ok List.map_append.symm

theorem replaceAll_map (alike : forall item, readsOther (image item) = reads item)
    (value : List Char -> Except Error (List Item)) (text : List Item) :
    bracket.replaceAll readsOther (fun name => (value name).map (List.map image)) (text.map image) =
      (bracket.replaceAll reads value text).map (List.map image) := by
  rw [replaceAll, replaceAll, List.length_map]
  exact replaceFrom_map alike value text.length text

end Bracket

end Mapping

end Foundation
end Dokploy
