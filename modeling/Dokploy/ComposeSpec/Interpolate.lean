import Mathlib.Data.Nat.SuccPred
import Dokploy.Foundation.Json
import Dokploy.Foundation.Program

namespace Dokploy
namespace ComposeSpec

open Foundation

/-!
# Interpolation of a compose file

Two scanners share one position in the text: one reads plain text, the other
what stands between the braces of `${...}`.  A position is the text that is left,
and a scanner says that it left no more than it was given, so the mutual
recursion ends on every text.  A variable is looked up by an operation of the
program; what is skipped over asks for nothing.
-/

abbrev Text := List Char

/-- What a variable is for the interpolation. -/
inductive ComposeVariable where
  | value (text : Text)
  | unset
  | UNKNOWN_VALUE
deriving DecidableEq, Repr

abbrev ComposeVariableLookup := Text -> ComposeVariable

structure ComposeInterpolationError where
  message : String
deriving DecidableEq, Repr

/-- A computation that looks variables up and may throw. -/
abbrev Interpolating (Result : Type) :=
  Program Text (fun _ => ComposeVariable) ComposeInterpolationError Result

def isNameStart (char : Char) : Bool :=
  ('A' ≤ char && char ≤ 'Z') || ('a' ≤ char && char ≤ 'z') || char == '_'

def isNamePart (char : Char) : Bool :=
  isNameStart char || ('0' ≤ char && char ≤ '9')

/-- The longest name the text begins with; empty when it begins with none. -/
def readName : Text -> Text
  | [] => []
  | char :: rest => if isNameStart char then char :: rest.takeWhile isNamePart else []

/-- What was read, and what is left of a text of at most `bound` characters. -/
structure ScanResult (bound : Nat) where
  value : Text
  rest : Text
  within : rest.length ≤ bound

def ScanResult.weaken {small large : Nat} (result : ScanResult small) (atMost : small ≤ large) :
    ScanResult large where
  value := result.value
  rest := result.rest
  within := Nat.le_trans result.within atMost

def unknownVariable (name : Text) : ComposeInterpolationError :=
  ⟨"The value of " ++ String.ofList name ++ " is not known before the deploy runs."⟩

def neverClosed : ComposeInterpolationError := ⟨"A $\x7b is never closed."⟩

def invalidReference (shown : Text) : ComposeInterpolationError :=
  ⟨"Invalid variable reference at \"" ++ String.ofList shown ++ "\"."⟩

def invalidModifier (name : Text) (colon : Bool) (operator : Option Char) : ComposeInterpolationError :=
  ⟨"Invalid variable reference $\x7b" ++ String.ofList name ++ (if colon then ":" else "") ++
    String.ofList operator.toList ++ "...\x7d."⟩

def requiredVariable (name : Text) (isSet : Bool) : ComposeInterpolationError :=
  ⟨"Required variable " ++ String.ofList name ++ " is " ++ (if isSet then "empty" else "not set") ++ "."⟩

/-- The value of a variable, none when it is not set. -/
def resolve (name : Text) : Interpolating (Option Text) := do
  match <- Program.perform name with
  | .UNKNOWN_VALUE => .thrown (unknownVariable name)
  | .value text => pure (some text)
  | .unset => pure none

/-- The variable is looked up in a branch that is taken, and skipped in one that is not. -/
def resolveIf (evaluate : Bool) (name : Text) : Interpolating (Option Text) :=
  if evaluate then resolve name else pure none

/-- Whether a modifier sees the variable: with a colon an empty value does not count. -/
def isPresent (colon : Bool) (value : Option Text) : Bool :=
  match value with
  | none => false
  | some text => if colon then text != [] else true

/-- What stands between `NAME` and the word of a modifier: a colon or none. -/
def readColon : Text -> Bool × Text
  | ':' :: rest => (true, rest)
  | text => (false, text)

theorem length_readColon (text : Text) : (readColon text).2.length ≤ text.length := by
  unfold readColon
  split
  · exact Nat.le_succ _
  · exact Nat.le_refl _

theorem readName_length {text : Text} (named : readName text ≠ []) : 0 < (readName text).length :=
  List.length_pos_iff.mpr named

theorem length_drop_readName {text : Text} (named : readName text ≠ []) :
    (text.drop (readName text).length).length < text.length := by
  have positive := readName_length named
  cases text with
  | nil => exact absurd rfl named
  | cons char rest =>
      rw [List.length_drop]
      simp only [List.length_cons]
      omega

mutual

/-- Read a text from its beginning; in braces, up to the brace that closes them. -/
def scan (text : Text) (inBraces evaluate : Bool) (out : Text) : Interpolating (ScanResult text.length) :=
  match text with
  | [] => if inBraces then .thrown neverClosed else pure ⟨out, [], Nat.le_refl _⟩
  | char :: after =>
      if inBraces && char == '}' then
        pure ⟨out, after, Nat.le_succ _⟩
      else if char != '$' then do
        let rest <- scan after inBraces evaluate (out ++ [char])
        pure (rest.weaken (Nat.le_succ _))
      else
        match after with
        | '$' :: more => do
            let rest <- scan more inBraces evaluate (out ++ ['$'])
            pure (rest.weaken (by simp only [List.length_cons]; omega))
        | '{' :: more => do
            let braced <- scanBraced more evaluate
            have within := braced.within
            let rest <- scan braced.rest inBraces evaluate (out ++ braced.value)
            pure (rest.weaken (by simp only [List.length_cons]; omega))
        | following =>
            if named : readName following = [] then do
              -- A dollar before anything else (a digit, a space, the end) is literal.
              let rest <- scan following inBraces evaluate (out ++ ['$'])
              pure (rest.weaken (Nat.le_succ _))
            else do
              let value <- resolveIf evaluate (readName following)
              have shorter := length_drop_readName named
              let rest <- scan (following.drop (readName following).length) inBraces evaluate
                (out ++ value.getD [])
              pure (rest.weaken (by simp only [List.length_cons]; omega))
termination_by text.length

/-- Read `NAME[modifier word]}` after a `${`. -/
def scanBraced (text : Text) (evaluate : Bool) : Interpolating (ScanResult text.length) :=
  if named : readName text = [] then
    .thrown (invalidReference ('$' :: '\x7b' :: text.take 10))
  else do
    have shorter := length_drop_readName named
    let rest <- scanModifier (readName text) (text.drop (readName text).length) evaluate
    pure (rest.weaken (Nat.le_of_lt shorter))
termination_by text.length
decreasing_by exact length_drop_readName named

/-- What follows the name: the closing brace, or a modifier with its word. -/
def scanModifier (name after : Text) (evaluate : Bool) : Interpolating (ScanResult after.length) :=
  match after with
  | '\x7d' :: rest => do
      let value <- resolveIf evaluate name
      pure ⟨value.getD [], rest, Nat.le_succ _⟩
  | modifier =>
      have within := length_readColon modifier
      match operated : (readColon modifier).2 with
      | [] => .thrown (invalidModifier name (readColon modifier).1 none)
      | operator :: word =>
          have shorter : word.length < modifier.length := by
            rw [operated] at within
            exact within
          if operator != '-' && operator != '+' && operator != '?' then
            .thrown (invalidModifier name (readColon modifier).1 (some operator))
          else do
            let value <- resolveIf evaluate name
            let present := isPresent (readColon modifier).1 value
            if operator == '-' then
              let rest <- scan word true (evaluate && !present) []
              pure ⟨if present then value.getD [] else rest.value, rest.rest, by have := rest.within; omega⟩
            else if operator == '+' then
              let rest <- scan word true (evaluate && present) []
              pure ⟨if present then rest.value else [], rest.rest, by have := rest.within; omega⟩
            else
              -- The message is read only to find its end.
              let rest <- scan word true false []
              if evaluate && !present then
                .thrown (requiredVariable name value.isSome)
              else
                pure ⟨value.getD [], rest.rest, by have := rest.within; omega⟩
termination_by after.length

end

def interpolateComposeString (text : Text) : Interpolating Text :=
  if !text.contains '$' then pure text
  else do
    let result <- scan text false true []
    pure result.value

/-- A parsed compose file.  Numbers, booleans and null are scalars; a mapping lists its own entries. -/
inductive ComposeValue (Scalar : Type) where
  | string (text : Text)
  | scalar (scalar : Scalar)
  | array (items : List (ComposeValue Scalar))
  | mapping (entries : List (Text × ComposeValue Scalar))

abbrev Entries (Scalar : Type) := List (Text × ComposeValue Scalar)

/-- The key under which an object of the language keeps its prototype. -/
def prototypeKey : Text := "__proto__".toList

/-- `copy[key] = item`.  Assigning to `__proto__` makes no entry of its own: it sets the prototype, or does nothing. -/
def assign {Scalar : Type} (copy : Entries Scalar) (key : Text) (item : ComposeValue Scalar) : Entries Scalar :=
  if key = prototypeKey then copy
  else if key ∈ copy.map Prod.fst then
    copy.map fun entry => if entry.1 = key then (key, item) else entry
  else copy ++ [(key, item)]

section

variable {Scalar : Type}

mutual

/-- A deep copy with every string interpolated. -/
def interpolateComposeValue : ComposeValue Scalar -> Interpolating (ComposeValue Scalar)
  | .string text => do
      let value <- interpolateComposeString text
      pure (.string value)
  | .scalar scalar => pure (.scalar scalar)
  | .array items => do
      let copies <- interpolateItems items
      pure (.array copies)
  | .mapping entries => do
      let copy <- interpolateEntries [] entries
      pure (.mapping copy)

def interpolateItems : List (ComposeValue Scalar) -> Interpolating (List (ComposeValue Scalar))
  | [] => pure []
  | item :: items => do
      let first <- interpolateComposeValue item
      let rest <- interpolateItems items
      pure (first :: rest)

def interpolateEntries (copy : Entries Scalar) : Entries Scalar -> Interpolating (Entries Scalar)
  | [] => pure copy
  | (key, item) :: entries => do
      let value <- interpolateComposeValue item
      interpolateEntries (assign copy key value) entries

end

end

end ComposeSpec
end Dokploy
