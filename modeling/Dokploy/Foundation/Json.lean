import Mathlib.Data.List.Basic

namespace Dokploy
namespace Foundation

/-!
# JSON texts

A text is read from its front, and every reader leaves the rest.  The values that
contain values are read with fuel, one unit for each value or entry begun, so the
length of the text is enough of it.  A number keeps its literal, and an escape that
is no character of its own is read as the replacement character.
-/

/-- Texts are compared character by character. -/
instance lawfulText : LawfulBEq (List Char) := inferInstance

inductive Json where
  | null
  | bool (value : Bool)
  | number (literal : List Char)
  | string (text : List Char)
  | array (items : List Json)
  | object (entries : List (List Char × Json))

namespace Json

def isSpace (char : Char) : Bool := char == ' ' || char == '\t' || char == '\n' || char == '\r'

def skipSpace (text : List Char) : List Char := text.dropWhile isSpace

def hexValue (char : Char) : Option Nat :=
  if '0' ≤ char ∧ char ≤ '9' then some (char.toNat - 48)
  else if 'a' ≤ char ∧ char ≤ 'f' then some (char.toNat - 87)
  else if 'A' ≤ char ∧ char ≤ 'F' then some (char.toNat - 55)
  else none

/-- What stands after a backslash, but for the hexadecimal escape. -/
def escaped : Char -> Option Char
  | '"' => some '"'
  | '\\' => some '\\'
  | '/' => some '/'
  | 'b' => some '\x08'
  | 'f' => some '\x0c'
  | 'n' => some '\n'
  | 'r' => some '\r'
  | 't' => some '\t'
  | _ => none

def codeUnit (first second third fourth : Char) : Option Char := do
  let first <- hexValue first
  let second <- hexValue second
  let third <- hexValue third
  let fourth <- hexValue fourth
  let code := ((first * 16 + second) * 16 + third) * 16 + fourth
  some (if code.isValidChar then Char.ofNat code else Char.ofNat 0xFFFD)

/-- The rest of a string after its opening quote. -/
def readString : List Char -> Option (List Char × List Char)
  | [] => none
  | '"' :: rest => some ([], rest)
  | '\\' :: 'u' :: first :: second :: third :: fourth :: rest => do
      let char <- codeUnit first second third fourth
      let (text, rest) <- readString rest
      some (char :: text, rest)
  | '\\' :: char :: rest => do
      let char <- escaped char
      let (text, rest) <- readString rest
      some (char :: text, rest)
  | char :: rest =>
      if char.toNat < 32 ∨ char = '\\' then none
      else do
        let (text, rest) <- readString rest
        some (char :: text, rest)

def isDigit (char : Char) : Bool := '0' ≤ char && char ≤ '9'

def readDigits (text : List Char) : Option (List Char × List Char) :=
  if (text.takeWhile isDigit).isEmpty then none else some (text.takeWhile isDigit, text.dropWhile isDigit)

def readInteger : List Char -> Option (List Char × List Char)
  | '0' :: rest => some (['0'], rest)
  | text => readDigits text

def readFraction : List Char -> Option (List Char × List Char)
  | '.' :: rest => (readDigits rest).map fun (digits, rest) => ('.' :: digits, rest)
  | text => some ([], text)

def readExponent : List Char -> Option (List Char × List Char)
  | 'e' :: '+' :: rest => (readDigits rest).map fun (digits, rest) => ('e' :: '+' :: digits, rest)
  | 'e' :: '-' :: rest => (readDigits rest).map fun (digits, rest) => ('e' :: '-' :: digits, rest)
  | 'e' :: rest => (readDigits rest).map fun (digits, rest) => ('e' :: digits, rest)
  | 'E' :: '+' :: rest => (readDigits rest).map fun (digits, rest) => ('E' :: '+' :: digits, rest)
  | 'E' :: '-' :: rest => (readDigits rest).map fun (digits, rest) => ('E' :: '-' :: digits, rest)
  | 'E' :: rest => (readDigits rest).map fun (digits, rest) => ('E' :: digits, rest)
  | text => some ([], text)

def readNumber (text : List Char) : Option (List Char × List Char) := do
  let (sign, text) := match text with
    | '-' :: rest => (['-'], rest)
    | text => ([], text)
  let (integer, text) <- readInteger text
  let (fraction, text) <- readFraction text
  let (exponent, text) <- readExponent text
  some (sign ++ integer ++ fraction ++ exponent, text)

mutual

/-- A value, after the space in front of it. -/
def readValue : Nat -> List Char -> Option (Json × List Char)
  | 0, _ => none
  | fuel + 1, text =>
      match text with
      | 'n' :: 'u' :: 'l' :: 'l' :: rest => some (.null, rest)
      | 't' :: 'r' :: 'u' :: 'e' :: rest => some (.bool true, rest)
      | 'f' :: 'a' :: 'l' :: 's' :: 'e' :: rest => some (.bool false, rest)
      | '"' :: rest => (readString rest).map fun (text, rest) => (.string text, rest)
      | '[' :: rest =>
          match skipSpace rest with
          | ']' :: rest => some (.array [], rest)
          | rest => (readItems fuel rest).map fun (items, rest) => (.array items, rest)
      | '\x7b' :: rest =>
          match skipSpace rest with
          | '\x7d' :: rest => some (.object [], rest)
          | rest => (readEntries fuel rest).map fun (entries, rest) => (.object entries, rest)
      | text => (readNumber text).map fun (literal, rest) => (.number literal, rest)

/-- The items of an array that is not empty, up to its closing bracket. -/
def readItems : Nat -> List Char -> Option (List Json × List Char)
  | 0, _ => none
  | fuel + 1, text => do
      let (item, rest) <- readValue fuel text
      match skipSpace rest with
      | ',' :: rest => do
          let (items, rest) <- readItems fuel (skipSpace rest)
          some (item :: items, rest)
      | ']' :: rest => some ([item], rest)
      | _ => none

/-- The entries of an object that is not empty, up to its closing brace. -/
def readEntries : Nat -> List Char -> Option (List (List Char × Json) × List Char)
  | 0, _ => none
  | fuel + 1, text =>
      match text with
      | '"' :: rest => do
          let (key, rest) <- readString rest
          match skipSpace rest with
          | ':' :: rest => do
              let (value, rest) <- readValue fuel (skipSpace rest)
              match skipSpace rest with
              | ',' :: rest => do
                  let (entries, rest) <- readEntries fuel (skipSpace rest)
                  some ((key, value) :: entries, rest)
              | '\x7d' :: rest => some ([(key, value)], rest)
              | _ => none
          | _ => none
      | _ => none

end

def parse (text : List Char) : Option Json := do
  let (value, rest) <- readValue (text.length + 1) (skipSpace text)
  if (skipSpace rest).isEmpty then some value else none

/-- The value of a key: the last one that was given.  Only an object has keys here. -/
def field (key : List Char) : Json -> Option Json
  | .object entries => (entries.reverse.find? fun entry => entry.1 = key).map Prod.snd
  | _ => none

end Json

end Foundation
end Dokploy
