import Dokploy.ComposeSpec.Interpolate

namespace Dokploy
namespace ComposeSpec

open Foundation

/-!
# Templates of the Compose grammar

A template is a text with references to variables, and the word of a modifier is
a template again.  The meaning of a template says which value it has, or which
variable stops it, and which variables are looked up on the way.  It is written
from the Compose specification and knows nothing of positions or braces.
-/

/-- A name begins with a letter or an underscore and goes on with these and digits. -/
def IsName : Text -> Prop
  | [] => False
  | char :: rest => isNameStart char = true ∧ forall part, part ∈ rest -> isNamePart part = true

structure Name where
  chars : Text
  isName : IsName chars

/-- The signs of `:-`, `:+` and `:?`, with a colon or without one. -/
inductive Modifier where
  | default
  | alternative
  | required
deriving DecidableEq

def Modifier.sign : Modifier -> Char
  | .default => '-'
  | .alternative => '+'
  | .required => '?'

inductive Template where
  | done
  | text (char : Char) (rest : Template)
  | dollar (rest : Template)
  | plain (name : Name) (rest : Template)
  | braced (name : Name) (rest : Template)
  | modified (name : Name) (colon : Bool) (modifier : Modifier) (word rest : Template)

namespace Template

/-- The template as a text, followed by another text. -/
def printOnto : Template -> Text -> Text
  | done, tail => tail
  | text char rest, tail => char :: rest.printOnto tail
  | dollar rest, tail => '$' :: '$' :: rest.printOnto tail
  | plain name rest, tail => '$' :: (name.chars ++ rest.printOnto tail)
  | braced name rest, tail => '$' :: '\x7b' :: (name.chars ++ '\x7d' :: rest.printOnto tail)
  | modified name colon modifier word rest, tail =>
      '$' :: '\x7b' :: (name.chars ++
        ((if colon then [':'] else []) ++
          modifier.sign :: word.printOnto ('\x7d' :: rest.printOnto tail)))

def print (template : Template) : Text := template.printOnto []

/-- The text of the template would lengthen a name in front of it. -/
def lengthensName : Template -> Bool
  | text char _ => isNamePart char
  | _ => false

/-- Plain text has no dollar, and in a word no closing brace; a name ends where its text ends. -/
def Grammatical (inWord : Bool) : Template -> Prop
  | done => True
  | text char rest => char ≠ '$' ∧ (inWord = true -> char ≠ '\x7d') ∧ rest.Grammatical inWord
  | dollar rest => rest.Grammatical inWord
  | plain _ rest => rest.lengthensName = false ∧ rest.Grammatical inWord
  | braced _ rest => rest.Grammatical inWord
  | modified _ _ _ word rest => word.Grammatical true ∧ rest.Grammatical inWord

end Template

structure ComposeTemplate where
  template : Template
  grammatical : template.Grammatical false

inductive Raised where
  | unknown (name : Name)
  | required (name : Name) (isSet : Bool)

def Raised.error : Raised -> ComposeInterpolationError
  | .unknown name => unknownVariable name.chars
  | .required name isSet => requiredVariable name.chars isSet

/-- The value of a template, and the variables that were looked up for it. -/
structure Meaning (Value : Type) where
  consulted : List Name
  outcome : Except Raised Value

namespace Meaning

variable {Value Other : Type}

def settled (value : Value) : Meaning Value := ⟨[], .ok value⟩

def andThen (first : Meaning Value) (next : Value -> Meaning Other) : Meaning Other :=
  match first.outcome with
  | .ok value => ⟨first.consulted ++ (next value).consulted, (next value).outcome⟩
  | .error raised => ⟨first.consulted, .error raised⟩

end Meaning

/-- Looking a variable up: its value, or none when it is not set. -/
def Name.meaning (name : Name) (lookup : ComposeVariableLookup) : Meaning (Option Text) where
  consulted := [name]
  outcome :=
    match lookup name.chars with
    | .value text => .ok (some text)
    | .unset => .ok none
    | .UNKNOWN_VALUE => .error (.unknown name)

/-- What a modifier makes of a variable; the word counts only in a branch that is taken. -/
def Modifier.meaning (modifier : Modifier) (name : Name) (colon : Bool) (value : Option Text)
    (word : Meaning Text) : Meaning Text :=
  match modifier, isPresent colon value with
  | .default, true => .settled (value.getD [])
  | .default, false => word
  | .alternative, true => word
  | .alternative, false => .settled []
  | .required, true => .settled (value.getD [])
  | .required, false => ⟨[], .error (.required name value.isSome)⟩

def Template.meaning (lookup : ComposeVariableLookup) : Template -> Meaning Text
  | done => .settled []
  | text char rest => (rest.meaning lookup).andThen fun value => .settled (char :: value)
  | dollar rest => (rest.meaning lookup).andThen fun value => .settled ('$' :: value)
  | plain name rest | braced name rest =>
      (name.meaning lookup).andThen fun own =>
        (rest.meaning lookup).andThen fun value => .settled (own.getD [] ++ value)
  | modified name colon modifier word rest =>
      (name.meaning lookup).andThen fun own =>
        (modifier.meaning name colon own (word.meaning lookup)).andThen fun chosen =>
          (rest.meaning lookup).andThen fun value => .settled (chosen ++ value)

end ComposeSpec
end Dokploy
