import Dokploy.Foundation.Numerals
import Dokploy.Foundation.Splits
import Dokploy.Traefik.Config

namespace Dokploy
namespace Traefik

open Foundation
open Numerals (decimal valueOf_decimal isDigit_of_mem_decimal)

/-!
# Whose middleware a name is

A middleware is named after one application, and after one of its domains or
redirects.  The name says whose it is: it begins with a word for its kind, and a
number or a word stands after the last dash.
-/

inductive NamedAfter (appName : String) : String -> Prop
  | auth : NamedAfter appName (authName appName)
  | redirect (key : Nat) : NamedAfter appName (redirectName appName key)
  | addPrefix (key : Nat) : NamedAfter appName (addPrefixName appName key)
  | stripPrefix (key : Nat) : NamedAfter appName (stripPrefixName appName key)
  | forwardAuth (key : Nat) : NamedAfter appName (forwardAuthMiddlewareName appName key)
  | forwardAuthErrors (key : Nat) : NamedAfter appName (forwardAuthErrorsName appName key)

theorem toList_toString (key : Nat) : (toString key).toList = decimal key := by
  rw [decimal, Nat.toString_eq_repr, Nat.repr, String.toList_ofList]

theorem decimal_plain (key : Nat) : '-' ∉ decimal key := by
  intro member
  have isDigit := isDigit_of_mem_decimal member
  exact absurd isDigit (by decide)

theorem decimal_injective {key other : Nat} (same : decimal key = decimal other) : key = other := by
  rw [← valueOf_decimal key, same, valueOf_decimal]

theorem numbered_inj {kind appName otherName : String} {key other : Nat}
    (same : kind ++ appName ++ "-" ++ toString key = kind ++ otherName ++ "-" ++ toString other) :
    appName = otherName ∧ key = other := by
  have characters := congrArg String.toList same
  simp only [String.toList_append, toList_toString, List.append_assoc] at characters
  have names := List.append_cancel_left characters
  have parts := split_at_last (decimal_plain key) (decimal_plain other) names
  exact ⟨String.toList_inj.mp parts.1, decimal_injective parts.2⟩

/-- The beginning of a name is enough of its kind to tell it from the others. -/
def kindOf (name : String) : List Char := name.toList.take 2

theorem kindOf_append {kind rest : String} (long : 2 ≤ kind.toList.length) : kindOf (kind ++ rest) = kindOf kind := by
  rw [kindOf, String.toList_append, List.take_append_of_le_length long, kindOf]

theorem kindOf_numbered {kind appName : String} {key : Nat} (long : 2 ≤ kind.toList.length) :
    kindOf (kind ++ appName ++ "-" ++ toString key) = kindOf kind := by
  rw [String.append_assoc, String.append_assoc]
  exact kindOf_append long

section Kinds

variable (appName : String) (key : Nat)

theorem kindOf_authName : kindOf (authName appName) = ['a', 'u'] :=
  kindOf_append (show 2 ≤ "auth-".toList.length by decide)

theorem kindOf_redirectName : kindOf (redirectName appName key) = ['r', 'e'] :=
  kindOf_numbered (show 2 ≤ "redirect-".toList.length by decide)

theorem kindOf_addPrefixName : kindOf (addPrefixName appName key) = ['a', 'd'] :=
  kindOf_numbered (show 2 ≤ "addprefix-".toList.length by decide)

theorem kindOf_stripPrefixName : kindOf (stripPrefixName appName key) = ['s', 't'] :=
  kindOf_numbered (show 2 ≤ "stripprefix-".toList.length by decide)

theorem kindOf_forwardAuthMiddlewareName : kindOf (forwardAuthMiddlewareName appName key) = ['f', 'o'] :=
  kindOf_numbered (show 2 ≤ "forward-auth-".toList.length by decide)

theorem kindOf_forwardAuthErrorsName : kindOf (forwardAuthErrorsName appName key) = ['f', 'o'] := by
  rw [forwardAuthErrorsName, forwardAuthMiddlewareName, String.append_assoc, String.append_assoc, String.append_assoc]
  exact kindOf_append (show 2 ≤ "forward-auth-".toList.length by decide)

end Kinds

theorem errors_ne_numbered {front : String} {appName : String} {key other : Nat} :
    front ++ toString key ≠ forwardAuthErrorsName appName other := by
  intro same
  have characters := congrArg (fun text : String => text.toList.getLast?) same
  simp only [forwardAuthErrorsName, String.toList_append, toList_toString] at characters
  rw [List.getLast?_append_of_ne_nil _ (Numerals.decimal_ne_nil key)] at characters
  rcases List.getLast?_eq_some_iff.mp (characters.trans (by simp : _ = some 's')) with ⟨_, isDecimal⟩
  have member : 's' ∈ decimal key := by
    rw [isDecimal]
    exact List.mem_append_right _ List.mem_cons_self
  exact absurd (isDigit_of_mem_decimal member) (by decide)

theorem NamedAfter.kinds {appName name : String} (named : NamedAfter appName name) :
    (kindOf name = ['a', 'u'] ∧ name = authName appName) ∨
      (kindOf name = ['r', 'e'] ∧ Exists fun key => name = redirectName appName key) ∨
      (kindOf name = ['a', 'd'] ∧ Exists fun key => name = addPrefixName appName key) ∨
      (kindOf name = ['s', 't'] ∧ Exists fun key => name = stripPrefixName appName key) ∨
      (kindOf name = ['f', 'o'] ∧ ((Exists fun key => name = forwardAuthMiddlewareName appName key) ∨
        Exists fun key => name = forwardAuthErrorsName appName key)) := by
  cases named with
  | auth => exact Or.inl ⟨kindOf_authName appName, rfl⟩
  | redirect key => exact Or.inr (Or.inl ⟨kindOf_redirectName appName key, key, rfl⟩)
  | addPrefix key => exact Or.inr (Or.inr (Or.inl ⟨kindOf_addPrefixName appName key, key, rfl⟩))
  | stripPrefix key => exact Or.inr (Or.inr (Or.inr (Or.inl ⟨kindOf_stripPrefixName appName key, key, rfl⟩)))
  | forwardAuth key =>
      exact Or.inr (Or.inr (Or.inr (Or.inr ⟨kindOf_forwardAuthMiddlewareName appName key, Or.inl ⟨key, rfl⟩⟩)))
  | forwardAuthErrors key =>
      exact Or.inr (Or.inr (Or.inr (Or.inr ⟨kindOf_forwardAuthErrorsName appName key, Or.inr ⟨key, rfl⟩⟩)))

theorem NamedAfter.unique {appName other name : String} (named : NamedAfter appName name)
    (alsoNamed : NamedAfter other name) : appName = other := by
  rcases named.kinds with ⟨kind, first⟩ | ⟨kind, key, first⟩ | ⟨kind, key, first⟩ | ⟨kind, key, first⟩ | ⟨kind, first⟩ <;>
    rcases alsoNamed.kinds with ⟨sameKind, second⟩ | ⟨sameKind, otherKey, second⟩ | ⟨sameKind, otherKey, second⟩ |
      ⟨sameKind, otherKey, second⟩ | ⟨sameKind, second⟩ <;>
    rw [kind] at sameKind <;> try cases sameKind
  · have characters := congrArg String.toList (first.symm.trans second)
    simp only [authName, String.toList_append] at characters
    exact String.toList_inj.mp (List.append_cancel_left characters)
  · exact (numbered_inj (first.symm.trans second)).1
  · exact (numbered_inj (first.symm.trans second)).1
  · exact (numbered_inj (first.symm.trans second)).1
  · rcases first with ⟨key, first⟩ | ⟨key, first⟩
    · rcases second with ⟨otherKey, second⟩ | ⟨otherKey, second⟩
      · exact (numbered_inj (first.symm.trans second)).1
      · exact absurd (first.symm.trans second) errors_ne_numbered
    · rcases second with ⟨otherKey, second⟩ | ⟨otherKey, second⟩
      · exact absurd (second.symm.trans first) errors_ne_numbered
      · have characters := congrArg String.toList (first.symm.trans second)
        simp only [forwardAuthErrorsName, String.toList_append] at characters
        exact (numbered_inj (String.toList_inj.mp (List.append_cancel_right characters))).1

end Traefik
end Dokploy
