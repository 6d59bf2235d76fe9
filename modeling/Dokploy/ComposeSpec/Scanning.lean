import Dokploy.ComposeSpec.Template

namespace Dokploy
namespace ComposeSpec

open Foundation

/-!
# What the scanners do with one piece

The equations of the two scanners, one for each way a text can begin, in which
a position is just the text that is left.
-/

def ScanResult.seen {bound : Nat} (result : ScanResult bound) : Text × Text :=
  (result.value, result.rest)

/-- The scanner of plain text, without the bound on what it leaves. -/
def scanned (text : Text) (inBraces evaluate : Bool) (out : Text) : Interpolating (Text × Text) := do
  let result <- scan text inBraces evaluate out
  pure result.seen

def scannedBraced (text : Text) (evaluate : Bool) : Interpolating (Text × Text) := do
  let result <- scanBraced text evaluate
  pure result.seen

variable {inBraces evaluate : Bool} {out : Text}

theorem scanned_bind {text : Text} {Result : Type} (next : Text × Text -> Interpolating Result) :
    scanned text inBraces evaluate out >>= next =
      scan text inBraces evaluate out >>= fun result => next result.seen :=
  Program.bind_assoc _ _ _

theorem scanned_end : scanned [] false evaluate out = pure (out, []) := by
  rw [scanned, scan.eq_def]
  rfl

theorem scanned_closing (after : Text) : scanned ('\x7d' :: after) true evaluate out = pure (out, after) := by
  rw [scanned, scan.eq_def]
  rfl

theorem scanned_char {char : Char} (after : Text) (literal : char ≠ '$')
    (inside : inBraces = true -> char ≠ '\x7d') :
    scanned (char :: after) inBraces evaluate out = scanned after inBraces evaluate (out ++ [char]) := by
  have closes : (inBraces && char == '\x7d') = false := by
    cases inBraces with
    | false => rfl
    | true => exact beq_eq_false_iff_ne.mpr (inside rfl)
  have other : (char != '$') = true := bne_iff_ne.mpr literal
  rw [scanned, scan.eq_def]
  simp only [closes, other, if_true, Bool.false_eq_true, if_false]
  rw [scanned, Program.bind_assoc]
  rfl

private theorem dollar_closes : (inBraces && '$' == '\x7d') = false := Bool.and_false _

theorem scanned_dollars (more : Text) :
    scanned ('$' :: '$' :: more) inBraces evaluate out = scanned more inBraces evaluate (out ++ ['$']) := by
  rw [scanned, scan.eq_def]
  simp only [dollar_closes, bne_self_eq_false, Bool.false_eq_true, if_false]
  rw [scanned, Program.bind_assoc]
  rfl

theorem scanned_braces (more : Text) :
    scanned ('$' :: '\x7b' :: more) inBraces evaluate out =
      scannedBraced more evaluate >>= fun braced => scanned braced.2 inBraces evaluate (out ++ braced.1) := by
  rw [scanned, scan.eq_def]
  simp only [dollar_closes, bne_self_eq_false, Bool.false_eq_true, if_false]
  rw [scannedBraced, Program.bind_assoc, Program.bind_assoc]
  apply congrArg (scanBraced more evaluate >>= ·)
  funext braced
  rw [Program.bind_assoc]
  rfl

theorem scanned_named {following : Text} (named : readName following ≠ [])
    (noDollar : following.head? ≠ some '$') (noBrace : following.head? ≠ some '\x7b') :
    scanned ('$' :: following) inBraces evaluate out =
      resolveIf evaluate (readName following) >>= fun value =>
        scanned (following.drop (readName following).length) inBraces evaluate (out ++ value.getD []) := by
  rw [scanned, scan.eq_def]
  simp only [dollar_closes, bne_self_eq_false, Bool.false_eq_true, if_false]
  split
  · exact absurd rfl noDollar
  · exact absurd rfl noBrace
  · rw [dif_neg named, Program.bind_assoc]
    apply congrArg (resolveIf evaluate (readName following) >>= ·)
    funext value
    rw [Program.bind_assoc]
    rfl

/-- The text does not go on with a part of a name. -/
def EndsName (tail : Text) : Prop :=
  forall char, tail.head? = some char -> isNamePart char = false

theorem takeWhile_parts {parts tail : Text} (all : forall part, part ∈ parts -> isNamePart part = true)
    (ends : EndsName tail) : (parts ++ tail).takeWhile isNamePart = parts := by
  induction parts with
  | nil =>
      cases tail with
      | nil => rfl
      | cons char rest => exact List.takeWhile_cons_of_neg (by rw [ends char rfl]; exact Bool.false_ne_true)
  | cons part parts ih =>
      have rest := ih fun other member => all other (List.mem_cons_of_mem _ member)
      rw [List.cons_append, List.takeWhile_cons_of_pos (all part List.mem_cons_self), rest]

theorem readName_append (name : Name) {tail : Text} (ends : EndsName tail) :
    readName (name.chars ++ tail) = name.chars := by
  rcases name with ⟨chars, isName⟩
  cases chars with
  | nil => exact absurd isName id
  | cons char parts =>
      rw [List.cons_append, readName, if_pos isName.1, takeWhile_parts isName.2 ends]

theorem Name.nonempty (name : Name) : name.chars ≠ [] := by
  intro empty
  have isName := name.isName
  rw [empty] at isName
  exact isName

theorem Name.head_ne (name : Name) (tail : Text) {sign : Char} (isSign : isNameStart sign = false) :
    (name.chars ++ tail).head? ≠ some sign := by
  rcases name with ⟨chars, isName⟩
  cases chars with
  | nil => exact absurd isName id
  | cons char parts =>
      intro same
      cases same
      exact Bool.false_ne_true (isSign.symm.trans isName.1)

theorem scanned_plain (name : Name) {tail : Text} (ends : EndsName tail) :
    scanned ('$' :: (name.chars ++ tail)) inBraces evaluate out =
      resolveIf evaluate name.chars >>= fun value => scanned tail inBraces evaluate (out ++ value.getD []) := by
  have read := readName_append name ends
  have named : readName (name.chars ++ tail) ≠ [] := by
    rw [read]
    exact name.nonempty
  rw [scanned_named named (name.head_ne tail (by decide)) (name.head_ne tail (by decide)), read,
    List.drop_left]

theorem endsName_of_head {sign : Char} (rest : Text) (isSign : isNamePart sign = false) :
    EndsName (sign :: rest) := by
  intro char same
  cases same
  exact isSign

theorem endsName_sign (colon : Bool) (modifier : Modifier) (word : Text) :
    EndsName ((if colon then [':'] else []) ++ modifier.sign :: word) := by
  cases colon with
  | true => exact endsName_of_head _ (by decide)
  | false =>
      apply endsName_of_head
      cases modifier with
      | default => decide
      | alternative => decide
      | required => decide

def scannedModifier (name after : Text) (evaluate : Bool) : Interpolating (Text × Text) := do
  let result <- scanModifier name after evaluate
  pure result.seen

theorem scannedBraced_named (name : Name) {tail : Text} (ends : EndsName tail) :
    scannedBraced (name.chars ++ tail) evaluate = scannedModifier name.chars tail evaluate := by
  have read := readName_append name ends
  have named : readName (name.chars ++ tail) ≠ [] := by
    rw [read]
    exact name.nonempty
  have dropped : (name.chars ++ tail).drop (readName (name.chars ++ tail)).length = tail := by
    rw [read, List.drop_left]
  rw [scannedBraced, scanBraced.eq_def, dif_neg named, Program.bind_assoc]
  change scannedModifier (readName (name.chars ++ tail)) _ evaluate = _
  rw [dropped, read]

theorem scannedModifier_closing (name rest : Text) :
    scannedModifier name ('\x7d' :: rest) evaluate =
      resolveIf evaluate name >>= fun value => pure (value.getD [], rest) := by
  rw [scannedModifier, scanModifier.eq_def]
  exact Program.bind_assoc _ _ _

/-- What the scanner does after the sign of a modifier. -/
def scannedWord (modifier : Modifier) (name : Text) (colon evaluate : Bool) (value : Option Text)
    (word : Text) : Interpolating (Text × Text) :=
  match modifier with
  | .default => do
      let rest <- scanned word true (evaluate && !isPresent colon value) []
      pure (if isPresent colon value then value.getD [] else rest.1, rest.2)
  | .alternative => do
      let rest <- scanned word true (evaluate && isPresent colon value) []
      pure (if isPresent colon value then rest.1 else [], rest.2)
  | .required => do
      let rest <- scanned word true false []
      if evaluate && !isPresent colon value then
        .thrown (requiredVariable name value.isSome)
      else
        pure (value.getD [], rest.2)

theorem scannedModifier_word (name : Text) (colon : Bool) (modifier : Modifier) (word : Text) :
    scannedModifier name ((if colon then [':'] else []) ++ modifier.sign :: word) evaluate =
      resolveIf evaluate name >>= fun value => scannedWord modifier name colon evaluate value word := by
  cases modifier with
  | default =>
      have unfolded : scannedModifier name ((if colon then [':'] else []) ++ '-' :: word) evaluate =
          resolveIf evaluate name >>= fun value => scan word true (evaluate && !isPresent colon value) [] >>= fun rest =>
            pure (if isPresent colon value then value.getD [] else rest.value, rest.rest) := by
        cases colon with
        | true | false =>
            rw [scannedModifier, scanModifier.eq_def]
            refine (Program.bind_assoc _ _ _).trans (congrArg _ (funext fun value => ?_))
            exact Program.bind_assoc _ _ _
      refine unfolded.trans (congrArg _ (funext fun value => ?_))
      rw [scannedWord, scanned_bind]
      rfl
  | alternative =>
      have unfolded : scannedModifier name ((if colon then [':'] else []) ++ '+' :: word) evaluate =
          resolveIf evaluate name >>= fun value => scan word true (evaluate && isPresent colon value) [] >>= fun rest =>
            pure (if isPresent colon value then rest.value else [], rest.rest) := by
        cases colon with
        | true | false =>
            rw [scannedModifier, scanModifier.eq_def]
            refine (Program.bind_assoc _ _ _).trans (congrArg _ (funext fun value => ?_))
            exact Program.bind_assoc _ _ _
      refine unfolded.trans (congrArg _ (funext fun value => ?_))
      rw [scannedWord, scanned_bind]
      rfl
  | required =>
      have unfolded : scannedModifier name ((if colon then [':'] else []) ++ '?' :: word) evaluate =
          resolveIf evaluate name >>= fun value => scan word true false [] >>= fun rest =>
            if evaluate && !isPresent colon value then .thrown (requiredVariable name value.isSome)
            else pure (value.getD [], rest.rest) := by
        cases colon with
        | true | false =>
            rw [scannedModifier, scanModifier.eq_def]
            refine (Program.bind_assoc _ _ _).trans (congrArg _ (funext fun value => ?_))
            refine (Program.bind_assoc _ _ _).trans (congrArg _ (funext fun rest => ?_))
            exact (apply_ite (· >>= fun result => pure (ScanResult.seen result)) _ _ _)
      refine unfolded.trans (congrArg _ (funext fun value => ?_))
      rw [scannedWord, scanned_bind]
      rfl

end ComposeSpec
end Dokploy
