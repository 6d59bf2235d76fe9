import Mathlib.Algebra.GroupWithZero.Nat
import Mathlib.Data.List.Basic
import Mathlib.Data.List.TakeWhile
import Mathlib.Data.Nat.Log

namespace Dokploy
namespace Foundation

/-!
# How a whole number is written

A natural number is written in decimal.  A number that is a double is written with
the fewest digits that are read as the same double, and from 10^21 on with an
exponent; below 2^53 every whole number is a double of its own, and all its digits
are written.
-/

namespace Numerals

def decimal (value : Nat) : List Char := Nat.toDigits 10 value

def valueOf (digits : List Char) : Nat := digits.foldl (fun value digit => value * 10 + (digit.toNat - 48)) 0

theorem valueOf_decimal (value : Nat) : valueOf (decimal value) = value := by
  have read := @Nat.ofDigitChars_ten_toDigits value
  rw [Nat.ofDigitChars_eq_foldl] at read
  simp only [Nat.mul_comm 10] at read
  exact read

theorem isDigit_of_mem_decimal {value : Nat} {char : Char} (member : char ∈ decimal value) : char.isDigit = true :=
  Nat.isDigit_of_mem_toDigits (by decide) (by decide) member

theorem decimal_ne_nil (value : Nat) : decimal value ≠ [] := Nat.toDigits_ne_nil

section Doubles

/-- The closest double, and of two the even one. -/
def roundToDouble (value : Nat) : Nat :=
  if value < 2 ^ 53 then value
  else
    let unit := 2 ^ (value.log2 - 52)
    if unit < 2 * (value % unit) ∨ 2 * (value % unit) = unit ∧ value / unit % 2 = 1 then (value / unit + 1) * unit
    else value / unit * unit

/-- The multiple of a power of ten with the fewest digits that is rounded to a double: its digits and the power. -/
def shortest (value : Nat) : Nat -> Nat × Nat
  | 0 => (value, 0)
  | power + 1 =>
      let unit := 10 ^ (power + 1)
      let below := value / unit
      let fits := roundToDouble (below * unit) = value
      let fitsAbove := roundToDouble ((below + 1) * unit) = value
      if fits ∧ (¬ fitsAbove ∨ 2 * (value % unit) ≤ unit) then (below, power + 1)
      else if fitsAbove then (below + 1, power + 1)
      else shortest value power

/-- The digits of a number, and its sign. -/
def withSign (negative : Bool) (digits : List Char) : List Char := if negative then '-' :: digits else digits

def doubleText (value : Nat) : List Char :=
  let (digits, power) := shortest value (decimal value).length
  let length := (decimal digits).length + power
  if length ≤ 21 then decimal digits ++ List.replicate power '0'
  else
    match decimal digits with
    | [] => []
    | [first] => first :: "e+".toList ++ decimal (length - 1)
    | first :: rest => first :: '.' :: rest ++ "e+".toList ++ decimal (length - 1)

def numberText (value : Int) : List Char :=
  withSign (decide (value < 0)) (if value.natAbs < 2 ^ 53 then decimal value.natAbs else doubleText value.natAbs)

theorem numberText_of_nat {value : Nat} (safe : value < 2 ^ 53) : numberText value = decimal value := by
  have positive : ¬ (value : Int) < 0 := by omega
  rw [numberText, decide_eq_false positive, Int.natAbs_natCast, if_pos safe]
  rfl

def IsDouble (value : Int) : Prop := roundToDouble value.natAbs = value.natAbs

instance (value : Int) : Decidable (IsDouble value) := inferInstanceAs (Decidable (_ = _))

theorem roundToDouble_small {value : Nat} (small : value < 2 ^ 53) : roundToDouble value = value :=
  if_pos small

theorem roundToDouble_multiple {factor : Nat} (exponent : Nat) (small : factor ≤ 2 ^ 53) :
    roundToDouble (factor * 2 ^ exponent) = factor * 2 ^ exponent := by
  by_cases safe : factor * 2 ^ exponent < 2 ^ 53
  · exact roundToDouble_small safe
  have nonzero : factor * 2 ^ exponent ≠ 0 := by omega
  have upper : factor * 2 ^ exponent ≤ 2 ^ (53 + exponent) := by
    rw [Nat.pow_add]
    exact Nat.mul_le_mul_right _ small
  have divides : 2 ^ ((factor * 2 ^ exponent).log2 - 52) ∣ factor * 2 ^ exponent := by
    by_cases fits : (factor * 2 ^ exponent).log2 - 52 ≤ exponent
    · exact Nat.dvd_trans (Nat.pow_dvd_pow 2 fits) (Nat.dvd_mul_left _ _)
    · -- Only the power of two itself has that many digits.
      have lower : 2 ^ (53 + exponent) ≤ factor * 2 ^ exponent :=
        (Nat.pow_le_pow_right (by decide) (by omega)).trans (Nat.log2_self_le nonzero)
      have same : factor * 2 ^ exponent = 2 ^ (53 + exponent) := Nat.le_antisymm upper lower
      rw [same, Nat.log2_two_pow]
      exact Nat.pow_dvd_pow 2 (by omega)
  have positive : 0 < 2 ^ ((factor * 2 ^ exponent).log2 - 52) := Nat.pow_pos (by decide)
  unfold roundToDouble
  rw [if_neg safe]
  dsimp only
  rw [Nat.mod_eq_zero_of_dvd divides, if_neg (by omega), Nat.div_mul_cancel divides]

theorem roundToDouble_again (value : Nat) : roundToDouble (roundToDouble value) = roundToDouble value := by
  by_cases safe : value < 2 ^ 53
  · rw [roundToDouble_small safe, roundToDouble_small safe]
  have digits : value / 2 ^ (value.log2 - 52) < 2 ^ 53 := by
    rw [Nat.div_lt_iff_lt_mul (Nat.pow_pos (by decide)), ← Nat.pow_add]
    refine Nat.lt_log2_self.trans_le (Nat.pow_le_pow_right (by decide) ?_)
    omega
  have result : Exists fun factor => factor ≤ 2 ^ 53 ∧
      roundToDouble value = factor * 2 ^ (value.log2 - 52) := by
    unfold roundToDouble
    rw [if_neg safe]
    dsimp only
    split
    · exact ⟨_, digits, rfl⟩
    · exact ⟨_, Nat.le_of_lt digits, rfl⟩
  rcases result with ⟨factor, small, rounded⟩
  rw [rounded, roundToDouble_multiple _ small]

theorem valueOf_append (digits more : List Char) :
    valueOf (digits ++ more) =
      more.foldl (fun value digit => value * 10 + (digit.toNat - 48)) (valueOf digits) :=
  List.foldl_append

theorem valueOf_zeros (digits : List Char) (power : Nat) :
    valueOf (digits ++ List.replicate power '0') = valueOf digits * 10 ^ power := by
  induction power with
  | zero => rw [List.replicate_zero, List.append_nil, Nat.pow_zero, Nat.mul_one]
  | succ power ih =>
      rw [List.replicate_succ', ← List.append_assoc, valueOf_append, ih, Nat.pow_succ,
        ← Nat.mul_assoc]
      rfl

theorem roundToDouble_shortest {value : Nat} (double : roundToDouble value = value) (power : Nat) :
    roundToDouble ((shortest value power).1 * 10 ^ (shortest value power).2) = value := by
  induction power with
  | zero => simpa only [shortest, Nat.pow_zero, Nat.mul_one] using double
  | succ power ih =>
      simp only [shortest]
      split
      · rename_i fits
        exact fits.1
      · split
        · rename_i fits
          exact fits
        · exact ih

/-- The number that a text without a sign stands for, before it is rounded. -/
def magnitude (text : List Char) : Nat :=
  let digits := (text.takeWhile (· ≠ 'e')).filter (· ≠ '.')
  let exponent := (text.dropWhile (· ≠ 'e')).drop 2
  if exponent = [] then valueOf digits else valueOf digits * 10 ^ (valueOf exponent + 1 - digits.length)

theorem mark_of_digits {digits : List Char} (areDigits : forall char, char ∈ digits -> char.isDigit = true)
    {mark : Char} (isMark : mark.isDigit = false) : forall char, char ∈ digits -> char ≠ mark := by
  rintro char member rfl
  rw [areDigits char member] at isMark
  cases isMark

theorem magnitude_digits {digits : List Char} (areDigits : forall char, char ∈ digits -> char.isDigit = true) :
    magnitude digits = valueOf digits := by
  have noExponent : forall char, char ∈ digits -> decide (char ≠ 'e') = true := fun char member =>
    decide_eq_true (mark_of_digits areDigits (by decide) char member)
  have noPoint : digits.filter (· ≠ '.') = digits := List.filter_eq_self.mpr fun char member =>
    decide_eq_true (mark_of_digits areDigits (by decide) char member)
  unfold magnitude
  rw [List.takeWhile_eq_self_iff.mpr noExponent, List.dropWhile_eq_nil_iff.mpr noExponent, noPoint]
  rfl

theorem magnitude_exponent (power : Nat) {mantissa digits : List Char}
    (noExponent : forall char, char ∈ mantissa -> char ≠ 'e') (pointless : mantissa.filter (· ≠ '.') = digits)
    (nonempty : digits ≠ []) :
    magnitude (mantissa ++ "e+".toList ++ decimal (digits.length + power - 1)) = valueOf digits * 10 ^ power := by
  have taken : (mantissa ++ "e+".toList ++ decimal (digits.length + power - 1)).takeWhile (· ≠ 'e') = mantissa := by
    rw [List.append_assoc, List.takeWhile_append_of_pos fun char member => decide_eq_true (noExponent char member)]
    exact List.append_nil _
  have dropped : ((mantissa ++ "e+".toList ++ decimal (digits.length + power - 1)).dropWhile (· ≠ 'e')).drop 2 =
      decimal (digits.length + power - 1) := by
    rw [List.append_assoc, List.dropWhile_append_of_pos fun char member => decide_eq_true (noExponent char member)]
    rfl
  have positive := List.length_pos_of_ne_nil nonempty
  unfold magnitude
  simp only [taken, dropped, pointless, if_neg (decimal_ne_nil _), valueOf_decimal]
  congr 2
  omega

theorem magnitude_doubleText (value : Nat) :
    magnitude (doubleText value) =
      (shortest value (decimal value).length).1 * 10 ^ (shortest value (decimal value).length).2 := by
  unfold doubleText
  rcases shortest value (decimal value).length with ⟨digits, power⟩
  have areDigits : forall char, char ∈ decimal digits -> char.isDigit = true := fun char => isDigit_of_mem_decimal
  dsimp only
  split
  · rw [magnitude_digits, valueOf_zeros, valueOf_decimal]
    intro char member
    rcases List.mem_append.mp member with digit | zero
    · exact areDigits char digit
    · rw [List.eq_of_mem_replicate zero]
      rfl
  · cases written : decimal digits with
    | nil => exact absurd written (decimal_ne_nil digits)
    | cons first rest =>
        rw [written] at areDigits
        have noExponent : forall char, char ∈ first :: rest -> char ≠ 'e' := mark_of_digits areDigits (by decide)
        have pointless : (first :: rest).filter (· ≠ '.') = first :: rest := List.filter_eq_self.mpr fun char member =>
          decide_eq_true (mark_of_digits areDigits (by decide) char member)
        have value : valueOf (first :: rest) = digits := written ▸ valueOf_decimal digits
        rw [← value]
        cases rest with
        | nil => exact magnitude_exponent power noExponent pointless (List.cons_ne_nil _ _)
        | cons second rest =>
            refine @magnitude_exponent power (first :: '.' :: second :: rest) _ ?_ ?_ (List.cons_ne_nil _ _)
            · intro char member
              rcases List.mem_cons.mp member with isFirst | inRest
              · exact noExponent char (isFirst ▸ List.mem_cons_self)
              · rcases List.mem_cons.mp inRest with point | inRest
                · rw [point]
                  decide
                · exact noExponent char (List.mem_cons_of_mem _ inRest)
            · rw [List.filter_cons] at pointless ⊢
              exact pointless

theorem roundToDouble_text {value : Nat} (double : roundToDouble value = value) :
    roundToDouble (magnitude (if value < 2 ^ 53 then decimal value else doubleText value)) = value := by
  split
  · rw [magnitude_digits fun _ => isDigit_of_mem_decimal, valueOf_decimal]
    exact double
  · rw [magnitude_doubleText]
    exact roundToDouble_shortest double _

theorem head_text (value : Nat) :
    Exists fun first => Exists fun rest =>
      (if value < 2 ^ 53 then decimal value else doubleText value) = first :: rest ∧ first.isDigit = true := by
  have head : forall number, Exists fun first => Exists fun rest =>
      decimal number = first :: rest ∧ first.isDigit = true := by
    intro number
    cases written : decimal number with
    | nil => exact absurd written (decimal_ne_nil number)
    | cons first rest =>
        exact ⟨first, rest, rfl, @isDigit_of_mem_decimal number first (written ▸ List.mem_cons_self)⟩
  split
  · exact head value
  · unfold doubleText
    rcases shortest value (decimal value).length with ⟨digits, power⟩
    rcases head digits with ⟨first, rest, written, isDigit⟩
    dsimp only
    split
    · exact ⟨first, rest ++ List.replicate power '0', by rw [written, List.cons_append], isDigit⟩
    · rw [written]
      cases rest with
      | nil => exact ⟨first, _, rfl, isDigit⟩
      | cons second rest => exact ⟨first, _, rfl, isDigit⟩

theorem numberText_injective {first second : Int} (isDouble : IsDouble first) (isDouble' : IsDouble second)
    (same : numberText first = numberText second) : first = second := by
  have magnitudes : forall {left right : Nat}, roundToDouble left = left -> roundToDouble right = right ->
      (if left < 2 ^ 53 then decimal left else doubleText left) =
        (if right < 2 ^ 53 then decimal right else doubleText right) -> left = right := by
    intro left right double double' texts
    rw [← roundToDouble_text double, texts, roundToDouble_text double']
  have signed : forall value : Nat, forall text : List Char,
      (if value < 2 ^ 53 then decimal value else doubleText value) ≠ '-' :: text := by
    intro value text written
    rcases head_text value with ⟨head, rest, begins, isDigit⟩
    rw [begins] at written
    rw [(List.cons.inj written).1] at isDigit
    cases isDigit
  unfold numberText withSign at same
  by_cases negative : first < 0 <;> by_cases negative' : second < 0
  · rw [decide_eq_true negative, decide_eq_true negative', if_pos rfl, if_pos rfl] at same
    have absolute := magnitudes isDouble isDouble' (List.cons.inj same).2
    omega
  · rw [decide_eq_true negative, decide_eq_false negative', if_pos rfl, if_neg Bool.false_ne_true] at same
    exact absurd same.symm (signed _ _)
  · rw [decide_eq_false negative, decide_eq_true negative', if_neg Bool.false_ne_true, if_pos rfl] at same
    exact absurd same (signed _ _)
  · rw [decide_eq_false negative, decide_eq_false negative', if_neg Bool.false_ne_true,
      if_neg Bool.false_ne_true] at same
    have absolute := magnitudes isDouble isDouble' same
    omega

end Doubles

end Numerals

end Foundation
end Dokploy
