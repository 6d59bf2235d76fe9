import Mathlib.Data.Rat.Defs

namespace Dokploy
namespace Foundation

/-!
# Numbers of the language

A number is a rational, an infinity or not a number.  Comparisons are exact, and
every comparison with something that is not a number fails.  A sum is the exact
sum after rounding; what is proved with these numbers holds for every rounding,
so the rounding is a parameter.
-/

inductive Number where
  | nan
  | negativeInfinity
  | finite (value : Rat)
  | infinity
  deriving DecidableEq

namespace Number

def ofNat (value : Nat) : Number := .finite value

def less : Number -> Number -> Bool
  | .nan, _ => false
  | _, .nan => false
  | _, .negativeInfinity => false
  | .negativeInfinity, _ => true
  | .infinity, _ => false
  | .finite _, .infinity => true
  | .finite first, .finite second => decide (first < second)

/-- first <= second -/
def atMost : Number -> Number -> Bool
  | .nan, _ => false
  | _, .nan => false
  | .negativeInfinity, _ => true
  | _, .infinity => true
  | _, .negativeInfinity => false
  | .infinity, .finite _ => false
  | .finite first, .finite second => decide (first ≤ second)

/-- first + second -/
def plus (round : Rat -> Number) : Number -> Number -> Number
  | .nan, _ => .nan
  | _, .nan => .nan
  | .infinity, .negativeInfinity => .nan
  | .negativeInfinity, .infinity => .nan
  | .infinity, _ => .infinity
  | _, .infinity => .infinity
  | .negativeInfinity, _ => .negativeInfinity
  | _, .negativeInfinity => .negativeInfinity
  | .finite first, .finite second => round (first + second)

/-- Math.min(first, second) -/
def min (first second : Number) : Number :=
  if first = .nan ∨ second = .nan then .nan else if second.less first then second else first

/-- Math.max(first, second) -/
def max (first second : Number) : Number :=
  if first = .nan ∨ second = .nan then .nan else if first.less second then second else first

/-- Number.isFinite(value) -/
def isFinite : Number -> Bool
  | .finite _ => true
  | _ => false

def negated : Number -> Number
  | .nan => .nan
  | .negativeInfinity => .infinity
  | .finite value => .finite (-value)
  | .infinity => .negativeInfinity

theorem not_less_of_atMost {first second : Number} (atMost : first.atMost second = true) :
    second.less first = false := by
  cases first with
  | nan => cases second <;> rfl
  | negativeInfinity => cases second <;> rfl
  | infinity =>
      cases second with
      | infinity => rfl
      | nan => rfl
      | negativeInfinity => cases atMost
      | finite value => cases atMost
  | finite first =>
      cases second with
      | infinity => rfl
      | nan => rfl
      | negativeInfinity => cases atMost
      | finite second => exact decide_eq_false (Rat.not_lt.mpr (of_decide_eq_true atMost))

theorem atMost_later {first : Number} {now later : Nat} (atMost : first.atMost (ofNat now) = true)
    (passed : now ≤ later) : first.atMost (ofNat later) = true := by
  cases first with
  | nan => cases atMost
  | negativeInfinity => rfl
  | infinity => cases atMost
  | finite value =>
      have bound : (now : Rat) ≤ later := Rat.natCast_le_natCast.mpr passed
      exact decide_eq_true (Rat.le_trans (of_decide_eq_true atMost) bound)

end Number
end Foundation
end Dokploy
