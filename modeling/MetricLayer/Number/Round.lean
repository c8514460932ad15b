import MetricLayer.Number.Power

/-!
# Rounding a quotient

`nearestEven a b` is the natural number nearest to `a / b`; of two that are equally near it is the
even one.  It leaves an exact quotient alone.
-/

namespace MetricLayer.Number

/-- The natural number nearest to `num / den`, the even one of two. -/
def nearestEven (num den : Nat) : Nat :=
  let q := num / den
  let r := num % den
  if 2 * r < den then q
  else if 2 * r = den ∧ q % 2 = 0 then q
  else q + 1

theorem nearestEven_mul (n den : Nat) (h : 0 < den) : nearestEven (n * den) den = n := by
  simp [nearestEven, Nat.mul_div_cancel _ h, Nat.mul_mod_left, h]

/-- The floor of the base-two logarithm of `num / den`. -/
def floorLog2 (num den : Nat) : Int :=
  let k : Int := num.log2 - den.log2
  if den * 2 ^ k.toNat ≤ num * 2 ^ (-k).toNat then k else k - 1

/-- The decimal digits of a number, without leading zeros. -/
def decimalDigits (n : Nat) : List Char :=
  Nat.toDigits 10 n

/-- The floor of the base-ten logarithm of `num / den`. -/
def floorLog10 (num den : Nat) : Int :=
  let k : Int := (decimalDigits num).length - (decimalDigits den).length
  if den * 10 ^ k.toNat ≤ num * 10 ^ (-k).toNat then k else k - 1

end MetricLayer.Number
