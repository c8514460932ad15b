import MetricLayer.Number.Round

/-!
# Floating-point numbers

`Binary64` holds the values of the 64-bit binary format as exact numbers: a sign, a significand
below 2^53 and an exponent of two.  Every conversion into it rounds to nearest, ties to even, and
goes through `ofRatio`; numbers are compared exactly, without rounding.
-/

namespace MetricLayer.Number

/-- A value of the 64-bit binary format.  `finite s m e` is `± m * 2 ^ e`; the exponent is -1074 or
the significand has 53 bits, so that a value has one form. -/
inductive Binary64 where
  | finite (negative : Bool) (significand : Nat) (exponent : Int)
  | infinite (negative : Bool)
  | nan
deriving Repr, DecidableEq, Inhabited

namespace Binary64

/-- The least exponent of two. -/
def leastExponent : Int := -1074

/-- The greatest exponent of two. -/
def greatestExponent : Int := 971

/-- Zero with a sign. -/
def zero (negative : Bool) : Binary64 :=
  .finite negative 0 leastExponent

/-- The value nearest to `± num / den`, infinite beyond the greatest. -/
def ofRatio (negative : Bool) (num den : Nat) : Binary64 :=
  if num = 0 then zero negative
  else
    let e := max leastExponent (floorLog2 num den - 52)
    let m := nearestEven (num * 2 ^ (-e).toNat) (den * 2 ^ e.toNat)
    let (m, e) := if m = 2 ^ (53 : Nat) then (2 ^ (52 : Nat), e + 1) else (m, e)
    if m = 0 then zero negative
    else if greatestExponent < e then .infinite negative
    else .finite negative m e

/-- The value nearest to `± digits * 10 ^ exponent`.  Exponents far outside the range of the format
are answered without building the power. -/
def ofDecimal (negative : Bool) (digits : Nat) (exponent : Int) : Binary64 :=
  let top : Int := exponent + (decimalDigits digits).length
  if digits = 0 ∨ top < -400 then zero negative
  else if 400 < top then .infinite negative
  else ofRatio negative (digits * 10 ^ exponent.toNat) (10 ^ (-exponent).toNat)

/-- The value nearest to an integer, or none beyond the greatest finite value. -/
def ofInt? (n : Int) : Option Binary64 :=
  match ofRatio (n < 0) n.natAbs 1 with
  | .infinite _ => none
  | x => some x

/-- The magnitude of a finite value as a quotient. -/
def ratio (significand : Nat) (exponent : Int) : Nat × Nat :=
  (significand * 2 ^ exponent.toNat, 2 ^ (-exponent).toNat)

/-- Below zero; neither zero nor nan is. -/
def isNegative : Binary64 → Bool
  | .finite s m _ => s && m != 0
  | .infinite s => s
  | .nan => false

/-- Above zero; neither zero nor nan is. -/
def isPositive : Binary64 → Bool
  | .finite s m _ => !s && m != 0
  | .infinite s => !s
  | .nan => false

/-- Neither zero; a nan is not zero. -/
def isZero : Binary64 → Bool
  | .finite _ m _ => m == 0
  | _ => false

/-- The integer part of a finite value. -/
def truncate? : Binary64 → Option Int
  | .finite s m e =>
    let (num, den) := ratio m e
    let n : Int := (num / den : Nat)
    some (if s then -n else n)
  | _ => none

/-- The value as an integer, if it is one. -/
def integral? : Binary64 → Option Int
  | .finite s m e =>
    let (num, den) := ratio m e
    if num % den = 0 then truncate? (.finite s m e) else none
  | _ => none

end Binary64

end MetricLayer.Number
