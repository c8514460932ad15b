/-!
# Powers

The powers of natural numbers and integers are the built-in ones, also where a library knows others.
-/

namespace MetricLayer.Number

instance (priority := high) naturalPower : Pow Nat Nat :=
  instPowNat

instance (priority := high) integerPower : Pow Int Nat :=
  instPowNat

end MetricLayer.Number
