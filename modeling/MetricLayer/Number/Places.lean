import MetricLayer.Number.Binary64

/-!
# A fixed number of places

The text of a number rounded to a fixed number of decimal places, with a comma between groups of
three digits.  The exact binary value is rounded, a half to the even neighbour.
-/

namespace MetricLayer.Number

/-- Commas after every third digit, for digits from the last to the first. -/
def groupFromEnd : List Char → List Char
  | a :: b :: c :: d :: ds => a :: b :: c :: ',' :: groupFromEnd (d :: ds)
  | ds => ds

/-- Digits with a comma before every group of three counted from the right. -/
def grouped (digits : List Char) : List Char :=
  (groupFromEnd digits.reverse).reverse

/-- The text of `scaled / 10 ^ places`. -/
def placesText (scaled places : Nat) : List Char :=
  let whole := grouped (decimalDigits (scaled / 10 ^ places))
  if places = 0 then whole
  else
    let digits := decimalDigits (scaled % 10 ^ places)
    whole ++ '.' :: List.replicate (places - digits.length) '0' ++ digits

/-- The magnitude of a number with a fixed number of places. -/
def Binary64.magnitudeText (places : Nat) : Binary64 → List Char
  | .nan => "nan".toList
  | .infinite _ => "inf".toList
  | .finite _ m e =>
    let (num, den) := Binary64.ratio m e
    placesText (nearestEven (num * 10 ^ places) den) places

end MetricLayer.Number
