import MetricLayer.Number.Binary64

/-!
# Shortest decimal text

The text of a floating-point number has the fewest digits that read back as the same number, and of
those the digits nearest to it.  `shortestDigits` finds them on the decimal grids of 1 to 17 digits;
`Binary64.text` sets them, positionally for decimal exponents from -4 to 15.
-/

namespace MetricLayer.Number

/-- The value `c * 10 ^ unit` reads back as `m * 2 ^ e`: it lies between the midpoints to the
neighbours, which count when the significand is even.  Below a power of two the neighbour is at half
the distance. -/
def readsBack (m : Nat) (e : Int) (c : Nat) (unit : Int) : Bool :=
  let below := if m = 2 ^ (52 : Nat) ∧ Binary64.leastExponent < e then 4 * m - 1 else 4 * m - 2
  let above := 4 * m + 2
  let value := c * 10 ^ unit.toNat * 2 ^ (2 - e).toNat
  let scale := 10 ^ (-unit).toNat * 2 ^ (e - 2).toNat
  if m % 2 = 0 then below * scale ≤ value && value ≤ above * scale
  else below * scale < value && value < above * scale

/-- The point of a decimal grid that reads back and is nearest to the value, if there is one. -/
def onGrid? (m : Nat) (e : Int) (unit : Int) : Option Nat :=
  let (num, den) := Binary64.ratio m e
  let num := num * 10 ^ (-unit).toNat
  let den := den * 10 ^ unit.toNat
  let near := nearestEven num den
  let floor := num / den
  let far := if near = floor then floor + 1 else floor
  if readsBack m e near unit then some near
  else if readsBack m e far unit then some far
  else none

/-- The shortest digits of `m * 2 ^ e` and the place of the point: the value is
`0.d₁d₂… * 10 ^ place`. -/
def shortestDigits (m : Nat) (e : Int) : List Char × Int :=
  let (num, den) := Binary64.ratio m e
  let top := floorLog10 num den
  let found := (List.range 17).findSome? fun (n : Nat) =>
    (onGrid? m e (top - n)).map fun c => (c, top - (n : Int))
  let (c, unit) := found.getD (nearestEven num den, 0)
  let digits := decimalDigits c
  ((digits.reverse.dropWhile (· == '0')).reverse, unit + digits.length)

/-- The digits of an exponent, two at least. -/
def exponentText (e : Int) : List Char :=
  let digits := decimalDigits e.natAbs
  (if e < 0 then '-' else '+') :: (if digits.length < 2 then '0' :: digits else digits)

/-- Digits with their point set: positional when the first digit stands for an exponent from -4 to
15, with an exponent otherwise. -/
def setPoint (digits : List Char) (place : Int) : List Char :=
  if place < -3 ∨ 16 < place then
    match digits with
    | [] => []
    | [d] => d :: 'e' :: exponentText (place - 1)
    | d :: ds => d :: '.' :: ds ++ 'e' :: exponentText (place - 1)
  else if place ≤ 0 then
    '0' :: '.' :: List.replicate (-place).toNat '0' ++ digits
  else if digits.length ≤ place.toNat then
    digits ++ List.replicate (place.toNat - digits.length) '0' ++ ['.', '0']
  else digits.take place.toNat ++ '.' :: digits.drop place.toNat

/-- The text of a floating-point number. -/
def Binary64.text : Binary64 → String
  | .nan => "nan"
  | .infinite s => if s then "-inf" else "inf"
  | .finite s m e =>
    let unsigned := if m = 0 then ['0', '.', '0'] else
      let (digits, place) := shortestDigits m e
      setPoint digits place
    String.ofList (if s then '-' :: unsigned else unsigned)

end MetricLayer.Number
