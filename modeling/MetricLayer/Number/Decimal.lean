import MetricLayer.Number.Binary64
import MetricLayer.Text.Digit
import MetricLayer.Text.Case

/-!
# Decimal numbers

A decimal number keeps its digits and its exponent, so 12.50 and 12.5 are different texts of equal
numbers.  `ofText?` reads one and `text` writes it; `text` is positional down to an exponent of -6
as long as no digits would have to be added.
-/

namespace MetricLayer.Number

open MetricLayer.Text

/-- A decimal number `± digits * 10 ^ exponent`, or one of the special values.  A nan may signal and
may carry a number. -/
inductive Decimal where
  | finite (negative : Bool) (digits : Nat) (exponent : Int)
  | infinite (negative : Bool)
  | nan (negative signaling : Bool) (payload : Nat)
deriving Repr, DecidableEq, Inhabited

namespace Decimal

/-- An exponent mark with its exponent, or nothing. -/
def readExponent? : List Char → Option Int
  | [] => some 0
  | c :: cs =>
    if c.toLower != 'e' then none
    else
      let (negative, ds) := match cs with
        | '-' :: ds => (true, ds)
        | '+' :: ds => (false, ds)
        | ds => (false, ds)
      if ds.isEmpty || !ds.all isDigit then none
      else some (if negative then -(naturalOf ds : Int) else naturalOf ds)

/-- Reads an unsigned decimal number: digits with at most one point, at least one digit, and an
optional exponent. -/
def readNumber? (negative : Bool) (cs : List Char) : Option Decimal :=
  let whole := cs.takeWhile isDigit
  let (places, rest) := match cs.dropWhile isDigit with
    | '.' :: rest => (rest.takeWhile isDigit, rest.dropWhile isDigit)
    | rest => ([], rest)
  if whole.isEmpty && places.isEmpty then none
  else (readExponent? rest).map fun e =>
    .finite negative (naturalOf (whole ++ places)) (e - places.length)

/-- Reads an unsigned decimal number or a special value, in any letter case. -/
def readUnsigned? (negative : Bool) (cs : List Char) : Option Decimal :=
  let low := cs.map Char.toLower
  let payload? (ds : List Char) := if ds.all isDigit then some (naturalOf ds) else none
  if low == "inf".toList || low == "infinity".toList then some (.infinite negative)
  else match "nan".toList.isPrefixOf? low, "snan".toList.isPrefixOf? low with
    | some ds, _ => (payload? ds).map (.nan negative false ·)
    | none, some ds => (payload? ds).map (.nan negative true ·)
    | none, none => readNumber? negative cs

/-- Reads a decimal number; white space around it and underscores in it are ignored. -/
def ofText? (s : String) : Option Decimal :=
  match (trim s.toList).filter (· != '_') with
  | '-' :: cs => readUnsigned? true cs
  | '+' :: cs => readUnsigned? false cs
  | cs => readUnsigned? false cs

/-- The text of `digits * 10 ^ exponent`. -/
def unsignedText (digits : Nat) (exponent : Int) : List Char :=
  let ds := decimalDigits digits
  let top : Int := exponent + ds.length
  let place : Int := if exponent ≤ 0 ∧ -6 < top then top else 1
  let body :=
    if place ≤ 0 then '0' :: '.' :: List.replicate (-place).toNat '0' ++ ds
    else if ds.length ≤ place.toNat then ds ++ List.replicate (place.toNat - ds.length) '0'
    else ds.take place.toNat ++ '.' :: ds.drop place.toNat
  if top = place then body
  else
    let e := top - place
    body ++ 'E' :: (if e < 0 then '-' else '+') :: decimalDigits e.natAbs

/-- The text of a decimal number. -/
def text : Decimal → String
  | .finite s ds e => String.ofList (if s then '-' :: unsignedText ds e else unsignedText ds e)
  | .infinite s => if s then "-Infinity" else "Infinity"
  | .nan s signaling payload =>
    (if s then "-" else "") ++ (if signaling then "sNaN" else "NaN") ++
      (if payload = 0 then "" else String.ofList (decimalDigits payload))

/-- The nearest floating-point number; a signaling nan has none. -/
def toBinary64? : Decimal → Option Binary64
  | .finite s ds e => some (Binary64.ofDecimal s ds e)
  | .infinite s => some (.infinite s)
  | .nan _ signaling _ => if signaling then none else some .nan

/-- The integer part of a finite decimal number. -/
def truncate? : Decimal → Option Int
  | .finite s ds e =>
    let n : Int := (ds * 10 ^ e.toNat / 10 ^ (-e).toNat : Nat)
    some (if s then -n else n)
  | _ => none

end Decimal

end MetricLayer.Number
