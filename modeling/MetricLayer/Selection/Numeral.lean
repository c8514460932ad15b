import MetricLayer.Text.Digit
import MetricLayer.Text.Place

/-!
# Integers of selections

A selection may write an integer as a text, and more loosely than with a sign and digits: white space
and a plus sign may stand before it, zeros and underscores in front of its digits, single underscores
between them, and a point with zeros behind them.  `numeral` reads a text as it is first and tidied
second.
-/

namespace MetricLayer.Selection

open MetricLayer.Text

/-- Why a text is no integer. -/
inductive NumeralFault where
  | unreadable
  | tooLong
deriving Repr, DecidableEq

/-- A digit from 1 to 9. -/
def isLeadingDigit (c : Char) : Bool :=
  '1' ≤ c && c ≤ '9'

/-- Reads digits without leading zeros.  A row of digits that is too long is refused as such whatever
follows it; a sign before it counts as one more. -/
def digitRow (signLength : Nat) (cs : List Char) : Except NumeralFault Nat :=
  let row := cs.takeWhile Char.isDigit
  if cs = ['0'] then .ok 0
  else if !cs.head?.any isLeadingDigit then .error .unreadable
  else if digitLimit < signLength + row.length then .error .tooLong
  else if row.length = cs.length then .ok (naturalOf row)
  else .error .unreadable

/-- Reads digits after a minus sign perhaps. -/
def signedRow : List Char → Except NumeralFault Int
  | '-' :: cs => (digitRow 1 cs).map fun n => -(n : Int)
  | cs => (digitRow 0 cs).map Int.ofNat

/-- The text without the zeros and underscores in front of its digits.  Of a text that has no other
digits before its end or its point the last one stays. -/
def withoutLeadingZeros? (cs : List Char) : Option (List Char) :=
  match cs with
  | '0' :: rest =>
    let isZero (c : Char) : Bool := c == '0' || c == '_'
    let zeros := '0' :: rest.takeWhile isZero
    match rest.dropWhile isZero with
    | [] => some (zeros.drop (zeros.length - 1))
    | '.' :: places => some (zeros.drop (zeros.length - 1) ++ '.' :: places)
    | c :: digits => if startsNumeral c then some (c :: digits) else none
  | c :: digits => if startsNumeral c then some (c :: digits) else none
  | [] => none
where
  /-- What may follow the zeros. -/
  startsNumeral (c : Char) : Bool := isLeadingDigit c || c == '-'

/-- The text without a point and zeros at its end. -/
def withoutZeroPlaces (cs : List Char) : List Char :=
  match cs.dropWhile (· != '.') with
  | _ :: c :: places =>
    if (c :: places).all (· == '0') then cs.takeWhile (· != '.') else cs
  | _ => cs

/-- The text without underscores, if each of them stands between two other characters. -/
def withoutUnderscores (cs : List Char) : List Char :=
  if cs.head? = some '_' || cs.getLast? = some '_' || occurs ['_', '_'] cs then cs
  else cs.filter (· != '_')

/-- The text as a sign and digits, if its start allows it. -/
def tidied? (cs : List Char) : Option (List Char) :=
  let digits? (ds : List Char) := (withoutLeadingZeros? ds).map fun ds =>
    withoutUnderscores (withoutZeroPlaces ds)
  match dropBothWhile isIntegerBlank cs with
  | '+' :: '-' :: _ => none
  | '+' :: ds => digits? ds
  | '-' :: ds => (digits? ds).map ('-' :: ·)
  | ds => digits? ds

/-- Reads an integer as it is written, or else tidied. -/
def numeral (cs : List Char) : Except NumeralFault Int :=
  match signedRow cs with
  | .error .unreadable => ((tidied? cs).map signedRow).getD (.error .unreadable)
  | read => read

end MetricLayer.Selection
