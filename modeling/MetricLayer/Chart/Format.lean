import MetricLayer.Catalog.Basic
import MetricLayer.Value.Integer
import MetricLayer.Number.Places

/-!
# Formats of measures

A format hint says how the values of a measure are shown: as a plain number, an amount of money or a
percentage, and with how many places.  `formatValue` shows a value by a hint; hints are values, as a
chart carries them, and may lack any part.
-/

namespace MetricLayer

open MetricLayer.Text MetricLayer.Number

/-- How the values of a measure are shown. -/
structure FormatHint where
  format : Value := .text "number"
  decimals : Int := 0
  currency : Option Value := none
deriving Repr, Inhabited

/-- The hint as a chart carries it. -/
def FormatHint.value (h : FormatHint) : Value :=
  .object ([("type", h.format), ("decimals", .int h.decimals)] ++
    h.currency.toList.map fun v => ("currency", v))

/-- The hint for a measure; without an entry in a catalog it is a whole number. -/
def formatHint (c : Option Catalog) (measure : String) : FormatHint :=
  match c.bind fun c => c.entry? measure with
  | none => {}
  | some e => { format := e.format, decimals := e.decimals, currency := e.currency.present? }

/-- Why a value cannot be shown. -/
inductive FormatFault where
  | notAHint
  | badDecimals (f : IntegerFault)
  | placesOutOfRange
  | tooLarge
  | numeralTooLong
deriving Repr, DecidableEq

/-- The greatest number of places a number is shown with. -/
def greatestPlaces : Nat := 2147483647

/-- The greatest number of places a hint can ask for. -/
def greatestHintedPlaces : Int := 9223372036854775807

/-- The value is a given text. -/
def Value.isTextOf (s : String) : Value → Bool
  | .text t => t == s
  | _ => false

/-- The number of places a hint asks for. -/
def hintedPlaces (hint : Value) : Except FormatFault Nat := do
  let n ← (((hint.get? "decimals").getD (.int 0)).toInteger).mapError FormatFault.badDecimals
  if n < 0 ∨ greatestHintedPlaces < n then .error .placesOutOfRange else .ok n.toNat

/-- The text of a value, unless an integer in it has too many digits to be written. -/
def displayed (v : Value) : Except FormatFault String :=
  if v.hasDisplay then .ok v.display else .error .numeralTooLong

/-- What stands before an amount of money. -/
def currencySymbol (hint : Value) : Except FormatFault String :=
  match hint.get? "currency" with
  | none => .ok "$"
  | some v => if v.isTextOf "USD" then .ok "$" else (displayed v).map (· ++ " ")

/-- A number with the sign and the marks its hint asks for. -/
def markNumber (hint : Value) (negative : Bool) (magnitude : String) : Except FormatFault String :=
  let sign := if negative then "-" else ""
  let format := (hint.get? "type").getD (.text "number")
  if format.isTextOf "currency" then (currencySymbol hint).map fun symbol => sign ++ symbol ++ magnitude
  else if format.isTextOf "percentage" then .ok (sign ++ magnitude ++ "%")
  else .ok (sign ++ magnitude)

/-- Shows a number by a hint. -/
def formatNumber (x : Option Binary64) (negative : Bool) (hint : Value) :
    Except FormatFault String :=
  let hint := if hint.truth then hint else .object []
  match hint with
  | .object _ => do
    let places ← hintedPlaces hint
    match x with
    | none => .error .tooLarge
    | some x =>
      if greatestPlaces < places then .error .placesOutOfRange
      else markNumber hint negative (String.ofList (x.magnitudeText places))
  | _ => .error .notAHint

/-- Shows a value by a hint: numbers as the hint says, nothing for null, and all else as its text. -/
def formatValue (v hint : Value) : Except FormatFault String :=
  match v with
  | .null => .ok ""
  | .int n => formatNumber (Binary64.ofInt? n) (n < 0) hint
  | .float x => formatNumber (some x) x.isNegative hint
  | v => displayed v

end MetricLayer
