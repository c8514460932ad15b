import MetricLayer.Text.Quoted
import MetricLayer.Number.Round

/-!
# Dates, durations and identifiers

The calendar values an engine returns, with their texts.  `Timestamp.sameInstant` compares
timestamps with an offset by the instant they name.
-/

namespace MetricLayer

open MetricLayer.Text MetricLayer.Number

/-- A number with zeros in front up to a width. -/
def padded (width n : Nat) : List Char :=
  let digits := decimalDigits n
  List.replicate (width - digits.length) '0' ++ digits

/-- A calendar date. -/
structure Date where
  year : Nat
  month : Nat
  day : Nat
deriving Repr, DecidableEq, Inhabited

/-- The number of days of a month. -/
def monthLength (year month : Nat) : Nat :=
  if month = 2 then
    if year % 4 = 0 ∧ (year % 100 ≠ 0 ∨ year % 400 = 0) then 29 else 28
  else if [4, 6, 9, 11].contains month then 30
  else 31

/-- The date is in the calendar, whose years have four digits at most. -/
def Date.isReal (d : Date) : Bool :=
  1 ≤ d.year && d.year ≤ 9999 && 1 ≤ d.month && d.month ≤ 12 &&
    1 ≤ d.day && d.day ≤ monthLength d.year d.month

/-- The date as year, month and day with hyphens. -/
def Date.text (d : Date) : String :=
  String.ofList (padded 4 d.year ++ '-' :: padded 2 d.month ++ '-' :: padded 2 d.day)

/-- The number of days from a fixed day to the date; years start in March. -/
def Date.dayNumber (d : Date) : Int :=
  let y : Int := if d.month ≤ 2 then (d.year : Int) - 1 else d.year
  let m : Int := ((d.month : Int) + 9) % 12
  365 * y + y / 4 - y / 100 + y / 400 + (153 * m + 2) / 5 + d.day

/-- A date with a time of day and, perhaps, an offset from universal time in minutes. -/
structure Timestamp where
  date : Date
  hour : Nat
  minute : Nat
  second : Nat
  microsecond : Nat
  offset : Option Int
deriving Repr, DecidableEq, Inhabited

/-- The date and the time of day are real, and the offset is less than a day. -/
def Timestamp.isReal (t : Timestamp) : Bool :=
  t.date.isReal && t.hour < 24 && t.minute < 60 && t.second < 60 && t.microsecond < 1000000 &&
    t.offset.all fun m => m.natAbs < 24 * 60

/-- Microseconds with their point, when there are any. -/
def microText (us : Nat) : List Char :=
  if us = 0 then [] else '.' :: padded 6 us

/-- The timestamp with a given character between date and time. -/
def Timestamp.textWith (sep : Char) (t : Timestamp) : String :=
  let zone := match t.offset with
    | none => []
    | some m =>
      (if m < 0 then '-' else '+') :: padded 2 (m.natAbs / 60) ++ ':' :: padded 2 (m.natAbs % 60)
  String.ofList (t.date.text.toList ++ sep :: padded 2 t.hour ++ ':' :: padded 2 t.minute ++
    ':' :: padded 2 t.second ++ microText t.microsecond ++ zone)

/-- The microseconds from a fixed instant to the timestamp in universal time. -/
def Timestamp.instant (t : Timestamp) : Int :=
  (((t.date.dayNumber * 24 + t.hour) * 60 + t.minute - t.offset.getD 0) * 60 + t.second) * 1000000 +
    t.microsecond

/-- Both have an offset and name one instant, or both have none and show one time. -/
def Timestamp.sameInstant (s t : Timestamp) : Bool :=
  s.offset.isSome == t.offset.isSome && s.instant == t.instant

/-- A signed duration in microseconds. -/
structure Duration where
  microseconds : Int
deriving Repr, DecidableEq, Inhabited

/-- Whole days, rounded down. -/
def Duration.days (d : Duration) : Int :=
  d.microseconds.fdiv (86400 * 1000000)

/-- The duration is shorter than a milliard of days. -/
def Duration.isReal (d : Duration) : Bool :=
  d.days.natAbs < 1000000000

/-- The seconds after the whole days. -/
def Duration.seconds (d : Duration) : Nat :=
  (d.microseconds.fmod (86400 * 1000000)).toNat / 1000000

/-- The microseconds after the whole seconds. -/
def Duration.micros (d : Duration) : Nat :=
  (d.microseconds.fmod (86400 * 1000000)).toNat % 1000000

/-- Hours, minutes and seconds, after the days when there are any. -/
def Duration.text (d : Duration) : String :=
  let s := d.seconds
  let clock := decimalDigits (s / 3600) ++ ':' :: padded 2 (s / 60 % 60) ++ ':' :: padded 2 (s % 60) ++
    microText d.micros
  let days := if d.days = 0 then ""
    else toString d.days ++ (if d.days.natAbs = 1 then " day, " else " days, ")
  days ++ String.ofList clock

/-- A 128-bit identifier. -/
structure Uuid where
  value : Nat
deriving Repr, DecidableEq, Inhabited

/-- The identifier as 32 hexadecimal digits in five groups. -/
def Uuid.text (u : Uuid) : String :=
  let ds := hexDigits 32 u.value
  String.ofList (ds.take 8 ++ '-' :: (ds.drop 8).take 4 ++ '-' :: (ds.drop 12).take 4 ++
    '-' :: (ds.drop 16).take 4 ++ '-' :: ds.drop 20)

end MetricLayer
