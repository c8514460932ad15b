import MetricLayer.Value.Basic

/-!
# Sanitizing rows

`Value.sanitize` turns what an engine returns into values that every reader of results knows:
integers beyond 2^53 - 1 and decimal numbers become floating-point numbers, bytes an integer, and
dates, times and identifiers their text.
-/

namespace MetricLayer

open MetricLayer.Number

/-- Why a value cannot be sanitized. -/
inductive SanitizeFault where
  | tooLarge
  | signalingNan
deriving Repr, DecidableEq

/-- The greatest integer below which floating-point numbers hold every integer. -/
def greatestSafeInteger : Nat := 2 ^ (53 : Nat) - 1

/-- The integer that bytes write, the lowest byte first. -/
def littleEndian : List UInt8 → Nat
  | [] => 0
  | b :: bs => b.toNat + 256 * littleEndian bs

/-- How many bytes count as an integer. -/
def integerBytes : Nat := 8

/-- The value as every reader of results knows it. -/
def Value.sanitize : Value → Except SanitizeFault Value
  | .int n =>
    if n.natAbs ≤ greatestSafeInteger then .ok (.int n)
    else match Binary64.ofInt? n with
      | some x => .ok (.float x)
      | none => .error .tooLarge
  | .decimal d =>
    match d.toBinary64? with
    | some x => .ok (.float x)
    | none => .error .signalingNan
  | .bytes bs => .ok (.int (littleEndian (bs.take integerBytes)))
  | .date d => .ok (.text d.text)
  | .timestamp t => .ok (.text (t.textWith 'T'))
  | .duration d => .ok (.text d.text)
  | .uuid u => .ok (.text u.text)
  | v => .ok v

/-- The row with every value sanitized. -/
def sanitizeRow (row : Row) : Except SanitizeFault Row :=
  row.mapM fun (column, v) => (v.sanitize).map fun w => (column, w)

/-- The rows with every value sanitized. -/
def sanitizeRows (rows : List Row) : Except SanitizeFault (List Row) :=
  rows.mapM sanitizeRow

end MetricLayer
