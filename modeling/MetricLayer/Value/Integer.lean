import MetricLayer.Value.Basic
import MetricLayer.Text.Digit

/-!
# Reading a value as an integer

Numbers lose their fraction and texts are read digit by digit.
-/

namespace MetricLayer

open MetricLayer.Text

/-- Why a value has no integer. -/
inductive IntegerFault where
  | notANumber
  | unreadable
  | infinite
deriving Repr, DecidableEq

/-- The character of a byte in a number; what may stand in a number of characters alone is replaced. -/
def byteChar (b : UInt8) : Char :=
  if b < 28 ∨ 32 ≤ b ∧ b < 128 then Char.ofNat b.toNat else '?'

/-- The value as an integer. -/
def Value.toInteger : Value → Except IntegerFault Int
  | .bool b => .ok (if b then 1 else 0)
  | .int n => .ok n
  | .float .nan => .error .unreadable
  | .float (.infinite _) => .error .infinite
  | .float x => .ok (x.truncate?.getD 0)
  | .text s => ((integer? s.toList).map Except.ok).getD (.error .unreadable)
  | .decimal (.infinite _) => .error .infinite
  | .decimal d => (d.truncate?.map Except.ok).getD (.error .unreadable)
  | .bytes bs =>
    ((integer? (bs.map byteChar)).map Except.ok).getD (.error .unreadable)
  | .uuid u => .ok u.value
  | _ => .error .notANumber

end MetricLayer
