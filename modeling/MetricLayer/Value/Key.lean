import MetricLayer.Value.Basic

/-!
# Values as keys

Rows are gathered under the value of a cell.  Numbers of all kinds are one key when they are equal,
a nan is a key of its own each time, and lists and mappings are no keys.
-/

namespace MetricLayer

open MetricLayer.Number

/-- The exact value of a number: a quotient or an infinity. -/
inductive Exact where
  | ratio (num : Int) (den : Nat)
  | infinite (negative : Bool)
deriving Repr, DecidableEq

/-- Equality of exact values. -/
def Exact.same : Exact → Exact → Bool
  | .ratio a b, .ratio c d => a * d == c * b
  | .infinite s, .infinite t => s == t
  | _, _ => false

namespace Value

/-- The exact value of a number of any kind; a nan has none. -/
def numeric? : Value → Option Exact
  | .bool b => some (.ratio (if b then 1 else 0) 1)
  | .int n => some (.ratio n 1)
  | .float (.finite s m e) =>
    let (num, den) := Binary64.ratio m e
    some (.ratio (if s then -(num : Int) else num) den)
  | .float (.infinite s) => some (.infinite s)
  | .decimal (.finite s ds e) =>
    let num := ds * 10 ^ e.toNat
    some (.ratio (if s then -(num : Int) else num) (10 ^ (-e).toNat))
  | .decimal (.infinite s) => some (.infinite s)
  | _ => none

/-- The value can be a key. -/
def isKey : Value → Bool
  | .list _ => false
  | .object _ => false
  | .decimal (.nan _ signaling _) => !signaling
  | _ => true

/-- The two values are one key. -/
def sameKey (v w : Value) : Bool :=
  match v.numeric?, w.numeric? with
  | some a, some b => a.same b
  | some _, none => false
  | none, some _ => false
  | none, none =>
    match v, w with
    | .null, .null => true
    | .text s, .text t => s == t
    | .bytes a, .bytes b => a == b
    | .date a, .date b => a == b
    | .timestamp a, .timestamp b => a.sameInstant b
    | .duration a, .duration b => a == b
    | .uuid a, .uuid b => a == b
    | _, _ => false

end Value

end MetricLayer
