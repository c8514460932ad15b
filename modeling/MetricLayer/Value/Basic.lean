import MetricLayer.Value.Calendar
import MetricLayer.Number.Decimal
import MetricLayer.Number.Shortest

/-!
# Values

A value is what a catalog feed holds or an engine returns for a cell.  Feeds hold the first seven
kinds only.  A mapping is a list of entries in insertion order, with every key once.
-/

namespace MetricLayer

open MetricLayer.Number

/-- A value of a catalog feed or of a result cell. -/
inductive Value where
  | null
  | bool (b : Bool)
  | int (n : Int)
  | float (x : Binary64)
  | text (s : String)
  | list (items : List Value)
  | object (entries : List (String × Value))
  | decimal (d : Decimal)
  | bytes (bs : List UInt8)
  | date (d : Date)
  | timestamp (t : Timestamp)
  | duration (d : Duration)
  | uuid (u : Uuid)
deriving Repr, Inhabited

/-- A row of a result: cells by column name, in column order. -/
abbrev Row := List (String × Value)

/-- Puts a value under a key: a key that is present keeps its place. -/
def putEntry {α : Type} (key : String) (a : α) : List (String × α) → List (String × α)
  | [] => [(key, a)]
  | (k, b) :: es => if k = key then (k, a) :: es else (k, b) :: putEntry key a es

/-- Entries with every key once: the first place and the last value of a repeated key stay. -/
def mergeEntries {α : Type} (entries : List (String × α)) : List (String × α) :=
  entries.foldl (fun es e => putEntry e.1 e.2 es) []

theorem lookup_putEntry {α : Type} (key k : String) (a : α) (es : List (String × α)) :
    (putEntry key a es).lookup k = if k = key then some a else es.lookup k := by
  induction es with
  | nil => simp only [putEntry, List.lookup_cons, List.lookup_nil]; split <;> simp_all
  | cons e es ih =>
    simp only [putEntry]
    split <;> simp only [List.lookup_cons, ih] <;> grind

namespace Value

/-- The value is taken as present: neither null, false, zero, nor empty. -/
def truth : Value → Bool
  | .null => false
  | .bool b => b
  | .int n => n != 0
  | .float x => !x.isZero
  | .text s => s != ""
  | .list xs => !xs.isEmpty
  | .object es => !es.isEmpty
  | .decimal (.finite _ ds _) => ds != 0
  | .bytes bs => !bs.isEmpty
  | .duration d => d.microseconds != 0
  | _ => true

/-- The value, if it is taken as present. -/
def present? (v : Value) : Option Value :=
  if v.truth then some v else none

/-- The value is a text. -/
def isText : Value → Bool
  | .text _ => true
  | _ => false

/-- The value under a key of a mapping; a key that is absent has none. -/
def get? (key : String) : Value → Option Value
  | .object es => es.lookup key
  | _ => none

/-- The name of a value's kind in messages. -/
def kindName : Value → String
  | .null => "NoneType"
  | .bool _ => "bool"
  | .int _ => "int"
  | .float _ => "float"
  | .text _ => "str"
  | .list _ => "list"
  | .object _ => "dict"
  | .decimal _ => "Decimal"
  | .bytes _ => "bytes"
  | .date _ => "date"
  | .timestamp _ => "datetime"
  | .duration _ => "timedelta"
  | .uuid _ => "UUID"

end Value

end MetricLayer
