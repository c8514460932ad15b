import MetricLayer.Value.Key
import MetricLayer.Value.Text

/-!
# Pivoting rows

`pivot` turns one row per cell into one row per category: the texts of a second column become
columns of their own.  Categories and columns keep the order in which they are first seen, and cells
that no row fills stay away.

A row whose category is no key, or whose second column has no text, is a `PivotFault`.
-/

namespace MetricLayer

/-- The value of a column; a column that is absent holds null. -/
def Row.cell (row : Row) (column : String) : Value :=
  (row.lookup column).getD .null

/-- Pivoted rows under their keys, with the texts that became columns. -/
structure Pivot where
  groups : List (Value × Row)
  series : List String
deriving Repr, Inhabited

namespace Pivot

/-- The pivoted rows. -/
def rows (p : Pivot) : List Row :=
  p.groups.map (·.2)

/-- Changes the row of a key; a key that is new starts with a row of its own. -/
def upsertGroup (key : Value) (start : Row) (f : Row → Row) :
    List (Value × Row) → List (Value × Row)
  | [] => [(key, f start)]
  | (k, row) :: groups =>
    if k.sameKey key then (k, f row) :: groups
    else (k, row) :: upsertGroup key start f groups

/-- Adds a text that is new. -/
def addSeries (s : String) (series : List String) : List String :=
  if series.contains s then series else series ++ [s]

/-- Adds the cell of a row. -/
def add (xKey seriesKey measure : String) (p : Pivot) (row : Row) : Pivot :=
  let x := Row.cell row xKey
  let s := (Row.cell row seriesKey).display
  { groups := upsertGroup x [(xKey, x)] (putEntry s (Row.cell row measure)) p.groups
    series := addSeries s p.series }

end Pivot

/-- Why rows cannot be pivoted: a category is no key, or an integer in the second column has too
many digits to be written. -/
inductive PivotFault where
  | notAKey (category : Value)
  | numeralTooLong
deriving Repr

/-- The fault of a row; its second column is written before its category is looked up. -/
def Pivot.fault? (xKey seriesKey : String) (row : Row) : Option PivotFault :=
  if !(Row.cell row seriesKey).hasDisplay then some .numeralTooLong
  else if !(Row.cell row xKey).isKey then some (.notAKey (Row.cell row xKey))
  else none

/-- Pivots rows: one row per value of `xKey`, one column per text of `seriesKey`. -/
def pivot (rows : List Row) (xKey seriesKey measure : String) : Except PivotFault Pivot :=
  match rows.findSome? (Pivot.fault? xKey seriesKey) with
  | some f => .error f
  | none => .ok (rows.foldl (Pivot.add xKey seriesKey measure) ⟨[], []⟩)

end MetricLayer
