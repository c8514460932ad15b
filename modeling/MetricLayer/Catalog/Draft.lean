import MetricLayer.Catalog.Basic
import MetricLayer.Text.Place

/-!
# Drafted catalogs

`Catalog.draft` profiles a table from the names and engine types of its columns: columns that are
not plain numbers become dimensions under their label, numbers get total, average, least, greatest
and count, identifiers a count of distinct values, and the table a count of rows.
-/

namespace MetricLayer

open MetricLayer.Text

namespace Draft

/-- The engine type is a date or a time. -/
def isTemporalType (type : List Char) : Bool :=
  ["date", "time"].any fun w => hasLetters w type

/-- The engine type is a number. -/
def isNumericType (type : List Char) : Bool :=
  ["int", "decimal", "numeric", "double", "float", "real", "hugeint"].any fun w => hasLetters w type

/-- The name speaks of money. -/
def isCurrencyName (name : List Char) : Bool :=
  ["revenue", "amount", "price", "cost", "spend"].any fun w => hasLetters w name

/-- The name speaks of an identifier. -/
def isIdentifierName (name : List Char) : Bool :=
  isLetters "id" name || endsInLetters "_id" name || startsInLetters "uuid" name ||
    endsInLetters "_key" name

/-- The name speaks of a point in time. -/
def isTemporalName (name : List Char) : Bool :=
  hasLetters "date" name || endsInLetters "_at" name || endsInLetters "_on" name

/-- The column a name and an engine type describe. -/
def profile (name physicalType : String) : Field :=
  let type := upper physicalType.toList
  let column (ingestType category : String) : Field :=
    { name, physicalType := String.ofList type, ingestType, category }
  if "BOOL".toList.isPrefixOf type then
    { column "boolean" "categorical" with members := some [.bool true, .bool false] }
  else if isIdentifierName name.toList then
    column (if isNumericType type then "number" else "string") "identifier"
  else if isTemporalType type then column "timestamp" "temporal"
  else if isNumericType type then
    { column "number" "numerical" with
      sanitize := occurs "BIGINT".toList type || occurs "HUGEINT".toList type }
  else if isTemporalName name.toList then column "string" "temporal"
  else column "string" "categorical"

/-- The formula that counts the distinct values of a column. -/
def distinctCount (aliasName : String) (description : String) (f : Field) : Formula where
  aliasName := aliasName
  sql := "COUNT(DISTINCT " ++ f.name ++ ")"
  source := f.name
  description := .text description

/-- The aggregations of a numeric column; all but the count are money when the name says so. -/
def numericAggregations (f : Field) : List Aggregation :=
  let money := isCurrencyName f.name.toList
  let plain (start function : String) : Aggregation :=
    { aliasName := start ++ "_" ++ f.name, function, source := f.name }
  let shown (start function : String) : Aggregation :=
    if money then
      { plain start function with format := .text "currency", decimals := 2, currency := .text "USD" }
    else plain start function
  [shown "total" "sum", shown "avg" "avg", shown "min" "min", shown "max" "max",
   plain "count" "count"]

/-- What is measured on a column without being asked for. -/
def measure? (f : Field) : Option Measure :=
  if f.category = "numerical" then
    some { source := f.name
           aggregations := numericAggregations f
           formulas := [distinctCount ("unique_" ++ f.name ++ "_vals") "" f] }
  else if f.category = "identifier" then
    let described := "Distinct " ++ within lower (label f.name) ++ " values"
    some { source := f.name, formulas := [distinctCount ("unique_" ++ f.name) described f] }
  else none

/-- Replaces the item of a key, or adds it at the end. -/
def upsert {α : Type} (key : α → String) (a : α) : List α → List α
  | [] => [a]
  | b :: bs => if key b = key a then a :: bs else b :: upsert key a bs

/-- Adds a column to a drafted catalog. -/
def addColumn (c : Catalog) (column : String × String) : Catalog :=
  let f := profile column.1 column.2
  let dimensions :=
    if ["categorical", "temporal", "identifier"].contains f.category then
      upsert Dimension.source { source := f.name, aliasName := label f.name } c.dimensions
    else c.dimensions
  let measures := match measure? f with
    | some m => upsert Measure.source m c.measures
    | none => c.measures
  { c with fields := upsert Field.name f c.fields, dimensions, measures }

/-- The count of rows. -/
def rowCount : Measure where
  source := rowSource
  aggregations := [{ aliasName := "row_count", function := "count", source := rowSource }]

end Draft

/-- Profiles a table from its columns, each a name with an engine type. -/
def Catalog.draft (table : String) (columns : List (String × String)) (description : String) :
    Catalog :=
  let described := if description = "" then "Auto-profiled table " ++ table else description
  let c := columns.foldl Draft.addColumn { table, description := .text described }
  { c with measures := Draft.upsert Measure.source Draft.rowCount c.measures }

end MetricLayer
