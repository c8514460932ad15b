import MetricLayer.Selection.Basic
import MetricLayer.Catalog.Basic
import MetricLayer.Sql.Statement
import MetricLayer.Sql.Alias

/-!
# The statement of a selection

`Selection.statement` looks the aliases of a selection up in a catalog and writes the items, groups,
conditions and ordering of its statement; `Selection.sql` is the text.  A column of dates that was
ingested as text is read as a timestamp in whichever notation it has.
-/

namespace MetricLayer

open MetricLayer.Text MetricLayer.Sql

/-- What an alias stands for. -/
inductive AliasRole where
  | dimension
  | measure
deriving Repr, DecidableEq

/-- The name of a role. -/
def AliasRole.name : AliasRole → String
  | .dimension => "dimension"
  | .measure => "measure"

/-- Why a selection has no statement: an alias is unknown or has no SQL, or a number has too many
digits to be written. -/
inductive CompileFault where
  | nothingSelected (table : String)
  | unknownAlias (name table : String) (role : AliasRole)
  | unknownFunction (function : String)
  | numeralTooLong
deriving Repr, DecidableEq

/-- The message for an alias that a table does not have. -/
def unknownAliasMessage (name table role : String) : String :=
  "Unknown " ++ role ++ " alias '" ++ name ++ "' for table '" ++ table ++ "'"

/-- The wording of a fault. -/
def CompileFault.message : CompileFault → String
  | .nothingSelected t => "QuerySpec for table '" ++ t ++ "' selects no dimensions or measures"
  | .unknownAlias n t r => unknownAliasMessage n t r.name
  | .unknownFunction f => quoted f
  | .numeralTooLong => digitLimitMessage ""

/-- The notations of dates, in the order in which they are tried. -/
def dateNotations : List String :=
  ["%m/%d/%Y", "%d/%m/%Y", "%Y-%m-%d", "%Y/%m/%d", "%m-%d-%Y"]

/-- An expression read as a timestamp: as it is, or else in the first notation it has. -/
def temporalCast (expression : String) : String :=
  let native := ["TIMESTAMP", "DATE"].map fun type =>
    "TRY_CAST(" ++ expression ++ " AS " ++ type ++ ")"
  let parsed := dateNotations.map fun written =>
    "try_strptime(CAST(" ++ expression ++ " AS VARCHAR), '" ++ written ++ "')"
  "COALESCE(" ++ joinWith ", " (native ++ parsed) ++ ")"

/-- The SQL functions of the aggregate functions that apply to a column as they are. -/
def sqlFunctions : List (String × String) :=
  [("sum", "SUM"), ("avg", "AVG"), ("count", "COUNT"), ("max", "MAX"), ("min", "MIN")]

namespace Catalog

/-- The column ranks as a date that was ingested as text. -/
def isTextDate (c : Catalog) (column : String) : Bool :=
  (c.field? column).any fun f => f.category == "temporal" && f.ingestType == "string"

/-- The expression of a dimension, with names in quotes. -/
def dimensionSql (c : Catalog) (d : Dimension) : String :=
  match d.transformation with
  | some t => "(" ++ t.display ++ ")"
  | none =>
    let column := columnRef c.table d.source
    if c.isTextDate d.source then temporalCast column else column

/-- The expression of an entry, with names in quotes. -/
def entrySql (c : Catalog) : Entry → Except CompileFault String
  | .formula f => .ok ("(" ++ f.sql ++ ")")
  | .aggregation a =>
    if a.source = rowSource then .ok "COUNT(*)"
    else
      let column := columnRef c.table a.source
      if a.function = "count_distinct" then .ok ("COUNT(DISTINCT " ++ column ++ ")")
      else match sqlFunctions.lookup a.function with
        | some function => .ok (function ++ "(" ++ column ++ ")")
        | none => .error (.unknownFunction a.function)

end Catalog

/-- An item with the name of its result column. -/
structure NamedItem where
  expression : String
  name : String
deriving Repr, DecidableEq

/-- The item as it is written. -/
def NamedItem.text (i : NamedItem) : String :=
  i.expression ++ " AS " ++ quote i.name

namespace OrderKey

/-- The direction that ends an ordering, with the white space before it. -/
def direction? (cs : List Char) : Option (List Char) := do
  let rest ← afterBlank? cs
  if ["asc", "desc"].any fun w => letters? w.toList rest == some [] then some rest else none

/-- What a text orders by, and the direction it ends in. -/
def splitDirection (cs : List Char) : List Char × Option (List Char) :=
  match (places cs).tail.findSome? fun p => (direction? p.rest).map (p.offset, ·) with
  | some (stop, direction) => (cs.take stop, some direction)
  | none => (cs, none)

/-- The key as it is written: a text that names a result column does so in quotes. -/
def sql (names : List String) : OrderKey → String
  | .position n => toString n
  | .text s =>
    let (target, direction) := splitDirection (trim s.toList)
    let bare := String.ofList (dropBothWhile (· == '"') target)
    let target := if names.contains bare then quote bare else String.ofList target
    match direction with
    | some d => target ++ " " ++ String.ofList (upper d)
    | none => target

end OrderKey

namespace Selection

/-- The item of a dimension alias. -/
def dimensionItem (c : Catalog) (name : String) : Except CompileFault NamedItem :=
  match c.dimension? name with
  | some d => .ok ⟨c.dimensionSql d, d.aliasName⟩
  | none => .error (.unknownAlias name c.table .dimension)

/-- The item of a measure alias. -/
def measureItem (c : Catalog) (name : String) : Except CompileFault NamedItem :=
  match c.entry? name with
  | some e => (c.entrySql e).map fun expression => ⟨expression, e.aliasName⟩
  | none => .error (.unknownAlias name c.table .measure)

/-- The items of a selection, dimensions first. -/
def items (c : Catalog) (s : Selection) : Except CompileFault (List NamedItem) := do
  if s.isEmpty then .error (.nothingSelected c.table)
  let dimensions ← s.dimensions.mapM (dimensionItem c)
  let measures ← s.measures.mapM (measureItem c)
  return dimensions ++ measures

/-- The statement of a selection. -/
def statement (c : Catalog) (s : Selection) : Except CompileFault SelectStatement := do
  let items ← s.items c
  if !s.numbers.all isWritable then throw .numeralTooLong
  return {
    items := items.map NamedItem.text
    source := quoteTable c.table
    conditions := s.filters.map (within trim)
    groups := s.dimensions.length
    ordering := s.ordering.map (OrderKey.sql (items.map (·.name)))
    limit := s.limit }

/-- The SQL of a selection. -/
def sql (c : Catalog) (s : Selection) : Except CompileFault String :=
  (s.statement c).map SelectStatement.text

end Selection

end MetricLayer
