import MetricLayer.Value.Text

/-!
# Catalogs

A catalog describes one table: its columns, the dimensions a query may group by and the measures it
may compute, each under the alias that requests and results use.

Names are looked up as written first and ignoring letter case second.  `findAlias?` does it for
aliases, where the first declaration counts; columns that differ in letter case only are found by
the last one.

Contents that nothing checks are values: whoever needs a text there meets a `ContentFault` if there
is none.
-/

namespace MetricLayer

open MetricLayer.Text

/-- A part of a catalog that is no text where one is needed; the kind of the value is kept. -/
inductive ContentFault where
  | aliasNotText (kind : String)
  | sortNotText (kind : String)
  | transformationNotText (kind : String)
deriving Repr, DecidableEq

/-- A column of the table. -/
structure Field where
  name : String
  physicalType : String
  ingestType : String
  category : String
  members : Option (List Value) := none
  sanitize : Bool := false
  description : Value := .text ""
deriving Repr, Inhabited

/-- A way to group rows: a column, or an SQL expression over columns, under an alias. -/
structure Dimension where
  source : String
  aliasName : String
  transformation : Option Value := none
  sort : Option Value := none
  description : Value := .text ""
deriving Repr, Inhabited

/-- The members of a `custom:a,b,c` sort directive, in order. -/
def Dimension.customOrder? (d : Dimension) : Option (List String) := do
  let .text directive ← d.sort | none
  let listed ← "custom:".toList.isPrefixOf? directive.toList
  some (((splitOn ',' listed).map trim).filter (!·.isEmpty) |>.map String.ofList)

/-- The fault of a sort directive that is no text. -/
def Dimension.sortFault? (d : Dimension) : Option ContentFault :=
  d.sort.bind fun v => if v.isText then none else some (.sortNotText v.kindName)

/-- The members of the sort directive, if it can be read. -/
def Dimension.readSort (d : Dimension) : Except ContentFault (Option (List String)) :=
  d.sortFault?.elim (.ok d.customOrder?) .error

/-- The members of the dimension follow each other. -/
def Dimension.isSequential (d : Dimension) : Bool :=
  d.customOrder?.isSome

/-- What yields the dimension: its expression, or its column. -/
def Dimension.definition (d : Dimension) : Value :=
  d.transformation.getD (.text d.source)

/-- The SQL that yields the dimension. -/
def Dimension.expression (d : Dimension) : String :=
  d.definition.display

/-- An aggregate function over one column, under an alias. -/
structure Aggregation where
  aliasName : String
  function : String
  source : String
  format : Value := .text "number"
  decimals : Int := 0
  currency : Value := .null
  description : Value := .text ""
deriving Repr, Inhabited

/-- An SQL expression with aggregates, under an alias. -/
structure Formula where
  aliasName : String
  sql : String
  source : String
  format : Value := .text "number"
  decimals : Int := 0
  currency : Value := .null
  description : Value := .text ""
deriving Repr, Inhabited

/-- The source that stands for the rows themselves. -/
def rowSource : String := "_count"

/-- The aggregation as SQL, with plain names. -/
def Aggregation.sql (a : Aggregation) : String :=
  if a.source = rowSource then "COUNT(*)"
  else if a.function = "count_distinct" then "COUNT(DISTINCT " ++ a.source ++ ")"
  else within upper a.function ++ "(" ++ a.source ++ ")"

/-- What a measure alias stands for. -/
inductive Entry where
  | aggregation (a : Aggregation)
  | formula (f : Formula)
deriving Repr, Inhabited

namespace Entry

/-- The alias of the entry. -/
def aliasName : Entry → String
  | .aggregation a => a.aliasName
  | .formula f => f.aliasName

/-- The column the entry is declared on. -/
def source : Entry → String
  | .aggregation a => a.source
  | .formula f => f.source

/-- How values of the entry are shown. -/
def format : Entry → Value
  | .aggregation a => a.format
  | .formula f => f.format

/-- With how many places values of the entry are shown. -/
def decimals : Entry → Int
  | .aggregation a => a.decimals
  | .formula f => f.decimals

/-- In which currency values of the entry are shown. -/
def currency : Entry → Value
  | .aggregation a => a.currency
  | .formula f => f.currency

/-- What the entry is described as. -/
def description : Entry → Value
  | .aggregation a => a.description
  | .formula f => f.description

/-- The entry as SQL, with plain names. -/
def sql : Entry → String
  | .aggregation a => a.sql
  | .formula f => f.sql

end Entry

/-- What is measured on one column. -/
structure Measure where
  source : String
  description : Value := .text ""
  aggregations : List Aggregation := []
  formulas : List Formula := []
deriving Repr, Inhabited

/-- The entries of a measure, aggregations first. -/
def Measure.entries (m : Measure) : List Entry :=
  m.aggregations.map .aggregation ++ m.formulas.map .formula

/-- The description of a table. -/
structure Catalog where
  table : String
  description : Value := .text ""
  fields : List Field := []
  dimensions : List Dimension := []
  measures : List Measure := []
deriving Repr, Inhabited

/-- The first item with an alias as written, or else ignoring letter case. -/
def findAlias? {α : Type} (aliasOf : α → String) (items : List α) (name : String) : Option α :=
  (items.find? fun a => aliasOf a == name) <|> items.find? fun a => sameLower (aliasOf a) name

/-- The items whose alias no earlier item has. -/
def firstByAlias {α : Type} (aliasOf : α → String) : List α → List α
  | [] => []
  | a :: as => a :: (firstByAlias aliasOf as).filter fun b => aliasOf b != aliasOf a

namespace Catalog

/-- The entries of all measures. -/
def entries (c : Catalog) : List Entry :=
  c.measures.flatMap Measure.entries

/-- The dimension an alias stands for. -/
def dimension? (c : Catalog) (name : String) : Option Dimension :=
  findAlias? Dimension.aliasName c.dimensions name

/-- The entry an alias stands for. -/
def entry? (c : Catalog) (name : String) : Option Entry :=
  findAlias? Entry.aliasName c.entries name

/-- The dimensions that their aliases stand for. -/
def namedDimensions (c : Catalog) : List Dimension :=
  firstByAlias Dimension.aliasName c.dimensions

/-- The entries that their aliases stand for. -/
def namedEntries (c : Catalog) : List Entry :=
  firstByAlias Entry.aliasName c.entries

/-- The dimension aliases in catalog order. -/
def dimensionAliases (c : Catalog) : List String :=
  c.namedDimensions.map (·.aliasName)

/-- The measure aliases in catalog order. -/
def measureAliases (c : Catalog) : List String :=
  c.namedEntries.map Entry.aliasName

/-- The name is an alias of the catalog. -/
def isAlias (c : Catalog) (name : String) : Bool :=
  (c.dimension? name).isSome || (c.entry? name).isSome

/-- The column of a name. -/
def field? (c : Catalog) (name : String) : Option Field :=
  (c.fields.find? fun f => f.name == name) <|>
    c.fields.reverse.find? fun f => sameLower f.name name

/-- The name is a column of the table. -/
def isField (c : Catalog) (name : String) : Bool :=
  (c.field? name).isSome

/-- The columns of a category. -/
def fieldsIn (c : Catalog) (category : String) : List Field :=
  c.fields.filter fun f => f.category == category

/-- What yields every dimension alias. -/
def dimensionListing (c : Catalog) : List (String × Value) :=
  c.namedDimensions.map fun d => (d.aliasName, d.definition)

/-- The SQL of every measure alias. -/
def measureListing (c : Catalog) : List (String × String) :=
  c.namedEntries.map fun e => (e.aliasName, e.sql)

end Catalog

end MetricLayer
