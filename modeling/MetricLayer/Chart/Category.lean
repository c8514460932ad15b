import MetricLayer.Catalog.Basic
import MetricLayer.Text.Place

/-!
# Categories of result columns

Charts are chosen by what the columns of a result are.  A dimension is temporal, sequential, binary
or categorical, by its column in the catalog and by its name; a measure has its category by its name
alone.  Of several categories that fit the first one counts.
-/

namespace MetricLayer

open MetricLayer.Text

/-- The categories of dimensions. -/
inductive DimensionCategory where
  | temporal
  | sequential
  | binary
  | categorical
deriving Repr, DecidableEq, Inhabited

/-- The name of a category of dimensions. -/
def DimensionCategory.name : DimensionCategory → String
  | .temporal => "temporal"
  | .sequential => "sequential"
  | .binary => "binary"
  | .categorical => "categorical"

/-- The categories of measures. -/
inductive MeasureCategory where
  | rates
  | revenue
  | events
  | averages
  | counts
  | totals
deriving Repr, DecidableEq, Inhabited

/-- The name of a category of measures. -/
def MeasureCategory.name : MeasureCategory → String
  | .rates => "rates"
  | .revenue => "revenue"
  | .events => "events"
  | .averages => "averages"
  | .counts => "counts"
  | .totals => "totals"

/-- One of several words occurs in a text, in any letter case. -/
def mentions (words : List String) (cs : List Char) : Bool :=
  words.any fun w => hasLetters w cs

/-- The name speaks of a date or a time. -/
def isTimeName (name : String) : Bool :=
  mentions ["date", "time", "day", "week", "month", "quarter", "year", "hour"] name.toList

/-- The name speaks of a yes or no: it starts with is or has, is a flag, or asks a question. -/
def isYesNoName (name : String) : Bool :=
  let cs := name.toList
  startsInLetters "is_" cs || startsInLetters "has_" cs || endsInLetters "_flag" cs ||
    (places cs).any fun p =>
      p.startsWord && (startsInLetters "is " p.rest || startsInLetters "has " p.rest)

/-- The column holds dates or times. -/
def Field.isTemporal (f : Field) : Bool :=
  f.category == "temporal" || mentions ["date", "time"] f.physicalType.toList

/-- The column holds one of two values. -/
def Field.isBinary (f : Field) : Bool :=
  "BOOL".toList.isPrefixOf f.physicalType.toList || f.ingestType == "boolean" ||
    f.members.any fun ms => ms.length == 2

/-- The column of a dimension. -/
def Catalog.fieldOf? (c : Catalog) (d : Dimension) : Option Field :=
  c.field? d.source

/-- A dimension is temporal: by its column, its name or its source. -/
def isTemporalDimension (c : Option Catalog) (name : String) : Bool :=
  let dimension := c.bind fun c => c.dimension? name
  let field := c.bind fun c => dimension.bind c.fieldOf?
  field.any Field.isTemporal || (name :: (dimension.map Dimension.source).toList).any isTimeName

/-- The category of a dimension. -/
def dimensionCategory (c : Option Catalog) (name : String) : DimensionCategory :=
  let dimension := c.bind fun c => c.dimension? name
  let field := c.bind fun c => dimension.bind c.fieldOf?
  let names := name :: (dimension.map Dimension.source).toList
  if isTemporalDimension c name then .temporal
  else if dimension.any Dimension.isSequential then .sequential
  else if field.any Field.isBinary || names.any isYesNoName then .binary
  else .categorical

/-- What keeps a dimension from having a category: unless it is temporal, its sort directive is
looked at. -/
def categoryFault? (c : Option Catalog) (name : String) : Option ContentFault :=
  if isTemporalDimension c name then none
  else (c.bind fun c => c.dimension? name).bind Dimension.sortFault?

/-- The category of a measure. -/
def measureCategory (name : String) : MeasureCategory :=
  let cs := name.toList
  if mentions ["rate", "_ratio"] cs || startsInLetters "ratio" cs then .rates
  else if mentions ["revenue"] cs then .revenue
  else if mentions ["event"] cs then .events
  else if startsInLetters "avg_" cs then .averages
  else if mentions ["count", "session", "visitor", "user"] cs then .counts
  else .totals

end MetricLayer
