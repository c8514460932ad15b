import MetricLayer.Chart.Category

/-!
# Classification of results

`Classification.of` gives the columns of a result their categories, and by these the result one of
six archetypes.  The archetype says which kinds of charts are recommended, in order.
-/

namespace MetricLayer

open MetricLayer.Text

/-- What a result shows, as far as charts are concerned. -/
inductive Archetype where
  | kpi
  | timeSeries
  | funnel
  | breakdown
  | comparison
  | distribution
deriving Repr, DecidableEq, Inhabited

/-- The name of an archetype. -/
def Archetype.name : Archetype → String
  | .kpi => "kpi"
  | .timeSeries => "time_series"
  | .funnel => "funnel"
  | .breakdown => "breakdown"
  | .comparison => "comparison"
  | .distribution => "distribution"

/-- The kinds of charts; callers may ask for kinds of their own. -/
inductive ChartKind where
  | kpi
  | bar
  | line
  | area
  | pie
  | funnel
  | heatmap
  | stackedBar
  | biaxialBar
  | signArea
  | custom (name : String)
deriving Repr, DecidableEq, Inhabited

namespace ChartKind

/-- The name of a kind. -/
def name : ChartKind → String
  | .kpi => "kpi"
  | .bar => "bar"
  | .line => "line"
  | .area => "area"
  | .pie => "pie"
  | .funnel => "funnel"
  | .heatmap => "heatmap"
  | .stackedBar => "stacked-bar"
  | .biaxialBar => "biaxial-bar"
  | .signArea => "area-fill-by-value"
  | .custom name => name

/-- The kinds with a name of their own. -/
def named : List ChartKind :=
  [.kpi, .bar, .line, .area, .pie, .funnel, .heatmap, .stackedBar, .biaxialBar, .signArea]

/-- The kind of a name. -/
def ofName (s : String) : ChartKind :=
  (named.find? fun k => k.name == s).getD (.custom s)

theorem name_ofName (s : String) : (ofName s).name = s := by
  simp only [ofName]
  cases h : named.find? fun k => k.name == s with
  | none => rfl
  | some k => simpa using List.find?_some h

end ChartKind

/-- The archetype of categories of dimensions and measures. -/
def Archetype.of (dimensions : List DimensionCategory) (measures : List MeasureCategory) :
    Archetype :=
  if dimensions.isEmpty then .kpi
  else if dimensions.contains .temporal then .timeSeries
  else if dimensions.contains .sequential then .funnel
  else if 2 ≤ dimensions.length then .breakdown
  else if 2 ≤ measures.length || measures.contains .rates then .comparison
  else .distribution

/-- The kinds of charts that suit an archetype, the best first, with the reasons. -/
def Archetype.charts : Archetype → List (ChartKind × String)
  | .kpi =>
    [(.kpi, "Single aggregate values read best as headline numbers"),
     (.bar, "Side-by-side bars compare several headline values")]
  | .timeSeries =>
    [(.line, "Line charts show trends over time"),
     (.area, "Area charts emphasise volume over time")]
  | .funnel =>
    [(.funnel, "Ordered stages show drop-off between steps"),
     (.bar, "Bars compare stage sizes in stage order")]
  | .distribution =>
    [(.pie, "Pie charts show each category's share of the whole"),
     (.bar, "Bars compare categories precisely")]
  | .comparison =>
    [(.bar, "Bars compare values across categories")]
  | .breakdown =>
    [(.heatmap, "Heatmaps show a measure across two categorical axes"),
     (.stackedBar, "Stacked bars break each category down by a second one")]

/-- A recommended chart. -/
structure Recommendation where
  kind : ChartKind
  priority : Nat
  reason : String
  xKey : Option String
  yKeys : List String
  seriesKey : Option String
deriving Repr, DecidableEq, Inhabited

/-- A result with the categories of its columns and the charts that suit it. -/
structure Classification where
  archetype : Archetype
  dimensions : List String
  measures : List String
  dimensionCategories : List (String × DimensionCategory)
  measureCategories : List (String × MeasureCategory)
  recommendations : List Recommendation
  warnings : List String
  suggestions : List String
deriving Repr, DecidableEq

namespace Classification

/-- The recommendation of a kind of chart. -/
def recommendation (dimensions measures : List String) (priority : Nat)
    (chart : ChartKind × String) : Recommendation where
  kind := chart.1
  priority := priority
  reason := chart.2
  xKey := dimensions.head?
  yKeys := measures
  seriesKey := if [ChartKind.stackedBar, .heatmap].contains chart.1 then dimensions[1]? else none

/-- The recommendations for an archetype. -/
def recommendationsFor (archetype : Archetype) (dimensions measures : List String) :
    List Recommendation :=
  archetype.charts.zipIdx.map fun (chart, n) => recommendation dimensions measures (n + 1) chart

/-- What to beware of. -/
def warningsFor (dimensionCount measureCount : Nat) (measures : List MeasureCategory) :
    List String :=
  (if 2 < dimensionCount then
    ["More than two dimensions; charts will only show the first two."] else []) ++
  (if 4 < measureCount then ["Many measures on one chart can be hard to read."] else []) ++
  (if measures.contains .rates && measures.any (· != .rates) then
    ["Rates are mixed with absolute values; consider separate charts."] else [])

/-- What else to try. -/
def suggestionsFor (archetype : Archetype) (dimensionCount : Nat)
    (dimensions : List DimensionCategory) (measures : List MeasureCategory) : List String :=
  (if 2 < dimensionCount then ["Use a pivot table for three or more dimensions."] else []) ++
  (if measures.contains .rates then
    ["Rate measures detected: format the value axis as a percentage."] else []) ++
  (if archetype == .timeSeries && measures.contains .revenue then
    ["Consider a cumulative view to show revenue growth."] else []) ++
  (if archetype == .distribution && dimensions.contains .binary then
    ["Binary splits read well as a two-slice pie or a single KPI ratio."] else [])

/-- Classifies a result by the aliases of its dimensions and measures. -/
def of (c : Option Catalog) (dimensions measures : List String) : Classification :=
  let byDimension := mergeEntries (dimensions.map fun d => (d, dimensionCategory c d))
  let byMeasure := mergeEntries (measures.map fun m => (m, measureCategory m))
  let ofDimensions := byDimension.map (·.2)
  let ofMeasures := byMeasure.map (·.2)
  let archetype := Archetype.of ofDimensions ofMeasures
  { archetype
    dimensions
    measures
    dimensionCategories := byDimension
    measureCategories := byMeasure
    recommendations := recommendationsFor archetype dimensions measures
    warnings := warningsFor dimensions.length byMeasure.length ofMeasures
    suggestions := suggestionsFor archetype dimensions.length ofDimensions ofMeasures }

/-- Classifies a result, if all of its dimensions have a category. -/
def of? (c : Option Catalog) (dimensions measures : List String) :
    Except ContentFault Classification :=
  match dimensions.findSome? (categoryFault? c) with
  | some f => .error f
  | none => .ok (of c dimensions measures)

/-- The recommendation that ranks first. -/
def primary (v : Classification) : Recommendation :=
  v.recommendations.headD default

/-- The dimensions of a category. -/
def dimensionsIn (v : Classification) (category : DimensionCategory) : List String :=
  (v.dimensionCategories.filter fun e => e.2 == category).map (·.1)

/-- The measures of a category. -/
def measuresIn (v : Classification) (category : MeasureCategory) : List String :=
  (v.measureCategories.filter fun e => e.2 == category).map (·.1)

/-- The classification in one line. -/
def summary (v : Classification) : String :=
  v.archetype.name ++ " query: " ++ toString v.dimensions.length ++ " dimension(s), " ++
    toString v.measures.length ++ " measure(s); recommended " ++ v.primary.kind.name ++
    " (" ++ v.primary.reason ++ ")"

end Classification

end MetricLayer
