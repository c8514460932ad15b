import MetricLayer.Chart.Classification
import MetricLayer.Chart.Format
import MetricLayer.Chart.Pivot

/-!
# Charts

`Chart.build` draws the rows of a classified result.  The recommended kind of chart is used, but for
three shapes of data: one measure over time with values of both signs is filled by sign, two
dimensions with one measure are pivoted, and two measures over one dimension get an axis each.
-/

namespace MetricLayer

open MetricLayer.Text MetricLayer.Number

/-- The colors of series, in order; they repeat. -/
def palette : List String :=
  ["#8884d8", "#82ca9d", "#ffc658", "#ff7c7c", "#8dd1e1", "#a4de6c", "#d0ed57", "#ffa07a"]

/-- The color of a series. -/
def paletteColor (n : Nat) : String :=
  (palette[n % palette.length]?).getD ""

/-- The column that numbers the rows of a result without dimensions. -/
def indexColumn : String := "index"

/-- How a chart is drawn. -/
structure Formatting where
  stacked : Bool
  showLegend : Bool
  isTimeSeries : Bool
  /-- The colors above and below zero. -/
  signColors : Option (String × String) := none
  /-- The dimension whose values became series. -/
  seriesKey : Option String := none
  /-- The value axis of each series. -/
  axes : Option (List (String × String)) := none
  formats : List (String × FormatHint)
  colors : List (String × String)
deriving Repr, Inhabited

/-- A chart of a result, for any renderer. -/
structure Chart where
  kind : ChartKind
  title : String
  xKey : String
  yKeys : List String
  rows : List Row
  formatting : Formatting
  reason : String
  archetype : Archetype
deriving Repr, Inhabited

/-- The name says that a measure is a difference: it has net, delta, change or growth for a word. -/
def isDifferenceName (name : String) : Bool :=
  let isGap (c : Char) : Bool := c == '_' || isBlank c
  (places name.toList).any fun p =>
    p.before.all isGap && ["net", "delta", "change", "growth"].any fun w =>
      (letters? w.toList p.rest).any fun rest => rest.head?.all isGap

/-- A number above zero. -/
def Value.isPositiveNumber : Value → Bool
  | .int n => 0 < n
  | .float x => x.isPositive
  | _ => false

/-- A number below zero. -/
def Value.isNegativeNumber : Value → Bool
  | .int n => n < 0
  | .float x => x.isNegative
  | _ => false

/-- A measure is a difference, by its name or because its values have both signs. -/
def isNetMetric (measure : String) (rows : List Row) : Bool :=
  let values := rows.map fun row => Row.cell row measure
  isDifferenceName measure ||
    (values.any Value.isPositiveNumber && values.any Value.isNegativeNumber)

/-- The title of measures by dimensions. -/
def chartTitle (measures dimensions : List String) : String :=
  let subject := joinWith " & " (measures.map label)
  (if subject = "" then "Rows" else subject) ++
    (if dimensions.isEmpty then "" else " by " ++ joinWith " by " (dimensions.map label))

/-- The kinds of charts that are drawn with two sets of bars when the measures have an axis each. -/
def barLike : List ChartKind :=
  [.bar, .stackedBar, .biaxialBar, .kpi, .pie, .funnel, .heatmap]

/-- The rows with their positions in front. -/
def indexedRows (rows : List Row) : List Row :=
  rows.zipIdx.map fun (row, n) => mergeEntries ((indexColumn, .int n) :: row)

/-- The colors of series. -/
def seriesColors (keys : List String) : List (String × String) :=
  mergeEntries (keys.zipIdx.map fun (key, n) => (key, paletteColor n))

namespace Chart

/-- The kind of chart that is drawn unless the data asks for another, and why. -/
def startingKind (v : Classification) (forced : Option ChartKind) : ChartKind × String :=
  match forced with
  | none => (v.primary.kind, v.primary.reason)
  | some kind =>
    (kind, ((v.recommendations.find? fun r => r.kind == kind).getD v.primary).reason)

/-- The chart as recommended: one series per measure. -/
def plain (v : Classification) (rows : List Row) (c : Option Catalog) (kind : ChartKind)
    (reason title : String) : Chart where
  kind := kind
  title := title
  xKey := v.dimensions.headD indexColumn
  yKeys := v.measures
  rows := if v.dimensions.isEmpty then indexedRows rows else rows
  formatting :=
    { stacked := kind == .stackedBar
      showLegend := 1 < v.measures.length
      isTimeSeries := v.archetype == .timeSeries
      formats := mergeEntries (v.measures.map fun m => (m, formatHint c m))
      colors := seriesColors v.measures }
  reason := reason
  archetype := v.archetype

/-- The chart filled by the sign of its measure. -/
def filledBySign (chart : Chart) (measure : String) : Chart :=
  { chart with
    kind := .signArea
    reason := label measure ++ " moves above and below zero; fill by sign"
    formatting := { chart.formatting with
      stacked := false
      signColors := some (paletteColor 1, paletteColor 3) } }

/-- The chart with one series per value of the second dimension. -/
def pivoted (chart : Chart) (hint : FormatHint) (seriesKey : String) (p : Pivot) : Chart :=
  let kind := if chart.archetype == .breakdown then .stackedBar else chart.kind
  { chart with
    kind
    yKeys := p.series
    rows := p.rows
    formatting := { chart.formatting with
      stacked := kind == .stackedBar
      showLegend := true
      seriesKey := some seriesKey
      formats := p.series.map fun s => (s, hint)
      colors := seriesColors p.series } }

/-- The chart with an axis for each of two measures. -/
def withTwoAxes (chart : Chart) (first second : String) : Chart :=
  let kind := if barLike.contains chart.kind then .biaxialBar else chart.kind
  { chart with
    kind
    reason := chart.reason ++ "; measures use independent value axes"
    formatting := { chart.formatting with
      stacked := kind == .stackedBar
      axes := some (mergeEntries [(first, "y"), (second, "y1")]) } }

/-- Draws the rows of a classified result; a kind and a title may be asked for. -/
def build (v : Classification) (rows : List Row) (c : Option Catalog)
    (forced : Option ChartKind) (title : Option String) : Except PivotFault Chart :=
  let (kind, reason) := startingKind v forced
  let title := ((title.filter (· != "")).getD (chartTitle v.measures v.dimensions))
  let chart := plain v rows c kind reason title
  match v.dimensions, v.measures with
  | dimensions, [measure] =>
    if v.archetype == .timeSeries && isNetMetric measure chart.rows then
      .ok (chart.filledBySign measure)
    else match dimensions with
      | [x, series] =>
        (pivot rows x series measure).map (chart.pivoted (formatHint c measure) series)
      | _ => .ok chart
  | [_], [first, second] => .ok (chart.withTwoAxes first second)
  | _, _ => .ok chart

/-- The charts of the other recommendations. -/
def alternatives (v : Classification) (rows : List Row) (c : Option Catalog) :
    Except PivotFault (List Chart) :=
  v.recommendations.tail.mapM fun r => build v rows c (some r.kind) none

end Chart

end MetricLayer
