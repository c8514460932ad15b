import MetricLayer.Proofs.Chart.Advice
import MetricLayer.Proofs.Chart.Build

/-!
# Two dimensions and one measure

Rows of two dimensions and one measure are drawn as one row per category, with a series per text of the second
dimension.  The one chart that is drawn in their stead is the one filled by sign, for a measure over time
(`Chart.exists_isPivoted_iff`).
-/

namespace MetricLayer

variable {c : Option Catalog} {dimensions measures : List String} {x series measure : String}

/-! ## Results over time -/

theorem dimensionCategory_eq_temporal_iff (c : Option Catalog) (name : String) :
    dimensionCategory c name = .temporal ↔ isTemporalDimension c name = true := by
  simp only [dimensionCategory]
  split
  next h => exact iff_of_true rfl h
  next h =>
    refine iff_of_false ?_ h
    split
    · decide
    · split <;> decide

theorem Archetype.of_eq_timeSeries_iff {ds : List DimensionCategory} (ms : List MeasureCategory) :
    Archetype.of ds ms = .timeSeries ↔ .temporal ∈ ds := by
  simp only [Archetype.of, List.contains_iff_mem]
  split
  next h => simp_all
  next =>
    split
    next h => exact iff_of_true rfl h
    next h =>
      refine iff_of_false ?_ h
      split
      · decide
      · split
        · decide
        · split <;> decide

theorem Classification.archetype_of_eq_timeSeries_iff (hd : dimensions.Nodup) (hm : measures.Nodup) :
    (of c dimensions measures).archetype = .timeSeries ↔ ∃ d ∈ dimensions, isTemporalDimension c d = true := by
  rw [show (of c dimensions measures).archetype = _ from congrArg Advice.archetype (advice_of c hd hm)]
  show Archetype.of _ _ = _ ↔ _
  simp only [Archetype.of_eq_timeSeries_iff, List.mem_map, dimensionCategory_eq_temporal_iff]

/-- Rows of two dimensions are pivoted unless the measure is over time and a difference. -/
theorem Classification.pivoting?_of (rows : List Row) (hne : x ≠ series) :
    (of c [x, series] [measure]).pivoting? rows = some (x, series, measure) ↔
      ¬ ((∃ d ∈ [x, series], isTemporalDimension c d = true) ∧ isNetMetric measure rows = true) := by
  have hd : [x, series].Nodup := by simpa using hne
  rw [← archetype_of_eq_timeSeries_iff hd (List.nodup_singleton measure), pivoting?]
  show (if _ then none else _) = _ ↔ _
  rw [ite_eq_iff]
  simp

namespace Chart

variable {v : Classification} {rows : List Row} {forced : Option ChartKind} {title : Option String} {chart : Chart}

/-- A chart with one row per category, in the order in which they are first seen, and with a series per text of the
second dimension, in the order in which they are first seen. -/
structure IsPivoted (x series measure : String) (rows : List Row) (chart : Chart) : Prop where
  xKey : chart.xKey = x
  seriesKey : chart.formatting.seriesKey = some series
  categories : chart.rows.map (·.lookup x) = ((rows.map (Row.cell · x)).eraseDupsBy Value.sameKey).map some
  wide : chart.rows = (Pivot.rowsByCategory x rows).map fun g => Pivot.wideRow x series measure g.1 g.2
  yKeys : chart.yKeys = (rows.map fun row => (Row.cell row series).display).eraseDups

theorem isPivoted_pivoted {p : Pivot} (hsome : v.pivoting? rows = some (x, series, measure))
    (hapart : ∀ row ∈ rows, (Row.cell row series).display ≠ x) (hp : pivot rows x series measure = .ok p)
    (hint : FormatHint) :
    ((start v rows c forced title).pivoted hint series p).IsPivoted x series measure rows where
  xKey := by
    show v.dimensions.headD indexColumn = x
    rw [(Classification.of_pivoting? hsome).1]
    rfl
  seriesKey := rfl
  categories := by
    show p.rows.map (·.lookup x) = _
    rw [(Pivot.of_pivot hp).1, ← Pivot.map_cell_rowsByCategory, List.map_map, List.map_map]
    refine List.map_congr_left fun g hg => Pivot.lookup_wideRow fun row hrow => hapart row ?_
    exact Pivot.subset_of_mem_rowsByCategory hg hrow
  wide := (Pivot.of_pivot hp).1
  yKeys := (Pivot.of_pivot hp).2

theorem pivoting?_of_isPivoted (hchart : build v rows c forced title = .ok chart)
    (h : chart.IsPivoted x series measure rows) : v.pivoting? rows ≠ none := by
  intro hnone
  have hseries : chart.formatting.seriesKey = none := by
    rcases of_build hchart with ⟨-, hadapts⟩ | ⟨_, _, _, _, hsome, -⟩
    · cases hadapts <;> rfl
    · rw [hnone] at hsome
      cases hsome
  rw [h.seriesKey] at hseries
  cases hseries

/-- **Two dimensions and one measure are drawn as one row per category exactly if the chart is not filled by sign**,
whatever the kind that is asked for: the dimensions have a category, the values of the second one can be written, and
the measure is not one over time that is a difference by its name or its values. -/
theorem exists_isPivoted_iff (c : Option Catalog) (x series measure : String) (rows : List Row)
    (forced : Option ChartKind) (title : Option String) (hne : x ≠ series)
    (hkeys : ∀ row ∈ rows, (Row.cell row x).isKey = true)
    (hapart : ∀ row ∈ rows, (Row.cell row series).display ≠ x) :
    (∃ v chart, Classification.of? c [x, series] [measure] = .ok v ∧ build v rows c forced title = .ok chart ∧
        chart.IsPivoted x series measure rows) ↔
      (∀ d ∈ [x, series], categoryFault? c d = none) ∧ (∀ row ∈ rows, (Row.cell row series).hasDisplay = true) ∧
        ¬ ((∃ d ∈ [x, series], isTemporalDimension c d = true) ∧ isNetMetric measure rows = true) := by
  rw [← Classification.pivoting?_of rows hne]
  constructor
  · rintro ⟨v, chart, hv, hchart, hpivoted⟩
    have hcategories := Classification.exists_of?_iff.mp ⟨v, hv⟩
    obtain rfl := Except.ok.inj (hv.symm.trans (Classification.of?_eq hcategories))
    rcases of_build hchart with ⟨hnone, -⟩ | ⟨x', series', measure', p, hsome, hp, -⟩
    · exact absurd hnone (pivoting?_of_isPivoted hchart hpivoted)
    · obtain ⟨hd, hm⟩ := Classification.of_pivoting? hsome
      obtain ⟨rfl, rfl⟩ : x = x' ∧ series = series' := by simpa [Classification.of] using hd
      obtain rfl : measure = measure' := by simpa [Classification.of] using hm
      refine ⟨hcategories, fun row hrow => ?_, hsome⟩
      exact (Pivot.fault?_eq_none_iff.mp ((Pivot.exists_pivot_iff _).mp ⟨p, hp⟩ row hrow)).1
  · rintro ⟨hcategories, htexts, hsome⟩
    obtain ⟨p, hp⟩ := (Pivot.exists_pivot_iff measure).mpr fun row hrow =>
      Pivot.fault?_eq_none_iff.mpr ⟨htexts row hrow, hkeys row hrow⟩
    have hchart : build (.of c [x, series] [measure]) rows c forced title =
        .ok ((start (.of c [x, series] [measure]) rows c forced title).pivoted (formatHint c measure) series p) := by
      rw [build_of_pivoting hsome, hp]
      rfl
    exact ⟨_, _, Classification.of?_eq hcategories, hchart, isPivoted_pivoted hsome hapart hp _⟩

theorem exists_isPivoted_deviceRows :
    ∃ v chart, Classification.of? (some sessionsCatalog) ["Country", "Device Type"] ["session_count"] = .ok v ∧
      build v deviceRows (some sessionsCatalog) (some .pie) none = .ok chart ∧
        chart.IsPivoted "Country" "Device Type" "session_count" deviceRows ∧ chart.rows.length = 2 ∧
          chart.yKeys = ["mobile", "desktop"] := by
  obtain ⟨v, chart, hv, hchart, hpivoted⟩ := (exists_isPivoted_iff (some sessionsCatalog) "Country" "Device Type"
    "session_count" deviceRows (some .pie) none (by decide) (by decide) (by decide)).mpr
    ⟨by decide +kernel, by decide, by decide +kernel⟩
  refine ⟨v, chart, hv, hchart, hpivoted, ?_, ?_⟩
  · rw [← List.length_map (·.lookup "Country"), hpivoted.categories]
    decide
  · rw [hpivoted.yKeys]
    decide

/-- Revenue by day and device, with a refund. -/
def refundRows : List Row :=
  [[("Session Date", .text "2024-01-01"), ("Device Type", .text "mobile"), ("total_revenue", .int 5)],
    [("Session Date", .text "2024-01-01"), ("Device Type", .text "desktop"), ("total_revenue", .int (-5))]]

theorem not_forall_isPivoted :
    ¬ ∀ (c : Catalog) (x series measure : String) (rows : List Row), x ≠ series →
      (∀ row ∈ rows, (Row.cell row x).isKey = true ∧ (Row.cell row series).isKey = true) →
      (∀ row ∈ rows, (Row.cell row series).display ≠ x) →
      ∃ v chart, Classification.of? (some c) [x, series] [measure] = .ok v ∧
        build v rows (some c) none none = .ok chart ∧ chart.IsPivoted x series measure rows := by
  intro h
  obtain ⟨v, chart, hv, hchart, hpivoted⟩ := h sessionsCatalog "Session Date" "Device Type" "total_revenue" refundRows
    (by decide) (by decide) (by decide)
  have hcategories := Classification.exists_of?_iff.mp ⟨v, hv⟩
  obtain rfl := Except.ok.inj (hv.symm.trans (Classification.of?_eq hcategories))
  exact pivoting?_of_isPivoted hchart hpivoted (by decide +kernel)

end Chart

end MetricLayer
