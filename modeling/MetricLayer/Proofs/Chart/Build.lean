import MetricLayer.Catalog.Bundled
import MetricLayer.Chart.Build
import MetricLayer.Proofs.Chart.Group

/-!
# What a chart says of its series

Rows are pivoted by two dimensions and one measure unless the measure is filled by sign
(`Classification.pivoting?`), and a chart is drawn unless a row cannot be pivoted (`Chart.exists_build_iff`).
The formats, colors and axes of a chart are those of its series, and rows that are not pivoted are drawn as they
are (`Chart.build_matches`).
-/

namespace MetricLayer

/-- The two dimensions and the measure that rows are pivoted by, unless the measure is filled by sign. -/
def Classification.pivoting? (v : Classification) (rows : List Row) : Option (String × String × String) :=
  match v.dimensions, v.measures with
  | [x, series], [measure] =>
    if v.archetype == .timeSeries && isNetMetric measure rows then none else some (x, series, measure)
  | _, _ => none

variable {v : Classification} {rows : List Row} {x series measure : String}

theorem Classification.of_pivoting? (h : v.pivoting? rows = some (x, series, measure)) :
    v.dimensions = [x, series] ∧ v.measures = [measure] := by
  rw [pivoting?] at h
  split at h
  next hd hm =>
    split at h
    next => cases h
    next =>
      cases h
      exact ⟨hd, hm⟩
  next => cases h

namespace Chart

variable {c : Option Catalog} {forced : Option ChartKind} {title : Option String} {chart base : Chart}

/-! ## The ways a chart is drawn -/

/-- The chart with one series per measure, of the kind that is recommended or asked for. -/
def start (v : Classification) (rows : List Row) (c : Option Catalog) (forced : Option ChartKind)
    (title : Option String) : Chart :=
  plain v rows c (startingKind v forced).1 (startingKind v forced).2
    ((title.filter (· != "")).getD (chartTitle v.measures v.dimensions))

theorem rows_start_of_nil (hd : v.dimensions = []) : (start v rows c forced title).rows = indexedRows rows := by
  simp [start, plain, hd]

theorem rows_start_of_cons {dimensions : List String} (hd : v.dimensions = x :: dimensions) :
    (start v rows c forced title).rows = rows := by
  simp [start, plain, hd]

theorem xKey_start : (start v rows c forced title).xKey = v.dimensions.headD indexColumn := rfl

/-- The charts that are drawn of rows that are not pivoted. -/
inductive Adapts (v : Classification) (base : Chart) : Chart → Prop
  | asIs : Adapts v base base
  | bySign {measure : String} (hm : v.measures = [measure]) : Adapts v base (base.filledBySign measure)
  | twoAxes {x first second : String} (hd : v.dimensions = [x]) (hm : v.measures = [first, second]) :
    Adapts v base (base.withTwoAxes first second)

theorem build_of_pivoting (h : v.pivoting? rows = some (x, series, measure)) :
    build v rows c forced title = (pivot rows x series measure).map
      ((start v rows c forced title).pivoted (formatHint c measure) series) := by
  obtain ⟨hd, hm⟩ := Classification.of_pivoting? h
  have hsign : (v.archetype == .timeSeries && isNetMetric measure rows) = false := by
    simpa [Classification.pivoting?, hd, hm] using h
  simp only [build, hm, hd, start, plain, List.isEmpty_cons, hsign, Bool.false_eq_true, if_false]

theorem exists_adapts (c : Option Catalog) (forced : Option ChartKind) (title : Option String)
    (h : v.pivoting? rows = none) :
    ∃ chart, build v rows c forced title = .ok chart ∧ Adapts v (start v rows c forced title) chart := by
  simp only [build]
  split
  next measure hm =>
    split
    next => exact ⟨_, rfl, .bySign hm⟩
    next hsign =>
      split
      next x series hd =>
        change ¬ (v.archetype == .timeSeries && isNetMetric measure (start v rows c forced title).rows) = true at hsign
        rw [rows_start_of_cons hd] at hsign
        simp [Classification.pivoting?, hd, hm, hsign] at h
      next => exact ⟨_, rfl, .asIs⟩
  next x first second hd hm => exact ⟨_, rfl, .twoAxes hd hm⟩
  next => exact ⟨_, rfl, .asIs⟩

theorem of_build (h : build v rows c forced title = .ok chart) :
    (v.pivoting? rows = none ∧ Adapts v (start v rows c forced title) chart) ∨
      ∃ x series measure p, v.pivoting? rows = some (x, series, measure) ∧
        pivot rows x series measure = .ok p ∧
          chart = (start v rows c forced title).pivoted (formatHint c measure) series p := by
  cases hpivoting : v.pivoting? rows with
  | none =>
    obtain ⟨drawn, hdrawn, hadapts⟩ := exists_adapts c forced title hpivoting
    obtain rfl := Except.ok.inj (h.symm.trans hdrawn)
    exact .inl ⟨rfl, hadapts⟩
  | some by' =>
    obtain ⟨x, series, measure⟩ := by'
    rw [build_of_pivoting hpivoting] at h
    cases hp : pivot rows x series measure with
    | error f =>
      rw [hp] at h
      cases h
    | ok p =>
      rw [hp] at h
      exact .inr ⟨x, series, measure, p, rfl, hp, (Except.ok.inj h).symm⟩

/-- A chart is drawn unless rows are pivoted and one of them cannot be. -/
theorem exists_build_iff : (∃ chart, build v rows c forced title = .ok chart) ↔
    ∀ x series measure, v.pivoting? rows = some (x, series, measure) →
      ∀ row ∈ rows, Pivot.fault? x series row = none := by
  constructor
  · rintro ⟨chart, h⟩ x series measure hpivoting
    rcases of_build h with ⟨hnone, -⟩ | ⟨x', series', measure', p, hsome, hp, -⟩
    · rw [hnone] at hpivoting
      cases hpivoting
    · obtain ⟨rfl, rfl, rfl⟩ : x' = x ∧ series' = series ∧ measure' = measure := by
        simpa using hsome.symm.trans hpivoting
      exact (Pivot.exists_pivot_iff _).mp ⟨p, hp⟩
  · intro h
    cases hpivoting : v.pivoting? rows with
    | none =>
      obtain ⟨drawn, hdrawn, -⟩ := exists_adapts c forced title hpivoting
      exact ⟨drawn, hdrawn⟩
    | some by' =>
      obtain ⟨x, series, measure⟩ := by'
      obtain ⟨p, hp⟩ := (Pivot.exists_pivot_iff measure).mpr (h x series measure hpivoting)
      rw [build_of_pivoting hpivoting, hp]
      exact ⟨_, rfl⟩

/-! ## Rows that are drawn as they are -/

/-- A row is drawn as it is, behind its position when the result has no dimensions and it does not hold one. -/
structure KeepsRow (v : Classification) (n : Nat) (row drawn : Row) : Prop where
  kept : ∀ e ∈ row, e ∈ drawn
  added : ∀ e ∈ drawn, e ∈ row ∨ (v.dimensions = [] ∧ e = (indexColumn, .int n))
  nodup : (drawn.map Prod.fst).Nodup

/-- Every row is drawn as it is, in its place. -/
structure KeepsRows (v : Classification) (rows drawn : List Row) : Prop where
  length : drawn.length = rows.length
  keeps : ∀ n row row', rows[n]? = some row → drawn[n]? = some row' → KeepsRow v n row row'

theorem getElem?_indexedRows (n : Nat) :
    (indexedRows rows)[n]? = rows[n]?.map fun row => mergeEntries ((indexColumn, .int n) :: row) := by
  simp [indexedRows, List.getElem?_zipIdx, Function.comp_def]

theorem keepsRow_indexed {row : Row} (hd : v.dimensions = []) (h : (row.map Prod.fst).Nodup) (n : Nat) :
    KeepsRow v n row (mergeEntries ((indexColumn, .int n) :: row)) where
  kept e he := by
    rw [mem_iff_lookup (nodup_mergeEntries _), lookup_mergeEntries_cons h, (mem_iff_lookup h).mp he]
    rfl
  added e he := by
    rw [mem_iff_lookup (nodup_mergeEntries _), lookup_mergeEntries_cons h, Option.or_eq_some_iff] at he
    rcases he with he | ⟨-, he⟩
    · exact .inl ((mem_iff_lookup h).mpr he)
    · split at he
      next hkey => exact .inr ⟨hd, Prod.ext hkey (Option.some.inj he).symm⟩
      next => cases he
  nodup := nodup_mergeEntries _

theorem keepsRows_start (h : ∀ row ∈ rows, (row.map Prod.fst).Nodup) :
    KeepsRows v rows (start v rows c forced title).rows := by
  cases hd : v.dimensions with
  | nil =>
    rw [rows_start_of_nil hd]
    refine ⟨by simp [indexedRows], fun n row drawn hrow hdrawn => ?_⟩
    rw [getElem?_indexedRows, hrow] at hdrawn
    obtain rfl := Option.some.inj hdrawn
    exact keepsRow_indexed hd (h row (List.mem_of_getElem? hrow)) n
  | cons x dimensions =>
    rw [rows_start_of_cons hd]
    refine ⟨rfl, fun n row drawn hrow hdrawn => ?_⟩
    obtain rfl := Option.some.inj (hrow.symm.trans hdrawn)
    exact ⟨fun e he => he, fun e he => .inl he, h row (List.mem_of_getElem? hrow)⟩

/-! ## What is said of the series -/

/-- The measure that a series came from: the only one if rows are pivoted, and else the one of that name. -/
def measureOf (chart : Chart) (v : Classification) (key : String) : String :=
  if chart.formatting.seriesKey.isSome then v.measures.headD key else key

/-- What a chart says agrees with what it draws. -/
structure Matches (v : Classification) (rows : List Row) (c : Option Catalog) (chart : Chart) : Prop where
  nodup_yKeys : chart.yKeys.Nodup
  formatKeys : chart.formatting.formats.map Prod.fst = chart.yKeys
  colorKeys : chart.formatting.colors.map Prod.fst = chart.yKeys
  measures : ∀ key ∈ chart.yKeys, chart.measureOf v key ∈ v.measures
  hints : ∀ e ∈ chart.formatting.formats, e.2 = formatHint c (chart.measureOf v e.1)
  axes : ∀ axes, chart.formatting.axes = some axes → v.dimensions.length = 1 ∧
    ∃ first second, chart.yKeys = [first, second] ∧ axes = [(first, "y"), (second, "y1")]
  seriesKey : chart.formatting.seriesKey = (v.pivoting? rows).map (·.2.1)
  stacked : chart.formatting.stacked = true ↔ chart.kind = .stackedBar
  pivoted : ∀ x series measure, v.pivoting? rows = some (x, series, measure) →
    ∃ p, pivot rows x series measure = .ok p ∧ chart.rows = p.rows ∧ chart.yKeys = p.series
  kept : v.pivoting? rows = none → KeepsRows v rows chart.rows

theorem map_fst_seriesColors {keys : List String} (h : keys.Nodup) :
    (seriesColors keys).map Prod.fst = keys := by
  have hkeys : (keys.zipIdx.map fun e => (e.1, paletteColor e.2)).map Prod.fst = keys := by
    rw [List.map_map]
    exact List.zipIdx_map_fst 0 keys
  rw [seriesColors, mergeEntries_eq_self (by rwa [hkeys]), hkeys]

theorem formats_start (h : v.measures.Nodup) :
    (start v rows c forced title).formatting.formats = v.measures.map fun m => (m, formatHint c m) := by
  refine mergeEntries_eq_self ?_
  rw [List.map_map]
  simpa [Function.comp_def] using h

theorem matches_start (hm : v.measures.Nodup) (hrows : ∀ row ∈ rows, (row.map Prod.fst).Nodup)
    (hpivoting : v.pivoting? rows = none) : Matches v rows c (start v rows c forced title) where
  nodup_yKeys := hm
  formatKeys := by
    rw [formats_start hm, List.map_map]
    exact List.map_id _
  colorKeys := map_fst_seriesColors hm
  measures key hkey := hkey
  hints e he := by
    rw [formats_start hm] at he
    obtain ⟨m, -, rfl⟩ := List.mem_map.mp he
    rfl
  axes axes haxes := by cases haxes
  seriesKey := by
    rw [hpivoting]
    rfl
  stacked := beq_iff_eq
  pivoted x series measure hsome := by
    rw [hpivoting] at hsome
    cases hsome
  kept _ := keepsRows_start hrows

theorem Matches.filledBySign (h : Matches v rows c base) : Matches v rows c (base.filledBySign measure) where
  nodup_yKeys := h.nodup_yKeys
  formatKeys := h.formatKeys
  colorKeys := h.colorKeys
  measures := h.measures
  hints := h.hints
  axes := h.axes
  seriesKey := h.seriesKey
  stacked := iff_of_false nofun nofun
  pivoted := h.pivoted
  kept := h.kept

theorem Matches.withTwoAxes {first second : String} (h : Matches v rows c base) (hd : v.dimensions = [x])
    (hkeys : base.yKeys = [first, second]) : Matches v rows c (base.withTwoAxes first second) where
  nodup_yKeys := h.nodup_yKeys
  formatKeys := h.formatKeys
  colorKeys := h.colorKeys
  measures := h.measures
  hints := h.hints
  axes axes haxes := by
    have hmerge : mergeEntries [(first, "y"), (second, "y1")] = [(first, "y"), (second, "y1")] :=
      mergeEntries_eq_self (by simpa [hkeys] using h.nodup_yKeys)
    refine ⟨by rw [hd]; rfl, first, second, hkeys, ?_⟩
    rw [← hmerge]
    exact (Option.some.inj haxes).symm
  seriesKey := h.seriesKey
  stacked := beq_iff_eq
  pivoted := h.pivoted
  kept := h.kept

theorem nodup_eraseDups (texts : List String) : texts.eraseDups.Nodup :=
  (pairwise_eraseDupsBy (r := (· == ·)) fun _ _ => Bool.beq_comm).imp fun h => beq_eq_false_iff_ne.mp h

theorem matches_pivoted {p : Pivot} (hpivoting : v.pivoting? rows = some (x, series, measure))
    (hp : pivot rows x series measure = .ok p) (haxes : base.formatting.axes = none) :
    Matches v rows c (base.pivoted (formatHint c measure) series p) := by
  have hm := (Classification.of_pivoting? hpivoting).2
  have hnodup : p.series.Nodup := by
    rw [(Pivot.of_pivot hp).2]
    exact nodup_eraseDups _
  have hmeasure (key : String) :
      (base.pivoted (formatHint c measure) series p).measureOf v key = measure := by
    show v.measures.headD key = measure
    rw [hm]
    rfl
  exact
    { nodup_yKeys := hnodup
      formatKeys := by
        show (p.series.map fun s => (s, formatHint c measure)).map Prod.fst = p.series
        rw [List.map_map]
        exact List.map_id _
      colorKeys := map_fst_seriesColors hnodup
      measures := fun key _ => by
        rw [hmeasure, hm]
        exact List.mem_singleton_self measure
      hints := fun e he => by
        obtain ⟨s, -, rfl⟩ := List.mem_map.mp he
        rw [hmeasure]
      axes := fun axes hsome => by
        change base.formatting.axes = some axes at hsome
        rw [haxes] at hsome
        cases hsome
      seriesKey := by
        rw [hpivoting]
        rfl
      stacked := beq_iff_eq
      pivoted := fun x' series' measure' hsome => by
        rw [hpivoting] at hsome
        cases hsome
        exact ⟨p, hp, rfl, rfl⟩
      kept := fun hnone => by
        rw [hpivoting] at hnone
        cases hnone }

/-- **What a chart says of its series agrees with what it draws**: every series has a color and the format of its
measure, the axes are those of two series, rows are pivoted exactly if the chart names the dimension that became
series, and otherwise they are drawn as they are.  A chart is drawn unless rows are pivoted and one of them has a
category that is no key or a text that cannot be written. -/
theorem build_matches (v : Classification) (rows : List Row) (c : Option Catalog) (forced : Option ChartKind)
    (title : Option String) (hm : v.measures.Nodup) (hrows : ∀ row ∈ rows, (row.map Prod.fst).Nodup) :
    ((∃ chart, build v rows c forced title = .ok chart) ↔
      ∀ x series measure, v.pivoting? rows = some (x, series, measure) →
        ∀ row ∈ rows, Pivot.fault? x series row = none) ∧
      ∀ chart, build v rows c forced title = .ok chart → chart.Matches v rows c := by
  refine ⟨exists_build_iff, fun chart h => ?_⟩
  rcases of_build h with ⟨hnone, hadapts⟩ | ⟨x, series, measure, p, hsome, hp, rfl⟩
  · have hstart : Matches v rows c (start v rows c forced title) := matches_start hm hrows hnone
    cases hadapts with
    | asIs => exact hstart
    | bySign => exact hstart.filledBySign
    | twoAxes hd hmeasures => exact hstart.withTwoAxes hd hmeasures
  · exact matches_pivoted hsome hp rfl

/-- Sessions by country and device. -/
def deviceRows : List Row :=
  [[("Country", .text "PT"), ("Device Type", .text "mobile"), ("session_count", .int 3)],
    [("Country", .null), ("Device Type", .text "mobile"), ("session_count", .int 1)],
    [("Country", .text "PT"), ("Device Type", .text "desktop"), ("session_count", .int 2)]]

theorem build_matches_deviceRows :
    let v := Classification.of (some sessionsCatalog) ["Country", "Device Type"] ["session_count"]
    ∃ chart, build v deviceRows (some sessionsCatalog) (some .pie) none = .ok chart ∧
      chart.Matches v deviceRows (some sessionsCatalog) ∧
        chart.formatting.formats.map Prod.fst = ["mobile", "desktop"] := by
  intro v
  have hmatches := build_matches v deviceRows (some sessionsCatalog) (some .pie) none (by decide) (by decide)
  have hpivoting : v.pivoting? deviceRows = some ("Country", "Device Type", "session_count") := by decide +kernel
  have hrows : ∀ row ∈ deviceRows, Pivot.fault? "Country" "Device Type" row = none := by
    simp only [Pivot.fault?_eq_none_iff]
    decide
  obtain ⟨chart, hchart⟩ := hmatches.1.mpr fun x series measure hsome => by
    obtain ⟨rfl, rfl, rfl⟩ : "Country" = x ∧ "Device Type" = series ∧ "session_count" = measure := by
      simpa using hpivoting.symm.trans hsome
    exact hrows
  refine ⟨chart, hchart, hmatches.2 chart hchart, ?_⟩
  obtain ⟨p, hp, -, hkeys⟩ := (hmatches.2 chart hchart).pivoted _ _ _ hpivoting
  rw [(hmatches.2 chart hchart).formatKeys, hkeys, (Pivot.of_pivot hp).2]
  decide

end Chart

end MetricLayer
