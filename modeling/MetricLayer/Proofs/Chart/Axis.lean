import MetricLayer.Proofs.Chart.Build

/-!
# The axis of a chart

The series of a chart stand under keys of their own, and its rows hold their category, or their position, under the
key of the axis.  Data can spoil this in two ways: a text of the second dimension that is the name of the first one,
and a column of the result that has the name of the column of positions.  Otherwise the axis is kept
(`Chart.exists_keepsAxis_iff`).
-/

namespace MetricLayer

variable {v : Classification} {rows : List Row} {c : Option Catalog} {forced : Option ChartKind}
  {title : Option String} {chart base : Chart} {x series measure : String}

/-- A row of a chart is built from rows of the result: from those of a category if rows are pivoted, or else from
the row that it is. -/
def Classification.Builds (v : Classification) (rows source : List Row) (drawn : Row) : Prop :=
  source ⊆ rows ∧ match v.pivoting? rows with
    | some (x, series, measure) =>
      ∃ first others, source = first :: others ∧ drawn = Pivot.wideRow x series measure first others
    | none => source = [drawn]

/-- The data leaves the key of the axis to the categories or positions. -/
structure Classification.LeavesAxis (v : Classification) (rows : List Row) : Prop where
  positions : v.dimensions = [] → indexColumn ∉ v.measures ∧
    ∀ (n : Nat) (row : Row), rows[n]? = some row → ∀ value ∈ row.lookup indexColumn, value = .int n
  categories : ∀ x series measure, v.pivoting? rows = some (x, series, measure) →
    ∀ row ∈ rows, Pivot.fault? x series row = none ∧ (Row.cell row series).display ≠ x

theorem Row.lookup_eq_cell {row : Row} {column : String} (h : (row.lookup column).isSome) :
    row.lookup column = some (Row.cell row column) := by
  obtain ⟨value, hvalue⟩ := Option.isSome_iff_exists.mp h
  rw [Row.cell, hvalue]
  rfl

namespace Chart

/-- The axis of a chart shows what the rows are of: no series has the key of the axis, and each row holds under it
the first dimension of a row that it is built from, or its position when there is no dimension. -/
structure KeepsAxis (v : Classification) (rows : List Row) (chart : Chart) : Prop where
  xKey_not_mem : chart.xKey ∉ chart.yKeys
  categories : ∀ x ∈ v.dimensions.head?, chart.xKey = x ∧ ∀ drawn ∈ chart.rows,
    ∃ source, v.Builds rows source drawn ∧ ∃ row ∈ source, drawn.lookup x = row.lookup x
  positions : v.dimensions = [] → chart.xKey = indexColumn ∧
    ∀ (n : Nat) (drawn : Row), chart.rows[n]? = some drawn → drawn.lookup indexColumn = some (.int n)

/-- The axis is kept or not whatever the kind of a chart. -/
theorem Adapts.keepsAxis_iff (h : Adapts v base chart) : KeepsAxis v rows chart ↔ KeepsAxis v rows base := by
  cases h with
  | asIs => exact Iff.rfl
  | bySign => exact ⟨fun h => ⟨h.1, h.2, h.3⟩, fun h => ⟨h.1, h.2, h.3⟩⟩
  | twoAxes => exact ⟨fun h => ⟨h.1, h.2, h.3⟩, fun h => ⟨h.1, h.2, h.3⟩⟩

theorem lookup_indexedRows {row : Row} {n : Nat} (h : (row.map Prod.fst).Nodup) (hrow : rows[n]? = some row) :
    ∃ drawn, (indexedRows rows)[n]? = some drawn ∧
      drawn.lookup indexColumn = some ((row.lookup indexColumn).getD (.int n)) := by
  refine ⟨mergeEntries ((indexColumn, .int n) :: row), by rw [getElem?_indexedRows, hrow]; rfl, ?_⟩
  rw [lookup_mergeEntries_cons h, if_pos rfl]
  cases row.lookup indexColumn with
  | none => rfl
  | some value => rfl

/-! ## Rows that are not pivoted -/

theorem forall_pivoting?_of_eq_none (hnone : v.pivoting? rows = none) :
    ∀ x series measure, v.pivoting? rows = some (x, series, measure) → ∀ row ∈ rows,
      Pivot.fault? x series row = none ∧ (Row.cell row series).display ≠ x := by
  intro x series measure hsome
  rw [hnone] at hsome
  cases hsome

/-- The position of a row stands in front of it, and an entry of the row with its name takes its place. -/
theorem keepsAxis_indexed_iff (hd : v.dimensions = []) (hrows : ∀ row ∈ rows, (row.map Prod.fst).Nodup)
    (hnone : v.pivoting? rows = none) :
    KeepsAxis v rows (start v rows c forced title) ↔ v.LeavesAxis rows := by
  have hkey : (start v rows c forced title).xKey = indexColumn := by rw [xKey_start, hd]; rfl
  constructor
  · intro h
    refine ⟨fun _ => ⟨hkey ▸ h.xKey_not_mem, fun n row hrow value hvalue => ?_⟩,
      forall_pivoting?_of_eq_none hnone⟩
    obtain ⟨drawn, hn, hlookup⟩ := lookup_indexedRows (hrows row (List.mem_of_getElem? hrow)) hrow
    have hposition := (h.positions hd).2 n drawn (rows_start_of_nil hd ▸ hn)
    rw [hlookup, hvalue] at hposition
    exact Option.some.inj hposition
  · intro h
    obtain ⟨hindex, hpositions⟩ := h.positions hd
    refine ⟨hkey ▸ hindex, fun x hx => ?_, fun _ => ⟨hkey, fun n drawn hn => ?_⟩⟩
    · rw [hd] at hx
      cases hx
    · rw [rows_start_of_nil hd] at hn
      obtain ⟨row, hrow, -⟩ := Option.map_eq_some_iff.mp (getElem?_indexedRows n ▸ hn)
      obtain ⟨drawn', hn', hlookup⟩ := lookup_indexedRows (hrows row (List.mem_of_getElem? hrow)) hrow
      obtain rfl := Option.some.inj (hn.symm.trans hn')
      rw [hlookup]
      cases hvalue : row.lookup indexColumn with
      | none => rfl
      | some value => rw [hpositions n row hrow value hvalue]; rfl

theorem keepsAxis_start {dimensions : List String} (hd : v.dimensions = x :: dimensions)
    (hnames : (v.dimensions ++ v.measures).Nodup) (hnone : v.pivoting? rows = none) :
    KeepsAxis v rows (start v rows c forced title) := by
  have hkey : (start v rows c forced title).xKey = x := by rw [xKey_start, hd]; rfl
  refine ⟨?_, fun y hy => ?_, fun hnil => ?_⟩
  · rw [hd] at hnames
    rw [hkey]
    exact fun hmem => (List.nodup_cons.mp hnames).1 (List.mem_append_right dimensions hmem)
  · rw [hd] at hy
    obtain rfl := Option.some.inj hy
    refine ⟨hkey, fun drawn hmem => ⟨[drawn], ⟨?_, ?_⟩, drawn, List.mem_singleton_self drawn, rfl⟩⟩
    · simpa [rows_start_of_cons hd] using hmem
    · rw [hnone]
  · rw [hd] at hnil
    cases hnil

theorem keepsAxis_start_iff (hnames : (v.dimensions ++ v.measures).Nodup)
    (hrows : ∀ row ∈ rows, (row.map Prod.fst).Nodup) (hnone : v.pivoting? rows = none) :
    KeepsAxis v rows (start v rows c forced title) ↔ v.LeavesAxis rows := by
  cases hd : v.dimensions with
  | nil => exact keepsAxis_indexed_iff hd hrows hnone
  | cons x dimensions =>
    refine iff_of_true (keepsAxis_start hd hnames hnone)
      ⟨fun hnil => ?_, forall_pivoting?_of_eq_none hnone⟩
    rw [hd] at hnil
    cases hnil

/-! ## Pivoted rows -/

theorem keepsAxis_pivoted_iff {p : Pivot} (hheld : ∀ row ∈ rows, (row.lookup x).isSome)
    (hsome : v.pivoting? rows = some (x, series, measure)) (hp : pivot rows x series measure = .ok p) :
    KeepsAxis v rows ((start v rows c forced title).pivoted (formatHint c measure) series p) ↔
      v.LeavesAxis rows := by
  obtain ⟨hd, -⟩ := Classification.of_pivoting? hsome
  obtain ⟨hwide, hseries⟩ := Pivot.of_pivot hp
  have hkey : (start v rows c forced title).xKey = x := by rw [xKey_start, hd]; rfl
  have hmem (s : String) : s ∈ p.series ↔ ∃ row ∈ rows, (Row.cell row series).display = s := by
    rw [hseries, List.mem_eraseDups, List.mem_map]
  constructor
  · intro h
    refine ⟨fun hnil => ?_, fun x' series' measure' hsome' row hrow => ?_⟩
    · rw [hd] at hnil
      cases hnil
    · rw [hsome] at hsome'
      cases hsome'
      refine ⟨(Pivot.exists_pivot_iff _).mp ⟨p, hp⟩ row hrow, fun hdisplay => h.xKey_not_mem ?_⟩
      show (start v rows c forced title).xKey ∈ p.series
      rw [hkey, hmem]
      exact ⟨row, hrow, hdisplay⟩
  · intro h
    have hapart := h.categories x series measure hsome
    refine ⟨?_, fun y hy => ?_, fun hnil => ?_⟩
    · show (start v rows c forced title).xKey ∉ p.series
      rw [hkey, hmem]
      rintro ⟨row, hrow, hdisplay⟩
      exact (hapart row hrow).2 hdisplay
    · rw [hd] at hy
      obtain rfl := Option.some.inj hy
      refine ⟨hkey, fun drawn hdrawn => ?_⟩
      change drawn ∈ p.rows at hdrawn
      rw [hwide] at hdrawn
      obtain ⟨⟨first, others⟩, hgroup, rfl⟩ := List.mem_map.mp hdrawn
      have hsource := Pivot.subset_of_mem_rowsByCategory hgroup
      refine ⟨first :: others, ⟨hsource, ?_⟩, first, List.mem_cons_self, ?_⟩
      · rw [hsome]
        exact ⟨first, others, rfl, rfl⟩
      · rw [Pivot.lookup_wideRow fun row hrow => (hapart row (hsource hrow)).2,
          Row.lookup_eq_cell (hheld first (hsource List.mem_cons_self))]
    · rw [hd] at hnil
      cases hnil

/-- **The axis of a chart is overwritten exactly if the data holds its key**: a chart is drawn and keeps its axis,
unless a text of the second dimension that becomes a series is the name of the first dimension, or the result has no
dimension and a column with the name of the positions.  Rows that are pivoted need keys for categories and texts
that can be written. -/
theorem exists_keepsAxis_iff (v : Classification) (rows : List Row) (c : Option Catalog) (forced : Option ChartKind)
    (title : Option String) (hnames : (v.dimensions ++ v.measures).Nodup)
    (hrows : ∀ row ∈ rows, (row.map Prod.fst).Nodup)
    (hheld : ∀ row ∈ rows, ∀ name ∈ v.dimensions ++ v.measures, (row.lookup name).isSome) :
    (∃ chart, build v rows c forced title = .ok chart ∧ chart.KeepsAxis v rows) ↔ v.LeavesAxis rows := by
  cases hpivoting : v.pivoting? rows with
  | none =>
    obtain ⟨chart, hchart, hadapts⟩ := exists_adapts c forced title hpivoting
    simp only [hchart, Except.ok.injEq, exists_eq_left']
    exact hadapts.keepsAxis_iff.trans (keepsAxis_start_iff hnames hrows hpivoting)
  | some by' =>
    obtain ⟨x, series, measure⟩ := by'
    have hx : x ∈ v.dimensions ++ v.measures := by
      rw [(Classification.of_pivoting? hpivoting).1]
      exact List.mem_cons_self
    rw [build_of_pivoting hpivoting]
    cases hp : pivot rows x series measure with
    | error f =>
      constructor
      · rintro ⟨chart, hchart, -⟩
        cases hchart
      · intro h
        obtain ⟨p, hp'⟩ := (Pivot.exists_pivot_iff measure).mpr fun row hrow =>
          (h.categories x series measure hpivoting row hrow).1
        rw [hp] at hp'
        cases hp'
    | ok p =>
      simp only [Except.map, Except.ok.injEq, exists_eq_left']
      exact keepsAxis_pivoted_iff (fun row hrow => hheld row hrow x hx) hpivoting hp

theorem exists_keepsAxis_deviceRows :
    let v := Classification.of (some sessionsCatalog) ["Country", "Device Type"] ["session_count"]
    v.LeavesAxis deviceRows ∧
      ∃ chart, build v deviceRows (some sessionsCatalog) none none = .ok chart ∧ chart.KeepsAxis v deviceRows := by
  intro v
  have hpivoting : v.pivoting? deviceRows = some ("Country", "Device Type", "session_count") := by decide +kernel
  have hleaves : v.LeavesAxis deviceRows := by
    refine ⟨nofun, fun x series measure hsome => ?_⟩
    obtain ⟨rfl, rfl, rfl⟩ : "Country" = x ∧ "Device Type" = series ∧ "session_count" = measure := by
      simpa using hpivoting.symm.trans hsome
    simp only [Pivot.fault?_eq_none_iff]
    decide
  exact ⟨hleaves, (exists_keepsAxis_iff v deviceRows (some sessionsCatalog) none none (by decide) (by decide)
    (by decide)).mpr hleaves⟩

/-- A row with a column that has the name of the positions. -/
def indexRows : List Row :=
  [[(indexColumn, .int 7), ("session_count", .int 1)]]

theorem not_forall_keepsAxis :
    ¬ ∀ (c : Option Catalog) (dimensions measures : List String) (rows : List Row) (v : Classification),
      Classification.of? c dimensions measures = .ok v → (dimensions ++ measures).Nodup →
      (∀ row ∈ rows, (row.map Prod.fst).Nodup) →
      (∀ row ∈ rows, ∀ name ∈ dimensions ++ measures, (row.lookup name).isSome) →
      ∃ chart, build v rows c none none = .ok chart ∧ chart.KeepsAxis v rows := by
  intro h
  obtain ⟨chart, hchart, hkeeps⟩ := h none [] ["session_count"] indexRows (.of none [] ["session_count"]) rfl
    (by decide) (by decide) (by decide)
  rcases of_build hchart with ⟨hnone, hadapts⟩ | ⟨_, _, _, _, hsome, -⟩
  · have hleaves := (keepsAxis_start_iff (by decide) (by decide) hnone).mp (hadapts.keepsAxis_iff.mp hkeeps)
    have hposition := (hleaves.positions rfl).2 0 _ rfl (.int 7) rfl
    cases hposition
  · cases hsome

end Chart

end MetricLayer
