import MetricLayer.Proofs.Chart.Pivot

/-!
# Rows by category

Pivoting takes the rows of one category together: a row goes with the first one whose category is the same key.
This holds of all values, also of a nan, which goes with none.  `rowsByCategory` names these rows, and each
pivoted row is made of its own (`of_pivot`), so that its category is that of the first of them unless a text
takes the place of the category (`lookup_wideRow`).
-/

namespace MetricLayer.Pivot

variable {xKey seriesKey measure : String} {row first : Row} {rows others : List Row} {p : Pivot} {k : Value}

/-! ## Rows of one category -/

/-- The rows whose category is one key with a value. -/
def rowsOf (xKey : String) (k : Value) (rows : List Row) : List Row :=
  rows.filter fun row => k.sameKey (Row.cell row xKey)

/-- The rows whose category is another one. -/
def rowsApart (xKey : String) (k : Value) (rows : List Row) : List Row :=
  rows.filter fun row => !k.sameKey (Row.cell row xKey)

/-- The rows of each category, the first one apart, in the order in which the categories are first seen. -/
def rowsByCategory (xKey : String) : List Row → List (Row × List Row)
  | [] => []
  | row :: rows =>
    (row, rowsOf xKey (Row.cell row xKey) rows) :: rowsByCategory xKey (rowsApart xKey (Row.cell row xKey) rows)
termination_by rows => rows.length
decreasing_by exact Nat.lt_succ_of_le (List.length_filter_le ..)

theorem subset_of_mem_rowsByCategory (h : (first, others) ∈ rowsByCategory xKey rows) : first :: others ⊆ rows := by
  induction rows using rowsByCategory.induct xKey with
  | case1 =>
    rw [rowsByCategory] at h
    cases h
  | case2 row rows ih =>
    rw [rowsByCategory] at h
    rcases List.mem_cons.mp h with heq | h
    · obtain ⟨rfl, rfl⟩ := Prod.mk.inj heq
      exact List.cons_subset_cons _ (List.filter_subset_self ..)
    · exact List.subset_cons_of_subset row (List.Subset.trans (ih h) (List.filter_subset_self ..))

/-- There are rows for each category that is seen, and the first of them has the category as it is first seen. -/
theorem map_cell_rowsByCategory : (rowsByCategory xKey rows).map (fun g => Row.cell g.1 xKey) =
    (rows.map (Row.cell · xKey)).eraseDupsBy Value.sameKey := by
  induction rows using rowsByCategory.induct xKey with
  | case1 =>
    rw [rowsByCategory]
    rfl
  | case2 row rows ih =>
    have hapart : (fun v : Value => decide (v.sameKey (Row.cell row xKey) = false)) ∘ (Row.cell · xKey) =
        fun other => !(Row.cell row xKey).sameKey (Row.cell other xKey) := by
      funext other
      simp [Value.sameKey_comm (Row.cell other xKey)]
    rw [rowsByCategory, List.map_cons, ih, List.map_cons, List.eraseDupsBy_cons, List.filter_map, hapart, rowsApart]

/-! ## What the rows of a category make -/

/-- A wide row with the measure of another row under the text of that row. -/
def putCell (seriesKey measure : String) (wide row : Row) : Row :=
  putEntry (Row.cell row seriesKey).display (Row.cell row measure) wide

/-- The wide row that the rows of a category make. -/
def wideRow (xKey seriesKey measure : String) (first : Row) (others : List Row) : Row :=
  (first :: others).foldl (putCell seriesKey measure) [(xKey, Row.cell first xKey)]

theorem lookup_foldl_putCell {wide : Row} (h : ∀ row ∈ rows, (Row.cell row seriesKey).display ≠ xKey) :
    (rows.foldl (putCell seriesKey measure) wide).lookup xKey = wide.lookup xKey := by
  induction rows generalizing wide with
  | nil => rfl
  | cons row rows ih =>
    obtain ⟨hrow, hrows⟩ := List.forall_mem_cons.mp h
    rw [List.foldl_cons, ih hrows, putCell, lookup_putEntry, if_neg hrow.symm]

theorem lookup_wideRow (h : ∀ row ∈ first :: others, (Row.cell row seriesKey).display ≠ xKey) :
    (wideRow xKey seriesKey measure first others).lookup xKey = some (Row.cell first xKey) := by
  rw [wideRow, lookup_foldl_putCell h, List.lookup_cons_self]

/-! ## What pivoting makes -/

/-- The groups with the cell of one more row. -/
def addGroup (xKey seriesKey measure : String) (groups : List (Value × Row)) (row : Row) : List (Value × Row) :=
  upsertGroup (Row.cell row xKey) [(xKey, Row.cell row xKey)] (putCell seriesKey measure · row) groups

theorem groups_foldl_add :
    (rows.foldl (add xKey seriesKey measure) p).groups = rows.foldl (addGroup xKey seriesKey measure) p.groups :=
  (List.foldl_hom Pivot.groups fun _ _ => rfl).symm

/-- The first group takes the rows of its category and leaves the others to the groups behind it. -/
theorem foldl_addGroup_cons {wide : Row} {groups : List (Value × Row)} :
    rows.foldl (addGroup xKey seriesKey measure) ((k, wide) :: groups) =
      (k, (rowsOf xKey k rows).foldl (putCell seriesKey measure) wide) ::
        (rowsApart xKey k rows).foldl (addGroup xKey seriesKey measure) groups := by
  induction rows generalizing wide groups with
  | nil => rfl
  | cons row rows ih =>
    rw [List.foldl_cons, addGroup, upsertGroup]
    cases hrow : k.sameKey (Row.cell row xKey) with
    | true =>
      rw [if_pos rfl, ih]
      simp [rowsOf, rowsApart, hrow]
    | false =>
      rw [if_neg Bool.false_ne_true, ih]
      simp [rowsOf, rowsApart, hrow, addGroup]

theorem foldl_addGroup_nil : rows.foldl (addGroup xKey seriesKey measure) [] =
    (rowsByCategory xKey rows).map fun g => (Row.cell g.1 xKey, wideRow xKey seriesKey measure g.1 g.2) := by
  induction rows using rowsByCategory.induct xKey with
  | case1 =>
    rw [rowsByCategory]
    rfl
  | case2 row rows ih =>
    rw [List.foldl_cons, addGroup, upsertGroup, foldl_addGroup_cons, ih, rowsByCategory, List.map_cons]
    rfl

theorem series_foldl_add : (rows.foldl (add xKey seriesKey measure) p).series =
    (rows.map fun row => (Row.cell row seriesKey).display).foldl (fun series s => addSeries s series) p.series := by
  rw [List.foldl_map]
  exact (List.foldl_hom Pivot.series fun _ _ => rfl).symm

theorem foldl_addSeries (texts : List String) :
    texts.foldl (fun series s => addSeries s series) [] = texts.eraseDups := by
  induction texts using List.reverseRecOn with
  | nil => rfl
  | append_singleton texts s ih =>
    have hconcat : (texts ++ [s]).eraseDups = addSeries s texts.eraseDups := by
      rw [List.eraseDups, eraseDupsBy_concat, ← List.eraseDups, addSeries]
      simp
    rw [List.foldl_concat, ih, hconcat]

/-- What pivoting makes of rows, whatever they hold. -/
theorem of_pivot (h : pivot rows xKey seriesKey measure = .ok p) :
    p.rows = (rowsByCategory xKey rows).map (fun g => wideRow xKey seriesKey measure g.1 g.2) ∧
      p.series = (rows.map fun row => (Row.cell row seriesKey).display).eraseDups := by
  rw [pivot] at h
  split at h
  next => cases h
  next =>
    obtain rfl := Except.ok.inj h
    constructor
    · rw [Pivot.rows, groups_foldl_add, foldl_addGroup_nil, List.map_map]
      rfl
    · rw [series_foldl_add, foldl_addSeries]

theorem exists_pivot_iff (measure : String) : (∃ p, pivot rows xKey seriesKey measure = .ok p) ↔
    ∀ row ∈ rows, fault? xKey seriesKey row = none := by
  rw [← List.findSome?_eq_none_iff, pivot]
  cases rows.findSome? (fault? xKey seriesKey) with
  | none => simp
  | some f => simp

end MetricLayer.Pivot
