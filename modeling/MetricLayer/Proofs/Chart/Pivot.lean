import Mathlib.Data.List.Induction
import MetricLayer.Chart.Pivot
import MetricLayer.Proofs.Value.Entry
import MetricLayer.Proofs.Value.Key

/-!
# What pivoted rows hold

Pivoting keeps every cell: one row per category, one column per text, and in each cell the measure of the
last row for it (`exists_pivot_isPivotOf`).  The invariant is `Pivot.Gathers`; one row keeps it
(`Pivot.Gathers.add`), and so do all rows in turn (`Pivot.gathers_foldl_add`).
-/

namespace MetricLayer

/-! ## Distinct values in the order they are first seen -/

section distinct

variable {α : Type} {r : α → α → Bool} {a : α} {as : List α}

theorem eraseDupsBy_concat : (as ++ [a]).eraseDupsBy r =
    if (as.eraseDupsBy r).any (r a) then as.eraseDupsBy r else as.eraseDupsBy r ++ [a] := by
  have hloop : ∀ bs, List.eraseDupsBy.loop r (as ++ [a]) bs =
      if (List.eraseDupsBy.loop r as bs).any (r a) then List.eraseDupsBy.loop r as bs
      else List.eraseDupsBy.loop r as bs ++ [a] := by
    induction as with
    | nil =>
      intro bs
      simp only [List.nil_append, List.eraseDupsBy.loop, List.any_reverse]
      cases bs.any (r a) <;> simp
    | cons b as ih =>
      intro bs
      cases hb : bs.any (r b) with
      | false =>
        simp only [List.cons_append, List.eraseDupsBy.loop, hb]
        exact ih (b :: bs)
      | true =>
        simp only [List.cons_append, List.eraseDupsBy.loop, hb]
        exact ih bs
  exact hloop []

/-- Under a symmetric relation no two values that are kept are related. -/
theorem pairwise_eraseDupsBy (hcomm : ∀ b c, r b c = r c b) :
    (as.eraseDupsBy r).Pairwise (r · · = false) := by
  induction as using List.reverseRecOn with
  | nil => exact .nil
  | append_singleton as a ih =>
    rw [eraseDupsBy_concat]
    split
    next => exact ih
    next hany =>
      refine List.pairwise_append.mpr ⟨ih, List.pairwise_singleton .., fun b hb c hc => ?_⟩
      rw [List.mem_singleton.mp hc, hcomm]
      simpa using fun hab => hany (List.any_eq_true.mpr ⟨b, hb, hab⟩)

/-- Under a transitive relation what is related to a value is related to one that is kept. -/
theorem any_eraseDupsBy (htrans : ∀ {b c d}, r b c = true → r c d = true → r b d = true)
    (hself : ∀ b ∈ as, r b b = true) : (as.eraseDupsBy r).any (r a) = as.any (r a) := by
  induction as using List.reverseRecOn with
  | nil => rfl
  | append_singleton as b ih =>
    have ih := ih fun c hc => hself c (List.mem_append_left [b] hc)
    rw [eraseDupsBy_concat, List.any_append]
    split
    next hany =>
      obtain ⟨c, hc, hbc⟩ := List.any_eq_true.mp hany
      cases hab : r a b with
      | false => simp [ih, hab]
      | true =>
        simp only [List.any_cons, hab, Bool.true_or, Bool.or_true]
        exact List.any_eq_true.mpr ⟨c, hc, htrans hab hbc⟩
    next => rw [List.any_append, ih]

end distinct

namespace Pivot

variable {xKey seriesKey measure s : String} {row : Row} {rows : List Row} {p : Pivot}

/-! ## The cell of a category and a text -/

/-- The row is one for the cell of a category and a text. -/
def fills (xKey seriesKey : String) (k : Value) (s : String) (row : Row) : Bool :=
  k.sameKey (Row.cell row xKey) && (Row.cell row seriesKey).display == s

/-- The measure of the last row for a cell. -/
def lastCell? (xKey seriesKey measure : String) (rows : List Row) (k : Value) (s : String) :
    Option Value :=
  (rows.filter (fills xKey seriesKey k s)).getLast?.map (Row.cell · measure)

theorem lastCell?_concat {k : Value} : lastCell? xKey seriesKey measure (rows ++ [row]) k s =
    if fills xKey seriesKey k s row then some (Row.cell row measure)
    else lastCell? xKey seriesKey measure rows k s := by
  rw [lastCell?, List.filter_append, List.filter_cons, List.filter_nil, List.getLast?_append]
  split <;> simp [lastCell?]

theorem lastCell?_eq_none_iff {k : Value} : lastCell? xKey seriesKey measure rows k s = none ↔
    ∀ row ∈ rows, fills xKey seriesKey k s row = false := by
  simp [lastCell?]

/-! ## Groups under their keys -/

variable {key : Value} {start : Row} {f : Row → Row} {groups : List (Value × Row)}

/-- Keys that are one key with a third one are one key, so that only one group is changed. -/
theorem upsertGroup_eq (h : groups.Pairwise fun g g' => g.1.sameKey g'.1 = false) :
    upsertGroup key start f groups =
      if groups.any (·.1.sameKey key) then
        groups.map fun g => if g.1.sameKey key then (g.1, f g.2) else g
      else groups ++ [(key, f start)] := by
  induction groups with
  | nil => rfl
  | cons g groups ih =>
    obtain ⟨hg, hgroups⟩ := List.pairwise_cons.mp h
    by_cases hkey : g.1.sameKey key = true
    · have hrest : ∀ g' ∈ groups, (if g'.1.sameKey key then (g'.1, f g'.2) else g') = g' :=
        fun g' hg' => if_neg fun hkey' => by
          have := Value.sameKey_trans hkey (Value.sameKey_symm hkey')
          rw [hg g' hg'] at this
          cases this
      rw [upsertGroup, if_pos hkey, if_pos (by simp [hkey]), List.map_cons, if_pos hkey,
        List.map_congr_left hrest, List.map_id']
    · rw [upsertGroup, if_neg hkey, ih hgroups]
      simp only [List.any_cons, hkey, Bool.false_or, List.map_cons]
      split <;> simp

theorem length_flatMap_upsertGroup (cells : Row → Row) (hstart : (cells (f start)).length = 1)
    (hf : ∀ g ∈ groups, g.1.sameKey key = true → (cells (f g.2)).length = (cells g.2).length + 1) :
    ((upsertGroup key start f groups).flatMap (cells ·.2)).length = (groups.flatMap (cells ·.2)).length + 1 := by
  induction groups with
  | nil => simp [upsertGroup, hstart]
  | cons g groups ih =>
    by_cases hkey : g.1.sameKey key = true
    · rw [upsertGroup, if_pos hkey]
      simp only [List.flatMap_cons, List.length_append, hf g (List.mem_cons_self ..) hkey]
      omega
    · rw [upsertGroup, if_neg hkey]
      simp only [List.flatMap_cons, List.length_append, ih fun g' hg' => hf g' (List.mem_cons_of_mem _ hg')]
      omega

/-! ## What one row adds -/

/-- What pivoting asks of a row: a category that is a key and no nan, and a text that is not the name of
the column of categories. -/
structure Pivotable (xKey seriesKey : String) (row : Row) : Prop where
  isKey : (Row.cell row xKey).isKey = true
  isNan_eq_false : (Row.cell row xKey).isNan = false
  hasDisplay : (Row.cell row seriesKey).hasDisplay = true
  display_ne : (Row.cell row seriesKey).display ≠ xKey

instance (xKey seriesKey : String) (row : Row) : Decidable (Pivotable xKey seriesKey row) :=
  decidable_of_iff ((Row.cell row xKey).isKey = true ∧ (Row.cell row xKey).isNan = false ∧
      (Row.cell row seriesKey).hasDisplay = true ∧ (Row.cell row seriesKey).display ≠ xKey)
    ⟨fun ⟨hkey, hnan, htext, hne⟩ => ⟨hkey, hnan, htext, hne⟩,
      fun h => ⟨h.isKey, h.isNan_eq_false, h.hasDisplay, h.display_ne⟩⟩

theorem Pivotable.sameKey_self (h : Pivotable xKey seriesKey row) :
    (Row.cell row xKey).sameKey (Row.cell row xKey) = true :=
  Value.sameKey_self h.isKey h.isNan_eq_false

/-- What a pivoted row holds of the rows of its category. -/
structure Holds (xKey seriesKey measure : String) (rows : List Row) (k : Value) (wide : Row) : Prop where
  category : wide.lookup xKey = some k
  nodup : (wide.map Prod.fst).Nodup
  cells : ∀ s ≠ xKey, wide.lookup s = lastCell? xKey seriesKey measure rows k s

theorem holds_start {k : Value} (h : ∀ row ∈ rows, k.sameKey (Row.cell row xKey) = false) :
    Holds xKey seriesKey measure rows k [(xKey, k)] where
  category := List.lookup_cons_self
  nodup := List.nodup_singleton xKey
  cells s hs := by
    rw [lastCell?_eq_none_iff.mpr fun row hrow => by rw [fills, h row hrow, Bool.false_and],
      List.lookup_cons, beq_eq_false_iff_ne.mpr hs]
    rfl

/-- A row of the category puts its measure under its text; a row of another one adds nothing. -/
theorem Holds.add {k : Value} {wide : Row} (h : Holds xKey seriesKey measure rows k wide)
    (hrow : Pivotable xKey seriesKey row) :
    Holds xKey seriesKey measure (rows ++ [row]) k
      (if k.sameKey (Row.cell row xKey) then
        putEntry (Row.cell row seriesKey).display (Row.cell row measure) wide else wide) := by
  split
  next hk =>
    refine ⟨?_, nodup_putEntry h.nodup, fun s hs => ?_⟩
    · rw [lookup_putEntry, if_neg hrow.display_ne.symm, h.category]
    · rw [lookup_putEntry, lastCell?_concat, fills, hk, Bool.true_and, h.cells s hs]
      simp only [beq_iff_eq, @eq_comm _ s]
  next hk =>
    refine ⟨h.category, h.nodup, fun s hs => ?_⟩
    rw [lastCell?_concat, fills, eq_false_of_ne_true hk, Bool.false_and, if_neg Bool.false_ne_true,
      h.cells s hs]

/-- What pivoted rows under their keys hold of the rows they are made of. -/
structure Gathers (xKey seriesKey measure : String) (rows : List Row) (p : Pivot) : Prop where
  keys : p.groups.map (·.1) = (rows.map (Row.cell · xKey)).eraseDupsBy Value.sameKey
  groups : ∀ g ∈ p.groups, Holds xKey seriesKey measure rows g.1 g.2
  series : p.series = (rows.map fun row => (Row.cell row seriesKey).display).eraseDups

theorem Gathers.pairwise (h : Gathers xKey seriesKey measure rows p) :
    p.groups.Pairwise fun g g' => g.1.sameKey g'.1 = false := by
  rw [← List.pairwise_map (f := Prod.fst) (R := (Value.sameKey · · = false)), h.keys]
  exact pairwise_eraseDupsBy Value.sameKey_comm

/-- A category has a group if a row is of that category. -/
theorem Gathers.any_groups (h : Gathers xKey seriesKey measure rows p)
    (hrows : ∀ row ∈ rows, Pivotable xKey seriesKey row) (k : Value) :
    p.groups.any (·.1.sameKey k) = rows.any fun row => k.sameKey (Row.cell row xKey) := by
  have hself : ∀ v ∈ rows.map (Row.cell · xKey), v.sameKey v = true := by
    simpa using fun row hrow => (hrows row hrow).sameKey_self
  calc p.groups.any (·.1.sameKey k) = (p.groups.map (·.1)).any k.sameKey := by
        simp only [List.any_map, Function.comp_def, Value.sameKey_comm k]
    _ = (rows.map (Row.cell · xKey)).any k.sameKey := by
        rw [h.keys, any_eraseDupsBy (r := Value.sameKey) Value.sameKey_trans hself]
    _ = rows.any fun row => k.sameKey (Row.cell row xKey) := List.any_map ..

theorem Gathers.add (h : Gathers xKey seriesKey measure rows p)
    (hrows : ∀ row ∈ rows, Pivotable xKey seriesKey row) (hrow : Pivotable xKey seriesKey row) :
    Gathers xKey seriesKey measure (rows ++ [row]) (p.add xKey seriesKey measure row) := by
  have hkeys : (p.groups.map (·.1)).any (Row.cell row xKey).sameKey =
      p.groups.any (·.1.sameKey (Row.cell row xKey)) := by
    simp only [List.any_map, Function.comp_def, Value.sameKey_comm (Row.cell row xKey)]
  refine ⟨?_, ?_, ?_⟩
  · rw [List.map_append, List.map_singleton, eraseDupsBy_concat, ← h.keys, hkeys, Pivot.add,
      upsertGroup_eq h.pairwise]
    split
    next =>
      rw [List.map_map]
      exact List.map_congr_left fun g _ => by simp only [Function.comp]; split <;> rfl
    next => rw [List.map_append, List.map_singleton]
  · rw [Pivot.add, upsertGroup_eq h.pairwise]
    split
    next =>
      intro g' hg'
      obtain ⟨g, hg, rfl⟩ := List.mem_map.mp hg'
      have hadd := (h.groups g hg).add hrow
      split at hadd
      next hsame => rwa [if_pos hsame]
      next hne => rwa [if_neg hne]
    next hany =>
      intro g hg
      rcases List.mem_append.mp hg with hg | hg
      · have hne : ¬ g.1.sameKey (Row.cell row xKey) = true :=
          fun hsame => hany (List.any_eq_true.mpr ⟨g, hg, hsame⟩)
        simpa only [if_neg hne] using (h.groups g hg).add hrow
      · rw [h.any_groups hrows] at hany
        have hstart : Holds xKey seriesKey measure rows (Row.cell row xKey) [(xKey, Row.cell row xKey)] :=
          holds_start (by simpa using hany)
        have hnew := hstart.add hrow
        rw [if_pos hrow.sameKey_self] at hnew
        rw [List.mem_singleton.mp hg]
        exact hnew
  · rw [List.map_append, List.map_singleton, List.eraseDups, eraseDupsBy_concat, ← List.eraseDups,
      ← h.series, Pivot.add, addSeries]
    simp

/-! ## What all rows make -/

theorem gathers_foldl_add (hrows : ∀ row ∈ rows, Pivotable xKey seriesKey row) :
    Gathers xKey seriesKey measure rows (rows.foldl (Pivot.add xKey seriesKey measure) ⟨[], []⟩) := by
  induction rows using List.reverseRecOn with
  | nil => exact ⟨rfl, nofun, rfl⟩
  | append_singleton rows row ih =>
    have hrows' : ∀ row ∈ rows, Pivotable xKey seriesKey row :=
      fun row' hrow' => hrows row' (List.mem_append_left [row] hrow')
    rw [List.foldl_concat]
    exact (ih hrows').add hrows' (hrows row (by simp))

/-- The number of cells of pivoted rows, apart from their categories. -/
def cellCount (xKey : String) (wide : List Row) : Nat :=
  (wide.flatMap fun row => row.filter (·.1 != xKey)).length

/-- A row for a cell that no earlier row is for adds one cell. -/
theorem Gathers.cellCount_add (h : Gathers xKey seriesKey measure rows p)
    (hrow : Pivotable xKey seriesKey row)
    (hfresh : ∀ row' ∈ rows, fills xKey seriesKey (Row.cell row' xKey) (Row.cell row' seriesKey).display row
      = false) :
    cellCount xKey (p.add xKey seriesKey measure row).rows = cellCount xKey p.rows + 1 := by
  have hput : ∀ wide : Row, (Row.cell row seriesKey).display ∉ wide.map Prod.fst →
      ((putEntry (Row.cell row seriesKey).display (Row.cell row measure) wide).filter (·.1 != xKey)).length =
        (wide.filter (·.1 != xKey)).length + 1 := fun wide hwide => by
    rw [putEntry_of_not_mem hwide, List.filter_append, List.length_append]
    simp [hrow.display_ne]
  simp only [cellCount, Pivot.rows, Pivot.add, List.flatMap_map]
  refine length_flatMap_upsertGroup (·.filter (·.1 != xKey)) ?_ fun g hg hsame => hput g.2 ?_
  · simpa using hput [(xKey, Row.cell row xKey)] (by simpa using hrow.display_ne)
  · refine not_mem_of_lookup_eq_none ?_
    rw [(h.groups g hg).cells _ hrow.display_ne, lastCell?_eq_none_iff]
    intro row' hrow'
    by_contra hfills
    rw [Bool.not_eq_false, fills, Bool.and_eq_true, beq_iff_eq] at hfills
    have := hfresh row' hrow'
    rw [fills, Value.sameKey_trans (Value.sameKey_symm hfills.1) hsame, hfills.2] at this
    simp at this

/-- No later row is for the cell of an earlier one. -/
def OneRowPerCell (xKey seriesKey : String) (rows : List Row) : Prop :=
  rows.Pairwise fun row row' =>
    fills xKey seriesKey (Row.cell row xKey) (Row.cell row seriesKey).display row' = false

theorem cellCount_foldl_add (hrows : ∀ row ∈ rows, Pivotable xKey seriesKey row)
    (h : OneRowPerCell xKey seriesKey rows) :
    cellCount xKey (rows.foldl (Pivot.add xKey seriesKey measure) ⟨[], []⟩).rows = rows.length := by
  induction rows using List.reverseRecOn with
  | nil => rfl
  | append_singleton rows row ih =>
    have hrows' : ∀ row ∈ rows, Pivotable xKey seriesKey row :=
      fun row' hrow' => hrows row' (List.mem_append_left [row] hrow')
    obtain ⟨hpairs, -, hfresh⟩ := List.pairwise_append.mp h
    rw [List.foldl_concat, (gathers_foldl_add hrows').cellCount_add (hrows row (by simp))
      fun row' hrow' => hfresh row' hrow' row (List.mem_singleton_self row), ih hrows' hpairs]
    simp

/-- Rows and texts are what pivoting makes of the rows: one row for each category that is seen, under the
category as it is first seen, with the measure of the last row for each cell and with nothing else. -/
structure IsPivotOf (xKey seriesKey measure : String) (rows wide : List Row) (series : List String) :
    Prop where
  categories : wide.map (·.lookup xKey) =
    ((rows.map (Row.cell · xKey)).eraseDupsBy Value.sameKey).map some
  series : series = (rows.map fun row => (Row.cell row seriesKey).display).eraseDups
  nodup : ∀ row ∈ wide, (row.map Prod.fst).Nodup
  cells : ∀ row ∈ wide, ∀ s ≠ xKey,
    row.lookup s = lastCell? xKey seriesKey measure rows (Row.cell row xKey) s
  count : OneRowPerCell xKey seriesKey rows → cellCount xKey wide = rows.length

theorem Gathers.isPivotOf (h : Gathers xKey seriesKey measure rows p)
    (hcount : OneRowPerCell xKey seriesKey rows → cellCount xKey p.rows = rows.length) :
    IsPivotOf xKey seriesKey measure rows p.rows p.series where
  categories := by
    rw [← h.keys, Pivot.rows, List.map_map, List.map_map]
    exact List.map_congr_left fun g hg => (h.groups g hg).category
  series := h.series
  nodup := by
    rintro _ hwide
    obtain ⟨g, hg, rfl⟩ := List.mem_map.mp hwide
    exact (h.groups g hg).nodup
  cells := by
    rintro _ hwide s hs
    obtain ⟨g, hg, rfl⟩ := List.mem_map.mp hwide
    rw [Row.cell, (h.groups g hg).category, Option.getD_some]
    exact (h.groups g hg).cells s hs
  count := hcount

theorem fault?_eq_none_iff : fault? xKey seriesKey row = none ↔
    (Row.cell row seriesKey).hasDisplay = true ∧ (Row.cell row xKey).isKey = true := by
  rw [fault?]
  split
  next h => simp_all
  next h => split <;> simp_all

end Pivot

/-- Pivoting keeps every cell of rows whose categories are keys and whose texts are not the name of the
column of categories. -/
theorem exists_pivot_isPivotOf (rows : List Row) (xKey seriesKey measure : String)
    (hrows : ∀ row ∈ rows, Pivot.Pivotable xKey seriesKey row) :
    ∃ p, pivot rows xKey seriesKey measure = .ok p ∧
      Pivot.IsPivotOf xKey seriesKey measure rows p.rows p.series := by
  refine ⟨_, ?_, (Pivot.gathers_foldl_add hrows).isPivotOf (Pivot.cellCount_foldl_add hrows)⟩
  have hnone : rows.findSome? (Pivot.fault? xKey seriesKey) = none :=
    List.findSome?_eq_none_iff.mpr fun row hrow =>
      Pivot.fault?_eq_none_iff.mpr ⟨(hrows row hrow).hasDisplay, (hrows row hrow).isKey⟩
  rw [pivot, hnone]

/-- Rows of two categories: 1, true and 1.0 are one, and an absent column holds null. -/
def Pivot.mixedRows : List Row :=
  [[("x", .int 1), ("s", .text "a"), ("n", .int 5)], [("x", .bool true), ("n", .int 6)],
    [("s", .text "a")], [("x", .float (.finite false 1 0)), ("s", .text "a"), ("n", .int 7)]]

theorem exists_pivot_isPivotOf_mixed :
    ∃ p, pivot Pivot.mixedRows "x" "s" "n" = .ok p ∧
      Pivot.IsPivotOf "x" "s" "n" Pivot.mixedRows p.rows p.series ∧
      p.rows.length = 2 ∧ p.series = ["a", "None"] := by
  obtain ⟨p, hp, hpivot⟩ := exists_pivot_isPivotOf Pivot.mixedRows "x" "s" "n" (by decide)
  refine ⟨p, hp, hpivot, ?_, ?_⟩
  · rw [← List.length_map (·.lookup "x"), hpivot.categories]
    decide
  · rw [hpivot.series]
    decide

end MetricLayer
