import MetricLayer.Proofs.Catalog.Draft
import MetricLayer.Proofs.Selection.Items

/-!
# What drafted entries aggregate

The expression that a selection writes for an entry is read back as one aggregate call of a column, or as none
(`Catalog.aggregated?`).  Every entry of a draft but the count of rows belongs to a column (`Draft.exists_measured`).
Aggregations name it in quotes and are read back whatever it is called (`Catalog.aggregated?_aggregation`); the
distinct values of a column are counted under its bare name, which is read back only if it is a word
(`Catalog.aggregated?_distinctCount`).  `Draft.exists_aggregated?_iff` says this of whole drafts.
-/

namespace MetricLayer

open MetricLayer.Text MetricLayer.Sql

/-- The column that an entry is computed from, if its expression is one aggregate call. -/
def Catalog.aggregated? (c : Catalog) (e : Entry) : Option String := do
  let expression ← (c.entrySql e).toOption
  let call ← singleCall? expression.toList
  identifier? call.argument

namespace Catalog

variable {c : Catalog}

theorem aggregated?_of_entrySql {e : Entry} {expression : String} (h : c.entrySql e = .ok expression) :
    c.aggregated? e = (singleCall? expression.toList).bind fun call => identifier? call.argument := by
  rw [aggregated?, h]
  rfl

/-- An aggregation is read back as its column, in quotes. -/
theorem aggregated?_aggregation {a : Aggregation} (hrows : a.source ≠ rowSource)
    (hfunction : a.function ∈ aggregateFunctions) :
    c.aggregated? (.aggregation a) = identifier? (columnRef c.table a.source).toList := by
  obtain ⟨rest, hrest, htrim⟩ := exists_columnRef c.table a.source
  obtain ⟨w, body, happlied⟩ := exists_applied_quoted hfunction hrest htrim (callless_columnRef c.table a.source)
  rw [aggregated?_of_entrySql (entrySql_aggregation c hrows hfunction), happlied.singleCall?, Option.bind_some,
    happlied.argument]

/-- The count of distinct values is read back as its column exactly if that is a word. -/
theorem aggregated?_distinctCount (aliasName description : String) (f : Field) :
    c.aggregated? (.formula (Draft.distinctCount aliasName description f)) = some f.name ↔
      IsWordName f.name.toList ∧ isLiteral f.name.toList = false := by
  have hcount : ∃ name ∈ aggregateNames, "COUNT".toList.map fold = name.toList := exists_aggregateName (by decide)
  have htext := toList_callText_distinct f.name
  have htrim : Trimmed (callText "count_distinct" f.name).toList :=
    htext ▸ trimmed_application (by decide) (by decide)
  have hhead : (callText "count_distinct" f.name).toList.head? ≠ some '(' := by
    rw [htext]
    show some 'C' ≠ some '('
    decide
  have hread : c.aggregated? (.formula (Draft.distinctCount aliasName description f)) =
      (singleCall? ('(' :: ((callText "count_distinct" f.name).toList ++ [')']))).bind
        fun call => identifier? call.argument := by
    rw [aggregated?_of_entrySql rfl]
    simp [Draft.distinctCount, callText, callHead]
  rw [hread, singleCall?_group htrim hhead, ← identifier?_eq_self_iff, ← identifier?_argument_distinct_iff]
  constructor
  · intro h
    obtain ⟨call, hcall, hargument⟩ := Option.bind_eq_some_iff.mp h
    rw [htext, singleCall?_application hcount] at hcall
    split_ifs at hcall
    rwa [Option.some.inj hcall]
  · intro h
    obtain ⟨hword, -⟩ := identifier?_eq_self_iff.mp (identifier?_argument_distinct_iff.mp h)
    have hdistinct : WellFormed ("DISTINCT ".toList ++ f.name.toList) :=
      WellFormed.append (by decide) hword.wellFormed
    have hcall : WellFormed (callText "count_distinct" f.name).toList :=
      htext ▸ WellFormed.append (by decide) hdistinct.group
    rw [if_pos (isEnclosed_group hcall), htext, singleCall?_call hcount hdistinct, Option.bind_some, h]

end Catalog

namespace Draft

variable {table description : String} {columns : List (String × String)} {e : Entry}

theorem table_foldl (c : Catalog) (columns : List (String × String)) : (columns.foldl addColumn c).table = c.table := by
  induction columns generalizing c with
  | nil => rfl
  | cons column columns ih => exact ih (addColumn c column)

theorem table_draft (table : String) (columns : List (String × String)) (description : String) :
    (Catalog.draft table columns description).table = table :=
  table_foldl _ columns

theorem source_of_mem_measured {name type : String} (h : e ∈ measured (profile name type)) : e.source = name := by
  rcases of_mem_measured h with ⟨a, ha, rfl⟩ | ⟨aliasName, described, rfl⟩
  · exact (source_numericAggregations ha).trans name_profile
  · exact name_profile

/-- Columns add no measures but their own. -/
theorem exists_of_mem_measures {c : Catalog} {m : Measure} (h : m ∈ (columns.foldl addColumn c).measures) :
    m ∈ c.measures ∨ ∃ column ∈ columns, measure? (profile column.1 column.2) = some m := by
  induction columns generalizing c with
  | nil => exact Or.inl h
  | cons column columns ih =>
    rcases ih h with h | ⟨later, hlater, hm⟩
    · rw [addColumn_eq] at h
      cases hmeasure : measure? (profile column.1 column.2) with
      | none =>
        rw [hmeasure] at h
        exact Or.inl h
      | some own =>
        rw [hmeasure] at h
        rcases mem_of_mem_upsert h with rfl | h
        · exact Or.inr ⟨column, List.mem_cons_self, hmeasure⟩
        · exact Or.inl h
    · exact Or.inr ⟨later, List.mem_cons_of_mem column hlater, hm⟩

/-- Every entry but the count of rows is measured on a column, which is not the sentinel for the rows. -/
theorem exists_measured (he : e ∈ (Catalog.draft table columns description).entries) (hrow : e.aliasName ≠ "row_count") :
    ∃ column ∈ columns, e ∈ measured (profile column.1 column.2) ∧ column.1 ≠ rowSource := by
  have hsourced : (Catalog.draft table columns description).Sourced :=
    Catalog.Built.sourced (.draft table columns description)
  have hcount : e ∉ rowCount.entries := fun hmem => hrow (by rw [List.mem_singleton.mp hmem]; rfl)
  obtain ⟨m, hm, hmem⟩ := List.mem_flatMap.mp he
  rcases mem_of_mem_upsert hm with rfl | hcolumns
  · exact absurd hmem hcount
  rcases exists_of_mem_measures hcolumns with hnone | ⟨column, hcolumn, hmeasure⟩
  · cases hnone
  have hmeasured : e ∈ measured (profile column.1 column.2) := by
    rw [measured, hmeasure]
    exact hmem
  refine ⟨column, hcolumn, hmeasured, fun hrows => hcount ?_⟩
  -- the measure of a column with that name has given way to the count of rows
  have hsource : e.source = rowCount.source := (source_of_mem_measured hmeasured).trans hrows
  exact hsourced.mem_entries (mem_upsert Measure.source rowCount _) he hsource

/-- An entry can be read back: an aggregation if no part of the table is without a name, a formula if its column is
a word. -/
def ReadsBack (table column : String) : Entry → Prop
  | .aggregation _ => "" ∉ tableParts table
  | .formula _ => IsWordName column.toList ∧ isLiteral column.toList = false

/-- **Every drafted entry but the count of rows is one aggregate call of its column exactly if it can be read back.** -/
theorem exists_aggregated?_iff (table description : String) {columns : List (String × String)}
    (hnames : ∀ column ∈ columns, column.1 ≠ "") {e : Entry}
    (he : e ∈ (Catalog.draft table columns description).entries) (hrow : e.aliasName ≠ "row_count") :
    ∃ column ∈ columns, e ∈ measured (profile column.1 column.2) ∧
      ((Catalog.draft table columns description).aggregated? e = some column.1 ↔ ReadsBack table column.1 e) := by
  obtain ⟨column, hcolumn, hmeasured, hrows⟩ := exists_measured he hrow
  refine ⟨column, hcolumn, hmeasured, ?_⟩
  rcases of_mem_measured hmeasured with ⟨a, ha, rfl⟩ | ⟨aliasName, described, rfl⟩
  · have hsource : a.source = column.1 := source_of_mem_measured hmeasured
    have hempty : "" ∈ tableParts table ++ [column.1] ↔ "" ∈ tableParts table := by
      rw [List.mem_append, List.mem_singleton, or_iff_left (Ne.symm (hnames column hcolumn))]
    rw [Catalog.aggregated?_aggregation (hsource ▸ hrows) (function_numericAggregations ha).1, hsource, table_draft,
      identifier?_columnRef_eq, ReadsBack, ← hempty]
    split_ifs with hmem <;> simp [hmem]
  · have hread := (Catalog.draft table columns description).aggregated?_distinctCount aliasName described
      (profile column.1 column.2)
    rw [name_profile] at hread
    exact hread

/-- The count of the distinct values of a number. -/
def valueCount (f : Field) : Entry :=
  .formula (distinctCount ("unique_" ++ f.name ++ "_vals") "" f)

theorem valueCount_mem_measured {f : Field} (h : f.category = "numerical") : valueCount f ∈ measured f := by
  rw [measured, measure?, if_pos h]
  exact List.mem_append_right _ (List.mem_singleton_self _)

/-- A number with a word for its name, and one with a point in its name. -/
def priceColumns : List (String × String) :=
  [("visits", "BIGINT"), ("net.price", "DOUBLE")]

theorem valueCount_mem_priceColumns (column : String × String) (h : column ∈ priceColumns) :
    valueCount (profile column.1 column.2) ∈ (Catalog.draft "orders" priceColumns "").entries ∧
      (valueCount (profile column.1 column.2)).aliasName ≠ "row_count" := by
  have hnumbers : ∀ column ∈ priceColumns, (profile column.1 column.2).category = "numerical" ∧
      (valueCount (profile column.1 column.2)).aliasName ≠ "row_count" := by decide +kernel
  refine ⟨?_, (hnumbers column h).2⟩
  rw [entries_draft "orders" "" (by decide) (by decide)]
  exact List.mem_append_left _ (List.mem_flatMap.mpr
    ⟨_, List.mem_map_of_mem h, valueCount_mem_measured (hnumbers column h).1⟩)

/-- The values of the word are counted, those of the other number are not. -/
theorem exists_aggregated?_iff_priceColumns :
    (∀ column ∈ priceColumns, column.1 ≠ "") ∧
      (∀ column ∈ priceColumns,
        valueCount (profile column.1 column.2) ∈ (Catalog.draft "orders" priceColumns "").entries ∧
          (valueCount (profile column.1 column.2)).aliasName ≠ "row_count") ∧
      (Catalog.draft "orders" priceColumns "").aggregated? (valueCount (profile "visits" "BIGINT")) = some "visits" ∧
      (Catalog.draft "orders" priceColumns "").aggregated? (valueCount (profile "net.price" "DOUBLE")) ≠
        some "net.price" := by
  have hnames : ∀ column ∈ priceColumns, column.1 ≠ "" := by decide
  refine ⟨hnames, valueCount_mem_priceColumns, ?_, ?_⟩
  · obtain ⟨hentry, hrow⟩ := valueCount_mem_priceColumns ("visits", "BIGINT") (by decide)
    obtain ⟨column, -, hmeasured, hiff⟩ := exists_aggregated?_iff "orders" "" hnames hentry hrow
    have hname : column.1 = "visits" := (source_of_mem_measured hmeasured).symm.trans name_profile
    rw [hname] at hiff
    exact hiff.mpr ⟨⟨by decide, by decide +kernel⟩, by decide +kernel⟩
  · obtain ⟨hentry, hrow⟩ := valueCount_mem_priceColumns ("net.price", "DOUBLE") (by decide)
    obtain ⟨column, -, hmeasured, hiff⟩ := exists_aggregated?_iff "orders" "" hnames hentry hrow
    have hname : column.1 = "net.price" := (source_of_mem_measured hmeasured).symm.trans name_profile
    rw [hname] at hiff
    exact fun hread => absurd ((hiff.mp hread).1.rest '.' (by decide)) (by decide +kernel)

/-- The values of a number with a point in its name are counted in another column. -/
theorem not_forall_aggregated?_eq :
    ¬ ∀ (table description : String) (columns : List (String × String)), (∀ column ∈ columns, column.1 ≠ "") →
      ∀ e ∈ (Catalog.draft table columns description).entries, e.aliasName ≠ "row_count" →
        ∃ column ∈ columns, e ∈ measured (profile column.1 column.2) ∧
          (Catalog.draft table columns description).aggregated? e = some column.1 := by
  intro h
  have hother : (Catalog.draft "orders" priceColumns "").aggregated? (valueCount (profile "net.price" "DOUBLE")) =
      some "price" := by decide +kernel
  obtain ⟨hentry, hrow⟩ := valueCount_mem_priceColumns ("net.price", "DOUBLE") (by decide)
  obtain ⟨column, hcolumn, -, hread⟩ := h "orders" "" priceColumns (by decide) _ hentry hrow
  rw [hother, Option.some_inj] at hread
  revert column
  decide

end Draft

end MetricLayer
