import MetricLayer.Proofs.Selection.Statement

/-!
# Reading a selection back

What is read off the statement of a selection is the selection, in the spelling of the catalog.  Its
dimensions are told from its measures because the alias of a dimension stands for no measure and its
expression aggregates nothing (`columns_query`).
-/

namespace MetricLayer

open MetricLayer.Text MetricLayer.Sql

namespace Selection

variable {c : Catalog} {s : Selection}

/-! ## Dimensions and measures -/

/-- Parentheses around a text that calls no aggregate call none. -/
theorem hasCall_group {sql : String} (hclosed : Closed sql.toList)
    (h : hasCall (mask sql.toList) = false) : hasCall (mask ("(" ++ sql ++ ")").toList) = false := by
  have htext : ("(" ++ sql ++ ")").toList = '(' :: (sql.toList ++ [')']) := by
    simp
  rw [← Bool.not_eq_true, hasCall_iff] at h ⊢
  rw [htext, mask_group hclosed]
  rintro ⟨pre, w, gap, rest, hcall, -⟩
  obtain ⟨pre, rfl, hin⟩ := hcall.of_open areKeys_aggregateNames
  rcases hin.of_append areKeys_aggregateNames with ⟨rest', rfl, hinside⟩ | ⟨pre', -, hafter⟩
  · exact h ⟨pre, w, gap, rest', hinside.atStart, trivial⟩
  · simpa using hafter.text

/-- The expression of a dimension aggregates nothing. -/
theorem hasCall_dimensionSql {d : Dimension}
    (h : ∀ t ∈ d.transformation, Closed t.display.toList ∧ hasCall (mask t.display.toList) = false) :
    hasCall (mask (c.dimensionSql d).toList) = false := by
  have hcolumn := callless_columnRef c.table d.source
  rw [Catalog.dimensionSql]
  cases ht : d.transformation with
  | some t => exact hasCall_group (h t ht).1 (h t ht).2
  | none =>
    show hasCall (mask (if c.isTextDate d.source then temporalCast (columnRef c.table d.source)
      else columnRef c.table d.source).toList) = false
    split
    · rw [toList_temporalCast]
      have hname : Callless "COALESCE".toList := .of_fixed rfl rfl
      exact (Callless.noCall
        (hname.append (Callless.group (callless_temporalContent hcolumn)))).hasCall_eq_false
    · exact hcolumn.noCall.hasCall_eq_false

/-- A dimension is read under its alias, and as no measure. -/
theorem read_itemOfDimension (haccepted : c.Accepted) {d : Dimension} (hd : d ∈ c.dimensions)
    {inner : List Char → Prop} (hsound : Sound inner (c.dimensionSql d).toList)
    (hname : d.aliasName ≠ "") (hcall : hasCall (mask (c.dimensionSql d).toList) = false) :
    (SelectItem.read c (itemOfDimension c d).text.toList).outputName = d.aliasName ∧
      (SelectItem.read c (itemOfDimension c d).text.toList).isMeasure = false := by
  rw [NamedItem.read_text c (i := itemOfDimension c d) hsound hname]
  refine ⟨rfl, ?_⟩
  show (hasCall (mask (c.dimensionSql d).toList) || (c.entry? d.aliasName).isSome) = false
  rw [hcall, haccepted.entry?_dimension hd]
  rfl

/-- An entry is read under its alias, and as a measure. -/
theorem read_itemOfEntry (haccepted : c.Accepted) {e : Entry} (he : e ∈ c.entries)
    {inner : List Char → Prop} (hsound : Sound inner (itemOfEntry c e).expression.toList)
    (hname : e.aliasName ≠ "") :
    (SelectItem.read c (itemOfEntry c e).text.toList).outputName = e.aliasName ∧
      (SelectItem.read c (itemOfEntry c e).text.toList).isMeasure = true := by
  rw [NamedItem.read_text c hsound hname]
  refine ⟨rfl, ?_⟩
  show (_ || (c.entry? e.aliasName).isSome) = true
  rw [haccepted.entry?_aliasName he, Option.isSome_some, Bool.or_true]

/-- The result columns of the statement are told apart as dimensions and measures. -/
theorem columns_query {inner : List Char → Prop} (hinner : ∀ m, NoCall m → inner m)
    (haccepted : c.Accepted) (htidy : s.Tidy) (hfragments : c.HasFragments inner)
    (htransformations : ∀ sql ∈ c.transformations, hasCall (mask sql.toList) = false) :
    ((s.compiled c).query c).dimensions = (s.chosenDimensions c).map Dimension.aliasName ∧
      ((s.compiled c).query c).measures = (s.chosenEntries c).map Entry.aliasName := by
  have hitems := sound_chosenItems hinner haccepted hfragments htidy
  have hdimension : ∀ d ∈ s.chosenDimensions c,
      (SelectItem.read c (itemOfDimension c d).text.toList).outputName = d.aliasName ∧
        (SelectItem.read c (itemOfDimension c d).text.toList).isMeasure = false := by
    intro d hd
    have hmem := (of_mem_chosenDimensions hd).1
    obtain ⟨hsound, hname⟩ := hitems _ (List.mem_append_left _ (List.mem_map_of_mem hd))
    refine read_itemOfDimension haccepted hmem hsound hname (hasCall_dimensionSql fun t ht => ?_)
    have hsql := Catalog.mem_transformations hmem ht
    exact ⟨(hfragments _ (List.mem_append_left _ hsql)).1.closed, htransformations _ hsql⟩
  have hentry : ∀ e ∈ s.chosenEntries c,
      (SelectItem.read c (itemOfEntry c e).text.toList).outputName = e.aliasName ∧
        (SelectItem.read c (itemOfEntry c e).text.toList).isMeasure = true := by
    intro e he
    obtain ⟨hsound, hname⟩ := hitems _ (List.mem_append_right _ (List.mem_map_of_mem he))
    exact read_itemOfEntry haccepted (of_mem_chosenEntries he).1 hsound hname
  have hread : ((s.compiled c).query c).items =
      (s.chosenDimensions c).map (fun d => SelectItem.read c (itemOfDimension c d).text.toList) ++
        (s.chosenEntries c).map fun e => SelectItem.read c (itemOfEntry c e).text.toList := by
    show ((s.chosenItems c).map NamedItem.text).map (fun i => SelectItem.read c i.toList) = _
    rw [chosenItems, List.map_map, List.map_append, List.map_map, List.map_map]
    rfl
  have hnames {α : Type} (xs : List α) (r : α → SelectItem) (name : α → String)
      (h : ∀ x ∈ xs, (r x).outputName = name x) :
      (xs.map r).map SelectItem.outputName = xs.map name := by
    rw [List.map_map]
    exact List.map_congr_left h
  constructor
  · rw [Query.dimensions, hread, List.filter_append, List.filter_eq_self.mpr, List.filter_eq_nil_iff.mpr,
      List.append_nil, hnames _ _ _ fun d hd => (hdimension d hd).1]
    · intro i hi
      obtain ⟨e, he, rfl⟩ := List.mem_map.mp hi
      simp [(hentry e he).2]
    · intro i hi
      obtain ⟨d, hd, rfl⟩ := List.mem_map.mp hi
      simp [(hdimension d hd).2]
  · rw [Query.measures, hread, List.filter_append, List.filter_eq_nil_iff.mpr, List.filter_eq_self.mpr,
      List.nil_append, hnames _ _ _ fun e he => (hentry e he).1]
    · intro i hi
      obtain ⟨e, he, rfl⟩ := List.mem_map.mp hi
      exact (hentry e he).2
    · intro i hi
      obtain ⟨d, hd, rfl⟩ := List.mem_map.mp hi
      simp [(hdimension d hd).2]

/-! ## The whole selection -/

/-- The query says what the selection says, in the spelling of the catalog. -/
structure ReadsBack (c : Catalog) (s : Selection) (q : Query) : Prop where
  table : q.table = c.table
  dimensions : q.dimensions = (s.dimensions.filterMap c.dimension?).map Dimension.aliasName
  measures : q.measures = (s.measures.filterMap c.entry?).map Entry.aliasName
  grouping : q.grouping = (List.range s.dimensions.length).map fun n => toString (n + 1)
  filters : q.filters =
    if s.filters.isEmpty then []
    else [joinWith "\n  AND " (s.filters.map fun f => "(" ++ within trim f ++ ")")]
  ordering : q.ordering = s.ordering.map (OrderKey.sql (s.resultColumns c))
  limit : q.limit = s.limit

/-- **The statement of a selection is read back as the selection**, in the spelling of the catalog. -/
theorem read?_sql (h : s.Admissible c) (htable : '"' ∉ c.table.toList ∧ "" ∉ tableParts c.table)
    (htransformations : ∀ sql ∈ c.transformations, hasCall (mask sql.toList) = false)
    (hnumbers : s.numbers.all isWritable) :
    ∃ sql q, s.sql c = .ok sql ∧ Query.read? c sql = .ok (some q) ∧ s.ReadsBack c q := by
  have hinner : ∀ m, NoCall m → (fun _ : List Char => True) m := fun _ _ => trivial
  have hreadable := h.readable hinner (fun _ _ => trivial) fun _ _ => trivial
  have hcolumns := columns_query hinner h.accepted h.tidy (h.hasFragments fun _ _ => trivial)
    htransformations
  have hgrouped : (s.compiled c).groupedConditions = s.filters.map fun f => "(" ++ within trim f ++ ")" :=
    List.map_map
  have hnamed : tableOf (s.compiled c).source.toList = c.table := tableOf_quoteTable htable.1 htable.2
  refine ⟨(s.compiled c).text, (s.compiled c).query c, by rw [h.sql_eq, if_pos hnumbers],
    (s.compiled c).read?_text c hreadable (isWritable_limit hnumbers), ?_⟩
  refine ⟨?_, hcolumns.1, hcolumns.2, rfl, ?_, rfl, rfl⟩
  · rw [SelectStatement.query, hnamed]
    exact ite_self c.table
  · show (if (s.filters.map (within trim)).isEmpty then []
      else [joinWith "\n  AND " (s.compiled c).groupedConditions]) = _
    rw [hgrouped, List.isEmpty_map]

theorem read?_sql_sessionsRequest :
    ∃ sql q, sessionsRequest.sql sessionsCatalog = .ok sql ∧
      Query.read? sessionsCatalog sql = .ok (some q) ∧ sessionsRequest.ReadsBack sessionsCatalog q :=
  read?_sql admissible_sessionsRequest (by decide) (by decide +kernel) (by decide +kernel)

/-- Without the bound on its numbers a selection may have no statement to read back. -/
theorem not_read?_sql :
    ¬ ∀ (c : Catalog) (s : Selection), s.Admissible c →
      '"' ∉ c.table.toList ∧ "" ∉ tableParts c.table →
      (∀ sql ∈ c.transformations, hasCall (mask sql.toList) = false) →
      ∃ sql q, s.sql c = .ok sql ∧ Query.read? c sql = .ok (some q) ∧ s.ReadsBack c q := by
  intro h
  obtain ⟨sql, q, hsql, -⟩ := h usersCatalog hugePosition admissible_hugePosition (by decide)
    (by decide +kernel)
  rw [sql_hugePosition] at hsql
  cases hsql

end Selection

end MetricLayer
