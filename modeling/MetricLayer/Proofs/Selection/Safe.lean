import MetricLayer.Proofs.Safety.Written
import MetricLayer.Proofs.Selection.Statement

/-!
# The gate and selections

The statement of a selection passes the gate (`violations_sql`): what the raw SQL of a catalog and the filters
may not hold outside quotes does not come in with names, whatever they are, as these stand in quotes.
-/

namespace MetricLayer

open MetricLayer.Text MetricLayer.Sql MetricLayer.Safety

/-! ## Names -/

namespace Catalog

/-- The names that a catalog gives. -/
def names (c : Catalog) : List String :=
  c.table :: (c.fields.map Field.name ++ c.dimensions.map Dimension.aliasName ++ c.entries.map Entry.aliasName)

/-- No name holds an apostrophe. -/
def Unticked (c : Catalog) : Prop :=
  ∀ n ∈ c.names, '\'' ∉ n.toList

instance (c : Catalog) : Decidable c.Unticked :=
  inferInstanceAs (Decidable (∀ _ ∈ _, _))

variable {c : Catalog}

/-- A column is declared under a name that agrees but for letter case. -/
theorem exists_field_of_isField {name : String} (h : c.isField name) :
    ∃ f ∈ c.fields, lower f.name.toList = lower name.toList := by
  obtain ⟨f, hf⟩ := Option.isSome_iff_exists.mp h
  rcases Option.or_eq_some_iff.mp ((Option.orElse_eq_or ..).symm.trans hf) with hexact | ⟨-, hlast⟩
  · have hname : (f.name == name) = true := List.find?_some (p := fun f : Field => f.name == name) hexact
    exact ⟨f, List.mem_of_find?_eq_some hexact, by rw [beq_iff_eq.mp hname]⟩
  · have hsame : sameLower f.name name = true :=
      List.find?_some (p := fun f : Field => sameLower f.name name) hlast
    exact ⟨f, List.mem_reverse.mp (List.mem_of_find?_eq_some hlast), sameLower_iff.mp hsame⟩

theorem Unticked.column (h : c.Unticked) {name : String} (hfield : c.isField name) : '\'' ∉ name.toList := by
  obtain ⟨f, hf, hlower⟩ := exists_field_of_isField hfield
  intro hmem
  refine h f.name ?_ (mem_of_lower_eq hlower.symm hmem)
  exact List.mem_cons_of_mem _ (List.mem_append_left _ (List.mem_append_left _ (List.mem_map_of_mem hf)))

end Catalog

/-! ## Expressions -/

section expressions

variable {expression : String} {table column : String}

theorem tame_columnRef (htable : '\'' ∉ table.toList) (hcolumn : '\'' ∉ column.toList) :
    Tame gateWords (columnRef table column).toList := by
  rw [toList_columnRef]
  refine Tame.dotted areWords_gateWords (by decide) fun m hm => ?_
  rcases List.mem_append.mp hm with hm | hm
  · obtain ⟨piece, hpiece, rfl⟩ := List.mem_map.mp hm
    rw [String.toList_ofList]
    exact fun hmem => htable (mem_of_mem_splitAll hpiece hmem)
  · rw [List.mem_singleton.mp hm]
    exact hcolumn

/-- A function applied to a text. -/
theorem tame_application {w body : List Char} (hw : Tame gateWords w) (hbody : Tame gateWords body) :
    Tame gateWords (w ++ '(' :: (body ++ [')'])) :=
  hw.append areWords_gateWords (Or.inr (by rintro c hc; cases hc; decide)) (tame_group hbody)

theorem tame_temporalReadings (h : Tame gateWords expression.toList) :
    ∀ r ∈ temporalReadings expression, Tame gateWords r.toList := by
  have hnames : ∀ w ∈ ["TRY_CAST", "try_strptime", "CAST"], IsFixed gateWords w.toList := by
    decide
  have hfunction : ∀ w ∈ ["TRY_CAST", "try_strptime", "CAST"], Tame gateWords w.toList :=
    fun w hw => .of_fixed (hnames w hw)
  have htypes : ∀ type ∈ ["TIMESTAMP", "DATE", "VARCHAR"], (∀ c ∈ (" AS " ++ type).toList.head?, isInert c) ∧
      IsFixed gateWords (" AS " ++ type).toList := by
    decide
  have hcast (type : String) (htype : type ∈ ["TIMESTAMP", "DATE", "VARCHAR"]) :
      Tame gateWords (expression.toList ++ (" AS " ++ type).toList) :=
    h.append areWords_gateWords (Or.inr (htypes type htype).1) (.of_fixed (htypes type htype).2)
  have hnotations : ∀ written ∈ dateNotations, (∀ c ∈ (", '" ++ written ++ "'").toList.head?, isInert c) ∧
      IsFixed gateWords (", '" ++ written ++ "'").toList := by
    decide
  have hparsed {body : List Char} {written : String} (hbody : Tame gateWords body) (hmem : written ∈ dateNotations) :
      Tame gateWords (body ++ (", '" ++ written ++ "'").toList) :=
    hbody.append areWords_gateWords (Or.inr (hnotations written hmem).1) (.of_fixed (hnotations written hmem).2)
  intro r hr
  rcases of_mem_temporalReadings hr with ⟨type, htype, htext⟩ | ⟨written, hmem, htext⟩
  · have htype' : type ∈ ["TIMESTAMP", "DATE", "VARCHAR"] :=
      (List.sublist_append_left ["TIMESTAMP", "DATE"] ["VARCHAR"]).subset htype
    rw [htext]
    exact tame_application (hfunction _ (by decide)) (hcast type htype')
  · rw [htext]
    exact tame_application (hfunction _ (by decide))
      (hparsed (tame_application (hfunction _ (by decide)) (hcast "VARCHAR" (by decide))) hmem)

theorem tame_temporalCast (h : Tame gateWords expression.toList) : Tame gateWords (temporalCast expression).toList := by
  have hname : Tame gateWords "COALESCE".toList := .of_fixed (by decide)
  have hcomma : Tame gateWords ", ".toList := .of_fixed (by decide)
  rw [toList_temporalCast]
  refine tame_application hname ?_
  rw [toList_joinWith]
  refine hcomma.intercalate areWords_gateWords (by decide) fun p hp => ?_
  obtain ⟨r, hr, rfl⟩ := List.mem_map.mp hp
  exact tame_temporalReadings h r hr

variable {c : Catalog}

theorem Catalog.Unticked.columnRef (h : c.Unticked) {name : String} (hfield : c.isField name) :
    Tame gateWords (columnRef c.table name).toList :=
  tame_columnRef (h c.table List.mem_cons_self) (h.column hfield)

/-- The expression of a dimension is tame, when its transformation is. -/
theorem tame_dimensionSql (haccepted : c.Accepted) (hnames : c.Unticked) {d : Dimension} (hd : d ∈ c.dimensions)
    (h : ∀ t ∈ d.transformation, Tame gateWords t.display.toList) : Tame gateWords (c.dimensionSql d).toList := by
  rw [Catalog.dimensionSql]
  cases ht : d.transformation with
  | some t => exact (isEntry_group (h t ht)).tame
  | none =>
    have hcolumn := hnames.columnRef (haccepted.isField_dimension hd ht)
    show Tame gateWords (if c.isTextDate d.source then temporalCast (columnRef c.table d.source)
      else columnRef c.table d.source).toList
    split
    · exact tame_temporalCast hcolumn
    · exact hcolumn

/-- The expression of an entry is tame, when it is no formula or its formula is. -/
theorem tame_entrySql (haccepted : c.Accepted) (hnames : c.Unticked) {e : Entry} (he : e ∈ c.entries)
    (h : ∀ f, e = .formula f → Tame gateWords f.sql.toList) (hsql : c.entrySql e = .ok expression) :
    Tame gateWords expression.toList := by
  cases e with
  | formula f =>
    cases hsql
    exact (isEntry_group (h f rfl)).tame
  | aggregation a =>
    obtain ⟨hfunction, hsource⟩ := haccepted.aggregation he
    rw [Catalog.entrySql] at hsql
    split at hsql
    next =>
      cases hsql
      exact .of_fixed (by decide)
    next hrows =>
      rw [if_neg hrows] at hsource
      have hcolumn := hnames.columnRef hsource
      simp only at hsql
      split at hsql
      next =>
        have hcount : Tame gateWords "COUNT".toList := .of_fixed (by decide)
        have hdistinct : Tame gateWords "DISTINCT ".toList := .of_fixed (by decide)
        have htext : ("COUNT(DISTINCT " ++ columnRef c.table a.source ++ ")").toList =
            "COUNT".toList ++ '(' :: (("DISTINCT ".toList ++ (columnRef c.table a.source).toList) ++ [')']) := by
          simp
        cases hsql
        rw [htext]
        exact tame_application hcount (hdistinct.append areWords_gateWords (Or.inl (by decide)) hcolumn)
      next =>
        have hfixed : ∀ f ∈ aggregateFunctions, ∀ w ∈ sqlFunctions.lookup f, IsFixed gateWords w.toList := by
          decide
        split at hsql
        next w hlookup =>
          have htext : (w ++ "(" ++ columnRef c.table a.source ++ ")").toList =
              w.toList ++ '(' :: ((columnRef c.table a.source).toList ++ [')']) := by
            simp
          cases hsql
          rw [htext]
          exact tame_application (.of_fixed (hfixed _ hfunction w hlookup)) hcolumn
        next => cases hsql

theorem isEntry_item {i : NamedItem} (hexpression : Tame gateWords i.expression.toList)
    (hname : '\'' ∉ i.name.toList) : IsEntry i.text.toList := by
  have has : Tame gateWords asText := .of_fixed (by decide)
  have hquote := isEntry_quote hname
  rw [NamedItem.toList_text, List.append_assoc]
  exact ⟨hexpression.join areWords_gateWords has (by decide) hquote.tame, (hquote.ends.append_left _).append_left _⟩

end expressions

/-! ## Selections -/

namespace OrderKey

/-- What is written for a position or a result column is tame. -/
theorem isEntry_sql {names : List String} (hnames : ∀ n ∈ names, Trimmed n.toList ∧ n ≠ "")
    (hticks : ∀ n ∈ names, '\'' ∉ n.toList) {key : OrderKey} (h : key.IsPlain names) :
    IsEntry (key.sql names).toList := by
  cases key with
  | position n => exact isEntry_toString_int n
  | text s =>
    obtain ⟨name, hmem, hsql⟩ := sql_text hnames h
    have hname : IsEntry (quote name).toList := isEntry_quote (hticks name hmem)
    rcases hsql with hsql | ⟨w, hw, hsql⟩
    · rw [hsql]
      exact hname
    · rw [hsql, String.append_assoc, String.toList_append]
      exact hname.direction hw

end OrderKey

namespace Selection

/-- The raw SQL in the statement of a selection. -/
def rawSql (c : Catalog) (s : Selection) : List String :=
  (s.chosenDimensions c).filterMap (fun d => d.transformation.map Value.display) ++
    (s.chosenEntries c).filterMap (fun | .formula f => some f.sql | .aggregation _ => none) ++ s.filters

/-- A selection with an accepted catalog that gives names without apostrophes and one that can be read to its
table, and whose raw SQL holds nothing that the gate searches. -/
structure Harmless (c : Catalog) (s : Selection) : Prop where
  accepted : c.Accepted
  names : c.Unticked
  table : '"' ∉ c.table.toList ∧ "" ∉ tableParts c.table
  ofFields : ∃ fields, ofFields fields = .ok s
  isEmpty : s.isEmpty = false
  resolves : s.Resolves c
  raw : ∀ sql ∈ s.rawSql c, Tame gateWords sql.toList

variable {c : Catalog} {s : Selection}

/-- The result columns have names of the catalog. -/
theorem mem_names_of_mem_resultColumns {n : String} (hn : n ∈ s.resultColumns c) : n ∈ c.names := by
  refine List.mem_cons_of_mem _ ?_
  rcases List.mem_append.mp hn with hn | hn
  · obtain ⟨d, hd, rfl⟩ := List.mem_map.mp hn
    refine List.mem_append_left _ (List.mem_append_right _ (List.mem_map_of_mem ?_))
    exact (of_mem_chosenDimensions hd).1
  · obtain ⟨e, he, rfl⟩ := List.mem_map.mp hn
    exact List.mem_append_right _ (List.mem_map_of_mem (of_mem_chosenEntries he).1)

theorem mem_rawSql_transformation {d : Dimension} (hd : d ∈ s.chosenDimensions c) {t : Value}
    (ht : d.transformation = some t) : t.display ∈ s.rawSql c := by
  refine List.mem_append_left _ (List.mem_append_left _ (List.mem_filterMap.mpr ⟨d, hd, ?_⟩))
  rw [ht]
  rfl

/-- The raw SQL of a statement is that of its catalog, and its filters. -/
theorem mem_of_mem_rawSql {sql : String} (h : sql ∈ s.rawSql c) :
    sql ∈ c.transformations ++ c.formulas ++ s.filters := by
  rcases List.mem_append.mp h with hsql | hfilter
  · refine List.mem_append_left _ ?_
    rcases List.mem_append.mp hsql with hsql | hsql
    · obtain ⟨d, hd, ht⟩ := List.mem_filterMap.mp hsql
      exact List.mem_append_left _ (List.mem_filterMap.mpr ⟨d, (of_mem_chosenDimensions hd).1, ht⟩)
    · obtain ⟨e, he, hf⟩ := List.mem_filterMap.mp hsql
      exact List.mem_append_right _ (List.mem_filterMap.mpr ⟨e, (of_mem_chosenEntries he).1, hf⟩)
  · exact List.mem_append_right _ hfilter

theorem mem_rawSql_formula {f : Formula} (hf : .formula f ∈ s.chosenEntries c) : f.sql ∈ s.rawSql c :=
  List.mem_append_left _ (List.mem_append_right _ (List.mem_filterMap.mpr ⟨_, hf, rfl⟩))

theorem exists_entrySql_of_accepted (haccepted : c.Accepted) {e : Entry} (he : e ∈ s.chosenEntries c) :
    ∃ expression, c.entrySql e = .ok expression := by
  cases e with
  | formula f => exact ⟨_, rfl⟩
  | aggregation a =>
    obtain ⟨w, body, hwritten⟩ := haccepted.exists_written (of_mem_chosenEntries he).1
    exact ⟨_, hwritten.sql⟩

/-- What holds of the SQL of all chosen dimensions and entries holds of all items. -/
theorem forall_chosenItems (haccepted : c.Accepted) {P : String → Prop}
    (hdimensions : ∀ d ∈ s.chosenDimensions c, P (c.dimensionSql d))
    (hentries : ∀ e ∈ s.chosenEntries c, ∀ expression, c.entrySql e = .ok expression → P expression) :
    ∀ i ∈ s.chosenItems c, P i.expression := by
  intro i hi
  rcases List.mem_append.mp hi with hi | hi
  · obtain ⟨d, hd, rfl⟩ := List.mem_map.mp hi
    exact hdimensions d hd
  · obtain ⟨e, he, rfl⟩ := List.mem_map.mp hi
    obtain ⟨expression, hsql⟩ := exists_entrySql_of_accepted haccepted he
    rw [itemOfEntry, hsql]
    exact hentries e he expression hsql

theorem tame_chosenItems (haccepted : c.Accepted) (hnames : c.Unticked)
    (hraw : ∀ sql ∈ s.rawSql c, Tame gateWords sql.toList) :
    ∀ i ∈ s.chosenItems c, Tame gateWords i.expression.toList :=
  forall_chosenItems haccepted
    (fun _ hd => tame_dimensionSql haccepted hnames (of_mem_chosenDimensions hd).1 fun _ ht =>
      hraw _ (mem_rawSql_transformation hd ht))
    fun _ he _ hsql => tame_entrySql haccepted hnames (of_mem_chosenEntries he).1 (fun _ hf =>
      hraw _ (mem_rawSql_formula (hf ▸ he))) hsql

/-- The parts of the statement are tame, when its orderings are. -/
theorem isTame_of_ordering (haccepted : c.Accepted) (hnames : c.Unticked) (hne : s.isEmpty = false)
    (hresolves : s.Resolves c) (hraw : ∀ sql ∈ s.rawSql c, Tame gateWords sql.toList)
    (hordering : ∀ o ∈ (s.compiled c).ordering, IsEntry o.toList) : IsTame (s.compiled c) where
  items_ne_nil := by
    rw [compiled, ne_eq, List.map_eq_nil_iff]
    exact chosenItems_ne_nil hne hresolves
  items := by
    intro t ht
    obtain ⟨i, hi, rfl⟩ := List.mem_map.mp ht
    have hname : i.name ∈ s.resultColumns c := map_name_chosenItems c s ▸ List.mem_map_of_mem hi
    exact isEntry_item (tame_chosenItems haccepted hnames hraw i hi) (hnames _ (mem_names_of_mem_resultColumns hname))
  conditions := by
    intro t ht
    obtain ⟨f, hf, rfl⟩ := List.mem_map.mp ht
    rw [toList_within]
    exact (hraw f (List.mem_append_right _ hf)).trim
  ordering := hordering

namespace Harmless

theorem exists_entrySql (h : s.Harmless c) {e : Entry} (he : e ∈ s.chosenEntries c) :
    ∃ expression, c.entrySql e = .ok expression :=
  exists_entrySql_of_accepted h.accepted he

end Harmless

theorem isFixed_sessionsCatalog : ∀ sql ∈ sessionsCatalog.transformations ++ sessionsCatalog.formulas,
    IsFixed gateWords sql.toList := by
  decide +kernel

end Selection

end MetricLayer
