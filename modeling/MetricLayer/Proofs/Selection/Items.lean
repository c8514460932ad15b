import MetricLayer.Proofs.Catalog.Alias
import MetricLayer.Proofs.Selection.Expression
import MetricLayer.Proofs.Sql.Argument

/-!
# The items of a selection

The items of a selection can be told apart in its statement and are split into expression and alias
again (`NamedItem.Sound`): those of dimensions (`sound_dimensionSql`) and those of entries of an accepted
catalog (`Accepted.exists_entrySql`).  What a selection says about its raw SQL is that quotes and
parentheses are closed (`Fragment`).
-/

namespace MetricLayer

open MetricLayer.Text MetricLayer.Sql

/-- Raw SQL with closed quotes and balanced parentheses, and more that is asked of masked texts. -/
def Fragment (inner : List Char → Prop) (sql : String) : Prop :=
  WellFormed sql.toList ∧ inner (mask sql.toList)

/-- An expression that can stand before an alias. -/
structure Sound (inner : List Char → Prop) (cs : List Char) : Prop where
  laid : Laid searchedWords (fun c => c ≠ ',') inner cs
  trimmed : Trimmed cs
  ne_nil : cs ≠ []
  notDistinct : ∀ c ∈ cs.head?, fold c ≠ 'd'

/-! ## Items -/

namespace NamedItem

variable {inner : List Char → Prop} {i : NamedItem}

theorem toList_text (i : NamedItem) :
    i.text.toList = i.expression.toList ++ asText ++ (quote i.name).toList := by
  rw [text, String.toList_append, String.toList_append]
  rfl

theorem listPart (h : Sound inner i.expression.toList) : ListPart inner i.text.toList := by
  have has : Laid searchedWords (fun c => c ≠ ',') inner asText :=
    .of_fixed_noComma (by decide) (by decide)
  have hname : Laid searchedWords (fun c => c ≠ ',') inner (quote i.name).toList :=
    .quote (by decide) (by decide) i.name
  have hlast : i.text.toList.getLast? = some '"' := by
    rw [toList_text, toList_quote, ← List.append_assoc, List.getLast?_concat]
  refine ⟨?_, ?_, ⟨?_, ?_⟩, ?_⟩
  · rw [toList_text]
    exact (h.laid.append has).append hname
  · rintro hnil
    rw [hnil] at hlast
    cases hlast
  · obtain ⟨c, cs, hcs⟩ := List.exists_cons_of_ne_nil h.ne_nil
    have hc := h.trimmed.1 c (by rw [hcs]; rfl)
    rw [toList_text, hcs]
    rintro d hd
    cases hd
    exact hc
  · rw [hlast]
    decide
  · rw [hlast]
    decide

theorem notDistinct (h : Sound inner i.expression.toList) :
    ∀ c ∈ i.text.toList.head?, fold c ≠ 'd' := by
  obtain ⟨c, cs, hcs⟩ := List.exists_cons_of_ne_nil h.ne_nil
  have hc := h.notDistinct c (by rw [hcs]; rfl)
  rw [toList_text, hcs]
  rintro d hd
  cases hd
  exact hc

theorem splitAlias_text (h : Sound inner i.expression.toList) (hname : i.name ≠ "") :
    splitAlias i.text.toList = (i.expression.toList, some i.name) := by
  rw [toList_text, splitAlias_item h.laid.closed hname, trim_eq_self h.trimmed]

theorem read_text (c : Catalog) (h : Sound inner i.expression.toList) (hname : i.name ≠ "") :
    SelectItem.read c i.text.toList =
      { expression := i.expression
        aliasName := some i.name
        outputName := i.name
        isMeasure := hasCall (mask i.expression.toList) || (c.entry? i.name).isSome } := by
  rw [SelectItem.read, splitAlias_text h hname]
  simp only [Option.getD_some, String.ofList_toList]

end NamedItem

/-! ## Expressions -/

section expressions

variable {inner : List Char → Prop}

theorem sound_group {sql : String} (h : Fragment inner sql) :
    Sound inner ("(" ++ sql ++ ")").toList := by
  have hpart := SelectStatement.part_group h
  refine ⟨hpart.laid, hpart.trimmed, hpart.ne_nil, ?_⟩
  rintro c hc
  rw [String.toList_append, String.toList_append] at hc
  cases hc
  decide

theorem listPart_dotted (n : String) (names : List String) : ListPart inner (dotted (n :: names)) where
  laid := laid_dotted (by decide) (by decide) _
  ne_nil := by
    have hhead := head?_dotted n names
    rintro hnil
    rw [hnil] at hhead
    cases hhead
  trimmed := trimmed_dotted n names
  ends := by
    rw [getLast?_dotted]
    decide

theorem listPart_quoteTable (table : String) : ListPart inner (quoteTable table).toList := by
  obtain ⟨n, names, htable⟩ := exists_tableParts table
  rw [toList_quoteTable, htable]
  exact listPart_dotted n names

theorem exists_dotted (table column : String) :
    ∃ n names, (columnRef table column).toList = dotted (n :: names) := by
  obtain ⟨n, names, htable⟩ := exists_tableParts table
  exact ⟨n, names ++ [column], by rw [toList_columnRef, htable, List.cons_append]⟩

theorem sound_columnRef (table column : String) : Sound inner (columnRef table column).toList := by
  obtain ⟨n, names, hcs⟩ := exists_dotted table column
  have hpart : ListPart inner (dotted (n :: names)) := listPart_dotted n names
  rw [hcs]
  refine ⟨hpart.laid, hpart.trimmed, hpart.ne_nil, ?_⟩
  rw [head?_dotted]
  decide

theorem trimmed_application {w body : List Char} (hw : ∀ c ∈ w.head?, isBlank c = false)
    (hne : w ≠ []) : Trimmed (w ++ '(' :: (body ++ [')'])) := by
  obtain ⟨c, w, rfl⟩ := List.exists_cons_of_ne_nil hne
  refine trimmed_of_ends (c := c) (d := ')') (hw c rfl) rfl rfl ?_
  rw [← List.cons_append, ← List.append_assoc, List.getLast?_concat]

theorem sound_application (hinner : ∀ m, NoCall m → inner m) {w body : List Char}
    (hw : w ∈ ["COALESCE", "SUM", "AVG", "COUNT", "MAX", "MIN"].map String.toList)
    (hbody : Callfree body) : Sound inner (w ++ '(' :: (body ++ [')'])) := by
  have hfixed : ∀ w ∈ ["COALESCE", "SUM", "AVG", "COUNT", "MAX", "MIN"].map String.toList,
      (Closed w ∧ isLaidOut searchedWords (fun c => c != ',') none (mask w)) ∧ w ≠ [] ∧
        ∀ c ∈ w.head?, isBlank c = false ∧ fold c ≠ 'd' := by
    decide
  obtain ⟨⟨hclosed, hlaid⟩, hne, hhead⟩ := hfixed w hw
  have hname : Laid searchedWords (fun c => c ≠ ',') inner w := .of_fixed_noComma hclosed hlaid
  refine ⟨laid_application hname hbody.wellFormed (hinner _ hbody.noCall),
    trimmed_application (fun c hc => (hhead c hc).1) hne, by simp [hne], ?_⟩
  intro c hc
  obtain ⟨d, w, rfl⟩ := List.exists_cons_of_ne_nil hne
  exact (hhead c hc).2

theorem toList_temporalCast (expression : String) :
    (temporalCast expression).toList =
      "COALESCE".toList ++ '(' :: ((joinWith ", " (temporalReadings expression)).toList ++ [')']) := by
  rw [temporalCast_eq, String.toList_append, String.toList_append]
  have htitle : "COALESCE(".toList = "COALESCE".toList ++ ['('] := rfl
  have hclose : ")".toList = [')'] := rfl
  rw [htitle, hclose]
  simp

/-- The expression of a dimension, whatever it selects. -/
theorem sound_dimensionSql (hinner : ∀ m, NoCall m → inner m) (c : Catalog) {d : Dimension}
    (h : ∀ t ∈ d.transformation, Fragment inner t.display) :
    Sound inner (c.dimensionSql d).toList := by
  rw [Catalog.dimensionSql]
  cases ht : d.transformation with
  | some t => exact sound_group (h t ht)
  | none =>
    show Sound inner (if c.isTextDate d.source then temporalCast (columnRef c.table d.source)
      else columnRef c.table d.source).toList
    split
    · rw [toList_temporalCast]
      exact sound_application hinner (by decide)
        (callless_temporalContent (callless_columnRef c.table d.source)).callfree
    · exact sound_columnRef c.table d.source

end expressions

/-! ## Aggregations -/

/-- What stands before the argument of a function, which is given under its name in catalogs. -/
def callHead (function : String) : String :=
  if function = "count_distinct" then "COUNT(DISTINCT " else (sqlFunctions.lookup function).getD "" ++ "("

/-- A function applied to an expression. -/
def callText (function expression : String) : String :=
  callHead function ++ expression ++ ")"

theorem toList_callText_distinct (expression : String) : (callText "count_distinct" expression).toList =
    "COUNT".toList ++ '(' :: (("DISTINCT ".toList ++ expression.toList) ++ [')']) := by
  rw [callText, callHead, if_pos rfl]
  simp

/-- A function applied to a column, as it is written and read. -/
structure Applied (function column : String) (w body : List Char) : Prop where
  text : (callText function column).toList = w ++ '(' :: (body ++ [')'])
  word : w ∈ ["SUM", "AVG", "COUNT", "MAX", "MIN"].map String.toList
  callfree : Callfree body
  kind : (makeCall w body).kind = function
  argument : (makeCall w body).argument = column.toList

/-- The functions of catalogs are read as aggregate functions. -/
theorem exists_aggregateName {w : List Char} (hw : w ∈ ["SUM", "AVG", "COUNT", "MAX", "MIN"].map String.toList) :
    ∃ name ∈ aggregateNames, w.map fold = name.toList := by
  revert w
  decide

theorem Applied.singleCall? {function column : String} {w body : List Char} (h : Applied function column w body) :
    Sql.singleCall? (callText function column).toList = some (makeCall w body) := by
  rw [h.text]
  exact singleCall?_call (exists_aggregateName h.word) h.callfree.wellFormed

/-- Every function can be applied to an argument. -/
theorem exists_applied {function column : String} (hfunction : function ∈ aggregateFunctions)
    (hcolumn : IsArgument column.toList) (hcallfree : Callfree column.toList)
    (hdistinct : Callfree ("DISTINCT ".toList ++ column.toList)) : ∃ w body, Applied function column w body := by
  by_cases hfunction' : function = "count_distinct"
  · obtain ⟨hargument, hkind⟩ := makeCall_distinct hcolumn
    subst hfunction'
    exact ⟨"COUNT".toList, "DISTINCT ".toList ++ column.toList, toList_callText_distinct column, by decide, hdistinct,
      hkind, hargument⟩
  · have hfixed : ∀ f ∈ aggregateFunctions, f ≠ "count_distinct" →
        (sqlFunctions.lookup f).any fun w => decide
          (w.toList ∈ ["SUM", "AVG", "COUNT", "MAX", "MIN"].map String.toList ∧
            (functionKinds.lookup (String.ofList (lower w.toList))).getD
              (String.ofList (lower w.toList)) = f) := by
      decide +kernel
    obtain ⟨w, hlookup, hw⟩ := (Option.any_eq_true _ _).mp (hfixed _ hfunction hfunction')
    obtain ⟨hw, hkindOf⟩ := of_decide_eq_true hw
    obtain ⟨hargument, hkind⟩ := makeCall_argument w.toList hcolumn
    refine ⟨w.toList, column.toList, ?_, hw, hcallfree, ?_, hargument⟩
    · rw [callText, callHead, if_neg hfunction', hlookup]
      simp
    · rw [hkind, hkindOf]

/-- Every function can be applied to a column in quotes. -/
theorem exists_applied_quoted {function column : String} (hfunction : function ∈ aggregateFunctions) {rest : List Char}
    (hcolumn : column.toList = '"' :: rest) (htrim : Trimmed ('"' :: rest)) (hcallless : Callless column.toList) :
    ∃ w body, Applied function column w body := by
  have hword : Callless "DISTINCT ".toList := .of_fixed rfl rfl
  refine exists_applied hfunction ?_ hcallless.callfree (Callless.callfree (hword.append hcallless))
  rw [hcolumn]
  exact isArgument_quoted htrim

theorem Sql.IsWordName.callfree {cs : List Char} (h : IsWordName cs) : Callfree cs := by
  refine ⟨h.wellFormed, not_calls_of_not_mem ?_⟩
  rw [h.mask_eq]
  exact h.not_mem_parenthesis

/-- An aggregation as it is written: a function, and what it is applied to. -/
structure Written (c : Catalog) (a : Aggregation) (w body : List Char) : Prop where
  sql : c.entrySql (.aggregation a) = .ok (String.ofList (w ++ '(' :: (body ++ [')'])))
  function : w ∈ ["SUM", "AVG", "COUNT", "MAX", "MIN"].map String.toList
  callfree : Callfree body
  kind : (makeCall w body).kind = a.function
  /-- The rows or a column are aggregated. -/
  argument : (makeCall w body).argument = ['*'] ∨
    c.isField a.source ∧ (makeCall w body).argument = (columnRef c.table a.source).toList

theorem exists_columnRef (table column : String) :
    ∃ rest, (columnRef table column).toList = '"' :: rest ∧ Trimmed ('"' :: rest) := by
  obtain ⟨n, names, hcs⟩ := exists_dotted table column
  obtain ⟨rest, hrest⟩ := List.head?_eq_some_iff.mp (head?_dotted n names)
  exact ⟨rest, hcs.trans hrest, hrest ▸ trimmed_dotted n names⟩

/-- An aggregation of a column applies its function to the column. -/
theorem entrySql_aggregation (c : Catalog) {a : Aggregation} (hrows : a.source ≠ rowSource)
    (hfunction : a.function ∈ aggregateFunctions) :
    c.entrySql (.aggregation a) = .ok (callText a.function (columnRef c.table a.source)) := by
  rw [Catalog.entrySql, if_neg hrows, callText, callHead]
  split_ifs with hdistinct
  · rfl
  · have hsome : ∀ f ∈ aggregateFunctions, f ≠ "count_distinct" → (sqlFunctions.lookup f).isSome := by
      decide
    obtain ⟨w, hlookup⟩ := Option.isSome_iff_exists.mp (hsome _ hfunction hdistinct)
    rw [hlookup]
    rfl

/-- Every aggregation of an accepted catalog has its SQL. -/
theorem Catalog.Accepted.exists_written {c : Catalog} (h : c.Accepted) {a : Aggregation}
    (ha : .aggregation a ∈ c.entries) : ∃ w body, Written c a w body := by
  obtain ⟨hfunction, hsource⟩ := h.aggregation ha
  by_cases hrows : a.source = rowSource
  · rw [if_pos hrows] at hsource
    have hrow : Callless "*".toList := .of_fixed rfl rfl
    refine ⟨"COUNT".toList, "*".toList, ?_, by decide, hrow.callfree, ?_, Or.inl ?_⟩
    · rw [entrySql, if_pos hrows]
      rfl
    · rw [hsource]
      decide +kernel
    · decide +kernel
  · rw [if_neg hrows] at hsource
    obtain ⟨rest, hrest, htrim⟩ := exists_columnRef c.table a.source
    obtain ⟨w, body, happlied⟩ := exists_applied_quoted hfunction hrest htrim (callless_columnRef c.table a.source)
    refine ⟨w, body, ?_, happlied.word, happlied.callfree, happlied.kind, Or.inr ⟨hsource, happlied.argument⟩⟩
    rw [entrySql_aggregation c hrows hfunction, ← happlied.text, String.ofList_toList]

/-- Every entry of an accepted catalog has its expression. -/
theorem Catalog.Accepted.exists_entrySql {inner : List Char → Prop}
    (hinner : ∀ m, NoCall m → inner m) {c : Catalog} (h : c.Accepted) {e : Entry}
    (he : e ∈ c.entries) (hformula : ∀ f, e = .formula f → Fragment inner f.sql) :
    ∃ expression, c.entrySql e = .ok expression ∧ Sound inner expression.toList := by
  cases e with
  | formula f => exact ⟨_, rfl, sound_group (hformula f rfl)⟩
  | aggregation a =>
    obtain ⟨w, body, hwritten⟩ := h.exists_written he
    refine ⟨_, hwritten.sql, ?_⟩
    rw [String.toList_ofList]
    exact sound_application hinner (List.mem_map.mpr (by
      obtain ⟨v, hv, rfl⟩ := List.mem_map.mp hwritten.function
      exact ⟨v, List.mem_cons_of_mem _ hv, rfl⟩)) hwritten.callfree

end MetricLayer
