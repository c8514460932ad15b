import MetricLayer.Proofs.Generation.Extract
import MetricLayer.Proofs.Selection.Safe

/-!
# Selections in replies

A generator that replies with a statement over one table is understood (`extractable_text`).  Outside names and raw
SQL the statement of a selection has no sign of JSON or of a code fence (`Selection.unmarked_compiled`).
-/

namespace MetricLayer

open MetricLayer.Text MetricLayer.Sql MetricLayer.Reply MetricLayer.Safety

/-! ## Written texts -/

section written

variable {expression : String}

theorem unmarked_joinWith {sep : String} {parts : List String} (hsep : Unmarked sep.toList)
    (h : ∀ p ∈ parts, Unmarked p.toList) : Unmarked (joinWith sep parts).toList := by
  rw [toList_joinWith]
  exact hsep.intercalate (List.forall_mem_map.mpr h)

theorem unmarked_append {a b : String} (ha : Unmarked a.toList) (hb : Unmarked b.toList) :
    Unmarked (a ++ b).toList := by
  rw [String.toList_append]
  exact ha.append hb

theorem unmarked_toString (n : Nat) : Unmarked (toString n).toList := by
  have hdigits : ∀ c ∈ "0123456789".toList, c ≠ '\x7b' ∧ c ≠ '\x60' := by
    decide
  exact fun c hc => hdigits c (mem_digits_of_isDigit (isDigit_of_mem_toString hc))

theorem unmarked_quote {name : String} (h : Unmarked name.toList) : Unmarked (quote name).toList := by
  have hmark : Unmarked ['"'] := by decide
  rw [toList_quote]
  exact (hmark.append fun c hc => h c (mem_double_iff.mp hc)).append hmark

theorem unmarked_quoteTable {table : String} (h : Unmarked table.toList) : Unmarked (quoteTable table).toList := by
  refine unmarked_joinWith (by decide) (List.forall_mem_map.mpr fun part hpart => unmarked_quote ?_)
  obtain ⟨piece, hpiece, rfl⟩ := List.mem_map.mp hpart
  rw [String.toList_ofList]
  exact fun c hc => h c (mem_of_mem_splitAll hpiece hc)

theorem unmarked_columnRef {table column : String} (htable : Unmarked table.toList)
    (hcolumn : Unmarked column.toList) : Unmarked (columnRef table column).toList :=
  unmarked_append (unmarked_append (unmarked_quoteTable htable) (by decide)) (unmarked_quote hcolumn)

theorem unmarked_temporalCast (h : Unmarked expression.toList) : Unmarked (temporalCast expression).toList := by
  have hnotations : ∀ written ∈ dateNotations, Unmarked written.toList := by
    decide
  have htypes : ∀ type ∈ ["TIMESTAMP", "DATE"], Unmarked type.toList := by
    decide
  rw [temporalCast_eq]
  refine unmarked_append (unmarked_append (by decide) (unmarked_joinWith (by decide) ?_)) (by decide)
  refine List.forall_mem_append.mpr ⟨List.forall_mem_map.mpr fun type htype => ?_,
    List.forall_mem_map.mpr fun written hwritten => ?_⟩
  · refine unmarked_append (unmarked_append (unmarked_append (unmarked_append ?_ h) ?_) (htypes type htype)) ?_ <;>
      decide
  · refine unmarked_append (unmarked_append (unmarked_append (unmarked_append ?_ h) ?_) (hnotations written hwritten))
      ?_ <;> decide

end written

/-! ## Statements -/

theorem unmarked_listClause {keyword sep : String} {parts : List String} (hkeyword : Unmarked keyword.toList)
    (hsep : Unmarked sep.toList) (h : ∀ p ∈ parts, Unmarked p.toList) :
    ∀ t ∈ SelectStatement.listClause keyword sep parts, Unmarked t.toList := by
  rw [SelectStatement.listClause]
  split
  · exact List.forall_mem_nil _
  · exact List.forall_mem_singleton.mpr (unmarked_append hkeyword (unmarked_joinWith hsep h))

theorem unmarked_text {s : SelectStatement} (hitems : ∀ i ∈ s.items, Unmarked i.toList)
    (hsource : Unmarked s.source.toList) (hconditions : ∀ f ∈ s.conditions, Unmarked f.toList)
    (hordering : ∀ o ∈ s.ordering, Unmarked o.toList) : Unmarked s.text.toList := by
  have hselect : Unmarked ("SELECT\n  " ++ joinWith ",\n  " s.items).toList :=
    unmarked_append (by decide) (unmarked_joinWith (by decide) hitems)
  have hfrom : Unmarked ("FROM " ++ s.source).toList := unmarked_append (by decide) hsource
  have hgrouped : ∀ g ∈ s.conditions.map fun f => "(" ++ f ++ ")", Unmarked g.toList :=
    List.forall_mem_map.mpr fun f hf => unmarked_append (unmarked_append (by decide) (hconditions f hf)) (by decide)
  have hpositions : ∀ g ∈ s.groupPositions, Unmarked g.toList :=
    List.forall_mem_map.mpr fun n _ => unmarked_toString (n + 1)
  refine unmarked_joinWith (by decide) ?_
  simp only [SelectStatement.clauses, List.forall_mem_append, List.forall_mem_cons, List.forall_mem_map]
  refine ⟨⟨⟨⟨⟨hselect, hfrom, List.forall_mem_nil _⟩, ?_⟩, ?_⟩, ?_⟩, fun n _ => ?_⟩
  · exact unmarked_listClause (by decide) (by decide) hgrouped
  · exact unmarked_listClause (by decide) (by decide) hpositions
  · exact unmarked_listClause (by decide) (by decide) hordering
  · exact unmarked_append (by decide) (unmarked_toString n)

/-- A statement over one table is taken out of a reply as it is when nothing in it is marked. -/
theorem extractable_text {inner : List Char → Prop} {c : Catalog} {s : SelectStatement} (hreadable : s.Readable inner)
    (htame : IsTame s) (hsource : s.source = quoteTable c.table)
    (htable : (∀ d ∈ c.table.toList, isQuote d = false) ∧ "" ∉ tableParts c.table)
    (hunmarked : Unmarked s.text.toList) : Extractable s.text.toList := by
  have hdangerous := (htame.isOverTable hsource htable).tame
  have hselect : "SELECT\n".toList = "SELECT".toList ++ ['\n'] := rfl
  refine ⟨?_, hdangerous.closed, (SelectStatement.ends_text hreadable).1, hdangerous.calm.noSemicolon, hunmarked⟩
  rw [toList_text_eq, hselect, List.append_assoc, List.append_assoc]
  exact ⟨_, rfl, rfl⟩

/-! ## Selections -/

section selection

variable {c : Catalog} {s : Selection}

/-- No name of the catalog is marked. -/
def Catalog.Unmarked (c : Catalog) : Prop :=
  ∀ n ∈ c.names, Reply.Unmarked n.toList

theorem Catalog.Unmarked.columnRef (h : c.Unmarked) {name : String} (hfield : c.isField name) :
    Reply.Unmarked (columnRef c.table name).toList := by
  obtain ⟨f, hf, hlower⟩ := Catalog.exists_field_of_isField hfield
  have hname : Reply.Unmarked f.name.toList := h f.name
    (List.mem_cons_of_mem _ (List.mem_append_left _ (List.mem_append_left _ (List.mem_map_of_mem hf))))
  exact unmarked_columnRef (h c.table List.mem_cons_self) (.of_lower_eq hlower.symm hname)

theorem unmarked_dimensionSql (haccepted : c.Accepted) (hnames : c.Unmarked) {d : Dimension} (hd : d ∈ c.dimensions)
    (h : ∀ t ∈ d.transformation, Unmarked t.display.toList) : Unmarked (c.dimensionSql d).toList := by
  rw [Catalog.dimensionSql]
  cases ht : d.transformation with
  | some t => exact unmarked_append (unmarked_append (by decide) (h t ht)) (by decide)
  | none =>
    have hcolumn := hnames.columnRef (haccepted.isField_dimension hd ht)
    show Unmarked (if c.isTextDate d.source then temporalCast (columnRef c.table d.source)
      else columnRef c.table d.source).toList
    split
    · exact unmarked_temporalCast hcolumn
    · exact hcolumn

theorem unmarked_entrySql (haccepted : c.Accepted) (hnames : c.Unmarked) {e : Entry} (he : e ∈ c.entries)
    (h : ∀ f, e = .formula f → Unmarked f.sql.toList) {expression : String}
    (hsql : c.entrySql e = .ok expression) : Unmarked expression.toList := by
  cases e with
  | formula f =>
    cases hsql
    exact unmarked_append (unmarked_append (by decide) (h f rfl)) (by decide)
  | aggregation a =>
    obtain ⟨hfunction, hsource⟩ := haccepted.aggregation he
    rw [Catalog.entrySql] at hsql
    split at hsql
    next =>
      cases hsql
      decide
    next hrows =>
      rw [if_neg hrows] at hsource
      have hcolumn := hnames.columnRef hsource
      simp only at hsql
      split at hsql
      next =>
        cases hsql
        exact unmarked_append (unmarked_append (by decide) hcolumn) (by decide)
      next =>
        have hfixed : ∀ f ∈ aggregateFunctions, ∀ w ∈ sqlFunctions.lookup f, Unmarked w.toList := by
          decide
        split at hsql
        next w hlookup =>
          cases hsql
          have hname := hfixed _ hfunction w hlookup
          exact unmarked_append (unmarked_append (unmarked_append hname (by decide)) hcolumn) (by decide)
        next => cases hsql

namespace Selection

theorem unmarked_chosenItems (haccepted : c.Accepted) (hnames : c.Unmarked)
    (hraw : ∀ sql ∈ s.rawSql c, Unmarked sql.toList) : ∀ i ∈ s.chosenItems c, Unmarked i.text.toList := by
  have hexpression : ∀ i ∈ s.chosenItems c, Unmarked i.expression.toList :=
    forall_chosenItems haccepted (P := fun sql => Unmarked sql.toList)
      (fun _ hd => unmarked_dimensionSql haccepted hnames (of_mem_chosenDimensions hd).1 fun _ ht =>
        hraw _ (mem_rawSql_transformation hd ht))
      fun _ he _ hsql => unmarked_entrySql haccepted hnames (of_mem_chosenEntries he).1 (fun _ hf =>
        hraw _ (mem_rawSql_formula (hf ▸ he))) hsql
  intro i hi
  have hname : i.name ∈ s.resultColumns c := map_name_chosenItems c s ▸ List.mem_map_of_mem hi
  exact unmarked_append (unmarked_append (hexpression i hi) (by decide))
    (unmarked_quote (hnames _ (mem_names_of_mem_resultColumns hname)))

theorem unmarked_compiled (haccepted : c.Accepted) (hnames : c.Unmarked)
    (hraw : ∀ sql ∈ s.rawSql c, Unmarked sql.toList)
    (hordering : ∀ o ∈ (s.compiled c).ordering, Unmarked o.toList) : Unmarked (s.compiled c).text.toList := by
  refine unmarked_text (List.forall_mem_map.mpr (unmarked_chosenItems haccepted hnames hraw))
    (unmarked_quoteTable (hnames c.table List.mem_cons_self)) (List.forall_mem_map.mpr fun f hf => ?_) hordering
  obtain ⟨a, b, hcut, -, -⟩ := exists_trim f.toList
  rw [toList_within]
  intro d hd
  refine hraw f (List.mem_append_right _ hf) d ?_
  rw [hcut]
  exact List.mem_append_left _ (List.mem_append_right _ hd)

end Selection

end selection

end MetricLayer
