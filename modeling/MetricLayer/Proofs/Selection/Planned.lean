import MetricLayer.Proofs.Generation.Plan
import MetricLayer.Proofs.Selection.Extract
import MetricLayer.Proofs.Selection.ReadBack
import MetricLayer.Proofs.Selection.Valid
import MetricLayer.Proofs.Text.DigitRun

/-!
# Planned selections

A plan for a catalog that can be planned with (`Catalog.Plannable`) passes every stage of a run: its statement is
written, taken out of a reply as it is, valid, and tame.  Its result columns are the aliases it names.
-/

namespace MetricLayer

open MetricLayer.Text MetricLayer.Sql MetricLayer.Review MetricLayer.Reply MetricLayer.Safety

/-! ## Catalogs -/

/-- Raw SQL in which neither the reader of replies, the review nor the gate finds anything. -/
structure Innocuous (c : Catalog) (sql : String) : Prop where
  wellFormed : WellFormed sql.toList
  tame : Tame gateWords sql.toList
  unmarked : Reply.Unmarked sql.toList
  notForeign : ∀ f ∈ foreignFunctions, f.isCalled (mask sql.toList) = false
  columns : AggregatesColumns c sql

/-- The signs that no name may hold: quotes, and what opens a JSON object or a code fence. -/
def nameSigns : List Char :=
  ['\'', '"', '\x7b', '\x60']

/-- An accepted catalog that a run can plan with. -/
structure Catalog.Plannable (c : Catalog) : Prop where
  accepted : c.Accepted
  names : ∀ n ∈ c.names, ∀ d ∈ n.toList, d ∉ nameSigns
  table : "" ∉ tableParts c.table
  aliases : ∀ n ∈ c.declaredAliases, Trimmed n.toList ∧ n ≠ ""
  raw : ∀ sql ∈ c.transformations ++ c.formulas, Innocuous c sql
  transformations : ∀ sql ∈ c.transformations, hasCall (mask sql.toList) = false

namespace Catalog.Plannable

variable {c : Catalog}

theorem not_mem_of_mem_names (h : c.Plannable) {n : String} (hn : n ∈ c.names) {d : Char} (hd : d ∈ nameSigns) :
    d ∉ n.toList :=
  fun hmem => h.names n hn d hmem hd

theorem unticked (h : c.Plannable) : c.Unticked :=
  fun _ hn => h.not_mem_of_mem_names hn (by decide)

theorem unmarked (h : c.Plannable) : c.Unmarked := by
  intro n hn d hd
  constructor
  · rintro rfl
    exact h.not_mem_of_mem_names hn (by decide) hd
  · rintro rfl
    exact h.not_mem_of_mem_names hn (by decide) hd

theorem isQuote_table (h : c.Plannable) : ∀ d ∈ c.table.toList, isQuote d = false := by
  have hsigns : ∀ d, isQuote d → d ∈ nameSigns := by
    intro d hd
    rw [isQuote, Bool.or_eq_true, beq_iff_eq, beq_iff_eq] at hd
    rcases hd with rfl | rfl <;> decide
  intro d hd
  rw [← Bool.not_eq_true]
  exact fun hquote => h.names c.table List.mem_cons_self d hd (hsigns d hquote)

theorem hasFragments (h : c.Plannable) : c.HasFragments NoForeign :=
  fun sql hsql => ⟨(h.raw sql hsql).wellFormed, noForeign_iff.mpr (h.raw sql hsql).notForeign⟩

end Catalog.Plannable

/-! ## Selections -/

/-- Names that are looked up are the names of what is found. -/
theorem map_filterMap_eq_self {α : Type} {aliasOf : α → String} {find? : String → Option α} {names : List String}
    (h : ∀ n ∈ names, ∃ a, find? n = some a ∧ aliasOf a = n) : (names.filterMap find?).map aliasOf = names := by
  induction names with
  | nil => rfl
  | cons n names ih =>
    obtain ⟨a, ha, hname⟩ := h n List.mem_cons_self
    rw [List.filterMap_cons_some ha, List.map_cons, hname, ih fun m hm => h m (List.mem_cons_of_mem n hm)]

namespace Plan.Planned

variable {c : Catalog} {s : Selection}

theorem isEmpty (h : Planned c s) : s.isEmpty = false := by
  rw [Selection.isEmpty, Bool.and_eq_false_iff]
  exact Or.inr (List.isEmpty_eq_false_iff.mpr h.measures_ne_nil)

theorem resolves (hc : c.Plannable) (h : Planned c s) : s.Resolves c := by
  constructor
  · intro n hn
    obtain ⟨d, hd, rfl⟩ := h.dimensions n hn
    rw [hc.accepted.dimension?_aliasName hd]
    rfl
  · intro n hn
    obtain ⟨e, he, rfl⟩ := h.measures n hn
    rw [hc.accepted.entry?_aliasName he]
    rfl

theorem tidy (hc : c.Plannable) (h : Planned c s) : s.Tidy := by
  intro n hn
  apply hc.aliases
  rcases List.mem_append.mp hn with hn | hn
  · obtain ⟨d, hd, rfl⟩ := h.dimensions n hn
    exact List.mem_append_left _ (List.mem_map_of_mem hd)
  · obtain ⟨e, he, rfl⟩ := h.measures n hn
    exact List.mem_append_right _ (List.mem_map_of_mem he)

theorem map_chosenDimensions (hc : c.Plannable) (h : Planned c s) :
    (s.chosenDimensions c).map Dimension.aliasName = s.dimensions := by
  apply map_filterMap_eq_self
  intro n hn
  obtain ⟨d, hd, rfl⟩ := h.dimensions n hn
  exact ⟨d, hc.accepted.dimension?_aliasName hd, rfl⟩

theorem map_chosenEntries (hc : c.Plannable) (h : Planned c s) :
    (s.chosenEntries c).map Entry.aliasName = s.measures := by
  apply map_filterMap_eq_self
  intro n hn
  obtain ⟨e, he, rfl⟩ := h.measures n hn
  exact ⟨e, hc.accepted.entry?_aliasName he, rfl⟩

theorem isWritable_limit (h : Planned c s) : ∀ n ∈ s.limit, isWritable n := by
  rcases h.ordering with ⟨-, hlimit⟩ | ⟨_, _, n, -, hlimit, hn⟩
  · rw [hlimit]
    exact fun n hn => absurd hn (Option.not_mem_none n)
  · rw [hlimit]
    rintro m hm
    cases hm
    exact hn

theorem limit_of_ordering (h : Planned c s) (hordering : s.ordering = []) : s.limit = none := by
  rcases h.ordering with ⟨-, hlimit⟩ | ⟨_, _, _, hdesc, -, -⟩
  · exact hlimit
  · rw [hordering] at hdesc
    cases hdesc

theorem numbers (hcount : isWritable c.dimensions.length) (h : Planned c s) : s.numbers.all isWritable := by
  have hpositions : s.ordering.filterMap OrderKey.position? = [] := by
    rcases h.ordering with ⟨hordering, -⟩ | ⟨_, _, _, hordering, -, -⟩ <;> rw [hordering] <;> rfl
  rw [Selection.numbers, hpositions, List.nil_append, List.all_eq_true]
  refine List.forall_mem_cons.mpr ⟨isWritable_of_le h.fewDimensions hcount, List.forall_mem_map.mpr fun n hn => ?_⟩
  exact h.isWritable_limit n (Option.mem_toList.mp hn)

/-- The statement is ordered by a name of the catalog from the greatest value on, or not at all. -/
theorem ordering_compiled (hc : c.Plannable) (h : Planned c s) :
    ∀ o ∈ (s.compiled c).ordering, ∃ m ∈ c.names, o = quote m ++ " " ++ "DESC" := by
  intro o ho
  obtain ⟨k, hk, rfl⟩ := List.mem_map.mp ho
  rcases h.ordering with ⟨hnil, -⟩ | ⟨m, hm, -, hdesc, -, -⟩
  · rw [hnil] at hk
    cases hk
  · have hcolumn : m ∈ s.resultColumns c := List.mem_append_right _ ((h.map_chosenEntries hc).symm ▸ hm)
    have hname := Selection.mem_names_of_mem_resultColumns hcolumn
    have htext : m ++ " DESC" = m ++ " " ++ "DESC" := by
      rw [String.append_assoc]
      rfl
    rw [hdesc, List.mem_singleton] at hk
    refine ⟨m, hname, ?_⟩
    rw [hk, htext]
    exact OrderKey.sql_direction hcolumn (h.tidy hc m (List.mem_append_right _ hm))
      (hc.not_mem_of_mem_names hname (by decide)) (by decide)

/-- The raw SQL of the statement is that of the catalog. -/
theorem mem_raw (h : Planned c s) : ∀ sql ∈ s.rawSql c, sql ∈ c.transformations ++ c.formulas := by
  intro sql hsql
  have hmem := Selection.mem_of_mem_rawSql hsql
  rwa [h.filters, List.append_nil] at hmem

/-- The selection has its statement. -/
theorem sql_eq (hc : c.Plannable) (hcount : isWritable c.dimensions.length) (h : Planned c s) :
    s.sql c = .ok (s.compiled c).text := by
  have hentries : ∀ e ∈ s.chosenEntries c, ∃ expression, c.entrySql e = .ok expression :=
    fun e he => Selection.exists_entrySql_of_accepted hc.accepted he
  rw [Selection.sql, Selection.statement_eq h.isEmpty (h.resolves hc) hentries, if_pos (h.numbers hcount)]
  rfl

theorem readable (hc : c.Plannable) (h : Planned c s) : (s.compiled c).Readable NoForeign := by
  refine Selection.readable_compiled (fun _ => noForeign_of_noCall) hc.accepted (h.tidy hc) h.isEmpty (h.resolves hc)
    hc.hasFragments ?_ fun o ho => ?_
  · rw [h.filters]
    exact List.forall_mem_nil _
  · obtain ⟨m, -, rfl⟩ := h.ordering_compiled hc o ho
    rw [String.append_assoc, String.toList_append]
    exact OrderKey.listPart_direction (OrderKey.listPart_quote m) (by decide)

theorem isTame (hc : c.Plannable) (h : Planned c s) : IsTame (s.compiled c) := by
  refine Selection.isTame_of_ordering hc.accepted hc.unticked h.isEmpty (h.resolves hc)
    (fun sql hsql => (hc.raw sql (h.mem_raw sql hsql)).tame) fun o ho => ?_
  obtain ⟨m, hm, rfl⟩ := h.ordering_compiled hc o ho
  rw [String.append_assoc, String.toList_append]
  exact (isEntry_quote (hc.unticked m hm)).direction (by decide)

/-- The statement is taken out of a reply as it is. -/
theorem extractable (hc : c.Plannable) (h : Planned c s) : Extractable (s.compiled c).text.toList := by
  refine extractable_text (h.readable hc) (h.isTame hc) rfl ⟨hc.isQuote_table, hc.table⟩
    (Selection.unmarked_compiled hc.accepted hc.unmarked
      (fun sql hsql => (hc.raw sql (h.mem_raw sql hsql)).unmarked) fun o ho => ?_)
  obtain ⟨m, hm, rfl⟩ := h.ordering_compiled hc o ho
  exact unmarked_append (unmarked_append (unmarked_quote (hc.unmarked m hm)) (by decide)) (by decide)

/-- The items have names without apostrophes. -/
theorem items (hc : c.Plannable) (h : Planned c s) : ∀ i ∈ s.chosenItems c,
    (Sound NoForeign i.expression.toList ∧ i.name ≠ "") ∧ '\'' ∉ i.name.toList := by
  intro i hi
  have hname : i.name ∈ s.resultColumns c := Selection.map_name_chosenItems c s ▸ List.mem_map_of_mem hi
  exact ⟨Selection.sound_chosenItems (fun _ => noForeign_of_noCall) hc.accepted hc.hasFragments (h.tidy hc) i hi,
    hc.unticked _ (Selection.mem_names_of_mem_resultColumns hname)⟩

/-- The statement is valid. -/
theorem review_text (hc : c.Plannable) (hcount : isWritable c.dimensions.length) (h : Planned c s) :
    review c (s.compiled c).text = .ok ⟨[], some ((s.compiled c).query c)⟩ := by
  have hfindings : ∀ i ∈ s.chosenItems c, itemFindings c i.expression.toList (some i.name) = [] :=
    Selection.itemFindings_eq_nil hc.accepted fun sql hsql => ⟨(hc.raw sql hsql).wellFormed, (hc.raw sql hsql).columns⟩
  have hread := Selection.itemFindings_read (fun i hi => (h.items hc i hi).1) hfindings
  exact (s.compiled c).review_text c (h.readable hc) hread (Selection.groups_le_items (h.resolves hc))
    (Selection.isWritable_groups (h.numbers hcount)) h.isWritable_limit

/-- The result columns of the statement are the aliases that the selection names. -/
theorem columns (hc : c.Plannable) (h : Planned c s) :
    ((s.compiled c).query c).dimensions = s.dimensions ∧ ((s.compiled c).query c).measures = s.measures := by
  have hcolumns := Selection.columns_query (fun _ => noForeign_of_noCall) hc.accepted (h.tidy hc) hc.hasFragments
    hc.transformations
  rwa [h.map_chosenDimensions hc, h.map_chosenEntries hc] at hcolumns

end Plan.Planned

end MetricLayer
