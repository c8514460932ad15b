import MetricLayer.Catalog.Draft
import MetricLayer.Proofs.Selection.Requested
import MetricLayer.Proofs.Selection.Safe
import MetricLayer.Proofs.Sql.Behind

/-!
# The name of the table in the statement of a selection

A statement names its table in quotes, part by part, with the double quotes of the name doubled.  Who reads it
back takes the outer quotes of each part off and leaves the doubled ones, so that a table is read under its name
exactly if that has no double quote; and the gate, which compares what it reads with the name, lets such a
statement pass (`table_eq_iff_and_violations_eq_nil`).
-/

namespace MetricLayer

open MetricLayer.Text MetricLayer.Sql MetricLayer.Safety

namespace Selection

variable {inner : List Char → Prop} {c : Catalog} {s : Selection} {sql : String}

/-- Items without raw SQL can be told apart. -/
theorem sound_of_rawSql_eq_nil (hinner : ∀ m, NoCall m → inner m) (haccepted : c.Accepted) (hraw : s.rawSql c = []) :
    ∀ i ∈ s.chosenItems c, Sound inner i.expression.toList := by
  have hnone {t : String} : t ∉ s.rawSql c := hraw ▸ List.not_mem_nil
  refine forall_chosenItems haccepted (P := fun e => Sound inner e.toList) ?_ ?_
  · exact fun d hd => sound_dimensionSql hinner c fun t ht => absurd (mem_rawSql_transformation hd ht) hnone
  · intro e he expression hsql
    obtain ⟨expression', hsql', hsound⟩ := haccepted.exists_entrySql hinner (of_mem_chosenEntries he).1
      fun f hf => absurd (mem_rawSql_formula (hf ▸ he)) hnone
    obtain rfl := Except.ok.inj (hsql.symm.trans hsql')
    exact hsound

/-- Without raw SQL the statement can be read, if its ordering can. -/
theorem readable_of_rawSql_eq_nil (hinner : ∀ m, NoCall m → inner m) (haccepted : c.Accepted) (hne : s.isEmpty = false)
    (hresolves : s.Resolves c) (hraw : s.rawSql c = []) {ordering : List String}
    (hordering : ∀ o ∈ ordering, ListPart inner o.toList) (limit : Option Nat) :
    SelectStatement.Readable inner { s.compiled c with ordering, limit } := by
  have hfilters : s.filters = [] := (List.append_eq_nil_iff.mp hraw).2
  exact readable_of_sound hne hresolves (sound_of_rawSql_eq_nil hinner haccepted hraw)
    (by rw [hfilters]; exact nofun) hordering limit

theorem exists_statement_of_sql (h : s.sql c = .ok sql) : ∃ st, s.statement c = .ok st ∧ sql = st.text := by
  rw [Selection.sql] at h
  cases hst : s.statement c with
  | error => rw [hst] at h; cases h
  | ok st =>
    rw [hst] at h
    exact ⟨st, rfl, (Except.ok.inj h).symm⟩

/-- What is read as the table is its name with every double quote doubled. -/
theorem table_query_compiled (hparts : "" ∉ tableParts c.table) :
    ((s.compiled c).query c).table = String.ofList (double c.table.toList) := by
  have hnamed : tableOf (s.compiled c).source.toList = String.ofList (double c.table.toList) :=
    tableOf_quoteTable_eq hparts
  rw [SelectStatement.query, hnamed]
  show (if _ then c.table else _) = _
  split_ifs with hempty
  · rw [← String.toList_inj, String.toList_ofList, String.toList_empty, double_eq_nil_iff] at hempty
    rw [hempty, ← String.toList_inj, hempty, String.toList_ofList]
    rfl
  · rfl

/-- The ordering lists positions and result columns, or holds no numeral that is too long to be read. -/
def OrdersReadably (c : Catalog) (s : Selection) : Prop :=
  (∀ k ∈ s.ordering, k.IsPlain (s.resultColumns c)) ∨
    ∀ k ∈ s.ordering, ShortNumerals (k.sql (s.resultColumns c)).toList

/-- The ordering lists positions and result columns, and texts that hold nothing the gate searches. -/
def OrdersHarmlessly (c : Catalog) (s : Selection) : Prop :=
  ∀ k ∈ s.ordering, k.IsPlain (s.resultColumns c) ∨ IsEntry (k.sql (s.resultColumns c)).toList

/-- A statement without raw SQL passes the gate. -/
theorem violations_compiled_eq_nil (haccepted : c.Accepted) (htidy : s.Tidy) (hne : s.isEmpty = false)
    (hresolves : s.Resolves c) (hraw : s.rawSql c = []) (htable : '"' ∉ c.table.toList ∧ "" ∉ tableParts c.table)
    (hticks : c.Unticked) (hordering : s.OrdersHarmlessly c) : violations c (s.compiled c).text = [] := by
  have hnames : ∀ n ∈ s.resultColumns c, '\'' ∉ n.toList := fun n hn => hticks n (mem_names_of_mem_resultColumns hn)
  have htame : IsTame (s.compiled c) := by
    refine isTame_of_ordering haccepted hticks hne hresolves (by rw [hraw]; exact nofun) fun o ho => ?_
    obtain ⟨k, hk, rfl⟩ := List.mem_map.mp ho
    exact (hordering k hk).elim (OrderKey.isEntry_sql (htidy.resultColumns c) hnames) id
  refine violations_text htame rfl ⟨fun d hd => ?_, htable.2⟩
  have htick : d ≠ '\'' := fun hd' => hticks c.table List.mem_cons_self (hd' ▸ hd)
  have hdouble : d ≠ '"' := fun hd' => htable.1 (hd' ▸ hd)
  simp [isQuote, htick, hdouble]

/-- A statement without raw SQL is read, whatever it is ordered by. -/
theorem exists_read?_compiled (haccepted : c.Accepted) (htidy : s.Tidy) (hne : s.isEmpty = false)
    (hresolves : s.Resolves c) (hnumbers : s.numbers.all isWritable) (hraw : s.rawSql c = [])
    (hordering : s.OrdersReadably c) :
    ∃ q, Query.read? c (s.compiled c).text = .ok (some q) ∧ q.table = ((s.compiled c).query c).table := by
  have hinner : ∀ m, NoCall m → (fun _ : List Char => True) m := fun _ _ => trivial
  have hlimit := isWritable_limit hnumbers
  have hplain (hplain : ∀ k ∈ s.ordering, k.IsPlain (s.resultColumns c)) :
      ∃ q, Query.read? c (s.compiled c).text = .ok (some q) ∧ q.table = ((s.compiled c).query c).table := by
    have hparts : ∀ o ∈ (s.compiled c).ordering, ListPart (fun _ => True) o.toList := by
      intro o ho
      obtain ⟨k, hk, rfl⟩ := List.mem_map.mp ho
      exact OrderKey.listPart_sql (htidy.resultColumns c) (hplain k hk)
    have hreadable := readable_of_rawSql_eq_nil hinner haccepted hne hresolves hraw hparts (s.compiled c).limit
    exact ⟨_, (s.compiled c).read?_text c hreadable hlimit, rfl⟩
  rcases hordering with hordering | hordering
  · exact hplain hordering
  · cases hkeys : s.ordering with
    | nil => exact hplain (by rw [hkeys]; exact nofun)
    | cons k keys =>
      have hreadable : (s.compiled c).unordered.Readable fun _ => True :=
        readable_of_rawSql_eq_nil hinner haccepted hne hresolves hraw (List.forall_mem_nil _) none
      refine SelectStatement.exists_read?_text c hreadable ?_ ?_ hlimit
      · rw [compiled, hkeys]
        exact List.cons_ne_nil _ _
      · intro o ho
        obtain ⟨k, hk, rfl⟩ := List.mem_map.mp ho
        exact hordering k hk

/-- **The table of a statement without raw SQL is read under its name exactly if that has no double quote.**  Then
the gate lets the statement pass, if no name has an apostrophe and the ordering holds nothing that it searches. -/
theorem table_eq_iff_and_violations_eq_nil (haccepted : c.Accepted) (hfields : ∃ fields, ofFields fields = .ok s)
    (hraw : s.rawSql c = []) (hparts : "" ∉ tableParts c.table) (hsql : s.sql c = .ok sql)
    (hordering : s.OrdersReadably c) :
    (∃ q, Query.read? c sql = .ok (some q) ∧ q.table = String.ofList (double c.table.toList) ∧
      (q.table = c.table ↔ '"' ∉ c.table.toList)) ∧
      ('"' ∉ c.table.toList → c.Unticked → s.OrdersHarmlessly c → violations c sql = []) := by
  obtain ⟨fields, hfields⟩ := hfields
  have htidy := tidy_of_ofFields hfields
  obtain ⟨st, hst, rfl⟩ := exists_statement_of_sql hsql
  obtain ⟨hne, hresolves, hnumbers, rfl⟩ := of_statement_eq_ok hst
  refine ⟨?_, fun hquote =>
    violations_compiled_eq_nil haccepted htidy hne hresolves hraw ⟨hquote, hparts⟩⟩
  obtain ⟨q, hread, htable⟩ := exists_read?_compiled haccepted htidy hne hresolves hnumbers hraw hordering
  rw [table_query_compiled hparts] at htable
  refine ⟨q, hread, htable, ?_⟩
  rw [htable, ← String.toList_inj, String.toList_ofList, double_eq_self_iff]

/-- Visits, in a table whose name holds a point, a keyword and other signs. -/
def visitsCatalog : Catalog where
  table := "log.visits; from (2024)"
  fields := [{ name := "country", physicalType := "VARCHAR", ingestType := "string", category := "categorical" }]
  dimensions := [{ source := "country", aliasName := "Country" }]
  measures := [Draft.rowCount]

/-- Visits by country, ordered by an expression. -/
def visitsRequest : Selection where
  dimensions := ["country"]
  measures := ["row_count"]
  ordering := [.text "lower(country) desc", .position 2]
  limit := some 5

theorem table_eq_iff_and_violations_eq_nil_visitsRequest :
    ∃ sql q, visitsRequest.sql visitsCatalog = .ok sql ∧ Query.read? visitsCatalog sql = .ok (some q) ∧
      q.table = visitsCatalog.table ∧ violations visitsCatalog sql = [] := by
  have hst : visitsRequest.statement visitsCatalog = .ok (visitsRequest.compiled visitsCatalog) := by
    decide +kernel
  have hsql : visitsRequest.sql visitsCatalog = .ok (visitsRequest.compiled visitsCatalog).text := by
    rw [Selection.sql, hst]
    rfl
  have hshort : ∀ k ∈ visitsRequest.ordering,
      (k.sql (visitsRequest.resultColumns visitsCatalog)).toList.length ≤ digitLimit := by
    decide
  have hentries : ∀ k ∈ visitsRequest.ordering,
      IsFixed gateWords (k.sql (visitsRequest.resultColumns visitsCatalog)).toList ∧
        Ends (k.sql (visitsRequest.resultColumns visitsCatalog)).toList := by
    decide +kernel
  obtain ⟨⟨q, hread, -, htable⟩, hgate⟩ := table_eq_iff_and_violations_eq_nil (c := visitsCatalog) (s := visitsRequest)
    (by decide +kernel)
    ⟨[("dimensions", .list [.text "country"]), ("measures", .list [.text "row_count"]),
      ("order_by", .list [.text "lower(country) desc", .int 2]), ("limit", .int 5)], by decide +kernel⟩
    (by decide +kernel) (by decide) hsql (Or.inr fun k hk => shortNumerals_of_length_le (hshort k hk))
  exact ⟨_, q, hsql, hread, htable.mpr (by decide), hgate (by decide) (by decide)
    fun k hk => Or.inr ⟨.of_fixed (hentries k hk).1, (hentries k hk).2⟩⟩

/-- A catalog whose table has a double quote in its name. -/
def sayingsCatalog : Catalog where
  table := "say\"hi"
  measures := [Draft.rowCount]

/-- The rows are counted. -/
def sayingsRequest : Selection where
  measures := ["row_count"]

/-- A table with a double quote in its name is read under another name, and the gate does not let it pass. -/
theorem not_forall_table_eq :
    ¬ ∀ (c : Catalog) (s : Selection) (sql : String), c.Accepted → (∃ fields, ofFields fields = .ok s) →
      s.rawSql c = [] → "" ∉ tableParts c.table → '\'' ∉ c.table.toList → s.sql c = .ok sql →
      (∃ q, Query.read? c sql = .ok (some q) ∧ q.table = c.table) ∧ ∀ n t, .otherTable n t ∉ violations c sql := by
  intro h
  have hgate : .otherTable "say\"\"hi" "say\"hi" ∈
      violations sayingsCatalog (sayingsRequest.compiled sayingsCatalog).text := by
    decide +kernel
  have hpasses := (h sayingsCatalog sayingsRequest (sayingsRequest.compiled sayingsCatalog).text (by decide)
    ⟨[("measures", .list [.text "row_count"])], by decide +kernel⟩ (by decide) (by decide) (by decide)
    (by decide +kernel)).2
  exact hpasses _ _ hgate

end Selection

end MetricLayer
