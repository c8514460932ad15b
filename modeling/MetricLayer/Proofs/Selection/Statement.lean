import MetricLayer.Catalog.Bundled
import MetricLayer.Proofs.Selection.Items
import MetricLayer.Proofs.Selection.Order

/-!
# The statement of a selection that resolves

When a catalog knows all aliases of a selection, `compiled` is the statement of the selection
(`statement_eq`), and its parts can be read back (`readable_compiled`).  `Admissible` is what is
asked of a selection and its catalog for that.
-/

namespace MetricLayer

open MetricLayer.Text MetricLayer.Sql

namespace Selection

/-! ## Names -/

/-- The aliases are not empty and have no white space around them. -/
def Tidy (s : Selection) : Prop :=
  ∀ n ∈ s.dimensions ++ s.measures, Trimmed n.toList ∧ n ≠ ""

theorem tidy_trimAliases (names : List String) :
    ∀ n ∈ trimAliases names, Trimmed n.toList ∧ n ≠ "" := by
  intro n hn
  obtain ⟨hmem, hne⟩ := List.mem_filter.mp hn
  obtain ⟨m, -, rfl⟩ := List.mem_map.mp hmem
  rw [toList_within]
  exact ⟨trimmed_trim m.toList, bne_iff_ne.mp hne⟩

/-- Every selection that is read from fields is tidy. -/
theorem tidy_of_ofFields {fields : List (String × Value)} {s : Selection}
    (h : ofFields fields = .ok s) : s.Tidy := by
  rw [ofFields] at h
  split at h
  · cases h
  · cases h
    exact List.forall_mem_append.mpr ⟨tidy_trimAliases _, tidy_trimAliases _⟩
  · cases h

/-- The catalog knows every alias. -/
def Resolves (c : Catalog) (s : Selection) : Prop :=
  (∀ n ∈ s.dimensions, (c.dimension? n).isSome) ∧ ∀ n ∈ s.measures, (c.entry? n).isSome

instance (c : Catalog) (s : Selection) : Decidable (s.Resolves c) :=
  inferInstanceAs (Decidable (_ ∧ _))

/-- What the dimension aliases stand for. -/
def chosenDimensions (c : Catalog) (s : Selection) : List Dimension :=
  s.dimensions.filterMap c.dimension?

/-- What the measure aliases stand for. -/
def chosenEntries (c : Catalog) (s : Selection) : List Entry :=
  s.measures.filterMap c.entry?

/-- The names of the result columns, as the catalog writes them. -/
def resultColumns (c : Catalog) (s : Selection) : List String :=
  (s.chosenDimensions c).map Dimension.aliasName ++ (s.chosenEntries c).map Entry.aliasName

variable {c : Catalog} {s : Selection}

theorem of_mem_chosenDimensions {d : Dimension} (h : d ∈ s.chosenDimensions c) :
    d ∈ c.dimensions ∧ ∃ n ∈ s.dimensions, lower d.aliasName.toList = lower n.toList := by
  obtain ⟨n, hn, hd⟩ := List.mem_filterMap.mp h
  obtain ⟨hmem, hlower⟩ := of_findAlias?_eq_some hd
  exact ⟨hmem, n, hn, hlower⟩

theorem of_mem_chosenEntries {e : Entry} (h : e ∈ s.chosenEntries c) :
    e ∈ c.entries ∧ ∃ n ∈ s.measures, lower e.aliasName.toList = lower n.toList := by
  obtain ⟨n, hn, he⟩ := List.mem_filterMap.mp h
  obtain ⟨hmem, hlower⟩ := of_findAlias?_eq_some he
  exact ⟨hmem, n, hn, hlower⟩

/-- The catalog's spelling of a tidy alias is tidy. -/
theorem Tidy.resultColumns (h : s.Tidy) (c : Catalog) :
    ∀ n ∈ s.resultColumns c, Trimmed n.toList ∧ n ≠ "" := by
  have hspelling {n m : String} (hm : m ∈ s.dimensions ++ s.measures)
      (hlower : lower n.toList = lower m.toList) : Trimmed n.toList ∧ n ≠ "" := by
    obtain ⟨htrim, hne⟩ := h m hm
    obtain ⟨htrim, hnil⟩ := trimmed_of_lower_eq hlower htrim (by simpa using hne)
    exact ⟨htrim, by simpa using hnil⟩
  intro n hn
  rcases List.mem_append.mp hn with hn | hn
  · obtain ⟨d, hd, rfl⟩ := List.mem_map.mp hn
    obtain ⟨-, m, hm, hlower⟩ := of_mem_chosenDimensions hd
    exact hspelling (List.mem_append_left _ hm) hlower
  · obtain ⟨e, he, rfl⟩ := List.mem_map.mp hn
    obtain ⟨-, m, hm, hlower⟩ := of_mem_chosenEntries he
    exact hspelling (List.mem_append_right _ hm) hlower

/-! ## The statement -/

/-- The item of a dimension. -/
def itemOfDimension (c : Catalog) (d : Dimension) : NamedItem :=
  ⟨c.dimensionSql d, d.aliasName⟩

/-- The item of an entry that has its SQL. -/
def itemOfEntry (c : Catalog) (e : Entry) : NamedItem :=
  ⟨(c.entrySql e).toOption.getD "", e.aliasName⟩

/-- The items, dimensions first. -/
def chosenItems (c : Catalog) (s : Selection) : List NamedItem :=
  (s.chosenDimensions c).map (itemOfDimension c) ++ (s.chosenEntries c).map (itemOfEntry c)

/-- The statement of a selection that resolves. -/
def compiled (c : Catalog) (s : Selection) : SelectStatement where
  items := (s.chosenItems c).map NamedItem.text
  source := quoteTable c.table
  conditions := s.filters.map (within trim)
  groups := s.dimensions.length
  ordering := s.ordering.map (OrderKey.sql (s.resultColumns c))
  limit := s.limit

theorem map_name_chosenItems (c : Catalog) (s : Selection) :
    (s.chosenItems c).map NamedItem.name = s.resultColumns c := by
  rw [chosenItems, List.map_append, List.map_map, List.map_map]
  rfl

theorem mapM_eq_ok {ε α β γ : Type} {f : α → Except ε γ} {r : α → Option β} {g : β → γ}
    {names : List α} (h : ∀ n ∈ names, ∃ a, r n = some a ∧ f n = .ok (g a)) :
    names.mapM f = .ok ((names.filterMap r).map g) := by
  induction names with
  | nil => rfl
  | cons n names ih =>
    obtain ⟨a, hr, hf⟩ := h n List.mem_cons_self
    rw [List.mapM_cons, hf, ih fun m hm => h m (List.mem_cons_of_mem n hm), List.filterMap_cons, hr]
    rfl

theorem items_eq_chosenItems (hne : s.isEmpty = false) (hresolves : s.Resolves c)
    (hentries : ∀ e ∈ s.chosenEntries c, ∃ expression, c.entrySql e = .ok expression) :
    s.items c = .ok (s.chosenItems c) := by
  have hdimensions : s.dimensions.mapM (dimensionItem c) =
      .ok ((s.chosenDimensions c).map (itemOfDimension c)) := by
    apply mapM_eq_ok
    intro n hn
    obtain ⟨d, hd⟩ := Option.isSome_iff_exists.mp (hresolves.1 n hn)
    exact ⟨d, hd, by rw [dimensionItem, hd]; rfl⟩
  have hmeasures : s.measures.mapM (measureItem c) =
      .ok ((s.chosenEntries c).map (itemOfEntry c)) := by
    apply mapM_eq_ok
    intro n hn
    obtain ⟨e, he⟩ := Option.isSome_iff_exists.mp (hresolves.2 n hn)
    obtain ⟨expression, hsql⟩ := hentries e (List.mem_filterMap.mpr ⟨n, hn, he⟩)
    refine ⟨e, he, ?_⟩
    rw [measureItem, he]
    show (c.entrySql e).map _ = _
    rw [itemOfEntry, hsql]
    rfl
  rw [items, hne, hdimensions, hmeasures]
  rfl

theorem statement_eq (hne : s.isEmpty = false) (hresolves : s.Resolves c)
    (hentries : ∀ e ∈ s.chosenEntries c, ∃ expression, c.entrySql e = .ok expression) :
    s.statement c = if s.numbers.all isWritable then .ok (s.compiled c) else .error .numeralTooLong := by
  rw [statement, items_eq_chosenItems hne hresolves hentries]
  cases hnumbers : s.numbers.all isWritable with
  | true =>
    show Except.ok _ = _
    rw [if_pos rfl, compiled, ← map_name_chosenItems]
  | false => rfl

end Selection

namespace Catalog

/-- The SQL of the dimensions that have their own. -/
def transformations (c : Catalog) : List String :=
  c.dimensions.filterMap fun d => d.transformation.map Value.display

/-- The SQL of the formulas. -/
def formulas (c : Catalog) : List String :=
  c.entries.filterMap fun
    | .formula f => some f.sql
    | .aggregation _ => none

theorem mem_transformations {c : Catalog} {d : Dimension} (hd : d ∈ c.dimensions) {t : Value}
    (ht : d.transformation = some t) : t.display ∈ c.transformations :=
  List.mem_filterMap.mpr ⟨d, hd, by rw [ht]; rfl⟩

theorem mem_formulas {c : Catalog} {f : Formula} (hf : .formula f ∈ c.entries) : f.sql ∈ c.formulas :=
  List.mem_filterMap.mpr ⟨_, hf, rfl⟩

/-- The raw SQL of a catalog consists of fragments. -/
def HasFragments (inner : List Char → Prop) (c : Catalog) : Prop :=
  ∀ sql ∈ c.transformations ++ c.formulas, Fragment inner sql

end Catalog

namespace Selection

section readable

variable {inner : List Char → Prop} {c : Catalog} {s : Selection}

theorem exists_entrySql_of_chosen (hinner : ∀ m, NoCall m → inner m) (haccepted : c.Accepted)
    (hfragments : c.HasFragments inner) {e : Entry} (he : e ∈ s.chosenEntries c) :
    ∃ expression, c.entrySql e = .ok expression ∧ Sound inner expression.toList :=
  have hmem := (of_mem_chosenEntries he).1
  haccepted.exists_entrySql hinner hmem fun _ hf =>
    hfragments _ (List.mem_append_right _ (Catalog.mem_formulas (hf ▸ hmem)))

/-- Every item can be told apart and has a name. -/
theorem sound_chosenItems (hinner : ∀ m, NoCall m → inner m) (haccepted : c.Accepted)
    (hfragments : c.HasFragments inner) (htidy : s.Tidy) :
    ∀ i ∈ s.chosenItems c, Sound inner i.expression.toList ∧ i.name ≠ "" := by
  intro i hi
  have hname : i.name ≠ "" := by
    have hmem : i.name ∈ s.resultColumns c := map_name_chosenItems c s ▸ List.mem_map_of_mem hi
    exact (htidy.resultColumns c _ hmem).2
  refine ⟨?_, hname⟩
  rcases List.mem_append.mp hi with hi | hi
  · obtain ⟨d, hd, rfl⟩ := List.mem_map.mp hi
    exact sound_dimensionSql hinner c fun t ht => hfragments _
      (List.mem_append_left _ (Catalog.mem_transformations (of_mem_chosenDimensions hd).1 ht))
  · obtain ⟨e, he, rfl⟩ := List.mem_map.mp hi
    obtain ⟨expression, hsql, hsound⟩ := exists_entrySql_of_chosen hinner haccepted hfragments he
    rw [itemOfEntry, hsql]
    exact hsound

theorem chosenItems_ne_nil (hne : s.isEmpty = false) (hresolves : s.Resolves c) :
    s.chosenItems c ≠ [] := by
  intro hnil
  have hnames := map_name_chosenItems c s
  rw [hnil, List.map_nil, eq_comm, resultColumns, List.append_eq_nil_iff, List.map_eq_nil_iff,
    List.map_eq_nil_iff] at hnames
  have hempty {α : Type} {r : String → Option α} {names : List String}
      (hr : ∀ n ∈ names, (r n).isSome) (hnil : names.filterMap r = []) : names = [] := by
    rw [List.filterMap_eq_nil_iff] at hnil
    rw [List.eq_nil_iff_forall_not_mem]
    intro n hn
    have hsome := hr n hn
    rw [hnil n hn] at hsome
    cases hsome
  rw [isEmpty, hempty hresolves.1 hnames.1, hempty hresolves.2 hnames.2] at hne
  cases hne

/-- A statement with the items of a selection can be read back, whatever its ordering and limit are. -/
theorem readable_of_sound (hne : s.isEmpty = false) (hresolves : s.Resolves c)
    (hitems : ∀ i ∈ s.chosenItems c, Sound inner i.expression.toList)
    (hfilters : ∀ f ∈ s.filters, Fragment inner (within trim f)) {ordering : List String}
    (hordering : ∀ o ∈ ordering, ListPart inner o.toList) (limit : Option Nat) :
    SelectStatement.Readable inner { s.compiled c with ordering, limit } := by
  have hitem : ∀ t ∈ (s.compiled c).items, ∃ i ∈ s.chosenItems c, i.text = t :=
    fun t ht => List.mem_map.mp ht
  refine ⟨?_, ?_, ?_, ?_, ?_, hordering⟩
  · show (s.compiled c).items ≠ []
    rw [compiled, ne_eq, List.map_eq_nil_iff]
    exact chosenItems_ne_nil hne hresolves
  · intro t ht
    obtain ⟨i, hi, rfl⟩ := hitem t ht
    exact NamedItem.listPart (hitems i hi)
  · intro t ht
    obtain ⟨i, hi, rfl⟩ := hitem t ht
    exact NamedItem.notDistinct (hitems i hi)
  · exact listPart_quoteTable c.table
  · intro t ht
    obtain ⟨f, hf, rfl⟩ := List.mem_map.mp ht
    exact hfilters f hf

/-- The parts of the statement can be read back. -/
theorem readable_compiled (hinner : ∀ m, NoCall m → inner m) (haccepted : c.Accepted)
    (htidy : s.Tidy) (hne : s.isEmpty = false) (hresolves : s.Resolves c)
    (hfragments : c.HasFragments inner) (hfilters : ∀ f ∈ s.filters, Fragment inner (within trim f))
    (hordering : ∀ o ∈ (s.compiled c).ordering, ListPart inner o.toList) : (s.compiled c).Readable inner := by
  have hitems := sound_chosenItems hinner haccepted hfragments htidy
  exact readable_of_sound hne hresolves (fun i hi => (hitems i hi).1) hfilters hordering (s.compiled c).limit

end readable

/-! ## Admissible selections -/

/-- A selection that was read from fields, and that an accepted catalog can compile: every alias is
known, raw SQL has its quotes closed and its parentheses balanced, and the rows are ordered by positions
and result columns. -/
structure Admissible (c : Catalog) (s : Selection) : Prop where
  accepted : c.Accepted
  ofFields : ∃ fields, ofFields fields = .ok s
  isEmpty : s.isEmpty = false
  resolves : s.Resolves c
  wellFormed : ∀ sql ∈ c.transformations ++ c.formulas ++ s.filters, WellFormed sql.toList
  ordering : ∀ k ∈ s.ordering, k.IsPlain (s.resultColumns c)

namespace Admissible

variable {inner : List Char → Prop} {c : Catalog} {s : Selection}

theorem tidy (h : s.Admissible c) : s.Tidy :=
  have ⟨_, hfields⟩ := h.ofFields
  tidy_of_ofFields hfields

theorem hasFragments (h : s.Admissible c)
    (hraw : ∀ sql ∈ c.transformations ++ c.formulas, inner (mask sql.toList)) : c.HasFragments inner :=
  fun sql hsql => ⟨h.wellFormed sql (List.mem_append_left _ hsql), hraw sql hsql⟩

theorem readable (h : s.Admissible c) (hinner : ∀ m, NoCall m → inner m)
    (hraw : ∀ sql ∈ c.transformations ++ c.formulas, inner (mask sql.toList))
    (hfilters : ∀ f ∈ s.filters, inner (mask (trim f.toList))) : (s.compiled c).Readable inner := by
  refine readable_compiled hinner h.accepted h.tidy h.isEmpty h.resolves (h.hasFragments hraw) ?_ ?_
  · intro f hf
    rw [Fragment, toList_within]
    exact ⟨(h.wellFormed f (List.mem_append_right _ hf)).trim, hfilters f hf⟩
  · intro o ho
    obtain ⟨k, hk, rfl⟩ := List.mem_map.mp ho
    exact OrderKey.listPart_sql (h.tidy.resultColumns c) (h.ordering k hk)

/-- Every entry it selects has its SQL. -/
theorem exists_entrySql (h : s.Admissible c) :
    ∀ e ∈ s.chosenEntries c, ∃ expression, c.entrySql e = .ok expression := by
  intro e he
  have hfragments : c.HasFragments fun _ => True := h.hasFragments fun _ _ => trivial
  obtain ⟨expression, hsql, -⟩ := exists_entrySql_of_chosen (fun _ _ => trivial) h.accepted hfragments he
  exact ⟨expression, hsql⟩

/-- The selection has its statement, unless a number in it is too long. -/
theorem sql_eq (h : s.Admissible c) :
    s.sql c =
      if s.numbers.all isWritable then .ok (s.compiled c).text else .error .numeralTooLong := by
  rw [sql, statement_eq h.isEmpty h.resolves h.exists_entrySql]
  split <;> rfl

end Admissible

theorem isWritable_groups {s : Selection} (hnumbers : s.numbers.all isWritable) : isWritable s.dimensions.length :=
  List.all_eq_true.mp hnumbers _ List.mem_cons_self

theorem isWritable_limit {s : Selection} (hnumbers : s.numbers.all isWritable) : ∀ n ∈ s.limit, isWritable n := by
  intro n hn
  rw [List.all_eq_true] at hnumbers
  refine hnumbers n (List.mem_cons_of_mem _ (List.mem_append_right _ (List.mem_map.mpr ⟨n, ?_, rfl⟩)))
  exact Option.mem_toList.mpr hn

theorem wellFormed_sessionsCatalog :
    ∀ sql ∈ sessionsCatalog.transformations ++ sessionsCatalog.formulas, WellFormed sql.toList := by
  decide +kernel

/-- Long sessions by revenue, with aliases in letter cases of their own. -/
def sessionsRequest : Selection where
  dimensions := ["session length"]
  measures := ["Revenue_Per_User"]
  filters := [" device_type = 'mobile'"]
  ordering := [.text "revenue_per_user desc"]
  limit := some 5

theorem admissible_sessionsRequest : sessionsRequest.Admissible sessionsCatalog where
  accepted := accepted_sessionsCatalog
  ofFields := ⟨[("dimensions", .list [.text "session length"]), ("measures", .list [.text "Revenue_Per_User"]),
    ("filters", .list [.text " device_type = 'mobile'"]),
    ("order_by", .list [.text "revenue_per_user desc"]), ("limit", .int 5)], by decide +kernel⟩
  isEmpty := rfl
  resolves := by decide +kernel
  wellFormed := List.forall_mem_append.mpr ⟨wellFormed_sessionsCatalog, by decide +kernel⟩
  ordering := by
    intro k hk
    rw [List.mem_singleton.mp hk]
    exact ⟨"revenue_per_user", by decide +kernel, by decide, by decide, " desc".toList, by decide,
      Or.inr (by decide)⟩

/-- A selection ordered by a position of one digit too many. -/
def hugePosition : Selection where
  measures := ["user_count"]
  ordering := [.position (10 ^ digitLimit)]

theorem admissible_hugePosition : hugePosition.Admissible usersCatalog where
  accepted := accepted_usersCatalog
  ofFields := ⟨[("measures", .list [.text "user_count"]),
    ("order_by", .list [.int (10 ^ digitLimit)])], rfl⟩
  isEmpty := rfl
  resolves := by decide +kernel
  wellFormed := by decide +kernel
  ordering := by
    intro k hk
    rw [List.mem_singleton.mp hk]
    trivial

theorem sql_hugePosition : hugePosition.sql usersCatalog = .error .numeralTooLong := by
  have hposition : isWritable (10 ^ digitLimit) = false := by
    have hten : Int.natAbs 10 = 10 := rfl
    rw [isWritable, Int.natAbs_pow, hten, decide_eq_false_iff_not]
    exact Nat.lt_irrefl (10 ^ digitLimit)
  have hnumbers : hugePosition.numbers.all isWritable = false := by
    show (isWritable 0 && (isWritable (10 ^ digitLimit) && true)) = false
    rw [hposition, Bool.false_and, Bool.and_false]
  rw [admissible_hugePosition.sql_eq, hnumbers]
  rfl

end Selection

end MetricLayer
