import MetricLayer.Proofs.Selection.Statement

/-!
# Ordering by what is requested

An ordering may name a result column as the catalog spells it, with ` ASC` or ` DESC` behind it or nothing.
The name and the direction are told apart by how the text ends, and quotes at its ends are taken for quotes
around the name.  So a name that itself ends in a direction is cut, and one with quotes at its ends is not
found; every other name is written in quotes (`ordering_eq_quote_iff`).
-/

namespace MetricLayer

open MetricLayer.Text MetricLayer.Sql

/-! ## Names in quotes -/

theorem quote_inj {a b : String} : quote a = quote b ↔ a = b := by
  refine ⟨fun h => ?_, congrArg quote⟩
  rw [← String.toList_inj, toList_quote, toList_quote] at h
  have hdouble : double a.toList = double b.toList := (List.cons.inj (List.append_cancel_right h)).2
  rw [← String.toList_inj, ← undouble_double a.toList, hdouble, undouble_double]

theorem quote_ne_self (a : String) : quote a ≠ a := by
  intro h
  have hlength := congrArg (fun s => s.toList.length) h
  simp only [toList_quote, List.length_append, List.length_cons, List.length_nil] at hlength
  have hle := length_le_length_double a.toList
  omega

namespace OrderKey

/-! ## The end of a text -/

/-- The text ends in a direction, in any letter case, with white space before it. -/
def EndsInDirection (cs : List Char) : Prop :=
  ∃ x gap d, cs = x ++ (gap ++ d) ∧ gap ≠ [] ∧ (∀ c ∈ gap, isBlank c) ∧
    ∃ w ∈ directionWords, d.map fold = w.toList

/-- A direction is split off exactly where a text ends in one. -/
theorem splitDirection_cases {cs : List Char} (htrim : Trimmed cs) :
    (¬ EndsInDirection cs ∧ splitDirection cs = (cs, none)) ∨
      EndsInDirection cs ∧ ∃ target d, splitDirection cs = (target, some d) ∧
        ∃ w ∈ directionWords, d.map fold = w.toList := by
  rw [splitDirection]
  split
  next stop d hfound =>
    right
    obtain ⟨p, hp, hdirection⟩ := List.exists_of_findSome?_eq_some hfound
    obtain ⟨d', hd', heq⟩ := Option.map_eq_some_iff.mp hdirection
    obtain rfl : d' = d := (Prod.mk.inj heq).2
    obtain ⟨x, rest, rfl, rfl⟩ := mem_places.mp (List.mem_of_mem_tail hp)
    obtain ⟨gap, hne, hgap, hrest, hword⟩ := direction?_eq_some_iff.mp hd'
    exact ⟨⟨x, gap, d', by rw [← hrest], hne, hgap, hword⟩, _, d', rfl, hword⟩
  next hnone =>
    left
    refine ⟨?_, rfl⟩
    rintro ⟨x, gap, d, rfl, hne, hgap, hword⟩
    obtain ⟨b, gap, rfl⟩ := List.exists_cons_of_ne_nil hne
    cases x with
    | nil =>
      have hb : isBlank b = false := htrim.1 b rfl
      rw [hgap b List.mem_cons_self] at hb
      cases hb
    | cons c x =>
      have hplace : ⟨1 + x.length, lastOr (some c) x, b :: gap ++ d⟩ ∈
          (places (c :: x ++ (b :: gap ++ d))).tail :=
        mem_placesFrom.mpr ⟨x, b :: gap ++ d, rfl, rfl⟩
      have hdirection : direction? (b :: gap ++ d) = some d :=
        direction?_eq_some_iff.mpr ⟨b :: gap, hne, hgap, rfl, hword⟩
      have hhere := List.findSome?_eq_none_iff.mp hnone _ hplace
      simp only [hdirection, Option.map_some] at hhere
      cases hhere

/-! ## What is written -/

/-- What is written for a target: a result column in quotes, or the target as it is. -/
def written (names : List String) (target : List Char) : String :=
  let bare := String.ofList (dropBothWhile (· == '"') target)
  if names.contains bare then quote bare else String.ofList target

theorem sql_of_split {names : List String} {t : String} {target : List Char} {d : Option (List Char)}
    (h : splitDirection (trim t.toList) = (target, d)) :
    OrderKey.sql names (.text t) =
      (d.map fun d => written names target ++ " " ++ String.ofList (upper d)).getD (written names target) := by
  rw [OrderKey.sql, h]
  cases d <;> rfl

variable {names : List String} {a : String}

/-- A result column is found under its name unless quotes are taken off it. -/
theorem written_eq_quote_iff (ha : a ∈ names) :
    written names a.toList = quote a ↔ Bare (· == '"') a.toList := by
  constructor
  · intro h
    rw [written] at h
    split at h
    next =>
      rw [quote_inj, ← String.toList_inj, String.toList_ofList] at h
      rw [← h]
      exact dropBothWhile_bare _ _
    next =>
      rw [String.ofList_toList] at h
      exact absurd h.symm (quote_ne_self a)
  · intro hbare
    rw [written, dropBothWhile_eq_self hbare, String.ofList_toList]
    exact if_pos (List.contains_iff_mem.mpr ha)

/-- What ends in a direction is no name in quotes. -/
theorem append_direction_ne_quote {t : String} {d : List Char}
    (hd : ∃ w ∈ directionWords, d.map fold = w.toList) (a : String) :
    t ++ " " ++ String.ofList (upper d) ≠ quote a := by
  have hlast : ∀ w ∈ ["ASC", "DESC"], w.toList.getLast? = some 'C' := by decide
  intro h
  have hend := congrArg (fun s => s.toList.getLast?) h
  simp only [String.toList_append, List.getLast?_append, hlast _ (upper_direction hd), toList_quote,
    List.getLast?_singleton, Option.some_or] at hend
  exact absurd hend (by decide)

theorem sql_name_eq_quote_iff (ha : a ∈ names) (hname : Trimmed a.toList) :
    OrderKey.sql names (.text a) = quote a ↔
      Bare (· == '"') a.toList ∧ ¬ EndsInDirection a.toList := by
  rcases splitDirection_cases hname with ⟨hends, hsplit⟩ | ⟨hends, target, d, hsplit, hd⟩
  · rw [sql_of_split (by rw [trim_eq_self hname, hsplit])]
    simp only [Option.map_none, Option.getD_none]
    exact (written_eq_quote_iff ha).trans (and_iff_left hends).symm
  · rw [sql_of_split (by rw [trim_eq_self hname, hsplit])]
    exact iff_of_false (append_direction_ne_quote hd a) fun h => h.2 hends

theorem sql_direction_eq_quote_iff (ha : a ∈ names) (hname : Trimmed a.toList ∧ a ≠ "") {w : String}
    (hw : w ∈ ["ASC", "DESC"]) :
    OrderKey.sql names (.text (a ++ " " ++ w)) = quote a ++ " " ++ w ↔ Bare (· == '"') a.toList := by
  obtain ⟨hsplit, hupper⟩ := splitDirection_concat hname hw
  rw [sql_of_split hsplit, Option.map_some, Option.getD_some, hupper, String.append_left_inj,
    String.append_left_inj]
  exact written_eq_quote_iff ha

/-- What may stand behind a name in an ordering. -/
def suffixes : List String :=
  ["", " ASC", " DESC"]

/-- A result column is written in quotes unless its name is taken apart. -/
theorem sql_eq_quote_iff (ha : a ∈ names) (hname : Trimmed a.toList ∧ a ≠ "") {suffix : String}
    (hsuffix : suffix ∈ suffixes) :
    OrderKey.sql names (.text (a ++ suffix)) = quote a ++ suffix ↔
      Bare (· == '"') a.toList ∧ (suffix = "" → ¬ EndsInDirection a.toList) := by
  have hdirection {w : String} (hw : w ∈ ["ASC", "DESC"]) (hne : " " ++ w ≠ "") :
      OrderKey.sql names (.text (a ++ (" " ++ w))) = quote a ++ (" " ++ w) ↔
        Bare (· == '"') a.toList ∧ (" " ++ w = "" → ¬ EndsInDirection a.toList) := by
    rw [← String.append_assoc, ← String.append_assoc]
    exact (sql_direction_eq_quote_iff ha hname hw).trans (and_iff_left fun h => absurd h hne).symm
  simp only [suffixes, List.mem_cons, List.not_mem_nil, or_false] at hsuffix
  obtain rfl | rfl | rfl := hsuffix
  · rw [String.append_empty, String.append_empty, sql_name_eq_quote_iff ha hname.1]
    simp
  · exact hdirection (w := "ASC") (by decide) (by decide)
  · exact hdirection (w := "DESC") (by decide) (by decide)

end OrderKey

namespace Selection

variable {c : Catalog} {s : Selection}

/-! ## The statement there is -/

theorem exists_of_mapM_eq_ok {ε α β : Type} {f : α → Except ε β} {as : List α} {bs : List β}
    (h : as.mapM f = .ok bs) : ∀ a ∈ as, ∃ b, f a = .ok b := by
  induction as generalizing bs with
  | nil => exact List.forall_mem_nil _
  | cons a as ih =>
    rw [List.mapM_cons] at h
    cases hhead : f a with
    | error => rw [hhead] at h; cases h
    | ok b =>
      cases hrest : as.mapM f with
      | error => rw [hhead, hrest] at h; cases h
      | ok rest => exact List.forall_mem_cons.mpr ⟨⟨b, hhead⟩, ih hrest⟩

/-- A selection that has items selects something, and each name has its item. -/
theorem of_items_eq_ok {items : List NamedItem} (h : s.items c = .ok items) : s.isEmpty = false ∧
    (∀ n ∈ s.dimensions, ∃ item, dimensionItem c n = .ok item) ∧ ∀ n ∈ s.measures, ∃ item, measureItem c n = .ok item := by
  rw [Selection.items] at h
  cases hempty : s.isEmpty with
  | true => rw [hempty] at h; cases h
  | false =>
    rw [hempty] at h
    cases hdimensions : s.dimensions.mapM (dimensionItem c) with
    | error => rw [hdimensions] at h; cases h
    | ok dimensions =>
      cases hmeasures : s.measures.mapM (measureItem c) with
      | error => rw [hdimensions, hmeasures] at h; cases h
      | ok measures => exact ⟨rfl, exists_of_mapM_eq_ok hdimensions, exists_of_mapM_eq_ok hmeasures⟩

theorem isSome_of_dimensionItem {n : String} {item : NamedItem} (h : dimensionItem c n = .ok item) :
    (c.dimension? n).isSome := by
  rw [dimensionItem] at h
  split at h
  next hd => exact hd ▸ rfl
  next => cases h

theorem exists_entry_of_measureItem {n : String} {item : NamedItem} (h : measureItem c n = .ok item) :
    ∃ e expression, c.entry? n = some e ∧ c.entrySql e = .ok expression := by
  rw [measureItem] at h
  split at h
  next e he =>
    cases hsql : c.entrySql e with
    | error => rw [hsql] at h; cases h
    | ok expression => exact ⟨e, expression, he, hsql⟩
  next => cases h

/-- A selection that has a statement selects something, is known to the catalog and has numbers that can be
written. -/
theorem of_statement_eq_ok {st : SelectStatement} (h : s.statement c = .ok st) :
    s.isEmpty = false ∧ s.Resolves c ∧ s.numbers.all isWritable ∧ st = s.compiled c := by
  obtain ⟨items, hitems⟩ : ∃ items, s.items c = .ok items := by
    rw [statement] at h
    cases hitems : s.items c with
    | error => rw [hitems] at h; cases h
    | ok items => exact ⟨items, rfl⟩
  obtain ⟨hempty, hdimension, hmeasure⟩ := of_items_eq_ok hitems
  have hresolves : s.Resolves c := by
    constructor
    · intro n hn
      obtain ⟨item, hitem⟩ := hdimension n hn
      exact isSome_of_dimensionItem hitem
    · intro n hn
      obtain ⟨item, hitem⟩ := hmeasure n hn
      obtain ⟨e, -, he, -⟩ := exists_entry_of_measureItem hitem
      exact he ▸ rfl
  have hentries : ∀ e ∈ s.chosenEntries c, ∃ expression, c.entrySql e = .ok expression := by
    intro e he
    obtain ⟨n, hn, hentry⟩ := List.mem_filterMap.mp he
    obtain ⟨item, hitem⟩ := hmeasure n hn
    obtain ⟨e', expression, he', hsql⟩ := exists_entry_of_measureItem hitem
    obtain rfl : e = e' := Option.some.inj (hentry.symm.trans he')
    exact ⟨expression, hsql⟩
  rw [statement_eq hempty hresolves hentries] at h
  split at h
  next hnumbers => exact ⟨hempty, hresolves, hnumbers, (Except.ok.inj h).symm⟩
  next => cases h

theorem eq_compiled_of_statement_eq_ok {st : SelectStatement} (h : s.statement c = .ok st) :
    st = s.compiled c :=
  (of_statement_eq_ok h).2.2.2

/-- **A requested result column orders under its name in quotes exactly if its name is not taken apart**: it
has no double quote at an end and, without a direction behind it, does not end in one itself. -/
theorem ordering_eq_quote_iff (htidy : s.Tidy) {st : SelectStatement} (hst : s.statement c = .ok st)
    {a : String} (ha : a ∈ s.resultColumns c) {suffix : String} (hsuffix : suffix ∈ OrderKey.suffixes)
    {n : Nat} (hkey : s.ordering[n]? = some (.text (a ++ suffix))) :
    st.ordering[n]? = some (quote a ++ suffix) ↔
      Bare (· == '"') a.toList ∧ (suffix = "" → ¬ OrderKey.EndsInDirection a.toList) := by
  have hwritten : st.ordering[n]? = some (OrderKey.sql (s.resultColumns c) (.text (a ++ suffix))) := by
    rw [eq_compiled_of_statement_eq_ok hst, compiled, List.getElem?_map, hkey, Option.map_some]
  rw [hwritten, Option.some_inj]
  exact OrderKey.sql_eq_quote_iff ha (htidy.resultColumns c a ha) hsuffix

/-- Sessions by length, ordered by both of their columns. -/
def orderedRequest : Selection where
  dimensions := ["session length"]
  measures := ["revenue_per_user"]
  ordering := [.text "revenue_per_user DESC", .text "Session Length"]

theorem ordering_eq_quote_iff_orderedRequest :
    ∃ st, orderedRequest.statement sessionsCatalog = .ok st ∧
      st.ordering[0]? = some (quote "revenue_per_user" ++ " DESC") := by
  have hst : orderedRequest.statement sessionsCatalog = .ok (orderedRequest.compiled sessionsCatalog) := by
    decide +kernel
  exact ⟨_, hst, (ordering_eq_quote_iff (by unfold Tidy; decide) hst (by decide) (by decide) rfl).mpr
    ⟨by decide, fun h => absurd h (by decide)⟩⟩

/-- A catalog with a name for the description of an item. -/
def itemsCatalog : Catalog where
  table := "items"
  fields := [{ name := "item_desc", physicalType := "VARCHAR", ingestType := "string", category := "categorical" }]
  dimensions := [{ source := "item_desc", aliasName := "Item Desc" }]
  measures := []

/-- Items by their description, and in the order of it. -/
def itemsRequest : Selection where
  dimensions := ["Item Desc"]
  ordering := [.text "Item Desc"]

/-- The end of a name is taken for a direction. -/
theorem not_ordering_eq_quote :
    ¬ ∀ (c : Catalog) (s : Selection), c.Accepted → s.Tidy → ∀ st, s.statement c = .ok st →
      ∀ a ∈ s.resultColumns c, ∀ suffix ∈ OrderKey.suffixes, ∀ n : Nat,
        s.ordering[n]? = some (.text (a ++ suffix)) → st.ordering[n]? = some (quote a ++ suffix) := by
  intro h
  have hst : itemsRequest.statement itemsCatalog = .ok (itemsRequest.compiled itemsCatalog) := by
    decide +kernel
  have hordering : (itemsRequest.compiled itemsCatalog).ordering = ["Item DESC"] := by
    decide
  have hquoted := h itemsCatalog itemsRequest (by decide) (by unfold Tidy; decide) _ hst "Item Desc"
    (by decide) "" (by decide) 0 rfl
  rw [hordering] at hquoted
  exact absurd (Option.some.inj hquoted) (by decide)

end Selection

end MetricLayer
