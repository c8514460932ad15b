import MetricLayer.Proofs.Sql.Insert
import MetricLayer.Proofs.Sql.Numeral
import MetricLayer.Proofs.Sql.Statement

/-!
# What stands behind a statement

An ordering may be any text, with quotes and parentheses that are never closed and keywords of its own.  It
stands behind the items and the table of a statement, so these are read as if there was none: a line that starts
with the keyword of a clause leaves the clauses before it as they are (`exists_clauses?_append_line`).  What such
a text can spoil is the LIMIT only, and that not without a numeral that is too long (`exists_read?_text`).
-/

namespace MetricLayer.Sql

open MetricLayer.Text

/-! ## The end of a statement -/

/-- What is cut off at the end of a statement is cut off what stands at its end. -/
theorem exists_statement_append {a : List Char} (ha : Trimmed a) (hne : a ≠ [])
    (hend : ∀ c ∈ a.getLast?, (c == ';') = false) (b : List Char) :
    ∃ rest, statement (a ++ b) = a ++ rest ∧ rest <+: b := by
  have htrim (b : List Char) : trim (a ++ b) = a ++ dropEndWhile isBlank b := dropBothWhile_append ha hne b
  refine ⟨dropEndWhile isBlank (dropEndWhile (· == ';') (dropEndWhile isBlank b)), ?_, ?_⟩
  · rw [statement, htrim, dropEndWhile_append hend, htrim]
  · exact (dropEndWhile_isPrefix _ _).trans ((dropEndWhile_isPrefix _ _).trans (dropEndWhile_isPrefix _ _))

/-! ## A line behind clauses -/

section line

variable {pre rest : List Char} {before : List (Clause × List Char)} {c : Clause} {k : Heading}

/-- **A line that starts with the keyword of a clause leaves the clauses before it as they are.** -/
theorem exists_clauses?_append_line (hclosed : Closed pre) (hlevel : depthAfter 0 (mask pre) = 0)
    (hbefore : clauses? pre = some before) (hc : c ∈ Clause.followers) (hnone : heading? c 0 (mask pre) = none)
    (hk : heading? c 0 (mask rest) = some k) (hzero : k.start = 0) :
    ∃ after, clauses? (pre ++ '\n' :: rest) = some (before ++ after) ∧ ∀ t ∈ after, t.2 <:+: rest := by
  obtain ⟨hs, hheadings, rfl⟩ := Option.map_eq_some_iff.mp hbefore
  rw [headings?_eq] at hheadings
  obtain ⟨first, hfirst, rfl⟩ := Option.map_eq_some_iff.mp hheadings
  have hinside : ∀ h ∈ first :: sorted (found Clause.followers first.stop (mask pre)),
      h.start ≤ pre.length ∧ h.stop ≤ pre.length := Parting.inside_earlier hfirst
  have hbreak : ∀ d ∈ ['\n'], isBlank d := by decide
  have hends : endsWord ['\n'] := endsWord_of_blank hbreak
  have hmask : mask (pre ++ ['\n']) = mask pre ++ ['\n'] := mask_append hclosed _
  have htext : mask (pre ++ '\n' :: rest) = mask (pre ++ ['\n']) ++ mask rest := by
    rw [← List.singleton_append, ← List.append_assoc, mask_append (hclosed.append (closed_of_blank hbreak))]
  -- nothing is found in the line break
  have hseam : Seam (mask pre) ['\n'] := ⟨Or.inr hends, nofun, hlevel⟩
  have hsearch {start : Nat} (hstart : start ≤ (mask pre).length) (c : Clause) :
      heading? c start (mask (pre ++ ['\n'])) = heading? c start (mask pre) := by
    rw [hmask, heading?_append hseam hstart, heading?_blank hbreak, Option.map_none, Option.or_none]
  have hfound : found Clause.followers first.stop (mask (pre ++ ['\n'])) =
      found Clause.followers first.stop (mask pre) :=
    List.filterMap_congr fun c _ => hsearch (isHeading_of_heading? hfirst).stop_le c
  have hnext : Seam (mask (pre ++ ['\n'])) (mask rest) := by
    refine ⟨Or.inl ?_, next_of_heading? hc hk hzero, ?_⟩
    · rw [hmask, List.getLast?_concat]
      rfl
    · rw [hmask, depthAfter_append, hlevel]
      rfl
  have hmem : k ∈ found (missing Clause.followers first.stop (mask (pre ++ ['\n']))) 0 (mask rest) :=
    List.mem_filterMap.mpr ⟨c, mem_missing hc (by rw [hsearch (Nat.zero_le _), hnone]) _, hk⟩
  obtain ⟨l, ls, hlater, hlzero⟩ := exists_sorted_eq_cons hmem hzero
  refine ⟨clauseTexts rest (l :: ls), ?_, clauseTexts_isInfix _⟩
  have hstart : ∀ h ∈ first :: sorted (found Clause.followers first.stop (mask pre)),
      h.start ≤ (pre ++ ['\n']).length := by
    intro h hh
    rw [List.length_append]
    exact (hinside h hh).1.trans (Nat.le_add_right _ _)
  rw [clauses?, htext, headings?_append hnext (by rw [hsearch (Nat.zero_le _), hfirst]), hfound, hlater, length_mask,
    Option.map_some, ← List.singleton_append, ← List.append_assoc,
    clauseTexts_append_shift (List.cons_ne_nil _ _) hstart hlzero, clauseTexts_append_blank hbreak hinside]

/-- The keyword of a clause is found where its title stands. -/
theorem heading?_title {c : Clause} {body : List Char} (hbody : endsWord body) :
    heading? c 0 (mask (c.title.toList ++ body)) = some ⟨c, 0, c.title.toList.length⟩ := by
  obtain ⟨x, xs, hx⟩ : ∃ x xs, c.title.toList = x :: xs := by
    cases c <;> exact ⟨_, _, rfl⟩
  have hends : endsWord (mask body) := by
    rwa [endsWord, head?_mask]
  have hafter : c.after? ⟨0, none, x :: (xs ++ mask body)⟩ = some (mask body) := by
    rw [← List.cons_append, ← hx]
    exact c.after?_title wordStart_none hends
  have hstop : (x :: (xs ++ mask body)).length - (mask body).length = (x :: xs).length := by
    rw [← List.cons_append, List.length_append, Nat.add_sub_cancel]
  rw [heading?_eq_headingFrom, mask_title_append, hx, List.cons_append, headingFrom_found (Nat.le_refl 0) hafter, hstop]

/-- The text of a clause is that of the first clauses or that of the others. -/
theorem clauseText_append (c : Clause) (before after : List (Clause × List Char)) :
    clauseText c (before ++ after) = clauseText c before ∨ clauseText c (before ++ after) = clauseText c after := by
  rw [clauseText, clauseText, clauseText, List.lookup_append]
  cases before.lookup c with
  | none => exact Or.inr rfl
  | some text => exact Or.inl rfl

theorem clauseText_append_of_ne_nil {before : List (Clause × List Char)} (h : clauseText c before ≠ [])
    (after : List (Clause × List Char)) : clauseText c (before ++ after) = clauseText c before := by
  rw [clauseText] at h
  rw [clauseText, clauseText, List.lookup_append]
  cases hlookup : before.lookup c with
  | none =>
    rw [hlookup] at h
    exact absurd rfl h
  | some text => rfl

theorem shortNumerals_clauseText {clauses : List (Clause × List Char)} (h : ∀ t ∈ clauses, ShortNumerals t.2)
    (c : Clause) : ShortNumerals (clauseText c clauses) := by
  rw [clauseText]
  cases hlookup : clauses.lookup c with
  | none => exact shortNumerals_nil
  | some text =>
    obtain ⟨before, after, hsplit, -⟩ := List.lookup_eq_some_iff.mp hlookup
    exact h (c, text) (by simp [hsplit])

end line

/-! ## A statement with any ordering -/

theorem sectionText_append {front back : List (Clause × List Char)} (hfront : front ≠ []) (hback : back ≠ []) :
    sectionText (front ++ back) = sectionText front ++ '\n' :: sectionText back := by
  induction front with
  | nil => exact absurd rfl hfront
  | cons s front ih =>
    cases front with
    | nil =>
      have hsingle : sectionText [s] = written s := List.intercalate_singleton
      rw [List.singleton_append, sectionText_cons s hback, hsingle]
    | cons t front =>
      rw [List.cons_append, sectionText_cons s (by simp), ih (List.cons_ne_nil _ _),
        sectionText_cons s (List.cons_ne_nil _ _), List.append_assoc, List.cons_append]

/-- Sections have closed quotes and balanced parentheses. -/
theorem wellFormed_sectionText {inner : List Char → Prop} {secs : List (Clause × List Char)}
    (h : ∀ s ∈ secs, IsBody inner s.2) : WellFormed (sectionText secs) := by
  have hwritten {s : Clause × List Char} (hs : IsBody inner s.2) : WellFormed (written s) := by
    have htitle : WellFormed s.1.title.toList := by
      cases s.1 <;> exact ⟨rfl, rfl⟩
    exact htitle.append hs.laid.wellFormed
  induction secs with
  | nil => exact ⟨rfl, rfl⟩
  | cons s secs ih =>
    have hs := hwritten (h s List.mem_cons_self)
    cases secs with
    | nil =>
      have hsingle : sectionText [s] = written s := List.intercalate_singleton
      rw [hsingle]
      exact hs
    | cons t secs =>
      have hbreak : WellFormed ['\n'] := ⟨rfl, rfl⟩
      rw [sectionText_cons s (List.cons_ne_nil _ _), ← List.singleton_append]
      exact hs.append (hbreak.append (ih fun r hr => h r (List.mem_cons_of_mem s hr)))

namespace SelectStatement

variable {inner : List Char → Prop} {s : SelectStatement}

/-- The statement up to its groups. -/
def unordered (s : SelectStatement) : SelectStatement :=
  { s with ordering := [], limit := none }

/-- The sections behind the groups. -/
def lastSections (s : SelectStatement) : List (Clause × List Char) :=
  (.ordering, ' ' :: (joinWith ", " s.ordering).toList) ::
    s.limit.toList.map fun n => (.limit, ' ' :: (toString n).toList)

theorem laterSections_eq (h : s.ordering ≠ []) : s.laterSections = s.unordered.laterSections ++ s.lastSections := by
  have hordering : listSection .ordering ", " s.ordering =
      [(.ordering, ' ' :: (joinWith ", " s.ordering).toList)] := by
    rw [listSection, List.isEmpty_eq_false_iff.mpr h, if_neg Bool.false_ne_true]
  have hnone : listSection .ordering ", " s.unordered.ordering = [] := rfl
  have hlimit : (s.unordered.limit.toList.map fun n => (Clause.limit, ' ' :: (toString n).toList)) = [] := rfl
  rw [laterSections, hordering, laterSections, hnone, hlimit, lastSections, List.append_nil, List.append_nil]
  rw [List.append_assoc, List.singleton_append]
  rfl

/-- An ordering stands in a line behind everything but the limit. -/
theorem toList_text_of_ordering (h : s.ordering ≠ []) :
    s.text.toList = s.unordered.text.toList ++ '\n' :: sectionText s.lastSections := by
  have hlast : s.lastSections ≠ [] := List.cons_ne_nil _ _
  rw [toList_text, laterSections_eq h, ← List.cons_append, sectionText_append (List.cons_ne_nil _ _) hlast, toList_text]
  rfl

/-- What follows ORDER BY. -/
def orderTail (s : SelectStatement) : List Char :=
  ' ' :: ((joinWith ", " s.ordering).toList ++ s.limit.toList.flatMap fun n => "\nLIMIT ".toList ++ (toString n).toList)

theorem sectionText_lastSections (s : SelectStatement) :
    sectionText s.lastSections = Clause.ordering.title.toList ++ s.orderTail := by
  have hlimit : "\nLIMIT ".toList = '\n' :: Clause.limit.title.toList ++ [' '] := rfl
  rw [lastSections, orderTail, sectionText, hlimit]
  cases s.limit <;> simp [written]

theorem shortNumerals_ordering (hordering : ∀ o ∈ s.ordering, ShortNumerals o.toList)
    (hlimit : ∀ n ∈ s.limit, isWritable n) : ShortNumerals (Clause.ordering.title.toList ++ s.orderTail) := by
  have htitle : ShortNumerals Clause.ordering.title.toList := shortNumerals_of_length_le (by decide)
  have hjoined : ShortNumerals (joinWith ", " s.ordering).toList := by
    rw [toList_joinWith]
    refine shortNumerals_intercalate fun p hp => ?_
    obtain ⟨o, ho, rfl⟩ := List.mem_map.mp hp
    exact hordering o ho
  refine htitle.append_cons isDigit_space ?_
  cases hnumber : s.limit with
  | none => simpa using hjoined
  | some n =>
    have hword : ShortNumerals "LIMIT".toList := shortNumerals_of_length_le (by decide)
    have hline : "\nLIMIT ".toList ++ (toString n).toList =
        '\n' :: ("LIMIT".toList ++ ' ' :: (toString n).toList) := rfl
    rw [Option.toList_some, List.flatMap_singleton, hline]
    exact hjoined.append_cons isDigit_lineBreak
      (hword.append_cons isDigit_space (shortNumerals_toString (hlimit n hnumber)))

/-- No ORDER BY stands in a statement without an ordering. -/
theorem heading?_ordering_unordered (h : s.unordered.Readable inner) :
    heading? .ordering 0 (mask s.unordered.text.toList) = none := by
  rw [toList_text, heading?_sections (isBody_selectBody h) (isBody_of_mem_laterSections h) (by decide) (Nat.zero_le _),
    List.find?_eq_none]
  intro k hk hclause
  have hmem : Clause.ordering ∈ s.unordered.laterSections.map Prod.fst := by
    rw [← map_clause_headingsOf, ← of_decide_eq_true hclause]
    exact List.mem_map_of_mem hk
  simp [laterSections, listSection, unordered] at hmem

theorem wellFormed_text (h : s.Readable inner) : WellFormed s.text.toList := by
  rw [toList_text]
  exact wellFormed_sectionText
    (List.forall_mem_cons.mpr ⟨isBody_selectBody h, isBody_of_mem_laterSections h⟩)

/-- What is cut off at the end is cut off what follows ORDER BY. -/
theorem exists_statement_text (h : s.unordered.Readable inner) (hne : s.ordering ≠ []) :
    ∃ tail, statement s.text.toList = s.unordered.text.toList ++ '\n' :: (Clause.ordering.title.toList ++ tail) ∧
      tail <+: s.orderTail ∧ endsWord tail := by
  have htext : s.text.toList = (s.unordered.text.toList ++ '\n' :: Clause.ordering.title.toList) ++ s.orderTail := by
    rw [toList_text_of_ordering hne, sectionText_lastSections, List.append_assoc, List.cons_append]
  have hnil : s.unordered.text.toList ≠ [] := by
    intro hnil
    have hclauses := clauses?_text h
    rw [hnil] at hclauses
    cases hclauses
  have hlast : (s.unordered.text.toList ++ '\n' :: Clause.ordering.title.toList).getLast? = some 'Y' := by
    rw [List.getLast?_append, List.getLast?_cons]
    rfl
  have htrimmed : Trimmed (s.unordered.text.toList ++ '\n' :: Clause.ordering.title.toList) := by
    refine ⟨?_, by rw [hlast]; decide⟩
    rw [List.head?_append_of_ne_nil _ hnil]
    exact (ends_text h).1.1
  obtain ⟨tail, hstatement, htail⟩ :=
    exists_statement_append htrimmed (by simp) (by rw [hlast]; decide) s.orderTail
  refine ⟨tail, ?_, htail, ?_⟩
  · rw [htext, hstatement, List.append_assoc, List.cons_append]
  · cases tail with
    | nil => rfl
    | cons d tail =>
      obtain ⟨rfl, -⟩ := List.cons_prefix_cons.mp htail
      rfl

/-- The clauses up to the groups are read, and others that stand behind ORDER BY. -/
theorem exists_clauses?_text (h : s.unordered.Readable inner) (hne : s.ordering ≠ []) :
    ∃ after, clauses? (statement s.text.toList) = some (s.unordered.readClauses ++ after) ∧
      ∀ t ∈ after, t.2 <:+: Clause.ordering.title.toList ++ s.orderTail := by
  obtain ⟨tail, hstatement, htail, hends⟩ := exists_statement_text h hne
  have hwellFormed := wellFormed_text h
  obtain ⟨after, hread, hafter⟩ := exists_clauses?_append_line hwellFormed.closed
    (depthAfter_of_depthAfter? hwellFormed.balanced) (clauses?_text h) (c := .ordering) (by decide)
    (heading?_ordering_unordered h) (heading?_title hends) rfl
  have hprefix : Clause.ordering.title.toList ++ tail <+: Clause.ordering.title.toList ++ s.orderTail :=
    (List.prefix_append_right_inj _).mpr htail
  exact ⟨after, by rw [hstatement, hread]; rfl, fun t ht => (hafter t ht).trans hprefix.isInfix⟩

/-- **Whatever a statement is ordered by, its table is read.** -/
theorem exists_read?_text (c : Catalog) (h : s.unordered.Readable inner) (hne : s.ordering ≠ [])
    (hordering : ∀ o ∈ s.ordering, ShortNumerals o.toList) (hlimit : ∀ n ∈ s.limit, isWritable n) :
    ∃ q, Query.read? c s.text = .ok (some q) ∧ q.table = (s.query c).table := by
  obtain ⟨after, hclauses, hafter⟩ := exists_clauses?_text h hne
  have hsource : clauseText .source (s.unordered.readClauses ++ after) = s.source.toList := by
    have hbefore : clauseText .source s.unordered.readClauses = s.source.toList := clauseText_readClauses h .source
    rw [clauseText_append_of_ne_nil (by rw [hbefore]; exact h.source.ne_nil), hbefore]
  have hshort : ShortNumerals (clauseText .limit (s.unordered.readClauses ++ after)) := by
    rcases clauseText_append .limit s.unordered.readClauses after with hbefore | hbehind
    · rw [hbefore, clauseText_readClauses h .limit]
      exact shortNumerals_nil
    · rw [hbehind]
      exact shortNumerals_clauseText
        (fun t ht => (shortNumerals_ordering hordering hlimit).of_isInfix (hafter t ht)) .limit
  obtain ⟨q, hq, -, htable⟩ := exists_ofClauses c (statement s.text.toList) hshort
  refine ⟨q, ?_, by rw [htable, hsource]; rfl⟩
  rw [Query.read?, hclauses]
  exact congrArg (Except.map some) hq

end SelectStatement

end MetricLayer.Sql
