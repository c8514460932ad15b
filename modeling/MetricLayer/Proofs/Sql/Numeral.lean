import MetricLayer.Proofs.Sql.Split
import MetricLayer.Proofs.Text.DigitRun
import MetricLayer.Review.Check

/-!
# Statements whose numerals can be read

The clauses of a statement and the entries of its lists are parts of its text, so a statement with short
numerals is read (`exists_read?`) and reviewed (`exists_review`).  The names and the number of its items are
bounded by the text as well (`Sized`).
-/

namespace MetricLayer.Sql

open MetricLayer.Text

variable {c : Catalog} {cs sql : List Char}

/-! ## Parts of a text -/

theorem statement_isInfix (cs : List Char) : statement cs <:+: cs :=
  ((trim_isInfix _).trans (dropEndWhile_isInfix _ _)).trans (trim_isInfix _)

theorem clauseTexts_isInfix (hs : List Heading) : ∀ t ∈ clauseTexts sql hs, t.2 <:+: sql := by
  fun_induction clauseTexts sql hs with
  | case1 => nofun
  | case2 h =>
    intro t ht
    obtain rfl := List.mem_singleton.mp ht
    exact (trim_isInfix _).trans (List.drop_suffix _ _).isInfix
  | case3 h next hs ih =>
    intro t ht
    rcases List.mem_cons.mp ht with rfl | ht
    · exact (trim_isInfix _).trans ((List.drop_suffix _ _).isInfix.trans (List.take_prefix _ _).isInfix)
    · exact ih t ht

theorem clauseText_isInfix {clauses : List (Clause × List Char)} (h : clauses? sql = some clauses)
    (clause : Clause) : clauseText clause clauses <:+: sql := by
  obtain ⟨hs, -, rfl⟩ := Option.map_eq_some_iff.mp h
  rw [clauseText]
  cases hlookup : (clauseTexts sql hs).lookup clause with
  | none => exact List.nil_infix
  | some text =>
    obtain ⟨before, after, hsplit, -⟩ := List.lookup_eq_some_iff.mp hlookup
    exact clauseTexts_isInfix hs (clause, text) (by simp [hsplit])

theorem piecesAt_isInfix (sep : List Char) (xs : List (Char × Char × Nat)) :
    (∀ p ∈ (piecesAt sep xs).head?, p <+: xs.map (·.1)) ∧
      (∀ p ∈ piecesAt sep xs, p <:+: xs.map (·.1)) ∧ (piecesAt sep xs).length ≤ xs.length + 1 := by
  induction xs with
  | nil => simp [piecesAt]
  | cons x xs ih =>
    obtain ⟨ch, m, d⟩ := x
    obtain ⟨hhead, hall, hlength⟩ := ih
    rw [piecesAt]
    split_ifs with hsep
    · refine ⟨?_, ?_, by simpa using hlength⟩
      · rintro p ⟨⟩
        exact List.nil_prefix
      · intro p hp
        rcases List.mem_cons.mp hp with rfl | hp
        · exact List.nil_infix
        · exact List.infix_cons (hall p hp)
    · cases hpieces : piecesAt sep xs with
      | nil =>
        have hfirst : [ch] <+: ch :: xs.map (·.1) := List.cons_prefix_cons.mpr ⟨rfl, List.nil_prefix⟩
        exact ⟨by simp, by simpa using hfirst.isInfix, by simp⟩
      | cons piece pieces =>
        rw [hpieces] at hhead hall hlength
        have hfirst : ch :: piece <+: ch :: xs.map (·.1) :=
          List.cons_prefix_cons.mpr ⟨rfl, hhead piece rfl⟩
        refine ⟨?_, ?_, ?_⟩
        · rintro p ⟨⟩
          exact hfirst
        · intro p hp
          rcases List.mem_cons.mp hp with rfl | hp
          · exact hfirst.isInfix
          · exact List.infix_cons (hall p (List.mem_cons_of_mem _ hp))
        · simp only [List.length_cons] at hlength ⊢
          omega

theorem splitList_isInfix {p : List Char} (h : p ∈ splitList cs) : p <:+: cs := by
  obtain ⟨h, -⟩ := List.mem_filter.mp h
  obtain ⟨piece, hpiece, rfl⟩ := List.mem_map.mp h
  have hpart := (piecesAt_isInfix [','] _).2.1 piece hpiece
  rw [map_fst_zip_mask] at hpart
  exact (trim_isInfix piece).trans hpart

theorem length_splitList_le (cs : List Char) : (splitList cs).length ≤ cs.length + 1 := by
  have hpieces := (piecesAt_isInfix [','] (cs.zip ((mask cs).zip (depths (mask cs))))).2.2
  have hlength : (cs.zip ((mask cs).zip (depths (mask cs)))).length = cs.length := by
    simp [depths]
  rw [hlength] at hpieces
  refine (List.length_filter_le _ _).trans ?_
  rw [List.length_map]
  exact hpieces

theorem afterDistinct?_isInfix {rest : List Char} (h : afterDistinct? cs = some rest) : rest <:+: cs := by
  obtain ⟨blank, hletters, hblank⟩ := Option.bind_eq_some_iff.mp h
  obtain ⟨w, rfl, -⟩ := letters?_eq_some_iff.mp hletters
  refine List.IsInfix.trans ?_ (List.suffix_append w blank).isInfix
  cases blank with
  | nil => cases hblank
  | cons b blank =>
    rw [afterBlank?] at hblank
    split_ifs at hblank
    cases hblank
    exact List.infix_cons (List.dropWhile_suffix _).isInfix

/-! ## Names -/

theorem shortNumerals_aliasText (h : ShortNumerals cs) : ShortNumerals (aliasText cs) := by
  unfold aliasText
  split
  · exact (h.of_isInfix (List.infix_cons (List.dropLast_prefix _).isInfix)).undouble
  · exact h

theorem shortNumerals_alias {item : List Char} {name : String} (h : ShortNumerals item)
    (hname : (splitAlias item).2 = some name) : ShortNumerals name.toList := by
  rw [splitAlias] at hname
  split at hname
  · cases hname
  · dsimp only at hname
    split_ifs at hname
    cases hname
    rw [String.toList_ofList]
    exact shortNumerals_aliasText (h.of_isInfix ((trim_isInfix _).trans (List.drop_suffix _ _).isInfix))

/-- The items of a query bear names with short numerals, and there are as many at most as a text of some
length lists. -/
structure Sized (n : Nat) (q : Query) : Prop where
  names : ∀ i ∈ q.items, ∀ name ∈ i.aliasName, ShortNumerals name.toList
  items : q.items.length ≤ n + 1

theorem Sized.mono {n m : Nat} {q : Query} (h : Sized n q) (hle : n ≤ m) : Sized m q :=
  ⟨h.names, h.items.trans (Nat.succ_le_succ hle)⟩

/-! ## Reading -/

theorem exists_limitOf (h : ShortNumerals cs) : ∃ limit, limitOf cs = .ok limit := by
  rw [limitOf]
  split_ifs
  · exact ⟨_, rfl⟩
  · have hdigits := (h.of_isInfix (List.takeWhile_prefix isDigit).isInfix).natural_eq
      fun c hc => List.mem_takeWhile_imp hc
    exact ⟨_, by rw [hdigits]; rfl⟩

theorem sized_selectItems (h : ShortNumerals cs) :
    (∀ i ∈ selectItems c cs, ∀ name ∈ i.aliasName, ShortNumerals name.toList) ∧
      (selectItems c cs).length ≤ cs.length + 1 := by
  have hclause : (afterDistinct? cs).getD cs <:+: cs := by
    cases hdistinct : afterDistinct? cs with
    | none => exact List.infix_rfl
    | some rest => exact afterDistinct?_isInfix hdistinct
  constructor
  · intro i hi name hname
    obtain ⟨item, hitem, rfl⟩ := List.mem_map.mp hi
    exact shortNumerals_alias (h.of_isInfix ((splitList_isInfix hitem).trans hclause)) hname
  · rw [selectItems, List.length_map]
    exact (length_splitList_le _).trans (Nat.succ_le_succ hclause.length_le)

theorem exists_ofClauses {clauses : List (Clause × List Char)} (c : Catalog) (text : List Char)
    (h : ShortNumerals (clauseText .limit clauses)) :
    ∃ q, Query.ofClauses c text clauses = .ok q ∧ q.items = selectItems c (clauseText .select clauses) ∧
      q.table =
        if tableOf (clauseText .source clauses) = "" then c.table else tableOf (clauseText .source clauses) := by
  obtain ⟨limit, hlimit⟩ := exists_limitOf h
  have hquery (q : Option Nat → Query) :
      (limitOf (clauseText .limit clauses)).map q = .ok (q limit) := by
    rw [hlimit]
    rfl
  exact ⟨_, hquery _, rfl, rfl⟩

theorem exists_read? {text : String} (c : Catalog) (h : ShortNumerals text.toList) :
    ∃ query, Query.read? c text = .ok query ∧ ∀ q ∈ query, Sized text.toList.length q := by
  have htext := statement_isInfix text.toList
  rw [Query.read?]
  cases hclauses : clauses? (statement text.toList) with
  | none => exact ⟨none, rfl, nofun⟩
  | some clauses =>
    have hpart (clause : Clause) : clauseText clause clauses <:+: text.toList :=
      (clauseText_isInfix hclauses clause).trans htext
    obtain ⟨q, hq, hitems, -⟩ := exists_ofClauses c (statement text.toList) (h.of_isInfix (hpart .limit))
    obtain ⟨hnames, hlength⟩ := sized_selectItems (c := c) (h.of_isInfix (hpart .select))
    rw [← hitems] at hnames hlength
    refine ⟨some q, by simp only [hq]; rfl, fun q' hq' => ?_⟩
    obtain rfl := Option.mem_some_iff.mp hq'
    exact ⟨hnames, hlength.trans (Nat.succ_le_succ (hpart .select).length_le)⟩

theorem checkPositions_eq_ok {groups : List (List Char)} (h : ∀ g ∈ groups, ShortNumerals g) :
    Review.checkPositions groups = .ok () := by
  rw [Review.checkPositions]
  induction groups with
  | nil => rfl
  | cons g groups ih =>
    have hlater := ih fun g hg => h g (List.mem_cons_of_mem _ hg)
    by_cases hposition : Review.isPosition g
    · have hdigits : ∀ c ∈ g, isDigit c := by
        rw [Review.isPosition, Bool.and_eq_true, List.all_eq_true] at hposition
        exact hposition.2
      rw [List.filter_cons_of_pos hposition, List.forM_eq_forM, List.forM_cons,
        (h g List.mem_cons_self).natural_eq hdigits]
      exact hlater
    · rw [List.filter_cons_of_neg hposition]
      exact hlater

theorem exists_review {text : String} (c : Catalog) (h : ShortNumerals text.toList) :
    ∃ r, review c text = .ok r ∧ ∀ q ∈ r.query, Sized text.toList.length q := by
  have htext := statement_isInfix text.toList
  rw [review]
  cases hclauses : clauses? (statement text.toList) with
  | none => exact ⟨_, rfl, nofun⟩
  | some clauses =>
    have hpositions : Review.checkPositions (splitList (clauseText .grouping clauses)) = .ok () :=
      checkPositions_eq_ok fun g hg => h.of_isInfix
        ((splitList_isInfix hg).trans ((clauseText_isInfix hclauses .grouping).trans htext))
    have hstatement : ShortNumerals (String.ofList (statement text.toList)).toList := by
      rw [String.toList_ofList]
      exact h.of_isInfix htext
    obtain ⟨query, hread, hsized⟩ := exists_read? c hstatement
    simp only [hpositions]
    cases hfindings : Review.clauseFindings c (statement text.toList) clauses with
    | nil =>
      refine ⟨⟨[], query⟩, by simp only [hread]; rfl, fun q hq => ?_⟩
      rw [String.toList_ofList] at hsized
      exact (hsized q hq).mono htext.length_le
    | cons => exact ⟨_, rfl, nofun⟩

end MetricLayer.Sql
