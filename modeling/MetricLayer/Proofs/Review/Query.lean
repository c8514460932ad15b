import MetricLayer.Catalog.Bundled
import MetricLayer.Proofs.Sql.Ending
import MetricLayer.Review.Check

/-!
# The query of a review

The query of a valid review is read from the statement that was reviewed (`read?_of_review`).  Reading cuts the
end of a text off, and so does a review before it reads: the query of a review is that of a text cut twice.  It is
the query that is read from the text itself exactly if no white space stands between the semicolons at the end of
that text (`exists_query_of_review`); otherwise a semicolon is left at the end of the latter, and of its last
clause.  A LIMIT is the same in both.
-/

namespace MetricLayer

open MetricLayer.Text MetricLayer.Sql

variable {c : Catalog} {sql : String} {r : Review}

/-! ## Reading a reviewed statement -/

/-- A valid statement has clauses, and its query is read from it. -/
theorem exists_clauses?_of_review (h : review c sql = .ok r) (hvalid : r.isValid) :
    ∃ clauses, clauses? (statement sql.toList) = some clauses ∧
      Query.read? c (String.ofList (statement sql.toList)) = .ok r.query := by
  rw [review] at h
  cases hclauses : clauses? (statement sql.toList) with
  | none =>
    simp only [hclauses] at h
    cases h
    cases hvalid
  | some clauses =>
    refine ⟨clauses, rfl, ?_⟩
    cases hpositions : Review.checkPositions (splitList (clauseText .grouping clauses)) with
    | error => simp only [hclauses, hpositions] at h; cases h
    | ok =>
      cases hfindings : Review.clauseFindings c (statement sql.toList) clauses with
      | nil =>
        cases hread : Query.read? c (String.ofList (statement sql.toList)) with
        | error => simp only [hclauses, hpositions, hfindings, hread] at h; cases h
        | ok q =>
          simp only [hclauses, hpositions, hfindings, hread] at h
          cases h
          rfl
      | cons =>
        simp only [hclauses, hpositions, hfindings] at h
        cases h
        cases hvalid

theorem read?_of_review (h : review c sql = .ok r) (hvalid : r.isValid) :
    Query.read? c (String.ofList (statement sql.toList)) = .ok r.query := by
  obtain ⟨clauses, -, hread⟩ := exists_clauses?_of_review h hvalid
  exact hread

namespace Sql

variable {text ending : List Char} {before clauses : List (Clause × List Char)} {clause : Clause}

/-! ## Limits -/

/-- The digits at the start of a clause are not those of white space and semicolons behind it. -/
theorem takeWhile_isDigit_append_ending (text : List Char) (h : ∀ c ∈ ending, IsEnding c) :
    (text ++ ending).takeWhile isDigit = text.takeWhile isDigit := by
  have hnone : ending.takeWhile isDigit = [] := by
    rw [List.takeWhile_eq_nil_iff]
    exact fun hlength => by simp [isDigit_of_isEnding (h _ (List.getElem_mem hlength))]
  rw [List.takeWhile_append, hnone, List.append_nil]
  split
  next hall =>
    exact ((List.takeWhile_prefix isDigit).eq_of_length hall).symm
  next => rfl

theorem takeWhile_isDigit_trim (text : List Char) :
    (trim text).takeWhile isDigit = (text.dropWhile isBlank).takeWhile isDigit := by
  obtain ⟨gap, hgap, hblank⟩ := exists_dropEndWhile isBlank (text.dropWhile isBlank)
  have hcut := takeWhile_isDigit_append_ending (trim text) fun c hc => Or.inl (hblank c hc)
  rw [← hcut]
  exact congrArg _ hgap.symm

theorem takeWhile_isDigit_trim_append_ending (text : List Char) (h : ∀ c ∈ ending, IsEnding c) :
    (trim (text ++ ending)).takeWhile isDigit = (trim text).takeWhile isDigit := by
  rw [takeWhile_isDigit_trim, takeWhile_isDigit_trim, List.dropWhile_append]
  split
  next hnone =>
    have hshort : ∀ c ∈ ending.dropWhile isBlank, IsEnding c :=
      fun c hc => h c ((List.dropWhile_suffix _).subset hc)
    have hdigits := takeWhile_isDigit_append_ending [] hshort
    rw [List.isEmpty_iff.mp hnone]
    exact hdigits
  next => exact takeWhile_isDigit_append_ending _ h

theorem limitOf_congr {a b : List Char} (h : a.takeWhile isDigit = b.takeWhile isDigit) : limitOf a = limitOf b := by
  rw [limitOf, limitOf, h]

/-- White space and semicolons behind the last clause leave the limit as it is. -/
theorem limitOf_append_ending (h : ∀ c ∈ ending, IsEnding c) :
    limitOf (clauseText .limit (before ++ [(clause, trim (text ++ ending))])) =
      limitOf (clauseText .limit (before ++ [(clause, trim text)])) := by
  rw [clauseText, clauseText, List.lookup_append, List.lookup_append]
  cases before.lookup .limit with
  | some limit => rfl
  | none =>
    rw [Option.none_or, Option.none_or, List.lookup_cons, List.lookup_cons]
    cases Clause.limit == clause with
    | false => rfl
    | true => exact limitOf_congr (takeWhile_isDigit_trim_append_ending text h)

/-! ## Queries -/

/-- The clauses of a text are a query if their limit can be read. -/
theorem ofClauses_eq_ok_iff {q : Query} : Query.ofClauses c text clauses = .ok q ↔
    ∃ limit, limitOf (clauseText .limit clauses) = .ok limit ∧ q =
      { sql := String.ofList text
        table := if tableOf (clauseText .source clauses) = "" then c.table else tableOf (clauseText .source clauses)
        items := selectItems c (clauseText .select clauses)
        grouping := (splitList (clauseText .grouping clauses)).map String.ofList
        filters := if (clauseText .condition clauses).isEmpty then []
          else [String.ofList (clauseText .condition clauses)]
        ordering := (splitList (clauseText .ordering clauses)).map String.ofList
        limit } := by
  rw [Query.ofClauses]
  cases limitOf (clauseText .limit clauses) with
  | error fault =>
    constructor
    · nofun
    · rintro ⟨_, hlimit, -⟩
      cases hlimit
  | ok limit =>
    constructor
    · intro h
      exact ⟨limit, rfl, (Except.ok.inj h).symm⟩
    · rintro ⟨_, hlimit, rfl⟩
      cases hlimit
      rfl

/-- A text with white space and semicolons behind it is read as well as the text, with the same limit. -/
theorem exists_ofClauses_append_ending {validated : Query} (hclauses : clauses? text = some clauses)
    (h : Query.ofClauses c text clauses = .ok validated) (hending : ∀ c ∈ ending, IsEnding c) :
    ∃ later plain, clauses? (text ++ ending) = some later ∧ Query.ofClauses c (text ++ ending) later = .ok plain ∧
      validated.limit = plain.limit ∧ validated.sql = String.ofList text ∧ plain.sql = String.ofList (text ++ ending) := by
  obtain ⟨before, clause, last, rfl, hlater⟩ := clauses?_append_ending hclauses hending
  obtain ⟨limit, hlimit, rfl⟩ := ofClauses_eq_ok_iff.mp h
  exact ⟨_, _, hlater, ofClauses_eq_ok_iff.mpr ⟨limit, (limitOf_append_ending hending).trans hlimit, rfl⟩, rfl, rfl, rfl⟩

theorem read?_eq_ok_some_iff {q : Query} : Query.read? c sql = .ok (some q) ↔
    ∃ clauses, clauses? (statement sql.toList) = some clauses ∧
      Query.ofClauses c (statement sql.toList) clauses = .ok q := by
  rw [Query.read?]
  cases clauses? (statement sql.toList) with
  | none => simp
  | some clauses =>
    cases hquery : Query.ofClauses c (statement sql.toList) clauses <;> simp [Except.map, hquery]

theorem read?_eq_ok_none_iff : Query.read? c sql = .ok none ↔ clauses? (statement sql.toList) = none := by
  rw [Query.read?]
  cases clauses? (statement sql.toList) with
  | none => simp
  | some clauses =>
    cases hquery : Query.ofClauses c (statement sql.toList) clauses <;> simp [Except.map, hquery]

/-- What a cut takes off a trimmed text. -/
theorem exists_ending {cs : List Char} (h : Trimmed cs) :
    ∃ ending, cs = statement cs ++ ending ∧ ∀ c ∈ ending, IsEnding c := by
  obtain ⟨before, gap, semicolons, after, hcut⟩ := exists_cut cs
  obtain rfl : before = [] := by
    by_contra hne
    obtain ⟨d, before, rfl⟩ := List.exists_cons_of_ne_nil hne
    have hhead : cs.head? = some d := by
      rw [hcut.text]
      simp
    have hsolid := h.1 d hhead
    rw [hcut.before_blank d List.mem_cons_self] at hsolid
    cases hsolid
  refine ⟨gap ++ (semicolons ++ after), hcut.text, List.forall_mem_append.mpr ⟨?_, List.forall_mem_append.mpr ⟨?_, ?_⟩⟩⟩
  · exact fun d hd => Or.inl (hcut.gap_blank d hd)
  · exact fun d hd => Or.inr (hcut.semicolons_eq d hd)
  · exact fun d hd => Or.inl (hcut.after_blank d hd)

end Sql

/-- A valid review holds the query of its text, which is cut for a second time. -/
theorem exists_ofClauses_of_review (h : review c sql = .ok r) (hvalid : r.isValid) :
    ∃ validated clauses, r.query = some validated ∧ clauses? (statement (statement sql.toList)) = some clauses ∧
      Query.ofClauses c (statement (statement sql.toList)) clauses = .ok validated := by
  obtain ⟨clauses, hclauses, hread⟩ := exists_clauses?_of_review h hvalid
  cases hquery : r.query with
  | some validated =>
    rw [hquery, read?_eq_ok_some_iff, String.toList_ofList] at hread
    obtain ⟨clauses, hclauses, hvalidated⟩ := hread
    exact ⟨validated, clauses, rfl, hclauses, hvalidated⟩
  | none =>
    -- what the second cut takes off holds no SELECT
    obtain ⟨ending, htext, hending⟩ := exists_ending (trimmed_statement sql.toList)
    rw [hquery, read?_eq_ok_none_iff, String.toList_ofList] at hread
    rw [htext, clauses?_append_ending_eq_none hread hending] at hclauses
    cases hclauses

/-- **A valid statement can be read without its review as well.  Both queries have one limit, and they are the same
exactly if no white space stands between the semicolons at the end; the text of the query that is read goes on
with white space and semicolons otherwise.** -/
theorem exists_query_of_review (h : review c sql = .ok r) (hvalid : r.isValid) :
    ∃ validated plain, r.query = some validated ∧ Query.read? c sql = .ok (some plain) ∧
      validated.limit = plain.limit ∧
      (∃ ending, plain.sql.toList = validated.sql.toList ++ ending ∧ ∀ c ∈ ending, IsEnding c) ∧
      (validated = plain ↔ ¬ MixedEnd sql.toList) := by
  obtain ⟨ending, htext, hending⟩ := exists_ending (trimmed_statement sql.toList)
  obtain ⟨validated, clauses, hquery, hclauses, hvalidated⟩ := exists_ofClauses_of_review h hvalid
  obtain ⟨later, plain, hlater, hplain, hlimit, hcutsql, hsql⟩ :=
    exists_ofClauses_append_ending hclauses hvalidated hending
  rw [← htext] at hlater hplain hsql
  refine ⟨validated, plain, hquery, read?_eq_ok_some_iff.mpr ⟨later, hlater, hplain⟩, hlimit, ⟨ending, ?_, hending⟩, ?_⟩
  · rw [hsql, hcutsql, String.toList_ofList, String.toList_ofList]
    exact htext
  · rw [← statement_statement_eq_iff]
    constructor
    · intro heq
      exact String.ofList_injective (hcutsql.symm.trans ((congrArg Query.sql heq).trans hsql))
    · intro heq
      rw [heq] at hclauses hvalidated
      obtain rfl : clauses = later := Option.some.inj (hclauses.symm.trans hlater)
      exact Except.ok.inj (hvalidated.symm.trans hplain)

/-! ## A count with an order -/

/-- Counts users, in an order. -/
def orderedCount : String := "SELECT COUNT(*) AS user_count FROM users ORDER BY user_count"

/-- The query of the count. -/
def orderedQuery : Query where
  sql := orderedCount
  table := "users"
  items := [⟨"COUNT(*)", some "user_count", "user_count", true⟩]
  grouping := []
  filters := []
  ordering := ["user_count"]
  limit := none

theorem clauses?_orderedCount : clauses? orderedCount.toList =
    some [(.select, "COUNT(*) AS user_count".toList), (.source, "users".toList), (.ordering, "user_count".toList)] := by
  rw [clauses?_of_headings ⟨.select, 0, 6⟩ [⟨.source, 30, 34⟩, ⟨.ordering, 41, 49⟩] (by decide) (by decide) (by decide)]
  decide

theorem read?_orderedCount : Query.read? usersCatalog orderedCount = .ok (some orderedQuery) := by
  have htext : statement orderedCount.toList = orderedCount.toList := by decide
  rw [Query.read?, htext, clauses?_orderedCount]
  decide

/-- Semicolons behind the count do not matter for its review. -/
theorem review_orderedCount {sql : String} (h : statement sql.toList = orderedCount.toList) :
    review usersCatalog sql = .ok ⟨[], some orderedQuery⟩ := by
  have hfindings : Review.clauseFindings usersCatalog orderedCount.toList
      [(.select, "COUNT(*) AS user_count".toList), (.source, "users".toList), (.ordering, "user_count".toList)] = [] := by
    decide
  rw [review, h, clauses?_orderedCount]
  simp only [hfindings, String.ofList_toList, read?_orderedCount]
  rfl

theorem exists_query_of_review_orderedCount :
    ∃ r, review usersCatalog (orderedCount ++ " ;;\n") = .ok r ∧ r.isValid ∧
      ¬ MixedEnd (orderedCount ++ " ;;\n").toList ∧
      ∃ q, r.query = some q ∧ Query.read? usersCatalog (orderedCount ++ " ;;\n") = .ok (some q) := by
  have hreview : review usersCatalog (orderedCount ++ " ;;\n") = .ok ⟨[], some orderedQuery⟩ :=
    review_orderedCount (by decide)
  have hunmixed : ¬ MixedEnd (orderedCount ++ " ;;\n").toList := by decide
  obtain ⟨validated, plain, hquery, hread, -, -, hsame⟩ := exists_query_of_review hreview rfl
  obtain rfl := hsame.mpr hunmixed
  exact ⟨_, hreview, rfl, hunmixed, validated, hquery, hread⟩

/-- The count with two semicolons behind it. -/
def mixedCount : String := orderedCount ++ " ; ;"

theorem clauses?_mixedCount : clauses? (statement mixedCount.toList) =
    some [(.select, "COUNT(*) AS user_count".toList), (.source, "users".toList), (.ordering, "user_count ;".toList)] := by
  rw [clauses?_of_headings ⟨.select, 0, 6⟩ [⟨.source, 30, 34⟩, ⟨.ordering, 41, 49⟩] (by decide) (by decide) (by decide)]
  decide

theorem review_mixedCount : review usersCatalog mixedCount = .ok ⟨[], some orderedQuery⟩ := by
  have htext : statement (statement mixedCount.toList) = orderedCount.toList := by decide
  have hread : Query.read? usersCatalog (String.ofList (statement mixedCount.toList)) = .ok (some orderedQuery) := by
    rw [← read?_orderedCount, Query.read?, Query.read?, String.toList_ofList, htext]
    rfl
  have hfindings : Review.clauseFindings usersCatalog (statement mixedCount.toList)
      [(.select, "COUNT(*) AS user_count".toList), (.source, "users".toList), (.ordering, "user_count ;".toList)] = [] := by
    decide
  rw [review, clauses?_mixedCount]
  simp only [hfindings, hread]
  rfl

/-- A query that is read without a review may be another than that of the review. -/
theorem not_forall_read?_eq_query :
    ¬ ∀ (c : Catalog) (sql : String) (r : Review), c.Accepted → review c sql = .ok r → r.isValid →
      Query.read? c sql = .ok r.query := by
  intro h
  have hread := h usersCatalog mixedCount _ accepted_usersCatalog review_mixedCount rfl
  have hordering : (Query.read? usersCatalog mixedCount).map (Option.map Query.ordering) = .ok (some ["user_count ;"]) := by
    rw [Query.read?, clauses?_mixedCount]
    decide
  rw [hread] at hordering
  exact absurd hordering (by decide)

end MetricLayer
