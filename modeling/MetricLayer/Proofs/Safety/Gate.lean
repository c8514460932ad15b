import MetricLayer.Catalog.Bundled
import MetricLayer.Proofs.Safety.Stripped
import MetricLayer.Proofs.Sql.Clause

/-!
# Soundness of the safety gate

The gate empties text literals first and blanks quoted names second, where `mask` goes over a text once.
Both read the same text outside quotes (`stripped`) unless an apostrophe in a quoted name opens a literal
that ends behind the name.  When none does (`Paired`), a statement without violations has no dangerous
word, comment or second statement outside quotes; otherwise the gate overlooks whatever stands between two
such names (`violations_betweenNames`).
-/

namespace MetricLayer.Safety

open MetricLayer.Text MetricLayer.Sql

variable {cs : List Char}

/-! ## Statements -/

theorem statement_mask (h : Closed cs) : statement (mask cs) = mask (statement cs) := by
  obtain ⟨hcut, hclosed⟩ :=
    dropEndWhile_mask ne_semicolon_of_isQuote (closed_trim h)
  rw [statement, trim_mask h, hcut, trim_mask hclosed, statement]

theorem exists_statement (cs : List Char) :
    ∃ a b, cs = a ++ statement cs ++ b ∧ (∀ c ∈ a, isQuote c = false) ∧ ∀ c ∈ b, isQuote c = false := by
  obtain ⟨a, b, hcs, ha, hb⟩ := exists_trim cs
  obtain ⟨gap, hgap, hsemicolons⟩ := exists_dropEndWhile (· == ';') (trim cs)
  obtain ⟨a', b', hcut, ha', hb'⟩ := exists_trim (dropEndWhile (· == ';') (trim cs))
  have hsemicolon : ∀ c ∈ gap, isQuote c = false := by
    intro c hc
    rw [beq_iff_eq.mp (hsemicolons c hc)]
    rfl
  refine ⟨a ++ a', b' ++ gap ++ b, ?_, ?_, ?_⟩
  · calc cs = a ++ trim cs ++ b := hcs
      _ = a ++ (dropEndWhile (· == ';') (trim cs) ++ gap) ++ b := by rw [← hgap]
      _ = a ++ (a' ++ statement cs ++ b' ++ gap) ++ b := by rw [← statement] at hcut; rw [← hcut]
      _ = a ++ a' ++ statement cs ++ (b' ++ gap ++ b) := by simp only [List.append_assoc]
  · rw [List.forall_mem_append]
    exact ⟨fun c hc => isQuote_of_isBlank (ha c hc), fun c hc => isQuote_of_isBlank (ha' c hc)⟩
  · rw [List.forall_mem_append, List.forall_mem_append]
    exact ⟨⟨fun c hc => isQuote_of_isBlank (hb' c hc), hsemicolon⟩,
      fun c hc => isQuote_of_isBlank (hb c hc)⟩

theorem Paired.statement (h : Paired cs) : Paired (statement cs) := by
  obtain ⟨a, b, hcs, ha, hb⟩ := exists_statement cs
  rw [hcs, List.append_assoc] at h
  have hends {gap : List Char} (hgap : ∀ c ∈ gap, isQuote c = false) : '"' ∉ gap := fun hmem =>
    absurd (hgap '"' hmem) (by decide)
  have hrest : Paired (Sql.statement cs ++ b) :=
    h.of_append (closed_of_no_quote ha) fun _ hlast => hends ha (List.mem_of_getLast? hlast)
  intro x name y hin
  have hwhole : NameIn (Sql.statement cs ++ b) x name (y ++ b) := by
    refine ⟨?_, hin.closed, hin.doubled, hin.before, fun hhead => ?_⟩
    · rw [hin.text]
      simp
    · cases y with
      | nil => exact hends hb (List.mem_of_head? hhead)
      | cons c y => exact hin.after hhead
  refine (hrest x name (y ++ b) hwhole).imp_right fun hfree hmem => ?_
  exact hfree (List.mem_append_left b hmem)

/-! ## The gate -/

/-- Nothing but white space follows any semicolon when none follows the first. -/
theorem blank_of_hasSecondStatement {a b : List Char} (h : hasSecondStatement (a ++ ';' :: b) = false) :
    ∀ c ∈ b, isBlank c := by
  have hmem : ∀ c ∈ b, c ∈ ((a ++ ';' :: b).dropWhile (· != ';')).tail := by
    intro c hc
    clear h
    induction a with
    | nil => exact hc
    | cons d a ih =>
      rw [List.cons_append, List.dropWhile_cons]
      split
      · exact ih
      · exact List.mem_append_right a (List.mem_cons_of_mem _ hc)
  rw [hasSecondStatement, List.any_eq_false] at h
  intro c hc
  simpa using h c (hmem c hc)

theorem vetted_of_gate {m : List Char} (hsecond : hasSecondStatement m = false)
    (hword : dangerousWord? m = none) (hinline : occurs ['-', '-'] m = false)
    (hblock : occurs ['/', '*'] m = false) : Vetted m where
  noWord := dangerousWord?_eq_none_iff.mp hword
  noInlineComment := hinline
  noBlockComment := hblock
  single _ _ hm := blank_of_hasSecondStatement (hm ▸ hsecond)

/-- **The gate is sound outside quotes.**  A closed statement without violations, in which no literal of
the gate starts in a quoted name and ends behind it, holds nothing dangerous there. -/
theorem vetted_of_violations_eq_nil {c : Catalog} {sql : String} (hclosed : Closed sql.toList)
    (hpaired : Paired sql.toList) (h : violations c sql = []) :
    Vetted (Sql.statement (mask sql.toList)) := by
  rw [violations] at h
  simp only [List.append_eq_nil_iff] at h
  obtain ⟨⟨⟨⟨⟨-, hsecond⟩, hword⟩, hinline⟩, hblock⟩, -⟩ := h
  have hoff {b : Bool} {v : Violation} (h : (if b then [v] else []) = []) : b = false := by
    cases b with
    | true => cases h
    | false => rfl
  have hgate : Vetted (withoutNames (withoutLiterals sql.toList)) := by
    refine vetted_of_gate (hoff hsecond) ?_ (hoff hinline) (hoff hblock)
    rw [List.map_eq_nil_iff] at hword
    exact Option.toList_eq_nil_iff.mp hword
  rw [statement_mask hclosed]
  exact (stripped (closed_statement hclosed) hpaired.statement).sameOutside.vetted hgate

theorem vetted_of_violations_eq_nil_literal :
    Vetted (Sql.statement (mask
      "SELECT 'it''s; DROP TABLE sessions --' AS note FROM sessions;".toList)) := by
  exact vetted_of_violations_eq_nil (c := sessionsCatalog) (by decide) (paired_of_not_mem (by decide))
    (by decide +kernel)

/-- A text between two quoted names that each hold one apostrophe. -/
def betweenNames (x : String) : String :=
  "SELECT \"'\"" ++ x ++ "\"'\""

theorem toList_betweenNames (x : String) : (betweenNames x).toList =
    "SELECT \"".toList ++ '\'' :: ('"' :: (x.toList ++ ['"']) ++ '\'' :: ['"']) := by
  have hopen : "SELECT \"'\"".toList = "SELECT \"".toList ++ ['\'', '"'] := rfl
  have hclose : "\"'\"".toList = ['"', '\'', '"'] := rfl
  rw [betweenNames, String.toList_append, String.toList_append, hopen, hclose]
  simp only [List.append_assoc, List.cons_append, List.nil_append]

theorem statement_betweenNames (x : String) :
    Sql.statement (betweenNames x).toList = (betweenNames x).toList := by
  have hlast : (betweenNames x).toList.getLast? = some '"' := by
    rw [toList_betweenNames]
    simp [List.getLast?_cons]
  have htrim : Trimmed (betweenNames x).toList := by
    refine trimmed_of_ends (c := 'S') (d := '"') rfl rfl ?_ hlast
    rw [toList_betweenNames]
    rfl
  exact statement_eq_self htrim (by rw [hlast]; decide)

theorem withoutLiterals_betweenNames {x : String} (hx : '\'' ∉ x.toList) :
    withoutLiterals (betweenNames x).toList = "SELECT \"''\"".toList := by
  have hread : quotedBody? '\'' ('"' :: (x.toList ++ ['"']) ++ '\'' :: ['"']) =
      some ('"' :: (x.toList ++ ['"']), ['"']) :=
    quotedBody?_of_not_mem (by simpa using hx) (by decide)
  have hrest : replaceQuoted '\'' (fun _ => []) ['"'] = ['"'] := by
    rw [replaceQuoted_cons_of_ne (by decide), replaceQuoted_nil]
  rw [withoutLiterals, statement_betweenNames, toList_betweenNames,
    replaceQuoted_append_of_not_mem (by decide), replaceQuoted_of_some hread, hrest]
  rfl

/-- The gate overlooks whatever stands between two such names. -/
theorem violations_betweenNames (c : Catalog) {x : String} (hx : '\'' ∉ x.toList) :
    violations c (betweenNames x) = [] := by
  have htables : otherTables c "SELECT \"''\"".toList (withoutNames "SELECT \"''\"".toList) = [] := by
    have hscan : scan tableReference? (withoutNames "SELECT \"''\"".toList) = [] := by decide
    rw [otherTables, hscan]
    rfl
  rw [violations, withoutLiterals_betweenNames hx]
  show _ ++ otherTables c _ _ = []
  rw [htables, List.append_nil]
  decide +kernel

/-- Without the condition on names a dangerous statement passes the gate. -/
theorem not_vetted_betweenNames :
    Closed (betweenNames "; DROP TABLE sessions; SELECT ").toList ∧
      violations sessionsCatalog (betweenNames "; DROP TABLE sessions; SELECT ") = [] ∧
      ¬ Vetted (Sql.statement (mask (betweenNames "; DROP TABLE sessions; SELECT ").toList)) := by
  refine ⟨by decide, violations_betweenNames _ (by decide), fun h => ?_⟩
  have hfound : hasKeyword "drop"
      (Sql.statement (mask (betweenNames "; DROP TABLE sessions; SELECT ").toList)) = true := by
    decide +kernel
  rw [h.noWord "drop" (by decide)] at hfound
  cases hfound

end MetricLayer.Safety
