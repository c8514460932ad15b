import MetricLayer.Proofs.Safety.Relations

/-!
# Relations that are exempt

A relation other than the table of the catalog passes the gate when the gate takes its name for bound.  Then
the statement introduces the name, outside quotes (`introduced_of_violations_eq_nil`), unless a quoted name
makes the gate find it: the gate looks for bound names where quoted names are not blanked
(`not_introduced_forgedName`).
-/

namespace MetricLayer.Safety

open MetricLayer.Text MetricLayer.Sql

theorem paired_of_no_apostrophe {cs : List Char} (h : '\'' ∉ cs) : Paired cs := by
  intro a name b hin
  rw [hin.text] at h
  exact Or.inr fun hmem => h (by simp [hmem])

/-- **A relation is exempt only under a name that the statement introduces outside quotes**: what the first
entry of a list refers to, if it is not the table, stands behind WITH or a comma and before AS and a
parenthesis, unless quoted names hide or forge text. -/
theorem introduced_of_violations_eq_nil {c : Catalog} {sql : String} (hclosed : Closed sql.toList)
    (hpaired : Paired (Sql.statement sql.toList)) (hunforged : Unforged (withoutLiterals sql.toList))
    (hquoted : ∀ body, Introduced (Sql.statement sql.toList) (.quoted body) → '\'' ∉ body ∧ '.' ∉ body)
    (h : violations c sql = []) :
    ∀ a w b names rest, SourceAt (Sql.statement sql.toList) a w b → (∃ d ∈ b.head?, isBlank d) →
      Refers (b.dropWhile isBlank) names rest → (∀ m ∈ names, m.IsPlain) →
      lower (referredName names).toList ∉ ownNames c →
        ∃ name, Introduced (Sql.statement sql.toList) name ∧
          lower (referredName names).toList = lower name.text.toList := by
  intro a w b names rest hsource hblank hrefers hplain hother
  have hstripped := stripped (closed_statement hclosed) hpaired
  exact (hsource.own_or_introduced hstripped hunforged hquoted (otherTables_eq_nil_of_violations h) hblank hrefers
    hplain).resolve_left hother

/-- A statement that reads a name it introduces, beside a quoted alias with a comma. -/
def commaAlias : String :=
  "WITH long AS (SELECT * FROM sessions) SELECT COUNT(*) AS \"number, long\" FROM long"

theorem sourceAt_commaAlias :
    SourceAt commaAlias.toList "WITH long AS (SELECT * FROM sessions) SELECT COUNT(*) AS \"number, long\" ".toList
      "FROM".toList " long".toList := by
  refine ⟨by decide, by decide, by decide, by decide, by decide, by decide +kernel, ?_⟩
  exact fun f _ => not_encloses_of_balanced (by decide)

theorem introduced_commaAlias :
    violations sessionsCatalog commaAlias = [] ∧ ∃ name, Introduced commaAlias.toList name ∧
      lower "long".toList = lower name.text.toList := by
  have hstatement : Sql.statement commaAlias.toList = commaAlias.toList := by
    decide +kernel
  have hviolations : violations sessionsCatalog commaAlias = [] := by
    decide +kernel
  have hapostrophe : '\'' ∉ commaAlias.toList ∧ '.' ∉ commaAlias.toList := by
    decide
  refine ⟨hviolations, ?_⟩
  have h := @introduced_of_violations_eq_nil sessionsCatalog commaAlias (by decide)
    (by rw [hstatement]; exact paired_of_no_apostrophe hapostrophe.1) (by decide +kernel)
    (by
      rw [hstatement]
      intro body hbody
      obtain ⟨a, b, htext, -⟩ := exists_of_introduced_quoted hbody
      rw [htext] at hapostrophe
      exact ⟨fun hmem => hapostrophe.1 (by simp [hmem]), fun hmem => hapostrophe.2 (by simp [hmem])⟩)
    hviolations
  rw [hstatement] at h
  exact h _ _ _ [.word "long".toList] [] sourceAt_commaAlias (by decide) (.last (by decide +kernel) rfl) (by decide)
    (by decide +kernel)

/-- A statement with a bound name in a quoted alias only. -/
def forgedName : String :=
  "SELECT COUNT(*) AS \", users AS (\" FROM users"

/-- A name in a quoted alias exempts a relation. -/
theorem not_introduced_forgedName :
    Closed forgedName.toList ∧ violations sessionsCatalog forgedName = [] ∧
      ∃ a w b names rest, SourceAt (Sql.statement forgedName.toList) a w b ∧ (∃ d ∈ b.head?, isBlank d) ∧
        Refers (b.dropWhile isBlank) names rest ∧ (∀ m ∈ names, m.IsPlain) ∧
        lower (referredName names).toList ∉ ownNames sessionsCatalog ∧
        ∀ name, ¬ Introduced (Sql.statement forgedName.toList) name := by
  have hstatement : Sql.statement forgedName.toList = forgedName.toList := by
    decide +kernel
  -- the text has no WITH, and its one comma stands in quotes
  have hplaces : ∀ p ∈ places forgedName.toList, Closed (forgedName.toList.take p.offset) →
      letters? "with".toList p.rest = none ∧ [','].isPrefixOf? p.rest = none := by
    decide +kernel
  rw [hstatement]
  refine ⟨by decide, by decide +kernel, "SELECT COUNT(*) AS \", users AS (\" ".toList, "FROM".toList, " users".toList,
    [.word "users".toList], [], ⟨by decide, by decide, by decide, by decide, by decide, by decide +kernel, ?_⟩,
    by decide, .last (by decide +kernel) rfl, by decide, by decide +kernel, ?_⟩
  · exact fun f _ => not_encloses_of_balanced (by decide)
  · rintro name ⟨a, w, v, htext, hclosed, hw, -⟩
    have hplace := hplaces _ (mem_places.mpr ⟨a, w ++ v, htext, rfl⟩)
    rw [htext, List.take_left] at hplace
    obtain ⟨hwith, hcomma⟩ := hplace hclosed
    rcases hw with ⟨hw, -⟩ | rfl
    · rw [letters?_eq_some_iff.mpr ⟨w, rfl, hw⟩] at hwith
      cases hwith
    · cases hcomma

end MetricLayer.Safety
