import MetricLayer.Proofs.Safety.Gate
import MetricLayer.Proofs.Safety.Scope

/-!
# The relations of a statement

`Reads` says which relations a statement names behind FROM and JOIN, each as an entry of a list.  The gate reads
the first entry only, so a statement without violations keeps to its table and to the names of its WITH clauses
when no list has a second one (`allowed_of_violations_eq_nil`); a second entry is overlooked
(`not_allowed_secondEntry`).
-/

namespace MetricLayer.Safety

open MetricLayer.Text MetricLayer.Sql

/-- A FROM or JOIN outside quotes: no name is awaited where it stands, and the parentheses around it are not
those of a function whose arguments hold the word FROM. -/
structure SourceAt (text a w b : List Char) : Prop where
  text : text = a ++ (w ++ b)
  closed : Closed a
  word : IsSourceWord w
  start : wordStart (lastOr none a)
  stop : endsWord b
  notName : ¬ AwaitsName a
  apart : ∀ f ∈ fromFunctions, ¬ Encloses f (mask a)

/-- A statement names a relation in the list behind a FROM or JOIN. -/
def Reads (text : List Char) (names : List Name) : Prop :=
  ∃ a w b v rest, SourceAt text a w b ∧ Listed b v ∧ Refers (v.dropWhile isBlank) names rest

/-- The relation is the table of the catalog, by its full name or the last part of it, or is bound by a WITH
clause of the statement; letter case does not matter. -/
def Allowed (c : Catalog) (text : List Char) (names : List Name) : Prop :=
  lower (referredName names).toList ∈ ownNames c ∨
    ∃ name, WithBinds text name ∧ lower (referredName names).toList = lower name.text.toList

/-- What the gate reads of a FROM or JOIN is its whole list: white space follows the keyword, and the list has
one entry. -/
def HasSingleLists (text : List Char) : Prop :=
  ∀ a w b, SourceAt text a w b → (∃ c ∈ b.head?, isBlank c) ∧ ∀ v, Listed b v → v = b

/-- A text without commas has no second entries. -/
theorem eq_of_listed {text v : List Char} (hcomma : ',' ∉ text) (h : Listed text v) : v = text := by
  rcases h with rfl | ⟨u, rfl, -⟩
  · rfl
  · exact absurd (by simp) hcomma

/-- The first relation behind a FROM or JOIN is one that the gate knows, when the gate reports no table. -/
theorem SourceAt.mem_of_otherTables_eq_nil {c : Catalog} {text a w b l n rest : List Char} {names : List Name}
    (hsource : SourceAt text a w b) (hstripped : Stripped text l n) (htables : otherTables c l n = [])
    (hblank : ∃ d ∈ b.head?, isBlank d) (hrefers : Refers (b.dropWhile isBlank) names rest)
    (hplain : ∀ m ∈ names, m.IsPlain) :
    lower (referredName names).toList ∈ boundNames l ++ ownNames c := by
  obtain ⟨rfl, hclosed, hword, hstart, -, hname, hapart⟩ := hsource
  have hgap : b.takeWhile isBlank ≠ [] := by
    obtain ⟨d, hd, hdblank⟩ := hblank
    obtain ⟨b, rfl⟩ := List.head?_eq_some_iff.mp hd
    rw [List.takeWhile_cons_of_pos hdblank]
    exact List.cons_ne_nil _ _
  rw [← List.takeWhile_append_dropWhile (p := isBlank) (l := b)] at hstripped
  obtain ⟨p, start, length, hmem, hsame, hparts⟩ :=
    hstripped.exists_mem_scan hclosed hword hstart hname ⟨hgap, fun c hc => List.mem_takeWhile_imp hc⟩ hrefers
      hplain
  rcases otherTables_eq_nil_iff.mp htables p start length hmem with ⟨f, hf, hfunction⟩ | hallowed
  · have hfixed : ∀ f ∈ fromFunctions, '_' ∉ f.toList := by
      decide
    exact absurd (hsame.symm.encloses (hfixed f hf) (encloses_of_enclosingFunction? hfunction)) (hapart f hf)
  · rwa [referenceName_eq, hparts] at hallowed

/-- The first relation behind a FROM or JOIN is the table, or is introduced, when the gate reports no table. -/
theorem SourceAt.own_or_introduced {c : Catalog} {text a w b l n rest : List Char} {names : List Name}
    (hsource : SourceAt text a w b) (hstripped : Stripped text l n) (hunforged : Unforged l)
    (hquoted : ∀ body, Introduced text (.quoted body) → '\'' ∉ body ∧ '.' ∉ body) (htables : otherTables c l n = [])
    (hblank : ∃ d ∈ b.head?, isBlank d) (hrefers : Refers (b.dropWhile isBlank) names rest)
    (hplain : ∀ m ∈ names, m.IsPlain) :
    lower (referredName names).toList ∈ ownNames c ∨
      ∃ name, Introduced text name ∧ lower (referredName names).toList = lower name.text.toList := by
  rcases List.mem_append.mp (hsource.mem_of_otherTables_eq_nil hstripped htables hblank hrefers hplain) with
    hbound | hown
  · exact Or.inr (hstripped.exists_introduced hunforged hquoted hbound)
  · exact Or.inl hown

theorem otherTables_eq_nil_of_violations {c : Catalog} {sql : String} (h : violations c sql = []) :
    otherTables c (withoutLiterals sql.toList) (withoutNames (withoutLiterals sql.toList)) = [] := by
  rw [violations] at h
  exact (List.append_eq_nil_iff.mp h).2

/-- The first relation behind a FROM or JOIN is allowed, whatever follows it. -/
theorem SourceAt.allowed {c : Catalog} {sql : String} {a w b rest : List Char} {names : List Name}
    (hsource : SourceAt (Sql.statement sql.toList) a w b) (hclosed : Closed sql.toList)
    (hnames : SimpleNames (Sql.statement sql.toList))
    (hbound : ∀ name, Introduced (Sql.statement sql.toList) name → WithBinds (Sql.statement sql.toList) name)
    (hblank : ∃ d ∈ b.head?, isBlank d) (hrefers : Refers (b.dropWhile isBlank) names rest)
    (hplain : ∀ m ∈ names, m.IsPlain) (h : violations c sql = []) :
    Allowed c (Sql.statement sql.toList) names := by
  have hstripped : Stripped (Sql.statement sql.toList) (withoutLiterals sql.toList)
      (withoutNames (withoutLiterals sql.toList)) :=
    stripped (closed_statement hclosed) (hnames.paired fun rest => Or.inr ⟨'\'', rfl, by decide⟩)
  have hfound := hsource.own_or_introduced hstripped (hnames.unforged hstripped) (fun _ => hnames.of_introduced)
    (otherTables_eq_nil_of_violations h) hblank hrefers hplain
  exact hfound.imp_right fun ⟨name, hintroduced, hlower⟩ => ⟨name, hbound name hintroduced, hlower⟩

/-- **A statement without violations reads nothing but its table and what it defines**, when its lists have one
entry, its quoted names are simple, and only WITH clauses introduce names. -/
theorem allowed_of_violations_eq_nil {c : Catalog} {sql : String} (hclosed : Closed sql.toList)
    (hnames : SimpleNames (Sql.statement sql.toList)) (hlists : HasSingleLists (Sql.statement sql.toList))
    (hbound : ∀ name, Introduced (Sql.statement sql.toList) name → WithBinds (Sql.statement sql.toList) name)
    (h : violations c sql = []) :
    ∀ names, Reads (Sql.statement sql.toList) names → (∀ m ∈ names, m.IsPlain) →
      Allowed c (Sql.statement sql.toList) names := by
  rintro names ⟨a, w, b, v, rest, hsource, hlisted, hrefers⟩ hplain
  obtain ⟨hblank, hsingle⟩ := hlists a w b hsource
  obtain rfl := hsingle v hlisted
  exact hsource.allowed hclosed hnames hbound hblank hrefers hplain h

/-- A statement that defines the name it reads. -/
def definedName : String :=
  "WITH long AS (SELECT * FROM sessions) SELECT COUNT(*) AS n FROM long"

theorem reads_definedName : Reads definedName.toList [.word "long".toList] := by
  refine ⟨"WITH long AS (SELECT * FROM sessions) SELECT COUNT(*) AS n ".toList, "FROM".toList, " long".toList, _,
    [], ⟨by decide, by decide, by decide, by decide, by decide, by decide, ?_⟩, Or.inl rfl, ?_⟩
  · exact fun f _ => not_encloses_of_balanced (by decide)
  · exact .last (by decide) rfl

theorem hasSingleLists_definedName : HasSingleLists definedName.toList := by
  have hfrom : ∀ t ∈ definedName.toList.tails,
      ∀ b ∈ (letters? "from".toList t).or (letters? "join".toList t), ∃ c ∈ b.head?, isBlank c := by
    decide
  rintro a w b ⟨htext, -, hword, -, -, -, -⟩
  refine ⟨hfrom (w ++ b) ?_ b (letters?_source_iff.mpr ⟨w, hword, rfl⟩), fun v hv => eq_of_listed ?_ hv⟩
  · rw [List.mem_tails, htext]
    exact List.suffix_append a (w ++ b)
  · have hcomma : ',' ∉ definedName.toList := by
      decide
    intro hmem
    rw [htext] at hcomma
    exact hcomma (by simp [hmem])

theorem withBinds_of_introduced_definedName {name : Name} (h : Introduced definedName.toList name) :
    WithBinds definedName.toList name := by
  have hwith : ∀ t ∈ definedName.toList.tails, ∀ v ∈ letters? "with".toList t, endsWord v := by
    decide
  have hcomma : ',' ∉ definedName.toList := by
    decide
  obtain ⟨a, w, v, htext, hclosed, hw | rfl, hname⟩ := h
  · refine ⟨a, w, v, v, htext, hclosed, hw.1, hw.2, ?_, Or.inl rfl, hname⟩
    refine hwith (w ++ v) ?_ v (letters?_eq_some_iff.mpr ⟨w, rfl, hw.1⟩)
    rw [List.mem_tails, htext]
    exact List.suffix_append a (w ++ v)
  · exact absurd (by simp [htext]) hcomma

theorem allowed_definedName :
    violations sessionsCatalog definedName = [] ∧ Reads definedName.toList [.word "long".toList] ∧
      Allowed sessionsCatalog definedName.toList [.word "long".toList] := by
  have hstatement : Sql.statement definedName.toList = definedName.toList := by
    decide +kernel
  have hviolations : violations sessionsCatalog definedName = [] := by
    decide +kernel
  refine ⟨hviolations, reads_definedName, ?_⟩
  have h := @allowed_of_violations_eq_nil sessionsCatalog definedName (by decide)
    (namesAvoid_of_not_mem (by rw [hstatement]; decide)) (by rw [hstatement]; exact hasSingleLists_definedName)
    (by rw [hstatement]; exact fun _ => withBinds_of_introduced_definedName) hviolations
  rw [hstatement] at h
  exact h _ reads_definedName (by decide)

/-- A statement whose list has a second entry. -/
def secondEntry : String :=
  "SELECT COUNT(*) AS n FROM sessions, users"

/-- The gate overlooks the second entry of a list. -/
theorem not_allowed_secondEntry :
    Closed secondEntry.toList ∧ violations sessionsCatalog secondEntry = [] ∧
      ∃ names, Reads (Sql.statement secondEntry.toList) names ∧
        ¬ Allowed sessionsCatalog (Sql.statement secondEntry.toList) names := by
  have hstatement : Sql.statement secondEntry.toList = secondEntry.toList := by
    decide +kernel
  have hwith : ∀ t ∈ secondEntry.toList.tails, letters? "with".toList t = none := by
    decide +kernel
  rw [hstatement]
  refine ⟨by decide, by decide +kernel, [.word "users".toList], ?_, ?_⟩
  · refine ⟨"SELECT COUNT(*) AS n ".toList, "FROM".toList, " sessions, users".toList, " users".toList, [],
      ⟨by decide, by decide, by decide, by decide, by decide, by decide +kernel, ?_⟩, Or.inr ?_, ?_⟩
    · exact fun f _ => not_encloses_of_balanced (by decide)
    · exact ⟨" sessions".toList, by decide, by decide, by intro k; cases k <;> decide +kernel⟩
    · exact .last (by decide +kernel) rfl
  · rintro (hown | ⟨name, ⟨a, w, b, v, htext, -, hw, -⟩, -⟩)
    · exact absurd hown (by decide +kernel)
    · have hnone := hwith (w ++ b) (by rw [List.mem_tails, htext]; exact List.suffix_append a (w ++ b))
      rw [letters?_eq_some_iff.mpr ⟨w, rfl, hw⟩] at hnone
      cases hnone

end MetricLayer.Safety
