import MetricLayer.Proofs.Catalog.Lookup
import MetricLayer.Proofs.Review.Standalone
import MetricLayer.Proofs.Sql.Canonical

/-!
# Proposed aliases

An item that computes something without an alias is reported, and the alias of an entry is proposed for it if both
have one canonical form (`exists_missingAlias`).  So an alias is proposed for every expression of an entry
(`exists_proposes_of_sameExpression`).  But an item for which it is proposed computes what the entry does only if
their literals are the same (`sameExpression_iff_of_proposes`): the canonical form leaves letter case, white space
and qualifiers out of literals as well (`not_forall_sameExpression`).
-/

namespace MetricLayer

namespace Review

open MetricLayer.Text MetricLayer.Sql

variable {c : Catalog} {f : Finding} {e : Entry}

/-- An alias is missing, and that of an entry is proposed; the correction alone does not tell an alias that reads like
the placeholder from the placeholder. -/
structure Finding.Proposes (f : Finding) (e : Entry) : Prop where
  kind : f.kind = .missingAlias
  correction : f.correction = f.identifier ++ " AS " ++ e.aliasName
  subject : e.aliasName = "<descriptive_alias>" → f.subject.isSome

instance (f : Finding) (e : Entry) : Decidable (f.Proposes e) :=
  decidable_of_iff (f.kind = .missingAlias ∧ f.correction = f.identifier ++ " AS " ++ e.aliasName ∧
      (e.aliasName = "<descriptive_alias>" → f.subject.isSome))
    ⟨fun h => ⟨h.1, h.2.1, h.2.2⟩, fun h => ⟨h.kind, h.correction, h.subject⟩⟩

/-! ## Where a missing alias is reported -/

theorem kind_of_mem_nameFinding? {name : String} {clause : Clause} (h : f ∈ nameFinding? c name clause) :
    f.kind ≠ .missingAlias := by
  rw [Option.mem_def, nameFinding?] at h
  intro hkind
  split_ifs at h
  · cases h
    cases hkind
  · cases h
    cases hkind

theorem kind_of_mem_referenceFinding? {reference : List Char} (h : f ∈ referenceFinding? c reference) :
    f.kind ≠ .missingAlias := by
  rw [Option.mem_def, referenceFinding?] at h
  split_ifs at h
  obtain ⟨name, -, hname⟩ := Option.bind_eq_some_iff.mp h
  exact kind_of_mem_nameFinding? hname

theorem kind_of_mem_groupFinding? {items : List SelectItem} {group : List Char}
    (h : f ∈ groupFinding? c items group) : f.kind ≠ .missingAlias := by
  rw [Option.mem_def, groupFinding?] at h
  split_ifs at h
  · rw [positionFinding?] at h
    split_ifs at h
    cases h
    intro hkind
    cases hkind
  · obtain ⟨name, -, hname⟩ := Option.bind_eq_some_iff.mp h
    split_ifs at hname
    exact kind_of_mem_nameFinding? hname

theorem eq_missingAlias_of_mem_aliasFinding? {expression : List Char} {aliasName : Option String}
    {calls : List AggregateCall} (h : f ∈ aliasFinding? c expression aliasName calls)
    (hkind : f.kind = .missingAlias) : f = missingAlias c expression := by
  cases aliasName with
  | none => exact (Option.some.inj h).symm
  | some name =>
    rw [Option.mem_def, aliasFinding?, wrongAggregation?] at h
    split at h
    next =>
      obtain ⟨call, -, rfl⟩ := Option.map_eq_some_iff.mp h
      cases hkind
    next => cases h

theorem eq_missingAlias_of_mem_itemFindings {expression : List Char} {aliasName : Option String}
    (h : f ∈ itemFindings c expression aliasName) (hkind : f.kind = .missingAlias) :
    f = missingAlias c expression := by
  have hreference {reference : List Char} (hmem : f ∈ (referenceFinding? c reference).toList) : False :=
    kind_of_mem_referenceFinding? (Option.mem_toList.mp hmem) hkind
  rw [itemFindings] at h
  split at h
  · cases h
  split at h
  next call _ =>
    rcases List.mem_append.mp h with hmem | hmem
    · exact (hreference hmem).elim
    · exact eq_missingAlias_of_mem_aliasFinding? (Option.mem_toList.mp hmem) hkind
  next =>
    split at h
    · exact (hreference h).elim
    · rcases List.mem_append.mp h with hmem | hmem
      · obtain ⟨call, -, hcall⟩ := List.mem_filterMap.mp hmem
        exact absurd hkind (kind_of_mem_referenceFinding? hcall)
      · exact eq_missingAlias_of_mem_aliasFinding? (Option.mem_toList.mp hmem) hkind

theorem firstFindings_subset (findings : List Finding) : firstFindings findings ⊆ findings := by
  induction findings with
  | nil => exact List.Subset.refl []
  | cons f fs ih => exact List.cons_subset_cons f (List.Subset.trans List.filter_sublist.subset ih)

/-- A missing alias is reported of an item. -/
theorem exists_item_of_mem_clauseFindings {text : List Char} {clauses : List (Clause × List Char)}
    (h : f ∈ clauseFindings c text clauses) (hkind : f.kind = .missingAlias) :
    ∃ item, f = missingAlias c (splitAlias item).1 := by
  rcases List.mem_append.mp (firstFindings_subset _ h) with hmem | hmem
  · rcases List.mem_append.mp hmem with hmem | hmem
    · obtain ⟨function, -, rfl⟩ := List.mem_map.mp hmem
      cases hkind
    · obtain ⟨i, hi, hfinding⟩ := List.mem_flatMap.mp hmem
      obtain ⟨item, -, rfl⟩ := List.mem_map.mp hi
      refine ⟨item, ?_⟩
      rw [eq_missingAlias_of_mem_itemFindings hfinding hkind, SelectItem.read, String.toList_ofList]
  · obtain ⟨group, -, hgroup⟩ := List.mem_filterMap.mp hmem
    exact absurd hkind (kind_of_mem_groupFinding? hgroup)

theorem trimmed_splitAlias (item : List Char) : Trimmed (splitAlias item).1 := by
  rw [splitAlias]
  split
  · exact trimmed_trim _
  · dsimp only
    split_ifs
    · exact trimmed_trim _
    · exact trimmed_trim _

/-- The findings of a review are those for the clauses, if there are any. -/
theorem findings_of_review {sql : String} {r : MetricLayer.Review} (h : review c sql = .ok r) :
    r.findings = [noSelect c (Sql.statement sql.toList)] ∨
      ∃ clauses, r.findings = clauseFindings c (Sql.statement sql.toList) clauses := by
  rw [review] at h
  cases hclauses : clauses? (Sql.statement sql.toList) with
  | none =>
    rw [hclauses] at h
    cases h
    exact Or.inl rfl
  | some clauses =>
    rw [hclauses] at h
    refine Or.inr ⟨clauses, ?_⟩
    cases hpositions : checkPositions (splitList (clauseText .grouping clauses)) with
    | error e =>
      simp only [hpositions] at h
      cases h
    | ok u =>
      simp only [hpositions] at h
      cases hfindings : clauseFindings c (Sql.statement sql.toList) clauses with
      | nil =>
        simp only [hfindings] at h
        cases hread : Query.read? c (String.ofList (Sql.statement sql.toList)) with
        | error e =>
          rw [hread] at h
          cases h
        | ok query =>
          rw [hread] at h
          cases h
          rfl
      | cons f findings =>
        simp only [hfindings] at h
        cases h
        rfl

/-- A missing alias is reported of an expression without outer white space. -/
theorem exists_missingAlias {sql : String} {r : MetricLayer.Review} (hreview : review c sql = .ok r)
    (hf : f ∈ r.findings) (hkind : f.kind = .missingAlias) :
    ∃ expression, Trimmed expression ∧ f = missingAlias c expression := by
  rcases findings_of_review hreview with heq | ⟨clauses, heq⟩
  · rw [heq] at hf
    obtain rfl := List.mem_singleton.mp hf
    cases hkind
  · rw [heq] at hf
    obtain ⟨item, rfl⟩ := exists_item_of_mem_clauseFindings hf hkind
    exact ⟨_, trimmed_splitAlias item, rfl⟩

/-! ## What the proposed alias belongs to -/

theorem identifier_missingAlias {expression : List Char} (htrimmed : Trimmed expression) :
    (missingAlias c expression).identifier.toList = expression := by
  rw [missingAlias, String.toList_ofList, trim_eq_self htrimmed]

/-- An expression and the entry whose alias is proposed for it have one canonical form. -/
theorem canonical_eq_of_proposes (haccepted : c.Accepted) (he : e ∈ c.entries) {expression : List Char}
    (hproposes : (missingAlias c expression).Proposes e) : canonical expression = canonical e.sql.toList := by
  have halias : ((c.namedEntries.find? fun e => canonical e.sql.toList == canonical expression).map
      Entry.aliasName).getD "<descriptive_alias>" = e.aliasName :=
    (String.append_right_inj _).mp hproposes.correction
  cases hfound : c.namedEntries.find? fun e => canonical e.sql.toList == canonical expression with
  | none =>
    rw [hfound] at halias
    have hsubject := hproposes.subject halias.symm
    simp only [missingAlias, hfound] at hsubject
    cases hsubject
  | some proposed =>
    rw [hfound] at halias
    have hmem := List.mem_of_find?_eq_some hfound
    rw [haccepted.namedEntries_eq] at hmem
    -- no two entries of an accepted catalog bear one alias
    have hentry : c.entry? proposed.aliasName = some e := by
      rw [← haccepted.entry?_aliasName he]
      exact congrArg c.entry? halias
    obtain rfl : proposed = e := Option.some.inj ((haccepted.entry?_aliasName hmem).symm.trans hentry)
    have hform := List.find?_some hfound
    exact (beq_iff_eq.mp hform).symm

theorem isSome_named?_aliasName (haccepted : c.Accepted) (he : e ∈ c.entries) : (named? c e.aliasName).isSome := by
  rw [named?, haccepted.entry?_aliasName he]
  split <;> rfl

/-- If some entry has the canonical form of an expression, the alias of one is proposed. -/
theorem exists_proposes_missingAlias (haccepted : c.Accepted) (he : e ∈ c.entries) {expression : List Char}
    (h : canonical expression = canonical e.sql.toList) :
    ∃ proposed ∈ c.entries, (missingAlias c expression).Proposes proposed := by
  have hfound : (c.namedEntries.find? fun e => canonical e.sql.toList == canonical expression).isSome := by
    rw [List.find?_isSome, haccepted.namedEntries_eq]
    exact ⟨e, he, beq_iff_eq.mpr h.symm⟩
  obtain ⟨proposed, hproposed⟩ := Option.isSome_iff_exists.mp hfound
  have hmem := List.mem_of_find?_eq_some hproposed
  rw [haccepted.namedEntries_eq] at hmem
  refine ⟨proposed, hmem, rfl, ?_, fun hplaceholder => ?_⟩
  · simp only [missingAlias, hproposed]
    rfl
  · have hne : (proposed.aliasName != "") = true := by
      rw [hplaceholder]
      rfl
    simp only [missingAlias, hproposed, Option.map_some, Option.filter_some, hne, if_true, Option.bind_some]
    exact isSome_named?_aliasName haccepted hmem

/-- For an expression of an entry an alias is proposed. -/
theorem exists_proposes_of_sameExpression (haccepted : c.Accepted) (he : e ∈ c.entries) {sql : String}
    {r : MetricLayer.Review} (hreview : review c sql = .ok r) (hf : f ∈ r.findings) (hkind : f.kind = .missingAlias)
    {ts us : List Token} (hts : Lexed ts) (hexpression : textOf ts = f.identifier.toList) (hus : Lexed us)
    (hsql : textOf us = e.sql.toList) (hsame : SameExpression ts us) :
    ∃ proposed ∈ c.entries, f.Proposes proposed := by
  obtain ⟨expression, htrimmed, rfl⟩ := exists_missingAlias hreview hf hkind
  have hcanonical := canonical_eq_of_sameExpression hts hus hsame
  rw [hexpression, identifier_missingAlias htrimmed, hsql] at hcanonical
  exact exists_proposes_missingAlias haccepted he hcanonical

/-- **The alias of an entry is proposed for an expression whose literals have the canonical forms of those of the
entry; both are the same expression exactly if they have the same literals.** -/
theorem sameExpression_iff_of_proposes (haccepted : c.Accepted) (he : e ∈ c.entries) {sql : String}
    {r : MetricLayer.Review} (hreview : review c sql = .ok r) (hf : f ∈ r.findings) (hproposes : f.Proposes e)
    {ts us : List Token} (hts : Legible ts) (hexpression : textOf ts = f.identifier.toList) (hus : Legible us)
    (hsql : textOf us = e.sql.toList) :
    (literals ts).map canonical = (literals us).map canonical ∧
      (SameExpression ts us ↔ literals ts = literals us) := by
  obtain ⟨expression, htrimmed, rfl⟩ := exists_missingAlias hreview hf hproposes.kind
  have hcanonical : canonical (textOf ts) = canonical (textOf us) := by
    rw [hexpression, identifier_missingAlias htrimmed, hsql]
    exact canonical_eq_of_proposes haccepted he hproposes
  exact ⟨map_canonical_literals_eq hts hus hcanonical, sameExpression_iff_of_canonical_eq hts hus hcanonical⟩

/-! ## A count of some rows -/

/-- The rows of one region. -/
def westRows : Formula where
  aliasName := "west_rows"
  sql := "COUNT(*) FILTER (WHERE region = 'west')"
  source := "region"

/-- A catalog with one formula, whose SQL holds a literal. -/
def regionCatalog : Catalog where
  table := "t"
  fields := [{ name := "region", physicalType := "VARCHAR", ingestType := "string", category := "categorical" }]
  measures := [{ source := "region", formulas := [westRows] }]

theorem accepted_regionCatalog : regionCatalog.Accepted := by
  decide

/-- The statement with one item. -/
def itemStatement (item : String) : String :=
  "SELECT " ++ item ++ " FROM " ++ quoteTable "t"

/-- The review of a statement with one item without an alias. -/
theorem review_itemStatement {item : String} (hitem : IsItem item.toList)
    (htext : statement (itemStatement item).toList = oneItem [' '] item.toList (quoteTable "t").toList)
    (hfindings : clauseFindings regionCatalog (oneItem [' '] item.toList (quoteTable "t").toList)
      [(.select, item.toList), (.source, (quoteTable "t").toList)] = [missingAlias regionCatalog item.toList]) :
    review regionCatalog (itemStatement item) = .ok ⟨[missingAlias regionCatalog item.toList], none⟩ := by
  have htable : ListPart NoForeign (quoteTable "t").toList := listPart_quoteTable "t"
  rw [review, htext, clauses?_oneItem (by decide) hitem (isBody_quoteTable "t") htable.trimmed]
  simp only [hfindings]
  rfl

/-- The rows of a region, as tokens. -/
def rowsOf (region : String) : List Token :=
  [.word "COUNT".toList, .sign '(', .sign '*', .sign ')', .blank ' ', .word "FILTER".toList, .blank ' ', .sign '(',
    .word "WHERE".toList, .blank ' ', .word "region".toList, .blank ' ', .sign '=', .blank ' ',
    .literal region.toList, .sign ')']

/-- The SQL of the formula with a qualifier, in other letters and spaces. -/
def respelledRows : String := "count( * ) filter (where t.\"region\"='west')"

/-- The same as tokens. -/
def respelledTokens : List Token :=
  [.word "count".toList, .sign '(', .blank ' ', .sign '*', .blank ' ', .sign ')', .blank ' ', .word "filter".toList,
    .blank ' ', .sign '(', .word "where".toList, .blank ' ', .word "t".toList, .point, .name "region".toList,
    .sign '=', .literal "west".toList, .sign ')']

theorem sameExpression_iff_of_proposes_respelled :
    regionCatalog.Accepted ∧ Legible respelledTokens ∧ Legible (rowsOf "west") ∧
      textOf (rowsOf "west") = westRows.sql.toList ∧
      ∃ r f, review regionCatalog (itemStatement respelledRows) = .ok r ∧ f ∈ r.findings ∧
        f.Proposes (.formula westRows) ∧ textOf respelledTokens = f.identifier.toList ∧
        SameExpression respelledTokens (rowsOf "west") := by
  have hitem : IsItem respelledRows.toList :=
    ⟨⟨by decide, by decide, by decide, by decide⟩, by decide, by decide⟩
  have hreview := review_itemStatement hitem (by decide) rfl
  have hproposes : (missingAlias regionCatalog respelledRows.toList).Proposes (.formula westRows) := by decide
  have hts : Legible respelledTokens := by decide
  have hus : Legible (rowsOf "west") := by decide
  have hexpression : textOf respelledTokens =
      (missingAlias regionCatalog respelledRows.toList).identifier.toList := by
    decide
  have hsql : textOf (rowsOf "west") = westRows.sql.toList := by decide
  have hboth := sameExpression_iff_of_proposes accepted_regionCatalog List.mem_cons_self hreview List.mem_cons_self
    hproposes hts hexpression hus hsql
  exact ⟨accepted_regionCatalog, hts, hus, hsql, _, _, hreview, List.mem_cons_self, hproposes, hexpression,
    hboth.2.mpr rfl⟩

/-- A region whose name ends in that of another one behind a point. -/
def otherRows : String := "COUNT(*) FILTER (WHERE region = 'eu.west')"

/-- An alias may be proposed for an expression with other literals. -/
theorem not_forall_sameExpression :
    ¬ ∀ (c : Catalog) (sql : String) (r : MetricLayer.Review) (f : Finding) (e : Entry) (ts us : List Token),
      c.Accepted → review c sql = .ok r → f ∈ r.findings → e ∈ c.entries → f.Proposes e → Legible ts →
      textOf ts = f.identifier.toList → Legible us → textOf us = e.sql.toList →
      SameExpression ts us ∧ literals ts = literals us := by
  intro h
  have hitem : IsItem otherRows.toList :=
    ⟨⟨by decide, by decide, by decide, by decide⟩, by decide, by decide⟩
  have hreview := review_itemStatement hitem (by decide) rfl
  have hproposes : (missingAlias regionCatalog otherRows.toList).Proposes (.formula westRows) := by decide
  have hsame := h regionCatalog _ _ _ (.formula westRows) (rowsOf "eu.west") (rowsOf "west") accepted_regionCatalog
    hreview List.mem_cons_self List.mem_cons_self hproposes (by decide) (by decide) (by decide) (by decide)
  exact absurd hsame.2 (by decide)

end Review

end MetricLayer
