import MetricLayer.Catalog.Bundled
import MetricLayer.Proofs.Sql.HideCalls
import MetricLayer.Proofs.Sql.HideParts
import MetricLayer.Review.Check

/-!
# Literals and the verdict

What stands in the literals of a statement has no influence on whether it is valid, nor on where its clauses
start (`isValid_eq_of_differInLiterals`).  A review of the statement without its literals goes through the same
parts, each without its literals, and finds something wrong with a part exactly when the review of the
statement does; the texts of findings may differ.
-/

namespace MetricLayer.Review

open MetricLayer.Text MetricLayer.Sql

variable {c : Catalog} {cs : List Char}

/-! ## References and calls -/

theorem hasCase_hide (cs : List Char) : hasCase (hide cs) = hasCase cs := by
  rw [hasCase, hasCase, mask_hide]

theorem referenceFinding?_hide (h : Closed cs) : referenceFinding? c (hide cs) = referenceFinding? c cs := by
  simp only [referenceFinding?, hide_eq_star_iff, isLiteral_hide, hasCase_hide, identifier?_hide h]

/-- An alias is compared with the functions of calls, not with their arguments. -/
theorem wrongAggregation?_hide (name : String) (calls : List AggregateCall) :
    wrongAggregation? c name (calls.map AggregateCall.hide) = wrongAggregation? c name calls := by
  rw [wrongAggregation?, wrongAggregation?]
  split
  · rw [List.find?_map, Option.map_map]
    rfl
  · rfl

theorem aliasFinding?_hide_eq_none_iff (cs : List Char) (aliasName : Option String) (calls : List AggregateCall) :
    aliasFinding? c (hide cs) aliasName (calls.map AggregateCall.hide) = none ↔
      aliasFinding? c cs aliasName calls = none := by
  cases aliasName with
  | none => exact iff_of_false nofun nofun
  | some name =>
    show wrongAggregation? c name (calls.map AggregateCall.hide) = none ↔ wrongAggregation? c name calls = none
    rw [wrongAggregation?_hide]

/-! ## Items -/

/-- An item without its literals has findings exactly when it has. -/
theorem itemFindings_hide_eq_nil_iff (h : Closed cs) (aliasName : Option String) :
    itemFindings c (hide cs) aliasName = [] ↔ itemFindings c cs aliasName = [] := by
  rw [itemFindings, itemFindings, hasCase_hide, trim_hide h, isStar_hide, singleCall?_hide h]
  split
  · rfl
  cases hcall : singleCall? cs with
  | some call =>
    have hargument := closed_of_mem_embeddedCalls (mem_embeddedCalls_of_singleCall? h hcall)
    have halias := aliasFinding?_hide_eq_none_iff (c := c) cs aliasName [call]
    simp only [Option.map_some, List.append_eq_nil_iff, Option.toList_eq_nil_iff]
    rw [← halias, AggregateCall.hide, referenceFinding?_hide hargument]
    rfl
  | none =>
    simp only [Option.map_none, identifier?_hide h, isLiteral_hide, referenceFinding?_hide h]
    split
    · rfl
    have harguments : (embeddedCalls cs).filterMap (fun call => referenceFinding? c (hide call.argument)) =
        (embeddedCalls cs).filterMap fun call => referenceFinding? c call.argument :=
      List.filterMap_congr fun call hcall => referenceFinding?_hide (closed_of_mem_embeddedCalls hcall)
    rw [List.append_eq_nil_iff, List.append_eq_nil_iff, Option.toList_eq_nil_iff, Option.toList_eq_nil_iff,
      embeddedCalls_hide, aliasFinding?_hide_eq_none_iff, List.filterMap_map, ← harguments]
    rfl

theorem read_hide (h : Closed cs) :
    (SelectItem.read c (hide cs)).expression.toList = hide (SelectItem.read c cs).expression.toList ∧
      (SelectItem.read c (hide cs)).aliasName = (SelectItem.read c cs).aliasName ∧
        Closed (SelectItem.read c cs).expression.toList := by
  obtain ⟨hsplit, hclosed⟩ := splitAlias_hide h
  rw [SelectItem.read, SelectItem.read, hsplit]
  simp only [String.toList_ofList]
  exact ⟨trivial, trivial, hclosed⟩

/-- The items of a clause without its literals, one by one. -/
theorem selectItems_hide (h : Closed cs) :
    ∃ items : List (List Char), (∀ i ∈ items, Closed i) ∧ selectItems c cs = items.map (SelectItem.read c) ∧
      selectItems c (hide cs) = items.map fun i => SelectItem.read c (hide i) := by
  obtain ⟨hclause, hclosed⟩ := getD_afterDistinct?_hide h
  refine ⟨_, closed_of_mem_splitList hclosed, rfl, ?_⟩
  rw [selectItems, hclause, splitList_hide hclosed, List.map_map]
  rfl

/-! ## Groups -/

theorem isPosition_hide (cs : List Char) : isPosition (hide cs) = isPosition cs := by
  rw [isPosition, isPosition, isEmpty_hide, all_hide isDigit_of_isQuote]

/-- A position holds no literal. -/
theorem hide_of_isPosition (h : isPosition cs) : hide cs = cs := by
  rw [isPosition, Bool.and_eq_true, List.all_eq_true] at h
  apply hide_of_no_quote
  intro d hd
  by_contra hquote
  have hdigit := h.2 d hd
  rw [isDigit_of_isQuote d (by simpa using hquote)] at hdigit
  cases hdigit

theorem checkPositions_hide (groups : List (List Char)) :
    checkPositions (groups.map hide) = checkPositions groups := by
  have hfilter : (groups.map hide).filter isPosition = groups.filter isPosition := by
    have hsame : isPosition ∘ hide = isPosition := funext isPosition_hide
    rw [List.filter_map, hsame]
    exact (List.map_congr_left fun g hg => hide_of_isPosition (List.of_mem_filter hg)).trans (List.map_id _)
  rw [checkPositions, checkPositions, hfilter]

/-- A group is compared with the aliases of the items. -/
theorem groupFinding?_hide {items items' : List SelectItem}
    (hitems : items'.map SelectItem.aliasName = items.map SelectItem.aliasName) (h : Closed cs) :
    groupFinding? c items' (hide cs) = groupFinding? c items cs := by
  have hlength : items'.length = items.length := by simpa using congrArg List.length hitems
  have halias (name : String) : (items'.any fun i => i.aliasName.any fun a => a != "" && sameLower a name) =
      items.any fun i => i.aliasName.any fun a => a != "" && sameLower a name := by
    have hany (items : List SelectItem) : (items.any fun i => i.aliasName.any fun a => a != "" && sameLower a name) =
        (items.map SelectItem.aliasName).any fun o => o.any fun a => a != "" && sameLower a name := by
      rw [List.any_map]
      rfl
    rw [hany, hany, hitems]
  rw [groupFinding?, groupFinding?, isPosition_hide, hasCase_hide, identifier?_hide h, hlength]
  simp only [halias]
  split
  next hposition => rw [hide_of_isPosition hposition]
  next => rfl

/-! ## Statements -/

theorem firstFindings_eq_nil_iff {findings : List Finding} : firstFindings findings = [] ↔ findings = [] := by
  cases findings with
  | nil => exact Iff.rfl
  | cons f findings => exact iff_of_false nofun nofun

theorem clauseFindings_hide_eq_nil_iff {clauses : List (Clause × List Char)} (h : ∀ s ∈ clauses, Closed s.2) :
    clauseFindings c (hide cs) (hideClauses clauses) = [] ↔ clauseFindings c cs clauses = [] := by
  obtain ⟨items, hclosed, hread, hhidden⟩ := selectItems_hide (c := c) (closed_clauseText h .select)
  have hgrouping := closed_clauseText h .grouping
  -- the items without their literals have findings where the items have
  have hitems : (∀ i ∈ items.map fun i => SelectItem.read c (hide i),
      itemFindings c i.expression.toList i.aliasName = []) ↔
        ∀ i ∈ items.map (SelectItem.read c), itemFindings c i.expression.toList i.aliasName = [] := by
    rw [List.forall_mem_map, List.forall_mem_map]
    refine forall₂_congr fun i hi => ?_
    obtain ⟨hexpression, halias, hinner⟩ := read_hide (c := c) (hclosed i hi)
    rw [hexpression, halias, itemFindings_hide_eq_nil_iff hinner]
  have haliases : (items.map fun i => SelectItem.read c (hide i)).map SelectItem.aliasName =
      (items.map (SelectItem.read c)).map SelectItem.aliasName := by
    rw [List.map_map, List.map_map]
    exact List.map_congr_left fun i hi => (read_hide (hclosed i hi)).2.1
  have hgroups : ((splitList (clauseText .grouping clauses)).map hide).filterMap
      (groupFinding? c (items.map fun i => SelectItem.read c (hide i))) =
        (splitList (clauseText .grouping clauses)).filterMap (groupFinding? c (items.map (SelectItem.read c))) := by
    rw [List.filterMap_map]
    exact List.filterMap_congr fun g hg => groupFinding?_hide haliases (closed_of_mem_splitList hgrouping g hg)
  simp only [clauseFindings, firstFindings_eq_nil_iff, List.append_eq_nil_iff, List.flatMap_eq_nil_iff, mask_hide,
    clauseText_hide, hread, hhidden, splitList_hide hgrouping, hgroups, hitems]

/-- Whether the query of a text can be read does not depend on its literals. -/
theorem read?_hide (h : Closed cs) :
    (Query.read? c (String.ofList (hide cs))).map (fun _ => ()) = (Query.read? c (String.ofList cs)).map fun _ => () := by
  rw [Query.read?, Query.read?, String.toList_ofList, String.toList_ofList, statement_hide h]
  simp only [(clauses?_hide (closed_statement h)).1]
  cases clauses? (statement cs) with
  | none => rfl
  | some clauses =>
    have hlimit : limitOf (clauseText .limit (hideClauses clauses)) = limitOf (clauseText .limit clauses) := by
      rw [clauseText_hide, limitOf, limitOf, takeWhile_hide isDigit_of_isQuote]
    simp only [Option.map_some, Query.ofClauses, hlimit]
    cases limitOf (clauseText .limit clauses) <;> rfl

/-- The verdict on a text with clauses. -/
def verdict (c : Catalog) (text : List Char) (clauses : List (Clause × List Char)) : Except NumeralTooLong Bool := do
  checkPositions (splitList (clauseText .grouping clauses))
  if (clauseFindings c text clauses).isEmpty then (Query.read? c (String.ofList text)).map fun _ => true
  else return false

/-- A review finds no fault, or cannot be made, as the verdict on the clauses says. -/
theorem map_isValid_review (c : Catalog) (sql : String) :
    (review c sql).map Review.isValid =
      (clauses? (Sql.statement sql.toList)).elim (.ok false) (verdict c (Sql.statement sql.toList)) := by
  rw [review]
  cases clauses? (Sql.statement sql.toList) with
  | none => rfl
  | some clauses =>
    simp only [Option.elim_some, verdict]
    cases checkPositions (splitList (clauseText .grouping clauses)) with
    | error e => rfl
    | ok u =>
      cases clauseFindings c (Sql.statement sql.toList) clauses with
      | nil =>
        cases Query.read? c (String.ofList (Sql.statement sql.toList)) with
        | error e => rfl
        | ok query => rfl
      | cons f findings => rfl

theorem verdict_hide (h : Closed cs) {clauses : List (Clause × List Char)} (hclauses : ∀ s ∈ clauses, Closed s.2) :
    verdict c (hide cs) (hideClauses clauses) = verdict c cs clauses := by
  have hgrouping := closed_clauseText hclauses .grouping
  have hfindings : (clauseFindings c (hide cs) (hideClauses clauses)).isEmpty = (clauseFindings c cs clauses).isEmpty := by
    rw [Bool.eq_iff_iff, List.isEmpty_iff, List.isEmpty_iff, clauseFindings_hide_eq_nil_iff hclauses]
  have hread : (Query.read? c (String.ofList (hide cs))).map (fun _ => true) =
      (Query.read? c (String.ofList cs)).map fun _ => true := by
    have hunit := congrArg (Except.map fun _ => true) (read?_hide (c := c) h)
    revert hunit
    cases Query.read? c (String.ofList (hide cs)) <;> cases Query.read? c (String.ofList cs) <;> exact id
  rw [verdict, verdict, clauseText_hide, splitList_hide hgrouping, checkPositions_hide, hfindings, hread]

/-- **The verdict on a statement is the verdict on it without its literals.** -/
theorem map_isValid_review_hide (c : Catalog) {sql : String} (h : Closed sql.toList) :
    (review c (within hide sql)).map Review.isValid = (review c sql).map Review.isValid := by
  have hstatement := closed_statement h
  obtain ⟨hclauses, hclosed⟩ := clauses?_hide hstatement
  rw [map_isValid_review, map_isValid_review, toList_within, statement_hide h, hclauses]
  cases hread : clauses? (Sql.statement sql.toList) with
  | none => rw [Option.map_none, Option.elim_none, Option.elim_none]
  | some clauses =>
    rw [Option.map_some, Option.elim_some, Option.elim_some, verdict_hide hstatement (hclosed clauses hread)]

end MetricLayer.Review

namespace MetricLayer

open Sql

/-- **Literals have no influence on the verdict, nor on where clauses start.**  If the quotes of one of the texts
are closed, those of the other are, since they are the same. -/
theorem isValid_eq_of_differInLiterals (c : Catalog) {s t : String} (hs : Closed s.toList)
    (h : DifferInLiterals s.toList t.toList) :
    (review c s).map Review.isValid = (review c t).map Review.isValid ∧
      ∀ clause, clauseStart? clause s.toList = clauseStart? clause t.toList := by
  have hhide : hide s.toList = hide t.toList := hide_eq_of_differInLiterals h
  have hwithin : Text.within hide s = Text.within hide t := congrArg String.ofList hhide
  have ht : Closed t.toList := by rwa [← closed_hide_iff, ← hhide, closed_hide_iff]
  constructor
  · rw [← Review.map_isValid_review_hide c hs, hwithin, Review.map_isValid_review_hide c ht]
  · intro clause
    rw [clauseStart?, ← mask_hide, hhide, mask_hide, clauseStart?]

/-- A literal that reads like the rest of a statement. -/
def keywordLiteral : String :=
  "SELECT country || ', SUM(x) FROM t' AS place FROM sessions"

/-- The same statement with letters in its literal. -/
def letterLiteral : String :=
  "SELECT country || 'abcdefghijklmno' AS place FROM sessions"

theorem isValid_eq_keywordLiteral :
    DifferInLiterals keywordLiteral.toList letterLiteral.toList ∧
      (review sessionsCatalog keywordLiteral).map Review.isValid =
        (review sessionsCatalog letterLiteral).map Review.isValid ∧
      ∀ clause, clauseStart? clause keywordLiteral.toList = clauseStart? clause letterLiteral.toList := by
  have hdiffer : DifferInLiterals keywordLiteral.toList letterLiteral.toList := by decide +kernel
  exact ⟨hdiffer, isValid_eq_of_differInLiterals sessionsCatalog (by decide) hdiffer⟩

end MetricLayer
