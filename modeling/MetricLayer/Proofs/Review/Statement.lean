import MetricLayer.Proofs.Review.Foreign

/-!
# The review of a statement as it is written

A statement whose parts can be told apart is valid when its items have no findings and its groups are
among its items (`SelectStatement.review_text`): all of its text outside groups is known, so that no
function of another dialect is called there, and its groups are positions.
-/

namespace MetricLayer.Sql.SelectStatement

open MetricLayer.Text MetricLayer.Review

variable {inner : List Char → Prop} {s : SelectStatement}

/-- No function of another dialect stands outside the groups of the text. -/
theorem laid_text (h : s.Readable inner) : Laid foreignNames (fun _ => True) inner s.text.toList := by
  have htitle (c : Clause) : Laid foreignNames (fun _ => True) inner c.title.toList := by
    have hfixed : Closed c.title.toList ∧
        isLaidOut foreignNames (fun _ => true) none (mask c.title.toList) := by
      cases c <;> decide
    exact .of_fixed hfixed.1 hfixed.2
  have hbreak : Laid foreignNames (fun _ => True) inner ['\n'] := .of_fixed rfl (by decide)
  have hsection (gap : List Char) {cs : List Char} (hgap : ∀ c ∈ gap, c = ' ' ∨ c = '\n')
      (hpart : Part (fun _ => True) inner cs) : Laid foreignNames (fun _ => True) inner (gap ++ cs) :=
    (laid_gap_append hgap hpart.laid).mono (List.subset_append_right _ _) (fun _ _ => trivial) fun _ => id
  rw [toList_text]
  apply hbreak.intercalate
  intro p hp
  obtain ⟨t, ht, rfl⟩ := List.mem_map.mp hp
  refine (htitle t.1).append ?_
  rcases List.mem_cons.mp ht with rfl | ht
  · exact hsection ['\n', ' ', ' '] (by decide) (part_items h)
  · obtain ⟨cs, hcs, hpart⟩ := exists_part_of_mem_laterSections h t ht
    rw [hcs]
    exact hsection [' '] (by decide) hpart

theorem isPosition_toString (n : Nat) : isPosition (toString n).toList := by
  rw [isPosition, Bool.and_eq_true, Bool.not_eq_true', List.isEmpty_eq_false_iff, List.all_eq_true]
  exact ⟨toString_ne_nil n, fun c hc => isDigit_of_charIsDigit (isDigit_of_mem_toString hc)⟩

theorem splitList_groupPositions (s : SelectStatement) :
    splitList (joinWith ", " s.groupPositions).toList = s.groupPositions.map String.toList :=
  @splitList_joinWith (fun _ => True) _ [' '] rfl (by decide) _ (part_groupPositions s)

theorem checkPositions_groupPositions (hgroups : isWritable s.groups) :
    checkPositions (s.groupPositions.map String.toList) = .ok () := by
  have hread : ∀ group ∈ (s.groupPositions.map String.toList).filter isPosition,
      (natural group).map (fun _ => ()) = .ok () := by
    intro group hgroup
    obtain ⟨p, hp, rfl⟩ := List.mem_map.mp (List.mem_of_mem_filter hgroup)
    obtain ⟨n, hn, rfl⟩ := List.mem_map.mp hp
    have hwritable : isWritable (n + 1 : Nat) := by
      rw [isWritable, decide_eq_true_eq, Int.natAbs_natCast] at hgroups ⊢
      exact Nat.lt_of_le_of_lt (List.mem_range.mp hn) hgroups
    rw [natural_toString hwritable]
    rfl
  have hall (groups : List (List Char))
      (h : ∀ group ∈ groups, (natural group).map (fun _ => ()) = .ok ()) :
      groups.forM (fun group => (natural group).map fun _ => ()) = .ok () := by
    induction groups with
    | nil => rfl
    | cons group groups ih =>
      rw [List.forM, h group List.mem_cons_self]
      exact ih fun g hg => h g (List.mem_cons_of_mem group hg)
  exact hall _ hread

theorem groupFinding?_position (c : Catalog) {items : List SelectItem} {n : Nat}
    (h : n < items.length) : groupFinding? c items (toString (n + 1)).toList = none := by
  rw [groupFinding?, if_pos (isPosition_toString _), positionFinding?]
  simp only [naturalOf_toString]
  rw [if_pos ⟨Nat.le_add_left 1 n, h⟩]

/-- The findings for the items of a statement as they are written. -/
def writtenFindings (c : Catalog) (items : List String) : List Finding :=
  items.flatMap fun i =>
    itemFindings c (SelectItem.read c i.toList).expression.toList (SelectItem.read c i.toList).aliasName

/-- A statement whose groups are among its items has the findings of its items. -/
theorem clauseFindings_text (c : Catalog) (h : s.Readable NoForeign) (hcount : s.groups ≤ s.items.length) :
    clauseFindings c s.text.toList s.readClauses = firstFindings (writtenFindings c s.items) := by
  have hforeign : foreignFunctions.filter (·.isCalled (mask s.text.toList)) = [] := by
    rw [List.filter_eq_nil_iff]
    intro f hf
    rw [noForeign_iff.mp (noForeign_of_layout (laid_text h).layout) f hf]
    exact Bool.false_ne_true
  have hitem : (s.items.map fun i => SelectItem.read c i.toList).flatMap
      (fun i => itemFindings c i.expression.toList i.aliasName) = writtenFindings c s.items := by
    rw [List.flatMap_map]
    rfl
  have hgroup : (s.groupPositions.map String.toList).filterMap
      (groupFinding? c (s.items.map fun i => SelectItem.read c i.toList)) = [] := by
    rw [List.filterMap_eq_nil_iff]
    intro group hmem
    obtain ⟨p, hp, rfl⟩ := List.mem_map.mp hmem
    obtain ⟨n, hn, rfl⟩ := List.mem_map.mp hp
    apply groupFinding?_position
    rw [List.length_map]
    exact Nat.lt_of_lt_of_le (List.mem_range.mp hn) hcount
  simp only [clauseFindings, clauseText_readClauses h, selectItems_join c h, splitList_groupPositions, hforeign,
    hitem, hgroup, List.map_nil, List.nil_append, List.append_nil]

/-- **A statement is valid** when its items have no findings and its groups are among them. -/
theorem review_text (c : Catalog) (h : s.Readable NoForeign)
    (hitems : ∀ i ∈ s.items, itemFindings c (SelectItem.read c i.toList).expression.toList
      (SelectItem.read c i.toList).aliasName = [])
    (hcount : s.groups ≤ s.items.length) (hgroups : isWritable s.groups)
    (hlimit : ∀ n ∈ s.limit, isWritable n) :
    review c s.text = .ok ⟨[], some (s.query c)⟩ := by
  have hclauses : clauses? s.text.toList = some s.readClauses := clauses?_text h
  have hfindings : clauseFindings c s.text.toList s.readClauses = [] := by
    rw [clauseFindings_text c h hcount, writtenFindings, List.flatMap_eq_nil_iff.mpr hitems]
    rfl
  rw [review, statement_text h]
  simp only [hclauses, clauseText_readClauses h, splitList_groupPositions,
    checkPositions_groupPositions hgroups, hfindings, String.ofList_toList, read?_text c h hlimit]
  rfl

end MetricLayer.Sql.SelectStatement
