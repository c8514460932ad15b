import MetricLayer.Proofs.Review.Statement
import MetricLayer.Proofs.Run.Step
import MetricLayer.Proofs.Selection.Safe

/-!
# Written statements in temporal order

Ordering a written statement by time writes the statement with its ordering (`temporalOrder_text`), and a run goes
on with the query of that one (`RunPlan.order_text`).
-/

namespace MetricLayer

open MetricLayer.Text MetricLayer.Sql

/-! ## Statements -/

namespace Sql.SelectStatement

/-- The statement ordered by a target, lowest first. -/
def orderedBy (target : String) (s : SelectStatement) : SelectStatement :=
  { s with ordering := [target ++ " ASC"] }

/-- The statement in temporal order, if it is over time and not ordered. -/
def inTemporalOrder (c : Catalog) (s : SelectStatement) : SelectStatement :=
  if s.ordering.isEmpty then (temporalTarget? c (s.query c)).elim s fun target => s.orderedBy target else s

section text

variable {inner : List Char → Prop} {c : Catalog} {s : SelectStatement} {target : String}

theorem clauseStart?_limit_eq_none (h : s.Readable inner) (hordering : s.ordering = []) (hlimit : s.limit = none) :
    clauseStart? .limit s.text.toList = none := by
  have hclauses : ∀ t ∈ s.laterSections, t.1 ≠ .limit := by
    have hlist (c : Clause) (sep : String) (parts : List String) : ∀ t ∈ listSection c sep parts, t.1 = c := by
      rw [listSection]
      split
      · exact List.forall_mem_nil _
      · exact List.forall_mem_singleton.mpr rfl
    have hnone : listSection .ordering ", " s.ordering = [] := by
      rw [hordering]
      rfl
    intro t ht
    simp only [laterSections, hnone, hlimit, List.append_nil, List.mem_append, List.mem_singleton,
      Option.toList_none, List.map_nil] at ht
    rcases ht with (rfl | ht) | ht
    · simp
    · rw [hlist _ _ _ t ht]
      decide
    · rw [hlist _ _ _ t ht]
      decide
  rw [clauseStart?, Option.map_eq_none_iff, toList_text, heading?_sections (isBody_selectBody h)
    (isBody_of_mem_laterSections h) (by decide) (Nat.zero_le _), List.find?_eq_none]
  intro heading hmem
  have hclause : heading.clause ∈ s.laterSections.map Prod.fst :=
    map_clause_headingsOf _ s.laterSections ▸ List.mem_map_of_mem hmem
  obtain ⟨t, ht, heq⟩ := List.mem_map.mp hclause
  rw [decide_eq_true_eq, ← heq]
  exact hclauses t ht

theorem text_orderedBy (hordering : s.ordering = []) (hlimit : s.limit = none) :
    (s.orderedBy target).text.toList = s.text.toList ++ '\n' :: ("ORDER BY " ++ target ++ " ASC").toList := by
  have hclauses : (s.orderedBy target).clauses = s.clauses ++ ["ORDER BY " ++ target ++ " ASC"] := by
    simp [clauses, orderedBy, listClause, groupPositions, hordering, hlimit, joinWith_singleton, String.append_assoc]
  have hne : s.clauses.map String.toList ≠ [] := by
    simp [clauses]
  rw [text, toList_joinWith, hclauses, List.map_append, List.map_singleton, intercalate_concat hne, text,
    toList_joinWith]
  rfl

/-- Ordering a statement by time writes it in temporal order. -/
theorem temporalOrder_text (h : s.Readable inner) (hlimit : s.ordering = [] → s.limit = none) :
    temporalOrder c s.text (some (s.query c)) = (s.inTemporalOrder c).text := by
  have hquery : (s.query c).ordering = s.ordering := rfl
  rw [temporalOrder, Option.filter_some, hquery, inTemporalOrder]
  cases hordering : s.ordering with
  | cons o os => rfl
  | nil =>
    cases htarget : temporalTarget? c (s.query c) with
    | none => simp [htarget]
    | some target =>
      have hstart := clauseStart?_limit_eq_none h hordering (hlimit hordering)
      simp only [List.isEmpty_nil, if_true, htarget, Option.elim_some]
      rw [← String.toList_inj, toList_within, insertOrder, hstart, text_orderedBy hordering (hlimit hordering)]

theorem inTemporalOrder_eq_or (c : Catalog) (s : SelectStatement) : s.inTemporalOrder c = s ∨
    ∃ target, temporalTarget? c (s.query c) = some target ∧ s.inTemporalOrder c = s.orderedBy target := by
  rw [inTemporalOrder]
  split
  · cases htarget : temporalTarget? c (s.query c) with
    | none => exact Or.inl rfl
    | some target => exact Or.inr ⟨target, rfl, rfl⟩
  · exact Or.inl rfl

/-- The result columns are the same in temporal order. -/
theorem columns_inTemporalOrder (c : Catalog) (s : SelectStatement) :
    ((s.inTemporalOrder c).query c).dimensions = (s.query c).dimensions ∧
      ((s.inTemporalOrder c).query c).measures = (s.query c).measures := by
  have hitems : ((s.inTemporalOrder c).query c).items = (s.query c).items := by
    rcases inTemporalOrder_eq_or c s with heq | ⟨target, -, heq⟩
    · rw [heq]
    · rw [heq]
      rfl
  rw [Query.dimensions, Query.measures, hitems]
  exact ⟨rfl, rfl⟩

variable {items : List NamedItem}

/-- What a statement with named items is ordered by is the name of one. -/
theorem exists_quote_of_temporalTarget? (hs : s.items = items.map NamedItem.text)
    (hitems : ∀ i ∈ items, Sound inner i.expression.toList ∧ i.name ≠ "")
    (h : temporalTarget? c (s.query c) = some target) : ∃ i ∈ items, target = quote i.name := by
  obtain ⟨⟨item, n⟩, hfind, rfl⟩ := Option.map_eq_some_iff.mp h
  have hitem : item ∈ (s.query c).items := List.fst_mem_of_mem_zipIdx (List.mem_of_find?_eq_some hfind)
  obtain ⟨t, ht, rfl⟩ := List.mem_map.mp hitem
  rw [hs] at ht
  obtain ⟨i, hi, rfl⟩ := List.mem_map.mp ht
  refine ⟨i, hi, ?_⟩
  rw [NamedItem.read_text c (hitems i hi).1 (hitems i hi).2]
  exact if_neg (hitems i hi).2

/-- The parts can be told apart in temporal order as well. -/
theorem Readable.inTemporalOrder (h : s.Readable inner) (hs : s.items = items.map NamedItem.text)
    (hitems : ∀ i ∈ items, Sound inner i.expression.toList ∧ i.name ≠ "") :
    (s.inTemporalOrder c).Readable inner := by
  rcases inTemporalOrder_eq_or c s with heq | ⟨target, htarget, heq⟩
  · rwa [heq]
  · obtain ⟨i, -, rfl⟩ := exists_quote_of_temporalTarget? hs hitems htarget
    rw [heq]
    refine { h with ordering := List.forall_mem_singleton.mpr ?_ }
    rw [String.toList_append]
    exact OrderKey.listPart_direction (OrderKey.listPart_quote i.name) (w := "ASC") (by decide)

end text

section gate

open Safety

variable {inner : List Char → Prop} {c : Catalog} {s : SelectStatement} {items : List NamedItem}

/-- The parts are tame in temporal order as well. -/
theorem isTame_inTemporalOrder (h : IsTame s) (hs : s.items = items.map NamedItem.text)
    (hitems : ∀ i ∈ items, (Sound inner i.expression.toList ∧ i.name ≠ "") ∧ '\'' ∉ i.name.toList) :
    IsTame (s.inTemporalOrder c) := by
  rcases inTemporalOrder_eq_or c s with heq | ⟨target, htarget, heq⟩
  · rwa [heq]
  · obtain ⟨i, hi, rfl⟩ := exists_quote_of_temporalTarget? hs (fun i hi => (hitems i hi).1) htarget
    rw [heq]
    refine { h with ordering := List.forall_mem_singleton.mpr ?_ }
    rw [String.toList_append]
    exact (isEntry_quote (hitems i hi).2).direction (w := "ASC") (by decide)

end gate

end Sql.SelectStatement

/-! ## Vetting -/

namespace RunPlan

variable {inner : List Char → Prop} {p : RunPlan} {s : SelectStatement}

/-- A statement that can be ordered is ready in temporal order, with the query of that. -/
theorem order_text (h : s.Readable inner) (hordered : (s.inTemporalOrder p.catalog).Readable inner)
    (hlimit : s.ordering = [] → s.limit = none) (hnumbers : ∀ n ∈ s.limit, isWritable n)
    (hfault : orderFault? p.catalog (some (s.query p.catalog)) = none) :
    p.order s.text (some (s.query p.catalog)) =
      .ok (.ready (s.inTemporalOrder p.catalog).text (some ((s.inTemporalOrder p.catalog).query p.catalog))) := by
  have hlimit' : ∀ n ∈ (s.inTemporalOrder p.catalog).limit, isWritable n := by
    rcases SelectStatement.inTemporalOrder_eq_or p.catalog s with heq | ⟨target, -, heq⟩
    · rwa [heq]
    · rwa [heq]
  have hread := s.read?_text p.catalog h hnumbers
  have hread' := (s.inTemporalOrder p.catalog).read?_text p.catalog hordered hlimit'
  rw [order, hfault, SelectStatement.temporalOrder_text h hlimit]
  by_cases hsame : (s.inTemporalOrder p.catalog).text = s.text
  · rw [hsame, hread, Except.ok.injEq] at hread'
    simp only [hsame, ← hread']
    rfl
  · simp only [if_neg hsame, hread']
    rfl

/-- A valid statement is only ordered by time, whether the run validates or not. -/
theorem vet_text (h : s.Readable inner) (hnumbers : ∀ n ∈ s.limit, isWritable n)
    (hreview : review p.catalog s.text = .ok ⟨[], some (s.query p.catalog)⟩) :
    p.vet s.text = p.order s.text (some (s.query p.catalog)) := by
  rw [vet]
  by_cases hvalidates : p.validates
  · rw [if_pos hvalidates, hreview]
    rfl
  · rw [if_neg hvalidates, s.read?_text p.catalog h hnumbers]
    rfl

end RunPlan

end MetricLayer
