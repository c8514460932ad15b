import MetricLayer.Proofs.Review.Item
import MetricLayer.Proofs.Review.Statement
import MetricLayer.Proofs.Selection.Statement

/-!
# The review of a selection

The statement of an admissible selection is valid: the items that a catalog writes have no findings in its
own review, whatever its names are (`itemFindings_chosenItems`).
-/

namespace MetricLayer

open MetricLayer.Text MetricLayer.Sql MetricLayer.Review

namespace Selection

variable {c : Catalog} {s : Selection}

theorem length_filterMap_of_isSome {α β : Type} {r : α → Option β} {names : List α}
    (h : ∀ n ∈ names, (r n).isSome) : (names.filterMap r).length = names.length := by
  induction names with
  | nil => rfl
  | cons n names ih =>
    obtain ⟨a, ha⟩ := Option.isSome_iff_exists.mp (h n List.mem_cons_self)
    rw [List.filterMap_cons_some ha, List.length_cons, List.length_cons,
      ih fun m hm => h m (List.mem_cons_of_mem n hm)]

/-- Every group of the statement is one of its items. -/
theorem groups_le_items (hresolves : s.Resolves c) :
    (s.compiled c).groups ≤ (s.compiled c).items.length := by
  have hdimensions : (s.chosenDimensions c).length = s.dimensions.length :=
    length_filterMap_of_isSome hresolves.1
  rw [compiled, List.length_map, chosenItems, List.length_append, List.length_map, hdimensions]
  exact Nat.le_add_right _ _

/-- The items that an accepted catalog writes have no findings, when its raw SQL has none. -/
theorem itemFindings_eq_nil (haccepted : c.Accepted)
    (hraw : ∀ sql ∈ c.transformations ++ c.formulas, WellFormed sql.toList ∧ AggregatesColumns c sql) :
    ∀ i ∈ s.chosenItems c, itemFindings c i.expression.toList (some i.name) = [] := by
  have hfragments : c.HasFragments fun _ => True := fun sql hsql => ⟨(hraw sql hsql).1, trivial⟩
  intro i hi
  rcases List.mem_append.mp hi with hi | hi
  · obtain ⟨d, hd, rfl⟩ := List.mem_map.mp hi
    have hmem := (of_mem_chosenDimensions hd).1
    exact itemFindings_dimensionSql haccepted hmem fun t ht =>
      hraw _ (List.mem_append_left _ (Catalog.mem_transformations hmem ht))
  · obtain ⟨e, he, rfl⟩ := List.mem_map.mp hi
    have hmem := (of_mem_chosenEntries he).1
    obtain ⟨expression, hsql, -⟩ := exists_entrySql_of_chosen (fun _ _ => trivial) haccepted hfragments he
    rw [itemOfEntry, hsql]
    exact itemFindings_entrySql haccepted hmem
      (fun f hf => hraw _ (List.mem_append_right _ (Catalog.mem_formulas (hf ▸ hmem)))) expression hsql

/-- The items are read off the statement without findings. -/
theorem itemFindings_read {inner : List Char → Prop}
    (hitems : ∀ i ∈ s.chosenItems c, Sound inner i.expression.toList ∧ i.name ≠ "")
    (hfindings : ∀ i ∈ s.chosenItems c, itemFindings c i.expression.toList (some i.name) = []) :
    ∀ t ∈ (s.compiled c).items, itemFindings c (SelectItem.read c t.toList).expression.toList
      (SelectItem.read c t.toList).aliasName = [] := by
  intro t ht
  obtain ⟨i, hi, rfl⟩ := List.mem_map.mp ht
  rw [NamedItem.read_text c (hitems i hi).1 (hitems i hi).2]
  exact hfindings i hi

theorem faultless_sessionsCatalog :
    ∀ sql ∈ sessionsCatalog.transformations ++ sessionsCatalog.formulas, Faultless sessionsCatalog sql := by
  have hfixed : ∀ sql ∈ sessionsCatalog.transformations ++ sessionsCatalog.formulas,
      (∀ f ∈ foreignFunctions, f.isCalled (mask sql.toList) = false) ∧ AggregatesColumns sessionsCatalog sql := by
    decide +kernel
  intro sql hsql
  exact ⟨wellFormed_sessionsCatalog sql hsql, (hfixed sql hsql).1, (hfixed sql hsql).2⟩

end Selection

end MetricLayer
