import MetricLayer.Generation.Plan
import MetricLayer.Proofs.Catalog.Lookup
import MetricLayer.Proofs.Text.Numeral

/-!
# What a plan selects

A plan names aliases as the catalog writes them, at least one of a measure, and has no filters.  It orders by
its first measure and limits the rows, or does neither (`Plan.planned_of_ofRequest`).
-/

namespace MetricLayer

open MetricLayer.Text

namespace Plan

variable {c : Catalog} {text : List Char} {request : String} {s : Selection}

/-- A selection as a plan makes it, for a catalog with tidy aliases. -/
structure Planned (c : Catalog) (s : Selection) : Prop where
  dimensions : ∀ n ∈ s.dimensions, ∃ d ∈ c.dimensions, d.aliasName = n
  measures : ∀ n ∈ s.measures, ∃ e ∈ c.entries, e.aliasName = n
  measures_ne_nil : s.measures ≠ []
  fewDimensions : s.dimensions.length ≤ c.dimensions.length
  filters : s.filters = []
  ordering : s.ordering = [] ∧ s.limit = none ∨
    ∃ m ∈ s.measures, ∃ n, s.ordering = [.text (m ++ " DESC")] ∧ s.limit = some n ∧ isWritable n

/-! ## Mentions -/

theorem mem_ordered {mentions : List Mention} {n : String} :
    n ∈ ordered mentions ↔ ∃ m ∈ mentions, m.name = n := by
  rw [ordered, List.mem_map]
  simp only [List.mem_mergeSort]

theorem length_ordered (mentions : List Mention) : (ordered mentions).length = mentions.length := by
  rw [ordered, List.length_map, List.length_mergeSort]

theorem exists_of_mem_dimensionMentions {m : Mention} (h : m ∈ dimensionMentions c text) :
    ∃ d ∈ c.dimensions, d.aliasName = m.name := by
  obtain ⟨d, hd, hm⟩ := List.mem_filterMap.mp h
  obtain ⟨offset, -, rfl⟩ := Option.map_eq_some_iff.mp hm
  exact ⟨d, mem_of_mem_firstByAlias hd, rfl⟩

theorem length_dimensionMentions_le : (dimensionMentions c text).length ≤ c.dimensions.length :=
  (List.length_filterMap_le ..).trans (firstByAlias_sublist ..).length_le

theorem exists_of_mem_sourceMentions {known : List String} {m : Mention}
    (h : m ∈ sourceMentions c text known) : ∃ e ∈ c.entries, e.aliasName = m.name := by
  obtain ⟨measure, hmeasure, hm⟩ := List.mem_filterMap.mp h
  split at hm
  next => cases hm
  next =>
    obtain ⟨e, he, hm⟩ := Option.bind_eq_some_iff.mp hm
    obtain ⟨offset, -, rfl⟩ := Option.map_eq_some_iff.mp hm
    exact ⟨e, List.mem_flatMap.mpr ⟨measure, hmeasure, List.mem_of_head? he⟩, rfl⟩

theorem exists_of_mem_measureMentions {m : Mention} (h : m ∈ measureMentions c text) :
    ∃ e ∈ c.entries, e.aliasName = m.name := by
  rcases List.mem_append.mp h with h | h
  · obtain ⟨⟨m', e⟩, hmem, rfl⟩ := List.mem_map.mp h
    obtain ⟨e', he', hm⟩ := List.mem_filterMap.mp hmem
    obtain ⟨offset, -, heq⟩ := Option.map_eq_some_iff.mp hm
    cases heq
    exact ⟨e, mem_of_mem_firstByAlias he', rfl⟩
  · exact exists_of_mem_sourceMentions h

/-! ## Plans -/

theorem trimAliases_eq_self {names : List String} (h : ∀ n ∈ names, Trimmed n.toList ∧ n ≠ "") :
    Selection.trimAliases names = names := by
  have hmap : names.map (within trim) = names := by
    refine (List.map_congr_left fun n hn => ?_).trans names.map_id
    rw [within, trim_eq_self (h n hn).1, String.ofList_toList, id]
  rw [Selection.trimAliases, hmap, List.filter_eq_self]
  exact fun n hn => bne_iff_ne.mpr (h n hn).2

theorem isWritable_of_top? {n : Nat} (h : top? request = .ok (some n)) : isWritable n := by
  rw [top?] at h
  split at h
  next => cases h
  next digits _ =>
    cases hdigits : natural digits with
    | error f =>
      rw [hdigits] at h
      cases h
    | ok m =>
      rw [hdigits] at h
      cases h
      exact isWritable_of_natural hdigits

/-- The measures of a plan: those that are mentioned, or else the first of the catalog. -/
def measuresOf (c : Catalog) (text : List Char) : List String :=
  match ordered (measureMentions c text) with
  | [] => c.measureAliases.take 1
  | m :: ms => m :: ms

theorem exists_of_mem_measuresOf {n : String} (h : n ∈ measuresOf c text) :
    ∃ e ∈ c.entries, e.aliasName = n := by
  rw [measuresOf] at h
  split at h
  next =>
    obtain ⟨e, he, rfl⟩ := List.mem_map.mp (List.mem_of_mem_take h)
    exact ⟨e, mem_of_mem_firstByAlias he, rfl⟩
  next hordered =>
    rw [← hordered, mem_ordered] at h
    obtain ⟨m, hm, rfl⟩ := h
    exact exists_of_mem_measureMentions hm

/-- The selection of a plan. -/
def selectionOf (c : Catalog) (text : List Char) (limit : Option Nat) : Selection where
  dimensions := Selection.trimAliases (ordered (dimensionMentions c text))
  measures := Selection.trimAliases (measuresOf c text)
  ordering := if limit.isSome then ((measuresOf c text).take 1).map fun m => .text (m ++ " DESC") else []
  limit

theorem ordered_eq_nil_iff {mentions : List Mention} : ordered mentions = [] ↔ mentions = [] := by
  rw [← List.length_eq_zero_iff, length_ordered, List.length_eq_zero_iff]

/-- A request that mentions nothing has no plan; any other one needs a measure and a number of rows. -/
theorem ofRequest_eq (c : Catalog) (request : String) :
    ofRequest c request =
      if dimensionMentions c (lower request.toList) = [] ∧ measureMentions c (lower request.toList) = [] then
        .ok none
      else if measuresOf c (lower request.toList) = [] then .error .noMeasure
      else ((top? request).mapError Fault.numeralTooLong).bind fun limit =>
        if limit = some 0 then .error .limitZero
        else .ok (some (selectionOf c (lower request.toList) limit)) := by
  have hnone : (ordered (dimensionMentions c (lower request.toList))).isEmpty &&
      (ordered (measureMentions c (lower request.toList))).isEmpty ↔
        dimensionMentions c (lower request.toList) = [] ∧ measureMentions c (lower request.toList) = [] := by
    rw [Bool.and_eq_true, List.isEmpty_iff, List.isEmpty_iff, ordered_eq_nil_iff, ordered_eq_nil_iff]
  rw [ofRequest]
  simp only [bind, pure, Except.pure, hnone]
  by_cases hmentions :
      dimensionMentions c (lower request.toList) = [] ∧ measureMentions c (lower request.toList) = []
  · rw [if_pos hmentions, if_pos hmentions]
  rw [if_neg hmentions, if_neg hmentions]
  cases hmeasures : ordered (measureMentions c (lower request.toList)) with
  | cons m ms =>
    have hnamed : measuresOf c (lower request.toList) = m :: ms := by
      rw [measuresOf, hmeasures]
    simp only [selectionOf, hnamed, if_neg (List.cons_ne_nil m ms)]
    rfl
  | nil =>
    cases haliases : c.measureAliases with
    | nil =>
      have hnamed : measuresOf c (lower request.toList) = [] := by
        rw [measuresOf, hmeasures, haliases]
        rfl
      rw [if_pos hnamed]
      rfl
    | cons name names =>
      have hnamed : measuresOf c (lower request.toList) = [name] := by
        rw [measuresOf, hmeasures, haliases]
        rfl
      simp only [selectionOf, hnamed, if_neg (List.cons_ne_nil name [])]
      rfl

/-- A planned request has measures, and its selection is that of the number of top rows. -/
theorem of_ofRequest (h : ofRequest c request = .ok (some s)) :
    measuresOf c (lower request.toList) ≠ [] ∧
      ∃ limit, top? request = .ok limit ∧ s = selectionOf c (lower request.toList) limit := by
  rw [ofRequest_eq] at h
  split_ifs at h with hmentions hmeasures
  · cases h
  refine ⟨hmeasures, ?_⟩
  cases htop : top? request with
  | error f =>
    rw [htop] at h
    cases h
  | ok limit =>
    simp only [htop, Except.mapError, Except.bind] at h
    split_ifs at h
    cases h
    exact ⟨limit, rfl, rfl⟩

theorem exists_of_mem_ordered_dimensionMentions {n : String} (h : n ∈ ordered (dimensionMentions c text)) :
    ∃ d ∈ c.dimensions, d.aliasName = n := by
  obtain ⟨m, hm, rfl⟩ := mem_ordered.mp h
  exact exists_of_mem_dimensionMentions hm

/-- With tidy aliases a plan selects them as they are. -/
theorem selectionOf_eq (haliases : ∀ n ∈ c.declaredAliases, Trimmed n.toList ∧ n ≠ "") (text : List Char)
    (limit : Option Nat) :
    (selectionOf c text limit).dimensions = ordered (dimensionMentions c text) ∧
      (selectionOf c text limit).measures = measuresOf c text := by
  constructor
  · refine trimAliases_eq_self fun n hn => ?_
    obtain ⟨d, hd, rfl⟩ := exists_of_mem_ordered_dimensionMentions hn
    exact haliases _ (List.mem_append_left _ (List.mem_map_of_mem hd))
  · refine trimAliases_eq_self fun n hn => ?_
    obtain ⟨e, he, rfl⟩ := exists_of_mem_measuresOf hn
    exact haliases _ (List.mem_append_right _ (List.mem_map_of_mem he))

/-- A plan orders by its first measure and limits the rows, or does neither. -/
theorem ordering_selectionOf (hne : measuresOf c text ≠ []) (limit : Option Nat) :
    (selectionOf c text limit).ordering = [] ∧ limit = none ∨
      ∃ m ms n, measuresOf c text = m :: ms ∧
        (selectionOf c text limit).ordering = [.text (m ++ " DESC")] ∧ limit = some n := by
  cases limit with
  | none => exact .inl ⟨rfl, rfl⟩
  | some n =>
    obtain ⟨m, ms, hms⟩ := List.exists_cons_of_ne_nil hne
    refine .inr ⟨m, ms, n, hms, ?_, rfl⟩
    rw [selectionOf, hms]
    rfl

theorem planned_of_ofRequest (haliases : ∀ n ∈ c.declaredAliases, Trimmed n.toList ∧ n ≠ "")
    (h : ofRequest c request = .ok (some s)) : Planned c s := by
  obtain ⟨hne, limit, htop, rfl⟩ := of_ofRequest h
  obtain ⟨hdimensions, hmeasures⟩ := selectionOf_eq haliases (lower request.toList) limit
  constructor
  · rw [hdimensions]
    exact fun n hn => exists_of_mem_ordered_dimensionMentions hn
  · rw [hmeasures]
    exact fun n hn => exists_of_mem_measuresOf hn
  · rw [hmeasures]
    exact hne
  · rw [hdimensions, length_ordered]
    exact length_dimensionMentions_le
  · rfl
  · refine (ordering_selectionOf hne limit).imp_right ?_
    rintro ⟨m, ms, n, hms, hordering, rfl⟩
    refine ⟨m, ?_, n, hordering, rfl, isWritable_of_top? htop⟩
    rw [hmeasures, hms]
    exact List.mem_cons_self

end Plan

end MetricLayer
