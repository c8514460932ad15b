import MetricLayer.Catalog.Bundled
import MetricLayer.Chart.Classification
import MetricLayer.Proofs.Chart.Category
import MetricLayer.Proofs.Value.Entry

/-!
# What a classification advises

A classification advises by the categories of the names alone (`Classification.advice_of`), and counts them in no
order (`Advice.ofCategories_perm`).  So names in another order and letter case get the same advice
(`Classification.advice_restyled`).
-/

namespace MetricLayer

open MetricLayer.Text

/-! ## Names in another order and letter case -/

/-- ASCII names in another order, each in another letter case. -/
def Restyled (names names' : List String) : Prop :=
  ∃ ordered, names.Perm ordered ∧ List.Forall₂ Respelled ordered names'

section restyled

variable {α : Type} {f : String → α} {names names' : List String}

theorem Restyled.perm_map (h : Restyled names names') (hf : ∀ {s t}, Respelled s t → f s = f t) :
    (names.map f).Perm (names'.map f) := by
  obtain ⟨ordered, hperm, hcase⟩ := h
  have hsame : ordered.map f = names'.map f := by
    clear hperm
    induction hcase with
    | nil => rfl
    | cons hname _ ih => rw [List.map_cons, List.map_cons, hf hname, ih]
  exact hsame ▸ hperm.map f

theorem pairwise_sameLower_iff : names.Pairwise (fun s t => sameLower s t = false) ↔
    (names.map fun s => lower s.toList).Nodup := by
  rw [List.Nodup, List.pairwise_map]
  simp only [ne_eq, ← sameLower_iff, Bool.not_eq_true]

theorem Restyled.pairwise (h : Restyled names names') (hnames : names.Pairwise fun s t => sameLower s t = false) :
    names'.Pairwise fun s t => sameLower s t = false := by
  rw [pairwise_sameLower_iff] at hnames ⊢
  exact (h.perm_map Respelled.same).nodup_iff.mp hnames

end restyled

/-! ## Advice -/

/-- What a classification says of a result, apart from its names: what the result shows, the kinds of charts that
suit it with their ranks and reasons, what to beware of and what else to try. -/
structure Advice where
  archetype : Archetype
  charts : List (ChartKind × Nat × String)
  warnings : List String
  suggestions : List String
deriving Repr, DecidableEq

/-- The advice for names of these categories. -/
def Advice.ofCategories (dimensions : List DimensionCategory) (measures : List MeasureCategory) : Advice :=
  let archetype := Archetype.of dimensions measures
  { archetype
    charts := archetype.charts.zipIdx.map fun (chart, n) => (chart.1, n + 1, chart.2)
    warnings := Classification.warningsFor dimensions.length measures.length measures
    suggestions := Classification.suggestionsFor archetype dimensions.length dimensions measures }

variable {ds ds' : List DimensionCategory} {ms ms' : List MeasureCategory}

theorem Archetype.of_perm (hd : ds.Perm ds') (hm : ms.Perm ms') : Archetype.of ds ms = Archetype.of ds' ms' := by
  simp only [Archetype.of, hd.isEmpty_eq, hd.contains_eq, hd.length_eq, hm.contains_eq, hm.length_eq]

theorem Advice.ofCategories_perm (hd : ds.Perm ds') (hm : ms.Perm ms') :
    Advice.ofCategories ds ms = Advice.ofCategories ds' ms' := by
  simp only [ofCategories, Archetype.of_perm hd hm, Classification.warningsFor, Classification.suggestionsFor,
    hd.contains_eq, hd.length_eq, hm.contains_eq, hm.length_eq, hm.any_eq]

namespace Classification

/-- What a classification advises. -/
def advice (v : Classification) : Advice where
  archetype := v.archetype
  charts := v.recommendations.map fun r => (r.kind, r.priority, r.reason)
  warnings := v.warnings
  suggestions := v.suggestions

variable {c : Option Catalog} {dimensions dimensions' measures measures' : List String}

/-- Distinct names keep their categories one by one. -/
theorem categories_mergeEntries {α : Type} {names : List String} (f : String → α) (h : names.Nodup) :
    (mergeEntries (names.map fun name => (name, f name))).map (·.2) = names.map f := by
  have hkeys : (names.map fun name => (name, f name)).map Prod.fst = names := by
    rw [List.map_map]
    exact List.map_id _
  rw [mergeEntries_eq_self (by rwa [hkeys]), List.map_map]
  rfl

theorem advice_of (c : Option Catalog) (hd : dimensions.Nodup) (hm : measures.Nodup) :
    (of c dimensions measures).advice =
      Advice.ofCategories (dimensions.map (dimensionCategory c)) (measures.map measureCategory) := by
  have hd := categories_mergeEntries (dimensionCategory c) hd
  have hm := categories_mergeEntries measureCategory hm
  have hlength := congrArg List.length hm
  rw [List.length_map, List.length_map] at hlength
  simp only [advice, of, hd, hm, hlength, recommendationsFor, recommendation, Advice.ofCategories, List.map_map,
    List.length_map, Function.comp_def]

theorem exists_of?_iff : (∃ v, of? c dimensions measures = .ok v) ↔ ∀ d ∈ dimensions, categoryFault? c d = none := by
  rw [← List.findSome?_eq_none_iff, of?]
  cases dimensions.findSome? (categoryFault? c) with
  | none => simp
  | some f => simp

theorem of?_eq (h : ∀ d ∈ dimensions, categoryFault? c d = none) :
    of? c dimensions measures = .ok (of c dimensions measures) := by
  rw [of?, List.findSome?_eq_none_iff.mpr h]

theorem toOption_of?_eq_none (h : ¬ ∀ d ∈ dimensions, categoryFault? c d = none) :
    (of? c dimensions measures).toOption = none := by
  cases hof : of? c dimensions measures with
  | error f => rfl
  | ok v => exact absurd (exists_of?_iff.mp ⟨v, hof⟩) h

theorem faultless_iff_of_restyled (hc : ∀ k ∈ c, k.Accepted) (h : Restyled dimensions dimensions') :
    (∀ d ∈ dimensions', categoryFault? c d = none) ↔ ∀ d ∈ dimensions, categoryFault? c d = none := by
  have hperm := h.perm_map (f := categoryFault? c) (categoryFault?_eq hc)
  calc (∀ d ∈ dimensions', categoryFault? c d = none)
    _ ↔ ∀ fault ∈ dimensions'.map (categoryFault? c), fault = none := by rw [List.forall_mem_map]
    _ ↔ ∀ fault ∈ dimensions.map (categoryFault? c), fault = none := by simp only [hperm.mem_iff]
    _ ↔ ∀ d ∈ dimensions, categoryFault? c d = none := by rw [List.forall_mem_map]

theorem advice_of_restyled (hc : ∀ k ∈ c, k.Accepted) (hd : Restyled dimensions dimensions')
    (hm : Restyled measures measures') (hdimensions : dimensions.Pairwise fun s t => sameLower s t = false)
    (hmeasures : measures.Pairwise fun s t => sameLower s t = false) :
    (of c dimensions' measures').advice = (of c dimensions measures).advice := by
  rw [advice_of c (Catalog.nodup_of_pairwise hdimensions) (Catalog.nodup_of_pairwise hmeasures),
    advice_of c (Catalog.nodup_of_pairwise (hd.pairwise hdimensions))
      (Catalog.nodup_of_pairwise (hm.pairwise hmeasures))]
  exact (Advice.ofCategories_perm (hd.perm_map (dimensionCategory_eq hc)) (hm.perm_map measureCategory_eq)).symm

/-- **What a classification advises depends neither on the order nor on the letter case of the names**: with an
accepted catalog or none, names of which no two agree but for letter case get the same advice in another order and
in another letter case.  There is a classification unless the sort directive of a dimension that is not temporal is
no text. -/
theorem advice_restyled (c : Option Catalog) (dimensions dimensions' measures measures' : List String)
    (hc : ∀ k ∈ c, k.Accepted) (hd : Restyled dimensions dimensions') (hm : Restyled measures measures')
    (hdimensions : dimensions.Pairwise fun s t => sameLower s t = false)
    (hmeasures : measures.Pairwise fun s t => sameLower s t = false) :
    ((∃ v, of? c dimensions measures = .ok v) ↔ ∀ d ∈ dimensions, categoryFault? c d = none) ∧
      (of? c dimensions' measures').toOption.map advice = (of? c dimensions measures).toOption.map advice := by
  refine ⟨exists_of?_iff, ?_⟩
  have hfaultless := faultless_iff_of_restyled hc hd
  by_cases h : ∀ d ∈ dimensions, categoryFault? c d = none
  · rw [of?_eq h, of?_eq (hfaultless.mpr h)]
    exact congrArg some (advice_of_restyled hc hd hm hdimensions hmeasures)
  · rw [toOption_of?_eq_none h, toOption_of?_eq_none fun h' => h (hfaultless.mp h')]

theorem advice_restyled_sessions :
    let dimensions := ["Country", "Lifecycle Stage"]
    let measures := ["session_count", "trial_signup_rate"]
    sessionsCatalog.Accepted ∧ Restyled dimensions ["LIFECYCLE stage", "country"] ∧
      Restyled measures ["Trial_Signup_RATE", "Session_Count"] ∧
      ((of? (some sessionsCatalog) dimensions measures).toOption.map advice).any (·.archetype = .funnel) ∧
      (of? (some sessionsCatalog) ["LIFECYCLE stage", "country"] ["Trial_Signup_RATE", "Session_Count"]).toOption.map
        advice = (of? (some sessionsCatalog) dimensions measures).toOption.map advice := by
  have haccepted : ∀ k ∈ some sessionsCatalog, k.Accepted := by
    rintro _ ⟨⟩
    exact accepted_sessionsCatalog
  have hd : Restyled ["Country", "Lifecycle Stage"] ["LIFECYCLE stage", "country"] :=
    ⟨["Lifecycle Stage", "Country"], .swap .., .cons ⟨by decide, by decide, by decide +kernel⟩
      (.cons ⟨by decide, by decide, by decide +kernel⟩ .nil)⟩
  have hm : Restyled ["session_count", "trial_signup_rate"] ["Trial_Signup_RATE", "Session_Count"] :=
    ⟨["trial_signup_rate", "session_count"], .swap .., .cons ⟨by decide, by decide, by decide +kernel⟩
      (.cons ⟨by decide, by decide, by decide +kernel⟩ .nil)⟩
  have hadvice := advice_restyled (some sessionsCatalog) _ _ _ _ haccepted hd hm (by decide +kernel)
    (by decide +kernel)
  exact ⟨haccepted _ rfl, hd, hm, by decide +kernel, hadvice.2⟩

end Classification

end MetricLayer
