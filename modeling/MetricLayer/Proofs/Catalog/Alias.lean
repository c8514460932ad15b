import MetricLayer.Proofs.Text.Case
import MetricLayer.Catalog.Check

/-!
# Aliases of an accepted catalog

No two aliases of an accepted catalog agree but for letter case (`Accepted.pairwise_aliases`).  So an
alias stands for what declares it (`Accepted.entry?_aliasName`), and no alias of a dimension stands for a
measure (`Accepted.entry?_dimension`).  Sources are columns (`Accepted.isField_dimension`,
`Accepted.isField_aggregation`).
-/

namespace MetricLayer

open MetricLayer.Text

/-! ## Claims -/

/-- Every claim is free after earlier ones. -/
def FreeAfter : List Claim → List Claim → Prop
  | _, [] => True
  | earlier, c :: cs => c.problems earlier = [] ∧ FreeAfter (earlier ++ [c]) cs

theorem freeAfter_append {earlier cs ds : List Claim} :
    FreeAfter earlier (cs ++ ds) ↔ FreeAfter earlier cs ∧ FreeAfter (earlier ++ cs) ds := by
  induction cs generalizing earlier with
  | nil => simp [FreeAfter]
  | cons c cs ih => simp [FreeAfter, ih, and_assoc]

theorem Claim.problems_eq_nil_iff {earlier : List Claim} {c : Claim} :
    c.problems earlier = [] ↔ ∀ e ∈ earlier, sameLower e.name c.name = false := by
  rw [Claim.problems]
  cases h : earlier.find? fun e => sameLower e.name c.name with
  | none =>
    rw [List.find?_eq_none] at h
    simpa using h
  | some e =>
    have hmem := List.mem_of_find?_eq_some h
    have hsame := List.find?_some h
    constructor
    · intro hnil
      cases hnil
    · intro hall
      rw [hall e hmem] at hsame
      cases hsame

theorem FreeAfter.pairwise {earlier cs : List Claim} (h : FreeAfter earlier cs) :
    cs.Pairwise (fun a b => sameLower a.name b.name = false) ∧
      ∀ e ∈ earlier, ∀ c ∈ cs, sameLower e.name c.name = false := by
  induction cs generalizing earlier with
  | nil => exact ⟨List.Pairwise.nil, nofun⟩
  | cons c cs ih =>
    obtain ⟨hc, hcs⟩ := h
    obtain ⟨hpairwise, hcross⟩ := ih hcs
    rw [Claim.problems_eq_nil_iff] at hc
    refine ⟨List.Pairwise.cons (hcross c (by simp)) hpairwise, fun e he d hd => ?_⟩
    rcases List.mem_cons.mp hd with rfl | hd
    · exact hc e he
    · exact hcross e (List.mem_append_left _ he) d hd

/-! ## Problems -/

theorem dimensionProblems_eq_nil_iff {c : Catalog} {earlier : List Claim} {ds : List Dimension} :
    dimensionProblems c earlier ds = [] ↔
      FreeAfter earlier (ds.map Dimension.claim) ∧ ∀ d ∈ ds, d.sourceProblems c = [] := by
  induction ds generalizing earlier with
  | nil => exact iff_of_true rfl ⟨trivial, nofun⟩
  | cons d ds ih =>
    rw [dimensionProblems, List.append_eq_nil_iff, List.append_eq_nil_iff, ih, List.map_cons, FreeAfter,
      List.forall_mem_cons]
    exact and_and_and_comm

/-- The problems of an entry that is an aggregation. -/
def Entry.aggregationProblems (c : Catalog) : Entry → List Problem
  | .aggregation a => a.problems c
  | .formula _ => []

theorem entryProblems_cons (c : Catalog) (earlier : List Claim) (e : Entry) (es : List Entry) :
    entryProblems c earlier (e :: es) = e.claim.problems earlier ++ e.aggregationProblems c ++
      entryProblems c (earlier ++ [e.claim]) es := by
  cases e <;> rfl

theorem entryProblems_eq_nil_iff {c : Catalog} {earlier : List Claim} {es : List Entry} :
    entryProblems c earlier es = [] ↔
      FreeAfter earlier (es.map Entry.claim) ∧ ∀ e ∈ es, e.aggregationProblems c = [] := by
  induction es generalizing earlier with
  | nil => exact iff_of_true rfl ⟨trivial, nofun⟩
  | cons e es ih =>
    rw [entryProblems_cons, List.append_eq_nil_iff, List.append_eq_nil_iff, ih, List.map_cons, FreeAfter, List.forall_mem_cons]
    exact and_and_and_comm

theorem measureProblems_eq_nil_iff {c : Catalog} {earlier : List Claim} {ms : List Measure} :
    measureProblems c earlier ms = [] ↔
      FreeAfter earlier ((ms.flatMap Measure.entries).map Entry.claim) ∧
        ∀ e ∈ ms.flatMap Measure.entries, e.aggregationProblems c = [] ∧ e.formatProblems = [] := by
  induction ms generalizing earlier with
  | nil => exact iff_of_true rfl ⟨trivial, nofun⟩
  | cons m ms ih =>
    rw [measureProblems, List.append_eq_nil_iff, List.append_eq_nil_iff, ih, entryProblems_eq_nil_iff,
      List.flatMap_eq_nil_iff, and_assoc (a := FreeAfter _ _), ← forall₂_and, List.flatMap_cons, List.map_append,
      freeAfter_append, List.forall_mem_append]
    exact and_and_and_comm

/-! ## Looking aliases up -/

section lookup

variable {α : Type} {aliasOf : α → String} {items : List α} {name : String} {a : α}

theorem of_findAlias?_eq_some (h : findAlias? aliasOf items name = some a) :
    a ∈ items ∧ lower (aliasOf a).toList = lower name.toList := by
  rw [findAlias?] at h
  cases hexact : items.find? fun a => aliasOf a == name with
  | some b =>
    rw [hexact] at h
    obtain rfl : b = a := Option.some.inj h
    have hname : (aliasOf b == name) = true := List.find?_some (p := fun a => aliasOf a == name) hexact
    exact ⟨List.mem_of_find?_eq_some hexact, by rw [beq_iff_eq.mp hname]⟩
  | none =>
    rw [hexact] at h
    have hsame : sameLower (aliasOf a) name = true :=
      List.find?_some (p := fun a => sameLower (aliasOf a) name) h
    exact ⟨List.mem_of_find?_eq_some h, sameLower_iff.mp hsame⟩

/-- Among aliases that differ in more than letter case, each stands for its own item. -/
theorem findAlias?_eq_some (h : items.Pairwise fun a b => sameLower (aliasOf a) (aliasOf b) = false)
    (ha : a ∈ items) : findAlias? aliasOf items (aliasOf a) = some a := by
  have hfind : items.find? (fun b => aliasOf b == aliasOf a) = some a := by
    induction items with
    | nil => cases ha
    | cons b items ih =>
      obtain ⟨hb, hitems⟩ := List.pairwise_cons.mp h
      rcases List.mem_cons.mp ha with rfl | ha
      · exact List.find?_cons_of_pos (beq_self_eq_true (aliasOf a))
      · rw [List.find?_cons_of_neg, ih hitems ha]
        intro hab
        have hsame := hb a ha
        rw [beq_iff_eq.mp hab, ← Bool.not_eq_true, sameLower_iff] at hsame
        exact hsame rfl
  rw [findAlias?, hfind]
  rfl

theorem findAlias?_eq_none (h : ∀ b ∈ items, sameLower (aliasOf b) name = false) :
    findAlias? aliasOf items name = none := by
  cases hfind : findAlias? aliasOf items name with
  | none => rfl
  | some b =>
    obtain ⟨hb, hsame⟩ := of_findAlias?_eq_some hfind
    have := h b hb
    rw [← Bool.not_eq_true, sameLower_iff] at this
    exact absurd hsame this

theorem firstByAlias_sublist (aliasOf : α → String) (items : List α) :
    (firstByAlias aliasOf items).Sublist items := by
  induction items with
  | nil => exact List.Sublist.refl []
  | cons a items ih =>
    rw [firstByAlias]
    exact (List.filter_sublist.trans ih).cons_cons a

theorem mem_of_mem_firstByAlias (h : a ∈ firstByAlias aliasOf items) : a ∈ items :=
  (firstByAlias_sublist aliasOf items).mem h

end lookup

/-! ## Accepted catalogs -/

namespace Catalog

variable {c : Catalog}

theorem Accepted.freeAfter (h : c.Accepted) :
    FreeAfter [] (c.dimensions.map Dimension.claim ++ c.entries.map Entry.claim) := by
  rw [Accepted, problems, List.append_eq_nil_iff, List.append_eq_nil_iff] at h
  rw [freeAfter_append]
  exact ⟨(dimensionProblems_eq_nil_iff.mp h.1.2).1, (measureProblems_eq_nil_iff.mp h.2).1⟩

theorem map_name_claims : (c.dimensions.map Dimension.claim ++ c.entries.map Entry.claim).map Claim.name =
    c.dimensions.map Dimension.aliasName ++ c.entries.map Entry.aliasName := by
  rw [List.map_append, List.map_map, List.map_map]
  congr 1
  apply List.map_congr_left
  intro e _
  cases e <;> rfl

theorem Accepted.pairwise_aliases (h : c.Accepted) :
    (c.dimensions.map Dimension.aliasName ++ c.entries.map Entry.aliasName).Pairwise
      fun a b => sameLower a b = false := by
  rw [← map_name_claims]
  exact h.freeAfter.pairwise.1.map _ fun _ _ => id

theorem Accepted.entry?_aliasName (h : c.Accepted) {e : Entry} (he : e ∈ c.entries) :
    c.entry? e.aliasName = some e := by
  have hentries := (List.pairwise_append.mp h.pairwise_aliases).2.1
  exact findAlias?_eq_some (List.pairwise_map.mp hentries) he

theorem Accepted.dimension?_aliasName (h : c.Accepted) {d : Dimension} (hd : d ∈ c.dimensions) :
    c.dimension? d.aliasName = some d := by
  have hdimensions := (List.pairwise_append.mp h.pairwise_aliases).1
  exact findAlias?_eq_some (List.pairwise_map.mp hdimensions) hd

theorem Accepted.entry?_dimension (h : c.Accepted) {d : Dimension} (hd : d ∈ c.dimensions) :
    c.entry? d.aliasName = none := by
  have hcross := (List.pairwise_append.mp h.pairwise_aliases).2.2
  apply findAlias?_eq_none
  intro e he
  have hsame := hcross d.aliasName (List.mem_map_of_mem hd) e.aliasName (List.mem_map_of_mem he)
  rw [← Bool.not_eq_true, sameLower_iff] at hsame ⊢
  exact fun heq => hsame heq.symm

theorem Accepted.isField_dimension (h : c.Accepted) {d : Dimension} (hd : d ∈ c.dimensions)
    (hsource : d.transformation = none) : c.isField d.source := by
  rw [Accepted, problems, List.append_eq_nil_iff, List.append_eq_nil_iff] at h
  have hproblems := (dimensionProblems_eq_nil_iff.mp h.1.2).2 d hd
  rw [Dimension.sourceProblems, hsource] at hproblems
  by_contra hfield
  rw [Bool.not_eq_true] at hfield
  rw [hfield] at hproblems
  cases hproblems

/-- An aggregation uses a known function: COUNT over the rows, or any over a column. -/
theorem Accepted.aggregation (h : c.Accepted) {a : Aggregation} (ha : .aggregation a ∈ c.entries) :
    a.function ∈ aggregateFunctions ∧
      if a.source = rowSource then a.function = "count" else c.isField a.source := by
  rw [Accepted, problems, List.append_eq_nil_iff] at h
  have hproblems : a.problems c = [] := ((measureProblems_eq_nil_iff.mp h.2).2 _ ha).1
  rw [Aggregation.problems, List.append_eq_nil_iff, List.append_eq_nil_iff] at hproblems
  obtain ⟨⟨hfunction, hsource⟩, hrows⟩ := hproblems
  constructor
  · by_contra hunknown
    rw [if_neg (by rwa [List.contains_iff_mem])] at hfunction
    cases hfunction
  · split
    next hrow =>
      by_contra hcount
      simp [hrow, hcount] at hrows
    next hrow =>
      by_contra hfield
      simp [hrow, hfield] at hsource

end Catalog

end MetricLayer
