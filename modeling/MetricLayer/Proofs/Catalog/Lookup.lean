import Mathlib.Data.List.Pairwise
import MetricLayer.Catalog.Bundled
import MetricLayer.Proofs.Catalog.Alias

/-!
# What an alias stands for

The checks of a catalog name a duplicate alias exactly when two of its aliases agree but for letter case,
and when they do not, the look-ups are unambiguous, whatever else is wrong with the catalog
(`Catalog.reportsDuplicate_iff_and_unambiguous`).
-/

namespace MetricLayer

open MetricLayer.Text

/-! ## Problems that name a duplicate -/

/-- How the message about a duplicate alias starts. -/
def duplicateHead : String := "Duplicate alias '"

/-- The problem is an alias that was declared before. -/
def Problem.isDuplicate : Problem → Bool
  | .duplicateAlias .. => true
  | _ => false

theorem Problem.isDuplicate_iff (p : Problem) :
    p.isDuplicate = true ↔ duplicateHead.toList <+: p.message.toList := by
  -- `delta`: the equations of the wording take too long to derive
  delta Problem.message
  cases p with
  | duplicateAlias name owner holder =>
    refine iff_of_true rfl ?_
    simp only [duplicateHead, String.toList_append, List.append_assoc]
    exact List.prefix_append _ _
  | _ =>
    refine iff_of_false nofun ?_
    simp [duplicateHead]

/-- None of the problems is a duplicate alias. -/
def NoDuplicate (ps : List Problem) : Prop :=
  ∀ p ∈ ps, p.isDuplicate = false

instance (ps : List Problem) : Decidable (NoDuplicate ps) :=
  inferInstanceAs (Decidable (∀ p ∈ ps, p.isDuplicate = false))

theorem noDuplicate_append {ps qs : List Problem} : NoDuplicate (ps ++ qs) ↔ NoDuplicate ps ∧ NoDuplicate qs :=
  List.forall_mem_append

theorem noDuplicate_ite {P : Prop} [Decidable P] {ps qs : List Problem} (hps : NoDuplicate ps)
    (hqs : NoDuplicate qs) : NoDuplicate (if P then ps else qs) := by
  split
  · exact hps
  · exact hqs

theorem noDuplicate_nil : NoDuplicate [] :=
  nofun

theorem noDuplicate_singleton {p : Problem} (h : p.isDuplicate = false) : NoDuplicate [p] := by
  intro q hq
  rwa [List.mem_singleton.mp hq]

theorem Claim.noDuplicate_problems {earlier : List Claim} {c : Claim} :
    NoDuplicate (c.problems earlier) ↔ c.problems earlier = [] := by
  constructor
  · intro h
    rw [Claim.problems] at h ⊢
    cases hfind : earlier.find? fun e => sameLower e.name c.name with
    | none => rfl
    | some e =>
      rw [hfind] at h
      have hduplicate : true = false := h _ List.mem_cons_self
      cases hduplicate
  · intro h
    rw [h]
    exact noDuplicate_nil

theorem Field.noDuplicate_problems (f : Field) : NoDuplicate f.problems :=
  noDuplicate_append.mpr
    ⟨noDuplicate_ite noDuplicate_nil (noDuplicate_singleton rfl),
      noDuplicate_ite noDuplicate_nil (noDuplicate_singleton rfl)⟩

theorem Dimension.noDuplicate_sourceProblems (c : Catalog) (d : Dimension) : NoDuplicate (d.sourceProblems c) :=
  noDuplicate_ite (noDuplicate_singleton rfl) noDuplicate_nil

theorem Entry.noDuplicate_aggregationProblems (c : Catalog) (e : Entry) :
    NoDuplicate (e.aggregationProblems c) := by
  cases e with
  | aggregation a =>
    refine noDuplicate_append.mpr ⟨noDuplicate_append.mpr ⟨?_, ?_⟩, ?_⟩
    · exact noDuplicate_ite noDuplicate_nil (noDuplicate_singleton rfl)
    · exact noDuplicate_ite (noDuplicate_singleton rfl) noDuplicate_nil
    · exact noDuplicate_ite (noDuplicate_singleton rfl) noDuplicate_nil
  | formula f => exact noDuplicate_nil

theorem Entry.noDuplicate_formatProblems (e : Entry) : NoDuplicate e.formatProblems := by
  rw [Entry.formatProblems]
  split
  · exact noDuplicate_ite noDuplicate_nil (noDuplicate_singleton rfl)
  · exact noDuplicate_singleton rfl

theorem noDuplicate_flatMap {α : Type} {as : List α} {f : α → List Problem} (h : ∀ a, NoDuplicate (f a)) :
    NoDuplicate (as.flatMap f) := by
  intro p hp
  obtain ⟨a, -, hpa⟩ := List.mem_flatMap.mp hp
  exact h a p hpa

/-! ## The claims of a catalog -/

theorem freeAfter_iff {earlier cs : List Claim} :
    FreeAfter earlier cs ↔ cs.Pairwise (fun a b => sameLower a.name b.name = false) ∧
      ∀ e ∈ earlier, ∀ c ∈ cs, sameLower e.name c.name = false := by
  refine ⟨FreeAfter.pairwise, ?_⟩
  induction cs generalizing earlier with
  | nil => exact fun _ => trivial
  | cons c cs ih =>
    rintro ⟨hpairwise, hcross⟩
    obtain ⟨hc, hcs⟩ := List.pairwise_cons.mp hpairwise
    constructor
    · rw [Claim.problems_eq_nil_iff]
      exact fun e he => hcross e he c List.mem_cons_self
    · refine ih ⟨hcs, fun e he d hd => ?_⟩
      rcases List.mem_append.mp he with he | he
      · exact hcross e he d (List.mem_cons_of_mem c hd)
      · rw [List.mem_singleton.mp he]
        exact hc d hd

variable {c : Catalog}

theorem noDuplicate_dimensionProblems {earlier : List Claim} {ds : List Dimension} :
    NoDuplicate (dimensionProblems c earlier ds) ↔ FreeAfter earlier (ds.map Dimension.claim) := by
  induction ds generalizing earlier with
  | nil => exact iff_of_true noDuplicate_nil trivial
  | cons d ds ih =>
    rw [dimensionProblems, noDuplicate_append, noDuplicate_append, Claim.noDuplicate_problems, ih]
    have hsource := d.noDuplicate_sourceProblems c
    exact and_congr_left' (and_iff_left hsource)

theorem noDuplicate_entryProblems {earlier : List Claim} {es : List Entry} :
    NoDuplicate (entryProblems c earlier es) ↔ FreeAfter earlier (es.map Entry.claim) := by
  induction es generalizing earlier with
  | nil => exact iff_of_true noDuplicate_nil trivial
  | cons e es ih =>
    rw [entryProblems_cons, noDuplicate_append, noDuplicate_append, Claim.noDuplicate_problems, ih]
    have haggregation := e.noDuplicate_aggregationProblems c
    exact and_congr_left' (and_iff_left haggregation)

theorem noDuplicate_measureProblems {earlier : List Claim} {ms : List Measure} :
    NoDuplicate (measureProblems c earlier ms) ↔
      FreeAfter earlier ((ms.flatMap Measure.entries).map Entry.claim) := by
  induction ms generalizing earlier with
  | nil => exact iff_of_true noDuplicate_nil trivial
  | cons m ms ih =>
    rw [measureProblems, noDuplicate_append, noDuplicate_append, noDuplicate_entryProblems, ih,
      List.flatMap_cons, List.map_append, freeAfter_append]
    have hformats : NoDuplicate (m.entries.flatMap Entry.formatProblems) :=
      noDuplicate_flatMap Entry.noDuplicate_formatProblems
    exact and_congr_left' (and_iff_left hformats)

namespace Catalog

/-- The aliases of the dimensions, aggregations and formulas. -/
def declaredAliases (c : Catalog) : List String :=
  c.dimensions.map Dimension.aliasName ++ c.entries.map Entry.aliasName

/-- Two of the declared aliases are the same in lower case. -/
def RepeatsAlias (c : Catalog) : Prop :=
  ∃ (i j : Nat) (_ : i < j) (_ : j < c.declaredAliases.length),
    lower c.declaredAliases[i].toList = lower c.declaredAliases[j].toList

/-- The checks name a duplicate alias. -/
def ReportsDuplicate (c : Catalog) : Prop :=
  ∃ p ∈ c.problems, duplicateHead.toList <+: p.message.toList

theorem not_repeatsAlias_iff :
    ¬ c.RepeatsAlias ↔ c.declaredAliases.Pairwise fun a b => sameLower a b = false := by
  rw [List.pairwise_iff_getElem, RepeatsAlias]
  constructor
  · intro h i j hi hj hij
    rw [← Bool.not_eq_true, sameLower_iff]
    exact fun heq => h ⟨i, j, hij, hj, heq⟩
  · rintro h ⟨i, j, hij, hj, heq⟩
    have hsame := h i j (hij.trans hj) hj hij
    rw [← Bool.not_eq_true, sameLower_iff] at hsame
    exact hsame heq

theorem not_reportsDuplicate_iff : ¬ c.ReportsDuplicate ↔ NoDuplicate c.problems := by
  have hhead (p : Problem) : ¬ duplicateHead.toList <+: p.message.toList ↔ p.isDuplicate = false := by
    rw [← Problem.isDuplicate_iff, Bool.not_eq_true]
  simp only [ReportsDuplicate, not_exists, not_and, hhead, NoDuplicate]

theorem freeAfter_claims_iff : FreeAfter [] (c.dimensions.map Dimension.claim ++ c.entries.map Entry.claim) ↔
    c.declaredAliases.Pairwise fun a b => sameLower a b = false := by
  rw [freeAfter_iff, declaredAliases, ← map_name_claims, List.pairwise_map]
  exact and_iff_left (List.forall_mem_nil _)

theorem noDuplicate_problems_iff : NoDuplicate c.problems ↔
    c.declaredAliases.Pairwise fun a b => sameLower a b = false := by
  have hfields : NoDuplicate (c.fields.flatMap Field.problems) := noDuplicate_flatMap Field.noDuplicate_problems
  rw [← freeAfter_claims_iff, problems, noDuplicate_append, noDuplicate_append, noDuplicate_dimensionProblems,
    noDuplicate_measureProblems, freeAfter_append, and_iff_right hfields]
  rfl

/-- A catalog is accepted if its columns, sources, functions and formats are known and its aliases distinct. -/
theorem accepted_iff : c.Accepted ↔
    (∀ f ∈ c.fields, f.problems = []) ∧ (∀ d ∈ c.dimensions, d.sourceProblems c = []) ∧
      (∀ e ∈ c.entries, e.aggregationProblems c = [] ∧ e.formatProblems = []) ∧
        c.declaredAliases.Pairwise fun a b => sameLower a b = false := by
  rw [Accepted, problems, List.append_eq_nil_iff, List.append_eq_nil_iff, List.flatMap_eq_nil_iff,
    dimensionProblems_eq_nil_iff, measureProblems_eq_nil_iff, ← freeAfter_claims_iff, freeAfter_append]
  constructor
  · rintro ⟨⟨hfields, hdimensions, hsources⟩, hmeasures, hentries⟩
    exact ⟨hfields, hsources, hentries, hdimensions, hmeasures⟩
  · rintro ⟨hfields, hsources, hentries, hdimensions, hmeasures⟩
    exact ⟨⟨hfields, hdimensions, hsources⟩, hmeasures, hentries⟩

/-- A name stands for what declares it, ignoring letter case, and every alias is listed. -/
structure Unambiguous (c : Catalog) : Prop where
  dimension? : ∀ name d,
    c.dimension? name = some d ↔ d ∈ c.dimensions ∧ lower d.aliasName.toList = lower name.toList
  entry? : ∀ name e,
    c.entry? name = some e ↔ e ∈ c.entries ∧ lower e.aliasName.toList = lower name.toList
  separate : ∀ name, c.dimension? name = none ∨ c.entry? name = none
  dimensionAliases : c.dimensionAliases = c.dimensions.map Dimension.aliasName
  measureAliases : c.measureAliases = c.entries.map Entry.aliasName
  ownDimension : ∀ d ∈ c.dimensions, c.dimension? d.aliasName = some d
  ownEntry : ∀ e ∈ c.entries, c.entry? e.aliasName = some e

end Catalog

/-! ## Look-ups among distinct aliases -/

section distinct

variable {α : Type} {aliasOf : α → String} {items : List α}

theorem findAlias?_eq_some_iff (h : items.Pairwise fun a b => sameLower (aliasOf a) (aliasOf b) = false)
    (name : String) (a : α) :
    findAlias? aliasOf items name = some a ↔ a ∈ items ∧ lower (aliasOf a).toList = lower name.toList := by
  refine ⟨of_findAlias?_eq_some, fun ⟨ha, hsame⟩ => ?_⟩
  cases hfind : findAlias? aliasOf items name with
  | none =>
    rw [findAlias?] at hfind
    cases hexact : items.find? fun a => aliasOf a == name with
    | some b =>
      rw [hexact] at hfind
      cases hfind
    | none =>
      rw [hexact] at hfind
      exact absurd (sameLower_iff.mpr hsame) (List.find?_eq_none.mp hfind a ha)
  | some b =>
    obtain ⟨hb, hother⟩ := of_findAlias?_eq_some hfind
    have : Std.Symm fun a b => sameLower (aliasOf a) (aliasOf b) = false := by
      refine ⟨fun x y hxy => ?_⟩
      rw [← Bool.not_eq_true, sameLower_iff] at hxy ⊢
      exact fun heq => hxy heq.symm
    by_contra hne
    have hdiffer := h.forall hb ha fun hba => hne (congrArg some hba)
    rw [← Bool.not_eq_true, sameLower_iff] at hdiffer
    exact hdiffer (hother.trans hsame.symm)

theorem firstByAlias_eq_self (h : items.Pairwise fun a b => sameLower (aliasOf a) (aliasOf b) = false) :
    firstByAlias aliasOf items = items := by
  induction items with
  | nil => rfl
  | cons a items ih =>
    obtain ⟨ha, hitems⟩ := List.pairwise_cons.mp h
    rw [firstByAlias, ih hitems, List.filter_eq_self.mpr]
    intro b hb
    rw [bne_iff_ne]
    intro hba
    have hsame := ha b hb
    rw [← Bool.not_eq_true, sameLower_iff, hba] at hsame
    exact hsame rfl

end distinct

namespace Catalog

theorem unambiguous_of_pairwise (h : c.declaredAliases.Pairwise fun a b => sameLower a b = false) :
    c.Unambiguous := by
  obtain ⟨hdimensions, hentries, hcross⟩ := List.pairwise_append.mp h
  rw [List.pairwise_map] at hdimensions hentries
  have hdimension := findAlias?_eq_some_iff hdimensions
  have hentry := findAlias?_eq_some_iff hentries
  refine ⟨hdimension, hentry, fun name => ?_, ?_, ?_, fun d hd => (hdimension _ d).mpr ⟨hd, rfl⟩,
    fun e he => (hentry _ e).mpr ⟨he, rfl⟩⟩
  · cases hd : c.dimension? name with
    | none => exact .inl rfl
    | some d =>
      cases he : c.entry? name with
      | none => exact .inr rfl
      | some e =>
        obtain ⟨hdmem, hdsame⟩ := of_findAlias?_eq_some hd
        obtain ⟨hemem, hesame⟩ := of_findAlias?_eq_some he
        have hdiffer := hcross _ (List.mem_map_of_mem hdmem) _ (List.mem_map_of_mem hemem)
        rw [← Bool.not_eq_true, sameLower_iff] at hdiffer
        exact absurd (hdsame.trans hesame.symm) hdiffer
  · rw [dimensionAliases, namedDimensions, firstByAlias_eq_self hdimensions]
  · rw [measureAliases, namedEntries, firstByAlias_eq_self hentries]

theorem Accepted.unambiguous (h : c.Accepted) : c.Unambiguous :=
  unambiguous_of_pairwise h.pairwise_aliases

theorem Accepted.namedDimensions_eq (h : c.Accepted) : c.namedDimensions = c.dimensions :=
  firstByAlias_eq_self (List.pairwise_map.mp (List.pairwise_append.mp h.pairwise_aliases).1)

theorem Accepted.namedEntries_eq (h : c.Accepted) : c.namedEntries = c.entries :=
  firstByAlias_eq_self (List.pairwise_map.mp (List.pairwise_append.mp h.pairwise_aliases).2.1)

theorem nodup_of_pairwise {names : List String} (h : names.Pairwise fun a b => sameLower a b = false) :
    names.Nodup := by
  refine h.imp fun {a b} hab heq => ?_
  rw [← Bool.not_eq_true, sameLower_iff, heq] at hab
  exact hab rfl

theorem Accepted.nodup_dimensionAliases (h : c.Accepted) : (c.dimensions.map Dimension.aliasName).Nodup :=
  nodup_of_pairwise (List.pairwise_append.mp h.pairwise_aliases).1

theorem Accepted.nodup_measureAliases (h : c.Accepted) : (c.entries.map Entry.aliasName).Nodup :=
  nodup_of_pairwise (List.pairwise_append.mp h.pairwise_aliases).2.1

/-- **A duplicate alias is reported exactly when two declared aliases are the same in lower case; without
one every name stands for at most one thing, and every alias for what declares it.** -/
theorem reportsDuplicate_iff_and_unambiguous (c : Catalog) :
    (c.ReportsDuplicate ↔ c.RepeatsAlias) ∧ (¬ c.ReportsDuplicate → c.Unambiguous) := by
  have hfree : ¬ c.ReportsDuplicate ↔ c.declaredAliases.Pairwise fun a b => sameLower a b = false :=
    not_reportsDuplicate_iff.trans noDuplicate_problems_iff
  exact ⟨not_iff_not.mp (hfree.trans not_repeatsAlias_iff.symm), fun h => unambiguous_of_pairwise (hfree.mp h)⟩

theorem unambiguous_sessionsCatalog : sessionsCatalog.Unambiguous :=
  (reportsDuplicate_iff_and_unambiguous sessionsCatalog).2 (by
    rw [not_reportsDuplicate_iff]
    decide +kernel)

end Catalog

end MetricLayer
