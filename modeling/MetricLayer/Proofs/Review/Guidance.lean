import MetricLayer.Proofs.Catalog.Lookup
import MetricLayer.Review.Finding

/-!
# Guidance

Guidance numbers all findings, each with its correction, and then lists dimensions and measures of the catalog:
as many as fit, those that a finding is about before the others (`Review.guides_guidance`).  So a name that a
finding is about is left out only if more of its kind than fit are (`Review.Shows.complete`).
-/

namespace MetricLayer

open MetricLayer.Text

/-! ## First declarations -/

section first

variable {α : Type} {aliasOf : α → String} {items : List α}

theorem nodup_firstByAlias (aliasOf : α → String) (items : List α) :
    ((firstByAlias aliasOf items).map aliasOf).Nodup := by
  induction items with
  | nil => exact List.nodup_nil
  | cons a items ih =>
    rw [firstByAlias, List.map_cons, List.nodup_cons]
    constructor
    · intro hmem
      obtain ⟨b, hb, heq⟩ := List.mem_map.mp hmem
      exact bne_iff_ne.mp (List.mem_filter.mp hb).2 heq
    · exact ih.sublist (List.filter_sublist.map aliasOf)

/-- What is listed under an alias is what the alias stands for. -/
theorem findAlias?_of_mem_firstByAlias {a : α} (h : a ∈ firstByAlias aliasOf items) :
    findAlias? aliasOf items (aliasOf a) = some a := by
  have hfind : items.find? (fun b => aliasOf b == aliasOf a) = some a := by
    induction items with
    | nil => cases h
    | cons b items ih =>
      rw [firstByAlias] at h
      rcases List.mem_cons.mp h with rfl | h
      · exact List.find?_cons_of_pos (beq_self_eq_true _)
      · obtain ⟨ha, hne⟩ := List.mem_filter.mp h
        rw [List.find?_cons_of_neg]
        · exact ih ha
        · rw [beq_iff_eq]
          exact fun heq => bne_iff_ne.mp hne heq.symm
  rw [findAlias?, hfind]
  rfl

end first

namespace Review

/-! ## What guidance says -/

/-- Some finding is about the name, ignoring letter case. -/
def IsNamed (findings : List Finding) (name : String) : Prop :=
  ∃ f ∈ findings, lower f.identifier.toList = lower name.toList

instance (findings : List Finding) (name : String) : Decidable (IsNamed findings name) :=
  inferInstanceAs (Decidable (∃ f ∈ findings, lower f.identifier.toList = lower name.toList))

/-- The lines number the findings, and have the correction of each one behind it. -/
structure Reports (findings : List Finding) (lines : List String) : Prop where
  length : lines.length = 2 * findings.length
  message : ∀ (i : Nat) (h : i < findings.length),
    lines[2 * i]? = some (toString (i + 1) ++ ". [" ++ findings[i].kind.name ++ "] " ++ findings[i].message)
  correction : ∀ (i : Nat) (h : i < findings.length),
    lines[2 * i + 1]? = some ("   Fix: " ++ findings[i].correction)

/-- As many of the aliases as fit are shown, those that a finding is about before the others, both in their order. -/
structure Shows (findings : List Finding) (aliases shown : List String) : Prop where
  length : shown.length = min listingLimit aliases.length
  nodup : shown.Nodup
  groups : ∃ first others, shown = first ++ others ∧ first <+: aliases.filter (IsNamed findings ·) ∧
    others <+: aliases.filter (¬ IsNamed findings ·) ∧ (others ≠ [] → first = aliases.filter (IsNamed findings ·))
  complete : (aliases.filter (IsNamed findings ·)).length ≤ listingLimit →
    ∀ n ∈ aliases, IsNamed findings n → n ∈ shown

/-- A guidance for findings: the report, the listings of dimensions and measures, and the table. -/
def Guides (c : Catalog) (findings : List Finding) (text : String) : Prop :=
  ∃ (report : List String) (ds : List Dimension) (es : List Entry),
    text = joinWith "\n"
      (["The SQL query has " ++ toString findings.length ++ " error(s):", ""] ++ report ++
        ["", "VALID DIMENSIONS (select the source column, name it with AS):"] ++
        ds.map (fun d => "  - " ++ dimensionItem d) ++
        ["VALID MEASURES (use exactly this aggregation):"] ++ es.map (fun e => "  - " ++ entryItem e) ++
        ["TABLE: " ++ c.table, "Return one corrected SELECT statement using only these columns."]) ∧
      Reports findings report ∧
      (Shows findings c.dimensionAliases (ds.map Dimension.aliasName) ∧
        ∀ d ∈ ds, c.dimension? d.aliasName = some d) ∧
      Shows findings c.measureAliases (es.map Entry.aliasName) ∧ ∀ e ∈ es, c.entry? e.aliasName = some e

variable {c : Catalog} {findings : List Finding}

/-! ## The report -/

theorem length_numberedFrom (n : Nat) (findings : List Finding) :
    (numberedFrom n findings).length = 2 * findings.length := by
  induction findings generalizing n with
  | nil => rfl
  | cons f fs ih =>
    rw [numberedFrom, List.length_append, ih, List.length_cons]
    exact Nat.add_comm 2 _

/-- Every finding takes two lines: its message with its number, and its correction. -/
theorem getElem?_numberedFrom (n : Nat) {i : Nat} (h : i < findings.length) :
    (numberedFrom n findings)[2 * i]? =
        some (toString (n + i) ++ ". [" ++ findings[i].kind.name ++ "] " ++ findings[i].message) ∧
      (numberedFrom n findings)[2 * i + 1]? = some ("   Fix: " ++ findings[i].correction) := by
  induction findings generalizing n i with
  | nil => exact absurd h (Nat.not_lt_zero i)
  | cons f fs ih =>
    cases i with
    | zero => exact ⟨rfl, rfl⟩
    | succ i =>
      have hlater := ih (n + 1) (Nat.lt_of_succ_lt_succ h)
      rw [Nat.add_right_comm n 1 i] at hlater
      exact hlater

theorem reports_numberedFrom (findings : List Finding) : Reports findings (numberedFrom 1 findings) where
  length := length_numberedFrom 1 findings
  message i h := by
    rw [(getElem?_numberedFrom 1 h).1, Nat.add_comm 1 i]
  correction i h := (getElem?_numberedFrom 1 h).2

/-! ## The listings -/

theorem mem_of_mem_ranked {α : Type} {mentioned : α → Bool} {items : List α} {a : α}
    (h : a ∈ ranked mentioned items) : a ∈ items := by
  rcases List.mem_append.mp (List.mem_of_mem_take h) with h | h
  · exact List.mem_of_mem_filter h
  · exact List.mem_of_mem_filter h

theorem any_sameLower_eq (findings : List Finding) (name : String) :
    (findings.any fun f => sameLower f.identifier name) = decide (IsNamed findings name) := by
  rw [Bool.eq_iff_iff, List.any_eq_true, decide_eq_true_eq, IsNamed]
  simp only [sameLower_iff]

/-- The aliases of what is listed: the ones that a finding is about, then the others, as many as fit. -/
theorem map_ranked {α : Type} (aliasOf : α → String) (items : List α) :
    (ranked (fun a => findings.any fun f => sameLower f.identifier (aliasOf a)) items).map aliasOf =
      ((items.map aliasOf).filter (IsNamed findings ·) ++
        (items.map aliasOf).filter (¬ IsNamed findings ·)).take listingLimit := by
  rw [ranked, List.map_take, List.map_append, List.filter_map, List.filter_map]
  simp only [any_sameLower_eq, Function.comp_def, decide_not]

/-- The first of two groups, and what fits behind it of the second. -/
theorem shows_take {aliases : List String} (hnodup : aliases.Nodup) :
    Shows findings aliases
      ((aliases.filter (IsNamed findings ·) ++ aliases.filter (¬ IsNamed findings ·)).take listingLimit) := by
  have hperm : (aliases.filter (IsNamed findings ·) ++ aliases.filter (¬ IsNamed findings ·)).Perm aliases := by
    simp only [decide_not]
    exact List.filter_append_perm _ aliases
  refine ⟨?_, ?_, ⟨_, _, List.take_append, List.take_prefix _ _, List.take_prefix _ _, fun hothers => ?_⟩, ?_⟩
  · rw [List.length_take, hperm.length_eq]
  · exact (hperm.nodup_iff.mpr hnodup).sublist (List.take_sublist _ _)
  · refine List.take_of_length_le (Nat.le_of_lt (Nat.lt_of_sub_pos (Nat.pos_of_ne_zero fun hzero => hothers ?_)))
    rw [hzero, List.take_zero]
  · intro hfit n hn hnamed
    rw [List.take_append, List.take_of_length_le hfit]
    exact List.mem_append_left _ (List.mem_filter.mpr ⟨hn, decide_eq_true hnamed⟩)

/-- **Guidance reports every finding with its correction, in order, and shows as many names as fit, those that a
finding is about first.** -/
theorem guides_guidance (h : findings ≠ []) : Guides c findings (guidance c findings) := by
  have hlisted {α : Type} {aliasOf : α → String} {items : List α} {mentioned : α → Bool} {a : α}
      (ha : a ∈ ranked mentioned (firstByAlias aliasOf items)) : findAlias? aliasOf items (aliasOf a) = some a :=
    findAlias?_of_mem_firstByAlias (mem_of_mem_ranked ha)
  refine ⟨numberedFrom 1 findings,
    ranked (fun d => findings.any fun f => sameLower f.identifier d.aliasName) c.namedDimensions,
    ranked (fun e => findings.any fun f => sameLower f.identifier e.aliasName) c.namedEntries,
    ?_, reports_numberedFrom findings, ⟨?_, fun d => hlisted⟩, ?_, fun e => hlisted⟩
  · rw [guidance, if_neg (by rwa [List.isEmpty_iff]), guidanceLines]
  · rw [map_ranked, Catalog.dimensionAliases]
    exact shows_take (nodup_firstByAlias _ _)
  · rw [map_ranked, Catalog.measureAliases]
    exact shows_take (nodup_firstByAlias _ _)

/-- A catalog with more dimensions than fit. -/
def wideCatalog : Catalog where
  table := "wide"
  dimensions := (List.range 17).map fun i => { source := "c", aliasName := "Part " ++ toString i }

/-- A finding about the last dimension, in other letters. -/
def lastPartFinding : Finding where
  kind := .unknownColumn
  identifier := "PART 16"
  message := "'PART 16' is no column."
  correction := "Use c"

theorem guides_guidance_wideCatalog :
    [lastPartFinding] ≠ [] ∧ wideCatalog.dimensionAliases.length = 17 ∧ "Part 16" ∈ wideCatalog.dimensionAliases ∧
      IsNamed [lastPartFinding] "Part 16" ∧
      Guides wideCatalog [lastPartFinding] (guidance wideCatalog [lastPartFinding]) :=
  ⟨List.cons_ne_nil _ _, by decide, by decide, by decide, guides_guidance (List.cons_ne_nil _ _)⟩

end Review

end MetricLayer
