import MetricLayer.Proofs.Sql.Split
import Mathlib.Data.List.Induction

/-!
# The parts of any text

A text need not be well formed to be split.  A comma separates when the text before it ends outside quotes and
parentheses (`hasTopComma_concat`), so that every part starts there as well, wherever the part before it left
quotes and parentheses; only the last part may leave some open (`CommaPieces`).  A part has therefore no comma
that separates, and is the only part of itself (`splitList_of_mem`).
-/

namespace MetricLayer.Sql

open MetricLayer.Text

variable {cs a rest : List Char} {pieces : List (List Char)}

/-! ## Commas that separate -/

/-- **A character separates when it is a comma behind a text that ends outside quotes and parentheses.** -/
theorem hasTopComma_concat {c : Char} : HasTopComma (cs ++ [c]) ↔ HasTopComma cs ∨ c = ',' ∧ EndsOutside cs := by
  have hpairs : (mask (cs ++ [c])).zip (depths (mask (cs ++ [c]))) =
      (mask cs).zip (depths (mask cs)) ++
        [(maskStep (quoteAfter none cs) c, depthAt (depthAfter 0 (mask cs)) (maskStep (quoteAfter none cs) c))] := by
    rw [mask_concat, depths, depthsFrom_append, List.zip_append (length_depthsFrom _ _).symm, depthsFrom_cons]
    rfl
  rw [HasTopComma, hpairs, List.mem_append, List.mem_singleton, Prod.mk.injEq, HasTopComma]
  refine or_congr_right ⟨?_, ?_⟩
  · rintro ⟨hc, hlevel⟩
    obtain ⟨rfl, hclosed⟩ := (maskStep_quoteAfter_eq_iff (by decide) (by decide)).mp hc.symm
    rw [← hc] at hlevel
    exact ⟨rfl, hclosed, hlevel.symm⟩
  · rintro ⟨rfl, hclosed, hlevel⟩
    have hcomma : maskStep (quoteAfter none cs) ',' = ',' :=
      (maskStep_quoteAfter_eq_iff (by decide) (by decide)).mpr ⟨rfl, hclosed⟩
    rw [hcomma, hlevel]
    exact ⟨rfl, rfl⟩

/-- What follows a comma does not undo it. -/
theorem HasTopComma.append (h : HasTopComma a) (b : List Char) : HasTopComma (a ++ b) := by
  induction b using List.reverseRecOn with
  | nil => rwa [List.append_nil]
  | append_singleton b c ih =>
    rw [← List.append_assoc, hasTopComma_concat]
    exact Or.inl ih

/-- The first comma that separates stands behind a text without one. -/
theorem exists_of_hasTopComma (h : HasTopComma cs) :
    ∃ a rest, cs = a ++ ',' :: rest ∧ EndsOutside a ∧ ¬ HasTopComma a := by
  induction cs using List.reverseRecOn with
  | nil => cases h
  | append_singleton cs c ih =>
    by_cases hcs : HasTopComma cs
    · obtain ⟨a, rest, rfl, ha, hnone⟩ := ih hcs
      exact ⟨a, rest ++ [c], by rw [List.append_assoc, List.cons_append], ha, hnone⟩
    · obtain ⟨rfl, hends⟩ := (hasTopComma_concat.mp h).resolve_left hcs
      exact ⟨cs, [], rfl, hends, hcs⟩

/-! ## Pieces -/

/-- The pieces between the commas that separate. -/
inductive CommaPieces : List Char → List (List Char) → Prop
  | last {cs : List Char} (h : ¬ HasTopComma cs) : CommaPieces cs [cs]
  | cons {a rest : List Char} {pieces : List (List Char)} (ha : EndsOutside a) (hcomma : ¬ HasTopComma a)
      (hrest : CommaPieces rest pieces) : CommaPieces (a ++ ',' :: rest) (a :: pieces)

theorem commaPieces_spec (cs : List Char) : CommaPieces cs (commaPieces cs) := by
  induction hlength : cs.length using Nat.strongRecOn generalizing cs with
  | ind n ih =>
    by_cases h : HasTopComma cs
    · obtain ⟨a, rest, rfl, ha, hcomma⟩ := exists_of_hasTopComma h
      rw [List.length_append, List.length_cons] at hlength
      rw [commaPieces_append ha hcomma]
      exact .cons ha hcomma (ih rest.length (by omega) rest rfl)
    · rw [commaPieces_of_noComma h]
      exact .last h

theorem CommaPieces.not_hasTopComma (h : CommaPieces cs pieces) : ∀ p ∈ pieces, ¬ HasTopComma p := by
  induction h with
  | last h => exact List.forall_mem_singleton.mpr h
  | cons _ hcomma _ ih => exact List.forall_mem_cons.mpr ⟨hcomma, ih⟩

/-- Trimming brings no comma outside. -/
theorem not_hasTopComma_trim (h : ¬ HasTopComma cs) : ¬ HasTopComma (trim cs) := by
  obtain ⟨a, b, hcs, ha, -⟩ := exists_trim cs
  intro htrim
  apply h
  rw [hcs]
  exact ((hasTopComma_blank_append ha).mpr htrim).append b

/-! ## Parts -/

theorem splitList_of_noComma (h : ¬ HasTopComma cs) (hne : cs ≠ []) (htrim : Trimmed cs) : splitList cs = [cs] := by
  show ((commaPieces cs).map trim).filter (fun p => !p.isEmpty) = _
  rw [commaPieces_of_noComma h, List.map_singleton, trim_eq_self htrim]
  simpa using hne

/-- A part is a piece that is trimmed and not empty. -/
theorem of_mem_splitList {p : List Char} (h : p ∈ splitList cs) : p ≠ [] ∧ Trimmed p ∧ ¬ HasTopComma p := by
  obtain ⟨hp, hne⟩ := List.mem_filter.mp h
  obtain ⟨piece, hpiece, rfl⟩ := List.mem_map.mp hp
  have hcomma := (commaPieces_spec cs).not_hasTopComma piece hpiece
  exact ⟨by simpa using hne, trimmed_trim piece, not_hasTopComma_trim hcomma⟩

/-- A part is the only part of itself. -/
theorem splitList_of_mem {p : List Char} (h : p ∈ splitList cs) : splitList p = [p] := by
  obtain ⟨hne, htrim, hcomma⟩ := of_mem_splitList h
  exact splitList_of_noComma hcomma hne htrim

/-- **Splitting undoes joining with commas and white space, and what it returns of any text is not split again.** -/
theorem splitList_joinWith_and_of_mem :
    (∀ (gap : String) (parts : List String), (∀ c ∈ gap.toList, isBlank c) → (∀ p ∈ parts, ListEntry p.toList) →
      splitList (joinWith ("," ++ gap) parts).toList = parts.map String.toList) ∧
      ∀ cs : List Char, ∀ p ∈ splitList cs, p ≠ [] ∧ Trimmed p ∧ splitList p = [p] := by
  constructor
  · intro gap parts hgap hparts
    have hsep : ("," ++ gap).toList = ',' :: gap.toList := String.toList_append
    rw [toList_joinWith, hsep]
    refine splitList_join hgap fun p hp => ?_
    obtain ⟨part, hpart, rfl⟩ := List.mem_map.mp hp
    exact hparts part hpart
  · intro cs p hp
    obtain ⟨hne, htrim, -⟩ := of_mem_splitList hp
    exact ⟨hne, htrim, splitList_of_mem hp⟩

/-- Items over several lines, and a text whose parentheses and quotes do not match. -/
theorem splitList_joinWith_and_of_mem_items :
    (∀ c ∈ "\n  ".toList, isBlank c) ∧
      (∀ p ∈ ["COALESCE(a, ',)')", "b AS \"x, \"\"y\""], ListEntry p.toList) ∧
      splitList (joinWith ",\n  " ["COALESCE(a, ',)')", "b AS \"x, \"\"y\""]).toList =
        ["COALESCE(a, ',)')".toList, "b AS \"x, \"\"y\"".toList] ∧
      "b)".toList ∈ splitList "a , b), f(c, 'd".toList ∧ splitList "b)".toList = ["b)".toList] := by
  have hblank : ∀ c ∈ "\n  ".toList, isBlank c := by decide
  have hparts : ∀ p ∈ ["COALESCE(a, ',)')", "b AS \"x, \"\"y\""], ListEntry p.toList :=
    List.forall_mem_cons.mpr ⟨⟨by decide, by decide, by decide, by decide⟩,
      List.forall_mem_singleton.mpr ⟨by decide, by decide, by decide, by decide⟩⟩
  have hmem : "b)".toList ∈ splitList "a , b), f(c, 'd".toList := by decide
  exact ⟨hblank, hparts, splitList_joinWith_and_of_mem.1 "\n  " _ hblank hparts, hmem,
    (splitList_joinWith_and_of_mem.2 _ _ hmem).2.2⟩

end MetricLayer.Sql
