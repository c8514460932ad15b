import MetricLayer.Text.Pieces

/-!
# Pieces and joined lists

What is joined with a separator comes from the separator or from a part (`mem_intercalate`), and ends in the last
part (`intercalate_concat`).  The pieces of a text are made of its characters (`mem_of_mem_splitAll`), apart from
those it is split at (`not_mem_of_mem_splitAll`).
-/

namespace MetricLayer.Text

variable {α : Type} {sep : List α} {parts : List (List α)}

theorem mem_intercalate {x : α} (h : x ∈ List.intercalate sep parts) : x ∈ sep ∨ ∃ part ∈ parts, x ∈ part := by
  induction parts with
  | nil => cases h
  | cons part parts ih =>
    cases parts with
    | nil => exact Or.inr ⟨part, List.mem_cons_self, by simpa using h⟩
    | cons next parts =>
      rw [List.intercalate_cons_cons, List.append_assoc, List.mem_append, List.mem_append] at h
      rcases h with h | h | h
      · exact Or.inr ⟨part, List.mem_cons_self, h⟩
      · exact Or.inl h
      · exact (ih h).imp_right fun ⟨other, hmem, hx⟩ => ⟨other, List.mem_cons_of_mem _ hmem, hx⟩

theorem intercalate_concat (hne : parts ≠ []) (last : List α) :
    List.intercalate sep (parts ++ [last]) = List.intercalate sep parts ++ (sep ++ last) := by
  induction parts with
  | nil => exact absurd rfl hne
  | cons part parts ih =>
    cases parts with
    | nil => simp
    | cons next parts =>
      rw [List.cons_append, List.cons_append, List.intercalate_cons_cons, ← List.cons_append,
        ih (List.cons_ne_nil next parts), List.intercalate_cons_cons, List.append_assoc (part ++ sep)]

theorem joinWith_singleton (sep part : String) : joinWith sep [part] = part := by
  rw [← String.toList_inj, toList_joinWith, List.map_singleton, List.intercalate_singleton]

/-! ## Pieces -/

theorem splitAll_ne_nil (p : Char → Bool) (cs : List Char) : splitAll p cs ≠ [] := by
  cases cs with
  | nil => exact List.cons_ne_nil _ _
  | cons c cs =>
    rw [splitAll]
    split
    · exact List.cons_ne_nil _ _
    · split <;> exact List.cons_ne_nil _ _

theorem mem_of_mem_splitAll {p : Char → Bool} {cs piece : List Char} (h : piece ∈ splitAll p cs)
    {c : Char} (hc : c ∈ piece) : c ∈ cs := by
  induction cs generalizing piece with
  | nil =>
    rw [splitAll, List.mem_singleton] at h
    exact h ▸ hc
  | cons d cs ih =>
    rw [splitAll] at h
    split at h
    · rcases List.mem_cons.mp h with rfl | h
      · cases hc
      · exact List.mem_cons_of_mem d (ih h hc)
    · split at h
      next hpieces => exact absurd hpieces (splitAll_ne_nil p cs)
      next first pieces hpieces =>
        rcases List.mem_cons.mp h with rfl | h
        · rcases List.mem_cons.mp hc with rfl | hc
          · exact List.mem_cons_self
          · exact List.mem_cons_of_mem d (ih (hpieces ▸ List.mem_cons_self) hc)
        · exact List.mem_cons_of_mem d (ih (hpieces ▸ List.mem_cons_of_mem first h) hc)

/-- No piece holds a separator. -/
theorem not_mem_of_mem_splitAll {p : Char → Bool} {cs piece : List Char} (h : piece ∈ splitAll p cs) {c : Char}
    (hc : c ∈ piece) : p c = false := by
  induction cs generalizing piece with
  | nil =>
    rw [splitAll, List.mem_singleton] at h
    subst h
    cases hc
  | cons d cs ih =>
    rw [splitAll] at h
    split at h
    · rcases List.mem_cons.mp h with rfl | h
      · cases hc
      · exact ih h hc
    next hd =>
      split at h
      next hpieces => exact absurd hpieces (splitAll_ne_nil p cs)
      next first pieces hpieces =>
        rcases List.mem_cons.mp h with rfl | h
        · rcases List.mem_cons.mp hc with rfl | hc
          · simpa using hd
          · exact ih (hpieces ▸ List.mem_cons_self) hc
        · exact ih (hpieces ▸ List.mem_cons_of_mem first h) hc

end MetricLayer.Text
