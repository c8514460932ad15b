import MetricLayer.Proofs.Sql.Mask
import Mathlib.Data.List.Induction

/-!
# What masking hides

The quotes of a text are described without a scanner: `Quoting` are the texts that end outside quotes, and
`Opens q` those that end inside quotes of the kind `q`.  Every text is one of the two, and the scanner knows
which (`quoteAfter_eq_none_iff`, `quoteAfter_eq_some_iff`).  Masking hides exactly the characters inside quotes
(`IsMasked`, `eq_mask_of_isMasked`); a second masking finds nothing more to hide.
-/

namespace MetricLayer.Sql

/-! ## Quotes that are closed, and one that is not -/

/-- A text in which every quote that is opened is closed by the next one of its kind. -/
inductive Quoting : List Char → Prop
  | nil : Quoting []
  | plain {c : Char} {cs : List Char} (hc : isQuote c = false) (h : Quoting cs) : Quoting (c :: cs)
  | literal {q : Char} {body cs : List Char} (hq : isQuote q) (hbody : q ∉ body) (h : Quoting cs) :
      Quoting (q :: (body ++ q :: cs))

/-- A text whose last quote is opened and not closed. -/
def Opens (q : Char) (cs : List Char) : Prop :=
  ∃ before body, cs = before ++ q :: body ∧ Quoting before ∧ isQuote q ∧ q ∉ body

variable {cs : List Char} {q c : Char} {i : Nat}

theorem Quoting.append {a b : List Char} (ha : Quoting a) (hb : Quoting b) : Quoting (a ++ b) := by
  induction ha with
  | nil => exact hb
  | plain hc _ ih => exact .plain hc ih
  | literal hq hbody _ ih =>
    rw [List.cons_append, List.append_assoc, List.cons_append]
    exact .literal hq hbody ih

/-- What is outside quotes stays outside with a character that is no quote. -/
theorem Quoting.concat (h : Quoting cs) (hc : isQuote c = false) : Quoting (cs ++ [c]) :=
  h.append (.plain hc .nil)

theorem Quoting.opens (h : Quoting cs) (hq : isQuote q) : Opens q (cs ++ [q]) :=
  ⟨cs, [], rfl, h, hq, List.not_mem_nil⟩

/-- A quote of its kind closes an open one. -/
theorem Opens.close (h : Opens q cs) : Quoting (cs ++ [q]) := by
  obtain ⟨before, body, rfl, hbefore, hq, hbody⟩ := h
  rw [List.append_assoc]
  exact hbefore.append (.literal hq hbody .nil)

/-- Any other character leaves it open. -/
theorem Opens.concat (h : Opens q cs) (hc : c ≠ q) : Opens q (cs ++ [c]) := by
  obtain ⟨before, body, rfl, hbefore, hq, hbody⟩ := h
  refine ⟨before, body ++ [c], by rw [List.append_assoc, List.cons_append], hbefore, hq, ?_⟩
  rw [List.mem_append, List.mem_singleton]
  rintro (hmem | rfl)
  · exact hbody hmem
  · exact hc rfl

/-! ## The scanner -/

theorem Quoting.closed (h : Quoting cs) : Closed cs := by
  induction h with
  | nil => rfl
  | plain hc _ ih =>
    rw [Closed, quoteAfter, List.foldl_cons, quoteStep, hc]
    exact ih
  | literal hq hbody _ ih =>
    rw [Closed, quoteAfter, List.foldl_cons, quoteStep, hq, if_pos rfl, ← quoteAfter, quoteAfter_append,
      quoteAfter_some_of_not_mem hbody, quoteAfter, List.foldl_cons, quoteStep, if_pos rfl]
    exact ih

theorem Opens.quoteAfter_eq (h : Opens q cs) : quoteAfter none cs = some q := by
  obtain ⟨before, body, rfl, hbefore, hq, hbody⟩ := h
  rw [quoteAfter_append, hbefore.closed, quoteAfter, List.foldl_cons, quoteStep, hq, if_pos rfl]
  exact quoteAfter_some_of_not_mem hbody

/-- Every text ends outside quotes or inside. -/
theorem quoting_or_opens (cs : List Char) : Quoting cs ∨ ∃ q, Opens q cs := by
  induction cs using List.reverseRecOn with
  | nil => exact Or.inl .nil
  | append_singleton cs c ih =>
    rcases ih with h | ⟨q, h⟩
    · cases hc : isQuote c with
      | false => exact Or.inl (h.concat hc)
      | true => exact Or.inr ⟨c, h.opens hc⟩
    · by_cases hc : c = q
      · rw [hc]
        exact Or.inl h.close
      · exact Or.inr ⟨q, h.concat hc⟩

/-- **The scanner is outside quotes after the texts in which every quote is closed.** -/
theorem quoteAfter_eq_none_iff : quoteAfter none cs = none ↔ Quoting cs := by
  refine ⟨fun h => (quoting_or_opens cs).resolve_right ?_, Quoting.closed⟩
  rintro ⟨q, hopens⟩
  rw [hopens.quoteAfter_eq] at h
  cases h

/-- **It is inside quotes of a kind after the texts that open one.** -/
theorem quoteAfter_eq_some_iff : quoteAfter none cs = some q ↔ Opens q cs := by
  refine ⟨fun h => ?_, Opens.quoteAfter_eq⟩
  rcases quoting_or_opens cs with hquoting | ⟨r, hopens⟩
  · rw [hquoting.closed] at h
    cases h
  · obtain rfl : r = q := Option.some.inj (hopens.quoteAfter_eq.symm.trans h)
    exact hopens

/-! ## Masked texts -/

/-- A character is masked as the text before it says. -/
theorem getElem?_mask (h : cs[i]? = some c) :
    (mask cs)[i]? = some (maskStep (quoteAfter none (cs.take i)) c) := by
  obtain ⟨hi, hc⟩ := List.getElem?_eq_some_iff.mp h
  have hsplit : cs = cs.take i ++ c :: cs.drop (i + 1) := by
    rw [← hc, ← List.drop_eq_getElem_cons hi, List.take_append_drop]
  have hlength : (maskFrom none (cs.take i)).length = i := by
    rw [length_maskFrom, List.length_take_of_le (Nat.le_of_lt hi)]
  calc (mask cs)[i]? = (mask (cs.take i ++ c :: cs.drop (i + 1)))[i]? := by rw [← hsplit]
    _ = some (maskStep (quoteAfter none (cs.take i)) c) := by
      rw [mask, maskFrom_append, List.getElem?_append_right (Nat.le_of_eq hlength), hlength, Nat.sub_self]
      rfl

/-- A text of the same length in which the characters inside quotes are blanked, and no others: not those
outside, nor the quotes that open and close. -/
structure IsMasked (cs masked : List Char) : Prop where
  length : masked.length = cs.length
  outside : ∀ i c, Quoting (cs.take i) → cs[i]? = some c → masked[i]? = some c
  closing : ∀ i q, Opens q (cs.take i) → cs[i]? = some q → masked[i]? = some q
  inside : ∀ i q c, Opens q (cs.take i) → cs[i]? = some c → c ≠ q → masked[i]? = some '_'

theorem isMasked_mask (cs : List Char) : IsMasked cs (mask cs) where
  length := length_mask cs
  outside i c h hc := by rw [getElem?_mask hc, h.closed, maskStep]
  closing i q h hq := by rw [getElem?_mask hq, h.quoteAfter_eq, maskStep, if_pos rfl]
  inside i q c h hc hne := by rw [getElem?_mask hc, h.quoteAfter_eq, maskStep, if_neg hne]

/-- Nothing else is masked like this. -/
theorem eq_mask_of_isMasked {masked : List Char} (h : IsMasked cs masked) : masked = mask cs := by
  have hmask := isMasked_mask cs
  apply List.ext_getElem?
  intro i
  cases hc : cs[i]? with
  | none =>
    have hi : cs.length ≤ i := List.getElem?_eq_none_iff.mp hc
    rw [List.getElem?_eq_none (h.length ▸ hi), List.getElem?_eq_none (hmask.length ▸ hi)]
  | some c =>
    rcases quoting_or_opens (cs.take i) with hquoting | ⟨q, hopens⟩
    · rw [h.outside i c hquoting hc, hmask.outside i c hquoting hc]
    · by_cases hq : c = q
      · subst hq
        rw [h.closing i c hopens hc, hmask.closing i c hopens hc]
      · rw [h.inside i q c hopens hc hq, hmask.inside i q c hopens hc hq]

/-- A masked character opens and closes what the character does. -/
theorem quoteStep_maskStep {state : Option Char} (hstate : ∀ q ∈ state, isQuote q) (c : Char) :
    quoteStep state (maskStep state c) = quoteStep state c := by
  cases state with
  | none => rfl
  | some q =>
    have hq : '_' ≠ q := by
      rintro rfl
      exact absurd (hstate '_' rfl) (by decide)
    by_cases hc : c = q
    · rw [maskStep, if_pos hc]
    · rw [maskStep, if_neg hc, quoteStep, quoteStep, if_neg hq, if_neg hc]

theorem maskStep_maskStep (state : Option Char) (c : Char) :
    maskStep state (maskStep state c) = maskStep state c := by
  cases state with
  | none => rfl
  | some q => by_cases hc : c = q <;> simp [maskStep, hc]

/-- The masked text opens and closes what the text does, and is masked to itself. -/
theorem maskFrom_maskFrom {state : Option Char} (hstate : ∀ q ∈ state, isQuote q) (cs : List Char) :
    maskFrom state (maskFrom state cs) = maskFrom state cs ∧
      quoteAfter state (maskFrom state cs) = quoteAfter state cs := by
  induction cs generalizing state with
  | nil => exact ⟨rfl, rfl⟩
  | cons c cs ih =>
    obtain ⟨hmask, hafter⟩ := ih (isQuote_of_mem_quoteStep hstate c)
    constructor
    · rw [maskFrom, maskFrom, maskStep_maskStep, quoteStep_maskStep hstate, hmask]
    · rw [maskFrom, quoteAfter, List.foldl_cons, quoteStep_maskStep hstate, quoteAfter, List.foldl_cons]
      exact hafter

theorem mask_mask (cs : List Char) : mask (mask cs) = mask cs :=
  (maskFrom_maskFrom (by simp) cs).1

theorem closed_mask_iff : Closed (mask cs) ↔ Closed cs := by
  rw [Closed, mask, (maskFrom_maskFrom (by simp) cs).2, Closed]

/-- **A text is masked to the one text in which exactly the characters inside quotes are blanked, and that is
masked to itself; texts without open quotes are masked piece by piece; and a quoted name, whatever it holds, is
masked to quotes and blanks and leaves the scanner outside quotes.** -/
theorem mask_hides :
    (∀ cs : List Char, (∀ masked, masked = mask cs ↔ IsMasked cs masked) ∧ mask (mask cs) = mask cs) ∧
      (∀ a b : List Char, Quoting a → mask (a ++ b) = mask a ++ mask b) ∧
      ∀ name : String, (∀ c ∈ mask (quote name).toList, c = '"' ∨ c = '_') ∧
        Quoting (quote name).toList ∧ quoteAfter none (mask (quote name).toList) = none := by
  refine ⟨fun cs => ⟨fun masked => ⟨?_, eq_mask_of_isMasked⟩, mask_mask cs⟩, ?_, ?_⟩
  · rintro rfl
    exact isMasked_mask cs
  · exact fun a b ha => mask_append ha.closed b
  · intro name
    have hclosed := closed_quote name
    exact ⟨fun c hc => mem_mask_quote hc, quoteAfter_eq_none_iff.mp hclosed, closed_mask_iff.mpr hclosed⟩

/-- A literal with a doubled quote and the word AS, before an open quote. -/
theorem mask_hides_literal :
    Quoting "'it''s' AS ".toList ∧ IsMasked "'it''s' AS \"a'".toList "'__''_' AS \"__".toList ∧
      mask ("'it''s' AS ".toList ++ "\"a'".toList) = "'__''_' AS ".toList ++ "\"__".toList := by
  have hquoting : Quoting "'it''s' AS ".toList := quoteAfter_eq_none_iff.mp (by decide)
  exact ⟨hquoting, ((mask_hides.1 _).1 _).mp (by decide), mask_hides.2.1 _ _ hquoting⟩

end MetricLayer.Sql
