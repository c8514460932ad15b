import MetricLayer.Proofs.Sql.Name
import MetricLayer.Sql.Aggregate

/-!
# Erasing a pattern

Erasing goes through a text from left to right: a match is left out as a whole, and anything else is one character
that stays (`eraseAfter_of_match`, `eraseAfter_cons`).  This holds of patterns that read some characters and look at
neither the offset nor anything before the last character (`IsLocal`), among them the two patterns of qualifiers.
-/

namespace MetricLayer.Sql

open MetricLayer.Text

/-- A pattern reads at least one character, whatever the offset. -/
structure IsLocal (pattern : Place → Option (List Char)) : Prop where
  offset : ∀ (m n : Nat) (b : Option Char) (cs : List Char), pattern ⟨m, b, cs⟩ = pattern ⟨n, b, cs⟩
  suffix : ∀ (n : Nat) (b : Option Char) (cs after : List Char), pattern ⟨n, b, cs⟩ = some after →
    ∃ c m, cs = c :: m ++ after

/-- The text behind a character without the matches of a pattern. -/
def eraseAfter (pattern : Place → Option (List Char)) (b : Option Char) (cs : List Char) : List Char :=
  eraseFrom pattern 0 (placesFrom 0 b cs)

variable {pattern : Place → Option (List Char)} {b : Option Char} {c : Char} {n next : Nat}
  {cs after m x y : List Char}

theorem erase_eq_eraseAfter (pattern : Place → Option (List Char)) (cs : List Char) :
    erase pattern cs = eraseAfter pattern none cs :=
  rfl

/-! ## One step -/

/-- The places inside a match are left out. -/
theorem eraseFrom_append_of_lt (h : n + m.length ≤ next) (cs : List Char) :
    eraseFrom pattern next (placesFrom n b (m ++ cs)) =
      eraseFrom pattern next (placesFrom (n + m.length) (lastOr b m) cs) := by
  induction m generalizing n b with
  | nil => rfl
  | cons c m ih =>
    rw [List.length_cons] at h
    have hskip : n < next := by omega
    rw [List.cons_append, placesFrom, eraseFrom, if_pos hskip, ih (by omega), lastOr_cons, List.length_cons,
      Nat.add_assoc, Nat.add_comm 1]

theorem IsLocal.eq_none (h : IsLocal pattern) : pattern ⟨n, b, []⟩ = none := by
  cases hmatch : pattern ⟨n, b, []⟩ with
  | none => rfl
  | some after =>
    obtain ⟨c, m, heq⟩ := h.suffix _ _ _ _ hmatch
    cases heq

/-- It does not matter where the text starts, if nothing of it is left out already. -/
theorem IsLocal.eraseFrom_placesFrom (h : IsLocal pattern) (hle : next ≤ n) :
    eraseFrom pattern next (placesFrom n b cs) = eraseAfter pattern b cs := by
  -- a match may be long, so the induction is on the length of the text
  induction hlength : cs.length using Nat.strong_induction_on generalizing n next b cs with
  | h k ih =>
    subst hlength
    cases cs with
    | nil =>
      simp only [eraseAfter, placesFrom, eraseFrom, h.eq_none, Nat.not_lt.mpr hle, Nat.lt_irrefl, if_false]
    | cons c cs =>
      rw [eraseAfter, placesFrom, placesFrom, eraseFrom, eraseFrom, if_neg (Nat.not_lt.mpr hle),
        if_neg (Nat.lt_irrefl 0)]
      simp only [h.offset n 0]
      cases hmatch : pattern ⟨0, b, c :: cs⟩ with
      | none =>
        simp only [ih cs.length (Nat.lt_succ_self _) (Nat.le_succ_of_le hle) rfl,
          ih cs.length (Nat.lt_succ_self _) (Nat.zero_le _) rfl]
      | some after =>
        obtain ⟨d, m, heq⟩ := h.suffix _ _ _ _ hmatch
        rw [List.cons_append] at heq
        obtain ⟨rfl, rfl⟩ := List.cons.inj heq
        have hread : (c :: (m ++ after)).length - after.length = 1 + m.length := by
          rw [List.length_cons, List.length_append]
          omega
        have hshorter : after.length < (c :: (m ++ after)).length := by
          rw [List.length_cons, List.length_append]
          omega
        simp only [hread]
        rw [eraseFrom_append_of_lt (by omega), eraseFrom_append_of_lt (by omega),
          ih after.length hshorter (by omega) rfl, ih after.length hshorter (by omega) rfl]

theorem IsLocal.eraseAfter_nil (h : IsLocal pattern) : eraseAfter pattern b [] = [] := by
  rw [eraseAfter, placesFrom, eraseFrom, if_neg (Nat.lt_irrefl 0)]
  simp only [h.eq_none]

/-- A character at which there is no match stays. -/
theorem IsLocal.eraseAfter_cons (h : IsLocal pattern) (hnone : pattern ⟨0, b, c :: cs⟩ = none) :
    eraseAfter pattern b (c :: cs) = c :: eraseAfter pattern (some c) cs := by
  rw [eraseAfter, placesFrom, eraseFrom, if_neg (Nat.lt_irrefl 0)]
  simp only [hnone, h.eraseFrom_placesFrom (Nat.zero_le _)]

/-- A match is left out. -/
theorem IsLocal.eraseAfter_of_match (h : IsLocal pattern) (hmatch : pattern ⟨0, b, m ++ after⟩ = some after) :
    eraseAfter pattern b (m ++ after) = eraseAfter pattern (lastOr b m) after := by
  obtain ⟨c, m', heq⟩ := h.suffix _ _ _ _ hmatch
  obtain rfl : m = c :: m' := List.append_cancel_right heq
  rw [eraseAfter, List.cons_append, placesFrom, eraseFrom, if_neg (Nat.lt_irrefl 0)]
  rw [List.cons_append] at hmatch
  have hread : 0 + ((c :: (m' ++ after)).length - after.length) = 0 + 1 + m'.length := by
    rw [List.length_cons, List.length_append]
    omega
  simp only [hmatch, hread]
  rw [eraseFrom_append_of_lt (Nat.le_refl _), h.eraseFrom_placesFrom (Nat.le_refl _), lastOr_cons]

/-- A text in which no match starts stays. -/
theorem IsLocal.eraseAfter_append (h : IsLocal pattern)
    (hnone : ∀ u d v, x = u ++ d :: v → pattern ⟨0, lastOr b u, d :: (v ++ y)⟩ = none) :
    eraseAfter pattern b (x ++ y) = x ++ eraseAfter pattern (lastOr b x) y := by
  induction x generalizing b with
  | nil => rfl
  | cons c x ih =>
    have hfirst : pattern ⟨0, b, c :: (x ++ y)⟩ = none := hnone [] c x rfl
    have hlater : ∀ u d v, x = u ++ d :: v → pattern ⟨0, lastOr (some c) u, d :: (v ++ y)⟩ = none := by
      rintro u d v rfl
      have hnext := hnone (c :: u) d v rfl
      rwa [lastOr_cons] at hnext
    rw [List.cons_append, h.eraseAfter_cons hfirst, ih hlater, lastOr_cons]
    rfl

/-! ## Points -/

theorem afterPoint?_eq_some_iff :
    afterPoint? cs = some after ↔
      ∃ u v, cs = u ++ '.' :: (v ++ after) ∧ (∀ c ∈ u, isBlank c) ∧ (∀ c ∈ v, isBlank c) ∧
        ∀ c ∈ after.head?, isBlank c = false := by
  have hpoint : isBlank '.' = false := by decide
  constructor
  · intro h
    rw [afterPoint?] at h
    split at h
    next rest heq =>
      cases h
      refine ⟨cs.takeWhile isBlank, rest.takeWhile isBlank, ?_, fun c hc => List.mem_takeWhile_imp hc,
        fun c hc => List.mem_takeWhile_imp hc, head?_dropWhile_not isBlank rest⟩
      rw [List.takeWhile_append_dropWhile, ← heq, List.takeWhile_append_dropWhile]
    next => cases h
  · rintro ⟨u, v, rfl, hu, hv, hafter⟩
    rw [afterPoint?, List.dropWhile_append_of_pos hu,
      List.dropWhile_cons_of_neg (by rw [hpoint]; exact Bool.false_ne_true)]
    simp only [List.dropWhile_append_of_pos hv, dropWhile_eq_self hafter]

theorem afterPoint?_point (cs : List Char) : afterPoint? ('.' :: cs) = some (cs.dropWhile isBlank) :=
  rfl

theorem afterPoint?_blank (hc : isBlank c) : afterPoint? (c :: cs) = afterPoint? cs := by
  rw [afterPoint?, afterPoint?, List.dropWhile_cons_of_pos hc]

theorem afterPoint?_cons_eq_none (hblank : isBlank c = false) (hc : c ≠ '.') : afterPoint? (c :: cs) = none := by
  rw [afterPoint?, List.dropWhile_cons_of_neg (by rw [hblank]; exact Bool.false_ne_true)]
  split
  next heq =>
    cases heq
    exact absurd rfl hc
  next => rfl

/-! ## The patterns of qualifiers -/

theorem isLocal_quotedQualifier? : IsLocal quotedQualifier? where
  offset _ _ _ _ := rfl
  suffix n b cs after h := by
    rw [quotedQualifier?.eq_def] at h
    dsimp only at h
    split at h
    next cs =>
      split at h
      next => cases h
      next body rest _ hread =>
        obtain ⟨u, v, rfl, -⟩ := afterPoint?_eq_some_iff.mp h
        refine ⟨'"', body ++ '"' :: (u ++ '.' :: v), ?_⟩
        rw [eq_of_quotedBody?_eq_some hread]
        simp only [List.append_assoc, List.cons_append]
      next => cases h
    next => cases h

/-- A word that qualifies, with its point and the white space around that. -/
theorem exists_of_wordQualifier? (h : wordQualifier? ⟨n, b, cs⟩ = some after) :
    ∃ c w u v, cs = c :: (w ++ (u ++ '.' :: v)) ++ after ∧ isNameStart c ∧ (∀ d ∈ w, isWord d) ∧
      (∀ d ∈ u, isBlank d) ∧ ∀ d ∈ v, isBlank d := by
  rw [wordQualifier?.eq_def] at h
  dsimp only at h
  split at h
  next c cs =>
    split at h
    next hstart =>
      obtain ⟨hpoint, -⟩ := Option.filter_eq_some_iff.mp h
      obtain ⟨u, v, heq, hu, hv, -⟩ := afterPoint?_eq_some_iff.mp hpoint
      refine ⟨c, cs.takeWhile isWord, u, v, ?_, (Bool.and_eq_true_iff.mp hstart).2,
        fun d hd => List.mem_takeWhile_imp hd, hu, hv⟩
      rw [List.cons_append, List.append_assoc, List.append_assoc, List.cons_append, ← heq,
        List.takeWhile_append_dropWhile]
    next => cases h
  next => cases h

theorem isLocal_wordQualifier? : IsLocal wordQualifier? where
  offset _ _ _ _ := rfl
  suffix n b cs after h := by
    obtain ⟨c, w, u, v, heq, -⟩ := exists_of_wordQualifier? h
    exact ⟨c, _, heq⟩

end MetricLayer.Sql
