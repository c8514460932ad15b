import MetricLayer.Number.Places
import MetricLayer.Proofs.Engine.Sanitize
import MetricLayer.Proofs.Number.Decimal

/-!
# Whole numbers with a fixed number of places

Integers up to 2^53 - 1 keep their value as floating-point numbers (`exists_ofRatio_eq`), so their text shows their
own digits, in groups of three (`Grouping`), and zeros behind the point (`exists_magnitudeText_eq`).
-/

namespace MetricLayer.Number

/-! ## Groups of three -/

/-- Digits cut into groups of three, counted from the right; one to three digits stand in front of them. -/
structure Grouping (digits : List Char) where
  front : List Char
  groups : List (List Char)
  digits_eq : front ++ groups.flatten = digits
  front_ne_nil : front ≠ []
  length_front : front.length ≤ 3
  length_groups : ∀ g ∈ groups, g.length = 3

namespace Grouping

variable {digits : List Char}

/-- The digits with a comma before every group. -/
def text (g : Grouping digits) : List Char :=
  g.front ++ g.groups.flatMap (',' :: ·)

/-- One more group at the end. -/
def concat (g : Grouping digits) {last : List Char} (h : last.length = 3) : Grouping (digits ++ last) where
  front := g.front
  groups := g.groups ++ [last]
  digits_eq := by rw [List.flatten_concat, ← List.append_assoc, g.digits_eq]
  front_ne_nil := g.front_ne_nil
  length_front := g.length_front
  length_groups := List.forall_mem_append.mpr ⟨g.length_groups, List.forall_mem_singleton.mpr h⟩

theorem text_concat (g : Grouping digits) {last : List Char} (h : last.length = 3) :
    (g.concat h).text = g.text ++ ',' :: last := by
  rw [text, text, concat, List.flatMap_append, List.flatMap_singleton, List.append_assoc]

/-- Without the commas the digits are left. -/
theorem filter_text (g : Grouping digits) (h : ',' ∉ digits) : g.text.filter (· != ',') = digits := by
  have hkeep {cs : List Char} (hcs : ',' ∉ cs) : cs.filter (· != ',') = cs :=
    List.filter_eq_self.mpr (Text.bne_of_not_mem hcs)
  have hgroups : ∀ groups : List (List Char), ',' ∉ groups.flatten →
      (groups.flatMap (',' :: ·)).filter (· != ',') = groups.flatten := by
    intro groups
    induction groups with
    | nil => exact fun _ => rfl
    | cons last groups ih =>
      intro hmem
      rw [List.flatten_cons, List.mem_append, not_or] at hmem
      rw [List.flatMap_cons, List.flatten_cons, List.filter_append, List.filter_cons_of_neg (by decide),
        hkeep hmem.1, ih hmem.2]
  have hparts := g.digits_eq ▸ h
  rw [List.mem_append, not_or] at hparts
  rw [text, List.filter_append, hkeep hparts.1, hgroups _ hparts.2, g.digits_eq]

end Grouping

theorem exists_groupFromEnd_eq {ds : List Char} (h : ds ≠ []) :
    ∃ g : Grouping ds.reverse, (groupFromEnd ds).reverse = g.text := by
  induction ds using groupFromEnd.induct with
  | case1 a b c d ds ih =>
    -- the last three digits are one group, the digits before them are cut already
    obtain ⟨g, hg⟩ := ih (List.cons_ne_nil d ds)
    have hreverse : (a :: b :: c :: d :: ds).reverse = (d :: ds).reverse ++ [c, b, a] := by simp
    rw [hreverse]
    refine ⟨g.concat rfl, ?_⟩
    rw [Grouping.text_concat, ← hg, groupFromEnd]
    simp
  | case2 ds hshort =>
    have hlength : ds.length ≤ 3 := by
      match ds, hshort with
      | [], _ | [_], _ | [_, _], _ | [_, _, _], _ => simp
      | a :: b :: c :: d :: ds, hshort => exact absurd rfl (hshort a b c d ds)
    refine ⟨⟨ds.reverse, [], by simp, by simpa using h, by simpa using hlength, List.forall_mem_nil _⟩, ?_⟩
    rw [groupFromEnd.eq_2 ds hshort]
    simp [Grouping.text]

theorem exists_grouped_eq {digits : List Char} (h : digits ≠ []) : ∃ g : Grouping digits, grouped digits = g.text := by
  have hreverse : digits.reverse ≠ [] := by simpa using h
  have hgroups := exists_groupFromEnd_eq hreverse
  rwa [List.reverse_reverse] at hgroups

/-! ## Whole numbers -/

/-- **Integers of at most 53 bits are floating-point numbers.** -/
theorem exists_ofRatio_eq {n : Nat} (h : n < 2 ^ (53 : Nat)) (negative : Bool) :
    ∃ m e k, Binary64.ofRatio negative n 1 = .finite negative m e ∧ Binary64.ratio m e = (n * 2 ^ k, 2 ^ k) := by
  rw [Binary64.ofRatio]
  split_ifs with hzero
  · refine ⟨0, Binary64.leastExponent, (-Binary64.leastExponent).toNat, rfl, ?_⟩
    rw [Binary64.ratio, hzero, Nat.zero_mul, Nat.zero_mul]
  · have hlog : n.log2 < 53 := (Nat.log2_lt hzero).mpr h
    -- the significand is shifted up to 53 bits, so nothing is rounded
    obtain ⟨k, hk⟩ : ∃ k, n.log2 + k = 52 := ⟨52 - n.log2, by omega⟩
    have hexponent : max Binary64.leastExponent ((n.log2 : Int) - 52) = -(k : Int) := by
      rw [Binary64.leastExponent]
      omega
    have hround : nearestEven (n * 2 ^ (- -(k : Int)).toNat) (1 * 2 ^ (-(k : Int)).toNat) = n * 2 ^ k := by
      have hexact := nearestEven_mul (n * 2 ^ k) 1 Nat.one_pos
      rw [neg_neg, Int.toNat_natCast, Int.toNat_neg_natCast, pow_zero, Nat.one_mul]
      rwa [Nat.mul_one] at hexact
    have hsmall : n * 2 ^ k < 2 ^ (53 : Nat) := calc
      n * 2 ^ k < 2 ^ (n.log2 + 1) * 2 ^ k := Nat.mul_lt_mul_of_pos_right Nat.lt_log2_self (Nat.two_pow_pos k)
      _ = 2 ^ (n.log2 + k + 1) := by rw [← pow_add, Nat.add_right_comm]
      _ = 2 ^ (53 : Nat) := by rw [hk]
    have hpositive : n * 2 ^ k ≠ 0 := by positivity
    have hgreatest : ¬ Binary64.greatestExponent < -(k : Int) := by
      rw [Binary64.greatestExponent]
      omega
    refine ⟨n * 2 ^ k, -k, k, ?_, ?_⟩
    · rw [floorLog2_one hzero]
      dsimp only
      rw [hexponent, hround, if_neg hsmall.ne]
      dsimp only
      rw [if_neg hpositive, if_neg hgreatest]
    · rw [Binary64.ratio, Int.toNat_neg_natCast, pow_zero, Nat.mul_one, neg_neg, Int.toNat_natCast]

/-- A whole number has zeros behind the point. -/
theorem placesText_mul (n places : Nat) :
    placesText (n * 10 ^ places) places =
      unsignedNumeral (grouped (decimalDigits n)) (List.replicate places '0') := by
  have hpositive : 0 < 10 ^ places := by positivity
  rw [placesText, Nat.mul_div_cancel n hpositive, Nat.mul_mod_left]
  cases places with
  | zero => exact (List.append_nil _).symm
  | succ places =>
    have hzero : decimalDigits 0 = ['0'] := rfl
    have hzeros : List.replicate (places + 1) '0' = List.replicate places '0' ++ ['0'] := List.replicate_succ'
    rw [unsignedNumeral, hzeros, hzero]
    simp

/-- **Integers are shown exactly**: their own digits in groups of three, and zeros behind the point. -/
theorem exists_magnitudeText_eq {n : Int} (h : n.natAbs ≤ greatestSafeInteger) (places : Nat) :
    ∃ x, Binary64.ofInt? n = some x ∧ ∃ g : Grouping (decimalDigits n.natAbs),
      x.magnitudeText places = unsignedNumeral g.text (List.replicate places '0') := by
  have hsmall : n.natAbs < 2 ^ (53 : Nat) := Nat.lt_of_le_pred (by decide) h
  obtain ⟨m, e, k, hfinite, hratio⟩ := exists_ofRatio_eq hsmall (n < 0)
  have hdigits : decimalDigits n.natAbs ≠ [] := Nat.toDigits_ne_nil
  obtain ⟨g, hg⟩ := exists_grouped_eq hdigits
  refine ⟨.finite (n < 0) m e, ?_, g, ?_⟩
  · rw [Binary64.ofInt?, hfinite]
  · have hscaled : n.natAbs * 2 ^ k * 10 ^ places = n.natAbs * 10 ^ places * 2 ^ k := Nat.mul_right_comm _ _ _
    rw [Binary64.magnitudeText, hratio]
    dsimp only
    rw [hscaled, nearestEven_mul _ _ (Nat.two_pow_pos k), placesText_mul, hg]

end MetricLayer.Number
