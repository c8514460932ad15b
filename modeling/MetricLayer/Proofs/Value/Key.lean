import MetricLayer.Value.Key

/-!
# Equality of keys

`Value.sameKey` compares numbers of all kinds by their exact values, crosswise, and timestamps by the instant
they name.  It is an equivalence on the values that equal themselves: keys without a nan
(`Value.sameKey_self`, `Value.sameKey_comm`, `Value.sameKey_trans`).
-/

namespace MetricLayer

open MetricLayer.Number

/-! ## Exact values -/

namespace Exact

variable {a b c : Exact}

/-- A quotient has a denominator. -/
def IsProper : Exact → Prop
  | .ratio _ den => 0 < den
  | .infinite _ => True

@[simp] theorem same_self (a : Exact) : a.same a = true := by
  cases a <;> simp [same]

theorem same_comm (a b : Exact) : a.same b = b.same a := by
  cases a <;> cases b <;> simp only [same] <;> rw [Bool.beq_comm]

/-- The quotient in the middle has a denominator, which the two products share. -/
theorem same_trans (hb : b.IsProper) (hab : a.same b = true) (hbc : b.same c = true) :
    a.same c = true := by
  cases a with
  | infinite s => cases b <;> cases c <;> simp_all [same]
  | ratio n d =>
    cases b with
    | infinite s => cases hab
    | ratio n' d' =>
      cases c with
      | infinite s => cases hbc
      | ratio n'' d'' =>
        simp only [same, beq_iff_eq] at hab hbc ⊢
        have hd' : (d' : Int) ≠ 0 := by exact_mod_cast Nat.ne_of_gt hb
        refine Int.eq_of_mul_eq_mul_right hd' ?_
        calc n * d'' * d' = n * d' * d'' := Int.mul_right_comm ..
          _ = n' * d'' * d := by rw [hab, Int.mul_right_comm]
          _ = n'' * d * d' := by rw [hbc, Int.mul_right_comm]

end Exact

/-! ## Values -/

theorem Timestamp.sameInstant_iff {s t : Timestamp} :
    s.sameInstant t = true ↔ s.offset.isSome = t.offset.isSome ∧ s.instant = t.instant := by
  rw [sameInstant, Bool.and_eq_true, beq_iff_eq, beq_iff_eq]

namespace Value

variable {u v w : Value} {a : Exact}

/-- The value is a nan, which equals no value. -/
def isNan : Value → Bool
  | .float .nan => true
  | .decimal (.nan ..) => true
  | _ => false

theorem isProper_of_numeric?_eq_some (h : v.numeric? = some a) : a.IsProper := by
  unfold numeric? at h
  split at h
  all_goals cases h
  case h_1 | h_2 => exact Nat.one_pos
  case h_3 => exact Nat.two_pow_pos _
  case h_5 => exact Nat.pow_pos (by decide)
  case h_4 | h_6 => trivial

theorem sameKey_timestamp (s t : Timestamp) :
    sameKey (.timestamp s) (.timestamp t) = s.sameInstant t := rfl

theorem sameKey_eq_same {b : Exact} (hv : v.numeric? = some a) (hw : w.numeric? = some b) :
    v.sameKey w = a.same b := by
  simp only [sameKey, hv, hw]

/-- Only a number is one key with a number. -/
theorem exists_numeric?_of_sameKey (hv : v.numeric? = some a) (h : v.sameKey w = true) :
    ∃ b, w.numeric? = some b ∧ a.same b = true := by
  cases hw : w.numeric? with
  | none => simp [sameKey, hv, hw] at h
  | some b => exact ⟨b, rfl, sameKey_eq_same hv hw ▸ h⟩

/-- What is no number is one key with itself, or with a timestamp of the same instant. -/
theorem eq_or_sameInstant_of_sameKey (hv : v.numeric? = none) (h : v.sameKey w = true) :
    v = w ∨ ∃ s t, v = .timestamp s ∧ w = .timestamp t ∧ s.sameInstant t = true := by
  cases hw : w.numeric? with
  | some b => simp [sameKey, hv, hw] at h
  | none =>
    simp only [sameKey, hv, hw] at h
    split at h
    case h_5 s t => exact .inr ⟨s, t, rfl, rfl, h⟩
    all_goals simp_all

theorem sameKey_self (hkey : v.isKey = true) (hnan : v.isNan = false) : v.sameKey v = true := by
  cases hv : v.numeric? with
  | some a => rw [sameKey_eq_same hv hv, Exact.same_self]
  | none =>
    simp only [sameKey, hv]
    cases v with
    | float x => cases x <;> simp_all [numeric?, isNan]
    | decimal d => cases d <;> simp_all [numeric?, isNan]
    | _ => simp_all [numeric?, isKey, Timestamp.sameInstant]

theorem sameKey_symm (h : v.sameKey w = true) : w.sameKey v = true := by
  cases hv : v.numeric? with
  | some a =>
    obtain ⟨b, hw, hab⟩ := exists_numeric?_of_sameKey hv h
    rw [sameKey_eq_same hw hv, Exact.same_comm, hab]
  | none =>
    obtain rfl | ⟨s, t, rfl, rfl, hst⟩ := eq_or_sameInstant_of_sameKey hv h
    · exact h
    · obtain ⟨hoffset, hinstant⟩ := Timestamp.sameInstant_iff.mp hst
      exact Timestamp.sameInstant_iff.mpr ⟨hoffset.symm, hinstant.symm⟩

theorem sameKey_comm (v w : Value) : v.sameKey w = w.sameKey v :=
  Bool.eq_iff_iff.mpr ⟨sameKey_symm, sameKey_symm⟩

theorem sameKey_trans (huv : u.sameKey v = true) (hvw : v.sameKey w = true) : u.sameKey w = true := by
  cases hu : u.numeric? with
  | some a =>
    obtain ⟨b, hv, hab⟩ := exists_numeric?_of_sameKey hu huv
    obtain ⟨c, hw, hbc⟩ := exists_numeric?_of_sameKey hv hvw
    rw [sameKey_eq_same hu hw]
    exact Exact.same_trans (isProper_of_numeric?_eq_some hv) hab hbc
  | none =>
    obtain rfl | ⟨r, s, rfl, rfl, hrs⟩ := eq_or_sameInstant_of_sameKey hu huv
    · exact hvw
    · obtain rfl | ⟨s, t, hs, rfl, hst⟩ := eq_or_sameInstant_of_sameKey rfl hvw
      · exact huv
      · cases hs
        rw [sameKey_timestamp, Timestamp.sameInstant_iff] at *
        exact ⟨hrs.1.trans hst.1, hrs.2.trans hst.2⟩

end Value

end MetricLayer
