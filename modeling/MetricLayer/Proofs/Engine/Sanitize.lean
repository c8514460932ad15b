import MetricLayer.Engine.Sanitize
import Mathlib.Tactic.NormNum
import Mathlib.Tactic.Ring

/-!
# Rows that can be sanitized

Every value is sanitized but the integers that round beyond the greatest floating-point number and the
decimal numbers that signal (`Value.IsSanitizable`, `exists_sanitizeRows`).  Sanitizing a second time changes
nothing but the integers of oversized bytes (`sanitizeRows_self_iff`).
-/

namespace MetricLayer

open MetricLayer.Number

namespace Number

/-- A quotient that lies nearer to a smaller number is not rounded up to a natural number. -/
theorem nearestEven_lt {num half k : Nat} (h : num < half * (2 * k - 1)) :
    nearestEven num (2 * half) < k := by
  have hdiv : 2 * half * (num / (2 * half)) + num % (2 * half) = num := Nat.div_add_mod _ _
  have hfactor : 2 * half * (num / (2 * half)) = half * (2 * (num / (2 * half))) := by ring
  -- the quotient is below `k`, and rounding it up leaves it there
  have hquotient : 2 * (num / (2 * half)) < 2 * k - 1 := by
    apply Nat.lt_of_mul_lt_mul_left (a := half)
    omega
  have hround (hr : half ≤ num % (2 * half)) : 2 * (num / (2 * half)) + 1 < 2 * k - 1 := by
    apply Nat.lt_of_mul_lt_mul_left (a := half)
    rw [Nat.mul_succ]
    omega
  rw [nearestEven]
  split_ifs with hbelow heven
  · omega
  · omega
  · have := hround (by omega)
    omega

theorem floorLog2_one {n : Nat} (h : n ≠ 0) : floorLog2 n 1 = n.log2 := by
  have hlog : Nat.log2 1 = 0 := by decide
  have hle : 1 * 2 ^ (n.log2 : Int).toNat ≤ n * 2 ^ (-(n.log2 : Int)).toNat := by
    rw [Int.toNat_natCast, Int.toNat_neg_natCast, one_mul, pow_zero, mul_one]
    exact Nat.log2_self_le h
  rw [floorLog2, hlog]
  simp only [Nat.cast_zero, sub_zero]
  rw [if_pos hle]

/-- The least magnitude of integers that round beyond the greatest floating-point number. -/
def overflowBound : Nat :=
  2 ^ (Binary64.greatestExponent.toNat - 1) * (2 * 2 ^ (53 : Nat) - 1)

theorem log2_lt_of_lt {n k : Nat} (hn : n ≠ 0) (h : n < 2 ^ k * (2 * 2 ^ (53 : Nat) - 1)) :
    n.log2 < k + 54 := by
  rw [Nat.log2_lt hn, pow_add]
  exact h.trans_le (Nat.mul_le_mul_left _ (by decide))

/-- Smaller integers have a nearest floating-point number. -/
theorem isSome_ofInt? {n : Int} (h : n.natAbs < overflowBound) : (Binary64.ofInt? n).isSome := by
  -- the greatest exponent is kept as a variable, so that its power is not computed
  obtain ⟨k, hk⟩ : ∃ k : Nat, Binary64.greatestExponent = k + 1 :=
    ⟨970, by norm_num [Binary64.greatestExponent]⟩
  have hbound : n.natAbs < 2 ^ k * (2 * 2 ^ (53 : Nat) - 1) := by
    have hpred : ((k : Int) + 1).toNat - 1 = k := by omega
    unfold overflowBound at h
    rwa [hk, hpred] at h
  have hfinite : ∀ b, Binary64.ofRatio (n < 0) n.natAbs 1 ≠ .infinite b := by
    intro b
    rw [Binary64.ofRatio]
    split_ifs with hzero
    · nofun
    · have hlog := log2_lt_of_lt hzero hbound
      rw [floorLog2_one hzero, hk]
      dsimp only
      obtain ⟨e, he⟩ : ∃ e, max Binary64.leastExponent ((n.natAbs.log2 : Int) - 52) = e := ⟨_, rfl⟩
      obtain ⟨m, hm⟩ : ∃ m, nearestEven (n.natAbs * 2 ^ (-e).toNat) (1 * 2 ^ e.toNat) = m := ⟨_, rfl⟩
      rw [he, hm]
      -- the significand is not rounded up to 53 bits at the greatest exponent
      have hfits : e ≤ k ∨ e = k + 1 ∧ m < 2 ^ (53 : Nat) := by
        rw [Binary64.leastExponent] at he
        by_cases hlt : e ≤ k
        · exact Or.inl hlt
        · obtain rfl : e = k + 1 := by omega
          have hpower : 2 ^ ((k : Int) + 1).toNat = 2 * 2 ^ k := pow_succ' 2 k
          have hone : (-((k : Int) + 1)).toNat = 0 := by omega
          rw [hone, hpower, one_mul, pow_zero, mul_one] at hm
          exact Or.inr ⟨rfl, hm ▸ nearestEven_lt hbound⟩
      by_cases hround : m = 2 ^ (53 : Nat)
      · have hle : ¬ (k : Int) + 1 < e + 1 := by omega
        have hpositive : ¬ 2 ^ (52 : Nat) = 0 := by decide
        rw [if_pos hround, if_neg hpositive, if_neg hle]
        nofun
      · have hle : ¬ (k : Int) + 1 < e := by omega
        rw [if_neg hround, if_neg hle]
        split_ifs <;> nofun
  rw [Binary64.ofInt?]
  split
  · exact absurd ‹_› (hfinite _)
  · rfl

end Number

/-- The value is sanitized: integers are not too large for a floating-point number, and decimal numbers do
not signal. -/
def Value.IsSanitizable : Value → Prop
  | .int n => n.natAbs < overflowBound
  | .decimal (.nan _ signaling _) => signaling = false
  | _ => True

theorem Value.IsSanitizable.exists_sanitize {v : Value} (h : v.IsSanitizable) :
    ∃ w, v.sanitize = .ok w := by
  cases v with
  | int n =>
    rw [sanitize]
    split_ifs
    · exact ⟨_, rfl⟩
    · obtain ⟨x, hx⟩ := Option.isSome_iff_exists.mp (isSome_ofInt? h)
      exact ⟨.float x, by rw [hx]⟩
  | decimal d =>
    rw [sanitize]
    cases d with
    | nan negative signaling payload =>
      obtain rfl : signaling = false := h
      exact ⟨_, rfl⟩
    | finite => exact ⟨_, rfl⟩
    | infinite => exact ⟨_, rfl⟩
  | _ => exact ⟨_, rfl⟩

theorem exists_mapM_eq_ok {ε α β : Type} {f : α → Except ε β} {as : List α}
    (h : ∀ a ∈ as, ∃ b, f a = .ok b) : ∃ bs, as.mapM f = .ok bs := by
  induction as with
  | nil => exact ⟨[], rfl⟩
  | cons a as ih =>
    obtain ⟨b, hb⟩ := h a List.mem_cons_self
    obtain ⟨bs, hbs⟩ := ih fun a ha => h a (List.mem_cons_of_mem _ ha)
    refine ⟨b :: bs, ?_⟩
    rw [List.mapM_cons, hb, hbs]
    rfl

theorem exists_sanitizeRows {rows : List Row} (h : ∀ row ∈ rows, ∀ cell ∈ row, cell.2.IsSanitizable) :
    ∃ sanitized, sanitizeRows rows = .ok sanitized := by
  refine exists_mapM_eq_ok fun row hrow => exists_mapM_eq_ok fun cell hcell => ?_
  obtain ⟨w, hw⟩ := (h row hrow cell hcell).exists_sanitize
  refine ⟨(cell.1, w), ?_⟩
  show (cell.2.sanitize).map _ = _
  rw [hw]
  rfl

/-! ## Sanitizing twice -/

/-- Bytes that write an integer beyond the safe ones. -/
def Value.IsOversized : Value → Prop
  | .bytes bs => greatestSafeInteger < littleEndian (bs.take integerBytes)
  | _ => False

instance : DecidablePred Value.IsOversized
  | .bytes bs => inferInstanceAs (Decidable (greatestSafeInteger < littleEndian (bs.take integerBytes)))
  | .null | .bool _ | .int _ | .float _ | .text _ | .list _ | .object _ | .decimal _ | .date _ | .timestamp _
  | .duration _ | .uuid _ => inferInstanceAs (Decidable False)

/-- The value is as every reader of results knows it: an integer is a safe one, and sanitizing leaves the value as
it is. -/
structure Value.IsSettled (v : Value) : Prop where
  safe : ∀ n, v = .int n → n.natAbs ≤ greatestSafeInteger
  stable : v.sanitize = .ok v

namespace Value

variable {v w : Value}

theorem isSettled_of_not_int (hint : ∀ n, v ≠ .int n) (h : v.sanitize = .ok v) : v.IsSettled :=
  ⟨fun n hn => absurd hn (hint n), h⟩

theorem isSettled_int_iff {n : Int} : (Value.int n).IsSettled ↔ n.natAbs ≤ greatestSafeInteger := by
  constructor
  · exact fun h => h.safe n rfl
  · intro h
    refine ⟨fun m hm => ?_, ?_⟩
    · cases hm
      exact h
    · rw [sanitize, if_pos h]

/-- Integers that are too large do not stay integers. -/
theorem isSettled_iff : v.IsSettled ↔ v.sanitize = .ok v := by
  refine ⟨IsSettled.stable, fun h => ⟨?_, h⟩⟩
  rintro n rfl
  rw [sanitize] at h
  split at h
  next hsafe => exact hsafe
  next => split at h <;> cases h

/-- **Sanitizing settles every value but oversized bytes.** -/
theorem isSettled_iff_of_sanitize (h : v.sanitize = .ok w) : w.IsSettled ↔ ¬ v.IsOversized := by
  have hplain (hv : ¬ v.IsOversized) (hw : w.IsSettled) : w.IsSettled ↔ ¬ v.IsOversized := iff_of_true hw hv
  cases v with
  | int n =>
    refine hplain not_false ?_
    rw [sanitize] at h
    split at h
    next hsafe =>
      cases h
      exact isSettled_int_iff.mpr hsafe
    next =>
      split at h
      next =>
        cases h
        exact isSettled_of_not_int nofun rfl
      next => cases h
  | decimal d =>
    refine hplain not_false ?_
    rw [sanitize] at h
    split at h
    next =>
      cases h
      exact isSettled_of_not_int nofun rfl
    next => cases h
  | bytes bs =>
    cases h
    rw [isSettled_int_iff, Int.natAbs_natCast]
    exact Nat.not_lt.symm
  | null | bool | float | text | list | object | date | timestamp | duration | uuid =>
    cases h
    exact hplain not_false (isSettled_of_not_int nofun rfl)

end Value

section rows

variable {ε α β : Type}

theorem mapM_cons_eq_ok_iff {f : α → Except ε β} {a : α} {as : List α} {bs : List β} :
    (a :: as).mapM f = .ok bs ↔ ∃ b rest, f a = .ok b ∧ as.mapM f = .ok rest ∧ bs = b :: rest := by
  rw [List.mapM_cons]
  constructor
  · intro h
    cases hhead : f a with
    | error => rw [hhead] at h; cases h
    | ok b =>
      cases hrest : as.mapM f with
      | error => rw [hhead, hrest] at h; cases h
      | ok rest =>
        rw [hhead, hrest] at h
        cases h
        exact ⟨b, rest, rfl, rfl, rfl⟩
  · rintro ⟨b, rest, hhead, hrest, rfl⟩
    rw [hhead, hrest]
    rfl

/-- A second pass leaves a list as it is when it leaves each entry as it is. -/
theorem mapM_self_iff {f : α → Except ε α} {P : α → Prop} {as bs : List α}
    (hf : ∀ a ∈ as, ∀ b, f a = .ok b → (f b = .ok b ↔ P a)) (h : as.mapM f = .ok bs) :
    bs.mapM f = .ok bs ↔ ∀ a ∈ as, P a := by
  induction as generalizing bs with
  | nil =>
    cases h
    exact iff_of_true rfl (List.forall_mem_nil _)
  | cons a as ih =>
    obtain ⟨b, rest, hhead, hrest, rfl⟩ := mapM_cons_eq_ok_iff.mp h
    have hentry : f b = .ok b ↔ P a := hf a List.mem_cons_self b hhead
    have hlater : rest.mapM f = .ok rest ↔ ∀ a ∈ as, P a :=
      ih (fun a ha => hf a (List.mem_cons_of_mem _ ha)) hrest
    rw [List.forall_mem_cons, ← hentry, ← hlater, mapM_cons_eq_ok_iff]
    constructor
    · rintro ⟨b', rest', hb, hrest', heq⟩
      cases heq
      exact ⟨hb, hrest'⟩
    · rintro ⟨hb, hrest'⟩
      exact ⟨b, rest, hb, hrest', rfl⟩

end rows

/-- No cell of the rows holds oversized bytes. -/
def HaveNoOversized (rows : List Row) : Prop :=
  ∀ row ∈ rows, ∀ cell ∈ row, ¬ cell.2.IsOversized

instance (rows : List Row) : Decidable (HaveNoOversized rows) :=
  inferInstanceAs (Decidable (∀ row ∈ rows, ∀ cell ∈ row, ¬ cell.2.IsOversized))

theorem sanitizeRow_self_iff {row sanitized : Row} (h : sanitizeRow row = .ok sanitized) :
    sanitizeRow sanitized = .ok sanitized ↔ ∀ cell ∈ row, ¬ cell.2.IsOversized := by
  refine mapM_self_iff (fun cell _ cell' hcell => ?_) h
  obtain ⟨column, v⟩ := cell
  replace hcell : (v.sanitize).map (fun w => (column, w)) = .ok cell' := hcell
  cases hv : v.sanitize with
  | error => rw [hv] at hcell; cases hcell
  | ok w =>
    rw [hv] at hcell
    cases hcell
    show (w.sanitize).map (fun u => (column, u)) = .ok (column, w) ↔ ¬ v.IsOversized
    rw [← Value.isSettled_iff_of_sanitize hv, Value.isSettled_iff]
    cases w.sanitize with
    | error => exact iff_of_false nofun nofun
    | ok => simp [Except.map]

/-- **Rows that are sanitized twice are as they were after the first time**, unless they held oversized bytes. -/
theorem sanitizeRows_self_iff {rows sanitized : List Row} (h : sanitizeRows rows = .ok sanitized) :
    sanitizeRows sanitized = .ok sanitized ↔ HaveNoOversized rows :=
  mapM_self_iff (fun _ _ _ => sanitizeRow_self_iff) h

end MetricLayer
