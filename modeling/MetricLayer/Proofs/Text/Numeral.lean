import MetricLayer.Text.Digit
import MetricLayer.Text.Word

/-!
# Numbers as texts

A number is written in the digits 0 to 9, and `naturalOf` reads it back (`naturalOf_toString`).  Whether
a numeral is short enough to be read is whether the number is small enough to be written.
-/

namespace MetricLayer.Text

theorem digit?_of_isDigit {c : Char} (h : c.isDigit) : digit? c = some (c.toNat - '0'.toNat) := by
  have hrange : 48 ≤ c.toNat ∧ c.toNat ≤ 57 := by
    simp only [Char.isDigit, Bool.and_eq_true, decide_eq_true_eq] at h
    exact h
  have hfind : zeroDigits.find? (fun z => decide (z ≤ c.toNat) && decide (c.toNat ≤ z + 9)) =
      some 0x30 := by
    rw [zeroDigits, List.find?_cons_of_pos]
    rw [decide_eq_true hrange.1, decide_eq_true hrange.2]
    rfl
  rw [digit?, hfind]
  rfl

theorem mem_digits_of_isDigit {c : Char} (h : c.isDigit) : c ∈ "0123456789".toList := by
  have hrange : 48 ≤ c.toNat ∧ c.toNat ≤ 57 := by
    simp only [Char.isDigit, Bool.and_eq_true, decide_eq_true_eq] at h
    exact h
  have hdigits : "0123456789".toList = ['0', '1', '2', '3', '4', '5', '6', '7', '8', '9'] := rfl
  simp only [hdigits, List.mem_cons, List.not_mem_nil, or_false, ← Char.toNat_inj, Char.reduceToNat]
  omega

theorem toList_toString (n : Nat) : (toString n).toList = Nat.toDigits 10 n := by
  rw [Nat.toString_eq_repr, Nat.toList_repr]

theorem isDigit_of_mem_toString {n : Nat} {c : Char} (h : c ∈ (toString n).toList) : c.isDigit := by
  rw [toList_toString] at h
  exact Nat.isDigit_of_mem_toDigits (by decide) (by decide) h

theorem toString_ne_nil (n : Nat) : (toString n).toList ≠ [] := by
  rw [toList_toString]
  exact Nat.toDigits_ne_nil

theorem naturalOf_toString (n : Nat) : naturalOf (toString n).toList = n := by
  have hfold : ∀ (cs : List Char) (m : Nat), (∀ c ∈ cs, c.isDigit) →
      cs.foldl (fun n c => 10 * n + (digit? c).getD 0) m = Nat.ofDigitChars 10 cs m := by
    intro cs
    induction cs with
    | nil =>
      intro m _
      rw [Nat.ofDigitChars_nil]
      rfl
    | cons c cs ih =>
      intro m h
      rw [List.foldl_cons, Nat.ofDigitChars_cons, digit?_of_isDigit (h c List.mem_cons_self),
        ih _ fun d hd => h d (List.mem_cons_of_mem c hd)]
      rfl
  rw [naturalOf, hfold _ _ fun c hc => isDigit_of_mem_toString hc, toList_toString,
    Nat.ofDigitChars_ten_toDigits]

theorem isDigit_of_charIsDigit {c : Char} (h : c.isDigit) : isDigit c := by
  rw [isDigit, digit?_of_isDigit h]
  rfl

/-- Numbers that a walk along some rows leaves behind are in one of the rows each. -/
theorem exists_of_foldl_dropWhile {α β : Type} {inside : β → α → Bool} {rows : List β} {as : List α}
    (h : rows.foldl (fun as row => as.dropWhile (inside row)) as = []) : ∀ a ∈ as, ∃ row ∈ rows, inside row a := by
  induction rows generalizing as with
  | nil =>
    cases h
    exact List.forall_mem_nil _
  | cons row rows ih =>
    intro a ha
    rw [← List.takeWhile_append_dropWhile (p := inside row) (l := as), List.mem_append] at ha
    rcases ha with ha | ha
    · exact ⟨row, List.mem_cons_self, List.all_eq_true.mp List.all_takeWhile a ha⟩
    · obtain ⟨other, hother, hinside⟩ := ih h a ha
      exact ⟨other, List.mem_cons_of_mem _ hother, hinside⟩

/-- Every row of digits is a part of a row of word characters. -/
theorem exists_wordRange_of_mem_zeroDigits :
    ∀ z ∈ zeroDigits, z = 0x30 ∨ 128 ≤ z ∧ ∃ r ∈ wordRanges, r.1 ≤ z ∧ z + 9 ≤ r.2 := by
  -- both lists ascend, so one walk along the ranges finds the range of every row
  have hwalk : wordRanges.foldl (fun zs r => zs.dropWhile fun z => r.1.ble z && (z + 9).ble r.2) zeroDigits.tail =
      [] := by
    decide +kernel
  have hwide : ∀ z ∈ zeroDigits.tail, 128 ≤ z := by decide +kernel
  intro z hz
  rcases List.mem_cons.mp hz with rfl | hz
  · exact Or.inl rfl
  · obtain ⟨r, hr, hinside⟩ := exists_of_foldl_dropWhile hwalk z hz
    rw [Bool.and_eq_true, Nat.ble_eq, Nat.ble_eq] at hinside
    exact Or.inr ⟨hwide z hz, r, hr, hinside⟩

theorem isWord_of_isDigit {c : Char} (h : isDigit c) : isWord c := by
  obtain ⟨n, hn⟩ := Option.isSome_iff_exists.mp h
  obtain ⟨z, hfind, -⟩ := Option.map_eq_some_iff.mp hn
  have hz := List.find?_some hfind
  rw [Bool.and_eq_true, decide_eq_true_eq, decide_eq_true_eq] at hz
  rw [isWord, Bool.or_eq_true, Bool.or_eq_true]
  rcases exists_wordRange_of_mem_zeroDigits z (List.mem_of_find?_eq_some hfind) with rfl | ⟨hhigh, r, hr, hlow, hup⟩
  · refine Or.inl (Or.inl ?_)
    have hdigit : c.isDigit := by
      rw [Char.isDigit, Bool.and_eq_true, decide_eq_true_eq, decide_eq_true_eq]
      exact hz
    rw [Char.isAlphanum, hdigit, Bool.or_true]
  · refine Or.inr ?_
    rw [Bool.and_eq_true, decide_eq_true_eq, inRanges, List.any_eq_true]
    refine ⟨Nat.le_trans hhigh hz.1, r, hr, ?_⟩
    rw [Bool.and_eq_true, decide_eq_true_eq, decide_eq_true_eq]
    exact ⟨Nat.le_trans hlow hz.1, Nat.le_trans hz.2 hup⟩

theorem natural_toString {n : Nat} (h : isWritable n) : natural (toString n).toList = .ok n := by
  have hlength : (toString n).toList.length ≤ digitLimit := by
    rw [toList_toString, Nat.length_toDigits_le_iff (by decide) (by decide)]
    exact of_decide_eq_true h
  rw [natural, if_neg (Nat.not_lt.mpr hlength), naturalOf_toString]

theorem digit?_le (c : Char) : (digit? c).getD 0 ≤ 9 := by
  rw [digit?]
  cases hzero : zeroDigits.find? fun z => decide (z ≤ c.toNat) && decide (c.toNat ≤ z + 9) with
  | none => exact Nat.zero_le 9
  | some z =>
    have hrange := List.find?_some hzero
    rw [Bool.and_eq_true, decide_eq_true_eq, decide_eq_true_eq] at hrange
    show c.toNat - z ≤ 9
    omega

theorem naturalOf_lt (cs : List Char) : naturalOf cs < 10 ^ cs.length := by
  have hfold : ∀ (cs : List Char) (m k : Nat), m < 10 ^ k →
      cs.foldl (fun n c => 10 * n + (digit? c).getD 0) m < 10 ^ (k + cs.length) := by
    intro cs
    induction cs with
    | nil => exact fun m k hm => hm
    | cons c cs ih =>
      intro m k hm
      have hstep : 10 * m + (digit? c).getD 0 < 10 ^ (k + 1) := by
        have hdigit := digit?_le c
        rw [Nat.pow_succ]
        omega
      rw [List.foldl_cons, List.length_cons, Nat.add_comm cs.length, ← Nat.add_assoc]
      exact ih _ _ hstep
  have h := hfold cs 0 0 (by decide)
  rwa [Nat.zero_add] at h

/-- A numeral that can be read is one that can be written. -/
theorem isWritable_of_natural {cs : List Char} {n : Nat} (h : natural cs = .ok n) : isWritable n := by
  rw [natural] at h
  split at h
  next => cases h
  next hlength =>
    obtain rfl := Except.ok.inj h
    have hpow : 10 ^ cs.length ≤ 10 ^ digitLimit := Nat.pow_le_pow_right (by decide) (Nat.not_lt.mp hlength)
    exact decide_eq_true (Nat.lt_of_lt_of_le (naturalOf_lt cs) hpow)

theorem toList_toString_negSucc (n : Nat) :
    (toString (Int.negSucc n)).toList = '-' :: (toString (n + 1)).toList := by
  show ("-" ++ toString (n + 1)).toList = _
  rw [String.toList_append]
  rfl

/-- Integers are written in digits after a minus sign perhaps. -/
theorem mem_toString_int {n : Int} {c : Char} (h : c ∈ (toString n).toList) : c = '-' ∨ c.isDigit := by
  cases n with
  | ofNat n => exact Or.inr (isDigit_of_mem_toString h)
  | negSucc n =>
    rw [toList_toString_negSucc] at h
    rcases List.mem_cons.mp h with h | h
    · exact Or.inl h
    · exact Or.inr (isDigit_of_mem_toString h)

theorem toString_int_ne_nil (n : Int) : (toString n).toList ≠ [] := by
  cases n with
  | ofNat n => exact toString_ne_nil n
  | negSucc n =>
    rw [toList_toString_negSucc]
    exact List.cons_ne_nil _ _

end MetricLayer.Text
