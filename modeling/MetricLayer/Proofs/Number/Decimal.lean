import MetricLayer.Number.Decimal
import MetricLayer.Proofs.Text.Numeral
import MetricLayer.Proofs.Text.Trim
import Mathlib.Tactic.Positivity
import Mathlib.Tactic.Ring

/-!
# Reading decimal numbers

A sign, digits, and perhaps a point and more digits are read as the number they write (`ofText?_numeral`).
-/

namespace MetricLayer.Number

open MetricLayer.Text

/-- The decimal number is a given integer. -/
def Decimal.IsInteger (n : Int) : Decimal → Prop
  | .finite negative digits exponent =>
    (if negative then -(digits : Int) else digits) * 10 ^ exponent.toNat = n * 10 ^ (-exponent).toNat
  | .infinite _ | .nan .. => False

theorem Decimal.IsInteger.eq {x : Decimal} {n k : Int} (hn : x.IsInteger n) (hk : x.IsInteger k) : n = k := by
  cases x with
  | finite negative digits exponent =>
    have hpositive : (10 : Int) ^ (-exponent).toNat ≠ 0 := by positivity
    exact Int.eq_of_mul_eq_mul_right hpositive (hn.symm.trans hk)
  | infinite => exact hn.elim
  | nan => exact hn.elim

/-- Digits with a point before the last of them. -/
def unsignedNumeral (whole places : List Char) : List Char :=
  whole ++ if places = [] then [] else '.' :: places

/-- Such digits behind a sign perhaps. -/
def numeral (negative : Bool) (whole places : List Char) : List Char :=
  (if negative then ['-'] else []) ++ unsignedNumeral whole places

/-- Digits are neither white space nor signs, and they start no special value. -/
theorem plain_of_isDigit {c : Char} (h : c.isDigit) :
    isBlank c = false ∧ c ≠ '_' ∧ c ≠ '-' ∧ c ≠ '+' ∧ c.toLower ≠ 'i' ∧ c.toLower ≠ 'n' ∧ c.toLower ≠ 's' := by
  have hall : ∀ d ∈ "0123456789".toList, isBlank d = false ∧ d ≠ '_' ∧ d ≠ '-' ∧ d ≠ '+' ∧ d.toLower ≠ 'i' ∧
      d.toLower ≠ 'n' ∧ d.toLower ≠ 's' := by decide
  exact hall c (mem_digits_of_isDigit h)

section

variable {whole places : List Char}

theorem takeWhile_isDigit_append {rest : List Char} (hdigits : ∀ c ∈ whole, c.isDigit)
    (hrest : ∀ c ∈ rest.head?, isDigit c = false) :
    (whole ++ rest).takeWhile isDigit = whole ∧ (whole ++ rest).dropWhile isDigit = rest := by
  have hwhole : ∀ c ∈ whole, isDigit c := fun c hc => isDigit_of_charIsDigit (hdigits c hc)
  have hnone : rest.dropWhile isDigit = rest := dropWhile_eq_self hrest
  rw [List.takeWhile_append_of_pos hwhole, List.dropWhile_append_of_pos hwhole, hnone]
  refine ⟨?_, rfl⟩
  have hsplit := List.takeWhile_append_dropWhile (p := isDigit) (l := rest)
  rw [hnone, List.append_left_eq_self] at hsplit
  rw [hsplit, List.append_nil]

theorem readNumber?_unsignedNumeral (negative : Bool) (hne : whole ≠ []) (hwhole : ∀ c ∈ whole, c.isDigit)
    (hplaces : ∀ c ∈ places, c.isDigit) :
    Decimal.readNumber? negative (unsignedNumeral whole places) =
      some (.finite negative (naturalOf (whole ++ places)) (-(places.length : Int))) := by
  have hpoint : ∀ c ∈ (if places = [] then [] else '.' :: places).head?, isDigit c = false := by
    split_ifs
    · nofun
    · simp only [List.head?_cons, Option.mem_some_iff]
      rintro _ rfl
      decide
  obtain ⟨htake, hdrop⟩ := takeWhile_isDigit_append hwhole hpoint
  have hend : ∀ c ∈ ([] : List Char).head?, isDigit c = false := nofun
  have hfraction := takeWhile_isDigit_append hplaces hend
  rw [List.append_nil] at hfraction
  rw [Decimal.readNumber?, unsignedNumeral, htake, hdrop]
  have hwholeEmpty : whole.isEmpty = false := List.isEmpty_eq_false_iff.mpr hne
  by_cases hnil : places = []
  · subst hnil
    simp [hwholeEmpty, Decimal.readExponent?]
  · simp [hnil, hfraction.1, hfraction.2, hwholeEmpty, Decimal.readExponent?]

theorem readUnsigned?_unsignedNumeral (negative : Bool) (hne : whole ≠ []) (hwhole : ∀ c ∈ whole, c.isDigit)
    (hplaces : ∀ c ∈ places, c.isDigit) :
    Decimal.readUnsigned? negative (unsignedNumeral whole places) =
      some (.finite negative (naturalOf (whole ++ places)) (-(places.length : Int))) := by
  rw [← readNumber?_unsignedNumeral negative hne hwhole hplaces]
  obtain ⟨c, cs, rfl⟩ := List.exists_cons_of_ne_nil hne
  obtain ⟨-, -, -, -, hi, hn, hs⟩ := plain_of_isDigit (hwhole c List.mem_cons_self)
  simp [Decimal.readUnsigned?, unsignedNumeral, List.isPrefixOf?, hi, hn.symm, hs.symm]

theorem mem_numeral {negative : Bool} {c : Char} (h : c ∈ numeral negative whole places) :
    c = '-' ∨ c = '.' ∨ c ∈ whole ∨ c ∈ places := by
  rw [numeral, unsignedNumeral, List.mem_append, List.mem_append] at h
  rcases h with h | h | h
  · split_ifs at h
    · exact Or.inl (List.mem_singleton.mp h)
    · nomatch h
  · exact Or.inr (Or.inr (Or.inl h))
  · split_ifs at h
    · nomatch h
    · rcases List.mem_cons.mp h with h | h
      · exact Or.inr (Or.inl h)
      · exact Or.inr (Or.inr (Or.inr h))

theorem filter_numeral {p : Char → Bool} (negative : Bool) (hminus : p '-') (hpoint : p '.')
    (hplaces : ∀ c ∈ places, p c) :
    (numeral negative whole places).filter p = numeral negative (whole.filter p) places := by
  have hkept : places.filter p = places := List.filter_eq_self.mpr hplaces
  rw [numeral, unsignedNumeral, List.filter_append, List.filter_append, numeral, unsignedNumeral]
  congr 1
  · split_ifs
    · exact List.filter_cons_of_pos hminus
    · rfl
  · congr 1
    split_ifs
    · rfl
    · rw [List.filter_cons_of_pos hpoint, hkept]

/-- **Numerals are read as the numbers they write.** -/
theorem ofText?_numeral (negative : Bool) (hne : whole ≠ []) (hwhole : ∀ c ∈ whole, c.isDigit)
    (hplaces : ∀ c ∈ places, c.isDigit) :
    Decimal.ofText? (String.ofList (numeral negative whole places)) =
      some (.finite negative (naturalOf (whole ++ places)) (-(places.length : Int))) := by
  have hplain : ∀ c ∈ numeral negative whole places, isBlank c = false ∧ c ≠ '_' := by
    intro c hc
    rcases mem_numeral hc with rfl | rfl | hc | hc
    · decide
    · decide
    · exact ⟨(plain_of_isDigit (hwhole c hc)).1, (plain_of_isDigit (hwhole c hc)).2.1⟩
    · exact ⟨(plain_of_isDigit (hplaces c hc)).1, (plain_of_isDigit (hplaces c hc)).2.1⟩
  have htrimmed : Trimmed (numeral negative whole places) :=
    ⟨fun c hc => (hplain c (List.mem_of_mem_head? hc)).1, fun c hc => (hplain c (List.mem_of_mem_getLast? hc)).1⟩
  have hkept : (numeral negative whole places).filter (· != '_') = numeral negative whole places :=
    List.filter_eq_self.mpr fun c hc => bne_iff_ne.mpr (hplain c hc).2
  rw [Decimal.ofText?, String.toList_ofList, trim_eq_self htrimmed, hkept,
    ← readUnsigned?_unsignedNumeral negative hne hwhole hplaces]
  cases negative with
  | true => rfl
  | false =>
    obtain ⟨c, cs, rfl⟩ := List.exists_cons_of_ne_nil hne
    obtain ⟨-, -, hminus, hplus, -⟩ := plain_of_isDigit (hwhole c List.mem_cons_self)
    simp [numeral, unsignedNumeral, hminus, hplus]

theorem naturalOf_append_zeros (cs : List Char) (places : Nat) :
    naturalOf (cs ++ List.replicate places '0') = naturalOf cs * 10 ^ places := by
  have hzero : (digit? '0').getD 0 = 0 := by decide
  induction places with
  | zero => simp
  | succ places ih =>
    rw [naturalOf] at ih ⊢
    rw [List.replicate_succ', ← List.append_assoc, List.foldl_append, ih, List.foldl_cons, List.foldl_nil, hzero]
    ring

end

end MetricLayer.Number
