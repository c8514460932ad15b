import MetricLayer.Proofs.Sql.Name
import MetricLayer.Proofs.Text.Numeral
import Mathlib.Data.List.Infix

/-!
# Rows of digits in a text

A text has short numerals when every row of digits in it can be read (`ShortNumerals`).  Parts of such a
text have them as well, texts joined by another character have them, and quoting a name leaves its rows of
digits as they are.
-/

namespace MetricLayer.Text

open MetricLayer.Sql

/-- Every row of digits in a text is short enough to be read. -/
def ShortNumerals (cs : List Char) : Prop :=
  ∀ ds, ds <:+: cs → (∀ d ∈ ds, isDigit d) → ds.length ≤ digitLimit

variable {a b cs ds : List Char} {c : Char}

theorem shortNumerals_of_length_le (h : cs.length ≤ digitLimit) : ShortNumerals cs :=
  fun _ hpart _ => hpart.length_le.trans h

theorem ShortNumerals.of_isInfix (h : ShortNumerals cs) (hpart : ds <:+: cs) : ShortNumerals ds :=
  fun es hes => h es (hes.trans hpart)

theorem ShortNumerals.natural_eq (h : ShortNumerals cs) (hdigits : ∀ c ∈ cs, isDigit c) :
    natural cs = .ok (naturalOf cs) := by
  rw [natural, if_neg (Nat.not_lt.mpr (h cs List.infix_rfl hdigits))]

/-- No row of digits runs through a character that is none. -/
theorem infix_of_infix_append_cons (hc : isDigit c = false) (hds : ∀ d ∈ ds, isDigit d)
    (h : ds <:+: a ++ c :: b) : ds <:+: a ∨ ds <:+: b := by
  have hmem : c ∉ ds := fun hmem => by simp [hds c hmem] at hc
  obtain ⟨x, y, hxy⟩ := h
  rcases List.append_eq_append_iff.mp hxy with ⟨k, rfl, -⟩ | ⟨k, hx, hk⟩
  · exact Or.inl ⟨x, k, rfl⟩
  · cases k with
    | nil => exact Or.inl ⟨x, [], by simpa using hx⟩
    | cons d k =>
      obtain ⟨rfl, rfl⟩ := List.cons.inj hk
      rcases List.append_eq_append_iff.mp hx with ⟨m, -, rfl⟩ | ⟨m, -, hm⟩
      · exact absurd (List.mem_append_right _ List.mem_cons_self) hmem
      · cases m with
        | nil =>
          obtain rfl : c :: k = ds := hm
          exact absurd List.mem_cons_self hmem
        | cons e m =>
          obtain ⟨-, rfl⟩ := List.cons.inj hm
          exact Or.inr ⟨m, y, rfl⟩

theorem ShortNumerals.append_cons (ha : ShortNumerals a) (hc : isDigit c = false)
    (hb : ShortNumerals b) : ShortNumerals (a ++ c :: b) := by
  intro ds hpart hds
  rcases infix_of_infix_append_cons hc hds hpart with h | h
  · exact ha ds h hds
  · exact hb ds h hds

theorem shortNumerals_nil : ShortNumerals [] :=
  shortNumerals_of_length_le (Nat.zero_le _)

theorem ShortNumerals.cons (hc : isDigit c = false) (h : ShortNumerals cs) : ShortNumerals (c :: cs) :=
  shortNumerals_nil.append_cons hc h

theorem isDigit_lineBreak : isDigit '\n' = false := by
  decide +kernel

theorem isDigit_space : isDigit ' ' = false := by
  decide +kernel

theorem isDigit_comma : isDigit ',' = false := by
  decide +kernel

/-- A list has the numerals of its parts. -/
theorem shortNumerals_intercalate {parts : List (List Char)} (h : ∀ p ∈ parts, ShortNumerals p) :
    ShortNumerals (List.intercalate [',', ' '] parts) := by
  induction parts with
  | nil => exact shortNumerals_nil
  | cons p parts ih =>
    have hp := h p List.mem_cons_self
    cases parts with
    | nil =>
      rw [List.intercalate_singleton]
      exact hp
    | cons q parts =>
      rw [List.intercalate_cons_cons, List.append_assoc]
      exact hp.append_cons isDigit_comma ((ih fun r hr => h r (List.mem_cons_of_mem p hr)).cons isDigit_space)

/-! ## Numbers -/

theorem shortNumerals_toString {n : Nat} (h : isWritable n) : ShortNumerals (toString n).toList := by
  apply shortNumerals_of_length_le
  rw [toList_toString, Nat.length_toDigits_le_iff (by decide) (by decide)]
  exact of_decide_eq_true h

theorem isWritable_of_le {m n : Nat} (h : m ≤ n) (hn : isWritable n) : isWritable m :=
  decide_eq_true (h.trans_lt (of_decide_eq_true hn))

/-! ## Quoting -/

theorem isDigit_quote : isDigit '"' = false := by
  decide +kernel

/-- A row of digits at the start of a name that is read from between quotes stands there as well. -/
theorem prefix_of_prefix_undouble (hds : ∀ d ∈ ds, isDigit d) (h : ds <+: undouble cs) : ds <+: cs := by
  fun_induction undouble cs generalizing ds with
  | case1 cs ih =>
    cases ds with
    | nil => exact List.nil_prefix
    | cons d ds =>
      obtain ⟨rfl, -⟩ := List.cons_prefix_cons.mp h
      exact absurd (hds _ List.mem_cons_self) (by simp [isDigit_quote])
  | case2 c cs _ ih =>
    cases ds with
    | nil => exact List.nil_prefix
    | cons d ds =>
      obtain ⟨rfl, hhead⟩ := List.cons_prefix_cons.mp h
      exact List.cons_prefix_cons.mpr ⟨rfl, ih (fun d hd => hds d (List.mem_cons_of_mem _ hd)) hhead⟩
  | case3 => exact h

theorem ShortNumerals.undouble (h : ShortNumerals cs) : ShortNumerals (undouble cs) := by
  fun_induction Sql.undouble cs with
  | case1 cs ih => exact (ih (h.of_isInfix ⟨['"', '"'], [], by simp⟩)).cons isDigit_quote
  | case2 c cs hpair ih =>
    have hlater := ih (h.of_isInfix (List.suffix_cons c cs).isInfix)
    intro ds hpart hds
    rcases List.infix_cons_iff.mp hpart with hhead | hpart
    · rw [← undouble.eq_2 _ _ hpair] at hhead
      exact h ds (prefix_of_prefix_undouble hds hhead).isInfix hds
    · exact hlater ds hpart hds
  | case3 => exact h

theorem prefix_of_prefix_double (hds : ∀ d ∈ ds, isDigit d) (h : ds <+: double cs) : ds <+: cs := by
  induction cs generalizing ds with
  | nil => exact h
  | cons c cs ih =>
    cases ds with
    | nil => exact List.nil_prefix
    | cons d ds =>
      by_cases hc : c = '"'
      · rw [double, if_pos hc] at h
        obtain ⟨rfl, -⟩ := List.cons_prefix_cons.mp h
        exact absurd (hds _ List.mem_cons_self) (by simp [isDigit_quote])
      · rw [double, if_neg hc] at h
        obtain ⟨rfl, hhead⟩ := List.cons_prefix_cons.mp h
        exact List.cons_prefix_cons.mpr ⟨rfl, ih (fun d hd => hds d (List.mem_cons_of_mem _ hd)) hhead⟩

theorem ShortNumerals.double (h : ShortNumerals cs) : ShortNumerals (double cs) := by
  induction cs with
  | nil => exact h
  | cons c cs ih =>
    have hlater := ih (h.of_isInfix (List.suffix_cons c cs).isInfix)
    by_cases hc : c = '"'
    · rw [Sql.double, if_pos hc]
      exact (hlater.cons isDigit_quote).cons isDigit_quote
    · intro ds hpart hds
      have hshort (hhead : ds <+: Sql.double (c :: cs)) : ds.length ≤ digitLimit :=
        h ds (prefix_of_prefix_double hds hhead).isInfix hds
      rw [Sql.double, if_neg hc] at hpart hshort
      rcases List.infix_cons_iff.mp hpart with hhead | hpart
      · exact hshort hhead
      · exact hlater ds hpart hds

end MetricLayer.Text
