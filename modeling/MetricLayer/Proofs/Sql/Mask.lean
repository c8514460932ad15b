import MetricLayer.Proofs.Text.Trim
import MetricLayer.Sql.Identifier
import MetricLayer.Sql.Mask
import Mathlib.Data.List.Basic

/-!
# Closed quotes and balanced parentheses

A text whose quotes are closed is masked on its own, whatever follows it (`mask_append`), and one whose
parentheses are balanced beside that leaves the depth of what follows alone.  `WellFormed` is both.  Any other text
hands the quote and the depth it ends in on to what follows (`maskFrom_append`, `depthsFrom_append`).  The
parenthesis that closes an open one is found before the depth falls below it
(`exists_closing?_of_depthAfter?`), what stands before it closes all that it opens (`depthAfter?_of_closing?`), and
what follows it does not matter (`closing?_append`).
-/

namespace MetricLayer.Sql

open MetricLayer.Text

/-! ## Quotes -/

theorem quoteAfter_append (state : Option Char) (a b : List Char) :
    quoteAfter state (a ++ b) = quoteAfter (quoteAfter state a) b := by
  simp [quoteAfter]

theorem closed_nil : Closed [] := rfl

theorem closed_append_iff {a : List Char} (ha : Closed a) (b : List Char) :
    Closed (a ++ b) ↔ Closed b := by
  rw [Closed, quoteAfter_append, ha]
  rfl

theorem Closed.append {a b : List Char} (ha : Closed a) (hb : Closed b) : Closed (a ++ b) :=
  (closed_append_iff ha b).mpr hb

theorem maskFrom_none_of_no_quote {cs : List Char} (h : ∀ c ∈ cs, isQuote c = false) :
    maskFrom none cs = cs ∧ quoteAfter none cs = none := by
  induction cs with
  | nil => exact ⟨rfl, rfl⟩
  | cons c cs ih =>
    have hc := h c List.mem_cons_self
    obtain ⟨hmask, hstate⟩ := ih fun d hd => h d (List.mem_cons_of_mem c hd)
    rw [maskFrom, quoteAfter, List.foldl_cons, quoteStep, hc, if_neg Bool.false_ne_true, maskStep,
      hmask]
    exact ⟨rfl, hstate⟩

theorem mask_of_no_quote {cs : List Char} (h : ∀ c ∈ cs, isQuote c = false) : mask cs = cs :=
  (maskFrom_none_of_no_quote h).1

theorem closed_of_no_quote {cs : List Char} (h : ∀ c ∈ cs, isQuote c = false) : Closed cs :=
  (maskFrom_none_of_no_quote h).2

theorem quoteAfter_some_of_not_mem {q : Char} {cs : List Char} (h : q ∉ cs) :
    quoteAfter (some q) cs = some q := by
  induction cs with
  | nil => rfl
  | cons c cs ih =>
    have hc : ¬ c = q := fun hc => h (hc ▸ List.mem_cons_self)
    rw [quoteAfter, List.foldl_cons, quoteStep, if_neg hc]
    exact ih fun hq => h (List.mem_cons_of_mem c hq)

/-- A quote that is open was opened. -/
theorem mem_of_quoteAfter_eq_some {state : Option Char} {q : Char} {cs : List Char}
    (h : quoteAfter state cs = some q) : state = some q ∨ q ∈ cs := by
  induction cs generalizing state with
  | nil => exact Or.inl h
  | cons c cs ih =>
    rw [quoteAfter, List.foldl_cons] at h
    rcases ih h with hstep | hmem
    · cases state with
      | none =>
        rw [quoteStep, Option.ite_none_right_eq_some] at hstep
        obtain rfl := Option.some.inj hstep.2
        exact Or.inr List.mem_cons_self
      | some r =>
        rw [quoteStep, Option.ite_none_left_eq_some] at hstep
        exact Or.inl hstep.2
    · exact Or.inr (List.mem_cons_of_mem c hmem)

theorem isQuote_of_mem_quoteStep {state : Option Char} (hstate : ∀ q ∈ state, isQuote q) (c : Char) :
    ∀ q ∈ quoteStep state c, isQuote q := by
  intro q hq
  cases state with
  | none =>
    rw [quoteStep] at hq
    split at hq
    next hc =>
      cases hq
      exact hc
    next => cases hq
  | some r =>
    rw [quoteStep] at hq
    split at hq
    · cases hq
    · exact hstate q hq

/-- Only quotes are ever open. -/
theorem isQuote_of_mem_quoteAfter {state : Option Char} (hs : ∀ q ∈ state, isQuote q)
    (cs : List Char) : ∀ q ∈ quoteAfter state cs, isQuote q := by
  induction cs generalizing state with
  | nil => exact hs
  | cons c cs ih => exact ih (isQuote_of_mem_quoteStep hs c)

theorem quoteAfter_concat (state : Option Char) (cs : List Char) (c : Char) :
    quoteAfter state (cs ++ [c]) = quoteStep (quoteAfter state cs) c := by
  rw [quoteAfter_append]
  rfl

theorem mask_concat (cs : List Char) (c : Char) :
    mask (cs ++ [c]) = mask cs ++ [maskStep (quoteAfter none cs) c] := by
  rw [mask, maskFrom_append]
  rfl

/-- What is neither blanked nor a quote stands outside quotes. -/
theorem maskStep_eq_iff {state : Option Char} (hstate : ∀ q ∈ state, isQuote q) {c d : Char}
    (hquote : isQuote c = false) (hblank : c ≠ '_') : maskStep state d = c ↔ d = c ∧ state = none := by
  constructor
  · intro h
    cases state with
    | none => exact ⟨h, rfl⟩
    | some q =>
      rw [maskStep] at h
      split_ifs at h with hd
      · have hq := hstate q rfl
        rw [← hd, h, hquote] at hq
        cases hq
      · exact absurd h.symm hblank
  · rintro ⟨rfl, rfl⟩
    rfl

theorem maskStep_quoteAfter_eq_iff {cs : List Char} {c d : Char} (hquote : isQuote c = false) (hblank : c ≠ '_') :
    maskStep (quoteAfter none cs) d = c ↔ d = c ∧ Closed cs :=
  maskStep_eq_iff (isQuote_of_mem_quoteAfter (by simp) cs) hquote hblank

/-- What holds of both quotes holds of every quote. -/
theorem of_isQuote {P : Char → Prop} (hsingle : P '\'') (hdouble : P '"') {c : Char} (h : isQuote c) : P c := by
  rw [isQuote, Bool.or_eq_true, beq_iff_eq, beq_iff_eq] at h
  rcases h with rfl | rfl
  · exact hsingle
  · exact hdouble

theorem isBlank_of_isQuote : ∀ q, isQuote q → isBlank q = false :=
  fun _ => of_isQuote (P := fun q => isBlank q = false) (by decide) (by decide)

theorem isQuote_of_isBlank {c : Char} (h : isBlank c) : isQuote c = false :=
  of_isBlank (P := fun c => isQuote c = false) (by decide) h

theorem closed_of_blank {gap : List Char} (h : ∀ c ∈ gap, isBlank c) : Closed gap :=
  closed_of_no_quote fun c hc => isQuote_of_isBlank (h c hc)

theorem mask_of_blank {gap : List Char} (h : ∀ c ∈ gap, isBlank c) : mask gap = gap :=
  mask_of_no_quote fun c hc => isQuote_of_isBlank (h c hc)

/-- Text without quotes after a text does not close its quotes. -/
theorem closed_of_append {a b : List Char} (h : Closed (a ++ b)) (hb : ∀ c ∈ b, isQuote c = false) :
    Closed a := by
  rw [Closed, quoteAfter_append] at h
  cases hstate : quoteAfter none a with
  | none => exact hstate
  | some q =>
    have hq : isQuote q := isQuote_of_mem_quoteAfter (by simp) a q hstate
    have hmem : q ∉ b := fun hmem => by
      rw [hb q hmem] at hq
      cases hq
    rw [hstate, quoteAfter_some_of_not_mem hmem] at h
    cases h

/-- Trimming commutes with masking when the quotes are closed. -/
theorem closed_trim {cs : List Char} (h : Closed cs) : Closed (trim cs) := by
  obtain ⟨a, b, hcs, ha, hb⟩ := exists_trim cs
  rw [hcs, List.append_assoc,
    closed_append_iff (closed_of_blank ha)] at h
  exact closed_of_append h fun c hc => isQuote_of_isBlank (hb c hc)

/-- A masked text without blanked characters is the text itself. -/
theorem eq_of_maskFrom_eq {state : Option Char} {cs m : List Char} (h : maskFrom state cs = m)
    (hm : '_' ∉ m) : cs = m := by
  induction cs generalizing state m with
  | nil => exact h
  | cons c cs ih =>
    subst h
    rw [maskFrom, List.mem_cons, not_or] at hm
    rw [maskFrom, ← ih rfl hm.2]
    cases state with
    | none => rfl
    | some q =>
      have hc := hm.1
      rw [maskStep] at hc ⊢
      split at hc
      next hq => rw [if_pos hq]
      next => exact absurd rfl hc

/-- A masked text is cut where the text is cut. -/
theorem exists_of_maskFrom_eq_append {state : Option Char} {cs a b : List Char}
    (h : maskFrom state cs = a ++ b) :
    ∃ x y, cs = x ++ y ∧ maskFrom state x = a ∧ maskFrom (quoteAfter state x) y = b := by
  have hlength : a.length ≤ cs.length := by
    rw [← length_maskFrom state cs, h, List.length_append]
    exact Nat.le_add_right _ _
  refine ⟨cs.take a.length, cs.drop a.length, (List.take_append_drop _ _).symm, ?_⟩
  rw [← List.take_append_drop a.length cs, maskFrom_append] at h
  exact List.append_inj h (by rw [length_maskFrom, List.length_take_of_le hlength])

/-- After a character that is neither a quote nor blanked, all quotes before it are closed. -/
theorem closed_of_getLast?_mask {cs : List Char} {c : Char} (hlast : (mask cs).getLast? = some c)
    (hquote : isQuote c = false) (hblank : c ≠ '_') : Closed cs := by
  rcases List.eq_nil_or_concat' cs with rfl | ⟨init, d, rfl⟩
  · rfl
  · rw [mask_concat, List.getLast?_concat] at hlast
    obtain ⟨rfl, hclosed⟩ := (maskStep_quoteAfter_eq_iff hquote hblank).mp (Option.some.inj hlast)
    rw [Closed, quoteAfter_concat, hclosed, quoteStep, hquote, if_neg Bool.false_ne_true]

/-- After such a character a masked text is cut into the masked forms of two texts. -/
theorem exists_of_mask_eq_append {cs a b : List Char} {c : Char} (h : mask cs = a ++ b)
    (hlast : a.getLast? = some c) (hquote : isQuote c = false) (hblank : c ≠ '_') :
    ∃ x y, cs = x ++ y ∧ Closed x ∧ mask x = a ∧ mask y = b := by
  obtain ⟨x, y, hcs, hx, hy⟩ := exists_of_maskFrom_eq_append h
  have hclosed : Closed x := closed_of_getLast?_mask (by rw [mask, hx, hlast]) hquote hblank
  rw [hclosed] at hy
  exact ⟨x, y, hcs, hclosed, hx, hy⟩

/-- At such a character a masked text is cut into the masked forms of two texts. -/
theorem exists_of_mask_eq_append_cons {cs a b : List Char} {c : Char} (h : mask cs = a ++ c :: b)
    (hquote : isQuote c = false) (hblank : c ≠ '_') :
    ∃ x y, cs = x ++ c :: y ∧ Closed x ∧ mask x = a ∧ mask y = b := by
  have hsplit : mask cs = (a ++ [c]) ++ b := by rw [h, List.append_assoc, List.singleton_append]
  obtain ⟨z, y, rfl, hz, hmask, hy⟩ := exists_of_mask_eq_append hsplit List.getLast?_concat hquote hblank
  obtain ⟨x, ds, rfl, hx, hds⟩ := exists_of_maskFrom_eq_append hmask
  obtain rfl : ds = [c] := eq_of_maskFrom_eq hds (by simpa using Ne.symm hblank)
  have hclosed : Closed x := closed_of_append hz (by simpa using hquote)
  exact ⟨x, y, by rw [List.append_assoc, List.singleton_append], hclosed, hx, hy⟩

/-! ## Names in double quotes -/

/-- The masked form of a name between its quotes. -/
def maskDouble : List Char → List Char
  | [] => []
  | c :: cs => if c = '"' then '"' :: '"' :: maskDouble cs else '_' :: maskDouble cs

theorem maskFrom_double (name rest : List Char) :
    maskFrom (some '"') (double name ++ rest) = maskDouble name ++ maskFrom (some '"') rest ∧
      quoteAfter (some '"') (double name) = some '"' := by
  induction name with
  | nil => exact ⟨rfl, rfl⟩
  | cons c cs ih =>
    by_cases hc : c = '"'
    · subst hc
      rw [double, maskDouble, if_pos rfl, if_pos rfl]
      refine ⟨?_, ih.2⟩
      show '"' :: '"' :: maskFrom (some '"') (double cs ++ rest) = _
      rw [ih.1]
      rfl
    · rw [double, maskDouble, if_neg hc, if_neg hc]
      refine ⟨?_, ?_⟩
      · rw [List.cons_append, maskFrom, maskStep, quoteStep, if_neg hc, if_neg hc, ih.1]
        rfl
      · rw [quoteAfter, List.foldl_cons, quoteStep, if_neg hc]
        exact ih.2

theorem mem_maskDouble {name : List Char} {c : Char} (h : c ∈ maskDouble name) :
    c = '"' ∨ c = '_' := by
  induction name with
  | nil => cases h
  | cons d ds ih =>
    rw [maskDouble] at h
    split at h
    · simp only [List.mem_cons] at h
      rcases h with h | h | h
      · exact Or.inl h
      · exact Or.inl h
      · exact ih h
    · rcases List.mem_cons.mp h with h | h
      · exact Or.inr h
      · exact ih h

theorem toList_quote (name : String) : (quote name).toList = '"' :: double name.toList ++ ['"'] := by
  simp [quote]

theorem mask_quote (name : String) :
    mask (quote name).toList = '"' :: maskDouble name.toList ++ ['"'] := by
  rw [toList_quote, mask, List.cons_append, maskFrom]
  show '"' :: maskFrom (some '"') (double name.toList ++ ['"']) = _
  rw [(maskFrom_double _ _).1]
  rfl

/-- A name in quotes is masked to quotes and blanks. -/
theorem mem_mask_quote {name : String} {c : Char} (h : c ∈ mask (quote name).toList) : c = '"' ∨ c = '_' := by
  rw [mask_quote] at h
  rcases List.mem_append.mp h with h | h
  · rcases List.mem_cons.mp h with h | h
    · exact Or.inl h
    · exact mem_maskDouble h
  · exact Or.inl (List.mem_singleton.mp h)

theorem closed_quote (name : String) : Closed (quote name).toList := by
  rw [toList_quote, Closed, quoteAfter_append]
  show quoteAfter (quoteAfter (some '"') (double name.toList)) ['"'] = none
  rw [(maskFrom_double name.toList []).2]
  rfl

/-! ## Parentheses -/

/-- The open parentheses after a masked text, given those before it; there is no answer if one is
closed that was never opened. -/
def depthAfter? : Nat → List Char → Option Nat
  | d, [] => some d
  | d, c :: cs =>
    if c = '(' then depthAfter? (d + 1) cs
    else if c = ')' then if d = 0 then none else depthAfter? (d - 1) cs
    else depthAfter? d cs

/-- Every parenthesis of a masked text is closed, and none before it is opened. -/
def Balanced (masked : List Char) : Prop :=
  depthAfter? 0 masked = some 0

instance (masked : List Char) : Decidable (Balanced masked) :=
  inferInstanceAs (Decidable (depthAfter? 0 masked = some 0))

/-- The quotes of a text are closed, and its parentheses outside quotes are balanced. -/
structure WellFormed (cs : List Char) : Prop where
  closed : Closed cs
  balanced : Balanced (mask cs)

theorem depthAfter?_append (d : Nat) (a b : List Char) :
    depthAfter? d (a ++ b) = (depthAfter? d a).bind fun e => depthAfter? e b := by
  induction a generalizing d with
  | nil => rfl
  | cons c a ih =>
    rw [List.cons_append, depthAfter?, depthAfter?]
    split_ifs
    · exact ih _
    · rfl
    · exact ih _
    · exact ih _

theorem depthAfter?_add {d e : Nat} {m : List Char} (h : depthAfter? d m = some e) (k : Nat) :
    depthAfter? (d + k) m = some (e + k) := by
  induction m generalizing d with
  | nil =>
    cases h
    rfl
  | cons c m ih =>
    rw [depthAfter?] at h ⊢
    split_ifs at h ⊢ with h1 h2 h3 h4 <;> try omega
    · rw [Nat.add_right_comm]
      exact ih h
    · rw [Nat.sub_add_comm (by omega)]
      exact ih h
    · exact ih h

theorem Balanced.append {a b : List Char} (ha : Balanced a) (hb : Balanced b) :
    Balanced (a ++ b) := by
  rw [Balanced, depthAfter?_append, ha]
  exact hb

theorem Balanced.group {m : List Char} (h : Balanced m) : Balanced ('(' :: (m ++ [')'])) := by
  rw [Balanced, depthAfter?, if_pos rfl, depthAfter?_append, depthAfter?_add h 1]
  rfl

theorem depthAfter?_of_no_parenthesis {m : List Char} (h : ∀ c ∈ m, c ≠ '(' ∧ c ≠ ')') (d : Nat) :
    depthAfter? d m = some d := by
  induction m with
  | nil => rfl
  | cons c m ih =>
    obtain ⟨hopen, hclose⟩ := h c List.mem_cons_self
    rw [depthAfter?, if_neg hopen, if_neg hclose]
    exact ih fun e he => h e (List.mem_cons_of_mem c he)

theorem balanced_of_no_parenthesis {m : List Char} (h : ∀ c ∈ m, c ≠ '(' ∧ c ≠ ')') :
    Balanced m :=
  depthAfter?_of_no_parenthesis h 0

theorem WellFormed.append {a b : List Char} (ha : WellFormed a) (hb : WellFormed b) :
    WellFormed (a ++ b) where
  closed := ha.closed.append hb.closed
  balanced := by
    rw [mask_append ha.closed]
    exact ha.balanced.append hb.balanced

theorem ne_parenthesis_of_isBlank {c : Char} (h : isBlank c) : c ≠ '(' ∧ c ≠ ')' :=
  of_isBlank (P := fun c => c ≠ '(' ∧ c ≠ ')') (by decide) h

theorem exists_mask_trim {cs : List Char} (h : Closed cs) :
    ∃ a b, mask cs = a ++ mask (trim cs) ++ b ∧ (∀ c ∈ a, isBlank c) ∧ ∀ c ∈ b, isBlank c := by
  obtain ⟨a, b, hcs, ha, hb⟩ := exists_trim cs
  refine ⟨a, b, ?_, ha, hb⟩
  calc mask cs = mask (a ++ trim cs ++ b) := congrArg mask hcs
    _ = a ++ mask (trim cs) ++ b := by
      rw [List.append_assoc, mask_append (closed_of_blank ha), mask_append (closed_trim h),
        mask_of_blank ha, mask_of_blank hb, List.append_assoc]

theorem mask_take (k : Nat) (cs : List Char) : mask (cs.take k) = (mask cs).take k := by
  have happend := maskFrom_append none (cs.take k) (cs.drop k)
  rw [List.take_append_drop] at happend
  rw [mask, mask, happend]
  rcases Nat.le_total k cs.length with hk | hk
  · have hlength : (maskFrom none (cs.take k)).length = k := by
      rw [length_maskFrom, List.length_take_of_le hk]
    rw [List.take_append_of_le_length (Nat.le_of_eq hlength.symm), List.take_of_length_le (Nat.le_of_eq hlength)]
  · rw [List.drop_of_length_le hk, List.take_of_length_le hk, maskFrom, List.append_nil,
      List.take_of_length_le (by rw [length_maskFrom]; exact hk)]

theorem head?_mask (cs : List Char) : (mask cs).head? = cs.head? := by
  cases cs <;> rfl

theorem getLast?_mask {cs : List Char} (h : Closed cs) : (mask cs).getLast? = cs.getLast? := by
  rcases List.eq_nil_or_concat' cs with rfl | ⟨init, c, rfl⟩
  · rfl
  · rw [Closed, quoteAfter_concat] at h
    rw [mask_concat, List.getLast?_concat, List.getLast?_concat, Option.some_inj]
    cases hstate : quoteAfter none init with
    | none => rfl
    | some q =>
      rw [hstate, quoteStep] at h
      rw [maskStep]
      split at h
      next hq => rw [if_pos hq]
      next => cases h

theorem trim_mask {cs : List Char} (h : Closed cs) : trim (mask cs) = mask (trim cs) := by
  obtain ⟨a, b, hmask, ha, hb⟩ := exists_mask_trim h
  have htrim : Trimmed (mask (trim cs)) := by
    constructor
    · rw [head?_mask]
      exact (trimmed_trim cs).1
    · rw [getLast?_mask (closed_trim h)]
      exact (trimmed_trim cs).2
  rw [hmask, trim_between ha htrim hb]

/-- The end of a text is cut as it is masked. -/
theorem dropEndWhile_mask {p : Char → Bool} (hp : ∀ q, isQuote q → p q = false) {cs : List Char}
    (h : Closed cs) :
    dropEndWhile p (mask cs) = mask (dropEndWhile p cs) ∧ Closed (dropEndWhile p cs) := by
  obtain ⟨gap, hcs, hgap⟩ := exists_dropEndWhile p cs
  have hquote : ∀ c ∈ gap, isQuote c = false := by
    intro c hc
    rw [← Bool.not_eq_true]
    intro hq
    have hpc := hgap c hc
    rw [hp c hq] at hpc
    cases hpc
  have hclosed : Closed (dropEndWhile p cs) := closed_of_append (hcs ▸ h) hquote
  refine ⟨?_, hclosed⟩
  calc dropEndWhile p (mask cs) = dropEndWhile p (mask (dropEndWhile p cs ++ gap)) := by rw [← hcs]
    _ = dropEndWhile p (mask (dropEndWhile p cs) ++ gap) := by
      rw [mask_append hclosed, mask_of_no_quote hquote]
    _ = dropEndWhile p (mask (dropEndWhile p cs)) := dropEndWhile_append_of_all _ hgap
    _ = mask (dropEndWhile p cs) := by
      apply dropEndWhile_eq_self
      rw [getLast?_mask hclosed]
      exact getLast?_dropEndWhile_not p cs

theorem WellFormed.trim {cs : List Char} (h : WellFormed cs) : WellFormed (trim cs) where
  closed := closed_trim h.closed
  balanced := by
    obtain ⟨a, b, hmask, ha, hb⟩ := exists_mask_trim h.closed
    have hbalanced := h.balanced
    rw [hmask, Balanced, depthAfter?_append, depthAfter?_append,
      depthAfter?_of_no_parenthesis fun c hc => ne_parenthesis_of_isBlank (ha c hc)] at hbalanced
    obtain ⟨d, hd, hrest⟩ := Option.bind_eq_some_iff.mp hbalanced
    rw [depthAfter?_of_no_parenthesis fun c hc => ne_parenthesis_of_isBlank (hb c hc)] at hrest
    obtain rfl : d = 0 := Option.some.inj hrest
    exact hd

instance (cs : List Char) : Decidable (WellFormed cs) :=
  decidable_of_iff (Closed cs ∧ Balanced (mask cs))
    ⟨fun h => ⟨h.1, h.2⟩, fun h => ⟨h.closed, h.balanced⟩⟩

theorem closed_group {cs : List Char} (h : Closed cs) : Closed ('(' :: (cs ++ [')'])) :=
  Closed.append (a := ['(']) rfl (h.append rfl)

theorem mask_group {cs : List Char} (h : Closed cs) :
    mask ('(' :: (cs ++ [')'])) = '(' :: (mask cs ++ [')']) := by
  rw [← List.singleton_append, mask_append (a := ['(']) rfl, mask_append h]
  rfl

theorem WellFormed.group {cs : List Char} (h : WellFormed cs) : WellFormed ('(' :: (cs ++ [')'])) where
  closed := closed_group h.closed
  balanced := by
    rw [mask_group h.closed]
    exact h.balanced.group

theorem trimmed_group (cs : List Char) : Trimmed ('(' :: (cs ++ [')'])) := by
  refine trimmed_of_ends (c := '(') (d := ')') rfl rfl rfl ?_
  rw [← List.cons_append, List.getLast?_concat]

/-! ## Depths -/

/-- The open parentheses behind a character. -/
def depthStep (d : Nat) (c : Char) : Nat :=
  if c = '(' then d + 1 else if c = ')' then d - 1 else d

/-- The open parentheses behind a masked text; a parenthesis that was never opened closes nothing. -/
def depthAfter (d : Nat) (m : List Char) : Nat :=
  m.foldl depthStep d

/-- The open parentheses at a character. -/
def depthAt (d : Nat) (c : Char) : Nat :=
  if c = ')' then d - 1 else d

theorem depthsFrom_cons (d : Nat) (c : Char) (cs : List Char) :
    depthsFrom d (c :: cs) = depthAt d c :: depthsFrom (depthStep d c) cs := by
  rw [depthsFrom, depthAt, depthStep]
  split_ifs with hopen hclose
  · rw [hopen] at hclose
    exact absurd hclose (by decide)
  · rfl
  · rfl
  · rfl

theorem depthAfter_append (d : Nat) (a b : List Char) :
    depthAfter d (a ++ b) = depthAfter (depthAfter d a) b :=
  List.foldl_append

theorem depthAfter_of_no_parenthesis {m : List Char} (h : ∀ c ∈ m, c ≠ '(' ∧ c ≠ ')') (d : Nat) :
    depthAfter d m = d := by
  induction m generalizing d with
  | nil => rfl
  | cons c m ih =>
    obtain ⟨hopen, hclose⟩ := h c List.mem_cons_self
    have hstep : depthStep d c = d := by
      rw [depthStep, if_neg hopen, if_neg hclose]
    rw [depthAfter, List.foldl_cons, hstep]
    exact ih (fun e he => h e (List.mem_cons_of_mem c he)) d

theorem depthAfter_of_blank {gap : List Char} (h : ∀ c ∈ gap, isBlank c) (d : Nat) : depthAfter d gap = d :=
  depthAfter_of_no_parenthesis (fun c hc => ne_parenthesis_of_isBlank (h c hc)) d

/-- Where no parenthesis is closed that was not opened, the depth is what `depthAfter?` says. -/
theorem depthAfter_of_depthAfter? {d e : Nat} {m : List Char} (h : depthAfter? d m = some e) :
    depthAfter d m = e := by
  induction m generalizing d with
  | nil => exact Option.some.inj h
  | cons c m ih =>
    rw [depthAfter?] at h
    rw [depthAfter, List.foldl_cons, depthStep]
    split_ifs at h with hopen hclose hzero
    · rw [if_pos hopen]
      exact ih h
    · rw [if_neg hopen, if_pos hclose]
      exact ih h
    · rw [if_neg hopen, if_neg hclose]
      exact ih h

/-- The depths of a second text are counted from the depth behind the first. -/
theorem depthsFrom_append (d : Nat) (a b : List Char) :
    depthsFrom d (a ++ b) = depthsFrom d a ++ depthsFrom (depthAfter d a) b := by
  induction a generalizing d with
  | nil => rfl
  | cons c a ih =>
    rw [List.cons_append, depthsFrom_cons, depthsFrom_cons, ih, List.cons_append]
    rfl

/-! ## The closing parenthesis -/

/-- The count runs out at a closing parenthesis and is carried on behind any other character. -/
theorem closing?_cons (d : Nat) (c : Char) (m : List Char) :
    closing? d (c :: m) = if c = ')' ∧ d = 1 then some 0 else (closing? (depthStep d c) m).map (· + 1) := by
  rw [closing?, depthStep]
  by_cases hopen : c = '('
  · have hclose : ¬ (c = ')' ∧ d = 1) := fun h => absurd (hopen.symm.trans h.1) (by decide)
    rw [if_pos hopen, if_neg hclose, if_pos hopen]
  · rw [if_neg hopen, if_neg hopen]
    by_cases hclose : c = ')'
    · rw [if_pos hclose, if_pos hclose]
      simp only [hclose, true_and]
    · rw [if_neg hclose, if_neg (fun h => hclose h.1), if_neg hclose]

theorem closing?_open (rest : List Char) : closing? 0 ('(' :: rest) = (closing? 1 rest).map (· + 1) := by
  rw [closing?, if_pos rfl]

theorem closing?_append {d k : Nat} {m : List Char} (h : closing? d m = some k) (more : List Char) :
    closing? d (m ++ more) = some k := by
  induction m generalizing d k with
  | nil => cases h
  | cons c m ih =>
    rw [closing?_cons] at h
    rw [List.cons_append, closing?_cons]
    split_ifs at h ⊢
    · exact h
    · obtain ⟨j, hj, rfl⟩ := Option.map_eq_some_iff.mp h
      rw [ih hj]
      rfl

theorem getElem?_of_closing? {d k : Nat} {m : List Char} (h : closing? d m = some k) :
    m[k]? = some ')' := by
  induction m generalizing d k with
  | nil => cases h
  | cons c m ih =>
    rw [closing?_cons] at h
    split_ifs at h with hlast
    · cases h
      rw [hlast.1]
      rfl
    · obtain ⟨j, hj, rfl⟩ := Option.map_eq_some_iff.mp h
      exact ih hj

theorem lt_of_closing? {d k : Nat} {m : List Char} (h : closing? d m = some k) : k < m.length := by
  obtain ⟨hk, -⟩ := List.getElem?_eq_some_iff.mp (getElem?_of_closing? h)
  exact hk

/-- A parenthesis that is open before a text and closed after it is closed inside it. -/
theorem exists_closing?_of_depthAfter? {j d e : Nat} {m : List Char} (hj : 0 < j) (he : e ≤ d)
    (h : depthAfter? (j + d) m = some e) : ∃ k, closing? j m = some k := by
  induction m generalizing j with
  | nil =>
    cases h
    omega
  | cons c m ih =>
    rw [depthAfter?] at h
    rw [closing?]
    split_ifs at h ⊢ with h1 h2 h3 h4
    · obtain ⟨k, hk⟩ := ih (j := j + 1) (by omega) (by rw [← h]; congr 1; omega)
      exact ⟨k + 1, by rw [hk]; rfl⟩
    · exact ⟨0, rfl⟩
    · obtain ⟨k, hk⟩ := ih (j := j - 1) (by omega) (by rw [← h]; congr 1; omega)
      exact ⟨k + 1, by rw [hk]; rfl⟩
    · obtain ⟨k, hk⟩ := ih hj h
      exact ⟨k + 1, by rw [hk]; rfl⟩

/-- What stands before the parenthesis that is found closes all that it opens. -/
theorem depthAfter?_of_closing? {d k : Nat} {m : List Char} (h : closing? (d + 1) m = some k) :
    depthAfter? d (m.take k) = some 0 := by
  induction m generalizing d k with
  | nil => cases h
  | cons c m ih =>
    rw [closing?_cons] at h
    split_ifs at h with hlast
    · cases h
      rw [List.take_zero, depthAfter?, Nat.succ.inj hlast.2]
    · obtain ⟨j, hj, rfl⟩ := Option.map_eq_some_iff.mp h
      rw [List.take_succ_cons, depthAfter?]
      rw [depthStep] at hj
      split_ifs at hj ⊢ with hopen hclose hzero
      · exact ih hj
      · exact absurd ⟨hclose, by rw [hzero]⟩ hlast
      · rw [Nat.add_sub_cancel, ← Nat.sub_add_cancel (Nat.pos_of_ne_zero hzero)] at hj
        exact ih hj
      · exact ih hj

/-- The parenthesis after a balanced text closes the one before it. -/
theorem closing?_after {d e : Nat} {m : List Char} (h : depthAfter? d m = some e) (rest : List Char) :
    closing? (d + 1) (m ++ rest) = (closing? (e + 1) rest).map (· + m.length) := by
  induction m generalizing d with
  | nil =>
    cases h
    simp
  | cons c m ih =>
    rw [depthAfter?] at h
    rw [List.cons_append, closing?]
    split_ifs at h ⊢ with h1 h2 h3
    · rw [ih h, Option.map_map]
      rfl
    · omega
    · rw [show d + 1 - 1 = d - 1 + 1 by omega, ih h, Option.map_map]
      rfl
    · rw [ih h, Option.map_map]
      rfl

theorem closing?_group {m : List Char} (h : Balanced m) (rest : List Char) :
    closing? 0 ('(' :: (m ++ ')' :: rest)) = some (m.length + 1) := by
  rw [closing?, if_pos rfl, closing?_after h]
  simp [closing?]

end MetricLayer.Sql
