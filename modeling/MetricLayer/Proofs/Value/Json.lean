import MetricLayer.Proofs.Text.Keyword
import MetricLayer.Value.Json

/-!
# Texts that are written as JSON

A text has many JSON forms: its characters may stand as they are, as one letter behind a backslash, or as one
or two code units in hexadecimal (`Writes`, `WritesText`).  The reader gives the text back from each of them
(`text?_of_writesText`), and from an object with the text as its only entry (`read_object`).
-/

namespace MetricLayer.Json

open MetricLayer.Text

/-! ## Hexadecimal numbers -/

/-- The character is a hexadecimal digit of a value, in either letter case. -/
def IsHexDigit (d : Char) (n : Nat) : Prop :=
  n < 10 ∧ d.toNat = 48 + n ∨ 10 ≤ n ∧ n < 16 ∧ (d.toNat = 87 + n ∨ d.toNat = 55 + n)

instance (d : Char) (n : Nat) : Decidable (IsHexDigit d n) :=
  inferInstanceAs (Decidable (_ ∨ _))

/-- Four hexadecimal digits write a number. -/
inductive WritesUnit : List Char → Nat → Prop where
  | digits {a b c d : Char} {w x y z : Nat} (ha : IsHexDigit a w) (hb : IsHexDigit b x) (hc : IsHexDigit c y)
      (hd : IsHexDigit d z) : WritesUnit [a, b, c, d] (((w * 16 + x) * 16 + y) * 16 + z)

theorem hexValue?_eq_some_iff {d : Char} {n : Nat} : hexValue? d = some n ↔ IsHexDigit d n := by
  have hle (c e : Char) : c ≤ e ↔ c.toNat ≤ e.toNat := Iff.rfl
  rw [hexValue?, IsHexDigit]
  simp only [hle, Char.reduceToNat]
  split_ifs <;> simp only [Option.some.injEq, false_iff] <;> omega

theorem IsHexDigit.ne {d : Char} {n : Nat} (h : IsHexDigit d n) : d ≠ '"' ∧ d ≠ '\x60' := by
  constructor
  · rintro rfl
    simp only [IsHexDigit, Char.reduceToNat] at h
    omega
  · rintro rfl
    simp only [IsHexDigit, Char.reduceToNat] at h
    omega

theorem WritesUnit.ne {ds : List Char} {n : Nat} (h : WritesUnit ds n) : ∀ c ∈ ds, c ≠ '"' ∧ c ≠ '\x60' := by
  cases h with
  | digits ha hb hc hd => simp [ha.ne, hb.ne, hc.ne, hd.ne]

theorem WritesUnit.lt {ds : List Char} {n : Nat} (h : WritesUnit ds n) : n < 0x10000 := by
  cases h with
  | digits ha hb hc hd =>
    have hlt {d : Char} {n : Nat} (h : IsHexDigit d n) : n < 16 := by
      rw [IsHexDigit] at h
      omega
    have := hlt ha
    have := hlt hb
    have := hlt hc
    have := hlt hd
    omega

theorem hex4?_eq_some_iff {cs rest : List Char} {n : Nat} :
    hex4? cs = some (n, rest) ↔ ∃ ds, cs = ds ++ rest ∧ WritesUnit ds n := by
  constructor
  · intro h
    match cs with
    | a :: b :: c :: d :: cs =>
      rw [hex4?] at h
      obtain ⟨w, hw, h⟩ := Option.bind_eq_some_iff.mp h
      obtain ⟨x, hx, h⟩ := Option.bind_eq_some_iff.mp h
      obtain ⟨y, hy, h⟩ := Option.bind_eq_some_iff.mp h
      obtain ⟨z, hz, h⟩ := Option.bind_eq_some_iff.mp h
      rw [hexValue?_eq_some_iff] at hw hx hy hz
      obtain ⟨rfl, rfl⟩ := Prod.mk.inj (Option.some.inj h)
      refine ⟨[a, b, c, d], rfl, ?_⟩
      have hunit := WritesUnit.digits hw hx hy hz
      rwa [show ((w * 16 + x) * 16 + y) * 16 + z = (w * 16 + x) * 256 + y * 16 + z by omega] at hunit
    | [] | [_] | [_, _] | [_, _, _] => cases h
  · rintro ⟨ds, rfl, hunit⟩
    cases hunit with
    | digits ha hb hc hd =>
      rw [← hexValue?_eq_some_iff] at ha hb hc hd
      simp only [List.cons_append, List.nil_append, hex4?, ha, hb, hc, hd, Option.bind_eq_bind, Option.bind_some,
        Option.some.injEq, Prod.mk.injEq, and_true]
      omega

/-! ## The forms of a text -/

/-- What a letter behind a backslash stands for. -/
def shortForms : List (Char × Char) :=
  [('"', '"'), ('\\', '\\'), ('/', '/'), ('b', '\x08'), ('f', '\x0c'), ('n', '\n'), ('r', '\r'), ('t', '\t')]

/-- The first and the second half of a pair of code units write a character. -/
def IsPair (high low n : Nat) : Prop :=
  0xd800 ≤ high ∧ high < 0xdc00 ∧ 0xdc00 ≤ low ∧ low < 0xe000 ∧
    n = 0x10000 + (high - 0xd800) * 0x400 + (low - 0xdc00)

/-- The text starts with an escaped code unit. -/
def StartsUnit (cs : List Char) (n : Nat) : Prop :=
  ∃ ds more, cs = '\\' :: 'u' :: (ds ++ more) ∧ WritesUnit ds n

/-- A form of a character before the rest of a text.  A code unit on its own does not stand before one that
would make a pair of both. -/
inductive Writes (c : Char) (rest : List Char) : List Char → Prop where
  | plain (hquote : c ≠ '"') (hescape : c ≠ '\\') (hcontrol : 32 ≤ c.toNat) : Writes c rest [c]
  | short {e : Char} (h : (e, c) ∈ shortForms) : Writes c rest ['\\', e]
  | unit {ds : List Char} (h : WritesUnit ds (codePoint c))
      (hsingle : ∀ low n, StartsUnit rest low → ¬ IsPair (codePoint c) low n) :
      Writes c rest ('\\' :: 'u' :: ds)
  | pair {ds es : List Char} {high low : Nat} (hhigh : WritesUnit ds high) (hlow : WritesUnit es low)
      (h : IsPair high low c.toNat) : Writes c rest ('\\' :: 'u' :: (ds ++ '\\' :: 'u' :: es))

/-- A form of a text between its quotes. -/
inductive WritesText : List Char → List Char → Prop where
  | nil : WritesText [] []
  | cons {c : Char} {cs form forms : List Char} (hc : Writes c forms form) (hcs : WritesText cs forms) :
      WritesText (c :: cs) (form ++ forms)

section forms

variable {c : Char} {cs rest form forms : List Char} {n low : Nat}

/-- Characters that need no escape stand as they are. -/
theorem WritesText.plain_append {a : List Char} (ha : ∀ c ∈ a, c ≠ '"' ∧ c ≠ '\\' ∧ 32 ≤ c.toNat)
    (h : WritesText cs forms) : WritesText (a ++ cs) (a ++ forms) := by
  induction a with
  | nil => exact h
  | cons c a ih =>
    obtain ⟨⟨hquote, hescape, hcontrol⟩, ha⟩ := List.forall_mem_cons.mp ha
    have hc : Writes c (a ++ forms) [c] := .plain hquote hescape hcontrol
    show WritesText (c :: (a ++ cs)) ([c] ++ (a ++ forms))
    exact .cons hc (ih ha)

theorem Writes.ne_nil (h : Writes c rest form) : form ≠ [] := by
  cases h <;> exact List.cons_ne_nil _ _

/-- A form of a text has no backtick that the text has not. -/
theorem Writes.not_mem (h : Writes c rest form) (hc : c ≠ '\x60') : '\x60' ∉ form := by
  have hunit {ds : List Char} {n : Nat} (h : WritesUnit ds n) : '\x60' ∉ '\\' :: 'u' :: ds := by
    have hds : '\x60' ∉ ds := fun hmem => (h.ne _ hmem).2 rfl
    simpa using hds
  cases h with
  | plain => simpa using hc.symm
  | short he =>
    have hletters : ∀ e ∈ shortForms, '\x60' ∉ ['\\', e.1] := by decide
    exact hletters _ he
  | unit hds => exact hunit hds
  | pair hhigh hlow =>
    rw [← List.cons_append, ← List.cons_append, List.mem_append]
    exact not_or.mpr ⟨hunit hhigh, hunit hlow⟩

theorem WritesText.not_mem (h : WritesText cs forms) (hcs : '\x60' ∉ cs) : '\x60' ∉ forms := by
  induction h with
  | nil => exact hcs
  | cons hc _ ih =>
    rw [List.mem_cons, not_or] at hcs
    rw [List.mem_append]
    exact not_or.mpr ⟨hc.not_mem (Ne.symm hcs.1), ih hcs.2⟩

/-! ## Reading a form -/

theorem StartsUnit.of_append (h : StartsUnit (forms ++ '"' :: rest) n) : StartsUnit forms n := by
  obtain ⟨ds, more, heq, hds⟩ := h
  have hquote : '"' ∉ '\\' :: 'u' :: ds := by
    have hmem : '"' ∉ ds := fun hmem => (hds.ne _ hmem).1 rfl
    simpa using hmem
  obtain ⟨more', hforms, -⟩ := exists_of_append_eq_append hquote heq
  exact ⟨ds, more', hforms, hds⟩

theorem pairChar?_eq_some_iff {high : Nat} :
    pairChar? high low = some c ↔ IsPair high low c.toNat := by
  rw [pairChar?, IsPair]
  split_ifs with hrange
  · rw [Option.some.injEq]
    have hvalid : (0x10000 + (high - 0xd800) * 0x400 + (low - 0xdc00)).isValidChar := by
      simp only [Nat.isValidChar]
      omega
    constructor
    · rintro rfl
      rw [toNat_ofNat_of_isValidChar hvalid]
      exact ⟨hrange.1, hrange.2.1, hrange.2.2.1, hrange.2.2.2, rfl⟩
    · rintro ⟨-, -, -, -, hc⟩
      rw [← hc, Char.ofNat_toNat]
  · simp only [false_iff]
    rintro ⟨h₁, h₂, h₃, h₄, -⟩
    exact hrange ⟨h₁, h₂, h₃, h₄⟩

/-- A character is given back from its code unit. -/
theorem unitChar_codePoint (h : codePoint c < 0x10000) : unitChar (codePoint c) = c := by
  rw [codePoint] at h ⊢
  by_cases hhalf : isHalf (c.toNat - halfShift)
  · rw [if_pos hhalf, unitChar, if_pos hhalf]
    have hshift : halfShift + (c.toNat - halfShift) = c.toNat := by
      simp only [isHalf, Bool.and_eq_true, decide_eq_true_eq] at hhalf
      omega
    rw [hshift, Char.ofNat_toNat]
  · rw [if_neg hhalf] at h ⊢
    have hvalid : c.toNat.isValidChar := c.valid
    have hunit : ¬ isHalf c.toNat := by
      simp only [isHalf, Bool.and_eq_true, decide_eq_true_eq]
      simp only [Nat.isValidChar] at hvalid
      omega
    rw [unitChar, if_neg hunit, Char.ofNat_toNat]

theorem units?_unit {ds : List Char} (h : WritesUnit ds (codePoint c))
    (hsingle : ∀ low n, StartsUnit rest low → ¬ IsPair (codePoint c) low n) :
    units? (ds ++ rest) = some (c, rest) := by
  have hhex : hex4? (ds ++ rest) = some (codePoint c, rest) := hex4?_eq_some_iff.mpr ⟨ds, rfl, h⟩
  have hchar : unitChar (codePoint c) = c := unitChar_codePoint h.lt
  rw [units?, hhex]
  dsimp only [Option.bind_eq_bind, Option.bind_some]
  split
  next digits =>
    have hnone : ((hex4? digits).bind fun found =>
        (pairChar? (codePoint c) found.1).map (·, found.2)) = none := by
      rw [Option.bind_eq_none_iff]
      rintro ⟨low, es⟩ hlow
      obtain ⟨ds', rfl, hds'⟩ := hex4?_eq_some_iff.mp hlow
      rw [Option.map_eq_none_iff, Option.eq_none_iff_forall_ne_some]
      exact fun d hd => hsingle low _ ⟨ds', es, rfl, hds'⟩ (pairChar?_eq_some_iff.mp hd)
    rw [hnone, Option.getD_none, hchar]
  next => rw [Option.getD_none, hchar]

theorem units?_pair {ds es : List Char} {high low : Nat} (hhigh : WritesUnit ds high) (hlow : WritesUnit es low)
    (h : IsPair high low c.toNat) : units? (ds ++ '\\' :: 'u' :: (es ++ rest)) = some (c, rest) := by
  have hfirst : hex4? (ds ++ '\\' :: 'u' :: (es ++ rest)) = some (high, '\\' :: 'u' :: (es ++ rest)) :=
    hex4?_eq_some_iff.mpr ⟨ds, rfl, hhigh⟩
  have hsecond : hex4? (es ++ rest) = some (low, rest) := hex4?_eq_some_iff.mpr ⟨es, rfl, hlow⟩
  rw [units?, hfirst]
  simp only [Option.bind_eq_bind, Option.bind_some, hsecond, pairChar?_eq_some_iff.mpr h, Option.map_some,
    Option.getD_some]

theorem escape?_of_mem_shortForms {e : Char} (h : (e, c) ∈ shortForms) : e ≠ 'u' ∧ escape? e = some c := by
  have hall : ∀ f ∈ shortForms, f.1 ≠ 'u' ∧ escape? f.1 = some f.2 := by decide
  exact hall _ h

/-- The reader takes a form of a character for the character. -/
theorem text?_of_writes {fuel : Nat} (h : Writes c rest form) :
    text? (fuel + 1) (form ++ rest) = (text? fuel rest).map fun found => (c :: found.1, found.2) := by
  have hread : ∀ o : Option (List Char × List Char),
      (o.bind fun found => some (c :: found.1, found.2)) = o.map fun found => (c :: found.1, found.2) :=
    fun o => (Option.map_eq_bind (f := fun found : List Char × List Char => (c :: found.1, found.2))).symm
  cases h with
  | plain hquote hescape hcontrol =>
    rw [List.singleton_append, text?, if_neg (Nat.not_lt.mpr hcontrol)]
    · exact hread _
    · exact hquote
    · exact fun _ heq _ => hescape heq
    · exact fun _ _ heq _ => hescape heq
  | short he =>
    obtain ⟨hu, hescape⟩ := escape?_of_mem_shortForms he
    rw [List.cons_append, List.singleton_append, text?, hescape]
    · exact hread _
    · exact hu
  | unit hunit hsingle =>
    rw [List.cons_append, List.cons_append, text?, units?_unit hunit hsingle]
    exact hread _
  | pair hhigh hlow hpair =>
    rw [List.cons_append, List.cons_append, List.append_assoc, List.cons_append, List.cons_append, text?,
      units?_pair hhigh hlow hpair]
    exact hread _

/-- Only what follows the form of a code unit matters for it, up to the closing quote. -/
theorem Writes.append (h : Writes c forms form) (rest : List Char) : Writes c (forms ++ '"' :: rest) form := by
  cases h with
  | plain hquote hescape hcontrol => exact .plain hquote hescape hcontrol
  | short he => exact .short he
  | unit hunit hsingle => exact .unit hunit fun low n hstarts => hsingle low n hstarts.of_append
  | pair hhigh hlow hpair => exact .pair hhigh hlow hpair

/-- A text is read back from each of its forms. -/
theorem text?_of_writesText (h : WritesText cs forms) {fuel : Nat} (hfuel : forms.length < fuel)
    (rest : List Char) : text? fuel (forms ++ '"' :: rest) = some (cs, rest) := by
  induction h generalizing fuel with
  | nil =>
    obtain ⟨fuel, rfl⟩ := Nat.exists_eq_succ_of_ne_zero hfuel.ne'
    rfl
  | cons hc _ ih =>
    obtain ⟨fuel, rfl⟩ := Nat.exists_eq_succ_of_ne_zero (Nat.ne_zero_of_lt hfuel)
    have hpos := List.length_pos_of_ne_nil hc.ne_nil
    rw [List.length_append] at hfuel
    rw [List.append_assoc, text?_of_writes (hc.append rest), ih (by omega)]
    rfl

theorem text_of_writesText (h : WritesText cs forms) (rest : List Char) :
    text (forms ++ '"' :: rest) = .ok (String.ofList cs, rest) := by
  have hfuel : forms.length < (forms ++ '"' :: rest).length + 1 := by
    rw [List.length_append]
    omega
  rw [text, text?_of_writesText h hfuel]
  rfl

end forms

/-! ## An object with one text -/

/-- A JSON object with a text as its only entry, written with white space anywhere between its signs. -/
inductive WritesEntry (key cs : List Char) : List Char → Prop where
  | object {s₁ s₂ s₃ s₄ keyForms forms : List Char} (h₁ : ∀ c ∈ s₁, isSpace c) (h₂ : ∀ c ∈ s₂, isSpace c)
      (h₃ : ∀ c ∈ s₃, isSpace c) (h₄ : ∀ c ∈ s₄, isSpace c) (hkey : WritesText key keyForms)
      (hcs : WritesText cs forms) :
      WritesEntry key cs ('\x7b' :: (s₁ ++ '"' :: (keyForms ++ '"' :: (s₂ ++ ':' :: (s₃ ++ '"' ::
        (forms ++ '"' :: (s₄ ++ ['\x7d'])))))))

theorem WritesEntry.exists_inner {key cs object : List Char} (h : WritesEntry key cs object) :
    ∃ inner, object = '\x7b' :: (inner ++ ['\x7d']) := by
  cases h with
  | @object s₁ s₂ s₃ s₄ keyForms forms =>
    refine ⟨s₁ ++ '"' :: (keyForms ++ '"' :: (s₂ ++ ':' :: (s₃ ++ '"' :: (forms ++ '"' :: s₄)))), ?_⟩
    simp only [List.append_assoc, List.cons_append]

/-- An object has no backtick that its key and its text have not. -/
theorem WritesEntry.not_mem {key cs object : List Char} (h : WritesEntry key cs object) (hkey : '\x60' ∉ key)
    (hcs : '\x60' ∉ cs) : '\x60' ∉ object := by
  have hspace {s : List Char} (h : ∀ c ∈ s, isSpace c) : '\x60' ∉ s := fun hmem => absurd (h _ hmem) (by decide)
  cases h with
  | object h₁ h₂ h₃ h₄ hkeyForms hforms =>
    simp [hspace h₁, hspace h₂, hspace h₃, hspace h₄, hkeyForms.not_mem hkey, hforms.not_mem hcs]

theorem skip_append {gap : List Char} {c : Char} (hgap : ∀ d ∈ gap, isSpace d) (hc : isSpace c = false)
    (rest : List Char) : skip (gap ++ c :: rest) = c :: rest := by
  rw [skip, List.dropWhile_append_of_pos hgap, List.dropWhile_cons_of_neg (by rw [hc]; exact Bool.false_ne_true)]

/-- An object with one text is read as it is. -/
theorem read_object {key cs object : List Char} (h : WritesEntry key cs object) :
    read object = .ok (.object [(String.ofList key, .text (String.ofList cs))]) := by
  cases h with
  | @object s₁ s₂ s₃ s₄ keyForms forms h₁ h₂ h₃ h₄ hkey hcs =>
    have hend : skip (s₄ ++ ['\x7d']) = ['\x7d'] := skip_append h₄ rfl []
    have hvalue (fuel depth : Nat) : value (fuel + 1) depth ('"' :: (forms ++ '"' :: (s₄ ++ ['\x7d']))) =
        .ok (.text (String.ofList cs), s₄ ++ ['\x7d']) := by
      rw [value, text_of_writesText hcs]
      rfl
    have hmembers (fuel depth : Nat) :
        members (fuel + 2) depth ('"' :: (keyForms ++ '"' :: (s₂ ++ ':' :: (s₃ ++ '"' ::
          (forms ++ '"' :: (s₄ ++ ['\x7d'])))))) =
          .ok ([(String.ofList key, .text (String.ofList cs))], []) := by
      rw [members, text_of_writesText hkey]
      simp only [Bind.bind, Except.bind, skip_append h₂ (c := ':') rfl, skip_append h₃ (c := '"') rfl, hvalue, hend]
    generalize htail : s₁ ++ '"' :: (keyForms ++ '"' :: (s₂ ++ ':' :: (s₃ ++ '"' ::
      (forms ++ '"' :: (s₄ ++ ['\x7d']))))) = tail at *
    have hfuel : ∃ fuel, ('\x7b' :: tail).length + 1 = fuel + 2 + 1 := by
      refine ⟨tail.length - 1, ?_⟩
      have hpos : 0 < tail.length := by
        rw [← htail, List.length_append, List.length_cons]
        omega
      rw [List.length_cons]
      omega
    obtain ⟨fuel, hfuel⟩ := hfuel
    have hskip : skip tail = '"' :: (keyForms ++ '"' :: (s₂ ++ ':' :: (s₃ ++ '"' ::
        (forms ++ '"' :: (s₄ ++ ['\x7d']))))) := by
      rw [← htail]
      exact skip_append h₁ rfl _
    have hopen : skip ('\x7b' :: tail) = '\x7b' :: tail := rfl
    have hdepth : depthLimit = 989 + 1 := rfl
    rw [read, hfuel, hopen, hdepth, value, hskip]
    show Except.map _ (members (fuel + 2) 989 _) >>= _ = _
    rw [hmembers]
    rfl

end MetricLayer.Json
