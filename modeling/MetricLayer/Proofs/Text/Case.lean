import MetricLayer.Proofs.Text.Keyword
import MetricLayer.Proofs.Text.Trim
import MetricLayer.Text.Case

/-!
# Letter case and white space

Some characters stand in no relation of lower and upper case, white space and the apostrophe among them
(`Caseless`).  Lower case leaves them where they are, and turns every other character into others, never
into nothing.  So two names that agree but for letter case are both empty or not, both trimmed or not
(`trimmed_of_lower_eq`), and hold an apostrophe both or not (`mem_of_lower_eq`).
-/

namespace MetricLayer.Text

theorem toNat_ofNat (n : Nat) : (Char.ofNat n).toNat = n ∨ (Char.ofNat n).toNat = 0 := by
  by_cases h : n.isValidChar
  · left
    rw [Char.ofNat, dif_pos h]
    rfl
  · right
    rw [Char.ofNat, dif_neg h]
    rfl

/-- Lower case neither meets nor yields these code points. -/
def Caseless (codes : List Nat) : Prop :=
  (∀ b ∈ codes, ¬ (65 ≤ b ∧ b ≤ 90) ∧ ¬ (97 ≤ b ∧ b ≤ 122) ∧ b ∉ [0, 0x130, 0x307, 0x3a3, 0x3c2, 0x3c3]) ∧
    ∀ r ∈ lowerRuns, ∀ b ∈ codes, ¬ (r.1 ≤ b ∧ b ≤ r.2.1) ∧
      ¬ ((r.1 : Int) + r.2.2.2 ≤ b ∧ (b : Int) ≤ r.2.1 + r.2.2.2)

instance (codes : List Nat) : Decidable (Caseless codes) :=
  inferInstanceAs (Decidable (_ ∧ _))

theorem caseless_blankCodes : Caseless blankCodes := by
  decide +kernel

section caseless

variable {codes : List Nat}

theorem Caseless.not_mem_of_mem (h : Caseless codes) {b : Nat}
    (hb : b ∈ [0, 0x130, 0x307, 0x3a3, 0x3c2, 0x3c3]) : b ∉ codes :=
  fun hmem => (h.1 b hmem).2.2 hb

theorem Caseless.ofNat_not_mem (h : Caseless codes) {n : Nat} (hn : n ∉ codes) : (Char.ofNat n).toNat ∉ codes := by
  rcases toNat_ofNat n with heq | heq
  · rwa [heq]
  · rw [heq]
    exact h.not_mem_of_mem (by decide)

/-- No run of lower case meets or yields such a code point. -/
theorem Caseless.moveBy? (h : Caseless codes) {n m : Nat} (hmove : moveBy? lowerRuns n = some m) :
    n ∉ codes ∧ m ∉ codes := by
  obtain ⟨⟨first, last, step, offset⟩, hmem, hrun⟩ := List.exists_of_findSome?_eq_some hmove
  simp only at hrun
  split at hrun
  next hin =>
    obtain rfl := Option.some.inj hrun
    constructor
    · intro hb
      exact (h.2 _ hmem n hb).1 ⟨hin.1, hin.2.1⟩
    · intro hb
      have hpos : ((n + offset).toNat : Int) = n + offset := by
        by_contra hneg
        have hzero : ((n : Int) + offset).toNat = 0 := by omega
        rw [hzero] at hb
        exact h.not_mem_of_mem (by decide) hb
      have := (h.2 _ hmem _ hb).2
      simp only [hpos] at this
      omega
  next => cases hrun

theorem Caseless.toLower (h : Caseless codes) (c : Char) : c.toLower.toNat ∈ codes ↔ c.toNat ∈ codes := by
  rw [toNat_toLower]
  split
  next hcase =>
    constructor
    · intro hb
      have := (h.1 _ hb).2.1
      omega
    · intro hb
      exact absurd hcase (h.1 _ hb).1
  next => exact Iff.rfl

theorem Caseless.lowerChar (h : Caseless codes) (c : Char) :
    lowerChar c ≠ [] ∧ ∀ d ∈ lowerChar c, (d.toNat ∈ codes ↔ c.toNat ∈ codes) := by
  rw [Text.lowerChar]
  split
  next =>
    refine ⟨List.cons_ne_nil _ _, fun d hd => ?_⟩
    rw [List.mem_singleton.mp hd]
    exact h.toLower c
  split
  next hc =>
    have hnone : c.toNat ∉ codes := h.not_mem_of_mem (by rw [hc]; decide)
    refine ⟨List.cons_ne_nil _ _, fun d hd => iff_of_false ?_ hnone⟩
    rcases List.mem_cons.mp hd with rfl | hd
    · exact fun hmem => (h.1 _ hmem).2.1 (by decide)
    · rw [List.mem_singleton.mp hd]
      exact h.not_mem_of_mem (by decide)
  next =>
    refine ⟨List.cons_ne_nil _ _, fun d hd => ?_⟩
    rw [List.mem_singleton.mp hd]
    cases hmove : Text.moveBy? lowerRuns c.toNat with
    | none => rfl
    | some m =>
      obtain ⟨hn, hm⟩ := h.moveBy? hmove
      exact iff_of_false (h.ofNat_not_mem hm) hn

/-- A character is turned into others, which are caseless exactly if it is. -/
theorem Caseless.exists_lowerAfter_cons (h : Caseless codes) (before : List Char) (c : Char) (cs : List Char) :
    ∃ ds, lowerAfter before (c :: cs) = ds ++ lowerAfter (c :: before) cs ∧ ds ≠ [] ∧
      ∀ d ∈ ds, (d.toNat ∈ codes ↔ c.toNat ∈ codes) := by
  rw [lowerAfter]
  refine ⟨_, rfl, ?_⟩
  split
  next hc =>
    have hnone : c.toNat ∉ codes := h.not_mem_of_mem (by rw [hc]; decide)
    refine ⟨List.cons_ne_nil _ _, fun d hd => iff_of_false ?_ hnone⟩
    rw [List.mem_singleton] at hd
    split at hd <;> subst hd <;> exact h.not_mem_of_mem (by decide)
  next => exact h.lowerChar c

theorem Caseless.exists_mem_lower_iff (h : Caseless codes) (cs : List Char) :
    (∃ d ∈ lower cs, d.toNat ∈ codes) ↔ ∃ c ∈ cs, c.toNat ∈ codes := by
  have hafter (cs : List Char) : ∀ before,
      (∃ d ∈ lowerAfter before cs, d.toNat ∈ codes) ↔ ∃ c ∈ cs, c.toNat ∈ codes := by
    induction cs with
    | nil => exact fun _ => Iff.rfl
    | cons c cs ih =>
      intro before
      obtain ⟨ds, hds, hne, hcodes⟩ := h.exists_lowerAfter_cons before c cs
      obtain ⟨d, ds, rfl⟩ := List.exists_cons_of_ne_nil hne
      have hfirst : (∃ e ∈ d :: ds, e.toNat ∈ codes) ↔ c.toNat ∈ codes :=
        ⟨fun ⟨e, he, hmem⟩ => (hcodes e he).mp hmem,
          fun hmem => ⟨d, List.mem_cons_self, (hcodes d List.mem_cons_self).mpr hmem⟩⟩
      rw [hds, List.exists_mem_cons_iff, ← ih (c :: before), ← hfirst]
      simp only [List.mem_append, or_and_right, exists_or]
  exact hafter cs []

/-- Names that agree but for letter case hold such code points both or not. -/
theorem Caseless.exists_mem_iff_of_lower_eq (h : Caseless codes) {a b : List Char} (heq : lower a = lower b) :
    (∃ c ∈ a, c.toNat ∈ codes) ↔ ∃ c ∈ b, c.toNat ∈ codes := by
  rw [← h.exists_mem_lower_iff, heq, h.exists_mem_lower_iff]

end caseless

/-- Names that agree but for letter case hold an apostrophe both or not. -/
theorem mem_of_lower_eq {a b : List Char} (h : lower a = lower b) (ha : '\'' ∈ a) : '\'' ∈ b := by
  have hcaseless : Caseless ['\''.toNat] := by
    decide +kernel
  have hmem (cs : List Char) : (∃ c ∈ cs, c.toNat ∈ ['\''.toNat]) ↔ '\'' ∈ cs := by
    simp only [List.mem_singleton, Char.toNat_inj]
    exact exists_eq_right
  rwa [← hmem, ← hcaseless.exists_mem_iff_of_lower_eq h, hmem]

/-! ## The ends of a text -/

theorem lower_eq_nil_iff {cs : List Char} : lower cs = [] ↔ cs = [] := by
  cases cs with
  | nil => exact Iff.rfl
  | cons c cs =>
    obtain ⟨ds, hds, hne, -⟩ := caseless_blankCodes.exists_lowerAfter_cons [] c cs
    rw [lower, hds]
    simp [hne]

section ends

variable {codes : List Nat} {p : Char → Bool}

/-- A character is turned into others, which are of a caseless class exactly if it is. -/
theorem Caseless.exists_lowerAfter_cons_class (h : Caseless codes) (hp : ∀ {c}, p c = true ↔ c.toNat ∈ codes)
    (before : List Char) (c : Char) (cs : List Char) :
    ∃ ds, lowerAfter before (c :: cs) = ds ++ lowerAfter (c :: before) cs ∧ ds ≠ [] ∧ ∀ d ∈ ds, p d = p c := by
  obtain ⟨ds, hds, hne, hcodes⟩ := h.exists_lowerAfter_cons before c cs
  refine ⟨ds, hds, hne, fun d hd => ?_⟩
  rw [Bool.eq_iff_iff, hp, hp]
  exact hcodes d hd

theorem Caseless.head?_lower (h : Caseless codes) (hp : ∀ {c}, p c = true ↔ c.toNat ∈ codes) (cs : List Char) :
    (lower cs).head?.map p = cs.head?.map p := by
  cases cs with
  | nil => rfl
  | cons c cs =>
    obtain ⟨ds, hds, hne, hclass⟩ := h.exists_lowerAfter_cons_class hp [] c cs
    obtain ⟨d, ds, rfl⟩ := List.exists_cons_of_ne_nil hne
    rw [lower, hds, List.cons_append, List.head?_cons, List.head?_cons, Option.map_some,
      Option.map_some, hclass d List.mem_cons_self]

theorem Caseless.getLast?_lower (h : Caseless codes) (hp : ∀ {c}, p c = true ↔ c.toNat ∈ codes)
    (cs : List Char) : (lower cs).getLast?.map p = cs.getLast?.map p := by
  have hafter (cs : List Char) : ∀ before,
      (lowerAfter before cs).getLast?.map p = cs.getLast?.map p := by
    induction cs with
    | nil => exact fun _ => rfl
    | cons c cs ih =>
      intro before
      obtain ⟨ds, hds, hne, hclass⟩ := h.exists_lowerAfter_cons_class hp before c cs
      have hcs := ih (c :: before)
      rw [hds, List.getLast?_append]
      cases cs with
      | nil =>
        obtain ⟨init, d, rfl⟩ := (List.eq_nil_or_concat' ds).resolve_left hne
        show Option.map p (Option.or none _) = _
        rw [Option.none_or, List.getLast?_concat, Option.map_some, hclass d (by simp)]
        rfl
      | cons e cs =>
        rw [List.getLast?_cons_cons, ← hcs]
        cases hlast : (lowerAfter (c :: before) (e :: cs)).getLast? with
        | none =>
          rw [hlast, List.getLast?_cons] at hcs
          cases hcs
        | some d => rfl
  exact hafter cs []

/-- Lower case leaves a text bare of a caseless class, or not. -/
theorem Caseless.bare_lower_iff (h : Caseless codes) (hp : ∀ {c}, p c = true ↔ c.toNat ∈ codes)
    {cs : List Char} : Bare p (lower cs) ↔ Bare p cs := by
  have hend (o : Option Char) : (∀ c ∈ o, p c = false) ↔ ∀ b ∈ o.map p, b = false := by
    cases o <;> simp
  rw [Bare, Bare, hend, hend, h.head?_lower hp, h.getLast?_lower hp, ← hend, ← hend]

end ends

theorem trimmed_lower_iff {cs : List Char} : Trimmed (lower cs) ↔ Trimmed cs :=
  caseless_blankCodes.bare_lower_iff isBlank_iff

/-- Names that agree but for letter case are alike in white space. -/
theorem trimmed_of_lower_eq {a b : List Char} (h : lower a = lower b) (hb : Trimmed b)
    (hne : b ≠ []) : Trimmed a ∧ a ≠ [] := by
  refine ⟨trimmed_lower_iff.mp (h ▸ trimmed_lower_iff.mpr hb), ?_⟩
  rintro rfl
  exact hne (lower_eq_nil_iff.mp h.symm)

/-! ## Upper case -/

/-- Upper case yields an apostrophe from an apostrophe only. -/
theorem eq_of_mem_upperChar {c : Char} (h : '\'' ∈ upperChar c) : c = '\'' := by
  have hexpansions : ∀ r ∈ upperExpansions, 39 ∉ r.2 := by decide +kernel
  have hruns : ∀ r ∈ upperRuns, ¬ ((r.1 : Int) + r.2.2.2 ≤ 39 ∧ (39 : Int) ≤ r.2.1 + r.2.2.2) := by decide +kernel
  have hof {n : Nat} (hn : Char.ofNat n = '\'') : n = 39 := by
    have hnat := congrArg Char.toNat hn
    rcases toNat_ofNat n with heq | heq
    · exact heq.symm.trans hnat
    · rw [heq] at hnat
      cases hnat
  rw [upperChar] at h
  split at h
  next hlow =>
    have hascii : ∀ n < 128, (Char.ofNat n).toUpper = '\'' → n = 39 := by decide
    have hc := hascii c.toNat hlow
    rw [Char.ofNat_toNat] at hc
    exact Char.toNat_inj.mp (hc (List.mem_singleton.mp h).symm)
  next =>
    cases hexpand : expand? upperExpansions c.toNat with
    | some cs =>
      rw [hexpand] at h
      obtain ⟨r, hr, rfl⟩ := Option.map_eq_some_iff.mp hexpand
      obtain ⟨k, hk, heq⟩ := List.mem_map.mp h
      exact absurd (hof heq ▸ hk) (hexpansions r (List.mem_of_find?_eq_some hr))
    | none =>
      rw [hexpand] at h
      rw [Option.getD_none, List.mem_singleton] at h
      cases hmove : moveBy? upperRuns c.toNat with
      | none =>
        rw [hmove] at h
        exact h.symm
      | some m =>
        rw [hmove] at h
        obtain ⟨⟨first, last, step, offset⟩, hmem, hrun⟩ := List.exists_of_findSome?_eq_some hmove
        dsimp only at hrun
        split at hrun
        next hin =>
          have hm := hof h.symm
          obtain rfl := Option.some.inj hrun
          have hno := hruns _ hmem
          dsimp only at hno
          omega
        next => cases hrun

end MetricLayer.Text
