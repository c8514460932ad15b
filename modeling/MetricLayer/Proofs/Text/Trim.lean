import MetricLayer.Text.Blank
import Mathlib.Data.List.TakeWhile

/-!
# Cutting the ends of a text

`dropBothWhile p` takes off the characters of a class at either end.  What it leaves is `Bare p`: it
neither starts nor ends in the class, and a text is left alone exactly when it is bare already.  Every
text is its bare middle between two runs of the class (`exists_dropBothWhile`), and that middle is the
only one (`dropBothWhile_between`).  White space is the class that matters most, under the names `trim`
and `Trimmed`.
-/

namespace MetricLayer.Text

/-- What holds of every character of a text is decided along the text, not for all characters there are. -/
instance (priority := high) decidableForallMem (q : Char → Prop) [DecidablePred q] (cs : List Char) :
    Decidable (∀ c ∈ cs, q c) :=
  List.decidableBAll q cs

/-- The same of a character that may be missing. -/
instance (priority := high) decidableForallSome (q : Char → Prop) [DecidablePred q] (o : Option Char) :
    Decidable (∀ c ∈ o, q c) :=
  Option.decidableForallMem o

instance (priority := high) decidableExistsSome (q : Char → Prop) [DecidablePred q] (o : Option Char) :
    Decidable (∃ c ∈ o, q c) :=
  Option.decidableExistsMem o

variable {p : Char → Bool} {cs gap a b : List Char}

theorem bne_of_not_mem {c : Char} (h : c ∉ cs) : ∀ d ∈ cs, (d != c) = true :=
  fun _ hd => bne_iff_ne.mpr fun heq => h (heq ▸ hd)

/-! ## One end -/

theorem dropWhile_eq_self (h : ∀ c ∈ cs.head?, p c = false) : cs.dropWhile p = cs := by
  cases cs with
  | nil => rfl
  | cons c cs => rw [List.dropWhile_cons, if_neg (by simp [h c rfl])]

theorem head?_dropWhile_not (p : Char → Bool) (cs : List Char) :
    ∀ c ∈ (cs.dropWhile p).head?, p c = false := by
  intro c hc
  have h := List.head?_dropWhile_not p cs
  rw [Option.mem_def.mp hc] at h
  exact h

theorem dropEndWhile_append_of_all (cs : List Char) (h : ∀ c ∈ gap, p c) :
    dropEndWhile p (cs ++ gap) = dropEndWhile p cs := by
  rw [dropEndWhile, List.reverse_append, List.dropWhile_append_of_pos, dropEndWhile]
  exact fun c hc => h c (List.mem_reverse.mp hc)

theorem dropEndWhile_eq_self (h : ∀ c ∈ cs.getLast?, p c = false) : dropEndWhile p cs = cs := by
  rw [dropEndWhile, dropWhile_eq_self, List.reverse_reverse]
  simpa using h

theorem getLast?_dropEndWhile_not (p : Char → Bool) (cs : List Char) :
    ∀ c ∈ (dropEndWhile p cs).getLast?, p c = false := by
  rw [dropEndWhile, List.getLast?_reverse]
  exact head?_dropWhile_not p cs.reverse

theorem exists_dropEndWhile (p : Char → Bool) (cs : List Char) :
    ∃ gap, cs = dropEndWhile p cs ++ gap ∧ ∀ c ∈ gap, p c := by
  refine ⟨(cs.reverse.takeWhile p).reverse, ?_, ?_⟩
  · rw [dropEndWhile, ← List.reverse_append, List.takeWhile_append_dropWhile, List.reverse_reverse]
  · intro c hc
    exact List.mem_takeWhile_imp (List.mem_reverse.mp hc)

theorem dropEndWhile_isPrefix (p : Char → Bool) (cs : List Char) : dropEndWhile p cs <+: cs := by
  obtain ⟨gap, hcs, -⟩ := exists_dropEndWhile p cs
  exact ⟨gap, hcs.symm⟩

theorem dropEndWhile_isInfix (p : Char → Bool) (cs : List Char) : dropEndWhile p cs <:+: cs :=
  (dropEndWhile_isPrefix p cs).isInfix

/-- Nothing is cut off before a character that is kept. -/
theorem dropEndWhile_append (ha : ∀ c ∈ a.getLast?, p c = false) (b : List Char) :
    dropEndWhile p (a ++ b) = a ++ dropEndWhile p b := by
  have hkept : a.reverse.dropWhile p = a.reverse := dropWhile_eq_self (by simpa using ha)
  rw [dropEndWhile, dropEndWhile, List.reverse_append, List.dropWhile_append, hkept]
  split
  next hnone =>
    rw [List.isEmpty_iff.mp hnone, List.reverse_nil, List.append_nil, List.reverse_reverse]
  next => rw [List.reverse_append, List.reverse_reverse]

/-! ## Both ends -/

/-- The text neither starts nor ends in a class of characters. -/
def Bare (p : Char → Bool) (cs : List Char) : Prop :=
  (∀ c ∈ cs.head?, p c = false) ∧ ∀ c ∈ cs.getLast?, p c = false

instance (p : Char → Bool) (cs : List Char) : Decidable (Bare p cs) :=
  inferInstanceAs (Decidable (_ ∧ _))

theorem dropBothWhile_eq_self (h : Bare p cs) : dropBothWhile p cs = cs := by
  rw [dropBothWhile, dropWhile_eq_self h.1, dropEndWhile_eq_self h.2]

theorem dropBothWhile_append (ha : Bare p a) (hne : a ≠ []) (b : List Char) :
    dropBothWhile p (a ++ b) = a ++ dropEndWhile p b := by
  have hstart : ∀ c ∈ (a ++ b).head?, p c = false := by
    obtain ⟨c, cs, rfl⟩ := List.exists_cons_of_ne_nil hne
    exact ha.1
  rw [dropBothWhile, dropWhile_eq_self hstart, dropEndWhile_append ha.2]

theorem exists_dropBothWhile (p : Char → Bool) (cs : List Char) :
    ∃ a b, cs = a ++ dropBothWhile p cs ++ b ∧ (∀ c ∈ a, p c) ∧ ∀ c ∈ b, p c := by
  obtain ⟨b, hb, hall⟩ := exists_dropEndWhile p (cs.dropWhile p)
  refine ⟨cs.takeWhile p, b, ?_, fun c hc => List.mem_takeWhile_imp hc, hall⟩
  rw [dropBothWhile, List.append_assoc, ← hb, List.takeWhile_append_dropWhile]

theorem dropBothWhile_bare (p : Char → Bool) (cs : List Char) : Bare p (dropBothWhile p cs) := by
  refine ⟨?_, getLast?_dropEndWhile_not p _⟩
  obtain ⟨gap, hgap, -⟩ := exists_dropEndWhile p (cs.dropWhile p)
  intro c hc
  apply head?_dropWhile_not p cs c
  rw [hgap, List.head?_append]
  simp [dropBothWhile] at hc
  simp [hc]

/-- The bare middle of a text is what is left of it. -/
theorem dropBothWhile_between (ha : ∀ c ∈ a, p c) (hcs : Bare p cs) (hb : ∀ c ∈ b, p c) :
    dropBothWhile p (a ++ cs ++ b) = cs := by
  rw [dropBothWhile, List.append_assoc, List.dropWhile_append_of_pos ha]
  cases cs with
  | nil =>
    rw [List.nil_append, List.dropWhile_eq_nil_iff.mpr hb]
    rfl
  | cons c cs =>
    rw [dropWhile_eq_self (by simpa using hcs.1), dropEndWhile_append_of_all _ hb,
      dropEndWhile_eq_self hcs.2]

/-- More of the class at the ends does not matter. -/
theorem dropBothWhile_around (ha : ∀ c ∈ a, p c) (hb : ∀ c ∈ b, p c) :
    dropBothWhile p (a ++ cs ++ b) = dropBothWhile p cs := by
  obtain ⟨a', b', hcs, ha', hb'⟩ := exists_dropBothWhile p cs
  have hsplit : a ++ cs ++ b = (a ++ a') ++ dropBothWhile p cs ++ (b' ++ b) := calc
    a ++ cs ++ b = a ++ (a' ++ dropBothWhile p cs ++ b') ++ b := by rw [← hcs]
    _ = (a ++ a') ++ dropBothWhile p cs ++ (b' ++ b) := by simp only [List.append_assoc]
  rw [hsplit, dropBothWhile_between (List.forall_mem_append.mpr ⟨ha, ha'⟩) (dropBothWhile_bare p cs)
    (List.forall_mem_append.mpr ⟨hb', hb⟩)]

theorem length_dropBothWhile_le (p : Char → Bool) (cs : List Char) :
    (dropBothWhile p cs).length ≤ cs.length := by
  obtain ⟨a, b, hcs, -, -⟩ := exists_dropBothWhile p cs
  have hlength := congrArg List.length hcs
  simp only [List.length_append] at hlength
  omega

/-! ## White space -/

/-- The code points of white space. -/
def blankCodes : List Nat :=
  [9, 10, 11, 12, 13, 28, 29, 30, 31, 32, 0x85, 0xa0, 0x1680, 0x2000, 0x2001, 0x2002, 0x2003, 0x2004,
   0x2005, 0x2006, 0x2007, 0x2008, 0x2009, 0x200a, 0x2028, 0x2029, 0x202f, 0x205f, 0x3000]

theorem isBlank_iff {c : Char} : isBlank c ↔ c.toNat ∈ blankCodes := by
  simp only [isBlank, Bool.or_eq_true, Bool.and_eq_true, decide_eq_true_eq, beq_iff_eq, blankCodes,
    List.mem_cons, List.not_mem_nil, or_false]
  omega

/-- What holds of every character of white space is checked one by one. -/
theorem of_isBlank {P : Char → Prop} (h : ∀ n ∈ blankCodes, P (Char.ofNat n)) {c : Char}
    (hc : isBlank c) : P c := by
  have := h c.toNat (isBlank_iff.mp hc)
  rwa [Char.ofNat_toNat] at this

/-- No white space at either end. -/
abbrev Trimmed (cs : List Char) : Prop := Bare isBlank cs

theorem trim_eq_self (h : Trimmed cs) : trim cs = cs :=
  dropBothWhile_eq_self h

theorem trimmed_trim (cs : List Char) : Trimmed (trim cs) :=
  dropBothWhile_bare isBlank cs

theorem exists_trim (cs : List Char) :
    ∃ a b, cs = a ++ trim cs ++ b ∧ (∀ c ∈ a, isBlank c) ∧ ∀ c ∈ b, isBlank c :=
  exists_dropBothWhile isBlank cs

theorem trim_isInfix (cs : List Char) : trim cs <:+: cs := by
  obtain ⟨a, b, hcs, -⟩ := exists_trim cs
  exact ⟨a, b, hcs.symm⟩

theorem length_trim_le (cs : List Char) : (trim cs).length ≤ cs.length :=
  length_dropBothWhile_le isBlank cs

theorem trim_between (ha : ∀ c ∈ a, isBlank c) (hcs : Trimmed cs) (hb : ∀ c ∈ b, isBlank c) :
    trim (a ++ cs ++ b) = cs :=
  dropBothWhile_between ha hcs hb

theorem trim_blank_append (ha : ∀ c ∈ a, isBlank c) (cs : List Char) : trim (a ++ cs) = trim cs := by
  have htrim : trim (a ++ cs ++ []) = trim cs := dropBothWhile_around ha (List.forall_mem_nil _)
  rwa [List.append_nil] at htrim

theorem trim_append_blank (cs : List Char) (hb : ∀ c ∈ b, isBlank c) : trim (cs ++ b) = trim cs :=
  dropBothWhile_around (a := []) (List.forall_mem_nil _) hb

theorem trimmed_of_ends {c d : Char} (hc : isBlank c = false) (hd : isBlank d = false)
    (hfirst : cs.head? = some c) (hlast : cs.getLast? = some d) : Trimmed cs := by
  constructor
  · simp [hfirst, hc]
  · simp [hlast, hd]

end MetricLayer.Text
