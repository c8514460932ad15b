import MetricLayer.Proofs.Text.Case
import MetricLayer.Proofs.Text.Pieces

/-!
# Letter case of ASCII names

Lower case turns every character of an ASCII text into one (`lower_eq_map`).  So the label of an ASCII name in
lower case is made of the name in lower case (`lower_label`), and holds no underscore (`not_mem_lower_label`).
-/

namespace MetricLayer.Text

/-- Every character is one of ASCII. -/
def IsAscii (cs : List Char) : Prop :=
  ∀ c ∈ cs, c.toNat < 128

instance (cs : List Char) : Decidable (IsAscii cs) :=
  inferInstanceAs (Decidable (∀ c ∈ cs, c.toNat < 128))

variable {a b cs : List Char}

theorem isAscii_append : IsAscii (a ++ b) ↔ IsAscii a ∧ IsAscii b :=
  List.forall_mem_append

/-! ## Lower case -/

theorem lowerAfter_eq_map (h : IsAscii cs) (before : List Char) : lowerAfter before cs = cs.map Char.toLower := by
  induction cs generalizing before with
  | nil => rfl
  | cons c cs ih =>
    obtain ⟨hc, hcs⟩ := List.forall_mem_cons.mp h
    rw [lowerAfter, if_neg (by omega), lowerChar, if_pos hc, ih hcs]
    rfl

theorem lower_eq_map (h : IsAscii cs) : lower cs = cs.map Char.toLower :=
  lowerAfter_eq_map h []

theorem lower_append (ha : IsAscii a) (hb : IsAscii b) : lower (a ++ b) = lower a ++ lower b := by
  rw [lower_eq_map (isAscii_append.mpr ⟨ha, hb⟩), lower_eq_map ha, lower_eq_map hb, List.map_append]

theorem isBlank_toLower (c : Char) : isBlank c.toLower = isBlank c := by
  rw [Bool.eq_iff_iff, isBlank_iff, isBlank_iff]
  exact caseless_blankCodes.toLower c

theorem toLower_eq_underscore_iff (c : Char) : c.toLower = '_' ↔ c = '_' := by
  have hcaseless : Caseless ['_'.toNat] := by decide +kernel
  have h := hcaseless.toLower c
  rwa [List.mem_singleton, List.mem_singleton, Char.toNat_inj, Char.toNat_inj] at h

/-- What holds of every character of ASCII is checked one by one. -/
theorem of_ascii {P : Char → Prop} (h : ∀ n < 128, P (Char.ofNat n)) {c : Char} (hc : c.toNat < 128) : P c := by
  have := h c.toNat hc
  rwa [Char.ofNat_toNat] at this

theorem capitalize_ascii (h : IsAscii cs) :
    IsAscii (capitalize cs) ∧ (capitalize cs).map Char.toLower = cs.map Char.toLower := by
  cases cs with
  | nil => exact ⟨h, rfl⟩
  | cons c cs =>
    obtain ⟨hc, hcs⟩ := List.forall_mem_cons.mp h
    have hupper : ∀ n < 128, (Char.ofNat n).toUpper.toNat < 128 ∧
        (Char.ofNat n).toUpper.toLower = (Char.ofNat n).toLower := by decide
    have hlower : ∀ n < 128, (Char.ofNat n).toLower.toNat < 128 ∧
        (Char.ofNat n).toLower.toLower = (Char.ofNat n).toLower := by decide
    have hfirst := of_ascii (P := fun c => c.toUpper.toNat < 128 ∧ c.toUpper.toLower = c.toLower) hupper hc
    have hrest : ∀ d ∈ cs, d.toLower.toNat < 128 ∧ d.toLower.toLower = d.toLower := fun d hd =>
      of_ascii (P := fun c => c.toLower.toNat < 128 ∧ c.toLower.toLower = c.toLower) hlower (hcs d hd)
    rw [capitalize, titleChar, if_pos hc, lowerAfter_eq_map hcs]
    constructor
    · refine List.forall_mem_cons.mpr ⟨hfirst.1, List.forall_mem_map.mpr fun d hd => (hrest d hd).1⟩
    · rw [List.singleton_append, List.map_cons, hfirst.2, List.map_map]
      exact congrArg _ (List.map_congr_left fun d hd => (hrest d hd).2)

/-! ## Labels -/

theorem splitAll_map {p : Char → Bool} {f : Char → Char} (h : ∀ c ∈ cs, p (f c) = p c) :
    splitAll p (cs.map f) = (splitAll p cs).map (List.map f) := by
  induction cs with
  | nil => rfl
  | cons c cs ih =>
    obtain ⟨hc, hcs⟩ := List.forall_mem_cons.mp h
    rw [List.map_cons, splitAll, splitAll, hc, ih hcs]
    obtain ⟨piece, pieces, hpieces⟩ := List.exists_cons_of_ne_nil (splitAll_ne_nil p cs)
    rw [hpieces]
    split <;> rfl

theorem words_map {f : Char → Char} (h : ∀ c ∈ cs, isBlank (f c) = isBlank c) :
    words (cs.map f) = (words cs).map (List.map f) := by
  rw [words, words, splitAll_map h, List.filter_map]
  congr 2
  funext piece
  simp

theorem mem_of_mem_words {word : List Char} (hword : word ∈ words cs) {c : Char} (hc : c ∈ word) : c ∈ cs :=
  mem_of_mem_splitAll (List.mem_of_mem_filter hword) hc

theorem map_intercalate (f : Char → Char) (sep : List Char) (parts : List (List Char)) :
    (List.intercalate sep parts).map f = List.intercalate (sep.map f) (parts.map (List.map f)) := by
  induction parts with
  | nil => rfl
  | cons part parts ih =>
    cases parts with
    | nil => simp
    | cons next parts =>
      simp only [List.intercalate_cons_cons, List.map_append, List.map_cons] at ih ⊢
      rw [ih]

theorem toList_label (name : String) : (label name).toList =
    List.intercalate [' '] ((words (name.toList.map fun c => if c = '_' then ' ' else c)).map capitalize) := by
  rw [label, toList_joinWith, List.map_map]
  simp only [Function.comp_def, String.toList_ofList]
  rfl

/-- The label of an ASCII name in lower case, made of the name in lower case. -/
theorem lower_label {name : String} (h : IsAscii name.toList) : lower (label name).toList =
    List.intercalate [' '] (words ((lower name.toList).map fun c => if c = '_' then ' ' else c)) := by
  have hwords : ∀ word ∈ words (name.toList.map fun c => if c = '_' then ' ' else c), IsAscii word := by
    intro word hword c hc
    obtain ⟨d, hd, rfl⟩ := List.mem_map.mp (mem_of_mem_words hword hc)
    split
    · decide
    · exact h d hd
  have hascii : IsAscii (label name).toList := by
    rw [toList_label]
    intro c hc
    rcases mem_intercalate hc with hc | ⟨part, hpart, hc⟩
    · rw [List.mem_singleton.mp hc]
      decide
    · obtain ⟨word, hword, rfl⟩ := List.mem_map.mp hpart
      exact (capitalize_ascii (hwords word hword)).1 c hc
  have hspace (c : Char) : (if c = '_' then ' ' else c).toLower = if c.toLower = '_' then ' ' else c.toLower := by
    simp only [toLower_eq_underscore_iff]
    split
    · rfl
    · rfl
  calc lower (label name).toList
      = (List.intercalate [' '] ((words (name.toList.map fun c => if c = '_' then ' ' else c)).map capitalize)).map
          Char.toLower := by rw [lower_eq_map hascii, toList_label]
    _ = List.intercalate [' '] ((words (name.toList.map fun c => if c = '_' then ' ' else c)).map
          (List.map Char.toLower)) := by
        rw [map_intercalate, List.map_map]
        exact congrArg _ (List.map_congr_left fun word hword => (capitalize_ascii (hwords word hword)).2)
    _ = List.intercalate [' '] (words ((name.toList.map fun c => if c = '_' then ' ' else c).map Char.toLower)) := by
        rw [words_map fun c _ => isBlank_toLower c]
    _ = List.intercalate [' '] (words ((lower name.toList).map fun c => if c = '_' then ' ' else c)) := by
        rw [lower_eq_map h, List.map_map, List.map_map]
        simp only [Function.comp_def, hspace]

theorem not_mem_lower_label {name : String} (h : IsAscii name.toList) : '_' ∉ lower (label name).toList := by
  rw [lower_label h]
  intro hmem
  rcases mem_intercalate hmem with hspace | ⟨word, hword, hc⟩
  · exact absurd (List.mem_singleton.mp hspace) (by decide)
  · obtain ⟨c, -, hc⟩ := List.mem_map.mp (mem_of_mem_words hword hc)
    split at hc
    · exact absurd hc (by decide)
    next hne => exact hne hc

/-- Names that agree but for letter case have labels that do. -/
theorem sameLower_label {s t : String} (hs : IsAscii s.toList) (ht : IsAscii t.toList)
    (h : sameLower s t = true) : sameLower (label s) (label t) = true := by
  rw [sameLower_iff] at h ⊢
  rw [lower_label hs, lower_label ht, h]

end MetricLayer.Text
