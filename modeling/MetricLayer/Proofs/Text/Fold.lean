import MetricLayer.Proofs.Text.Label

/-!
# Keywords in any letter case

A keyword is found in an ASCII text where it is found in the text in lower case: the characters of ASCII fold to the
same letters as their lower-case forms (`fold_toLower`), and word characters and line breaks stay what they are.
So a test for keywords gives the same answer for names that agree but for letter case (`Respelled`).
-/

namespace MetricLayer.Text

variable {c : Char} {cs : List Char} {p : Place}

/-! ## Characters -/

theorem fold_toLower (h : c.toNat < 128) : fold c.toLower = fold c :=
  of_ascii (P := fun c => fold c.toLower = fold c) (by decide) h

theorem isWord_toLower (h : c.toNat < 128) : isWord c.toLower = isWord c :=
  of_ascii (P := fun c => isWord c.toLower = isWord c) (by decide +kernel) h

theorem toLower_eq_lineBreak_iff (c : Char) : c.toLower = '\n' ↔ c = '\n' := by
  have hcaseless : Caseless ['\n'.toNat] := by decide +kernel
  have h := hcaseless.toLower c
  rwa [List.mem_singleton, List.mem_singleton, Char.toNat_inj, Char.toNat_inj] at h

/-! ## Places -/

/-- The place in the text with other characters. -/
def Place.map (f : Char → Char) (p : Place) : Place where
  offset := p.offset
  before := p.before.map f
  rest := p.rest.map f

theorem placesFrom_map (f : Char → Char) (n : Nat) (b : Option Char) (cs : List Char) :
    placesFrom n (b.map f) (cs.map f) = (placesFrom n b cs).map (Place.map f) := by
  induction cs generalizing n b with
  | nil => rfl
  | cons c cs ih =>
    rw [List.map_cons, placesFrom, placesFrom, List.map_cons, ← ih]
    rfl

theorem isAscii_of_mem_places (h : IsAscii cs) (hp : p ∈ places cs) :
    IsAscii p.rest ∧ ∀ c ∈ p.before, c.toNat < 128 := by
  obtain ⟨pre, post, rfl, rfl⟩ := mem_places.mp hp
  obtain ⟨hpre, hpost⟩ := isAscii_append.mp h
  exact ⟨hpost, fun c hc => hpre c (List.mem_of_getLast? hc)⟩

/-- A test of places that does not see letter case goes over both texts alike. -/
theorem any_places_lower {test : Place → Bool} (h : IsAscii cs)
    (htest : ∀ p : Place, IsAscii p.rest → (∀ c ∈ p.before, c.toNat < 128) → test (p.map Char.toLower) = test p) :
    (places (lower cs)).any test = (places cs).any test := by
  have hplaces : places (cs.map Char.toLower) = (places cs).map (Place.map Char.toLower) :=
    placesFrom_map Char.toLower 0 none cs
  rw [lower_eq_map h, hplaces, List.any_map, Bool.eq_iff_iff, List.any_eq_true, List.any_eq_true]
  refine exists_congr fun p => and_congr_right fun hp => ?_
  obtain ⟨hrest, hbefore⟩ := isAscii_of_mem_places h hp
  rw [Function.comp, htest p hrest hbefore]

theorem startsWord_map_toLower (h : ∀ c ∈ p.before, c.toNat < 128) :
    (p.map Char.toLower).startsWord = p.startsWord := by
  rw [Place.startsWord, Place.startsWord, Place.map]
  cases hb : p.before with
  | none => rfl
  | some c => rw [Option.map_some, Option.any_some, Option.any_some, isWord_toLower (h c hb)]

/-! ## Keywords -/

theorem letters?_map_toLower (h : IsAscii cs) (ks : List Char) :
    letters? ks (cs.map Char.toLower) = (letters? ks cs).map (List.map Char.toLower) := by
  induction ks generalizing cs with
  | nil => rfl
  | cons k ks ih =>
    cases cs with
    | nil => rfl
    | cons c cs =>
      obtain ⟨hc, hcs⟩ := List.forall_mem_cons.mp h
      rw [List.map_cons, letters?, letters?, fold_toLower hc]
      split
      · exact ih hcs
      · rfl

theorem startsInLetters_map_toLower (h : IsAscii cs) (word : String) :
    startsInLetters word (cs.map Char.toLower) = startsInLetters word cs := by
  rw [startsInLetters, startsInLetters, letters?_map_toLower h, Option.isSome_map]

theorem isLineEnd_map_toLower (cs : List Char) : isLineEnd (cs.map Char.toLower) = isLineEnd cs := by
  cases cs with
  | nil => rfl
  | cons c cs =>
    cases cs with
    | nil =>
      rw [Bool.eq_iff_iff]
      simp [isLineEnd, toLower_eq_lineBreak_iff]
    | cons d cs => simp [isLineEnd]

theorem startsInLetters_lower (h : IsAscii cs) (word : String) :
    startsInLetters word (lower cs) = startsInLetters word cs := by
  rw [lower_eq_map h, startsInLetters_map_toLower h]

theorem hasLetters_lower (h : IsAscii cs) (word : String) : hasLetters word (lower cs) = hasLetters word cs :=
  any_places_lower h fun _ hrest _ => startsInLetters_map_toLower hrest word

theorem endsInLetters_lower (h : IsAscii cs) (word : String) :
    endsInLetters word (lower cs) = endsInLetters word cs := by
  refine any_places_lower h fun p hrest _ => ?_
  show (letters? word.toList (p.rest.map Char.toLower)).any isLineEnd = _
  rw [letters?_map_toLower hrest, Option.any_map]
  congr 1
  funext rest
  exact isLineEnd_map_toLower rest

/-! ## Names -/

/-- ASCII names that agree but for letter case. -/
structure Respelled (s t : String) : Prop where
  left : IsAscii s.toList
  right : IsAscii t.toList
  same : lower s.toList = lower t.toList

/-- A test that gives the answer for the text in lower case does not see letter case. -/
theorem Respelled.congr {α : Type} {f : List Char → α} {s t : String} (h : Respelled s t)
    (hf : ∀ {cs}, IsAscii cs → f (lower cs) = f cs) : f s.toList = f t.toList := by
  rw [← hf h.left, h.same, hf h.right]

end MetricLayer.Text
