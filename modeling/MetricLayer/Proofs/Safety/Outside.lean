import MetricLayer.Proofs.Sql.Mask
import MetricLayer.Proofs.Text.Keyword
import MetricLayer.Safety

/-!
# Texts that agree outside quotes

What the gate searches is found outside quoted regions only, so it is found in one of two texts that
agree there exactly when it is found in the other (`SameOutside.vetted`).  Regions may differ in their
length, and several in a row may stand for one.
-/

namespace MetricLayer.Safety

open MetricLayer.Text MetricLayer.Sql

/-- No dangerous word, no comment and no second statement stands in a masked text. -/
structure Vetted (m : List Char) : Prop where
  noWord : ∀ w ∈ dangerousWords, hasKeyword w m = false
  noInlineComment : occurs ['-', '-'] m = false
  noBlockComment : occurs ['/', '*'] m = false
  single : ∀ a b, m = a ++ ';' :: b → ∀ c ∈ b, isBlank c

/-! ## Agreement -/

/-- Quotes and blanked characters, with a quote at either end. -/
structure Region (r : List Char) : Prop where
  mem : ∀ c ∈ r, isQuote c ∨ c = '_'
  head : ∃ q, isQuote q ∧ r.head? = some q
  last : ∃ q, isQuote q ∧ r.getLast? = some q

/-- Two masked texts are the same but for their regions. -/
inductive SameOutside : List Char → List Char → Prop
  | nil : SameOutside [] []
  | char {c : Char} {m n : List Char} (hc : isQuote c = false) (h : SameOutside m n) :
      SameOutside (c :: m) (c :: n)
  | region {r r' m n : List Char} (hr : Region r) (hr' : Region r') (h : SameOutside m n) :
      SameOutside (r ++ m) (r' ++ n)

/-- A character outside regions. -/
def Plain (c : Char) : Prop :=
  isQuote c = false ∧ c ≠ '_'

instance (c : Char) : Decidable (Plain c) :=
  inferInstanceAs (Decidable (_ ∧ _))

theorem SameOutside.symm {m n : List Char} (h : SameOutside m n) : SameOutside n m := by
  induction h with
  | nil => exact .nil
  | char hc _ ih => exact .char hc ih
  | region hr hr' _ ih => exact .region hr' hr ih

theorem isWord_of_isQuote {q : Char} (h : isQuote q) : isWord q = false :=
  of_isQuote (P := fun q => isWord q = false) (by decide +kernel) (by decide +kernel) h

theorem Region.not_plain {r : List Char} (h : Region r) {c : Char} (hc : c ∈ r) : ¬ Plain c := by
  rintro ⟨hquote, hblank⟩
  rcases h.mem c hc with hq | rfl
  · rw [hquote] at hq
    cases hq
  · exact hblank rfl

theorem Region.of_mem {q : Char} {r : List Char} (hq : isQuote q) (h : ∀ c ∈ r, isQuote c ∨ c = '_') :
    Region (q :: (r ++ [q])) := by
  refine ⟨?_, ⟨q, hq, rfl⟩, ⟨q, hq, ?_⟩⟩
  · rw [List.forall_mem_cons, List.forall_mem_append, List.forall_mem_singleton]
    exact ⟨Or.inl hq, h, Or.inl hq⟩
  · rw [← List.cons_append, List.getLast?_concat]

variable {m n w pre post : List Char}

/-- Whether a word starts after a region does not depend on the region. -/
theorem Region.wordStart {r : List Char} (h : Region r) (b : Option Char) : wordStart (lastOr b r) := by
  obtain ⟨q, hq, hlast⟩ := h.last
  rw [lastOr, hlast, Option.some_or, Text.wordStart, Option.any_some, isWord_of_isQuote hq]
  rfl

theorem SameOutside.endsWord (h : SameOutside m n) : endsWord m = endsWord n := by
  have hregion {r : List Char} (hr : Region r) (rest : List Char) : Text.endsWord (r ++ rest) = true := by
    obtain ⟨q, hq, hhead⟩ := hr.head
    rw [Text.endsWord, List.head?_append, hhead, Option.some_or, Option.any_some, isWord_of_isQuote hq]
    rfl
  cases h with
  | nil => rfl
  | char => rfl
  | region hr hr' _ => rw [hregion hr, hregion hr']

theorem SameOutside.of_plain_append (hw : ∀ c ∈ w, Plain c) (h : SameOutside (w ++ post) n) :
    ∃ post', n = w ++ post' ∧ SameOutside post post' := by
  induction w generalizing n with
  | nil => exact ⟨n, rfl, h⟩
  | cons c w ih =>
    have hc := hw c List.mem_cons_self
    generalize hm : c :: w ++ post = m at h
    cases h with
    | nil => cases hm
    | char _ hrest =>
      obtain ⟨rfl, htail⟩ := List.cons.inj hm
      rw [← List.append_eq, htail] at ih
      obtain ⟨post', rfl, hpost⟩ := ih (fun d hd => hw d (List.mem_cons_of_mem c hd)) hrest
      exact ⟨post', rfl, hpost⟩
    | region hr _ _ =>
      obtain ⟨q, hq, hhead⟩ := hr.head
      obtain ⟨r, rfl⟩ := List.head?_eq_some_iff.mp hhead
      obtain ⟨rfl, -⟩ := List.cons.inj hm
      exact absurd hc (hr.not_plain List.mem_cons_self)

/-- Plain text in one text is in the other, and stands there between the same neighbours but for
regions. -/
theorem SameOutside.infix (h : SameOutside m n) (hne : w ≠ []) (hw : ∀ c ∈ w, Plain c)
    (hm : m = pre ++ (w ++ post)) {a b : Option Char} (hb : Text.wordStart a = Text.wordStart b) :
    ∃ pre' post', n = pre' ++ (w ++ post') ∧ SameOutside post post' ∧
      Text.wordStart (lastOr a pre) = Text.wordStart (lastOr b pre') := by
  induction h generalizing pre a b with
  | nil =>
    rw [eq_comm, List.append_eq_nil_iff, List.append_eq_nil_iff] at hm
    exact absurd hm.2.1 hne
  | @char c m n hc h ih =>
    cases pre with
    | nil =>
      obtain ⟨post', hn, hpost⟩ := SameOutside.of_plain_append (n := c :: n) hw
        (by rw [← List.nil_append (w ++ post), ← hm]; exact .char hc h)
      exact ⟨[], post', hn, hpost, hb⟩
    | cons d pre =>
      obtain ⟨rfl, htail⟩ := List.cons.inj hm
      obtain ⟨pre', post', rfl, hpost, hstart⟩ := ih htail (a := some c) (b := some c) rfl
      exact ⟨c :: pre', post', rfl, hpost, by rw [lastOr_cons, lastOr_cons, hstart]⟩
  | @region r r' m n hr hr' h ih =>
    have hstarts : Text.wordStart (lastOr a r) = Text.wordStart (lastOr b r') := by
      rw [hr.wordStart, hr'.wordStart]
    have hinner (pre : List Char) (hm : m = pre ++ (w ++ post)) :
        ∃ pre' post', r' ++ n = pre' ++ (w ++ post') ∧ SameOutside post post' ∧
          Text.wordStart (lastOr a (r ++ pre)) = Text.wordStart (lastOr b pre') := by
      obtain ⟨pre', post', rfl, hpost, hstart⟩ := ih hm hstarts
      exact ⟨r' ++ pre', post', by rw [List.append_assoc], hpost, by
        rw [lastOr_append, lastOr_append, hstart]⟩
    rcases List.append_eq_append_iff.mp hm with ⟨k, rfl, hk⟩ | ⟨k, hk, hk'⟩
    · exact hinner k hk
    · cases k with
      | nil =>
        rw [List.append_nil] at hk
        subst hk
        obtain ⟨pre', post', hn, hpost, hstart⟩ := hinner [] hk'.symm
        rw [List.append_nil] at hstart
        exact ⟨pre', post', hn, hpost, hstart⟩
      | cons c k =>
        -- the text would start inside the region
        obtain ⟨d, w, rfl⟩ := List.exists_cons_of_ne_nil hne
        obtain ⟨rfl, -⟩ := List.cons.inj hk'
        exact absurd (hw d List.mem_cons_self) (hr.not_plain (by rw [hk]; simp))

/-! ## What is searched -/

theorem occurs_iff {needle hay : List Char} :
    occurs needle hay ↔ ∃ pre post, hay = pre ++ (needle ++ post) := by
  rw [occurs, List.any_eq_true]
  constructor
  · rintro ⟨p, hp, hneedle⟩
    obtain ⟨pre, rest, rfl, rfl⟩ := mem_places.mp hp
    obtain ⟨post, rfl⟩ := List.isPrefixOf_iff_prefix.mp hneedle
    exact ⟨pre, post, rfl⟩
  · rintro ⟨pre, post, rfl⟩
    exact ⟨_, mem_places.mpr ⟨pre, _, rfl, rfl⟩,
      List.isPrefixOf_iff_prefix.mpr (List.prefix_append needle post)⟩

/-- What is read as a plain letter is plain. -/
theorem plain_of_fold {c : Char} (h : Plain (fold c)) : Plain c := by
  constructor
  · rw [← Bool.not_eq_true]
    intro hq
    rw [isQuote, Bool.or_eq_true, beq_iff_eq, beq_iff_eq] at hq
    rcases hq with rfl | rfl <;> exact absurd h.1 (by decide)
  · rintro rfl
    exact h.2 (by decide)

/-- The letters of a keyword are plain, however they are written. -/
theorem plain_of_keyword {word : String} (hword : ∀ k ∈ word.toList, Plain k)
    (hw : w.map fold = word.toList) : ∀ c ∈ w, Plain c :=
  fun _ hc => plain_of_fold (hword _ (hw ▸ List.mem_map_of_mem hc))

/-- No dangerous word is reported when none is in the text. -/
theorem dangerousWord?_eq_none_iff :
    dangerousWord? m = none ↔ ∀ w ∈ dangerousWords, hasKeyword w m = false := by
  simp only [dangerousWord?, List.findSome?_eq_none_iff, Option.map_eq_none_iff, List.find?_eq_none, hasKeyword,
    List.any_eq_false]
  exact ⟨fun h w hw p hp => h p hp w hw, fun h p hp w hw => h w hw p hp⟩

namespace SameOutside

theorem not_mem (h : SameOutside m n) {c : Char} (hc : Plain c) (hn : c ∉ n) : c ∉ m := by
  intro hm
  obtain ⟨pre, post, hsplit⟩ := List.append_of_mem hm
  rw [← List.singleton_append] at hsplit
  obtain ⟨pre', post', rfl, -, -⟩ := h.infix (by simp) (by simpa using hc) hsplit (a := none) (b := none) rfl
  exact hn (by simp)

theorem occurs_eq_false (h : SameOutside m n) {needle : List Char} (hne : needle ≠ [])
    (hplain : ∀ c ∈ needle, Plain c) (hn : occurs needle n = false) : occurs needle m = false := by
  rw [← Bool.not_eq_true, occurs_iff] at hn ⊢
  rintro ⟨pre, post, hm⟩
  obtain ⟨pre', post', rfl, -, -⟩ := h.infix hne hplain hm (a := none) (b := none) rfl
  exact hn ⟨pre', post', rfl⟩

theorem hasKeyword_eq_false (h : SameOutside m n) {word : String} (hne : word.toList ≠ [])
    (hword : ∀ k ∈ word.toList, Plain k) (hn : hasKeyword word n = false) : hasKeyword word m = false := by
  rw [← Bool.not_eq_true, hasKeyword_iff] at hn ⊢
  rintro ⟨pre, w, post, hm, hw, hstart, hends⟩
  have hw' : w ≠ [] := by
    rintro rfl
    exact hne hw.symm
  obtain ⟨pre', post', rfl, hpost, hstarts⟩ :=
    h.infix hw' (plain_of_keyword hword hw) hm (a := none) (b := none) rfl
  exact hn ⟨pre', w, post', rfl, hw, hstarts ▸ hstart, hpost.endsWord ▸ hends⟩

theorem blank (h : SameOutside m n) (hn : ∀ c ∈ n, isBlank c) : ∀ c ∈ m, isBlank c := by
  induction h with
  | nil => exact hn
  | char _ _ ih =>
    rw [List.forall_mem_cons] at hn ⊢
    exact ⟨hn.1, ih hn.2⟩
  | region _ hr' _ _ =>
    obtain ⟨q, hq, hhead⟩ := hr'.head
    have hblank := hn q (List.mem_append_left _ (List.mem_of_head? hhead))
    rw [isBlank_of_isQuote _ hq] at hblank
    cases hblank

/-- What is not found in one text is not found in the other. -/
theorem vetted (h : SameOutside m n) (hn : Vetted n) : Vetted m where
  noWord w hw :=
    have hplain : ∀ v ∈ dangerousWords, v.toList ≠ [] ∧ ∀ k ∈ v.toList, Plain k := by
      decide
    h.hasKeyword_eq_false (hplain w hw).1 (hplain w hw).2 (hn.noWord w hw)
  noInlineComment := h.occurs_eq_false (by decide) (by decide) hn.noInlineComment
  noBlockComment := h.occurs_eq_false (by decide) (by decide) hn.noBlockComment
  single a b hm := by
    obtain ⟨a', b', hn', hb, -⟩ := h.infix (w := [';']) (by decide) (by decide) hm
      (a := none) (b := none) rfl
    exact hb.blank (hn.single a' b' hn')

end SameOutside

end MetricLayer.Safety
