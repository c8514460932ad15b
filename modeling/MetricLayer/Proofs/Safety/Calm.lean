import MetricLayer.Proofs.Safety.Stripped
import MetricLayer.Proofs.Sql.Statement

/-!
# Texts in which the gate finds nothing

Nothing that the gate searches stands in a calm text outside quotes (`Tame`).  No word and no comment sign runs
over white space, punctuation or a quote, so texts that meet there are tame together when each of them is
(`Tame.append`).
-/

namespace MetricLayer.Safety

open MetricLayer.Text MetricLayer.Sql

variable {names names' : List String} {word : String} {a b cs m n needle : List Char} {c : Char}

/-! ## Masked texts -/

/-- A character that belongs to no word and no comment sign. -/
def isInert (c : Char) : Bool :=
  !isWord c && c != '-' && c != '/' && c != '*'

theorem not_mem_of_isInert (hc : isInert c) (h : ∀ d ∈ cs, isInert d = false) : c ∉ cs := by
  intro hmem
  rw [h c hmem] at hc
  cases hc

theorem isInert_of_isBlank (h : isBlank c) : isInert c :=
  of_isBlank (P := fun c => isInert c) (by decide +kernel) h

/-- No word of a list, no comment sign and no semicolon stands in a masked text. -/
structure Calm (names : List String) (m : List Char) : Prop where
  noWord : ∀ w ∈ names, hasKeyword w m = false
  noInlineComment : occurs ['-', '-'] m = false
  noBlockComment : occurs ['/', '*'] m = false
  noSemicolon : ';' ∉ m

instance (names : List String) (m : List Char) : Decidable (Calm names m) :=
  decidable_of_iff ((∀ w ∈ names, hasKeyword w m = false) ∧ occurs ['-', '-'] m = false ∧
    occurs ['/', '*'] m = false ∧ ';' ∉ m)
    ⟨fun ⟨h1, h2, h3, h4⟩ => ⟨h1, h2, h3, h4⟩, fun ⟨h1, h2, h3, h4⟩ => ⟨h1, h2, h3, h4⟩⟩

/-- Words to search: they are not empty, and consist of letters. -/
def AreWords (names : List String) : Prop :=
  ∀ w ∈ names, w.toList ≠ [] ∧ ∀ k ∈ w.toList, isKeyLetter k

instance (names : List String) : Decidable (AreWords names) :=
  inferInstanceAs (Decidable (∀ _ ∈ _, _))

/-- Texts meet at a character that nothing runs over. -/
def Seam (a b : List Char) : Prop :=
  (∀ c ∈ a.getLast?, isInert c) ∨ ∀ c ∈ b.head?, isInert c

theorem Seam.not_mem {w : List Char} (h : Seam a b) (hw : ∀ d ∈ w, isInert d = false) :
    (∀ c ∈ a.getLast?, c ∉ w) ∨ ∀ c ∈ b.head?, c ∉ w :=
  h.imp (fun h c hc => not_mem_of_isInert (h c hc) hw) fun h c hc => not_mem_of_isInert (h c hc) hw

theorem isInert_of_keyword {w : List Char} (hword : ∀ k ∈ word.toList, isKeyLetter k)
    (hw : w.map fold = word.toList) : ∀ d ∈ w, isInert d = false := by
  intro d hd
  have hletter : isWord d := isWord_of_isKeyLetter_fold (hword _ (hw ▸ List.mem_map_of_mem hd))
  rw [isInert, hletter]
  rfl

theorem hasKeyword_append_eq_false (hword : ∀ k ∈ word.toList, isKeyLetter k) (hseam : Seam a b)
    (ha : hasKeyword word a = false) (hb : hasKeyword word b = false) : hasKeyword word (a ++ b) = false := by
  rw [← Bool.not_eq_true, hasKeyword_iff] at ha hb ⊢
  rintro ⟨pre, w, post, htext, hw, hstart, hends⟩
  rcases exists_of_infix_append (hseam.not_mem (isInert_of_keyword hword hw)) htext with
    ⟨k, rfl, rfl⟩ | ⟨k, rfl, rfl⟩
  · refine ha ⟨pre, w, k, rfl, hw, hstart, ?_⟩
    cases k with
    | nil => rfl
    | cons c k => exact hends
  · exact hb ⟨k, w, post, rfl, hw, wordStart_of_append hstart, hends⟩

theorem occurs_append_eq_false (hneedle : ∀ d ∈ needle, isInert d = false) (hseam : Seam a b)
    (ha : occurs needle a = false) (hb : occurs needle b = false) : occurs needle (a ++ b) = false := by
  rw [← Bool.not_eq_true, occurs_iff] at ha hb ⊢
  rintro ⟨pre, post, htext⟩
  rcases exists_of_infix_append (hseam.not_mem hneedle) htext with ⟨k, rfl, -⟩ | ⟨k, rfl, -⟩
  · exact ha ⟨pre, k, rfl⟩
  · exact hb ⟨k, post, rfl⟩

theorem occurs_eq_false_of_not_mem (hc : c ∈ needle) (h : c ∉ m) : occurs needle m = false := by
  rw [← Bool.not_eq_true, occurs_iff]
  rintro ⟨pre, post, rfl⟩
  exact h (by simp [hc])

/-- What stands between white space stands in the whole. -/
theorem hasKeyword_eq_false_of_between (ha : ∀ c ∈ a, isBlank c) (hb : ∀ c ∈ b, isBlank c)
    (h : hasKeyword word (a ++ m ++ b) = false) : hasKeyword word m = false := by
  rw [← Bool.not_eq_true, hasKeyword_iff] at h ⊢
  rintro ⟨pre, w, post, rfl, hw, hstart, hends⟩
  refine h ⟨a ++ pre, w, post ++ b, by simp, hw, ?_, ?_⟩
  · rw [lastOr_append]
    cases pre with
    | nil => exact wordStart_of_blank ha
    | cons c pre =>
      rw [lastOr_cons] at hstart ⊢
      exact hstart
  · cases post with
    | cons c post => exact hends
    | nil =>
      cases b with
      | nil => rfl
      | cons c b =>
        show (!isWord c) = true
        rw [isWord_of_isBlank (hb c List.mem_cons_self)]
        rfl

theorem occurs_eq_false_of_between (h : occurs needle (a ++ m ++ b) = false) : occurs needle m = false := by
  rw [← Bool.not_eq_true, occurs_iff] at h ⊢
  rintro ⟨pre, post, rfl⟩
  exact h ⟨a ++ pre, post ++ b, by simp⟩

namespace Calm

theorem mono (h : Calm names m) (hnames : names' ⊆ names) : Calm names' m :=
  { h with noWord := fun w hw => h.noWord w (hnames hw) }

theorem append (hnames : AreWords names) (hseam : Seam a b) (ha : Calm names a) (hb : Calm names b) :
    Calm names (a ++ b) where
  noWord w hw := hasKeyword_append_eq_false (hnames w hw).2 hseam (ha.noWord w hw) (hb.noWord w hw)
  noInlineComment := occurs_append_eq_false (by decide) hseam ha.noInlineComment hb.noInlineComment
  noBlockComment := occurs_append_eq_false (by decide) hseam ha.noBlockComment hb.noBlockComment
  noSemicolon := by
    rw [List.mem_append, not_or]
    exact ⟨ha.noSemicolon, hb.noSemicolon⟩

theorem of_between (ha : ∀ c ∈ a, isBlank c) (hb : ∀ c ∈ b, isBlank c) (h : Calm names (a ++ m ++ b)) :
    Calm names m where
  noWord w hw := hasKeyword_eq_false_of_between ha hb (h.noWord w hw)
  noInlineComment := occurs_eq_false_of_between h.noInlineComment
  noBlockComment := occurs_eq_false_of_between h.noBlockComment
  noSemicolon hm := h.noSemicolon (List.mem_append_left b (List.mem_append_right a hm))

theorem of_quiet (hnames : AreWords names) (hquiet : ∀ c ∈ m, isQuiet names c)
    (hinline : occurs ['-', '-'] m = false) (hblock : '/' ∉ m) (hsemicolon : ';' ∉ m) : Calm names m where
  noWord w hw := by
    rw [← Bool.not_eq_true, hasKeyword_iff]
    rintro ⟨pre, v, post, rfl, hv, -, -⟩
    cases v with
    | nil => exact (hnames w hw).1 hv.symm
    | cons c v =>
      have hclash : clash w.toList [c] = false := clash_of_isQuiet (hquiet c (by simp)) hw []
      have hnone := letters?_eq_none_of_clash hclash (v ++ post)
      rw [List.singleton_append, ← List.cons_append, letters?_eq_some_iff.mpr ⟨c :: v, rfl, hv⟩] at hnone
      cases hnone
  noInlineComment := hinline
  noBlockComment := occurs_eq_false_of_not_mem List.mem_cons_self hblock
  noSemicolon := hsemicolon

end Calm

/-! ## Apostrophes in names -/

/-- No quoted name of a text holds an apostrophe. -/
def Unticked (cs : List Char) : Prop :=
  NamesAvoid (fun rest => rest.head? = some '\'') cs

theorem unticked_of_not_mem (h : '\'' ∉ cs) : Unticked cs := by
  intro x y hcs _ hhead
  refine h ?_
  rw [hcs]
  exact List.mem_append_right x (List.mem_of_head? hhead)

theorem Unticked.append (hclosed : Closed a) (ha : Unticked a) (hb : Unticked b) : Unticked (a ++ b) := by
  intro x y hcs hopen hhead
  rcases List.append_eq_append_iff.mp hcs with ⟨k, rfl, hk⟩ | ⟨k, rfl, rfl⟩
  · rw [quoteAfter_append, hclosed] at hopen
    exact hb k y hk hopen hhead
  · cases k with
    | nil =>
      rw [List.append_nil, Closed, hopen] at hclosed
      cases hclosed
    | cons c k => exact ha x (c :: k) rfl hopen hhead

theorem Unticked.of_append_left (h : Unticked (a ++ b)) : Unticked a := by
  intro x y hcs hopen hhead
  obtain ⟨y, rfl⟩ := List.head?_eq_some_iff.mp hhead
  exact h x ('\'' :: y ++ b) (by rw [hcs, List.append_assoc]) hopen rfl

/-! ## Tame texts -/

/-- A text with closed quotes in which the gate finds no word of a list, no comment and no semicolon. -/
structure Tame (names : List String) (cs : List Char) : Prop where
  closed : Closed cs
  unticked : Unticked cs
  calm : Calm names (mask cs)

/-- A tame text without quoted names: `decide` checks it. -/
def IsFixed (names : List String) (cs : List Char) : Prop :=
  Closed cs ∧ '"' ∉ cs ∧ Calm names (mask cs)

instance (names : List String) (cs : List Char) : Decidable (IsFixed names cs) :=
  inferInstanceAs (Decidable (_ ∧ _))

namespace Tame

theorem mono (h : Tame names cs) (hnames : names' ⊆ names) : Tame names' cs :=
  { h with calm := h.calm.mono hnames }

theorem append (hnames : AreWords names) (hseam : Seam a b) (ha : Tame names a) (hb : Tame names b) :
    Tame names (a ++ b) where
  closed := ha.closed.append hb.closed
  unticked := ha.unticked.append ha.closed hb.unticked
  calm := by
    rw [mask_append ha.closed]
    refine ha.calm.append hnames ?_ hb.calm
    rwa [Seam, getLast?_mask ha.closed, head?_mask]

theorem of_fixed (h : IsFixed names cs) : Tame names cs :=
  ⟨h.1, namesAvoid_of_not_mem h.2.1, h.2.2⟩

/-- Two texts with one between them that starts and ends in characters that nothing runs over. -/
theorem join {sep : List Char} (hnames : AreWords names) (ha : Tame names a) (hsep : Tame names sep)
    (hends : (∃ c ∈ sep.head?, isInert c) ∧ ∃ c ∈ sep.getLast?, isInert c) (hb : Tame names b) :
    Tame names (a ++ (sep ++ b)) := by
  obtain ⟨⟨c, hc, hfirst⟩, d, hd, hlast⟩ := hends
  refine ha.append hnames (Or.inr ?_) (hsep.append hnames (Or.inl ?_) hb)
  · obtain ⟨sep, rfl⟩ := List.head?_eq_some_iff.mp hc
    rintro e he
    cases he
    exact hfirst
  · rw [Option.mem_def.mp hd]
    rintro e he
    cases he
    exact hlast

theorem trim (h : Tame names cs) : Tame names (trim cs) := by
  obtain ⟨a, b, hcs, ha, hb⟩ := exists_trim cs
  obtain ⟨a', b', hmask, ha', hb'⟩ := exists_mask_trim h.closed
  have hclosed : Closed a := closed_of_blank ha
  have hunticked : Unticked (Text.trim cs ++ b) := by
    refine NamesAvoid.of_append hclosed ?_
    rw [← List.append_assoc, ← hcs]
    exact h.unticked
  exact ⟨closed_trim h.closed, hunticked.of_append_left, (hmask ▸ h.calm).of_between ha' hb'⟩

/-- A name in quotes is tame when no word starts like its quotes or its blanks. -/
theorem quote {name : String} (hnames : AreWords names) (hquiet : isQuiet names '"' && isQuiet names '_')
    (hname : '\'' ∉ name.toList) : Tame names (quote name).toList := by
  rw [Bool.and_eq_true] at hquiet
  have hplain : ∀ c ∈ mask (Sql.quote name).toList, isQuiet names c ∧ c ≠ '-' ∧ c ≠ '/' ∧ c ≠ ';' := by
    intro c hc
    rcases mem_mask_quote hc with rfl | rfl
    · exact ⟨hquiet.1, by decide⟩
    · exact ⟨hquiet.2, by decide⟩
  refine ⟨closed_quote name, unticked_of_not_mem ?_, ?_⟩
  · rw [toList_quote]
    simpa [mem_double_iff] using hname
  · exact .of_quiet hnames (fun c hc => (hplain c hc).1)
      (occurs_eq_false_of_not_mem List.mem_cons_self fun h => (hplain '-' h).2.1 rfl)
      (fun h => (hplain '/' h).2.2.1 rfl) fun h => (hplain ';' h).2.2.2 rfl

theorem nil (hnames : AreWords names) : Tame names [] :=
  ⟨rfl, unticked_of_not_mem List.not_mem_nil, .of_quiet hnames nofun rfl List.not_mem_nil List.not_mem_nil⟩

theorem intercalate {sep : List Char} {parts : List (List Char)} (hnames : AreWords names) (hsep : Tame names sep)
    (hends : (∃ c ∈ sep.head?, isInert c) ∧ ∃ c ∈ sep.getLast?, isInert c) (h : ∀ p ∈ parts, Tame names p) :
    Tame names (List.intercalate sep parts) := by
  induction parts with
  | nil => exact nil hnames
  | cons p parts ih =>
    rw [List.forall_mem_cons] at h
    cases parts with
    | nil =>
      rw [List.intercalate_singleton]
      exact h.1
    | cons q parts =>
      rw [List.intercalate_cons_cons, List.append_assoc]
      exact join hnames h.1 hsep hends (ih h.2)

/-- Names in quotes, joined by points. -/
theorem dotted {parts : List String} (hnames : AreWords names)
    (hquiet : isQuiet names '"' && isQuiet names '_' && isQuiet names '.')
    (hparts : ∀ p ∈ parts, '\'' ∉ p.toList) : Tame names (dotted parts) := by
  rw [Bool.and_eq_true] at hquiet
  have hpoint : Tame names ['.'] := by
    refine ⟨rfl, unticked_of_not_mem (by decide), .of_quiet hnames ?_ rfl (by decide) (by decide)⟩
    exact List.forall_mem_singleton.mpr hquiet.2
  refine hpoint.intercalate hnames ⟨⟨'.', rfl, by decide⟩, '.', rfl, by decide⟩ fun p hp => ?_
  obtain ⟨name, hname, rfl⟩ := List.mem_map.mp hp
  exact quote hnames hquiet.1 (hparts name hname)

/-- An integer has one sign at most. -/
theorem toString_int (hnames : AreWords names) (hquiet : ∀ c ∈ '-' :: "0123456789".toList, isQuiet names c)
    (k : Int) : Tame names (toString k).toList := by
  have hdigits : ∀ c ∈ '-' :: "0123456789".toList, isQuote c = false ∧ c ≠ '/' ∧ c ≠ ';' := by
    decide
  have hchar : ∀ c ∈ (toString k).toList, c ∈ '-' :: "0123456789".toList := by
    intro c hc
    rw [List.mem_cons]
    exact (mem_toString_int hc).imp_right mem_digits_of_isDigit
  have hquote : ∀ c ∈ (toString k).toList, isQuote c = false := fun c hc => (hdigits c (hchar c hc)).1
  have hnatural (n : Nat) : '-' ∉ (toString n).toList := fun h =>
    absurd (isDigit_of_mem_toString h) (by decide)
  have hinline : occurs ['-', '-'] (toString k).toList = false := by
    cases k with
    | ofNat n => exact occurs_eq_false_of_not_mem List.mem_cons_self (hnatural n)
    | negSucc n =>
      rw [toList_toString_negSucc, ← Bool.not_eq_true, occurs_iff]
      rintro ⟨pre, post, htext⟩
      refine hnatural (n + 1) ?_
      cases pre with
      | nil =>
        rw [(List.cons.inj htext).2]
        exact List.mem_cons_self
      | cons c pre =>
        rw [(List.cons.inj htext).2]
        simp
  refine ⟨closed_of_no_quote hquote, unticked_of_not_mem fun h => ?_, ?_⟩
  · exact absurd (hquote _ h) (by decide)
  · rw [mask_of_no_quote hquote]
    exact .of_quiet hnames (fun c hc => hquiet c (hchar c hc)) hinline
      (fun h => (hdigits _ (hchar _ h)).2.1 rfl) fun h => (hdigits _ (hchar _ h)).2.2 rfl

end Tame

/-! ## Parts of clauses -/

/-- The text ends in neither white space nor a semicolon. -/
def Ends (cs : List Char) : Prop :=
  ∃ c ∈ cs.getLast?, isBlank c = false ∧ c ≠ ';'

instance (cs : List Char) : Decidable (Ends cs) :=
  inferInstanceAs (Decidable (∃ _ ∈ _, _))

theorem Ends.append_left (h : Ends b) (a : List Char) : Ends (a ++ b) := by
  obtain ⟨c, hc, hends⟩ := h
  refine ⟨c, ?_, hends⟩
  rw [List.getLast?_append, Option.mem_def.mp hc]
  exact rfl

theorem Ends.of_mem (h : Ends cs) : ∀ c ∈ cs.getLast?, isBlank c = false ∧ c ≠ ';' := by
  obtain ⟨c, hc, hends⟩ := h
  intro d hd
  obtain rfl := Option.mem_unique hc hd
  exact hends

theorem Ends.ne_nil (h : Ends cs) : cs ≠ [] := by
  rintro rfl
  obtain ⟨c, hc, -⟩ := h
  cases hc

/-- A list of parts ends like its last one. -/
theorem ends_intercalate {sep : List Char} {parts : List (List Char)} (hne : parts ≠ []) (h : ∀ p ∈ parts, Ends p) :
    Ends (List.intercalate sep parts) := by
  obtain ⟨init, last, rfl⟩ := (List.eq_nil_or_concat' parts).resolve_left hne
  obtain ⟨c, hc, hends⟩ := h last (by simp)
  refine ⟨c, ?_, hends⟩
  rw [getLast?_intercalate fun p hp => (h p hp).ne_nil, List.getLast?_concat]
  exact hc

end MetricLayer.Safety
