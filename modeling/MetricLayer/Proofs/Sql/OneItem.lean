import MetricLayer.Proofs.Sql.Insert
import MetricLayer.Proofs.Sql.Statement

/-!
# Statements with one item

A text that stands alone behind SELECT and before FROM is read back as the one item of the statement
(`clauses?_oneItem`), when it is an `IsItem`: no clause starts in it, it holds no comma outside of parentheses, and it is
not taken for DISTINCT.  It may be an expression with an alias (`IsItem.named`), which need not stand in quotes; so both
may be words that start like a keyword (`heading?_word`).
-/

namespace MetricLayer.Sql

open MetricLayer.Text

variable {inner : List Char → Prop} {k : Clause}

/-! ## Texts without clauses -/

section search

variable {plain : Char → Prop} {start : Nat} {x m : List Char}

/-- A heading is searched past what does not clash with it. -/
theorem heading?_layout_append (hx : Layout [k.word] plain inner none x) (hstart : start ≤ x.length)
    (hword : wordStart x.getLast? ∨ endsWord m) :
    heading? k start (x ++ m) = (heading? k 0 m).map (Heading.shift x.length) := by
  rw [heading?_eq_headingFrom, headingFrom_layout List.mem_cons_self hx, heading?_eq_headingFrom, List.length_append,
    Nat.zero_add, lastOr_none]
  exact headingFrom_shift (n := 0) hstart (Nat.zero_add _).le hword

theorem heading?_layout (hx : Layout [k.word] plain inner none x) : heading? k 0 x = none := by
  have happend := heading?_layout_append (m := []) hx (Nat.zero_le _) (Or.inr rfl)
  rwa [List.append_nil] at happend

/-- The clauses after SELECT whose keyword is one word, by that word. -/
def singleWords : List String :=
  (Clause.followers.filter fun k => k.keyword.2.isNone).map Clause.word

/-- Behind its first word, in a text without white space, a keyword goes on with nothing. -/
theorem Clause.of_completion?_word {after rest : List Char} (hword : ∀ c ∈ after, isWord c)
    (h : k.completion? after = some rest) : after = [] ∧ k.keyword.2.isNone := by
  rw [Clause.completion?] at h
  split at h
  · cases after with
    | nil => cases h
    | cons d after =>
      have hblank : isBlank d = false := by
        by_contra hblank
        have hd := isWord_of_isBlank ((Bool.not_eq_false _).mp hblank)
        rw [hword d List.mem_cons_self] at hd
        cases hd
      rw [Clause.secondWord?, hblank] at h
      cases h
  next hsingle =>
    refine ⟨?_, by simpa using hsingle⟩
    cases after with
    | nil => rfl
    | cons d after =>
      obtain ⟨heq, hends⟩ := Option.filter_eq_some_iff.mp h
      obtain rfl : d :: after = rest := Option.some.inj heq
      have hd := isWord_eq_false_of_endsWord hends
      rw [hword d List.mem_cons_self] at hd
      cases hd

/-- A word is only the keyword of a clause when it is all of it. -/
theorem heading?_word (hword : ∀ c ∈ x, isWord c) (hne : ∀ w ∈ singleWords, x.map fold ≠ w.toList)
    (hk : k ∈ Clause.followers) : heading? k 0 x = none := by
  rw [Option.eq_none_iff_forall_ne_some]
  intro h hfound
  obtain ⟨pre, c, post, rest, rfl, hafter, -, -, -⟩ := of_headingFrom_eq_some hfound
  rw [Clause.after?_eq] at hafter
  split at hafter
  next hstart =>
    -- a word starts at its first character only
    have hpre : pre = [] := by
      rcases List.eq_nil_or_concat' pre with rfl | ⟨init, d, rfl⟩
      · rfl
      · rw [lastOr_none, List.getLast?_concat, wordStart, Option.any_some, hword d (by simp)] at hstart
        cases hstart
    obtain ⟨after, hletters, hcompletion⟩ := Option.bind_eq_some_iff.mp hafter
    obtain ⟨w, htext, hw⟩ := letters?_eq_some_iff.mp hletters
    obtain ⟨rfl, hsingle⟩ := Clause.of_completion?_word (fun d hd => hword d (by simp [htext, hd])) hcompletion
    apply hne k.word (List.mem_map_of_mem (List.mem_filter.mpr ⟨hk, hsingle⟩))
    rw [hpre, List.nil_append, htext, List.append_nil, hw]
  next => cases hafter

end search

/-! ## The statement -/

/-- A text that is one item of a SELECT clause when it is all of the clause. -/
structure IsItem (cs : List Char) : Prop extends ListEntry cs where
  noClause : ∀ k ∈ Clause.followers, heading? k 0 (mask cs) = none
  notDistinct : afterDistinct? cs = none

/-- The statement with the item, behind white space. -/
def oneItem (gap item source : List Char) : List Char :=
  Clause.select.title.toList ++ (gap ++ (item ++ ' ' :: written (.source, ' ' :: source)))

section oneItem

variable {gap item source : List Char}

theorem isQuiet_blank (hk : k ∈ Clause.followers) : ∀ n ∈ blankCodes, isQuiet [k.word] (Char.ofNat n) := by
  revert hk
  cases k <;> decide

/-- Nothing that is searched starts before the item. -/
theorem layout_select {names : List String} (hselect : isLaidOut names (fun _ => true) none Clause.select.title.toList)
    (hquiet : ∀ n ∈ blankCodes, isQuiet names (Char.ofNat n)) (hgap : ∀ c ∈ gap, isBlank c) :
    Layout names (fun _ => True) inner none (Clause.select.title.toList ++ gap) :=
  ((layout_of_isLaidOut hselect).mono (List.Subset.refl _) (fun _ _ => trivial) fun _ => id).append_of_start
    (layout_of_blank hquiet hgap)

theorem mask_oneItem (hgap : ∀ c ∈ gap, isBlank c) (hitem : WellFormed item) :
    mask (oneItem gap item source) = Clause.select.title.toList ++
      (gap ++ (mask item ++ ' ' :: mask (sectionText [(.source, ' ' :: source)]))) := by
  have hspace (cs : List Char) : mask (' ' :: cs) = ' ' :: mask cs := rfl
  rw [oneItem, mask_title_append, mask_append (closed_of_blank hgap), mask_of_blank hgap,
    mask_append hitem.closed, hspace, sectionText, List.map_singleton, List.intercalate_singleton]

/-- The clause behind the item does not run on from it. -/
theorem seam_source (hitem : WellFormed item) (hsource : IsBody inner (' ' :: source)) :
    Seam (mask item) (' ' :: mask (sectionText [(.source, ' ' :: source)])) := by
  refine ⟨Or.inr rfl, ?_, depthAfter_of_depthAfter? hitem.balanced⟩
  obtain ⟨tail, htail, -⟩ := mask_sectionText (s := (Clause.source, ' ' :: source)) hsource []
  have htitle : Clause.source.title.toList = 'F' :: "ROM".toList := rfl
  rw [List.dropWhile_cons_of_pos rfl, htail, htitle, List.cons_append, List.dropWhile_cons_of_neg (by decide)]
  rintro c ⟨⟩
  decide

theorem heading?_oneItem (hgap : gap ≠ [] ∧ ∀ c ∈ gap, isBlank c) (hitem : IsItem item)
    (hsource : IsBody inner (' ' :: source)) (hk : k ∈ Clause.followers) :
    heading? k 6 (mask (oneItem gap item source)) = if k = .source then
      some ⟨.source, 6 + gap.length + item.length + 1, 6 + gap.length + item.length + 5⟩ else none := by
  have hlength : (Clause.select.title.toList ++ gap).length = 6 + gap.length := by
    rw [List.length_append]
    rfl
  have hword : wordStart (Clause.select.title.toList ++ gap).getLast? := by
    rw [List.getLast?_append_of_ne_nil _ hgap.1, ← lastOr_none]
    exact wordStart_of_blank hgap.2
  have hselect : isLaidOut [k.word] (fun _ => true) none Clause.select.title.toList := by
    revert hk
    cases k <;> decide
  have hbefore : Layout [k.word] (fun _ => True) inner none (Clause.select.title.toList ++ gap) :=
    layout_select hselect (isQuiet_blank hk) hgap.2
  have hspace : Layout [k.word] (fun _ => True) inner none [' '] := layout_of_blank (isQuiet_blank hk) (by decide)
  have hsection : heading? k 0 ([' '] ++ mask (sectionText [(.source, ' ' :: source)])) =
      (heading? k 0 (mask (sectionText [(.source, ' ' :: source)]))).map (Heading.shift 1) :=
    heading?_layout_append hspace (Nat.zero_le _) (Or.inl (by decide))
  rw [mask_oneItem hgap.2 hitem.wellFormed, ← List.append_assoc,
    heading?_layout_append hbefore (by rw [hlength]; exact Nat.le_add_right _ _) (Or.inl hword),
    heading?_append (seam_source hitem.wellFormed hsource) (Nat.zero_le _), hitem.noClause k hk, Option.none_or,
    ← List.singleton_append, hsection, heading?_section hsource .source hk, hlength]
  split_ifs
  · have htitle : Clause.source.title.toList.length = 4 := rfl
    simp only [Option.map_some, Heading.shift, length_mask, htitle, Option.some.injEq, Heading.mk.injEq, true_and]
    omega
  · rfl

theorem heading?_select_oneItem (hgap : gap ≠ [] ∧ ∀ c ∈ gap, isBlank c) (hitem : WellFormed item) :
    heading? .select 0 (mask (oneItem gap item source)) = some ⟨.select, 0, 6⟩ := by
  obtain ⟨body, hbody, hends⟩ : ∃ body, mask (oneItem gap item source) = Clause.select.title.toList ++ body ∧
      endsWord body := by
    refine ⟨_, mask_oneItem hgap.2 hitem, ?_⟩
    obtain ⟨c, cs, rfl⟩ := List.exists_cons_of_ne_nil hgap.1
    simp [endsWord, isWord_of_isBlank (hgap.2 c List.mem_cons_self)]
  have htitle : Clause.select.title.toList = 'S' :: "ELECT".toList := rfl
  have hafter := Clause.select.after?_title (n := 0) wordStart_none hends
  have hlength : ('S' :: ("ELECT".toList ++ body)).length - body.length = 6 := by
    rw [List.length_cons, List.length_append, Nat.add_right_comm, Nat.add_sub_cancel]
    rfl
  rw [htitle, List.cons_append] at hafter
  rw [hbody, htitle, heading?_eq_headingFrom, List.cons_append, headingFrom_found (Nat.zero_le _) hafter, hlength]

theorem clauseTexts_oneItem (gap item source : List Char) : clauseTexts (oneItem gap item source)
      [⟨.select, 0, 6⟩, ⟨.source, 6 + gap.length + item.length + 1, 6 + gap.length + item.length + 5⟩] =
    [(.select, trim (gap ++ (item ++ [' ']))), (.source, trim (' ' :: source))] := by
  have hselect : Clause.select.title.toList.length = 6 := rfl
  have hfrom : Clause.source.title.toList.length = 4 := rfl
  have hcut : oneItem gap item source = (Clause.select.title.toList ++ (gap ++ (item ++ [' ']))) ++
      (Clause.source.title.toList ++ ' ' :: source) := by
    simp only [oneItem, written, List.append_assoc, List.cons_append, List.nil_append]
  have hlength : (Clause.select.title.toList ++ (gap ++ (item ++ [' ']))).length = 6 + gap.length + item.length + 1 := by
    simp only [List.length_append, hselect, List.length_singleton]
    omega
  have hlength' : ((Clause.select.title.toList ++ (gap ++ (item ++ [' ']))) ++ Clause.source.title.toList).length =
      6 + gap.length + item.length + 5 := by
    rw [List.length_append, hlength, hfrom]
  have htake : (((oneItem gap item source).take (6 + gap.length + item.length + 1)).drop 6) = gap ++ (item ++ [' ']) := by
    rw [hcut, ← hlength, List.take_left, ← hselect, List.drop_left]
  have hdrop : (oneItem gap item source).drop (6 + gap.length + item.length + 5) = ' ' :: source := by
    rw [hcut, ← List.append_assoc, ← hlength', List.drop_left]
  simp only [clauseTexts, htake, hdrop]

/-- **The clauses of the statement are its item and its source.** -/
theorem clauses?_oneItem (hgap : gap ≠ [] ∧ ∀ c ∈ gap, isBlank c) (hitem : IsItem item)
    (hsource : IsBody inner (' ' :: source)) (htrim : Trimmed source) :
    clauses? (oneItem gap item source) = some [(.select, item), (.source, source)] := by
  have hfound : found Clause.followers 6 (mask (oneItem gap item source)) =
      [⟨.source, 6 + gap.length + item.length + 1, 6 + gap.length + item.length + 5⟩] := by
    rw [found, List.filterMap_congr fun k hk => heading?_oneItem hgap hitem hsource hk]
    exact filterMap_ite_eq (by decide) (by decide) _
  have hspace : ∀ c ∈ [' '], isBlank c := by decide
  have htrim' : trim (' ' :: source) = source := by
    rw [← List.singleton_append, trim_blank_append hspace, trim_eq_self htrim]
  rw [clauses?, headings?_eq, heading?_select_oneItem hgap hitem.wellFormed, Option.map_some, hfound, sorted_singleton,
    Option.map_some, clauseTexts_oneItem, trim_blank_append hgap.2, trim_append_blank item hspace,
    trim_eq_self hitem.trimmed, htrim']

end oneItem

/-! ## Expressions with an alias -/

/-- An expression that may stand before an alias as it is. -/
structure IsExpression (e : List Char) : Prop where
  wellFormed : WellFormed e
  noComma : ¬ HasTopComma e
  ne_nil : e ≠ []
  start : ∀ c ∈ e.head?, isBlank c = false
  noClause : ∀ k ∈ Clause.followers, heading? k 0 (mask e) = none
  notDistinct : afterDistinct? (e ++ [' ']) = none

/-- A name that may stand behind AS as it is. -/
structure IsAlias (n : List Char) : Prop extends IsWrittenName n where
  plain : ∀ c ∈ mask n, c ≠ '(' ∧ c ≠ ')' ∧ c ≠ ','
  noClause : ∀ k ∈ Clause.followers, heading? k 0 (mask n) = none

section named

variable {e n : List Char}

theorem afterDistinct?_append (h : afterDistinct? (e ++ [' ']) = none) (more : List Char) :
    afterDistinct? (e ++ ' ' :: more) = none := by
  have htext : e ++ ' ' :: more = (e ++ [' ']) ++ more := by
    rw [List.append_assoc, List.singleton_append]
  have hletters : ∀ l ∈ "distinct".toList, isKeyLetter l := by decide
  have hword : wordStart (e ++ [' ']).getLast? := by
    rw [List.getLast?_concat]
    decide
  rw [afterDistinct?] at h
  rw [afterDistinct?, htext, letters?_append_of_apart hletters (by simp) (Or.inl hword)]
  cases hrest : letters? "distinct".toList (e ++ [' ']) with
  | none => rfl
  | some rest =>
    rw [hrest, Option.bind_some] at h
    cases rest with
    | nil =>
      -- the word would end in the space
      obtain ⟨w, hw, hfold⟩ := letters?_eq_some_iff.mp hrest
      have hmem : fold ' ' ∈ "distinct".toList := by
        rw [← hfold]
        refine List.mem_map_of_mem ?_
        rw [List.append_nil] at hw
        simp [← hw]
      exact absurd (hletters _ hmem) (by decide)
    | cons c rest =>
      rw [afterBlank?] at h
      split at h
      · cases h
      next hc => exact if_neg hc

theorem IsAlias.wellFormed (hn : IsAlias n) : WellFormed n :=
  ⟨hn.closed, balanced_of_no_parenthesis fun c hc => ⟨(hn.plain c hc).1, (hn.plain c hc).2.1⟩⟩

/-- An alias may be written in quotes. -/
theorem isAlias_quote {name : String} (hname : name ≠ "") : IsAlias (quote name).toList where
  toIsWrittenName := isWrittenName_quote hname
  plain := by
    intro c hc
    rcases mem_mask_quote hc with rfl | rfl <;> decide
  noClause := by
    intro k hk
    have hquiet : isQuiet [k.word] '"' && isQuiet [k.word] '_' := by
      revert hk
      cases k <;> decide
    have hlaid : Laid [k.word] (fun _ => True) (fun _ => True) (quote name).toList :=
      .quote ⟨trivial, trivial⟩ hquiet name
    exact heading?_layout hlaid.layout

/-- The alias does not run on from the expression. -/
theorem seam_asText (he : WellFormed e) (m : List Char) : Seam (mask e) (asText ++ m) := by
  have htext : asText ++ m = [' '] ++ 'A' :: 'S' :: ' ' :: m := rfl
  have hends : endsWord ([' '] ++ 'A' :: 'S' :: ' ' :: m) := rfl
  rw [htext]
  refine .blank_append (by decide) (depthAfter_of_depthAfter? he.balanced) (Or.inr hends) ?_
  rw [List.dropWhile_cons_of_neg (by decide)]
  rintro c ⟨⟩
  decide

/-- An expression with an alias is an item. -/
theorem IsItem.named (he : IsExpression e) (hn : IsAlias n) : IsItem (e ++ asText ++ n) := by
  have hword : WellFormed asText := by decide
  have hlayout : ∀ k ∈ Clause.followers, Layout [k.word] (fun _ => True) (fun _ => True) none asText := by
    intro k hk
    have h : isLaidOut [k.word] (fun _ => true) none asText := by
      revert hk
      cases k <;> decide
    exact (layout_of_isLaidOut h).mono (fun _ => id) (fun _ _ => trivial) fun _ => id
  have hne : n ≠ [] := by
    rintro rfl
    cases hn.read
  refine ⟨⟨(he.wellFormed.append hword).append hn.wellFormed, ?_, by simp [asText], ?_, ?_⟩, ?_, ?_⟩
  · rw [hasTopComma_append (he.wellFormed.append hword).endsOutside, hasTopComma_append he.wellFormed.endsOutside]
    rintro ((hcomma | hcomma) | hcomma)
    · exact he.noComma hcomma
    · exact absurd hcomma (by decide)
    · exact (hn.plain ',' (List.of_mem_zip hcomma).1).2.2 rfl
  · obtain ⟨c, e, rfl⟩ := List.exists_cons_of_ne_nil he.ne_nil
    exact he.start
  · rw [List.getLast?_append_of_ne_nil _ hne]
    exact hn.trimmed.2
  · intro k hk
    rw [mask_item he.wellFormed.closed, List.append_assoc,
      heading?_append (seam_asText he.wellFormed (mask n)) (Nat.zero_le _), he.noClause k hk, Option.none_or,
      heading?_layout_append (hlayout k hk) (Nat.zero_le _) (Or.inl (by decide)), hn.noClause k hk]
    rfl
  · rw [asText, List.append_assoc]
    exact afterDistinct?_append he.notDistinct _

end named

/-! ## Names without quotes -/

/-- A word that is none of some keywords. -/
structure IsBare (keywords : List String) (cs : List Char) : Prop where
  start : cs.head?.any isNameStart
  word : ∀ c ∈ cs, isWord c
  notKeyword : ∀ k ∈ keywords, cs.map fold ≠ k.toList

section bare

variable {keywords : List String} {cs : List Char}

instance (keywords : List String) (cs : List Char) : Decidable (IsBare keywords cs) :=
  decidable_of_iff (cs.head?.any isNameStart ∧ (∀ c ∈ cs, isWord c) ∧ ∀ k ∈ keywords, cs.map fold ≠ k.toList)
    ⟨fun ⟨hstart, hword, hkeyword⟩ => ⟨hstart, hword, hkeyword⟩, fun h => ⟨h.start, h.word, h.notKeyword⟩⟩

theorem isNameStart_iff {c : Char} : isNameStart c ↔
    65 ≤ c.toNat ∧ c.toNat ≤ 90 ∨ 97 ≤ c.toNat ∧ c.toNat ≤ 122 ∨ c.toNat = 95 := by
  have hunderscore : c = '_' ↔ c.toNat = 95 := by
    rw [← Char.toNat_inj]
    rfl
  show ((decide (65 ≤ c.val ∧ c.val ≤ 90) || decide (97 ≤ c.val) && decide (c.val ≤ 122)) || c == '_') = true ↔ _
  simp only [Bool.or_eq_true, decide_eq_true_eq, Bool.and_eq_true, beq_iff_eq, or_assoc, hunderscore]
  rfl

theorem isNameStart_fold {c : Char} (h : isNameStart c) : isNameStart (fold c) := by
  rw [isNameStart_iff] at h ⊢
  rw [fold, if_neg (by omega), if_neg (by omega), if_neg (by omega), toNat_toLower]
  split_ifs <;> omega

namespace IsBare

theorem mono {keywords' : List String} (h : IsBare keywords cs) (hsubset : keywords' ⊆ keywords) : IsBare keywords' cs :=
  ⟨h.start, h.word, fun k hk => h.notKeyword k (hsubset hk)⟩

theorem isWordName (h : IsBare keywords cs) : IsWordName cs :=
  ⟨h.start, fun c hc => isNameRest_of_isWord (h.word c hc)⟩

theorem aliasText_eq (h : IsBare keywords cs) : aliasText cs = cs := by
  obtain ⟨c, w, rfl, hc⟩ := h.isWordName.exists_cons
  rw [aliasText]
  rintro body ⟨⟩
  exact absurd hc (by decide)

theorem heading?_eq_none (h : IsBare singleWords cs) : ∀ k ∈ Clause.followers, heading? k 0 (mask cs) = none := by
  intro k hk
  rw [h.isWordName.mask_eq]
  exact heading?_word h.word h.notKeyword hk

/-- An alias may be written without quotes. -/
theorem isAlias (h : IsBare singleWords cs) : IsAlias cs where
  closed := h.isWordName.wellFormed.closed
  read := by
    rw [h.isWordName.mask_eq, nameToEnd?, h.isWordName.readName? fun _ => isNameStart_fold]
    rfl
  solid := by
    rw [h.isWordName.mask_eq]
    exact fun c hc => (plain_of_isNameRest (h.isWordName.rest c hc)).1
  plain := by
    rw [h.isWordName.mask_eq]
    exact fun c hc => (plain_of_isNameRest (h.isWordName.rest c hc)).2.2
  noClause := h.heading?_eq_none

end IsBare

end bare

end MetricLayer.Sql
