import MetricLayer.Proofs.Sql.Insert
import MetricLayer.Proofs.Sql.Quotation
import MetricLayer.Proofs.Text.Numeral

/-!
# The end of a statement

What is cut off the end of a statement is white space, semicolons and white space, once in this order.  Where
the semicolons at the end of a text have white space between them (`MixedEnd`), some of them stay, and a second
cut takes more off (`statement_statement_eq_iff`).

Semicolons and white space that stay belong to the last clause and to no other (`clauses?_append_ending`): they
are no part of any keyword, also where the quotes before them are open.
-/

namespace MetricLayer.Sql

open MetricLayer.Text

variable {cs a : List Char}

/-! ## Cutting once and twice -/

/-- White space or a semicolon. -/
def IsEnding (c : Char) : Prop :=
  isBlank c ∨ c = ';'

theorem isWord_of_isEnding {c : Char} (h : IsEnding c) : isWord c = false := by
  rcases h with h | rfl
  · exact isWord_of_isBlank h
  · decide +kernel

theorem isQuote_of_isEnding {c : Char} (h : IsEnding c) : isQuote c = false := by
  rcases h with h | rfl
  · exact isQuote_of_isBlank h
  · rfl

theorem isDigit_of_isEnding {c : Char} (h : IsEnding c) : isDigit c = false := by
  rw [← Bool.not_eq_true]
  intro hdigit
  have hword := isWord_of_isDigit hdigit
  rw [isWord_of_isEnding h] at hword
  cases hword

/-- Semicolons with white space between them stand at the end of a text. -/
def MixedEnd (cs : List Char) : Prop :=
  ∃ before gap after, cs = before ++ (';' :: gap ++ ';' :: after) ∧ gap ≠ [] ∧ (∀ c ∈ gap, isBlank c) ∧
    ∀ c ∈ after, IsEnding c

/-- A text around its statement: white space before it, and white space, semicolons and white space behind it. -/
structure Cut (cs before gap semicolons after : List Char) : Prop where
  text : cs = before ++ statement cs ++ (gap ++ (semicolons ++ after))
  before_blank : ∀ c ∈ before, isBlank c
  gap_blank : ∀ c ∈ gap, isBlank c
  semicolons_eq : ∀ c ∈ semicolons, c = ';'
  after_blank : ∀ c ∈ after, isBlank c
  semicolons_ne_nil : gap ≠ [] → semicolons ≠ []
  last : gap = [] → ∀ c ∈ (statement cs).getLast?, c ≠ ';'

theorem exists_cut (cs : List Char) : ∃ before gap semicolons after, Cut cs before gap semicolons after := by
  obtain ⟨before, after, hcs, hbefore, hafter⟩ := exists_trim cs
  obtain ⟨semicolons, htrim, hsemicolons⟩ := exists_dropEndWhile (· == ';') (trim cs)
  obtain ⟨before', gap, hbody, hbefore', hgap⟩ := exists_trim (dropEndWhile (· == ';') (trim cs))
  refine ⟨before ++ before', gap, semicolons, after, ?_, ?_, hgap, fun c hc => beq_iff_eq.mp (hsemicolons c hc), hafter,
    ?_, ?_⟩
  · calc cs = before ++ trim cs ++ after := hcs
      _ = before ++ (dropEndWhile (· == ';') (trim cs) ++ semicolons) ++ after := by rw [← htrim]
      _ = before ++ (before' ++ statement cs ++ gap ++ semicolons) ++ after := by rw [hbody, ← statement]
      _ = _ := by simp only [List.append_assoc]
  · exact List.forall_mem_append.mpr ⟨hbefore, hbefore'⟩
  · -- without semicolons the white space would stand at the end of the trimmed text
    rintro hne rfl
    obtain ⟨gap, c, rfl⟩ := (List.eq_nil_or_concat' gap).resolve_left hne
    have hlast := (trimmed_trim cs).2 c (by rw [htrim, hbody]; simp)
    rw [hgap c (by simp)] at hlast
    cases hlast
  · rintro rfl c hc
    have hlast := getLast?_dropEndWhile_not (· == ';') (trim cs) c
    rw [List.append_nil] at hbody
    rw [hbody, List.getLast?_append] at hlast
    refine beq_eq_false_iff_ne.mp (hlast ?_)
    rw [← statement, Option.mem_def.mp hc]
    rfl

theorem trimmed_statement (cs : List Char) : Trimmed (statement cs) :=
  trimmed_trim _

/-- Between the semicolons that are cut off stands no white space. -/
theorem not_mixed_of_cut {gap semicolons after pre inner post : List Char} (hgap : ∀ c ∈ gap, isBlank c)
    (hsemicolons : ∀ c ∈ semicolons, c = ';') (hafter : ∀ c ∈ after, isBlank c) (hne : inner ≠ [])
    (hinner : ∀ c ∈ inner, isBlank c) (h : gap ++ (semicolons ++ after) = pre ++ (';' :: inner ++ ';' :: post)) :
    False := by
  have hsemicolon : isBlank ';' = false := by decide
  obtain ⟨k, hk⟩ : ∃ k, semicolons ++ after = k ++ (';' :: inner ++ ';' :: post) := by
    rcases List.append_eq_append_iff.mp h with ⟨k, -, hk⟩ | ⟨k, rfl, hk⟩
    · exact ⟨k, hk⟩
    · cases k with
      | nil => exact ⟨[], hk.symm⟩
      | cons c k =>
        obtain rfl : ';' = c := (List.cons.inj hk).1
        rw [hgap ';' (by simp)] at hsemicolon
        cases hsemicolon
  have hsplit : semicolons ++ after = (k ++ ';' :: inner) ++ ';' :: post := by
    rw [hk, List.append_assoc]
  rcases List.append_eq_append_iff.mp hsplit with ⟨m, -, hm⟩ | ⟨m, hm, -⟩
  · rw [hafter ';' (by rw [hm]; simp)] at hsemicolon
    cases hsemicolon
  · obtain ⟨c, inner, rfl⟩ := List.exists_cons_of_ne_nil hne
    obtain rfl : c = ';' := hsemicolons c (by rw [hm]; simp)
    rw [hinner ';' List.mem_cons_self] at hsemicolon
    cases hsemicolon

/-- White space and semicolons at the end are cut off, if the statement does not end in a semicolon. -/
theorem Cut.exists_of_ending {before gap semicolons after x ending : List Char}
    (h : Cut cs before gap semicolons after) (hlast : (statement cs).getLast? ≠ some ';') (hcs : cs = x ++ ending)
    (hending : ∀ c ∈ ending, IsEnding c) :
    ∃ blank pre, (∀ c ∈ blank, isBlank c) ∧ blank ++ (semicolons ++ after) = pre ++ ending := by
  rcases List.append_eq_append_iff.mp (h.text.symm.trans hcs) with ⟨pre, -, hpre⟩ | ⟨k, hk, rfl⟩
  · exact ⟨gap, pre, h.gap_blank, hpre⟩
  · rcases List.eq_nil_or_concat' k with rfl | ⟨k, c, rfl⟩
    · exact ⟨gap, [], h.gap_blank, rfl⟩
    · rcases List.eq_nil_or_concat' (statement cs) with hnil | ⟨init, d, hinit⟩
      · -- nothing but white space stands before the semicolons
        rw [hnil, List.append_nil] at hk
        refine ⟨k ++ [c] ++ gap, [], List.forall_mem_append.mpr ⟨fun d hd => ?_, h.gap_blank⟩, ?_⟩
        · exact h.before_blank d (by rw [hk]; exact List.mem_append_right _ hd)
        · rw [List.append_assoc, List.nil_append]
      · -- the statement would end in white space or a semicolon
        have hd : d = c := by
          rw [hinit, ← List.append_assoc, ← List.append_assoc] at hk
          exact List.singleton_inj.mp (List.append_inj' hk rfl).2
        have hsolid : isBlank d = false := (trimmed_statement cs).2 d (by rw [hinit, List.getLast?_concat]; rfl)
        rw [hinit, List.getLast?_concat, hd] at hlast
        rcases hending c (by simp) with hc | rfl
        · rw [hd, hc] at hsolid
          cases hsolid
        · exact absurd rfl hlast

/-- **A statement ends in a semicolon when the semicolons behind it had white space between them.** -/
theorem getLast?_statement_iff : (statement cs).getLast? = some ';' ↔ MixedEnd cs := by
  obtain ⟨before, gap, semicolons, after, hcut⟩ := exists_cut cs
  constructor
  · intro hlast
    have hne : gap ≠ [] := fun hnil => hcut.last hnil ';' hlast rfl
    obtain ⟨init, hinit⟩ := List.getLast?_eq_some_iff.mp hlast
    obtain ⟨c, rest, rfl⟩ := List.exists_cons_of_ne_nil (hcut.semicolons_ne_nil hne)
    obtain rfl : c = ';' := hcut.semicolons_eq c List.mem_cons_self
    refine ⟨before ++ init, gap, rest ++ after, ?_, hne, hcut.gap_blank, List.forall_mem_append.mpr ⟨?_, ?_⟩⟩
    · calc cs = before ++ statement cs ++ (gap ++ (';' :: rest ++ after)) := hcut.text
        _ = _ := by rw [hinit]; simp
    · exact fun c hc => Or.inr (hcut.semicolons_eq c (List.mem_cons_of_mem _ hc))
    · exact fun c hc => Or.inl (hcut.after_blank c hc)
  · rintro ⟨x, inner, post, hcs, hne, hinner, hpost⟩
    by_contra hlast
    have hending : ∀ c ∈ ';' :: inner ++ ';' :: post, IsEnding c :=
      List.forall_mem_append.mpr ⟨List.forall_mem_cons.mpr ⟨Or.inr rfl, fun c hc => Or.inl (hinner c hc)⟩,
        List.forall_mem_cons.mpr ⟨Or.inr rfl, hpost⟩⟩
    obtain ⟨blank, pre, hblank, h⟩ := hcut.exists_of_ending hlast hcs hending
    exact not_mixed_of_cut hblank hcut.semicolons_eq hcut.after_blank hne hinner h

/-- **A second cut takes nothing off, unless white space stands between the semicolons at the end.** -/
theorem statement_statement_eq_iff : statement (statement cs) = statement cs ↔ ¬ MixedEnd cs := by
  rw [← getLast?_statement_iff]
  constructor
  · intro h hlast
    obtain ⟨init, hinit⟩ := List.getLast?_eq_some_iff.mp hlast
    have hshort : (statement (statement cs)).length ≤ init.length := by
      have hcut : dropEndWhile (· == ';') (init ++ [';']) = dropEndWhile (· == ';') init :=
        dropEndWhile_append_of_all init (by decide)
      rw [statement, trim_eq_self (trimmed_statement cs), hinit, hcut]
      exact ((trim_isInfix _).trans (dropEndWhile_isInfix _ _)).length_le
    rw [h, hinit, List.length_append, List.length_singleton] at hshort
    omega
  · intro hlast
    refine statement_eq_self (trimmed_statement cs) ?_
    rintro c hc rfl
    exact hlast hc

instance (cs : List Char) : Decidable (MixedEnd cs) :=
  decidable_of_iff _ getLast?_statement_iff

/-! ## Keywords before an ending -/

section keywords

variable {m b ending before body : List Char} {q : Char}

/-- No keyword of a clause starts in a text, and none ends there. -/
def IsSilent (b : List Char) : Prop :=
  ∀ x ∈ b, fold x ≠ 'b' ∧ ∀ c : Clause, c.word.toList.head? ≠ some (fold x)

theorem isSilent_of_isEnding (h : ∀ c ∈ ending, IsEnding c) : IsSilent ending := by
  intro x hx
  have hkey := not_isKeyLetter_of_isWord_eq_false (isWord_of_isEnding (h x hx))
  constructor
  · intro hfold
    rw [hfold] at hkey
    exact absurd hkey (by decide)
  · intro c hhead
    rw [c.word_letters.2 (fold x) (List.mem_of_mem_head? hhead)] at hkey
    cases hkey

theorem isSilent_blanked (body : List Char) : IsSilent (body.map fun _ => '_') := by
  have hblanked : fold '_' ≠ 'b' ∧ ∀ c : Clause, c.word.toList.head? ≠ some (fold '_') := by
    refine ⟨by decide, fun c => ?_⟩
    cases c <;> decide
  intro x hx
  obtain ⟨c, -, rfl⟩ := List.mem_map.mp hx
  exact hblanked

/-- Such a text adds no keyword to the one before it. -/
theorem heading?_append_silent (hapart : wordStart m.getLast? ∨ endsWord b) (hsilent : IsSilent b) (c : Clause)
    (start : Nat) : heading? c start (m ++ b) = heading? c start m := by
  have hnext : ∀ e ∈ (b.dropWhile isBlank).head?, fold e ≠ 'b' := fun e he =>
    (hsilent e ((List.dropWhile_suffix _).subset (List.mem_of_mem_head? he))).1
  have hnone (total n d : Nat) (before : Option Char) : headingFrom c start total n before d b = none := by
    rw [Option.eq_none_iff_forall_ne_some]
    intro h hh
    obtain ⟨pre, x, post, rest, rfl, hafter, -⟩ := of_headingFrom_eq_some hh
    obtain ⟨y, post, heq, -, hhead⟩ := Clause.after?_suffix hafter
    obtain ⟨rfl, rfl⟩ := List.cons.inj heq
    exact (hsilent x (by simp)).2 c hhead.symm
  rw [heading?_eq_headingFrom, heading?_eq_headingFrom, List.length_append, headingFrom_append hapart hnext, hnone,
    Option.or_none]

theorem maskFrom_of_not_mem (h : q ∉ body) : maskFrom (some q) body = body.map fun _ => '_' := by
  induction body with
  | nil => rfl
  | cons c body ih =>
    rw [List.mem_cons, not_or] at h
    obtain ⟨hc, hbody⟩ := h
    rw [maskFrom, maskStep, if_neg (Ne.symm hc), quoteStep, if_neg (Ne.symm hc), ih hbody, List.map_cons]

/-- Behind a quote that stays open everything is blanked. -/
theorem mask_append_open (hbefore : Quoting before) (hq : isQuote q) (hbody : q ∉ body) :
    mask (before ++ q :: body) = (mask before ++ [q]) ++ body.map fun _ => '_' := by
  rw [mask_append hbefore.closed, List.append_assoc, mask, mask, maskFrom, maskStep, quoteStep, hq, if_pos rfl,
    maskFrom_of_not_mem hbody]
  rfl

/-- White space and semicolons behind a text add no keyword, whether its quotes are closed or not. -/
theorem heading?_mask_append_ending (h : ∀ c ∈ ending, IsEnding c) (c : Clause) (start : Nat) :
    heading? c start (mask (cs ++ ending)) = heading? c start (mask cs) := by
  have hquote : ∀ c ∈ ending, isQuote c = false := fun c hc => isQuote_of_isEnding (h c hc)
  rcases quoting_or_opens cs with hcs | ⟨q, before, body, rfl, hbefore, hq, hbody⟩
  · have hends : endsWord ending := by
      cases ending with
      | nil => rfl
      | cons d ending => simp [endsWord, isWord_of_isEnding (h d List.mem_cons_self)]
    rw [mask_append hcs.closed, mask_of_no_quote hquote]
    exact heading?_append_silent (Or.inr hends) (isSilent_of_isEnding h) c start
  · have hending : q ∉ body ++ ending := by
      rw [List.mem_append, not_or]
      refine ⟨hbody, fun hmem => ?_⟩
      rw [hquote q hmem] at hq
      cases hq
    have hapart : wordStart (mask before ++ [q]).getLast? := by
      have hword : isWord q = false := of_isQuote (P := fun q => isWord q = false) (by decide) (by decide) hq
      rw [List.getLast?_concat]
      simp [wordStart, hword]
    rw [List.append_assoc, List.cons_append, mask_append_open hbefore hq hending, mask_append_open hbefore hq hbody,
      heading?_append_silent (Or.inl hapart) (isSilent_blanked _), heading?_append_silent (Or.inl hapart) (isSilent_blanked _)]

theorem headings?_mask_append_ending (h : ∀ c ∈ ending, IsEnding c) :
    headings? (mask (cs ++ ending)) = headings? (mask cs) := by
  simp only [headings?, heading?_mask_append_ending h]

end keywords

/-! ## Clauses before an ending -/

section clauses

variable {ending : List Char} {hs : List Heading} {k : Heading} {clauses : List (Clause × List Char)}

/-- The text behind the last heading runs to the end. -/
theorem clauseTexts_concat (hstart : ∀ j ∈ hs, j.start ≤ k.start) :
    clauseTexts cs (hs ++ [k]) = clauseTexts (cs.take k.start) hs ++ [(k.clause, trim (cs.drop k.stop))] := by
  by_cases hne : hs = []
  · rw [hne]
    rfl
  · rw [clauseTexts_append hne hstart]
    rfl

/-- The headings of a statement stand in it, one behind the other. -/
theorem exists_concat_of_headings? (h : headings? (mask cs) = some hs) :
    ∃ init k, hs = init ++ [k] ∧ (∀ j ∈ init, j.start ≤ k.start) ∧ k.start ≤ cs.length ∧ k.stop ≤ cs.length := by
  rw [headings?_eq] at h
  obtain ⟨first, hfirst, hall⟩ := Option.map_eq_some_iff.mp h
  obtain ⟨init, k, rfl⟩ := (List.eq_nil_or_concat' hs).resolve_left fun hnil => by
    rw [hnil] at hall
    cases hall
  have hsorted : (init ++ [k]).Pairwise fun a b => a.start ≤ b.start := by
    rw [← hall]
    refine List.Pairwise.cons (fun l hl => ?_) (pairwise_sorted _)
    have hfrom := (of_mem_found ((sorted_perm _).subset hl)).2.from_le
    have hlt := (isHeading_of_heading? hfirst).start_lt
    omega
  obtain ⟨hstart, hstop⟩ := Parting.inside_earlier hfirst k (by
    rw [Parting.earlier, hall]
    exact List.mem_append_right _ (List.mem_singleton_self k))
  exact ⟨init, k, rfl, fun j hj => (List.pairwise_append.mp hsorted).2.2 j hj k (List.mem_singleton_self k), hstart, hstop⟩

/-- **White space and semicolons behind a statement belong to its last clause.** -/
theorem clauses?_append_ending (h : clauses? cs = some clauses) (hending : ∀ c ∈ ending, IsEnding c) :
    ∃ before c text, clauses = before ++ [(c, trim text)] ∧
      clauses? (cs ++ ending) = some (before ++ [(c, trim (text ++ ending))]) := by
  obtain ⟨hs, hheadings, rfl⟩ := Option.map_eq_some_iff.mp h
  obtain ⟨init, k, rfl, hsorted, hstart, hstop⟩ := exists_concat_of_headings? hheadings
  refine ⟨clauseTexts (cs.take k.start) init, k.clause, cs.drop k.stop, clauseTexts_concat hsorted, ?_⟩
  rw [clauses?, headings?_mask_append_ending hending, hheadings, Option.map_some, clauseTexts_concat hsorted,
    List.take_append_of_le_length hstart, List.drop_append_of_le_length hstop]

theorem clauses?_append_ending_eq_none (h : clauses? cs = none) (hending : ∀ c ∈ ending, IsEnding c) :
    clauses? (cs ++ ending) = none := by
  rw [clauses?, Option.map_eq_none_iff] at h
  rw [clauses?, headings?_mask_append_ending hending, h]
  rfl

end clauses

end MetricLayer.Sql
