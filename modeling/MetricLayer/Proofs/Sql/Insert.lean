import MetricLayer.Proofs.Sql.Seam
import Mathlib.Data.List.Nodup

/-!
# Inserting a clause

An ORDER BY clause is inserted in place of the white space between two parts of a statement, of which the second
starts with the keyword of a clause that is not in the first, or is empty.  The clauses of the statement stay as
they are, and the new one stands among them (`clauses?_insert`).
-/

namespace MetricLayer.Sql

open MetricLayer.Text

/-! ## Texts between headings -/

/-- The texts before a heading are cut from the text before it. -/
theorem clauseTexts_append {cs : List Char} {hs : List Heading} {h : Heading} (hne : hs ≠ [])
    (hstart : ∀ k ∈ hs, k.start ≤ h.start) (later : List Heading) :
    clauseTexts cs (hs ++ h :: later) = clauseTexts (cs.take h.start) hs ++ clauseTexts cs (h :: later) := by
  induction hs with
  | nil => exact absurd rfl hne
  | cons k hs ih =>
    cases hs with
    | nil => rfl
    | cons next hs =>
      have hnext : next.start ≤ h.start := hstart next (by simp)
      have htake : cs.take next.start = (cs.take h.start).take next.start := by
        rw [List.take_take, Nat.min_eq_left hnext]
      have hlater := ih (List.cons_ne_nil next hs) fun j hj => hstart j (List.mem_cons_of_mem k hj)
      rw [List.cons_append] at hlater
      rw [List.cons_append, List.cons_append, clauseTexts, hlater, clauseTexts, List.cons_append, htake]

/-- White space behind a text is in none of its clauses. -/
theorem clauseTexts_append_blank {cs gap : List Char} (hgap : ∀ c ∈ gap, isBlank c) {hs : List Heading}
    (hinside : ∀ h ∈ hs, h.start ≤ cs.length ∧ h.stop ≤ cs.length) :
    clauseTexts (cs ++ gap) hs = clauseTexts cs hs := by
  induction hs with
  | nil => rfl
  | cons h hs ih =>
    have hh := hinside h List.mem_cons_self
    cases hs with
    | nil => rw [clauseTexts, clauseTexts, List.drop_append_of_le_length hh.2, trim_append_blank _ hgap]
    | cons next hs =>
      have hnext := hinside next (by simp)
      rw [clauseTexts, clauseTexts, ih fun j hj => hinside j (List.mem_cons_of_mem h hj),
        List.take_append_of_le_length hnext.1]

/-- Headings behind a text cut what follows the text. -/
theorem clauseTexts_shift (pre cs : List Char) (hs : List Heading) :
    clauseTexts (pre ++ cs) (hs.map (Heading.shift pre.length)) = clauseTexts cs hs := by
  induction hs with
  | nil => rfl
  | cons h hs ih =>
    cases hs with
    | nil => simp only [List.map_cons, List.map_nil, clauseTexts, Heading.shift, List.drop_length_add_append]
    | cons next hs =>
      simp only [List.map_cons] at ih ⊢
      rw [clauseTexts, ih, clauseTexts]
      simp only [Heading.shift, List.take_length_add_append, List.drop_length_add_append]

/-- What starts with a heading has texts of its own. -/
theorem clauseTexts_append_shift {cs rest : List Char} {hs : List Heading} {l : Heading} {ls : List Heading}
    (hne : hs ≠ []) (hstart : ∀ k ∈ hs, k.start ≤ cs.length) (hzero : l.start = 0) :
    clauseTexts (cs ++ rest) (hs ++ (l :: ls).map (Heading.shift cs.length)) =
      clauseTexts cs hs ++ clauseTexts rest (l :: ls) := by
  have hshift : (Heading.shift cs.length l).start = cs.length := by
    rw [Heading.shift, hzero, Nat.add_zero]
  rw [List.map_cons, clauseTexts_append hne (by rw [hshift]; exact hstart), hshift, List.take_left, ← List.map_cons,
    clauseTexts_shift]

/-! ## Headings in their order -/

/-- Headings in the order in which they stand. -/
def sorted (hs : List Heading) : List Heading :=
  hs.mergeSort fun a b => decide (a.start ≤ b.start)

@[simp] theorem sorted_nil : sorted [] = [] := List.mergeSort_nil

@[simp] theorem sorted_singleton (h : Heading) : sorted [h] = [h] := List.mergeSort_singleton h

theorem pairwise_sorted (hs : List Heading) : (sorted hs).Pairwise fun a b => a.start ≤ b.start := by
  have hsorted : (sorted hs).Pairwise fun a b => decide (a.start ≤ b.start) = true :=
    List.pairwise_mergeSort (by simp only [decide_eq_true_eq]; omega)
      (by simp only [Bool.or_eq_true, decide_eq_true_eq]; omega) hs
  exact hsorted.imp of_decide_eq_true

theorem sorted_perm (hs : List Heading) : (sorted hs).Perm hs :=
  List.mergeSort_perm hs _

/-- The first of some headings starts where a text does, if one of them does. -/
theorem exists_sorted_eq_cons {hs : List Heading} {k : Heading} (hk : k ∈ hs) (hzero : k.start = 0) :
    ∃ l ls, sorted hs = l :: ls ∧ l.start = 0 := by
  have hmem := (sorted_perm hs).symm.subset hk
  have hsorted := pairwise_sorted hs
  cases hlist : sorted hs with
  | nil =>
    rw [hlist] at hmem
    cases hmem
  | cons l ls =>
    rw [hlist] at hmem hsorted
    refine ⟨l, ls, rfl, ?_⟩
    rcases List.mem_cons.mp hmem with rfl | hmem
    · exact hzero
    · have hle := List.rel_of_pairwise_cons hsorted hmem
      omega

/-- Headings that start at different places have one order. -/
theorem sorted_eq {hs ordered : List Heading} (hperm : hs.Perm ordered)
    (h : ordered.Pairwise fun a b => a.start < b.start) : sorted hs = ordered := by
  have hall := (sorted_perm hs).trans hperm
  refine List.Perm.eq_of_pairwise ?_ (pairwise_sorted hs) (h.imp Nat.le_of_lt) hall
  intro a b ha hb hab hba
  have hstarts : (ordered.map Heading.start).Nodup := List.pairwise_map.mpr (h.imp Nat.ne_of_lt)
  exact List.inj_on_of_nodup_map hstarts (hall.subset ha) hb (Nat.le_antisymm hab hba)

/-- No two headings start at one place. -/
def Distinct (hs : List Heading) : Prop :=
  hs.Pairwise fun a b => a.start ≠ b.start

theorem Distinct.sorted {hs : List Heading} (h : Distinct hs) :
    (sorted hs).Pairwise fun a b => a.start < b.start := by
  have hdistinct : (Sql.sorted hs).Pairwise fun a b => a.start ≠ b.start :=
    ((sorted_perm hs).pairwise_iff Ne.symm).mpr h
  exact ((pairwise_sorted hs).and hdistinct).imp fun hlt => Nat.lt_of_le_of_ne hlt.1 hlt.2

theorem sorted_append {hs before after : List Heading} (hperm : hs.Perm (before ++ after)) (hbefore : Distinct before)
    (hafter : Distinct after) (hlt : ∀ a ∈ before, ∀ b ∈ after, a.start < b.start) :
    sorted hs = sorted before ++ sorted after := by
  refine sorted_eq (hperm.trans ((sorted_perm before).append (sorted_perm after)).symm) ?_
  rw [List.pairwise_append]
  exact ⟨hbefore.sorted, hafter.sorted, fun a ha b hb =>
    hlt a ((sorted_perm before).subset ha) b ((sorted_perm after).subset hb)⟩

theorem Distinct.map_shift {hs : List Heading} (h : Distinct hs) (k : Nat) : Distinct (hs.map (Heading.shift k)) := by
  rw [Distinct, List.pairwise_map]
  exact h.imp fun hne => by simpa [Heading.shift] using hne

theorem map_shift_shift (hs : List Heading) (j k : Nat) :
    (hs.map (Heading.shift j)).map (Heading.shift k) = hs.map (Heading.shift (k + j)) := by
  rw [List.map_map]
  refine List.map_congr_left fun h _ => ?_
  simp [Heading.shift, Nat.add_assoc]

theorem sorted_map_shift {hs : List Heading} (h : Distinct hs) (k : Nat) :
    sorted (hs.map (Heading.shift k)) = (sorted hs).map (Heading.shift k) := by
  refine sorted_eq ((sorted_perm hs).map _).symm ?_
  rw [List.pairwise_map]
  exact h.sorted.imp fun hlt => Nat.add_lt_add_left hlt k

/-! ## The headings of a statement in two parts -/

/-- The headings that are searched for clauses of a list. -/
def found (cs : List Clause) (start : Nat) (m : List Char) : List Heading :=
  cs.filterMap fun c => heading? c start m

variable {m a b : List Char} {start : Nat} {cs : List Clause}

theorem of_mem_found {h : Heading} (hh : h ∈ found cs start m) : h.clause ∈ cs ∧ IsHeading h.clause start m h := by
  obtain ⟨c, hc, hheading⟩ := List.mem_filterMap.mp hh
  have hstands := isHeading_of_heading? hheading
  obtain rfl := hstands.clause
  exact ⟨hc, hstands⟩

theorem distinct_found (hcs : cs.Nodup) (start : Nat) (m : List Char) : Distinct (found cs start m) := by
  rw [Distinct, found, List.pairwise_filterMap]
  refine hcs.imp fun {c c'} hne h hh h' hh' heq => ?_
  exact hne (clause_eq_of_start_eq hh hh' heq)

/-- Alternatives are collected one after the other. -/
theorem filterMap_or_perm {α β : Type} (f g : α → Option β) (as : List α) :
    (as.filterMap fun x => (f x).or (g x)).Perm
      (as.filterMap f ++ (as.filter fun x => (f x).isNone).filterMap g) := by
  induction as with
  | nil => exact List.Perm.refl _
  | cons x as ih =>
    rw [List.filterMap_cons, List.filterMap_cons, List.filter_cons]
    cases hf : f x with
    | some y => simpa using ih
    | none =>
      cases hg : g x with
      | none => simpa [hg] using ih
      | some y => simpa [hg] using (ih.cons y).trans List.perm_middle.symm

/-- The clauses whose keyword is not found. -/
def missing (cs : List Clause) (start : Nat) (m : List Char) : List Clause :=
  cs.filter fun c => (heading? c start m).isNone

theorem found_append (h : Seam a b) (hstart : start ≤ a.length) :
    (found cs start (a ++ b)).Perm
      (found cs start a ++ (found (missing cs start a) 0 b).map (Heading.shift a.length)) := by
  have hor : found cs start (a ++ b) =
      cs.filterMap fun c => (heading? c start a).or ((heading? c 0 b).map (Heading.shift a.length)) := by
    rw [found, funext fun c => heading?_append (c := c) h hstart]
  rw [hor, found, found, List.map_filterMap]
  exact filterMap_or_perm _ _ cs

theorem sorted_found_append (h : Seam a b) (hstart : start ≤ a.length) (hcs : cs.Nodup) :
    sorted (found cs start (a ++ b)) =
      sorted (found cs start a) ++ (sorted (found (missing cs start a) 0 b)).map (Heading.shift a.length) := by
  have hmissing : (missing cs start a).Nodup := hcs.filter _
  rw [sorted_append (found_append h hstart) (distinct_found hcs start a)
    ((distinct_found hmissing 0 b).map_shift a.length), sorted_map_shift (distinct_found hmissing 0 b)]
  intro k hk l hl
  obtain ⟨l, -, rfl⟩ := List.mem_map.mp hl
  have hinside := (of_mem_found hk).2
  show k.start < a.length + l.start
  have hlt := hinside.start_lt
  have hle := hinside.stop_le
  omega

/-- The headings of a statement are SELECT and what is found behind it. -/
theorem headings?_eq (m : List Char) : headings? m =
    (heading? .select 0 m).map fun first => first :: sorted (found Clause.followers first.stop m) := by
  cases hfirst : heading? .select 0 m with
  | none => rw [headings?, hfirst]; rfl
  | some first =>
    have hall : headings? m = some (sorted (first :: found Clause.followers first.stop m)) := by
      rw [headings?, hfirst]
      rfl
    have hlt := (isHeading_of_heading? hfirst).start_lt
    have hsorted : sorted (first :: found Clause.followers first.stop m) =
        sorted [first] ++ sorted (found Clause.followers first.stop m) := by
      refine sorted_append (List.Perm.refl _) (List.pairwise_singleton _ _) (distinct_found (by decide) _ m) ?_
      intro k hk l hl
      have hle := (of_mem_found hl).2.from_le
      rw [List.mem_singleton.mp hk]
      omega
    rw [hall, hsorted, sorted_singleton]
    rfl

theorem headings?_append (h : Seam a b) {first : Heading} (hfirst : heading? .select 0 a = some first) :
    headings? (a ++ b) = some (first :: sorted (found Clause.followers first.stop a) ++
      (sorted (found (missing Clause.followers first.stop a) 0 b)).map (Heading.shift a.length)) := by
  rw [headings?_eq, heading?_append h (Nat.zero_le _), hfirst, Option.some_or, Option.map_some,
    sorted_found_append h (isHeading_of_heading? hfirst).stop_le (by decide)]
  rfl

theorem heading?_blank {gap : List Char} (hgap : ∀ c ∈ gap, isBlank c) (c : Clause) (start : Nat) :
    heading? c start gap = none := by
  rw [Option.eq_none_iff_forall_ne_some]
  intro h hh
  obtain ⟨pre, x, post, rfl, -, hx, -⟩ := (isHeading_of_heading? hh).stands
  have hblank := isBlank_of_isKeyLetter_fold (c.word_letters.2 (fold x) (List.mem_of_mem_head? hx.symm))
  rw [hgap x (by simp)] at hblank
  cases hblank

/-- What can be said of the first letter of a clause that follows SELECT. -/
structure Clause.IsFirstLetter (x : Char) : Prop where
  not_blank : isBlank x = false
  not_quote : isQuote x = false
  not_masked : x ≠ '_'
  next : fold x ≠ 'b' ∧ x ≠ '(' ∧ x ≠ ')'

theorem Clause.of_first_letter {c : Clause} (hc : c ∈ Clause.followers) {x : Char}
    (hx : some (fold x) = c.word.toList.head?) : Clause.IsFirstLetter x := by
  have hletters : ∀ c ∈ Clause.followers, ∀ l ∈ c.word.toList.head?,
      l ≠ 'b' ∧ isKeyLetter l ∧ l ≠ '_' ∧ l ≠ '\'' ∧ l ≠ '"' := by decide
  obtain ⟨hby, hkey, hmasked, hsingle, hdouble⟩ := hletters c hc (fold x) hx.symm
  refine ⟨isBlank_of_isKeyLetter_fold hkey, ?_, ?_, hby, ?_, ?_⟩
  · rw [← Bool.not_eq_true]
    intro hquote
    exact of_isQuote (P := fun x => ¬ (fold x ≠ '\'' ∧ fold x ≠ '"')) (by decide) (by decide) hquote ⟨hsingle, hdouble⟩
  · rintro rfl
    exact hmasked (by decide)
  · rintro rfl
    exact absurd hkey (by decide)
  · rintro rfl
    exact absurd hkey (by decide)

/-- A text that starts with the keyword of a clause goes on with neither a `by` nor a parenthesis. -/
theorem next_of_heading? {c : Clause} (hc : c ∈ Clause.followers) {k : Heading} (hk : heading? c 0 m = some k)
    (hzero : k.start = 0) : ∀ d ∈ (m.dropWhile isBlank).head?, fold d ≠ 'b' ∧ d ≠ '(' ∧ d ≠ ')' := by
  obtain ⟨a, x, post, rfl, ha, hx, -⟩ := (isHeading_of_heading? hk).stands
  rw [hzero, List.length_eq_zero_iff] at ha
  have hletter := Clause.of_first_letter hc hx
  rw [ha, List.nil_append, List.dropWhile_cons_of_neg (by rw [hletter.not_blank]; exact Bool.false_ne_true)]
  rintro y ⟨⟩
  exact hletter.next

/-- A clause whose keyword is nowhere in a text is missing from any place on. -/
theorem mem_missing {c : Clause} (hc : c ∈ cs) (hnone : heading? c 0 m = none) (start : Nat) :
    c ∈ missing cs start m := by
  refine List.mem_filter.mpr ⟨hc, ?_⟩
  rw [heading?_eq_none hnone]
  rfl

/-! ## A place for a clause -/

/-- White space between two parts of a statement: the second starts with a clause that the first does not have,
or is empty, and neither has an ORDER BY. -/
structure Parting (pre gap rest : List Char) : Prop where
  closed : Closed pre
  level : depthAfter 0 (mask pre) = 0
  select : (heading? .select 0 (mask pre)).isSome
  blank : ∀ c ∈ gap, isBlank c
  apart : wordStart pre.getLast? ∨ endsWord (gap ++ rest)
  starts : rest = [] ∨ ∃ c ∈ Clause.followers, heading? c 0 (mask pre) = none ∧
    ∃ h, heading? c 0 (mask rest) = some h ∧ h.start = 0
  unordered : heading? .ordering 0 (mask pre) = none ∧ heading? .ordering 0 (mask rest) = none

namespace Parting

variable {pre gap rest : List Char}

theorem next (h : Parting pre gap rest) :
    ∀ c ∈ ((mask rest).dropWhile isBlank).head?, fold c ≠ 'b' ∧ c ≠ '(' ∧ c ≠ ')' := by
  rcases h.starts with rfl | ⟨c, hc, -, k, hk, hstart⟩
  · exact nofun
  · exact next_of_heading? hc hk hstart

/-- What ends outside of words and parentheses may stand before the second part. -/
theorem seam (h : Parting pre gap rest) {m : List Char} (hlevel : depthAfter 0 m = 0)
    (hm : wordStart m.getLast? ∨ endsWord rest) : Seam m (mask rest) := by
  refine ⟨hm.imp_right fun hends => ?_, h.next, hlevel⟩
  rwa [endsWord, head?_mask]

/-- The white space between the parts is no part of the first. -/
theorem seam_gap (h : Parting pre gap rest) : Seam (mask pre) (gap ++ mask rest) := by
  refine ⟨?_, ?_, h.level⟩
  · rw [getLast?_mask h.closed]
    refine h.apart.imp_right fun hends => ?_
    have hhead : (gap ++ mask rest).head? = (gap ++ rest).head? := by
      rw [List.head?_append, List.head?_append, head?_mask]
    rwa [endsWord, hhead]
  · rw [List.dropWhile_append_of_pos h.blank]
    exact h.next

/-- Nor is it of the second. -/
theorem gap_seam (h : Parting pre gap rest) : Seam gap (mask rest) :=
  h.seam (depthAfter_of_blank h.blank 0) (Or.inl (by rw [← lastOr_none]; exact wordStart_of_blank h.blank))

theorem mask_eq (h : Parting pre gap rest) : mask (pre ++ (gap ++ rest)) = mask pre ++ (gap ++ mask rest) := by
  rw [mask_append h.closed, mask_append (closed_of_blank h.blank), mask_of_blank h.blank]

/-- The headings of the second part are those of clauses that the first does not have. -/
def later (first : Heading) (pre rest : List Char) : List Heading :=
  sorted (found (missing Clause.followers first.stop (mask pre)) 0 (mask rest))

/-- The headings of the first part. -/
def earlier (first : Heading) (pre : List Char) : List Heading :=
  first :: sorted (found Clause.followers first.stop (mask pre))

variable {first : Heading}

theorem headings?_eq (h : Parting pre gap rest) (hfirst : heading? .select 0 (mask pre) = some first) :
    headings? (mask (pre ++ (gap ++ rest))) =
      some (earlier first pre ++ (later first pre rest).map (Heading.shift (pre ++ gap).length)) := by
  have hgap : found (missing Clause.followers first.stop (mask pre)) 0 gap = [] := by
    rw [found, List.filterMap_eq_nil_iff]
    exact fun c _ => heading?_blank h.blank c 0
  have hmissing : missing (missing Clause.followers first.stop (mask pre)) 0 gap =
      missing Clause.followers first.stop (mask pre) := by
    rw [missing, List.filter_eq_self]
    intro c _
    rw [heading?_blank h.blank c 0]
    rfl
  have hnodup : (missing Clause.followers first.stop (mask pre)).Nodup := List.Nodup.filter _ (by decide)
  rw [h.mask_eq, headings?_append h.seam_gap hfirst, sorted_found_append h.gap_seam (Nat.zero_le _) hnodup, hgap, hmissing,
    sorted_nil, List.nil_append, map_shift_shift, List.length_append, length_mask]
  rfl

end Parting

/-! ## The clause -/

section line

variable {inner : List Char → Prop} {body gap : List Char}

/-- In the text of a clause nothing else starts. -/
theorem heading?_section (hbody : IsBody inner body) (k : Clause) {c : Clause} (hc : c ∈ Clause.followers) :
    heading? c 0 (mask (sectionText [(k, body)])) = if c = k then some ⟨k, 0, k.title.toList.length⟩ else none := by
  have hsections : ∀ s ∈ [(k, body)], IsBody inner s.2 := List.forall_mem_singleton.mpr hbody
  rw [heading?_eq_headingFrom, headingFrom_sections hc hsections rfl (Nat.le_refl 0) fun _ => by simp]
  by_cases heq : c = k
  · rw [if_pos heq, heq, headingsOf, List.find?_cons_of_pos (by simp), Nat.zero_add]
  · rw [if_neg heq, headingsOf, headingsOf, List.find?_cons_of_neg (by simpa using fun h => heq h.symm)]
    rfl

end line

/-- Of a list without repetitions one element is kept. -/
theorem filterMap_ite_eq {α β : Type} [DecidableEq α] {as : List α} {a : α} (hnodup : as.Nodup) (ha : a ∈ as) (b : β) :
    as.filterMap (fun x => if x = a then some b else none) = [b] := by
  induction as with
  | nil => cases ha
  | cons x as ih =>
    obtain ⟨hx, hnodup⟩ := List.nodup_cons.mp hnodup
    rw [List.filterMap_cons]
    by_cases hxa : x = a
    · have hnone : as.filterMap (fun x => if x = a then some b else none) = [] := by
        rw [List.filterMap_eq_nil_iff]
        intro y hy
        exact if_neg fun hya => hx (by rw [hxa, ← hya]; exact hy)
      simp only [hxa, if_true, hnone]
    · simp only [hxa, if_false]
      exact ih hnodup ((List.mem_cons.mp ha).resolve_left (Ne.symm hxa))

namespace Parting

variable {inner : List Char → Prop} {pre gap rest body t m : List Char} {first : Heading}

/-- The headings of the first part lie in it. -/
theorem inside_earlier (hfirst : heading? .select 0 (mask pre) = some first) :
    ∀ k ∈ earlier first pre, k.start ≤ pre.length ∧ k.stop ≤ pre.length := by
  have hinside {c : Clause} {start : Nat} {k : Heading} (hk : IsHeading c start (mask pre) k) :
      k.start ≤ pre.length ∧ k.stop ≤ pre.length := by
    have hlt := hk.start_lt
    have hle := hk.stop_le
    rw [length_mask] at hle
    omega
  intro k hk
  rcases List.mem_cons.mp hk with rfl | hk
  · exact hinside (isHeading_of_heading? hfirst)
  · exact hinside (of_mem_found ((sorted_perm _).subset hk)).2

end Parting

end MetricLayer.Sql
