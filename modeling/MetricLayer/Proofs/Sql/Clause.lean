import MetricLayer.Proofs.Sql.Layout
import MetricLayer.Sql.Clause

/-!
# Reading sections back

A statement is written as sections, each the title of a clause and its body.  `clauses?` finds every
section again with its body trimmed (`clauses?_sections`), when the bodies have a layout in which no
word clashes with the keyword of a later clause and the clauses come in their order.

The search for a keyword passes over everything that has such a layout (`headingFrom_layout`), so it
meets the titles only.
-/

namespace MetricLayer.Sql

open MetricLayer.Text

/-- Nothing is cut off a text with neither white space nor a semicolon at its end. -/
theorem statement_eq_self {cs : List Char} (htrim : Trimmed cs) (hends : ∀ c ∈ cs.getLast?, c ≠ ';') :
    statement cs = cs := by
  have hsemicolon : dropEndWhile (· == ';') cs = cs :=
    dropEndWhile_eq_self fun c hc => beq_eq_false_iff_ne.mpr (hends c hc)
  rw [statement, trim_eq_self htrim, hsemicolon, trim_eq_self htrim]

theorem ne_semicolon_of_isQuote : ∀ q, isQuote q → (q == ';') = false :=
  fun _ => of_isQuote (P := fun q => (q == ';') = false) (by decide) (by decide)

theorem closed_statement {cs : List Char} (h : Closed cs) : Closed (statement cs) :=
  closed_trim (dropEndWhile_mask ne_semicolon_of_isQuote (closed_trim h)).2

/-! ## Searching a keyword -/

namespace Clause

/-- The first word of a clause's keyword. -/
def word (c : Clause) : String :=
  c.keyword.1

theorem after?_of_clash {c : Clause} {n : Nat} {b : Option Char} {x : Char} {xs : List Char}
    (h : wordStart b → clash c.word.toList (x :: xs) = false) : c.after? ⟨n, b, x :: xs⟩ = none := by
  by_cases hb : wordStart b
  · have hletters : letters? c.word.toList (x :: xs) = none := by
      have := letters?_eq_none_of_clash (h hb) []
      rwa [List.append_nil] at this
    cases c <;> simp only [word, keyword] at hletters <;>
      simp only [after?, keyword, Place.keyword?, hletters, Option.filter_none, ite_self]
  · rw [← startsWord_mk n b (x :: xs), Bool.not_eq_true] at hb
    cases c <;> simp only [after?, keyword, Place.keyword?, hb, Bool.false_eq_true, if_false]

theorem after?_title {n : Nat} {b : Option Char} {body : List Char} (c : Clause) (hb : wordStart b)
    (hbody : endsWord body) : c.after? ⟨n, b, c.title.toList ++ body⟩ = some body := by
  have hstart (cs : List Char) : Place.startsWord ⟨n, b, cs⟩ = true := hb
  cases c <;> simp only [after?, keyword, Place.keyword?, hstart, if_true] <;>
    exact Option.filter_eq_some_iff.mpr ⟨rfl, hbody⟩

end Clause

/-- The first keyword of a clause in the rest of a masked text of length `total`. -/
def headingFrom (c : Clause) (start total n : Nat) (b : Option Char) (d : Nat) (m : List Char) :
    Option Heading :=
  ((placesFrom n b m).zip (depthsFrom d m)).findSome? fun (p, depth) =>
    if start ≤ p.offset ∧ depth = 0 then
      (c.after? p).map fun rest => ⟨c, p.offset, total - rest.length⟩
    else none

theorem heading?_eq_headingFrom (c : Clause) (start : Nat) (m : List Char) :
    heading? c start m = headingFrom c start m.length 0 none 0 m := rfl

section search

variable {c : Clause} {start total n d e : Nat} {b : Option Char} {x : Char} {m rest : List Char}

theorem headingFrom_char (hopen : x ≠ '(') (hclose : x ≠ ')')
    (h : c.after? ⟨n, b, x :: m⟩ = none ∨ d ≠ 0) :
    headingFrom c start total n b d (x :: m) = headingFrom c start total (n + 1) (some x) d m := by
  rw [headingFrom, placesFrom, depthsFrom, if_neg hopen, if_neg hclose, List.zip_cons_cons,
    List.findSome?_cons]
  rcases h with h | h
  · simp [h, headingFrom]
  · simp [h, headingFrom]

theorem headingFrom_open :
    headingFrom c start total n b d ('(' :: m) =
      headingFrom c start total (n + 1) (some '(') (d + 1) m := by
  have h : c.after? ⟨n, b, '(' :: m⟩ = none :=
    Clause.after?_of_clash fun _ => clash_append (a := ['(']) (by cases c <;> rfl) m
  rw [headingFrom, placesFrom, depthsFrom, if_pos rfl, List.zip_cons_cons, List.findSome?_cons]
  simp [h, headingFrom]

theorem headingFrom_close :
    headingFrom c start total n b d (')' :: m) =
      headingFrom c start total (n + 1) (some ')') (d - 1) m := by
  have h : c.after? ⟨n, b, ')' :: m⟩ = none :=
    Clause.after?_of_clash fun _ => clash_append (a := [')']) (by cases c <;> rfl) m
  rw [headingFrom, placesFrom, depthsFrom, if_neg (by decide), if_pos rfl, List.zip_cons_cons,
    List.findSome?_cons]
  simp [h, headingFrom]

theorem headingFrom_found (hstart : start ≤ n) (h : c.after? ⟨n, b, x :: m⟩ = some rest) :
    headingFrom c start total n b 0 (x :: m) = some ⟨c, n, total - rest.length⟩ := by
  have hdepth : ∃ ds, depthsFrom 0 (x :: m) = 0 :: ds := by
    rw [depthsFrom]
    split_ifs <;> exact ⟨_, rfl⟩
  obtain ⟨ds, hds⟩ := hdepth
  rw [headingFrom, placesFrom, hds, List.zip_cons_cons, List.findSome?_cons]
  simp [hstart, h]

/-- Nothing inside parentheses is a heading. -/
theorem headingFrom_inside (h : depthAfter? d m = some e) (rest : List Char) :
    headingFrom c start total n b (d + 1) (m ++ rest) =
      headingFrom c start total (n + m.length) (lastOr b m) (e + 1) rest := by
  induction m generalizing n b d with
  | nil =>
    cases h
    rfl
  | cons x m ih =>
    rw [depthAfter?] at h
    rw [List.cons_append, List.length_cons, ← Nat.add_assoc, Nat.add_right_comm, lastOr_cons]
    split_ifs at h with h1 h2 h3
    · subst h1
      rw [headingFrom_open, ih h]
    · subst h2
      rw [headingFrom_close, show d + 1 - 1 = d - 1 + 1 by omega, ih h]
    · rw [headingFrom_char h1 h2 (Or.inr (by omega)), ih h]

/-- A heading is searched past everything whose words do not clash with its keyword. -/
theorem headingFrom_layout {names : List String} {plain : Char → Prop} {inner : List Char → Prop}
    (hc : c.word ∈ names) (h : Layout names plain inner b m) (rest : List Char) :
    headingFrom c start total n b 0 (m ++ rest) =
      headingFrom c start total (n + m.length) (lastOr b m) 0 rest := by
  induction h generalizing n with
  | nil => rfl
  | @char b x m _ hopen hclose hquiet _ ih =>
    have hnone : c.after? ⟨n, b, x :: (m ++ rest)⟩ = none :=
      Clause.after?_of_clash fun hb => clash_append (hquiet hb _ hc) rest
    rw [List.cons_append, headingFrom_char hopen hclose (Or.inl hnone), ih, List.length_cons,
      lastOr_cons, Nat.add_assoc, Nat.add_comm 1]
  | @group b body m hbody _ _ ih =>
    rw [List.cons_append, List.append_assoc, headingFrom_open, headingFrom_inside hbody,
      List.cons_append, headingFrom_close, ih, lastOr_cons, lastOr_append, lastOr_cons,
      List.length_cons, List.length_append, List.length_cons]
    congr 1
    omega

end search

/-! ## Sections -/

/-- A section as it is written. -/
def written (s : Clause × List Char) : List Char :=
  s.1.title.toList ++ s.2

/-- Sections, one a line. -/
def sectionText (secs : List (Clause × List Char)) : List Char :=
  List.intercalate ['\n'] (secs.map written)

/-- Where the titles of sections stand, from an offset on. -/
def headingsOf : Nat → List (Clause × List Char) → List Heading
  | _, [] => []
  | n, s :: secs =>
    ⟨s.1, n, n + s.1.title.toList.length⟩ :: headingsOf (n + (written s).length + 1) secs

/-- The first words of the clauses after SELECT. -/
def clauseWords : List String :=
  Clause.followers.map Clause.word

/-- A body that holds no heading and does not run on from the title before it. -/
structure IsBody (inner : List Char → Prop) (body : List Char) : Prop where
  laid : Laid clauseWords (fun _ => True) inner body
  endsWord : endsWord body

variable {inner : List Char → Prop}

theorem closed_title (c : Clause) : Closed c.title.toList := by
  cases c <;> rfl

theorem mask_title_append (c : Clause) (cs : List Char) :
    mask (c.title.toList ++ cs) = c.title.toList ++ mask cs := by
  rw [mask_append (closed_title c)]
  cases c <;> rfl

/-- The title of another clause holds no keyword of a clause after SELECT. -/
theorem title_layout {c c' : Clause} (hc : c ∈ Clause.followers) (hne : c' ≠ c) :
    Layout [c.word] (fun _ => True) inner none c'.title.toList := by
  have h : isLaidOut [c.word] (fun _ => true) none c'.title.toList := by
    revert hc hne
    cases c <;> cases c' <;> decide
  exact (layout_of_isLaidOut h).mono (fun _ => id) (fun _ _ => trivial) fun _ => id

theorem sectionText_cons (s : Clause × List Char) {secs : List (Clause × List Char)}
    (h : secs ≠ []) : sectionText (s :: secs) = written s ++ '\n' :: sectionText secs := by
  cases secs with
  | nil => exact absurd rfl h
  | cons t secs => simp [sectionText]

theorem written_closed {s : Clause × List Char} (h : IsBody inner s.2) : Closed (written s) :=
  (closed_title s.1).append h.laid.closed

theorem mask_sectionText_cons {s : Clause × List Char} (hs : IsBody inner s.2)
    {secs : List (Clause × List Char)} (h : secs ≠ []) :
    mask (sectionText (s :: secs)) =
      s.1.title.toList ++ (mask s.2 ++ '\n' :: mask (sectionText secs)) := by
  rw [sectionText_cons s h, mask_append (written_closed hs), written, mask_title_append,
    List.append_assoc]
  rfl

theorem mask_sectionText {s : Clause × List Char} (hs : IsBody inner s.2)
    (secs : List (Clause × List Char)) :
    ∃ tail, mask (sectionText (s :: secs)) = s.1.title.toList ++ tail ∧ endsWord tail := by
  have hbody : endsWord (mask s.2) := by
    have h := hs.endsWord
    cases hbody : s.2 with
    | nil => rfl
    | cons c body =>
      rw [hbody] at h
      exact h
  cases secs with
  | nil =>
    refine ⟨mask s.2, ?_, hbody⟩
    rw [sectionText, List.map_singleton, List.intercalate_singleton, written, mask_title_append]
  | cons t secs =>
    refine ⟨_, mask_sectionText_cons hs (List.cons_ne_nil _ _), ?_⟩
    cases hm : mask s.2 with
    | nil => rfl
    | cons c m =>
      rw [endsWord_append (List.cons_ne_nil _ _), ← hm]
      exact hbody

theorem section_layout {c : Clause} {s : Clause × List Char} (hc : c ∈ Clause.followers)
    (hne : s.1 ≠ c) (hs : IsBody inner s.2) :
    Layout [c.word] (fun _ => True) inner none (s.1.title.toList ++ mask s.2) := by
  have hword : [c.word] ⊆ clauseWords := by
    rw [List.cons_subset]
    exact ⟨List.mem_map_of_mem hc, List.nil_subset _⟩
  exact (title_layout hc hne).append_of_start (hs.laid.layout.mono hword (fun _ => id) fun _ => id)

theorem headingFrom_section_cons {c : Clause} {start total n : Nat} {b : Option Char}
    {s : Clause × List Char} (hc : c ∈ Clause.followers) (hne : s.1 ≠ c) (hs : IsBody inner s.2)
    (secs : List (Clause × List Char)) :
    headingFrom c start total n b 0 (mask (sectionText (s :: secs))) =
      headingFrom c start total (n + (written s).length + 1) (some '\n') 0
        (mask (sectionText secs)) := by
  have hlayout := (section_layout hc hne hs).after b
  cases secs with
  | nil =>
    have hmask : mask (sectionText [s]) = s.1.title.toList ++ mask s.2 ++ [] := by
      rw [sectionText, List.map_singleton, List.intercalate_singleton, written, mask_title_append,
        List.append_nil]
    rw [hmask, headingFrom_layout List.mem_cons_self hlayout]
    rfl
  | cons t secs =>
    have hbreak (k : Nat) (b : Option Char) (m : List Char) : c.after? ⟨k, b, '\n' :: m⟩ = none :=
      Clause.after?_of_clash fun _ => clash_append (a := ['\n']) (by cases c <;> rfl) m
    have hlength : (written s).length = (s.1.title.toList ++ mask s.2).length := by
      simp [written]
    rw [mask_sectionText_cons hs (List.cons_ne_nil _ _), ← List.append_assoc,
      headingFrom_layout List.mem_cons_self hlayout,
      headingFrom_char (by decide) (by decide) (Or.inl (hbreak _ _ _)), ← hlength]

theorem headingFrom_title {start total n : Nat} {b : Option Char} {s : Clause × List Char}
    (hs : IsBody inner s.2) (secs : List (Clause × List Char)) (hb : wordStart b) (hstart : start ≤ n)
    (htotal : total = n + (sectionText (s :: secs)).length) :
    headingFrom s.1 start total n b 0 (mask (sectionText (s :: secs))) =
      some ⟨s.1, n, n + s.1.title.toList.length⟩ := by
  obtain ⟨tail, htail, hends⟩ := mask_sectionText hs secs
  obtain ⟨x, xs, hx⟩ : ∃ x xs, s.1.title.toList ++ tail = x :: xs := by
    cases s.1 <;> exact ⟨_, _, rfl⟩
  have hlength : (sectionText (s :: secs)).length = s.1.title.toList.length + tail.length := by
    rw [← length_mask, htail, List.length_append]
  have hstop : total - tail.length = n + s.1.title.toList.length := by omega
  rw [htail, hx, headingFrom_found hstart (by rw [← hx]; exact s.1.after?_title hb hends), hstop]

theorem headingFrom_sections {c : Clause} {start total n : Nat} {b : Option Char}
    (hc : c ∈ Clause.followers) {secs : List (Clause × List Char)}
    (hsecs : ∀ s ∈ secs, IsBody inner s.2) (hb : wordStart b) (hstart : start ≤ n)
    (htotal : secs ≠ [] → total = n + (sectionText secs).length) :
    headingFrom c start total n b 0 (mask (sectionText secs)) =
      (headingsOf n secs).find? fun h => h.clause = c := by
  induction secs generalizing n b with
  | nil => rfl
  | cons s secs ih =>
    have hs := hsecs s List.mem_cons_self
    have htotal := htotal (List.cons_ne_nil _ _)
    rw [headingsOf, List.find?_cons]
    by_cases hne : s.1 = c
    · rw [← hne, headingFrom_title hs secs hb hstart htotal, decide_eq_true rfl]
    · rw [headingFrom_section_cons hc hne hs, decide_eq_false hne]
      refine ih (fun r hr => hsecs r (List.mem_cons_of_mem s hr)) rfl (by omega) fun hsecs => ?_
      rw [htotal, sectionText_cons s hsecs, List.length_append, List.length_cons]
      omega

/-! ## Reading sections -/

/-- Looking every key of an ordered list up finds the list again. -/
theorem filterMap_find?_of_sublist {α κ : Type} [DecidableEq κ] (key : α → κ) {keys : List κ}
    (hnodup : keys.Nodup) {xs : List α} (h : (xs.map key).Sublist keys) :
    keys.filterMap (fun k => xs.find? fun x => key x = k) = xs := by
  induction keys generalizing xs with
  | nil => rw [List.map_eq_nil_iff.mp (List.sublist_nil.mp h), List.filterMap_nil]
  | cons k keys ih =>
    obtain ⟨hk, hnodup⟩ := List.nodup_cons.mp hnodup
    cases xs with
    | nil => simp
    | cons x xs =>
      rw [List.filterMap_cons]
      by_cases hx : key x = k
      · -- the first key finds the first element, and no later key does
        have hlater : ∀ k' ∈ keys, (x :: xs).find? (fun y => decide (key y = k')) =
            xs.find? fun y => decide (key y = k') := by
          intro k' hk'
          rw [List.find?_cons_of_neg]
          rintro hx'
          exact hk ((hx.symm.trans (of_decide_eq_true hx')) ▸ hk')
        rw [List.map_cons, hx] at h
        have hfirst : (x :: xs).find? (fun y => decide (key y = k)) = some x :=
          List.find?_cons_of_pos (decide_eq_true hx)
        rw [hfirst, List.filterMap_congr hlater, ih hnodup (List.cons_sublist_cons.mp h)]
      · have hsub : ((x :: xs).map key).Sublist keys := by
          rcases List.sublist_cons_iff.mp h with h | ⟨r, hr, -⟩
          · exact h
          · exact absurd (List.cons.inj hr).1 hx
        have hnone : (x :: xs).find? (fun y => decide (key y = k)) = none := by
          rw [List.find?_eq_none]
          intro y hy
          rw [decide_eq_true_iff]
          rintro rfl
          exact hk (hsub.mem (List.mem_map_of_mem hy))
        rw [hnone]
        exact ih hnodup hsub

theorem map_clause_headingsOf (n : Nat) (secs : List (Clause × List Char)) :
    (headingsOf n secs).map Heading.clause = secs.map Prod.fst := by
  induction secs generalizing n with
  | nil => rfl
  | cons s secs ih => rw [headingsOf, List.map_cons, List.map_cons, ih]

theorem le_start_of_mem_headingsOf {n : Nat} {secs : List (Clause × List Char)} {h : Heading}
    (hmem : h ∈ headingsOf n secs) : n ≤ h.start := by
  induction secs generalizing n with
  | nil => cases hmem
  | cons s secs ih =>
    rcases List.mem_cons.mp hmem with rfl | hmem
    · exact Nat.le_refl n
    · have := ih hmem
      omega

theorem pairwise_headingsOf (n : Nat) (secs : List (Clause × List Char)) :
    (headingsOf n secs).Pairwise fun a b => decide (a.start ≤ b.start) = true := by
  induction secs generalizing n with
  | nil => exact List.Pairwise.nil
  | cons s secs ih =>
    refine List.Pairwise.cons (fun h hmem => ?_) (ih _)
    have := le_start_of_mem_headingsOf hmem
    exact decide_eq_true (show n ≤ h.start by omega)

section sections

variable {body : List Char} {secs : List (Clause × List Char)}

/-- The keyword of a clause after SELECT is found where its section starts. -/
theorem heading?_sections (hbody : IsBody inner body) (hsecs : ∀ s ∈ secs, IsBody inner s.2) {c : Clause}
    (hc : c ∈ Clause.followers) {start : Nat} (hstart : start ≤ (written (.select, body)).length + 1) :
    heading? c start (mask (sectionText ((.select, body) :: secs))) =
      (headingsOf (0 + (written (.select, body)).length + 1) secs).find? fun h => h.clause = c := by
  have hne : Clause.select ≠ c := by
    rintro rfl
    exact absurd hc (by decide)
  rw [heading?_eq_headingFrom, headingFrom_section_cons (s := (.select, body)) hc hne hbody]
  refine headingFrom_sections hc hsecs rfl (by omega) fun hne => ?_
  rw [length_mask, sectionText_cons _ hne, List.length_append, List.length_cons]
  omega

theorem headings?_sections (hbody : IsBody inner body) (hsecs : ∀ s ∈ secs, IsBody inner s.2)
    (horder : (secs.map Prod.fst).Sublist Clause.followers) :
    headings? (mask (sectionText ((.select, body) :: secs))) =
      some (headingsOf 0 ((.select, body) :: secs)) := by
  have hfirst : heading? .select 0 (mask (sectionText ((.select, body) :: secs))) =
      some ⟨.select, 0, 0 + Clause.select.title.toList.length⟩ := by
    rw [heading?_eq_headingFrom]
    exact headingFrom_title (s := (.select, body)) hbody secs wordStart_none (Nat.le_refl 0)
      ((length_mask _).trans (Nat.zero_add _).symm)
  have hothers : ∀ c ∈ Clause.followers,
      heading? c (0 + Clause.select.title.toList.length)
          (mask (sectionText ((.select, body) :: secs))) =
        (headingsOf (0 + (written (.select, body)).length + 1) secs).find? fun h => h.clause = c := by
    intro c hc
    refine heading?_sections hbody hsecs hc ?_
    show _ ≤ (Clause.select.title.toList ++ body).length + 1
    rw [List.length_append]
    omega
  have hsorted := pairwise_headingsOf 0 ((.select, body) :: secs)
  rw [headings?, hfirst]
  show some (List.mergeSort (_ :: Clause.followers.filterMap _) _) = _
  rw [List.filterMap_congr hothers, filterMap_find?_of_sublist Heading.clause (by decide)
    (by rw [map_clause_headingsOf]; exact horder)]
  exact congrArg some (List.mergeSort_of_pairwise hsorted)

/-- The clauses of a statement whose headings are known in their order. -/
theorem clauses?_of_headings {sql : List Char} (first : Heading) (others : List Heading)
    (hfirst : heading? .select 0 (mask sql) = some first)
    (hothers : (Clause.followers.filterMap fun c => heading? c first.stop (mask sql)) = others)
    (hsorted : (first :: others).Pairwise fun a b => a.start ≤ b.start) :
    clauses? sql = some (clauseTexts sql (first :: others)) := by
  have hmerged : (first :: others).mergeSort (fun a b => decide (a.start ≤ b.start)) = first :: others :=
    List.mergeSort_of_pairwise (by simpa only [decide_eq_true_eq] using hsorted)
  rw [clauses?, headings?, hfirst]
  show (some (List.mergeSort (_ :: Clause.followers.filterMap _) _)).map _ = _
  rw [hothers, hmerged]
  rfl

theorem clauseTexts_sections (pre : List Char) (secs : List (Clause × List Char)) :
    clauseTexts (pre ++ sectionText secs) (headingsOf pre.length secs) =
      secs.map fun s => (s.1, trim s.2) := by
  induction secs generalizing pre with
  | nil => rfl
  | cons s secs ih =>
    have hstop (more : List Char) :
        (pre ++ (s.1.title.toList ++ more)).drop (pre.length + s.1.title.toList.length) = more := by
      rw [← List.append_assoc, ← List.length_append, List.drop_left]
    cases secs with
    | nil =>
      show [(s.1, trim (List.drop _ (pre ++ sectionText [s])))] = [(s.1, trim s.2)]
      rw [sectionText, List.map_singleton, List.intercalate_singleton, written, hstop]
    | cons t secs =>
      have hnext : pre ++ sectionText (s :: t :: secs) =
          pre ++ written s ++ ['\n'] ++ sectionText (t :: secs) := by
        rw [sectionText_cons s (List.cons_ne_nil _ _)]
        simp
      have hlen : pre.length + (written s).length + 1 = (pre ++ written s ++ ['\n']).length := by
        simp [Nat.add_assoc]
      have hrest := ih (pre ++ written s ++ ['\n'])
      rw [← hnext, ← hlen] at hrest
      have hbody : (List.take (pre.length + (written s).length + 1)
          (pre ++ sectionText (s :: t :: secs))).drop (pre.length + s.1.title.toList.length) =
            s.2 ++ ['\n'] := by
        rw [hnext, hlen, List.take_left, written, List.append_assoc, List.append_assoc,
          hstop]
      rw [headingsOf, List.map_cons, ← hrest]
      show (s.1, trim _) :: _ = _
      rw [hbody, trim_append_blank _ (by decide)]
      rfl

/-- **Sections are read back with their bodies trimmed.** -/
theorem clauses?_sections (hbody : IsBody inner body) (hsecs : ∀ s ∈ secs, IsBody inner s.2)
    (horder : (secs.map Prod.fst).Sublist Clause.followers) :
    clauses? (sectionText ((.select, body) :: secs)) =
      some (((.select, body) :: secs).map fun s => (s.1, trim s.2)) := by
  rw [clauses?, headings?_sections hbody hsecs horder, Option.map_some]
  exact congrArg some (clauseTexts_sections [] _)

end sections

end MetricLayer.Sql
