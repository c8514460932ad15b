import MetricLayer.Proofs.Sql.Call
import MetricLayer.Proofs.Sql.Clause

/-!
# Searching a text in two pieces

A search for keywords or calls over a text in two pieces is a search over both, when nothing that is searched
runs across the seam: no word does, and the second piece goes on neither with a `by` nor with a parenthesis
(`Seam`).  The keyword of a clause is then the one in the first piece, or else the one in the second
(`heading?_append`), and a call stands in one of them (`calls_append`).
-/

namespace MetricLayer.Sql

open MetricLayer.Text

/-! ## Seams -/

/-- Nothing that is searched runs from one masked text into the next, and the next starts outside of
parentheses. -/
structure Seam (a b : List Char) : Prop where
  apart : wordStart a.getLast? ∨ endsWord b
  next : ∀ c ∈ (b.dropWhile isBlank).head?, fold c ≠ 'b' ∧ c ≠ '(' ∧ c ≠ ')'
  level : depthAfter 0 a = 0

variable {a b : List Char}

/-- White space may follow, and stand between. -/
theorem Seam.blank_append {gap : List Char} (hgap : ∀ c ∈ gap, isBlank c) (hlevel : depthAfter 0 a = 0)
    (hapart : wordStart a.getLast? ∨ endsWord (gap ++ b))
    (hnext : ∀ c ∈ (b.dropWhile isBlank).head?, fold c ≠ 'b' ∧ c ≠ '(' ∧ c ≠ ')') : Seam a (gap ++ b) :=
  ⟨hapart, by rw [List.dropWhile_append_of_pos hgap]; exact hnext, hlevel⟩

theorem not_isKeyLetter_of_isWord_eq_false {c : Char} (h : isWord c = false) : isKeyLetter (fold c) = false := by
  by_contra hkey
  rw [isWord_of_isKeyLetter_fold ((Bool.not_eq_false _).mp hkey)] at h
  cases h

theorem isWord_eq_false_of_endsWord {c : Char} {cs : List Char} (h : endsWord (c :: cs)) : isWord c = false := by
  simpa [endsWord] using h

/-- Letters are read in the first piece, when no word runs across. -/
theorem letters?_append_of_apart {ks y : List Char} (hks : ∀ k ∈ ks, isKeyLetter k) (hy : y ≠ [])
    (hapart : wordStart y.getLast? ∨ endsWord b) :
    letters? ks (y ++ b) = (letters? ks y).map (· ++ b) := by
  induction ks generalizing y with
  | nil => rfl
  | cons k ks ih =>
    obtain ⟨c, y, rfl⟩ := List.exists_cons_of_ne_nil hy
    rw [List.cons_append, letters?, letters?]
    split_ifs with hc
    · cases y with
      | cons d y => exact ih (fun k hk => hks k (List.mem_cons_of_mem _ hk)) (List.cons_ne_nil d y) hapart
      | nil =>
        have hword : isWord c :=
          isWord_of_isKeyLetter_fold (hc ▸ hks k List.mem_cons_self)
        have hends : endsWord b := by
          refine hapart.resolve_left ?_
          simp [wordStart, hword]
        rw [List.nil_append]
        cases ks with
        | nil => rfl
        | cons l ks =>
          cases b with
          | nil => rfl
          | cons e b =>
            have hl := hks l (List.mem_cons_of_mem k List.mem_cons_self)
            have he := not_isKeyLetter_of_isWord_eq_false (isWord_eq_false_of_endsWord hends)
            rw [letters?, letters?, if_neg]
            · rfl
            · rintro rfl
              rw [hl] at he
              cases he
    · rfl

/-- What is left of the first piece behind a keyword does not run on into the second either. -/
def Apart (rest b : List Char) : Prop :=
  endsWord b ∨ rest ≠ [] ∧ wordStart rest.getLast?

theorem Apart.of_letters? {ks y rest : List Char} (hks : ∀ k ∈ ks, isKeyLetter k) (hne : ks ≠ [])
    (h : letters? ks y = some rest) (hapart : wordStart y.getLast? ∨ endsWord b) : Apart rest b := by
  refine hapart.symm.imp_right fun hstart => ?_
  obtain ⟨w, rfl, hw⟩ := letters?_eq_some_iff.mp h
  by_cases hrest : rest = []
  · -- the first piece would end in the keyword
    obtain ⟨init, c, rfl⟩ := (List.eq_nil_or_concat' w).resolve_left fun hnil => hne (by rw [← hw, hnil]; rfl)
    have hkey : isKeyLetter (fold c) := hks _ (hw ▸ List.mem_map_of_mem (by simp))
    rw [hrest, List.append_nil, List.getLast?_concat] at hstart
    simp [wordStart, isWord_of_isKeyLetter_fold hkey] at hstart
  · rw [List.getLast?_append_of_ne_nil w hrest] at hstart
    exact ⟨hrest, hstart⟩

theorem Apart.endsWord_append {rest : List Char} (h : Apart rest b) : endsWord (rest ++ b) = endsWord rest := by
  by_cases hrest : rest = []
  · rw [hrest, List.nil_append, h.resolve_right fun hne => hne.1 hrest]
    rfl
  · exact Text.endsWord_append hrest

theorem Apart.filter_endsWord {rest : List Char} (h : Apart rest b) :
    (some (rest ++ b)).filter endsWord = ((some rest).filter endsWord).map (· ++ b) := by
  simp only [Option.filter_some, h.endsWord_append]
  split_ifs <;> rfl

namespace Clause

theorem word_letters (c : Clause) : c.word.toList ≠ [] ∧ ∀ k ∈ c.word.toList, isKeyLetter k := by
  cases c <;> decide

/-- Reads the word that completes a keyword of two words. -/
def secondWord? : List Char → Option (List Char)
  | [] => none
  | d :: rest => if isBlank d then (letters? "by".toList (rest.dropWhile isBlank)).filter endsWord else none

/-- What follows a clause's keyword, from what follows its first word. -/
def completion? (c : Clause) (rest : List Char) : Option (List Char) :=
  if c.keyword.2.isSome then secondWord? rest else (some rest).filter endsWord

theorem after?_eq (c : Clause) (n : Nat) (before : Option Char) (y : List Char) :
    c.after? ⟨n, before, y⟩ =
      if wordStart before then (letters? c.word.toList y).bind c.completion? else none := by
  cases hword : letters? c.word.toList y with
  | none => cases c <;> simp only [word, keyword] at hword <;>
      simp only [after?, keyword, Place.keyword?, startsWord_mk, hword] <;> rfl
  | some rest => cases c <;> simp only [word, keyword] at hword <;>
      simp only [after?, keyword, Place.keyword?, startsWord_mk, hword] <;> cases rest <;> rfl

theorem letters?_by_eq_none (hnext : ∀ d ∈ (b.dropWhile isBlank).head?, fold d ≠ 'b') :
    letters? "by".toList (b.dropWhile isBlank) = none := by
  cases hb : b.dropWhile isBlank with
  | nil => rfl
  | cons d ds =>
    rw [hb] at hnext
    exact if_neg (hnext d rfl)

theorem secondWord?_eq_none (hnext : ∀ d ∈ (b.dropWhile isBlank).head?, fold d ≠ 'b') : secondWord? b = none := by
  cases b with
  | nil => rfl
  | cons d ds =>
    rw [secondWord?]
    split_ifs with hd
    · have hnone := letters?_by_eq_none hnext
      rw [List.dropWhile_cons_of_pos hd] at hnone
      rw [hnone]
      rfl
    · rfl

/-- The second word is read in the first piece, unless it starts the second. -/
theorem secondWord?_append {rest : List Char} (hapart : Apart rest b)
    (hnext : ∀ d ∈ (b.dropWhile isBlank).head?, fold d ≠ 'b') :
    secondWord? (rest ++ b) = (secondWord? rest).map (· ++ b) := by
  cases rest with
  | nil => exact secondWord?_eq_none hnext
  | cons d rest =>
    rw [List.cons_append, secondWord?, secondWord?]
    split_ifs with hd
    · rw [List.dropWhile_append]
      cases hrest : rest.dropWhile isBlank with
      | nil =>
        rw [List.isEmpty_nil, if_pos rfl, letters?_by_eq_none hnext]
        rfl
      | cons e es =>
        have hlast : (d :: rest).getLast? = (e :: es).getLast? := by
          have hsplit : d :: rest = (d :: rest.takeWhile isBlank) ++ e :: es := by
            rw [List.cons_append, ← hrest, List.takeWhile_append_dropWhile]
          rw [hsplit, List.getLast?_append_of_ne_nil _ (List.cons_ne_nil e es)]
        have hapart : wordStart (e :: es).getLast? ∨ endsWord b := hapart.symm.imp_left fun h => hlast ▸ h.2
        have hby : "by".toList ≠ [] ∧ ∀ k ∈ "by".toList, isKeyLetter k := by decide
        rw [List.isEmpty_cons, if_neg Bool.false_ne_true,
          letters?_append_of_apart hby.2 (List.cons_ne_nil e es) hapart]
        cases hletters : letters? "by".toList (e :: es) with
        | none => rfl
        | some after => exact (Apart.of_letters? hby.2 hby.1 hletters hapart).filter_endsWord
    · rfl

/-- The keyword of a clause is read in the first piece, unless it goes on in the second. -/
theorem after?_append {c : Clause} {n : Nat} {before : Option Char} {y : List Char} (hy : y ≠ [])
    (hapart : wordStart y.getLast? ∨ endsWord b) (hnext : ∀ d ∈ (b.dropWhile isBlank).head?, fold d ≠ 'b') :
    c.after? ⟨n, before, y ++ b⟩ = (c.after? ⟨n, before, y⟩).map (· ++ b) := by
  obtain ⟨hne, hletters⟩ := c.word_letters
  rw [after?_eq, after?_eq]
  split_ifs
  · rw [letters?_append_of_apart hletters hy hapart]
    cases hword : letters? c.word.toList y with
    | none => rfl
    | some rest =>
      have hrest := Apart.of_letters? hletters hne hword hapart
      simp only [Option.map_some, Option.bind_some, completion?]
      split_ifs
      · exact secondWord?_append hrest hnext
      · exact hrest.filter_endsWord
  · rfl

end Clause

/-! ## Keywords of clauses -/

theorem Clause.after?_suffix {c : Clause} {n : Nat} {before : Option Char} {y rest : List Char}
    (h : c.after? ⟨n, before, y⟩ = some rest) : ∃ x post, y = x :: post ∧ rest <:+ post ∧ some (fold x) = c.word.toList.head? := by
  rw [Clause.after?_eq] at h
  split at h
  next =>
    obtain ⟨after, hafter, hrest⟩ := Option.bind_eq_some_iff.mp h
    obtain ⟨w, rfl, hw⟩ := letters?_eq_some_iff.mp hafter
    have hsuffix : rest <:+ after := by
      rw [Clause.completion?] at hrest
      split at hrest
      · cases after with
        | nil => cases hrest
        | cons d ds =>
          rw [Clause.secondWord?] at hrest
          split at hrest
          · have hletters := isSuffix_of_letters? (Option.filter_eq_some_iff.mp hrest).1
            exact (hletters.trans (List.dropWhile_suffix isBlank)).trans (List.suffix_cons d ds)
          · cases hrest
      · obtain ⟨heq, -⟩ := Option.filter_eq_some_iff.mp hrest
        rw [Option.some.inj heq]
    cases w with
    | nil => exact absurd hw.symm c.word_letters.1
    | cons x w => exact ⟨x, w ++ after, rfl, hsuffix.trans (List.suffix_append w after), by rw [← hw]; rfl⟩
  next => cases h

/-- A heading with a text before it. -/
def Heading.shift (k : Nat) (h : Heading) : Heading :=
  ⟨h.clause, k + h.start, k + h.stop⟩

section heading

variable {c : Clause} {start total n d : Nat} {before : Option Char} {x : Char} {m : List Char}

theorem headingFrom_cons : headingFrom c start total n before d (x :: m) =
    (if start ≤ n ∧ depthAt d x = 0 then
        (c.after? ⟨n, before, x :: m⟩).map fun rest => (⟨c, n, total - rest.length⟩ : Heading)
      else none).or (headingFrom c start total (n + 1) (some x) (depthStep d x) m) := by
  rw [headingFrom, placesFrom, depthsFrom_cons, List.zip_cons_cons, List.findSome?_cons]
  cases hhere : (if start ≤ n ∧ depthAt d x = 0 then
      (c.after? ⟨n, before, x :: m⟩).map fun rest => (⟨c, n, total - rest.length⟩ : Heading)
    else none) with
  | none => simp only [hhere]; rfl
  | some h => simp only [hhere]; rfl

theorem headingFrom_append (hapart : wordStart a.getLast? ∨ endsWord b)
    (hnext : ∀ e ∈ (b.dropWhile isBlank).head?, fold e ≠ 'b') :
    headingFrom c start (total + b.length) n before d (a ++ b) =
      (headingFrom c start total n before d a).or
        (headingFrom c start (total + b.length) (n + a.length) (lastOr before a) (depthAfter d a) b) := by
  induction a generalizing n before d with
  | nil => rfl
  | cons x a ih =>
    have hapart' : wordStart a.getLast? ∨ endsWord b := by
      cases a with
      | nil => exact Or.inl rfl
      | cons y a => exact hapart
    have hafter : c.after? ⟨n, before, x :: (a ++ b)⟩ = (c.after? ⟨n, before, x :: a⟩).map (· ++ b) :=
      Clause.after?_append (List.cons_ne_nil x a) hapart hnext
    rw [List.cons_append, headingFrom_cons, headingFrom_cons, ih hapart', hafter, Option.or_assoc, List.length_cons,
      lastOr_cons, Nat.add_right_comm n 1, ← Nat.add_assoc, Option.map_map]
    simp only [Function.comp_def, List.length_append, Nat.add_sub_add_right]
    rfl

/-- Where a search starts does not matter, nor what stands before, unless a word runs on into the text. -/
theorem headingFrom_shift {k : Nat} {before' : Option Char} (hstart : start ≤ k + n) (htotal : n + m.length ≤ total)
    (hbefore : wordStart before = wordStart before' ∨ endsWord m) :
    headingFrom c start (k + total) (k + n) before d m =
      (headingFrom c 0 total n before' d m).map (Heading.shift k) := by
  induction m generalizing n before before' d with
  | nil => rfl
  | cons x m ih =>
    rw [List.length_cons] at htotal
    have hsame : c.after? ⟨k + n, before, x :: m⟩ = c.after? ⟨n, before', x :: m⟩ := by
      rcases hbefore with hbefore | hends
      · rw [Clause.after?_eq, Clause.after?_eq, hbefore]
      · have hnone (n : Nat) (before : Option Char) : c.after? ⟨n, before, x :: m⟩ = none := by
          rw [Option.eq_none_iff_forall_ne_some]
          intro rest hrest
          obtain ⟨y, post, heq, -, hhead⟩ := Clause.after?_suffix hrest
          obtain ⟨rfl, rfl⟩ := List.cons.inj heq
          have hkey := c.word_letters.2 (fold x) (List.mem_of_mem_head? hhead.symm)
          rw [not_isKeyLetter_of_isWord_eq_false (isWord_eq_false_of_endsWord hends)] at hkey
          cases hkey
        rw [hnone, hnone]
    rw [headingFrom_cons, headingFrom_cons, Nat.add_assoc, ih (by omega) (by omega) (Or.inl rfl), hsame]
    cases hafter : c.after? ⟨n, before', x :: m⟩ with
    | none => simp
    | some rest =>
      obtain ⟨y, post, heq, hsuffix, -⟩ := Clause.after?_suffix hafter
      obtain ⟨rfl, rfl⟩ := List.cons.inj heq
      have hlength := hsuffix.length_le
      by_cases hdepth : depthAt d x = 0
      · rw [if_pos ⟨hstart, hdepth⟩, if_pos ⟨Nat.zero_le n, hdepth⟩]
        simp only [Option.map_some, Option.some_or, Heading.shift]
        rw [Nat.add_sub_assoc (by omega)]
      · rw [if_neg fun h => hdepth h.2, if_neg fun h => hdepth h.2]
        rfl

/-- **The keyword of a clause is searched piece by piece.** -/
theorem heading?_append (h : Seam a b) (hstart : start ≤ a.length) :
    heading? c start (a ++ b) = (heading? c start a).or ((heading? c 0 b).map (Heading.shift a.length)) := by
  have hbefore : wordStart (lastOr none a) = wordStart none ∨ endsWord b := by
    rw [lastOr_none]
    exact h.apart
  rw [heading?_eq_headingFrom, heading?_eq_headingFrom, heading?_eq_headingFrom, List.length_append,
    headingFrom_append h.apart fun e he => (h.next e he).1, h.level, Nat.zero_add]
  congr 1
  exact headingFrom_shift (n := 0) hstart (Nat.zero_add _).le hbefore

/-- Where the keyword of a clause is found. -/
theorem of_headingFrom_eq_some {h : Heading} (hfound : headingFrom c start total n before d m = some h) :
    ∃ pre x post rest, m = pre ++ x :: post ∧ c.after? ⟨n + pre.length, lastOr before pre, x :: post⟩ = some rest ∧
      h = ⟨c, n + pre.length, total - rest.length⟩ ∧ start ≤ n + pre.length ∧ depthAt (depthAfter d pre) x = 0 := by
  induction m generalizing n before d with
  | nil => cases hfound
  | cons x m ih =>
    rw [headingFrom_cons] at hfound
    rcases Option.or_eq_some_iff.mp hfound with hhere | ⟨-, hlater⟩
    · split at hhere
      next hcond =>
        obtain ⟨rest, hrest, rfl⟩ := Option.map_eq_some_iff.mp hhere
        exact ⟨[], x, m, rest, rfl, hrest, rfl, hcond⟩
      next => cases hhere
    · obtain ⟨pre, y, post, rest, rfl, hrest, rfl, hcond⟩ := ih hlater
      refine ⟨x :: pre, y, post, rest, rfl, ?_, ?_, ?_, hcond.2⟩
      · rw [lastOr_cons, List.length_cons, Nat.add_comm pre.length, ← Nat.add_assoc]
        exact hrest
      · rw [List.length_cons, Nat.add_comm pre.length, ← Nat.add_assoc]
      · rw [List.length_cons, Nat.add_comm pre.length, ← Nat.add_assoc]
        exact hcond.1

/-- A heading of a clause in a masked text, from an offset on. -/
structure IsHeading (c : Clause) (start : Nat) (m : List Char) (h : Heading) : Prop where
  clause : h.clause = c
  from_le : start ≤ h.start
  start_lt : h.start < h.stop
  stop_le : h.stop ≤ m.length
  stands : ∃ pre x post, m = pre ++ x :: post ∧ pre.length = h.start ∧ some (fold x) = c.word.toList.head? ∧
    wordStart pre.getLast? ∧ depthAt (depthAfter 0 pre) x = 0

theorem isHeading_of_heading? {h : Heading} (hfound : heading? c start m = some h) : IsHeading c start m h := by
  obtain ⟨pre, x, post, rest, rfl, hafter, rfl, hstart, hdepth⟩ := of_headingFrom_eq_some hfound
  obtain ⟨y, post', heq, hsuffix, hhead⟩ := Clause.after?_suffix hafter
  obtain ⟨rfl, rfl⟩ := List.cons.inj heq
  have hword : wordStart (lastOr none pre) := by
    by_contra hword
    rw [Clause.after?_eq, if_neg hword] at hafter
    cases hafter
  rw [lastOr_none] at hword
  refine ⟨rfl, hstart, ?_, Nat.sub_le _ _, pre, x, post, rfl, (Nat.zero_add _).symm, hhead, hword, hdepth⟩
  have hlength := hsuffix.length_le
  show 0 + pre.length < (pre ++ x :: post).length - rest.length
  rw [List.length_append, List.length_cons]
  omega

theorem heading?_eq_none (h : heading? c 0 m = none) (start : Nat) : heading? c start m = none := by
  rw [heading?, List.findSome?_eq_none_iff] at h ⊢
  rintro ⟨q, depth⟩ hq
  have hhere := h (q, depth) hq
  simp only at hhere ⊢
  split_ifs with hcond
  · rwa [if_pos ⟨Nat.zero_le _, hcond.2⟩] at hhere
  · rfl

/-- Two clauses do not start at one place. -/
theorem clause_eq_of_start_eq {c' : Clause} {start' : Nat} {h h' : Heading} (hc : heading? c start m = some h)
    (hc' : heading? c' start' m = some h') (heq : h.start = h'.start) : c = c' := by
  have hletters : ∀ c c' : Clause, c.word.toList.head? = c'.word.toList.head? → c = c' := by
    intro c c'
    cases c <;> cases c' <;> decide
  obtain ⟨pre, x, post, htext, hpre, hx, -⟩ := (isHeading_of_heading? hc).stands
  obtain ⟨pre', x', post', htext', hpre', hx', -⟩ := (isHeading_of_heading? hc').stands
  have hcons := (List.append_inj (htext.symm.trans htext') (by omega)).2
  obtain rfl : x = x' := (List.cons.inj hcons).1
  exact hletters c c' (hx.symm.trans hx')

end heading

/-! ## Calls -/

section calls

variable {names : List String} {pre w gap rest : List Char}

/-- The second piece does not go on with the parenthesis of a call. -/
theorem Seam.ne_open (h : Seam a b) (hgap : ∀ c ∈ gap, isBlank c) (rest : List Char) : b ≠ gap ++ '(' :: rest := by
  rintro rfl
  have hnext := h.next '(' (by rw [List.dropWhile_append_of_pos hgap]; rfl)
  exact hnext.2.1 rfl

/-- Nor with the end of a name. -/
theorem Seam.wordStart_of_isKeyLetter {c : Char} (h : Seam a (c :: b)) (hkey : isKeyLetter (fold c)) :
    wordStart a.getLast? := by
  refine h.apart.resolve_right fun hends => ?_
  rw [not_isKeyLetter_of_isWord_eq_false (isWord_eq_false_of_endsWord hends)] at hkey
  cases hkey

theorem CallAt.of_seam (hkeys : AreKeys names) (h : Seam a b) (hcall : CallAt names none (a ++ b) pre w gap rest) :
    (∃ rest', rest = rest' ++ b ∧ CallAt names none a pre w gap rest') ∨
      ∃ pre', CallAt names none b pre' w gap rest := by
  have hletters := (hcall.letters hkeys).2
  rcases List.append_eq_append_iff.mp hcall.text with ⟨k, rfl, hb⟩ | ⟨k, rfl, hk⟩
  · exact Or.inr ⟨k, hb, wordStart_of_append hcall.start, hcall.named, hcall.blank⟩
  · rcases List.append_eq_append_iff.mp hk with ⟨k', rfl, hk'⟩ | ⟨k', rfl, rfl⟩
    · -- the name of the call stands in the first piece, and so does its parenthesis
      rcases List.append_eq_append_iff.mp hk' with ⟨paren, rfl, hb⟩ | ⟨gap', rfl, rfl⟩
      · cases paren with
        | nil => exact absurd hb.symm (h.ne_open (List.forall_mem_nil _) rest)
        | cons c rest' =>
          obtain ⟨rfl, rfl⟩ := List.cons.inj hb
          exact Or.inl ⟨rest', rfl, rfl, hcall.start, hcall.named, hcall.blank⟩
      · exact absurd rfl (h.ne_open (fun c hc => hcall.blank c (List.mem_append_right _ hc)) rest)
    · cases k' with
      | nil => exact absurd rfl (h.ne_open hcall.blank rest)
      | cons c k' =>
        have hstart := h.wordStart_of_isKeyLetter (hletters c (by simp))
        rcases List.eq_nil_or_concat' k with rfl | ⟨init, e, rfl⟩
        · exact Or.inr ⟨[], rfl, rfl, hcall.named, hcall.blank⟩
        · -- a name would run across the seam
          have he := isWord_of_isKeyLetter_fold (hletters e (by simp))
          rw [← List.append_assoc, List.getLast?_concat] at hstart
          simp [wordStart, he] at hstart

theorem CallAt.behind (hkeys : AreKeys names) (h : Seam a b) (hcall : CallAt names none b pre w gap rest) :
    CallAt names none (a ++ b) (a ++ pre) w gap rest := by
  refine ⟨by rw [hcall.text, List.append_assoc], ?_, hcall.named, hcall.blank⟩
  cases pre with
  | cons c pre =>
    have hstart := hcall.start
    rw [lastOr_append, lastOr_cons]
    rwa [lastOr_cons] at hstart
  | nil =>
    obtain ⟨hne, hletters⟩ := hcall.letters hkeys
    obtain ⟨c, w, rfl⟩ := List.exists_cons_of_ne_nil hne
    obtain rfl := hcall.text
    rw [List.append_nil, lastOr_none]
    exact h.wordStart_of_isKeyLetter (hletters c List.mem_cons_self)

/-- **A call stands in one of two pieces.** -/
theorem calls_append (hkeys : AreKeys names) {args : List Char → Prop} (h : Seam a b)
    (hargs : ∀ rest, args (rest ++ b) ↔ args rest) :
    Calls names args none (a ++ b) ↔ Calls names args none a ∨ Calls names args none b := by
  constructor
  · rintro ⟨pre, w, gap, rest, hcall, hrest⟩
    rcases hcall.of_seam hkeys h with ⟨rest', rfl, hbefore⟩ | ⟨pre', hbehind⟩
    · exact Or.inl ⟨pre, w, gap, rest', hbefore, (hargs rest').mp hrest⟩
    · exact Or.inr ⟨pre', w, gap, rest, hbehind, hrest⟩
  · rintro (⟨pre, w, gap, rest, hcall, hrest⟩ | ⟨pre, w, gap, rest, hcall, hrest⟩)
    · exact ⟨pre, w, gap, rest ++ b, hcall.between (x := []) rfl b, (hargs rest).mpr hrest⟩
    · exact ⟨a ++ pre, w, gap, rest, hcall.behind hkeys h, hrest⟩

end calls

end MetricLayer.Sql
