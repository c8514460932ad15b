import MetricLayer.Proofs.Safety.Outside
import MetricLayer.Proofs.Safety.Quoted

/-!
# What the gate reads of a text

The gate empties text literals first and blanks quoted names second.  Unless an apostrophe in a quoted
name opens a literal that ends behind the name (`Paired`), a text, what it is without its literals and
what is left of that without its names have the same characters outside quotes (`stripped`): they agree
with the masked text there (`Stripped.sameOutside`), and where one of them is cut before a word the others
are cut as well (`Stripped.cut`, `Stripped.cut_blanked`).
-/

namespace MetricLayer.Safety

open MetricLayer.Text MetricLayer.Sql

variable {cs l n a b w : List Char}

/-! ## Regions -/

theorem mem_maskFrom_of_doubled {q : Char} {body : List Char} (hq : isQuote q) (h : Doubled q body) :
    ∀ c ∈ maskFrom (some q) body, isQuote c ∨ c = '_' := by
  induction h with
  | nil => exact nofun
  | @char c body hc _ ih =>
    have hmask : maskStep (some q) c = '_' := if_neg hc
    have hstep : quoteStep (some q) c = some q := if_neg hc
    rw [maskFrom, hmask, hstep, List.forall_mem_cons]
    exact ⟨Or.inr rfl, ih⟩
  | @pair body _ ih =>
    have hclose : quoteStep (some q) q = none := if_pos rfl
    have hopen : quoteStep none q = some q := if_pos hq
    have hmask : maskStep (some q) q = q := if_pos rfl
    rw [maskFrom, maskFrom, hmask, hclose, hopen, List.forall_mem_cons, List.forall_mem_cons]
    exact ⟨Or.inl hq, Or.inl hq, ih⟩

theorem region_mask {q : Char} {body : List Char} (hq : isQuote q) (h : Doubled q body) :
    Region (mask (q :: (body ++ [q]))) := by
  have hopen : quoteStep none q = some q := if_pos hq
  have hlast : maskFrom (some q) [q] = [q] := by
    rw [maskFrom, maskStep, if_pos rfl]
    rfl
  have hmask : mask (q :: (body ++ [q])) = q :: (maskFrom (some q) body ++ [q]) := by
    rw [mask, maskFrom, hopen, maskFrom_append, h.quoteAfter hq, hlast]
    rfl
  rw [hmask]
  exact .of_mem hq (mem_maskFrom_of_doubled hq h)

theorem mask_quoted_append {q : Char} {body : List Char} (hq : isQuote q) (h : Doubled q body)
    (rest : List Char) : mask (q :: (body ++ q :: rest)) = mask (q :: (body ++ [q])) ++ mask rest := by
  rw [← mask_append (h.closed hq)]
  simp

theorem mask_cons {c : Char} (hc : isQuote c = false) (cs : List Char) :
    mask (c :: cs) = c :: mask cs := by
  have hstep : quoteStep none c = none := by
    rw [quoteStep, hc, if_neg Bool.false_ne_true]
  rw [mask, maskFrom, hstep]
  rfl

theorem exists_of_quoteAfter_eq_none {q : Char} (h : quoteAfter (some q) cs = none) :
    ∃ body rest, cs = body ++ q :: rest ∧ q ∉ body ∧ Closed rest := by
  induction cs with
  | nil => cases h
  | cons c cs ih =>
    by_cases hc : c = q
    · subst hc
      have hclose : quoteStep (some c) c = none := if_pos rfl
      rw [quoteAfter, List.foldl_cons, hclose] at h
      exact ⟨[], cs, rfl, List.not_mem_nil, h⟩
    · have hstep : quoteStep (some q) c = some q := if_neg hc
      rw [quoteAfter, List.foldl_cons, hstep] at h
      obtain ⟨body, rest, rfl, hbody, hrest⟩ := ih h
      exact ⟨c :: body, rest, rfl, by simpa [Ne.symm hc] using hbody, hrest⟩

theorem mem_of_closed_cons {q : Char} (hq : isQuote q) (h : Closed (q :: cs)) : q ∈ cs := by
  have hopen : quoteStep none q = some q := if_pos hq
  rw [Closed, quoteAfter, List.foldl_cons, hopen] at h
  obtain ⟨body, rest, rfl, -⟩ := exists_of_quoteAfter_eq_none h
  simp

/-- A closed text that starts with a quote starts with a text in quotes. -/
theorem exists_quotedBody?_of_closed {q : Char} (hq : isQuote q) (h : Closed (q :: cs)) :
    ∃ body rest, quotedBody? q cs = some (body, rest) ∧ cs = body ++ q :: rest ∧ Doubled q body ∧
      Closed rest ∧ rest.head? ≠ some q := by
  cases hread : quotedBody? q cs with
  | none => exact absurd (mem_of_closed_cons hq h) (not_mem_of_quotedBody?_eq_none hread)
  | some found =>
    obtain ⟨body, rest⟩ := found
    obtain ⟨rfl, hbody⟩ := of_quotedBody?_eq_some hread
    have htext : q :: (body ++ q :: rest) = q :: (body ++ [q]) ++ rest := by
      simp
    have hrest : Closed rest := (closed_append_iff (hbody.closed hq) rest).mp (htext ▸ h)
    refine ⟨body, rest, rfl, rfl, hbody, hrest, fun hhead => ?_⟩
    obtain ⟨more, rfl⟩ := List.head?_eq_some_iff.mp hhead
    exact not_mem_of_quotedBody?_eq_some hread (mem_of_closed_cons hq hrest)

/-! ## Names and literals -/

/-- A quoted name in a text, as a whole: `a` stands before and `b` behind it. -/
structure NameIn (cs a name b : List Char) : Prop where
  text : cs = a ++ '"' :: (name ++ '"' :: b)
  closed : Closed a
  doubled : Doubled '"' name
  before : a.getLast? ≠ some '"'
  after : b.head? ≠ some '"'

/-- The apostrophes in each quoted name are in pairs, or none follows the name. -/
def Paired (cs : List Char) : Prop :=
  ∀ a name b, NameIn cs a name b → name.count '\'' % 2 = 0 ∨ '\'' ∉ b

theorem paired_of_not_mem (h : '"' ∉ cs) : Paired cs := by
  intro a name b hin
  rw [hin.text] at h
  exact absurd (by simp) h

/-- What follows a closed text is paired, unless the cut goes through a name. -/
theorem Paired.of_append {a : List Char} (ha : Closed a) (hcut : cs.head? = some '"' → a.getLast? ≠ some '"')
    (h : Paired (a ++ cs)) : Paired cs := by
  intro x name b hin
  refine h (a ++ x) name b ⟨?_, ha.append hin.closed, hin.doubled, ?_, hin.after⟩
  · rw [hin.text, List.append_assoc]
  · cases hx : x.getLast? with
    | none =>
      obtain rfl := List.getLast?_eq_none_iff.mp hx
      rw [List.append_nil]
      exact hcut (by rw [hin.text]; rfl)
    | some c =>
      rw [List.getLast?_append, hx, Option.some_or, ← hx]
      exact hin.before

/-- Where a quoted name is open, the text does not go on in a certain way. -/
def NamesAvoid (p : List Char → Prop) (cs : List Char) : Prop :=
  ∀ a b, cs = a ++ b → quoteAfter none a = some '"' → ¬ p b

theorem namesAvoid_of_not_mem {p : List Char → Prop} (h : '"' ∉ cs) : NamesAvoid p cs := by
  intro a b hcs hopen
  refine absurd ?_ h
  rw [hcs]
  exact List.mem_append_left b ((mem_of_quoteAfter_eq_some hopen).resolve_left nofun)

theorem NamesAvoid.of_append {p : List Char → Prop} (ha : Closed a) (h : NamesAvoid p (a ++ cs)) :
    NamesAvoid p cs := by
  intro x y hcs hopen
  refine h (a ++ x) y (by rw [hcs, List.append_assoc]) ?_
  rw [quoteAfter_append, ha, hopen]

/-- A name that is open stays open up to its last quote. -/
theorem NamesAvoid.not_of_name {p : List Char → Prop} {x y : List Char} {c : Char}
    (h : NamesAvoid p ('"' :: (x ++ c :: y ++ '"' :: b))) (hname : Doubled '"' (x ++ c :: y)) (hc : c ≠ '"') :
    ¬ p (c :: (y ++ '"' :: b)) := by
  refine h ('"' :: x) _ (by simp) ?_
  have hopen : quoteStep none '"' = some '"' := rfl
  rw [quoteAfter, List.foldl_cons, hopen]
  exact (hname.of_append hc).1.quoteAfter rfl

/-- A character at which no name may go on is in no name. -/
theorem NamesAvoid.not_mem_of_name {p : List Char → Prop} {name : List Char} {c : Char}
    (h : NamesAvoid p ('"' :: (name ++ '"' :: b))) (hname : Doubled '"' name) (hc : c ≠ '"')
    (hp : ∀ rest, p (c :: rest)) : c ∉ name := by
  intro hmem
  obtain ⟨x, y, rfl⟩ := List.append_of_mem hmem
  exact h.not_of_name hname hc (hp _)

/-- Names without apostrophes are paired. -/
theorem NamesAvoid.paired {p : List Char → Prop} (h : NamesAvoid p cs) (htick : ∀ rest, p ('\'' :: rest)) :
    Paired cs := by
  intro a name b hin
  have hrest : NamesAvoid p ('"' :: (name ++ '"' :: b)) := (hin.text ▸ h).of_append hin.closed
  left
  rw [List.count_eq_zero_of_not_mem (hrest.not_mem_of_name hin.doubled (by decide) htick)]

/-- The text with its literals emptied. -/
abbrev emptyLiterals (cs : List Char) : List Char :=
  replaceQuoted '\'' (fun _ => []) cs

/-- A literal that starts in a name ends in it. -/
theorem exists_of_quotedBody?_name {name rest body after : List Char}
    (h : (name.count '\'' + 1) % 2 = 0 ∨ '\'' ∉ rest)
    (hread : quotedBody? '\'' (name ++ '"' :: rest) = some (body, after)) :
    ∃ name', name = body ++ '\'' :: name' ∧ after = name' ++ '"' :: rest := by
  obtain ⟨htext, hbody⟩ := of_quotedBody?_eq_some hread
  rcases List.append_eq_append_iff.mp htext with ⟨k, hk, hk'⟩ | ⟨k, hk, hk'⟩
  · exfalso
    cases k with
    | nil => cases hk'
    | cons c k =>
      obtain ⟨rfl, hrest⟩ := List.cons.inj hk'
      have heven := ((hk ▸ hbody).of_append (by decide : '"' ≠ '\'')).1.count_mod_two
      rcases h with h | h
      · omega
      · exact h (by simp [hrest])
  · cases k with
    | nil => cases hk'
    | cons c k =>
      obtain ⟨rfl, hafter⟩ := List.cons.inj hk'
      exact ⟨k, hk, hafter⟩

/-- Emptying literals leaves a text without apostrophes as it is. -/
theorem emptyLiterals_append_of_not_mem (h : '\'' ∉ a) : emptyLiterals (a ++ cs) = a ++ emptyLiterals cs :=
  replaceQuoted_append_of_not_mem h

/-- A name stays a name when literals are emptied in it. -/
theorem exists_emptyLiterals_name {name rest : List Char} (hname : Doubled '"' name)
    (h : name.count '\'' % 2 = 0 ∨ '\'' ∉ rest) :
    ∃ name', Doubled '"' name' ∧
      emptyLiterals (name ++ '"' :: rest) = name' ++ '"' :: emptyLiterals rest := by
  induction hlength : name.length using Nat.strong_induction_on generalizing name with
  | _ l ih =>
    subst hlength
    cases hname with
    | nil => exact ⟨[], .nil, replaceQuoted_cons_of_ne (by decide)⟩
    | @pair name hname =>
      rw [List.count_cons_of_ne (by decide), List.count_cons_of_ne (by decide)] at h
      obtain ⟨name', hname', heq⟩ := ih name.length (Nat.lt_succ_of_lt (Nat.lt_succ_self _)) hname h rfl
      refine ⟨'"' :: '"' :: name', hname'.pair, ?_⟩
      rw [List.cons_append, List.cons_append, emptyLiterals, replaceQuoted_cons_of_ne (by decide),
        replaceQuoted_cons_of_ne (by decide)]
      exact congrArg (fun cs => '"' :: '"' :: cs) heq
    | @char c name hc hname =>
      have hsmall : name.length < (c :: name).length := Nat.lt_succ_self _
      by_cases hliteral : c = '\''
      · subst hliteral
        rw [List.count_cons_self] at h
        cases hread : quotedBody? '\'' (name ++ '"' :: rest) with
        | none =>
          have hfree := not_mem_of_quotedBody?_eq_none hread
          rw [List.mem_append, not_or] at hfree
          have hcount : name.count '\'' % 2 = 0 := by
            rw [List.count_eq_zero_of_not_mem hfree.1]
          obtain ⟨name', hname', heq⟩ := ih _ hsmall hname (Or.inl hcount) rfl
          refine ⟨'\'' :: name', hname'.char hc, ?_⟩
          rw [List.cons_append, emptyLiterals, replaceQuoted_of_none hread, List.cons_append]
          exact congrArg _ heq
        | some found =>
          obtain ⟨body, after⟩ := found
          have hcount := (of_quotedBody?_eq_some hread).2.count_mod_two
          obtain ⟨k, rfl, rfl⟩ := exists_of_quotedBody?_name h hread
          rw [List.count_append, List.count_cons_self] at h
          obtain ⟨name', hname', heq⟩ :=
            ih k.length (by simp; omega) (hname.of_append hc).2 (h.imp_left (by omega)) rfl
          refine ⟨'\'' :: '\'' :: name', (hname'.char hc).char hc, ?_⟩
          rw [List.cons_append, emptyLiterals, replaceQuoted_of_some hread]
          exact congrArg (fun cs => '\'' :: '\'' :: cs) heq
      · rw [List.count_cons_of_ne hliteral] at h
        obtain ⟨name', hname', heq⟩ := ih _ hsmall hname h rfl
        refine ⟨c :: name', hname'.char hc, ?_⟩
        rw [List.cons_append, emptyLiterals, replaceQuoted_cons_of_ne hliteral, List.cons_append]
        exact congrArg _ heq

/-! ## The three readings -/

/-- `l` is the text without its literals, and `n` is `l` with its quoted names blanked.  A quoted name without
apostrophes is in `l` as it stands. -/
inductive Stripped : List Char → List Char → List Char → Prop
  | nil : Stripped [] [] []
  | char {c : Char} {cs l n : List Char} (hc : isQuote c = false) (h : Stripped cs l n) :
      Stripped (c :: cs) (c :: l) (c :: n)
  | literal {body cs l n : List Char} (hbody : Doubled '\'' body) (hnext : cs.head? ≠ some '\'')
      (h : Stripped cs l n) : Stripped ('\'' :: (body ++ '\'' :: cs)) ('\'' :: '\'' :: l) ('\'' :: '\'' :: n)
  | name {name name' cs l n : List Char} (hname : Doubled '"' name) (hname' : Doubled '"' name')
      (hkeep : '\'' ∉ name → name' = name) (hnext : cs.head? ≠ some '"') (h : Stripped cs l n) :
      Stripped ('"' :: (name ++ '"' :: cs)) ('"' :: (name' ++ '"' :: l))
        ('"' :: (List.replicate name'.length '_' ++ '"' :: n))

/-- The gate reads what stands outside quotes, unless a literal starts in a name and ends behind it. -/
theorem stripped (hclosed : Closed cs) (hpaired : Paired cs) :
    Stripped cs (emptyLiterals cs) (withoutNames (emptyLiterals cs)) := by
  induction hlength : cs.length using Nat.strong_induction_on generalizing cs with
  | _ k ih =>
    subst hlength
    cases cs with
    | nil =>
      rw [emptyLiterals, replaceQuoted_nil, withoutNames, replaceQuoted_nil]
      exact .nil
    | cons c cs =>
      by_cases hliteral : c = '\''
      · subst hliteral
        obtain ⟨body, rest, hread, rfl, hbody, hrest, hnext⟩ := exists_quotedBody?_of_closed rfl hclosed
        have htext : '\'' :: (body ++ '\'' :: rest) = '\'' :: (body ++ ['\'']) ++ rest := by
          simp
        have hlast : ('\'' :: (body ++ ['\''])).getLast? = some '\'' := by
          rw [← List.cons_append, List.getLast?_concat]
        rw [htext] at hpaired
        have hstripped := ih rest.length (by simp; omega) hrest
          (hpaired.of_append (hbody.closed rfl) fun _ => by rw [hlast]; decide) rfl
        rw [emptyLiterals, replaceQuoted_of_some hread, List.nil_append, withoutNames,
          replaceQuoted_cons_of_ne (by decide), replaceQuoted_cons_of_ne (by decide)]
        exact hstripped.literal hbody hnext
      · by_cases hname : c = '"'
        · subst hname
          obtain ⟨name, rest, -, rfl, hname, hrest, hnext⟩ := exists_quotedBody?_of_closed rfl hclosed
          obtain ⟨name', hname', hkeep, heq⟩ : ∃ name', Doubled '"' name' ∧ ('\'' ∉ name → name' = name) ∧
              emptyLiterals (name ++ '"' :: rest) = name' ++ '"' :: emptyLiterals rest := by
            by_cases hmem : '\'' ∈ name
            · obtain ⟨name', hname', heq⟩ := exists_emptyLiterals_name hname
                (hpaired [] name rest ⟨rfl, closed_nil, hname, nofun, hnext⟩)
              exact ⟨name', hname', absurd hmem, heq⟩
            · refine ⟨name, hname, fun _ => rfl, ?_⟩
              rw [emptyLiterals_append_of_not_mem hmem, emptyLiterals, replaceQuoted_cons_of_ne (by decide)]
          have htext : '"' :: (name ++ '"' :: rest) = '"' :: (name ++ ['"']) ++ rest := by
            simp
          rw [htext] at hpaired
          have hstripped := ih rest.length (by simp; omega) hrest
            (hpaired.of_append (hname.closed rfl) fun hhead => absurd hhead hnext) rfl
          have hread : quotedBody? '"' (name' ++ '"' :: emptyLiterals rest) =
              some (name', emptyLiterals rest) :=
            quotedBody?_of_doubled hname' (by rw [head?_replaceQuoted]; exact hnext)
          rw [emptyLiterals, replaceQuoted_cons_of_ne hliteral]
          show Stripped _ ('"' :: emptyLiterals (name ++ '"' :: rest))
            (withoutNames ('"' :: emptyLiterals (name ++ '"' :: rest)))
          rw [heq, withoutNames, replaceQuoted_of_some hread]
          exact hstripped.name hname hname' hkeep hnext
        · have hc : isQuote c = false := by
            simp [isQuote, hliteral, hname]
          have hfirst : Closed [c] := closed_of_no_quote (by simpa using hc)
          have hstripped := ih cs.length (Nat.lt_succ_self _) ((closed_append_iff hfirst cs).mp hclosed)
            (hpaired.of_append (a := [c]) hfirst fun _ => by simpa using hname) rfl
          rw [emptyLiterals, replaceQuoted_cons_of_ne hliteral, withoutNames, replaceQuoted_cons_of_ne hname]
          exact hstripped.char hc

namespace Stripped

/-- Nothing is changed outside quotes. -/
theorem sameOutside (h : Stripped cs l n) : SameOutside (mask cs) n := by
  induction h with
  | nil => exact .nil
  | char hc _ ih =>
    rw [mask_cons hc]
    exact ih.char hc
  | literal hbody _ _ ih =>
    rw [mask_quoted_append rfl hbody]
    exact .region (region_mask rfl hbody) (.of_mem (r := []) rfl nofun) ih
  | @name name name' cs l n hname _ _ _ _ ih =>
    have hblank : Region ('"' :: (List.replicate name'.length '_' ++ ['"'])) :=
      .of_mem rfl fun c hc => Or.inr (List.eq_of_mem_replicate hc)
    have hout : '"' :: (List.replicate name'.length '_' ++ '"' :: n) =
        '"' :: (List.replicate name'.length '_' ++ ['"']) ++ n := by
      simp
    rw [mask_quoted_append rfl hname, hout]
    exact .region (region_mask rfl hname) hblank ih

/-- Blanking names keeps every offset. -/
theorem length_eq (h : Stripped cs l n) : l.length = n.length := by
  induction h with
  | nil => rfl
  | char _ _ ih => simp [ih]
  | literal _ _ _ ih => simp [ih]
  | name _ _ _ _ _ ih => simp [ih]

/-- All three start with the same character. -/
theorem head?_eq (h : Stripped cs l n) : l.head? = cs.head? ∧ n.head? = cs.head? := by
  cases h <;> exact ⟨rfl, rfl⟩

/-- Words start behind all three alike. -/
theorem wordStart_lastOr (h : Stripped cs l n) (p : Option Char) :
    wordStart (lastOr p l) = wordStart (lastOr p cs) ∧
      wordStart (lastOr p n) = wordStart (lastOr p cs) := by
  induction h generalizing p with
  | nil => exact ⟨rfl, rfl⟩
  | char _ _ ih =>
    simp only [lastOr_cons]
    exact ih _
  | literal _ _ _ ih =>
    simp only [lastOr_cons, lastOr_append]
    exact ih _
  | name _ _ _ _ _ ih =>
    simp only [lastOr_cons, lastOr_append]
    exact ih _

/-! ## Cutting -/

/-- Characters that are no quotes start all three when they start one of them. -/
theorem exists_of_isPrefix (hw : ∀ c ∈ w, isQuote c = false) (h : Stripped cs l n)
    (hstart : w <+: cs ∨ w <+: l ∨ w <+: n) :
    ∃ b lb nb, cs = w ++ b ∧ l = w ++ lb ∧ n = w ++ nb ∧ Stripped b lb nb := by
  induction w generalizing cs l n with
  | nil => exact ⟨cs, l, n, rfl, rfl, rfl, h⟩
  | cons c w ih =>
    rw [List.forall_mem_cons] at hw
    have hhead : cs.head? = some c := by
      rcases hstart with ⟨x, rfl⟩ | ⟨x, rfl⟩ | ⟨x, rfl⟩
      · rfl
      · exact h.head?_eq.1.symm
      · exact h.head?_eq.2.symm
    cases h with
    | nil => cases hhead
    | literal =>
      cases hhead
      cases hw.1
    | name =>
      cases hhead
      cases hw.1
    | char _ h =>
      cases hhead
      simp only [List.cons_prefix_cons, true_and] at hstart
      obtain ⟨b, lb, nb, rfl, rfl, rfl, hb⟩ := ih hw.2 h hstart
      exact ⟨b, lb, nb, rfl, rfl, rfl, hb⟩

theorem of_append (hw : ∀ c ∈ w, isQuote c = false) (h : Stripped (w ++ b) l n) :
    ∃ lb nb, l = w ++ lb ∧ n = w ++ nb ∧ Stripped b lb nb := by
  obtain ⟨b', lb, nb, hb', hl, hn, hrest⟩ := h.exists_of_isPrefix hw (Or.inl (List.prefix_append w b))
  obtain rfl := List.append_cancel_left hb'
  exact ⟨lb, nb, hl, hn, hrest⟩

theorem of_blanked_append {y : List Char} (hw : ∀ c ∈ w, isQuote c = false) (h : Stripped cs l (w ++ y)) :
    ∃ b lb, cs = w ++ b ∧ l = w ++ lb ∧ Stripped b lb y := by
  obtain ⟨b, lb, y', hb, hl, hy, hrest⟩ := h.exists_of_isPrefix hw (Or.inr (Or.inr (List.prefix_append w y)))
  obtain rfl := List.append_cancel_left hy
  exact ⟨b, lb, hb, hl, hrest⟩

/-- A text in quotes is cut behind its last quote, or not at all. -/
theorem exists_of_append_eq_quoted {q c : Char} {body x : List Char} (hbody : Doubled q body)
    (hnext : cs.head? ≠ some q) (ha : Closed a) (hc : x.head? = some c) (hcq : isQuote c = false)
    (hq : isQuote q) (h : a ++ x = q :: (body ++ q :: cs)) :
    ∃ a', a = q :: (body ++ q :: a') ∧ Closed a' ∧ a'.head? ≠ some q ∧ cs = a' ++ x := by
  have hne : x.head? ≠ some q := by
    rintro hx
    obtain rfl := Option.some.inj (hc.symm.trans hx)
    rw [hcq] at hq
    cases hq
  cases a with
  | nil =>
    rw [List.nil_append] at h
    rw [h] at hne
    exact absurd rfl hne
  | cons d a =>
    obtain ⟨rfl, htail⟩ := List.cons.inj h
    obtain ⟨body', a', -, rfl, hbody', ha', hnext'⟩ := exists_quotedBody?_of_closed hq ha
    rw [List.append_eq, List.append_assoc, List.cons_append] at htail
    have hnext'' : (a' ++ x).head? ≠ some d := by
      cases a' with
      | nil => exact hne
      | cons e a' => exact hnext'
    obtain ⟨rfl, hrest⟩ := doubled_append_inj hbody' hbody hnext'' hnext htail
    exact ⟨a', rfl, ha', hnext', hrest.symm⟩

/-- A text that is cut before such characters, outside quotes, is cut in all three readings. -/
theorem cut (hne : w ≠ []) (hw : ∀ c ∈ w, isQuote c = false) (ha : Closed a)
    (h : Stripped (a ++ (w ++ b)) l n) :
    ∃ la na lb nb, l = la ++ (w ++ lb) ∧ n = na ++ (w ++ nb) ∧ Stripped a la na ∧ Stripped b lb nb := by
  obtain ⟨e, v, rfl⟩ := List.exists_cons_of_ne_nil hne
  have he : isQuote e = false := hw e List.mem_cons_self
  generalize hcs : a ++ (e :: v ++ b) = cs at h
  induction h generalizing a with
  | nil => exact absurd hcs (by simp)
  | @char c cs l n hc h ih =>
    cases a with
    | nil =>
      obtain ⟨lb, nb, hl, hn, hb⟩ := of_append (w := e :: v) hw (hcs ▸ h.char hc)
      exact ⟨[], [], lb, nb, hl, hn, .nil, hb⟩
    | cons d a =>
      obtain ⟨rfl, htail⟩ := List.cons.inj hcs
      have hfirst : Closed [d] := closed_of_no_quote (by simpa using hc)
      obtain ⟨la, na, lb, nb, rfl, rfl, hla, hb⟩ := ih ((closed_append_iff hfirst a).mp ha) htail
      exact ⟨d :: la, d :: na, lb, nb, rfl, rfl, hla.char hc, hb⟩
  | @literal body cs l n hbody hnext h ih =>
    obtain ⟨a, rfl, ha, hnext', rfl⟩ := exists_of_append_eq_quoted hbody hnext ha rfl he rfl hcs
    obtain ⟨la, na, lb, nb, rfl, rfl, hla, hb⟩ := ih ha rfl
    exact ⟨_, _, lb, nb, rfl, rfl, hla.literal hbody hnext', hb⟩
  | @name name name' cs l n hname hname' hkeep hnext h ih =>
    obtain ⟨a, rfl, ha, hnext', rfl⟩ := exists_of_append_eq_quoted hname hnext ha rfl he rfl hcs
    obtain ⟨la, na, lb, nb, rfl, rfl, hla, hb⟩ := ih ha rfl
    exact ⟨_, _, lb, nb, by simp, by simp, hla.name hname hname' hkeep hnext', hb⟩

theorem closed_quoted_append {q : Char} {body : List Char} (hq : isQuote q) (hbody : Doubled q body)
    (ha : Closed a) : Closed (q :: (body ++ q :: a)) := by
  have htext : q :: (body ++ q :: a) = q :: (body ++ [q]) ++ a := by
    simp
  rw [htext]
  exact (hbody.closed hq).append ha

theorem head?_ne_of_append {q : Char} {x : List Char} (h : (a ++ x).head? ≠ some q) : a.head? ≠ some q := by
  cases a with
  | nil => exact nofun
  | cons c a => exact h

/-- Where the text with blanked names is cut before characters outside quotes, the text is. -/
theorem cut_blanked {x y : List Char} (hne : w ≠ []) (hw : ∀ c ∈ w, Plain c)
    (h : Stripped cs l (x ++ (w ++ y))) :
    ∃ a la b lb, cs = a ++ (w ++ b) ∧ l = la ++ (w ++ lb) ∧ Closed a ∧ Stripped a la x ∧ Stripped b lb y := by
  obtain ⟨e, v, rfl⟩ := List.exists_cons_of_ne_nil hne
  have he : Plain e := hw e List.mem_cons_self
  generalize hn : x ++ (e :: v ++ y) = n at h
  induction h generalizing x with
  | nil => exact absurd hn (by simp)
  | @char c cs l n hc h ih =>
    cases x with
    | nil =>
      obtain ⟨b, lb, hcs, hl, hb⟩ := of_blanked_append (w := e :: v) (fun c hc => (hw c hc).1) (hn ▸ h.char hc)
      exact ⟨[], [], b, lb, hcs, hl, closed_nil, .nil, hb⟩
    | cons d x =>
      obtain ⟨rfl, htail⟩ := List.cons.inj hn
      obtain ⟨a, la, b, lb, rfl, rfl, ha, hla, hb⟩ := ih htail
      have hfirst : Closed [d] := closed_of_no_quote (by simpa using hc)
      exact ⟨d :: a, d :: la, b, lb, rfl, rfl, hfirst.append ha, hla.char hc, hb⟩
  | @literal body cs l n hbody hnext h ih =>
    have hregion : e ∉ ['\'', '\''] :=
      fun hmem => Region.not_plain (.of_mem (r := []) rfl nofun) hmem he
    obtain ⟨x, rfl, htail⟩ := exists_of_append_eq_append (m := n) hregion hn
    obtain ⟨a, la, b, lb, rfl, rfl, ha, hla, hb⟩ := ih htail.symm
    exact ⟨_, _, b, lb, by simp, rfl, closed_quoted_append rfl hbody ha,
      hla.literal hbody (head?_ne_of_append hnext), hb⟩
  | @name name name' cs l n hname hname' hkeep hnext h ih =>
    have hregion : e ∉ '"' :: (List.replicate name'.length '_' ++ ['"']) := fun hmem =>
      Region.not_plain (.of_mem rfl fun c hc => Or.inr (List.eq_of_mem_replicate hc)) hmem he
    obtain ⟨x, rfl, htail⟩ := exists_of_append_eq_append (m := n) hregion (hn.trans (by simp))
    obtain ⟨a, la, b, lb, rfl, rfl, ha, hla, hb⟩ := ih htail.symm
    have hx : '"' :: (List.replicate name'.length '_' ++ ['"']) ++ x =
        '"' :: (List.replicate name'.length '_' ++ '"' :: x) := by
      simp
    rw [hx]
    exact ⟨_, _, b, lb, by simp, by simp, closed_quoted_append rfl hname ha,
      hla.name hname hname' hkeep (head?_ne_of_append hnext), hb⟩

/-- All that is left of a closed text is closed. -/
theorem closed (h : Stripped cs l n) : Closed l := by
  induction h with
  | nil => exact closed_nil
  | char hc _ ih => exact Closed.append (a := [_]) (closed_of_no_quote (by simpa using hc)) ih
  | literal _ _ _ ih =>
    have hempty : Doubled '\'' [] := .nil
    exact closed_quoted_append rfl hempty ih
  | name _ hname' _ _ _ ih => exact closed_quoted_append rfl hname' ih

/-- A cut of the text without literals goes through a quoted name: `u` and `v` are the name without literals,
before and behind the cut. -/
structure Through (cs x y : List Char) (c : Char) (name u v b : List Char) : Prop where
  text : ∃ a, cs = a ++ '"' :: (name ++ '"' :: b) ∧ Closed a
  doubled : Doubled '"' name
  before : ∃ la, x = la ++ '"' :: u ∧ Closed la
  behind : ∃ lb, y = v ++ '"' :: lb
  doubled' : Doubled '"' (u ++ c :: v)
  keep : '\'' ∉ name → u ++ c :: v = name

theorem Through.append {x y name u v b r r' : List Char} {c : Char} (hr : Closed r) (hr' : Closed r')
    (h : Through cs x y c name u v b) : Through (r ++ cs) (r' ++ x) y c name u v b := by
  obtain ⟨⟨a, rfl, ha⟩, hname, ⟨la, rfl, hla⟩, hbehind, hname', hkeep⟩ := h
  exact ⟨⟨r ++ a, by rw [List.append_assoc], hr.append ha⟩, hname, ⟨r' ++ la, by rw [List.append_assoc], hr'.append hla⟩,
    hbehind, hname', hkeep⟩

/-- Where the text without literals is cut before a character that is no quote, the text is, or the cut goes
through a quoted name. -/
theorem cut_literalless_or {x y : List Char} {c : Char} (hc : isQuote c = false) (h : Stripped cs (x ++ c :: y) n) :
    (∃ a b nx ny, cs = a ++ c :: b ∧ Closed a ∧ Stripped a x nx ∧ Stripped b y ny) ∨
      ∃ name u v b, Through cs x y c name u v b := by
  have hne : c ≠ '"' := by
    rintro rfl
    cases hc
  generalize hl : x ++ c :: y = l at h
  induction h generalizing x with
  | nil => exact absurd hl (by simp)
  | @char d cs l n hd h ih =>
    have hfirst : Closed [d] := closed_of_no_quote (by simpa using hd)
    cases x with
    | nil =>
      obtain ⟨rfl, rfl⟩ := List.cons.inj hl
      exact Or.inl ⟨[], cs, [], n, rfl, closed_nil, .nil, h⟩
    | cons e x =>
      obtain ⟨rfl, htail⟩ := List.cons.inj hl
      rcases ih htail with ⟨a, b, nx, ny, rfl, ha, hx, hy⟩ | ⟨name, u, v, b, hthrough⟩
      · exact Or.inl ⟨e :: a, b, e :: nx, ny, rfl, hfirst.append ha, hx.char hd, hy⟩
      · have hcons : Through ([e] ++ cs) ([e] ++ x) y c name u v b := hthrough.append hfirst hfirst
        exact Or.inr ⟨name, u, v, b, hcons⟩
  | @literal body cs l n hbody hnext h ih =>
    have hfree : c ∉ ['\'', '\''] := by
      rintro hmem
      obtain rfl : c = '\'' := by simpa using hmem
      cases hc
    obtain ⟨x, rfl, htail⟩ := exists_of_append_eq_append (m := l) hfree hl
    rcases ih htail.symm with ⟨a, b, nx, ny, rfl, ha, hx, hy⟩ | ⟨name, u, v, b, hthrough⟩
    · exact Or.inl ⟨_, b, _, ny, by simp, closed_quoted_append rfl hbody ha,
        hx.literal hbody (head?_ne_of_append hnext), hy⟩
    · have htext : '\'' :: (body ++ '\'' :: cs) = '\'' :: (body ++ ['\'']) ++ cs := by
        simp
      rw [htext]
      exact Or.inr ⟨name, u, v, b, hthrough.append (hbody.closed rfl) (by decide)⟩
  | @name name name' cs l n hname hname' hkeep hnext h ih =>
    have hregion : x ++ c :: y = ('"' :: name') ++ ('"' :: l) := by
      rw [hl, List.cons_append]
    rcases List.append_eq_append_iff.mp hregion with ⟨k, hx, hk⟩ | ⟨k, rfl, hk⟩
    · cases x with
      | nil => exact absurd (List.cons.inj hl).1 hne
      | cons d x =>
        obtain ⟨rfl, rfl⟩ := List.cons.inj hx
        cases k with
        | nil => exact absurd (List.cons.inj hk).1 hne
        | cons d k =>
          obtain ⟨rfl, rfl⟩ := List.cons.inj hk
          exact Or.inr ⟨name, x, k, cs, ⟨[], rfl, closed_nil⟩, hname, ⟨[], rfl, closed_nil⟩, ⟨l, rfl⟩, hname', hkeep⟩
    · cases k with
      | nil => exact absurd (List.cons.inj hk).1.symm hne
      | cons d x =>
        obtain ⟨rfl, rfl⟩ := List.cons.inj hk
        rcases ih rfl with ⟨a, b, nx, ny, rfl, ha, hx, hy⟩ | ⟨inner, u, v, b, hthrough⟩
        · exact Or.inl ⟨_, b, '"' :: (List.replicate name'.length '_' ++ '"' :: nx), ny, by simp,
            closed_quoted_append rfl hname ha, hx.name hname hname' hkeep (head?_ne_of_append hnext), hy⟩
        · have hquoted (name cs : List Char) : '"' :: (name ++ '"' :: cs) = '"' :: (name ++ ['"']) ++ cs := by
            simp
          rw [List.cons_append, hquoted name, hquoted name']
          exact Or.inr ⟨inner, u, v, b, hthrough.append (hname.closed rfl) (hname'.closed rfl)⟩

end Stripped

end MetricLayer.Safety
