import MetricLayer.Proofs.Safety.Quoted
import MetricLayer.Proofs.Sql.Token

/-!
# Erasing qualifiers from expressions

Qualifiers are erased from the text of an expression in two passes.  The first one leaves out names in quotes and
gives the text of the tokens without them (`exists_erasesQuoted`).  The second one leaves out words;
without white space the text is then that of the tokens without them, except that words are left out inside literals
as well (`filter_eraseAfter_wordQualifier?`).
-/

namespace MetricLayer.Sql

open MetricLayer.Text

variable {t : Token} {ts us : List Token} {b b' : Option Char} {c q : Char} {cs body rest x y : List Char}

/-! ## Texts between quotes -/

theorem quotedBody?_cons_eq (hc : c ≠ q) (cs : List Char) :
    quotedBody? q (c :: cs) = (quotedBody? q cs).map fun r => (c :: r.1, r.2) := by
  cases cs with
  | nil =>
    simp only [quotedBody?, if_neg hc]
    rfl
  | cons d cs => rw [quotedBody?, if_neg hc]

/-- The search for the closing quote goes over a text without it. -/
theorem quotedBody?_append (hx : q ∉ x) (y : List Char) :
    quotedBody? q (x ++ y) = (quotedBody? q y).map fun r => (x ++ r.1, r.2) := by
  induction x with
  | nil => cases h : quotedBody? q y <;> simp [h]
  | cons c x ih =>
    rw [List.mem_cons, not_or] at hx
    rw [List.cons_append, quotedBody?_cons_eq (Ne.symm hx.1), ih hx.2, Option.map_map]
    rfl

theorem quotedBody?_quote_cons {d : Char} (hd : d ≠ q) (y : List Char) :
    quotedBody? q (q :: d :: y) = some ([], d :: y) := by
  rw [quotedBody?, if_pos rfl, if_neg hd]

theorem afterPoint?_append_eq_none (hx : '.' ∉ x) (hblank : isBlank c = false) (hc : c ≠ '.') :
    afterPoint? (x ++ c :: y) = none := by
  induction x with
  | nil => exact afterPoint?_cons_eq_none hblank hc
  | cons d x ih =>
    rw [List.mem_cons, not_or] at hx
    cases hd : isBlank d with
    | true => rw [List.cons_append, afterPoint?_blank hd, ih hx.2]
    | false => exact afterPoint?_cons_eq_none hd (Ne.symm hx.1)

/-! ## Qualifiers in quotes -/

theorem Token.IsLegible.text_ne_nil (h : t.IsLegible) : t.text ≠ [] := by
  cases t with
  | word cs => exact h.1
  | _ => exact List.cons_ne_nil _ _

theorem Token.IsLegible.not_mem_text (h : t.IsLegible) (hname : ∀ body, t ≠ .name body) : '"' ∉ t.text := by
  cases t with
  | literal body =>
    rw [text, List.mem_cons, List.mem_append, mem_escape_iff, List.mem_singleton]
    exact not_or.mpr ⟨by decide, not_or.mpr ⟨h, by decide⟩⟩
  | name body => exact absurd rfl (hname body)
  | word cs => exact fun hmem => absurd (h.2 _ hmem) (by decide)
  | point => exact fun hmem => absurd (List.mem_singleton.mp hmem) (by decide)
  | blank c =>
    intro hmem
    obtain rfl := List.mem_singleton.mp hmem
    have hquote : Text.isBlank '"' = false := by decide
    exact Bool.false_ne_true (hquote.symm.trans h)
  | sign c =>
    intro hmem
    obtain rfl := List.mem_singleton.mp hmem
    exact absurd h.2.1 (by decide)

/-- Behind the quote that opens the first name in a text stands no point before the end of the name. -/
theorem afterPoint?_of_quotedBody? (h : ∀ t ∈ ts, t.IsLegible)
    (hread : quotedBody? '"' (textOf ts) = some (body, rest)) :
    afterPoint? rest = none := by
  induction ts generalizing body with
  | nil => cases hread
  | cons t ts ih =>
    obtain ⟨ht, hts⟩ := List.forall_mem_cons.mp h
    rw [textOf_cons] at hread
    by_cases hname : ∃ name, t = .name name
    · obtain ⟨name, rfl⟩ := hname
      obtain ⟨hne, hname⟩ := ht
      obtain ⟨d, ds, rfl⟩ := List.exists_cons_of_ne_nil hne
      rw [Token.text, List.cons_append, List.cons_append, List.cons_append,
        quotedBody?_quote_cons (hname d List.mem_cons_self).1] at hread
      cases hread
      rw [List.append_assoc, ← List.cons_append]
      refine afterPoint?_append_eq_none (fun hpoint => ?_) (by decide) (by decide)
      exact (hname '.' hpoint).2.2 rfl
    · rw [quotedBody?_append (ht.not_mem_text fun name heq => hname ⟨name, heq⟩)] at hread
      obtain ⟨r, hr, heq⟩ := Option.map_eq_some_iff.mp hread
      cases heq
      exact ih hts hr

/-- Behind a quote that closes a name starts no qualifier. -/
theorem quotedQualifier?_closing (h : ∀ t ∈ ts, t.IsLegible) (n : Nat) :
    quotedQualifier? ⟨n, b, '"' :: textOf ts⟩ = none := by
  cases hread : quotedBody? '"' (textOf ts) with
  | none => simp only [quotedQualifier?, hread]
  | some r =>
    obtain ⟨body, rest⟩ := r
    cases body with
    | nil => simp only [quotedQualifier?, hread]
    | cons => simp only [quotedQualifier?, hread, afterPoint?_of_quotedBody? h hread]

theorem quotedQualifier?_eq_none (hc : c ≠ '"') (n : Nat) : quotedQualifier? ⟨n, b, c :: cs⟩ = none := by
  rw [quotedQualifier?]
  split
  next heq =>
    cases heq
    exact absurd rfl hc
  next => rfl

theorem head?_textOf_ne (h : ∀ t ∈ ts, t.IsLegible) (hname : ∀ body, ts.head? ≠ some (.name body)) :
    (textOf ts).head? ≠ some '"' := by
  cases ts with
  | nil => nofun
  | cons t ts =>
    have ht := h t List.mem_cons_self
    have hquote := ht.not_mem_text fun body heq => hname body (congrArg some heq)
    obtain ⟨c, cs, htext⟩ := List.exists_cons_of_ne_nil ht.text_ne_nil
    rw [textOf_cons, htext, List.cons_append, List.head?_cons, ne_eq, Option.some.injEq]
    rintro rfl
    exact hquote (htext ▸ List.mem_cons_self)

/-- A name in quotes is a qualifier if a point is the next token. -/
theorem quotedQualifier?_name (hbody : (Token.name body).IsLegible) (h : ∀ t ∈ ts, t.IsLegible)
    (hname : ∀ other, ts.head? ≠ some (.name other)) (n : Nat) :
    quotedQualifier? ⟨n, b, textOf (.name body :: ts)⟩ = afterPoint? (textOf ts) := by
  obtain ⟨hne, hplain⟩ := hbody
  have hread : quotedBody? '"' (body ++ '"' :: textOf ts) = some (body, textOf ts) :=
    Safety.quotedBody?_of_not_mem (fun hmem => (hplain _ hmem).1 rfl) (head?_textOf_ne h hname)
  obtain ⟨d, ds, rfl⟩ := List.exists_cons_of_ne_nil hne
  rw [quotedQualifier?, textOf_cons, Token.text]
  simp only [List.cons_append, List.append_assoc, List.nil_append] at hread ⊢
  rw [hread]

theorem dropQuoted_cons (hname : ∀ body, t ≠ .name body) (ts : List Token) :
    dropQuoted (t :: ts) = t :: dropQuoted ts := by
  cases t with
  | name body => exact absurd rfl (hname body)
  | _ => rfl

theorem dropQuoted_name (h : ts.head? ≠ some .point) :
    dropQuoted (.name body :: ts) = .name body :: dropQuoted ts := by
  cases ts with
  | nil => rfl
  | cons t ts =>
    cases t with
    | point => exact absurd rfl h
    | _ => rfl

theorem Token.Apart.of_name (h : t.Apart (.name body)) (u : Token) : t.Apart u := by
  cases t with
  | word | name => exact h.elim
  | literal | point | blank | sign => cases u <;> trivial

/-- A name that is no qualifier stays. -/
theorem eraseAfter_quotedQualifier?_name (hbody : (Token.name body).IsLegible) (h : ∀ t ∈ ts, t.IsLegible)
    (hname : ∀ other, ts.head? ≠ some (.name other)) (hnone : afterPoint? (textOf ts) = none) :
    eraseAfter quotedQualifier? b (textOf (.name body :: ts)) =
      (Token.name body).text ++ eraseAfter quotedQualifier? (some '"') (textOf ts) := by
  have hlocal := isLocal_quotedQualifier?
  have hopening := quotedQualifier?_name (b := b) hbody h hname 0
  rw [hnone] at hopening
  rw [textOf_cons, Token.text, List.cons_append, List.append_assoc] at hopening ⊢
  rw [hlocal.eraseAfter_cons hopening, hlocal.eraseAfter_append]
  · rw [List.singleton_append, hlocal.eraseAfter_cons (quotedQualifier?_closing h 0), List.cons_append,
      List.append_assoc, List.singleton_append]
  · rintro u d v rfl
    refine quotedQualifier?_eq_none ?_ 0
    exact (hbody.2 d (List.mem_append_right u List.mem_cons_self)).1

/-- Without qualifiers in quotes the text after a character is that of other tokens, and these may stand wherever the
ones before could. -/
structure ErasesQuoted (b : Option Char) (ts us : List Token) : Prop where
  text_eq : eraseAfter quotedQualifier? b (textOf ts) = textOf us
  lexed : Lexed us
  solid_eq : solid us = dropQuoted (solid ts)
  apart_head : ∀ p : Token, (∀ t ∈ ts.head?, p.Apart t) → ∀ u ∈ us.head?, p.Apart u

/-- A token that stays stands before what is left of the tokens behind it. -/
theorem ErasesQuoted.cons (hrest : ErasesQuoted b' ts us) (h : Lexed (t :: ts))
    (herase : eraseAfter quotedQualifier? b (textOf (t :: ts)) = t.text ++ eraseAfter quotedQualifier? b' (textOf ts))
    (hdrop : t.isBlank = false → dropQuoted (t :: solid ts) = t :: dropQuoted (solid ts)) :
    ErasesQuoted b (t :: ts) (t :: us) where
  text_eq := by rw [herase, hrest.text_eq, textOf_cons]
  lexed := by
    obtain ⟨hnext, -⟩ := List.isChain_cons.mp h.apart
    exact ⟨List.forall_mem_cons.mpr ⟨h.head, hrest.lexed.tokens⟩,
      List.isChain_cons.mpr ⟨hrest.apart_head t hnext, hrest.lexed.apart⟩⟩
  solid_eq := by
    cases hblank : t.isBlank with
    | true => rw [solid_cons_of_isBlank hblank, solid_cons_of_isBlank hblank, hrest.solid_eq]
    | false => rw [solid_cons hblank, solid_cons hblank, hrest.solid_eq, hdrop hblank]
  apart_head := fun _ hp => hp

/-- A qualifier in quotes goes with the point behind it. -/
theorem ErasesQuoted.exists_qualifier (h : ∀ d : Option Char, ∃ vs, ErasesQuoted d us vs)
    (hmatch : quotedQualifier? ⟨0, b, textOf (.name body :: ts)⟩ = some (textOf us))
    (hpoint : afterPoint? (textOf ts) = some (textOf us)) (hsolid : solid ts = .point :: solid us) :
    ∃ vs, ErasesQuoted b (.name body :: ts) vs := by
  obtain ⟨x, y, htext, -⟩ := afterPoint?_eq_some_iff.mp hpoint
  have hcut : textOf (.name body :: ts) = ((Token.name body).text ++ x ++ '.' :: y) ++ textOf us := by
    rw [textOf_cons, htext]
    simp only [List.append_assoc, List.cons_append]
  rw [hcut] at hmatch
  obtain ⟨vs, hvs⟩ := h (lastOr b ((Token.name body).text ++ x ++ '.' :: y))
  refine ⟨vs, ?_, hvs.lexed, ?_, fun p hp u _ => (hp _ rfl).of_name u⟩
  · rw [hcut, isLocal_quotedQualifier?.eraseAfter_of_match hmatch, hvs.text_eq]
  · rw [hvs.solid_eq, solid_cons rfl, hsolid, dropQuoted]

/-- Without qualifiers in quotes the text of an expression is one of the tokens without them. -/
theorem exists_erasesQuoted (h : Lexed ts) (b : Option Char) : ∃ us, ErasesQuoted b ts us := by
  -- a qualifier goes with its point and the white space around that, so the induction is on the length
  induction hlength : ts.length using Nat.strong_induction_on generalizing ts b with
  | h k ih =>
    subst hlength
    cases ts with
    | nil => exact ⟨[], isLocal_quotedQualifier?.eraseAfter_nil, h, rfl, nofun⟩
    | cons t ts =>
      have htail (d : Option Char) : ∃ us, ErasesQuoted d ts us := ih ts.length (Nat.lt_succ_self _) h.tail d rfl
      by_cases hname : ∃ body, t = .name body
      swap
      · have hother : ∀ body, t ≠ .name body := fun body heq => hname ⟨body, heq⟩
        obtain ⟨us, hus⟩ := htail (lastOr b t.text)
        refine ⟨t :: us, hus.cons h ?_ fun _ => dropQuoted_cons hother _⟩
        rw [textOf_cons]
        refine isLocal_quotedQualifier?.eraseAfter_append fun u d v htext => quotedQualifier?_eq_none ?_ 0
        rintro rfl
        exact h.head.not_mem_text hother (htext ▸ List.mem_append_right u List.mem_cons_self)
      obtain ⟨body, rfl⟩ := hname
      obtain ⟨hnext, -⟩ := List.isChain_cons.mp h.apart
      have hapart : ∀ other, ts.head? ≠ some (.name other) := fun other heq => hnext _ heq
      rcases afterPoint?_textOf h.tail.tokens with ⟨hnone, hsolid⟩ | ⟨us, hsuffix, hshorter, hpoint, hsolid, -⟩
      · obtain ⟨us, hus⟩ := htail (some '"')
        exact ⟨_, hus.cons h (eraseAfter_quotedQualifier?_name h.head h.tail.tokens hapart hnone) fun _ =>
          dropQuoted_name hsolid⟩
      · have hmatch := quotedQualifier?_name (b := b) h.head h.tail.tokens hapart 0
        exact ErasesQuoted.exists_qualifier
          (fun d => ih us.length (Nat.lt_succ_of_lt hshorter) (h.tail.suffix hsuffix) d rfl)
          (hmatch.trans hpoint) hpoint hsolid

/-! ## Words that qualify -/

/-- The text of a token without white space, and without qualifiers inside a literal. -/
def Token.bare : Token → List Char
  | literal body => '\'' :: (escape ((erase wordQualifier? body).filter fun c => !Text.isBlank c) ++ ['\''])
  | name body => '"' :: ((body.filter fun c => !Text.isBlank c) ++ ['"'])
  | word cs => cs
  | point => ['.']
  | blank _ => []
  | sign c => [c]

theorem wordQualifier?_cons (n : Nat) (b : Option Char) (c : Char) (cs : List Char) :
    wordQualifier? ⟨n, b, c :: cs⟩ =
      if !b.any isWord && isNameStart c then
        (afterPoint? (cs.dropWhile isWord)).filter fun r => r.head?.any fun d => isNameStart d || d == '"'
      else none :=
  rfl

theorem wordQualifier?_eq_none (hc : isNameStart c = false) (n : Nat) : wordQualifier? ⟨n, b, c :: cs⟩ = none := by
  rw [wordQualifier?_cons, hc, Bool.and_false, if_neg Bool.false_ne_true]

theorem wordQualifier?_inside {d : Char} (hd : isWord d) (n : Nat) : wordQualifier? ⟨n, some d, c :: cs⟩ = none := by
  rw [wordQualifier?_cons, Option.any_some, hd, Bool.not_true, Bool.false_and, if_neg Bool.false_ne_true]

theorem wordQualifier?_eq_none_of_afterPoint? (h : afterPoint? (cs.dropWhile isWord) = none) (n : Nat) :
    wordQualifier? ⟨n, b, c :: cs⟩ = none := by
  rw [wordQualifier?_cons, h, Option.filter_none, ite_self]

/-! ### Escaped texts -/

/-- What a literal starts with is skipped inside as it is outside. -/
theorem dropWhile_escape_append {p : Char → Bool} (hp : p '\'' = false) (cs y : List Char) :
    (escape cs ++ '\'' :: y).dropWhile p = escape (cs.dropWhile p) ++ '\'' :: y := by
  have hquote (z : List Char) : ('\'' :: z).dropWhile p = '\'' :: z :=
    List.dropWhile_cons_of_neg (by rw [hp]; exact Bool.false_ne_true)
  induction cs with
  | nil => exact hquote y
  | cons c cs ih =>
    by_cases hc : c = '\''
    · subst hc
      rw [hquote, escape_apostrophe, List.cons_append, hquote]
    · rw [escape_cons hc, List.cons_append]
      cases hpc : p c with
      | true => rw [List.dropWhile_cons_of_pos hpc, List.dropWhile_cons_of_pos hpc, ih]
      | false =>
        rw [List.dropWhile_cons_of_neg (by simp [hpc]), List.dropWhile_cons_of_neg (by simp [hpc]), escape_cons hc,
          List.cons_append]

theorem afterPoint?_escape_append (cs y : List Char) :
    afterPoint? (escape cs ++ '\'' :: y) = (afterPoint? cs).map fun r => escape r ++ '\'' :: y := by
  have hblank : isBlank '\'' = false := by decide
  have hquote (z : List Char) : afterPoint? ('\'' :: z) = none := afterPoint?_cons_eq_none hblank (by decide)
  induction cs with
  | nil => exact hquote y
  | cons c cs ih =>
    by_cases hc : c = '\''
    · subst hc
      rw [hquote, escape_apostrophe, List.cons_append, hquote]
      rfl
    rw [escape_cons hc, List.cons_append]
    cases hspace : isBlank c with
    | true => rw [afterPoint?_blank hspace, afterPoint?_blank hspace, ih]
    | false =>
      by_cases hpoint : c = '.'
      · subst hpoint
        rw [afterPoint?_point, afterPoint?_point, dropWhile_escape_append hblank]
        rfl
      · rw [afterPoint?_cons_eq_none hspace hpoint, afterPoint?_cons_eq_none hspace hpoint]
        rfl

theorem wordQualifier?_escape_append (hb : b.any isWord = b'.any isWord) (hc : c ≠ '\'') (n : Nat)
    (cs y : List Char) :
    wordQualifier? ⟨n, b, escape (c :: cs) ++ '\'' :: y⟩ =
      (wordQualifier? ⟨n, b', c :: cs⟩).map fun r => escape r ++ '\'' :: y := by
  have hnext (r : List Char) : ((escape r ++ '\'' :: y).head?.any fun d => isNameStart d || d == '"') =
      r.head?.any fun d => isNameStart d || d == '"' := by
    cases r with
    | nil => rfl
    | cons d ds =>
      by_cases hd : d = '\''
      · subst hd
        rfl
      · rw [escape_cons hd]
        rfl
  rw [escape_cons hc, List.cons_append, wordQualifier?_cons, wordQualifier?_cons, hb, dropWhile_escape_append rfl,
    afterPoint?_escape_append]
  split_ifs
  · rw [Option.filter_map]
    simp only [Function.comp_def, hnext]
  · rfl

theorem lastOr_eq_of_ne_nil (h : x ≠ []) : lastOr b x = lastOr b' x := by
  obtain ⟨c, cs, rfl⟩ := List.exists_cons_of_ne_nil h
  rw [lastOr_cons, lastOr_cons]

/-- There is no apostrophe in a word that qualifies. -/
theorem exists_escape_eq_of_wordQualifier? {n : Nat} {after : List Char}
    (h : wordQualifier? ⟨n, b, cs⟩ = some after) :
    ∃ m, (m ≠ [] ∧ '\'' ∉ m) ∧ cs = m ++ after := by
  obtain ⟨c, w, u, v, heq, hstart, hw, hu, hv⟩ := exists_of_wordQualifier? h
  refine ⟨_, ⟨List.cons_ne_nil _ _, ?_⟩, heq⟩
  rw [List.mem_cons, List.mem_append, List.mem_append, List.mem_cons]
  have hquote : isWord '\'' = false ∧ isBlank '\'' = false := by decide
  rintro (rfl | hmem | hmem | hmem | hmem)
  · rw [isWord_of_isNameStart hstart] at hquote
    cases hquote.1
  · rw [hw _ hmem] at hquote
    cases hquote.1
  · rw [hu _ hmem] at hquote
    cases hquote.2
  · cases hmem
  · rw [hv _ hmem] at hquote
    cases hquote.2

/-- Qualifiers are erased from a literal as from its value. -/
theorem eraseAfter_escape_append (hb : b.any isWord = b'.any isWord) (cs y : List Char) :
    eraseAfter wordQualifier? b (escape cs ++ '\'' :: y) =
      escape (eraseAfter wordQualifier? b' cs) ++ '\'' :: eraseAfter wordQualifier? (some '\'') y := by
  have hlocal := isLocal_wordQualifier?
  have hquote (d : Option Char) (z : List Char) :
      eraseAfter wordQualifier? d ('\'' :: z) = '\'' :: eraseAfter wordQualifier? (some '\'') z :=
    hlocal.eraseAfter_cons (wordQualifier?_eq_none rfl 0)
  induction hlength : cs.length using Nat.strong_induction_on generalizing cs b b' with
  | h k ih =>
    subst hlength
    cases cs with
    | nil => rw [hlocal.eraseAfter_nil]; exact hquote b y
    | cons c cs =>
      by_cases hc : c = '\''
      · subst hc
        rw [escape_apostrophe, List.cons_append, List.cons_append, hquote, hquote, hquote, escape_apostrophe,
          ih cs.length (Nat.lt_succ_self _) rfl cs rfl]
        rfl
      have hstep := wordQualifier?_escape_append hb hc 0 cs y
      cases hmatch : wordQualifier? ⟨0, b', c :: cs⟩ with
      | none =>
        rw [hmatch, escape_cons hc] at hstep
        rw [List.cons_append] at hstep
        rw [hlocal.eraseAfter_cons hmatch, escape_cons hc, escape_cons hc, List.cons_append,
          hlocal.eraseAfter_cons hstep, ih cs.length (Nat.lt_succ_self _) rfl cs rfl]
        rfl
      | some after =>
        obtain ⟨m, hm, heq⟩ := exists_escape_eq_of_wordQualifier? hmatch
        have hshorter : after.length < (c :: cs).length := by
          rw [heq, List.length_append]
          exact Nat.lt_add_of_pos_left (List.length_pos_of_ne_nil hm.1)
        rw [hmatch, heq, escape_append, escape_eq_self hm.2, List.append_assoc] at hstep
        rw [heq] at hmatch
        rw [heq, hlocal.eraseAfter_of_match hmatch, escape_append, escape_eq_self hm.2, List.append_assoc,
          hlocal.eraseAfter_of_match hstep]
        exact ih after.length hshorter (by rw [lastOr_eq_of_ne_nil hm.1]) after rfl

/-! ### Tokens without qualifying words -/

theorem isWord_head?_textOf (h : ∀ t ∈ ts, t.IsLegible) (hword : ∀ cs, ts.head? ≠ some (.word cs)) :
    ∀ c ∈ (textOf ts).head?, isWord c = false := by
  cases ts with
  | nil => nofun
  | cons t ts =>
    have ht := h t List.mem_cons_self
    rintro c hc
    cases t with
    | word cs => exact absurd rfl (hword cs)
    | literal | name | point => cases hc; decide
    | blank d =>
      obtain rfl : d = c := Option.some.inj hc
      exact isWord_of_isBlank ht
    | sign d =>
      obtain rfl : d = c := Option.some.inj hc
      exact (Bool.or_eq_false_iff.mp ht.1).1

theorem any_head?_textOf (h : ∀ t ∈ ts, t.IsLegible) :
    ((textOf ts).head?.any fun d => isNameStart d || d == '"') = ts.head?.any Token.startsName := by
  cases ts with
  | nil => rfl
  | cons t ts =>
    have ht := h t List.mem_cons_self
    cases t with
    | literal | name | point => rfl
    | word cs =>
      obtain ⟨d, ds, rfl⟩ := List.exists_cons_of_ne_nil ht.1
      have hd : d ≠ '"' := by
        rintro rfl
        exact absurd (ht.2 '"' List.mem_cons_self) (by decide)
      show (isNameStart d || d == '"') = isNameStart d
      rw [beq_false_of_ne hd, Bool.or_false]
    | blank d =>
      have hd : d ≠ '"' := by
        rintro rfl
        exact ht.not_mem_text nofun List.mem_cons_self
      show (isNameStart d || d == '"') = false
      rw [beq_false_of_ne hd, isNameStart_eq_false (isWord_of_isBlank ht)]
      rfl
    | sign d =>
      have hd : d ≠ '"' := by
        rintro rfl
        exact ht.not_mem_text nofun List.mem_cons_self
      show (isNameStart d || d == '"') = false
      rw [beq_false_of_ne hd, isNameStart_eq_false (Bool.or_eq_false_iff.mp ht.1).1]
      rfl

theorem dropWords_cons (hword : ∀ cs, t ≠ .word cs) (ts : List Token) : dropWords (t :: ts) = t :: dropWords ts := by
  cases t with
  | word cs => exact absurd rfl (hword cs)
  | _ => rfl

theorem dropWords_word (h : ts.head? ≠ some .point) : dropWords (.word cs :: ts) = .word cs :: dropWords ts := by
  cases ts with
  | nil => rfl
  | cons t ts =>
    cases t with
    | point => exact absurd rfl h
    | _ => rfl

theorem dropWords_word_point (cs : List Char) (ts : List Token) :
    dropWords (.word cs :: .point :: ts) =
      if (Token.word cs).startsName && ts.head?.any Token.startsName then dropWords ts
      else .word cs :: dropWords (.point :: ts) := by
  cases ts with
  | nil => simp [dropWords]
  | cons t ts =>
    have hpoint : dropWords (.point :: t :: ts) = .point :: dropWords (t :: ts) := rfl
    rw [dropWords, List.head?_cons, Option.any_some, hpoint]

theorem head?_solid (h : ∀ t ∈ ts.head?, t.isBlank = false) : (solid ts).head? = ts.head? := by
  cases ts with
  | nil => rfl
  | cons t ts => rw [solid_cons (h t rfl)]; rfl

/-- A word is a qualifier if a point and a name are the next tokens. -/
theorem wordQualifier?_word (hcs : (Token.word (c :: cs)).IsLegible) (h : ∀ t ∈ ts, t.IsLegible)
    (hword : ∀ other, ts.head? ≠ some (.word other)) (hb : b.any isWord = false) (n : Nat) :
    wordQualifier? ⟨n, b, textOf (.word (c :: cs) :: ts)⟩ =
      if isNameStart c then (afterPoint? (textOf ts)).filter fun r => r.head?.any fun d => isNameStart d || d == '"'
      else none := by
  have hrest : (cs ++ textOf ts).dropWhile isWord = textOf ts := by
    rw [List.dropWhile_append_of_pos fun d hd => hcs.2 d (List.mem_cons_of_mem c hd)]
    exact dropWhile_eq_self (isWord_head?_textOf h hword)
  rw [textOf_cons, Token.text, List.cons_append, wordQualifier?_cons, hb, Bool.not_false, Bool.true_and, hrest]

theorem dropWhile_append_cons {p : Char → Bool} (hc : p c = false) (x y : List Char) :
    (x ++ c :: y).dropWhile p = x.dropWhile p ++ c :: y := by
  rw [List.dropWhile_append, List.dropWhile_cons_of_neg (by rw [hc]; exact Bool.false_ne_true)]
  split_ifs with hempty
  · rw [List.isEmpty_iff.mp hempty, List.nil_append]
  · rfl

/-- No qualifier starts inside a name. -/
theorem eraseAfter_wordQualifier?_name (hbody : (Token.name body).IsLegible) (y : List Char) :
    eraseAfter wordQualifier? b ((Token.name body).text ++ y) =
      (Token.name body).text ++ eraseAfter wordQualifier? (some '"') y := by
  have hlocal := isLocal_wordQualifier?
  have hquote (d : Option Char) (z : List Char) :
      eraseAfter wordQualifier? d ('"' :: z) = '"' :: eraseAfter wordQualifier? (some '"') z :=
    hlocal.eraseAfter_cons (wordQualifier?_eq_none rfl 0)
  rw [Token.text, List.cons_append, List.append_assoc, List.singleton_append, hquote, hlocal.eraseAfter_append,
    hquote, List.cons_append, List.append_assoc, List.singleton_append]
  rintro u d v rfl
  refine wordQualifier?_eq_none_of_afterPoint? ?_ 0
  rw [dropWhile_append_cons rfl]
  refine afterPoint?_append_eq_none (fun hpoint => ?_) (by decide) (by decide)
  have hmem : '.' ∈ v := (List.dropWhile_sublist isWord).subset hpoint
  exact (hbody.2 '.' (List.mem_append_right u (List.mem_cons_of_mem d hmem))).2.2 rfl

theorem exists_lastOr_eq {p : Char → Bool} (hne : x ≠ []) (hx : ∀ c ∈ x, p c) : ∃ c, lastOr b x = some c ∧ p c := by
  refine ⟨x.getLast hne, ?_, hx _ (List.getLast_mem hne)⟩
  rw [lastOr, List.getLast?_eq_some_getLast hne, Option.some_or]

theorem any_isWord_lastOr_point (h : ∀ c ∈ x, isBlank c) : (lastOr (some '.') x).any isWord = false := by
  by_cases hx : x = []
  · subst hx
    rfl
  · obtain ⟨c, hlast, hc⟩ := exists_lastOr_eq (b := some '.') hx h
    rw [hlast, Option.any_some, isWord_of_isBlank hc]

/-- A word that is no qualifier stays. -/
theorem eraseAfter_wordQualifier?_word (hword : ∀ d ∈ c :: cs, isWord d)
    (hnone : wordQualifier? ⟨0, b, c :: (cs ++ y)⟩ = none) :
    eraseAfter wordQualifier? b (c :: cs ++ y) = c :: cs ++ eraseAfter wordQualifier? (lastOr b (c :: cs)) y := by
  refine isLocal_wordQualifier?.eraseAfter_append fun u d v heq => ?_
  cases u with
  | nil =>
    cases heq
    exact hnone
  | cons e u =>
    have hbefore : ∀ d ∈ e :: u, isWord d := fun d hd => hword d (heq ▸ List.mem_append_left _ hd)
    obtain ⟨f, hlast, hf⟩ := exists_lastOr_eq (b := b) (List.cons_ne_nil e u) hbefore
    rw [hlast]
    exact wordQualifier?_inside hf 0

/-- A token that is no word stays, but for qualifiers in a literal, and nothing behind it is inside a word. -/
theorem exists_eraseAfter_wordQualifier?_other (ht : t.IsLegible) (hword : ∀ cs, t ≠ .word cs) (b : Option Char)
    (y : List Char) :
    ∃ z d, eraseAfter wordQualifier? b (t.text ++ y) = z ++ eraseAfter wordQualifier? d y ∧
      (z.filter fun c => !isBlank c) = t.bare ∧ d.any isWord = false := by
  have hlocal := isLocal_wordQualifier?
  have hsingle {c : Char} (hc : isWord c = false) (z : List Char) :
      eraseAfter wordQualifier? b (c :: z) = c :: eraseAfter wordQualifier? (some c) z :=
    hlocal.eraseAfter_cons (wordQualifier?_eq_none (isNameStart_eq_false hc) 0)
  cases t with
  | word cs => exact absurd rfl (hword cs)
  | literal body =>
    have hstart : (some '\'').any isWord = (none : Option Char).any isWord := rfl
    refine ⟨'\'' :: (escape (erase wordQualifier? body) ++ ['\'']), some '\'', ?_, ?_, rfl⟩
    · rw [Token.text, List.cons_append, List.append_assoc, List.singleton_append, hsingle rfl,
        eraseAfter_escape_append hstart, List.cons_append, List.append_assoc, List.singleton_append,
        erase_eq_eraseAfter]
    · rw [List.filter_cons_of_pos (by decide), List.filter_append, filter_escape (by decide)]
      rfl
  | name body =>
    refine ⟨_, _, eraseAfter_wordQualifier?_name ht y, ?_, rfl⟩
    rw [Token.text, List.filter_cons_of_pos (by decide), List.filter_append]
    rfl
  | point => exact ⟨['.'], some '.', hsingle rfl y, rfl, rfl⟩
  | blank c =>
    have hc : isBlank c := ht
    have hapart : isWord c = false := isWord_of_isBlank hc
    exact ⟨[c], some c, hsingle hapart y, List.filter_cons_of_neg (by simp [hc]), hapart⟩
  | sign c =>
    have hapart : isWord c = false := (Bool.or_eq_false_iff.mp ht.1).1
    exact ⟨[c], some c, hsingle hapart y, List.filter_cons_of_pos (by simp [ht.2.2.1]), hapart⟩

/-- Without qualifiers and white space the text after a character is that of the tokens without them. -/
def ErasesTo (b : Option Char) (ts : List Token) : Prop :=
  (eraseAfter wordQualifier? b (textOf ts)).filter (fun c => !isBlank c) = (dropWords (solid ts)).flatMap Token.bare

/-- A token that stays stands before what is left of the tokens behind it. -/
theorem ErasesTo.cons (h : ErasesTo b' ts)
    (herase : eraseAfter wordQualifier? b (textOf (t :: ts)) = x ++ eraseAfter wordQualifier? b' (textOf ts))
    (hx : (x.filter fun c => !isBlank c) = t.bare) (hdrop : dropWords (t :: solid ts) = t :: dropWords (solid ts)) :
    ErasesTo b (t :: ts) := by
  rw [ErasesTo, herase, List.filter_append, hx, h]
  cases hblank : t.isBlank with
  | true =>
    rw [solid_cons_of_isBlank hblank]
    cases t with
    | blank => rfl
    | _ => cases hblank
  | false => rw [solid_cons hblank, hdrop, List.flatMap_cons]

/-- A word that is no qualifier stays. -/
theorem ErasesTo.word (h : ErasesTo (lastOr b (c :: cs)) ts) (hword : ∀ d ∈ c :: cs, isWord d)
    (hnone : wordQualifier? ⟨0, b, textOf (.word (c :: cs) :: ts)⟩ = none)
    (hdrop : dropWords (.word (c :: cs) :: solid ts) = .word (c :: cs) :: dropWords (solid ts)) :
    ErasesTo b (.word (c :: cs) :: ts) := by
  rw [textOf_cons] at hnone
  refine h.cons (by rw [textOf_cons]; exact eraseAfter_wordQualifier?_word hword hnone) ?_ hdrop
  refine List.filter_eq_self.mpr fun d hd => ?_
  rw [isBlank_of_isWord (hword d hd)]
  rfl

/-- A qualifier goes with the point behind it. -/
theorem ErasesTo.qualifier (h : ∀ d : Option Char, d.any isWord = false → ErasesTo d us)
    (hmatch : wordQualifier? ⟨0, b, textOf (.word cs :: ts)⟩ = some (textOf us))
    (hpoint : afterPoint? (textOf ts) = some (textOf us)) (hsolid : solid ts = .point :: solid us)
    (hdrop : dropWords (.word cs :: .point :: solid us) = dropWords (solid us)) : ErasesTo b (.word cs :: ts) := by
  obtain ⟨x, y, htext, -, hy, -⟩ := afterPoint?_eq_some_iff.mp hpoint
  have hcut : textOf (.word cs :: ts) = (cs ++ x ++ '.' :: y) ++ textOf us := by
    rw [textOf_cons, htext]
    simp only [Token.text, List.append_assoc, List.cons_append]
  have hafter : (lastOr b (cs ++ x ++ '.' :: y)).any isWord = false := by
    rw [lastOr_append, lastOr_cons]
    exact any_isWord_lastOr_point hy
  rw [hcut] at hmatch
  rw [ErasesTo, hcut, isLocal_wordQualifier?.eraseAfter_of_match hmatch, h _ hafter, solid_cons rfl, hsolid, hdrop]

/-- Without qualifiers and white space the text of an expression is that of its tokens without them. -/
theorem filter_eraseAfter_wordQualifier? (h : Lexed ts)
    (hb : ∀ cs, ts.head? = some (.word cs) → b.any isWord = false) :
    (eraseAfter wordQualifier? b (textOf ts)).filter (fun c => !isBlank c) =
      (dropWords (solid ts)).flatMap Token.bare := by
  show ErasesTo b ts
  -- as before a qualifier goes with its point, so the induction is on the length
  induction hlength : ts.length using Nat.strong_induction_on generalizing ts b with
  | h k ih =>
    subst hlength
    cases ts with
    | nil => rw [ErasesTo, textOf, List.flatMap_nil, isLocal_wordQualifier?.eraseAfter_nil]; rfl
    | cons t ts =>
      obtain ⟨hnext, -⟩ := List.isChain_cons.mp h.apart
      have htail {d : Option Char} (hd : ∀ cs, ts.head? = some (.word cs) → d.any isWord = false) : ErasesTo d ts :=
        ih ts.length (Nat.lt_succ_self _) h.tail hd rfl
      by_cases hword : ∃ cs, t = .word cs
      swap
      · have hother : ∀ cs, t ≠ .word cs := fun cs heq => hword ⟨cs, heq⟩
        obtain ⟨z, d, herase, hz, hd⟩ := exists_eraseAfter_wordQualifier?_other h.head hother b (textOf ts)
        exact (htail fun _ _ => hd).cons (by rw [textOf_cons, herase]) hz (dropWords_cons hother _)
      obtain ⟨cs, rfl⟩ := hword
      obtain ⟨c, w, rfl⟩ := List.exists_cons_of_ne_nil h.head.1
      have hapart : ∀ other, ts.head? ≠ some (.word other) := fun other heq => hnext _ heq
      have hstay := (htail (d := lastOr b (c :: w)) fun other heq => absurd heq (hapart other)).word h.head.2
      have hfirst := wordQualifier?_word h.head h.tail.tokens hapart (hb _ rfl) 0
      rcases afterPoint?_textOf h.tail.tokens with ⟨hnone, hsolid⟩ | ⟨us, hsuffix, hshorter, hpoint, hsolid, hblank⟩
      · rw [hnone, Option.filter_none, ite_self] at hfirst
        exact hstay hfirst (dropWords_word hsolid)
      have hpassed : dropWords (.word (c :: w) :: .point :: solid us) =
          if isNameStart c && us.head?.any Token.startsName then dropWords (solid us)
          else .word (c :: w) :: dropWords (.point :: solid us) := by
        rw [dropWords_word_point, head?_solid hblank]
        rfl
      rw [hpoint, Option.filter_some, any_head?_textOf (h.tail.suffix hsuffix).tokens] at hfirst
      by_cases hqualifies : isNameStart c && us.head?.any Token.startsName
      · obtain ⟨hstart, hname⟩ := Bool.and_eq_true_iff.mp hqualifies
        rw [if_pos hstart, if_pos hname] at hfirst
        exact .qualifier (fun d hd => ih us.length (Nat.lt_succ_of_lt hshorter) (h.tail.suffix hsuffix)
          (fun _ _ => hd) rfl) hfirst hpoint hsolid (by rw [hpassed, if_pos hqualifies])
      · refine hstay ?_ (by rw [hsolid, hpassed, if_neg hqualifies])
        rw [hfirst]
        split_ifs with hstart hname
        · exact absurd (Bool.and_eq_true_iff.mpr ⟨hstart, hname⟩) hqualifies
        · rfl
        · rfl

end MetricLayer.Sql
