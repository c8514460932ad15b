import MetricLayer.Proofs.Sql.Mask
import MetricLayer.Proofs.Text.Keyword
import MetricLayer.Sql.Alias

/-!
# Texts without their literals

`hide` blanks what stands in single quotes and, unlike `mask`, keeps names in double quotes.  Texts that differ
in their literals only are the same when these are hidden (`hide_eq_of_differInLiterals`).

A reader of texts does not look into literals when it commutes with `hide`: it reads the same off both texts,
and leaves a rest of which the one is the other with its literals hidden.  The readers of white space, keywords,
names, numbers and stars all do.
-/

namespace MetricLayer.Sql

open MetricLayer.Text

/-- A character that is blanked in single quotes, given the open quote before it. -/
def hideStep (state : Option Char) (c : Char) : Char :=
  if state = some '\'' ∧ c ≠ '\'' then '_' else c

/-- Hides the literals of a text that starts inside the given quote. -/
def hideFrom : Option Char → List Char → List Char
  | _, [] => []
  | state, c :: cs => hideStep state c :: hideFrom (quoteStep state c) cs

/-- The text with what stands in single quotes blanked. -/
def hide (cs : List Char) : List Char :=
  hideFrom none cs

variable {cs a b : List Char} {state : Option Char} {c : Char}

/-! ## One character -/

theorem hideStep_of_ne (h : state ≠ some '\'') (c : Char) : hideStep state c = c :=
  if_neg fun hstep => h hstep.1

theorem hideStep_single (h : c ≠ '\'') : hideStep (some '\'') c = '_' :=
  if_pos ⟨rfl, h⟩

theorem quoteStep_hideStep (state : Option Char) (c : Char) : quoteStep state (hideStep state c) = quoteStep state c := by
  by_cases h : state = some '\'' ∧ c ≠ '\''
  · obtain ⟨rfl, hc⟩ := h
    rw [hideStep_single hc, quoteStep, quoteStep, if_neg (by decide), if_neg hc]
  · rw [hideStep, if_neg h]

theorem maskStep_hideStep (state : Option Char) (c : Char) : maskStep state (hideStep state c) = maskStep state c := by
  by_cases h : state = some '\'' ∧ c ≠ '\''
  · obtain ⟨rfl, hc⟩ := h
    rw [hideStep_single hc, maskStep, maskStep, if_neg (by decide), if_neg hc]
  · rw [hideStep, if_neg h]

/-! ## Whole texts -/

@[simp] theorem length_hideFrom (state : Option Char) (cs : List Char) : (hideFrom state cs).length = cs.length := by
  induction cs generalizing state with
  | nil => rfl
  | cons c cs ih => rw [hideFrom, List.length_cons, List.length_cons, ih]

@[simp] theorem length_hide (cs : List Char) : (hide cs).length = cs.length :=
  length_hideFrom none cs

@[simp] theorem hide_nil : hide [] = [] := rfl

theorem isEmpty_hide (cs : List Char) : (hide cs).isEmpty = cs.isEmpty := by
  cases cs <;> rfl

theorem hideFrom_append (state : Option Char) (a b : List Char) :
    hideFrom state (a ++ b) = hideFrom state a ++ hideFrom (quoteAfter state a) b := by
  induction a generalizing state with
  | nil => rfl
  | cons c a ih => rw [List.cons_append, hideFrom, ih, hideFrom, List.cons_append, quoteAfter, quoteAfter, List.foldl_cons]

theorem hide_append (ha : Closed a) (b : List Char) : hide (a ++ b) = hide a ++ hide b := by
  rw [hide, hideFrom_append, ha]
  rfl

theorem hide_cons (hc : isQuote c = false) (cs : List Char) : hide (c :: cs) = c :: hide cs := by
  rw [hide, hideFrom, hideStep_of_ne (by simp), quoteStep, hc, if_neg Bool.false_ne_true]
  rfl

theorem hide_quote (hc : isQuote c) (cs : List Char) : hide (c :: cs) = c :: hideFrom (some c) cs := by
  rw [hide, hideFrom, hideStep_of_ne (by simp), quoteStep, if_pos hc]

@[simp] theorem quoteAfter_hideFrom (state : Option Char) (cs : List Char) :
    quoteAfter state (hideFrom state cs) = quoteAfter state cs := by
  induction cs generalizing state with
  | nil => rfl
  | cons c cs ih =>
    rw [hideFrom, quoteAfter, List.foldl_cons, quoteStep_hideStep]
    exact ih _

@[simp] theorem closed_hide_iff : Closed (hide cs) ↔ Closed cs := by
  rw [Closed, hide, quoteAfter_hideFrom, Closed]

@[simp] theorem maskFrom_hideFrom (state : Option Char) (cs : List Char) :
    maskFrom state (hideFrom state cs) = maskFrom state cs := by
  induction cs generalizing state with
  | nil => rfl
  | cons c cs ih => rw [hideFrom, maskFrom, maskStep_hideStep, quoteStep_hideStep, ih, maskFrom]

@[simp] theorem mask_hide (cs : List Char) : mask (hide cs) = mask cs :=
  maskFrom_hideFrom none cs

theorem hideFrom_take (state : Option Char) (n : Nat) (cs : List Char) :
    hideFrom state (cs.take n) = (hideFrom state cs).take n := by
  induction cs generalizing state n with
  | nil => rw [List.take_nil, hideFrom, List.take_nil]
  | cons c cs ih =>
    cases n with
    | zero => rfl
    | succ n => rw [List.take_succ_cons, hideFrom, ih, hideFrom, List.take_succ_cons]

theorem hide_take (n : Nat) (cs : List Char) : hide (cs.take n) = (hide cs).take n :=
  hideFrom_take none n cs

theorem hide_drop {n : Nat} (h : Closed (cs.take n)) : hide (cs.drop n) = (hide cs).drop n := by
  have hsplit : hide cs = (hide cs).take n ++ hide (cs.drop n) := by
    rw [← hide_take, ← hide_append h, List.take_append_drop]
  exact List.append_cancel_left (hsplit.symm.trans (List.take_append_drop n _).symm)

theorem head?_hide (cs : List Char) : (hide cs).head? = cs.head? := by
  rw [← head?_mask, mask_hide, head?_mask]

theorem getLast?_hide (h : Closed cs) : (hide cs).getLast? = cs.getLast? := by
  rw [← getLast?_mask (closed_hide_iff.mpr h), mask_hide, getLast?_mask h]

/-- A text without literals stays as it is. -/
theorem hideFrom_eq_self (hstate : state ≠ some '\'') (h : '\'' ∉ maskFrom state cs) : hideFrom state cs = cs := by
  induction cs generalizing state with
  | nil => rfl
  | cons c cs ih =>
    rw [maskFrom, List.mem_cons, not_or] at h
    have hstep : quoteStep state c ≠ some '\'' := by
      cases state with
      | none =>
        rw [quoteStep]
        split
        · exact fun hc => h.1 (Option.some.inj hc).symm
        · exact (Option.some_ne_none '\'').symm
      | some q =>
        rw [quoteStep]
        split
        · exact (Option.some_ne_none '\'').symm
        · exact hstate
    rw [hideFrom, hideStep_of_ne hstate, ih hstep h.2]

theorem hide_eq_self (h : '\'' ∉ mask cs) : hide cs = cs :=
  hideFrom_eq_self nofun h

theorem hide_of_no_quote (h : ∀ c ∈ cs, isQuote c = false) : hide cs = cs := by
  apply hide_eq_self
  rw [mask_of_no_quote h]
  exact fun hmem => absurd (h _ hmem) (by decide)

/-! ## Texts that differ in literals -/

/-- Texts of one length that differ at most inside single quotes, and there in characters that are no quotes. -/
structure DifferInLiterals (s t : List Char) : Prop where
  length : s.length = t.length
  inside : ∀ n < s.length, s[n]? ≠ t[n]? →
    quoteAfter none (s.take n) = some '\'' ∧ s[n]?.any isQuote = false ∧ t[n]?.any isQuote = false

instance (s t : List Char) : Decidable (DifferInLiterals s t) :=
  decidable_of_iff (s.length = t.length ∧ ∀ n < s.length, s[n]? ≠ t[n]? →
    quoteAfter none (s.take n) = some '\'' ∧ s[n]?.any isQuote = false ∧ t[n]?.any isQuote = false)
    ⟨fun h => ⟨h.1, h.2⟩, fun h => ⟨h.length, h.inside⟩⟩

/-- Texts that differ in their literals only are the same without them. -/
theorem hide_eq_of_differInLiterals {s t : List Char} (h : DifferInLiterals s t) : hide s = hide t := by
  obtain ⟨hlength, hinside⟩ := h
  rw [hide, hide]
  generalize (none : Option Char) = state at hinside ⊢
  induction s generalizing t state with
  | nil => rw [List.length_eq_zero_iff.mp hlength.symm]
  | cons c s ih =>
    cases t with
    | nil => cases hlength
    | cons d t =>
      have htail : hideFrom (quoteStep state c) s = hideFrom (quoteStep state c) t :=
        ih (Nat.succ.inj hlength) _ fun n hn hne => hinside (n + 1) (Nat.succ_lt_succ hn) hne
      by_cases hcd : c = d
      · rw [← hcd, hideFrom, hideFrom, htail]
      · obtain ⟨hopen, hc, hd⟩ := hinside 0 (Nat.succ_pos _) fun heq => hcd (Option.some.inj heq)
        obtain rfl : state = some '\'' := hopen
        have hinner {x : Char} (hx : isQuote x = false) :
            hideStep (some '\'') x = '_' ∧ quoteStep (some '\'') x = some '\'' := by
          have hne : x ≠ '\'' := by
            rintro rfl
            cases hx
          exact ⟨hideStep_single hne, if_neg hne⟩
        rw [(hinner hc).2] at htail
        rw [hideFrom, hideFrom, (hinner hc).1, (hinner hd).1, (hinner hc).2, (hinner hd).2, htail]

/-! ## Runs of characters -/

section runs

variable {p : Char → Bool}

theorem takeWhile_hide (hp : ∀ q, isQuote q → p q = false) (cs : List Char) :
    (hide cs).takeWhile p = cs.takeWhile p := by
  induction cs with
  | nil => rfl
  | cons c cs ih =>
    cases hc : isQuote c with
    | true => rw [hide_quote hc, List.takeWhile_cons, List.takeWhile_cons, hp c hc]; rfl
    | false => rw [hide_cons hc, List.takeWhile_cons, List.takeWhile_cons, ih]

theorem dropWhile_hide (hp : ∀ q, isQuote q → p q = false) (cs : List Char) :
    (hide cs).dropWhile p = hide (cs.dropWhile p) := by
  induction cs with
  | nil => rfl
  | cons c cs ih =>
    cases hc : isQuote c with
    | true =>
      rw [hide_quote hc, List.dropWhile_cons, List.dropWhile_cons, hp c hc, if_neg Bool.false_ne_true,
        if_neg Bool.false_ne_true, hide_quote hc]
    | false =>
      rw [hide_cons hc, List.dropWhile_cons, List.dropWhile_cons, ih, ← hide_cons hc]
      split <;> rfl

theorem all_hide (hp : ∀ q, isQuote q → p q = false) (cs : List Char) : (hide cs).all p = cs.all p := by
  induction cs with
  | nil => rfl
  | cons c cs ih =>
    cases hc : isQuote c with
    | true => rw [hide_quote hc, List.all_cons, List.all_cons, hp c hc, Bool.false_and, Bool.false_and]
    | false => rw [hide_cons hc, List.all_cons, List.all_cons, ih]

theorem closed_dropWhile (hp : ∀ q, isQuote q → p q = false) (h : Closed cs) : Closed (cs.dropWhile p) := by
  have htake : ∀ c ∈ cs.takeWhile p, isQuote c = false := by
    intro c hc
    by_contra hquote
    have hpc := List.mem_takeWhile_imp hc
    rw [hp c (by simpa using hquote)] at hpc
    cases hpc
  rw [← List.takeWhile_append_dropWhile (p := p) (l := cs)] at h
  exact (closed_append_iff (closed_of_no_quote htake) _).mp h

theorem dropEndWhile_hide (hp : ∀ q, isQuote q → p q = false) (h : Closed cs) :
    dropEndWhile p (hide cs) = hide (dropEndWhile p cs) := by
  obtain ⟨gap, hcs, hgap⟩ := exists_dropEndWhile p cs
  have hquote : ∀ c ∈ gap, isQuote c = false := by
    intro c hc
    by_contra hquote
    have hpc := hgap c hc
    rw [hp c (by simpa using hquote)] at hpc
    cases hpc
  have hclosed : Closed (dropEndWhile p cs) := closed_of_append (hcs ▸ h) hquote
  calc dropEndWhile p (hide cs) = dropEndWhile p (hide (dropEndWhile p cs ++ gap)) := by rw [← hcs]
    _ = dropEndWhile p (hide (dropEndWhile p cs) ++ gap) := by rw [hide_append hclosed, hide_of_no_quote hquote]
    _ = dropEndWhile p (hide (dropEndWhile p cs)) := dropEndWhile_append_of_all _ hgap
    _ = hide (dropEndWhile p cs) := by
      apply dropEndWhile_eq_self
      rw [getLast?_hide hclosed]
      exact getLast?_dropEndWhile_not p cs

end runs

theorem trim_hide (h : Closed cs) : trim (hide cs) = hide (trim cs) := by
  rw [trim, dropBothWhile, dropWhile_hide isBlank_of_isQuote,
    dropEndWhile_hide isBlank_of_isQuote (closed_dropWhile isBlank_of_isQuote h)]
  rfl

/-! ## Keywords -/

theorem fold_of_isQuote (h : isQuote c) : fold c = c :=
  of_isQuote (P := fun q => fold q = q) (by decide) (by decide) h

theorem letters?_hide {ks : List Char} (hks : ∀ k ∈ ks, isQuote k = false) (cs : List Char) :
    letters? ks (hide cs) = (letters? ks cs).map hide := by
  induction ks generalizing cs with
  | nil => rfl
  | cons k ks ih =>
    cases cs with
    | nil => rfl
    | cons c cs =>
      cases hc : isQuote c with
      | true =>
        have hfold : fold c ≠ k := by
          rw [fold_of_isQuote hc]
          rintro rfl
          rw [hks c List.mem_cons_self] at hc
          cases hc
        rw [hide_quote hc, letters?, letters?, if_neg hfold, if_neg hfold]
        rfl
      | false =>
        rw [hide_cons hc, letters?, letters?, ih fun k' hk' => hks k' (List.mem_cons_of_mem k hk')]
        split <;> rfl

/-- A keyword is written without quotes. -/
theorem no_quote_of_map_fold {w ks : List Char} (hks : ∀ k ∈ ks, isQuote k = false) (hw : w.map fold = ks) :
    ∀ c ∈ w, isQuote c = false := by
  intro c hc
  by_contra hquote
  have hmem : c ∈ ks := by
    rw [← hw, ← fold_of_isQuote (c := c) (by simpa using hquote)]
    exact List.mem_map_of_mem hc
  exact hquote (hks c hmem)

/-- Behind letters a closed text is closed. -/
theorem closed_of_letters? {ks rest : List Char} (hks : ∀ k ∈ ks, isQuote k = false) (h : Closed cs)
    (hread : letters? ks cs = some rest) : Closed rest := by
  obtain ⟨w, rfl, hw⟩ := letters?_eq_some_iff.mp hread
  exact (closed_append_iff (closed_of_no_quote (no_quote_of_map_fold hks hw)) rest).mp h

theorem afterBlank?_hide (cs : List Char) : afterBlank? (hide cs) = (afterBlank? cs).map hide := by
  cases cs with
  | nil => rfl
  | cons c cs =>
    cases hc : isQuote c with
    | true =>
      rw [hide_quote hc, afterBlank?, afterBlank?, isBlank_of_isQuote c hc]
      rfl
    | false =>
      rw [hide_cons hc, afterBlank?, afterBlank?, dropWhile_hide isBlank_of_isQuote]
      split <;> rfl

theorem closed_of_afterBlank? {rest : List Char} (h : Closed cs) (hread : afterBlank? cs = some rest) :
    Closed rest := by
  cases cs with
  | nil => cases hread
  | cons c cs =>
    rw [afterBlank?] at hread
    split at hread
    next hc =>
      cases hread
      have hfirst : Closed [c] := closed_of_no_quote (by simpa using isQuote_of_isBlank hc)
      exact closed_dropWhile isBlank_of_isQuote ((closed_append_iff hfirst cs).mp h)
    next => cases hread

/-! ## Names -/

/-- What stands between quotes is hidden by itself, and what follows as a text of its own. -/
theorem quotedBody?_hideFrom {q : Char} (hq : isQuote q) (cs : List Char) :
    quotedBody? q (hideFrom (some q) cs) = (quotedBody? q cs).map fun r => (hideFrom (some q) r.1, hide r.2) := by
  have hstep {c : Char} (hc : c ≠ q) : hideStep (some q) c ≠ q ∧ quoteStep (some q) c = some q := by
    refine ⟨?_, if_neg hc⟩
    rw [hideStep]
    split
    · rintro rfl
      cases hq
    · exact hc
  have hself : hideStep (some q) q = q ∧ quoteStep (some q) q = none := by
    refine ⟨if_neg ?_, if_pos rfl⟩
    rintro ⟨hstate, hne⟩
    exact hne (Option.some.inj hstate)
  have hpair (cs : List Char) : hideFrom (some q) (q :: q :: cs) = q :: q :: hideFrom (some q) cs := by
    have hclose : hideFrom (some q) (q :: q :: cs) = q :: hide (q :: cs) := by
      rw [hideFrom, hself.1, hself.2, hide]
    rw [hclose, hide_quote hq]
  fun_induction quotedBody? q cs with
  | case1 => rfl
  | case2 =>
    rw [hideFrom, hself.1, hideFrom, quotedBody?, if_pos rfl]
    rfl
  | case3 c hc =>
    rw [hideFrom, hideFrom, quotedBody?, if_neg (hstep hc).1]
    rfl
  | case4 cs body rest hread ih =>
    rw [hread] at ih
    rw [hpair, quotedBody?, if_pos rfl, if_pos rfl, ih, Option.map_some, Option.map_some, hpair]
  | case5 cs hread ih =>
    rw [hread] at ih
    rw [hpair, quotedBody?, if_pos rfl, if_pos rfl, ih, Option.map_some, hide_quote hq]
    rfl
  | case6 d cs hd =>
    obtain ⟨ds, hds⟩ : ∃ ds, hide (d :: cs) = d :: ds := List.head?_eq_some_iff.mp (head?_hide (d :: cs))
    have hclose : hideFrom (some q) (q :: d :: cs) = q :: hide (d :: cs) := by
      rw [hideFrom, hself.1, hself.2, hide]
    rw [hclose, hds, quotedBody?, if_pos rfl, if_neg hd, Option.map_some, hds]
    rfl
  | case7 c d cs hc ih =>
    have hcons : hideFrom (some q) (c :: d :: cs) = hideStep (some q) c :: hideFrom (some q) (d :: cs) := by
      rw [hideFrom, (hstep hc).2]
    obtain ⟨e, es, hes⟩ : ∃ e es, hideFrom (some q) (d :: cs) = e :: es := ⟨_, _, rfl⟩
    rw [hes] at ih hcons
    rw [hcons, quotedBody?, if_neg (hstep hc).1, ih]
    cases quotedBody? q (d :: cs) with
    | none => rfl
    | some found =>
      show some _ = some (hideFrom (some q) (c :: found.1), hide found.2)
      rw [hideFrom, (hstep hc).2]

/-- A name in double quotes stays as it is. -/
theorem hideFrom_of_quotedBody? {body rest : List Char} (h : quotedBody? '"' cs = some (body, rest)) :
    hideFrom (some '"') body = body := by
  fun_induction quotedBody? '"' cs generalizing body rest with
  | case1 => cases h
  | case2 =>
    cases h
    rfl
  | case3 => cases h
  | case4 cs b r hread ih =>
    cases h
    show '"' :: '"' :: hideFrom (some '"') b = '"' :: '"' :: b
    rw [ih hread]
  | case5 =>
    cases h
    rfl
  | case6 =>
    cases h
    rfl
  | case7 c d cs hc ih =>
    obtain ⟨⟨b, r⟩, hread, hcons⟩ := Option.map_eq_some_iff.mp h
    cases hcons
    rw [hideFrom, hideStep_of_ne (by decide), quoteStep, if_neg hc, ih hread]

theorem isNameStart_of_isQuote : ∀ q, isQuote q → isNameStart q = false :=
  fun _ => of_isQuote (P := fun q => isNameStart q = false) (by decide) (by decide)

theorem isNameRest_of_isQuote : ∀ q, isQuote q → isNameRest q = false :=
  fun _ => of_isQuote (P := fun q => isNameRest q = false) (by decide +kernel) (by decide +kernel)

theorem readName?_hide {start : Char → Bool} (hstart : ∀ q, isQuote q → start q = false) (cs : List Char) :
    readName? start (hide cs) = (readName? start cs).map fun r => (r.1, hide r.2) := by
  cases cs with
  | nil => rfl
  | cons c cs =>
    by_cases hname : c = '"'
    · subst hname
      rw [hide_quote (by decide), readName?, readName?, if_pos rfl, if_pos rfl, quotedBody?_hideFrom (by decide)]
      cases hread : quotedBody? '"' cs with
      | none => rfl
      | some found =>
        obtain ⟨body, rest⟩ := found
        rw [Option.map_some, hideFrom_of_quotedBody? hread]
        cases body <;> rfl
    · cases hc : isQuote c with
      | true =>
        rw [hide_quote hc, readName?, readName?, if_neg hname, if_neg hname, hstart c hc]
        rfl
      | false =>
        rw [hide_cons hc, readName?, readName?, if_neg hname, if_neg hname, takeWhile_hide isNameRest_of_isQuote,
          dropWhile_hide isNameRest_of_isQuote]
        split <;> rfl

theorem afterPoint?_hide (cs : List Char) : afterPoint? (hide cs) = (afterPoint? cs).map hide := by
  rw [afterPoint?, afterPoint?, dropWhile_hide isBlank_of_isQuote]
  cases cs.dropWhile isBlank with
  | nil => rfl
  | cons c rest =>
    by_cases hc : c = '.'
    · subst hc
      rw [hide_cons (by decide)]
      show some ((hide rest).dropWhile isBlank) = some (hide (rest.dropWhile isBlank))
      rw [dropWhile_hide isBlank_of_isQuote]
    · obtain ⟨rest', hrest⟩ := List.head?_eq_some_iff.mp (head?_hide (c :: rest))
      rw [hrest]
      simp [hc]

theorem readNames?_hide (n : Nat) (cs : List Char) :
    readNames? n (hide cs) = (readNames? n cs).map fun r => (r.1, hide r.2) := by
  induction n generalizing cs with
  | zero => rfl
  | succ n ih =>
    rw [readNames?, readNames?, readName?_hide isNameStart_of_isQuote]
    cases readName? isNameStart cs with
    | none => rfl
    | some found =>
      obtain ⟨name, rest⟩ := found
      have hmore : (afterPoint? (hide rest)).bind (readNames? n) =
          ((afterPoint? rest).bind (readNames? n)).map fun r => (r.1, hide r.2) := by
        rw [afterPoint?_hide]
        cases afterPoint? rest with
        | none => rfl
        | some rest => exact ih rest
      simp only [Option.map_some, Option.bind_eq_bind, Option.bind_some, hmore]
      cases (afterPoint? rest).bind (readNames? n) with
      | none => rfl
      | some found => rfl

theorem readQualified?_hide (cs : List Char) :
    readQualified? (hide cs) = (readQualified? cs).map fun r => (r.1, hide r.2) := by
  rw [readQualified?, readQualified?, length_hide, readNames?_hide]

/-! ## Literals, identifiers and stars -/

theorem isDigit_of_isQuote : ∀ q, isQuote q → isDigit q = false :=
  fun _ => of_isQuote (P := fun q => isDigit q = false) (by decide +kernel) (by decide +kernel)

theorem isNumber_hide (cs : List Char) : isNumber (hide cs) = isNumber cs := by
  rw [isNumber, isNumber, takeWhile_hide isDigit_of_isQuote, dropWhile_hide isDigit_of_isQuote]
  congr 1
  cases cs.dropWhile isDigit with
  | nil => rfl
  | cons c rest =>
    by_cases hc : c = '.'
    · subst hc
      rw [hide_cons (by decide)]
      show (!(hide rest).isEmpty && (hide rest).all isDigit) = (!rest.isEmpty && rest.all isDigit)
      rw [isEmpty_hide, all_hide isDigit_of_isQuote]
    · obtain ⟨rest', hrest⟩ := List.head?_eq_some_iff.mp (head?_hide (c :: rest))
      rw [hrest]
      simp [hc]

theorem letters?_hide_beq_nil {ks : List Char} (hks : ∀ k ∈ ks, isQuote k = false) (cs : List Char) :
    (letters? ks (hide cs) == some []) = (letters? ks cs == some []) := by
  rw [letters?_hide hks]
  cases letters? ks cs with
  | none => rfl
  | some rest => cases rest <;> rfl

theorem isLiteral_hide (cs : List Char) : isLiteral (hide cs) = isLiteral cs := by
  have hwords : (["true", "false", "null"].any fun w => letters? w.toList (hide cs) == some []) =
      ["true", "false", "null"].any fun w => letters? w.toList cs == some [] := by
    have hquote : ∀ w ∈ ["true", "false", "null"], ∀ k ∈ w.toList, isQuote k = false := by decide
    rw [Bool.eq_iff_iff, List.any_eq_true, List.any_eq_true]
    constructor
    · rintro ⟨w, hw, hread⟩
      exact ⟨w, hw, by rwa [letters?_hide_beq_nil (hquote w hw)] at hread⟩
    · rintro ⟨w, hw, hread⟩
      exact ⟨w, hw, by rwa [letters?_hide_beq_nil (hquote w hw)]⟩
  cases cs with
  | nil => rfl
  | cons c cs =>
    by_cases hsingle : c = '\''
    · subst hsingle
      rw [hide_quote (by decide)]
      show (quotedBody? '\'' (hideFrom (some '\'') cs)).any (fun r => r.2.isEmpty) =
        (quotedBody? '\'' cs).any fun r => r.2.isEmpty
      rw [quotedBody?_hideFrom (by decide)]
      cases quotedBody? '\'' cs with
      | none => rfl
      | some found => exact isEmpty_hide found.2
    by_cases hminus : c = '-'
    · subst hminus
      rw [hide_cons (by decide)]
      exact isNumber_hide cs
    · have hread (ds : List Char) : isLiteral (c :: ds) =
          (isNumber (c :: ds) || ["true", "false", "null"].any fun w => letters? w.toList (c :: ds) == some []) := by
        rw [isLiteral]
        · simpa using hsingle
        · simpa using hminus
      obtain ⟨ds, hds⟩ := List.head?_eq_some_iff.mp (head?_hide (c :: cs))
      rw [hds, hread, ← hds, hwords, isNumber_hide, hread]

theorem identifier?_hide (h : Closed cs) : identifier? (hide cs) = identifier? cs := by
  rw [identifier?, identifier?, trim_hide h]
  rw [isLiteral_hide, readQualified?_hide]
  split
  · rfl
  cases readQualified? (trim cs) with
  | none => rfl
  | some found =>
    obtain ⟨names, rest⟩ := found
    cases rest <;> rfl

theorem hide_eq_star_iff : hide cs = ['*'] ↔ cs = ['*'] := by
  constructor
  · intro h
    have hlength := congrArg List.length h
    rw [length_hide] at hlength
    obtain ⟨c, rfl⟩ := List.length_eq_one_iff.mp hlength
    have hhead := head?_hide [c]
    rw [h] at hhead
    rw [Option.some.inj hhead]
  · rintro rfl
    rfl

theorem isStarWithin_hide (n : Nat) (cs : List Char) : isStarWithin n (hide cs) = isStarWithin n cs := by
  induction n generalizing cs with
  | zero => rfl
  | succ n ih =>
    rw [isStarWithin, isStarWithin, readName?_hide isNameStart_of_isQuote]
    by_cases hstar : cs = ['*']
    · rw [if_pos hstar, if_pos (hide_eq_star_iff.mpr hstar)]
    rw [if_neg hstar, if_neg (mt hide_eq_star_iff.mp hstar)]
    cases readName? isNameStart cs with
    | none => rfl
    | some found =>
      rw [Option.map_some, Option.bind_some, Option.bind_some, afterPoint?_hide]
      cases afterPoint? found.2 with
      | none => rfl
      | some rest => exact ih rest

theorem isStar_hide (cs : List Char) : isStar (hide cs) = isStar cs := by
  rw [isStar, isStar, length_hide, isStarWithin_hide]

end MetricLayer.Sql
