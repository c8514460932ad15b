import MetricLayer.Proofs.Safety.Reference

/-!
# What stands around a table reference

A FROM inside the parentheses of a function is no source of rows (`Encloses`), and a reference may name what
a WITH clause binds (`WithBinds`).  The gate looks for both in its own readings of the text: what it finds
around a keyword is there in the masked text as well (`SameOutside.encloses`), and the names it finds before
AS and a parenthesis are there in the text (`Stripped.exists_introduced`).
-/

namespace MetricLayer.Safety

open MetricLayer.Text MetricLayer.Sql

variable {cs l n m gap : List Char} {f : String} {name : Name}

/-! ## Functions -/

/-- The parenthesis that is open at the end of a masked text, and opened last, is the one of a function. -/
def Encloses (f : String) (m : List Char) : Prop :=
  ∃ pre name gap body, m = pre ++ (name ++ (gap ++ '(' :: body)) ∧ wordStart (lastOr none pre) ∧
    (∀ c ∈ name, isWord c) ∧ upper name = f.toList ∧ (∀ c ∈ gap, isBlank c) ∧ Balanced body

/-- The search from the end passes over `d` more open parentheses than it has seen closed. -/
theorem exists_of_enclosingFrom {d : Nat} {before found : List Char}
    (h : enclosingFrom d before = some found) :
    ∃ pre name gap body, before.reverse = pre ++ (name ++ (gap ++ '(' :: body)) ∧
      wordStart (lastOr none pre) ∧ (∀ c ∈ name, isWord c) ∧ upper name = found ∧ (∀ c ∈ gap, isBlank c) ∧
        depthAfter? 0 body = some d := by
  induction before generalizing d with
  | nil => cases h
  | cons c before ih =>
    have hlater {e : Nat} (h : enclosingFrom e before = some found) (hd : depthAfter? e [c] = some d) :
        ∃ pre name gap body, (c :: before).reverse = pre ++ (name ++ (gap ++ '(' :: body)) ∧
          wordStart (lastOr none pre) ∧ (∀ c ∈ name, isWord c) ∧ upper name = found ∧
            (∀ c ∈ gap, isBlank c) ∧ depthAfter? 0 body = some d := by
      obtain ⟨pre, name, gap, body, htext, hstart, hword, hname, hgap, hbody⟩ := ih h
      refine ⟨pre, name, gap, body ++ [c], ?_, hstart, hword, hname, hgap, ?_⟩
      · rw [List.reverse_cons, htext]
        simp
      · rw [depthAfter?_append, hbody, Option.bind_some, hd]
    rw [enclosingFrom] at h
    split_ifs at h with hclose hopen hzero
    · exact hlater h (by rw [hclose]; rfl)
    · subst hopen hzero
      simp only at h
      split at h
      next => cases h
      next =>
        have hbefore : before.reverse = ((before.dropWhile isBlank).dropWhile isWord).reverse ++
            (((before.dropWhile isBlank).takeWhile isWord).reverse ++ (before.takeWhile isBlank).reverse) := by
          rw [← List.reverse_append, ← List.reverse_append, List.append_assoc, List.takeWhile_append_dropWhile,
            List.takeWhile_append_dropWhile]
        refine ⟨((before.dropWhile isBlank).dropWhile isWord).reverse, _, (before.takeWhile isBlank).reverse, [],
          ?_, ?_, fun c hc => List.mem_takeWhile_imp (List.mem_reverse.mp hc), Option.some.inj h,
          fun c hc => List.mem_takeWhile_imp (List.mem_reverse.mp hc), rfl⟩
        · rw [List.reverse_cons, hbefore]
          simp
        · rw [lastOr_none, List.getLast?_reverse, wordStart, Bool.not_eq_true', ← Bool.not_eq_true,
            Option.any_eq_true]
          rintro ⟨c, hc, hword⟩
          rw [head?_dropWhile_not isWord _ c hc] at hword
          cases hword
    · refine hlater h ?_
      rw [hopen]
      show some (d - 1 + 1) = some d
      rw [Nat.sub_add_cancel (Nat.pos_of_ne_zero hzero)]
    · exact hlater h (by rw [depthAfter?, if_neg hopen, if_neg hclose]; rfl)

theorem encloses_of_enclosingFunction? {offset : Nat} (h : enclosingFunction? n offset = some f) :
    Encloses f (n.take offset) := by
  obtain ⟨found, hfound, rfl⟩ := Option.map_eq_some_iff.mp h
  obtain ⟨pre, name, gap, body, htext, hstart, hword, hname, hgap, hbody⟩ := exists_of_enclosingFrom hfound
  rw [List.reverse_reverse] at htext
  exact ⟨pre, name, gap, body, htext, hstart, hword, by rw [hname, String.toList_ofList], hgap, hbody⟩

/-- No parenthesis stands in a region. -/
theorem SameOutside.depthAfter?_eq (h : SameOutside m n) (d : Nat) : depthAfter? d m = depthAfter? d n := by
  have hregion {r : List Char} (hr : Region r) (d : Nat) : depthAfter? d r = some d := by
    apply depthAfter?_of_no_parenthesis
    intro c hc
    constructor
    · rintro rfl
      exact hr.not_plain hc (by decide)
    · rintro rfl
      exact hr.not_plain hc (by decide)
  induction h generalizing d with
  | nil => rfl
  | char _ _ ih =>
    rw [depthAfter?, depthAfter?]
    split_ifs
    · exact ih _
    · rfl
    · exact ih _
    · exact ih _
  | region hr hr' _ ih =>
    rw [depthAfter?_append, depthAfter?_append, hregion hr, hregion hr']
    exact ih d

/-- The name of a function without underscores stands outside regions. -/
theorem SameOutside.encloses (h : SameOutside m n) (hf : '_' ∉ f.toList) (hm : Encloses f m) :
    Encloses f n := by
  obtain ⟨pre, name, gap, body, rfl, hstart, hword, hname, hgap, hbody⟩ := hm
  have hplain : ∀ c ∈ name ++ (gap ++ ['(']), Plain c := by
    simp only [List.forall_mem_append, List.forall_mem_singleton]
    refine ⟨fun c hc => ⟨isQuote_of_isWord (hword c hc), ?_⟩, fun c hc => ?_, by decide⟩
    · rintro rfl
      refine hf (hname ▸ List.mem_flatMap.mpr ⟨'_', hc, ?_⟩)
      decide
    · exact of_isBlank (P := Plain) (by decide) (hgap c hc)
  have htext : pre ++ (name ++ (gap ++ '(' :: body)) = pre ++ (name ++ (gap ++ ['(']) ++ body) := by
    simp
  obtain ⟨pre', body', rfl, hbody', hstarts⟩ := h.infix (by simp) hplain htext (a := none) (b := none) rfl
  refine ⟨pre', name, gap, body', by simp, hstarts ▸ hstart, hword, hname, hgap, ?_⟩
  rw [Sql.Balanced, ← hbody'.depthAfter?_eq]
  exact hbody

/-- A parenthesis is open at the end of what a function encloses. -/
theorem not_encloses_of_balanced (h : Balanced m) : ¬ Encloses f m := by
  rintro ⟨pre, name, gap, body, rfl, -, -, -, -, hbody⟩
  have htext : pre ++ (name ++ (gap ++ '(' :: body)) = pre ++ (name ++ gap) ++ '(' :: body := by
    simp
  rw [Sql.Balanced, htext, depthAfter?_append] at h
  obtain ⟨d, -, hd⟩ := Option.bind_eq_some_iff.mp h
  have hopen : depthAfter? (d + 1) body = some (d + 1) := by
    simpa using depthAfter?_add hbody (d + 1)
  rw [depthAfter?, if_pos rfl, hopen] at hd
  cases hd

/-! ## Names that are bound -/

/-- A text starts with a name before AS and a parenthesis. -/
def Introduces (cs : List Char) (name : Name) : Prop :=
  ∃ gap w gap' after, readName? isNameRest (cs.dropWhile isBlank) =
      some (name, gap ++ (w ++ (gap' ++ '(' :: after))) ∧
    gap ≠ [] ∧ (∀ c ∈ gap, isBlank c) ∧ w.map fold = "as".toList ∧ ∀ c ∈ gap', isBlank c

/-- WITH, in any letter case. -/
def IsWith (w : List Char) : Prop :=
  w.map fold = "with".toList

/-- A name stands before AS and a parenthesis, and behind WITH or a comma outside quotes. -/
def Introduced (text : List Char) (name : Name) : Prop :=
  ∃ a w v, text = a ++ (w ++ v) ∧ Closed a ∧ (IsWith w ∧ wordStart (lastOr none a) ∨ w = [',']) ∧
    Introduces v name

/-- `v` is an entry of the list that a text starts with, and what follows it.  The list goes on behind commas
up to the parenthesis that closes around it or to the keyword of a clause. -/
def Listed (text v : List Char) : Prop :=
  v = text ∨ ∃ u, text = u ++ ',' :: v ∧ WellFormed u ∧ ∀ k : Clause, heading? k 0 (mask u) = none

/-- A WITH clause binds a name. -/
def WithBinds (text : List Char) (name : Name) : Prop :=
  ∃ a w b v, text = a ++ (w ++ b) ∧ Closed a ∧ IsWith w ∧ wordStart (lastOr none a) ∧ endsWord b ∧
    Listed b v ∧ Introduces v name

/-- No quoted name of a text holds an apostrophe, a point, a comma or the letters of WITH. -/
def SimpleNames (cs : List Char) : Prop :=
  NamesAvoid (fun b => (letters? "with".toList b).isSome ∨ ∃ c ∈ b.head?, c ∈ ['\'', '.', ',']) cs

/-- In quoted names the gate finds none that is bound. -/
def Unforged (l : List Char) : Prop :=
  ∀ p ∈ places l, quoteAfter none (l.take p.offset) = some '"' → boundName? p = none

instance (l : List Char) : Decidable (Unforged l) :=
  inferInstanceAs (Decidable (∀ _ ∈ _, _))

/-- What stands between a name that is bound and the parenthesis behind it: AS and white space. -/
structure IsBinding (gap k gap' : List Char) : Prop where
  ne_nil : gap ≠ []
  before : ∀ c ∈ gap, isBlank c
  word : k.map fold = "as".toList
  behind : ∀ c ∈ gap', isBlank c

/-- A match is WITH or a comma, a name, AS and a parenthesis. -/
theorem of_boundName?_eq_some {p : Place} {part after : List Char} (h : boundName? p = some (part, after)) :
    ∃ w v gap k gap', p.rest = w ++ v ∧ (IsWith w ∧ p.startsWord ∨ w = [',']) ∧
      readPart? (v.dropWhile isBlank) = some (part, gap ++ (k ++ (gap' ++ '(' :: after))) ∧
        IsBinding gap k gap' := by
  obtain ⟨v, hv, h⟩ := Option.bind_eq_some_iff.mp h
  obtain ⟨⟨name, rest⟩, hread, h⟩ := Option.bind_eq_some_iff.mp h
  have hstart : ∃ w, p.rest = w ++ v ∧ (IsWith w ∧ p.startsWord ∨ w = [',']) := by
    rcases Option.or_eq_some_iff.mp hv with hwith | ⟨-, hcomma⟩
    · split at hwith
      next hword =>
        obtain ⟨w, hp, hw⟩ := letters?_eq_some_iff.mp hwith
        exact ⟨w, hp, Or.inl ⟨hw, hword⟩⟩
      next => cases hwith
    · exact ⟨[','], (List.isPrefixOf?_eq_some_iff_append_eq.mp hcomma).symm, Or.inr rfl⟩
  obtain ⟨w, hp, hw⟩ := hstart
  cases rest with
  | nil => cases h
  | cons b rest =>
    simp only at h
    split at h
    next hb =>
      obtain ⟨t, ht, h⟩ := Option.bind_eq_some_iff.mp h
      obtain rfl := Option.some.inj ht
      obtain ⟨after', hletters, h⟩ := Option.bind_eq_some_iff.mp h
      split at h
      next rest' hopen =>
        obtain ⟨rfl, rfl⟩ := Prod.mk.inj (Option.some.inj h)
        obtain ⟨k, hk, hfold⟩ := letters?_eq_some_iff.mp hletters
        have hrest : b :: rest = b :: rest.takeWhile isBlank ++ (k ++ (after'.takeWhile isBlank ++ '(' :: rest')) := by
          rw [← hopen, List.takeWhile_append_dropWhile, ← hk, List.cons_append, List.takeWhile_append_dropWhile]
        rw [hrest] at hread
        refine ⟨w, v, _, k, _, hp, hw, hread, List.cons_ne_nil _ _, ?_, hfold, fun c hc => List.mem_takeWhile_imp hc⟩
        rw [List.forall_mem_cons]
        exact ⟨hb, fun c hc => List.mem_takeWhile_imp hc⟩
      next => cases h
    next => cases h

namespace IsBinding

variable {k gap' after part : List Char}

theorem introduces (h : IsBinding gap k gap')
    (hread : readName? isNameRest (cs.dropWhile isBlank) = some (name, gap ++ (k ++ (gap' ++ '(' :: after)))) :
    Introduces cs name :=
  ⟨gap, k, gap', after, hread, h.ne_nil, h.before, h.word, h.behind⟩

theorem isBlank_of_head? (h : IsBinding gap k gap') : ∀ c ∈ (gap ++ after).head?, isBlank c := by
  obtain ⟨b, gap, rfl⟩ := List.exists_cons_of_ne_nil h.ne_nil
  rintro c hc
  cases hc
  exact h.before b List.mem_cons_self

/-- What follows the name stands in the text as well. -/
theorem exists_text (h : IsBinding gap k gap') (hcs : Stripped cs (gap ++ (k ++ (gap' ++ '(' :: after))) n) :
    ∃ after', cs = gap ++ (k ++ (gap' ++ '(' :: after')) := by
  have hplain : ∀ c ∈ gap ++ (k ++ (gap' ++ ['('])), isQuote c = false := by
    simp only [List.forall_mem_append, List.forall_mem_singleton]
    exact ⟨fun c hc => isQuote_of_isBlank (h.before c hc), fun c hc => (plain_of_keyword (by decide) h.word c hc).1,
      fun c hc => isQuote_of_isBlank (h.behind c hc), rfl⟩
  obtain ⟨after', -, -, rfl, -⟩ := hcs.exists_of_isPrefix hplain (Or.inr (Or.inl ⟨after, by simp⟩))
  exact ⟨after', by simp⟩

theorem exists_word (h : IsBinding gap k gap') (hne : part ≠ []) (hpart : ∀ c ∈ part, isWord c)
    (hcs : Stripped cs (part ++ (gap ++ (k ++ (gap' ++ '(' :: after)))) n) :
    ∃ after', readName? isNameRest cs = some (.word part, gap ++ (k ++ (gap' ++ '(' :: after'))) := by
  obtain ⟨t, lt, nt, rfl, hlt, -, htail⟩ :=
    hcs.exists_of_isPrefix (fun c hc => isQuote_of_isWord (hpart c hc)) (Or.inr (Or.inl (List.prefix_append _ _)))
  obtain rfl := List.append_cancel_left hlt
  obtain ⟨after', rfl⟩ := h.exists_text htail
  have hrest : ∀ c ∈ part, isNameRest c := fun c hc => isNameRest_of_isWord (hpart c hc)
  have hstart : part.head?.any isNameRest := by
    obtain ⟨c, part, rfl⟩ := List.exists_cons_of_ne_nil hne
    exact hrest c List.mem_cons_self
  refine ⟨after', readName?_word hstart hrest fun c hc => ?_⟩
  exact of_isBlank (P := fun c => isNameRest c = false) (by decide +kernel) (h.isBlank_of_head? c hc)

end IsBinding

/-- What a name is introduced behind holds no quote. -/
theorem isQuote_of_boundStart {w : List Char} {start : Prop} (hw : IsWith w ∧ start ∨ w = [',']) :
    ∀ c ∈ w, isQuote c = false := by
  rcases hw with ⟨hw, -⟩ | rfl
  · exact fun c hc => (plain_of_keyword (by decide) hw c hc).1
  · decide

theorem exists_cons_of_boundStart {w : List Char} {start : Prop} (hw : IsWith w ∧ start ∨ w = [',']) :
    ∃ c w', w = c :: w' ∧ isQuote c = false ∧ ∀ d ∈ w', isQuote d = false := by
  have hplain := isQuote_of_boundStart hw
  cases w with
  | nil => rcases hw with ⟨hw, -⟩ | hw <;> cases hw
  | cons c w => exact ⟨c, w, rfl, List.forall_mem_cons.mp hplain⟩

/-- A quoted name that is read stands in quotes. -/
theorem of_readName?_quoted {start : Char → Bool} {body rest : List Char}
    (h : readName? start cs = some (.quoted body, rest)) : cs = '"' :: (body ++ '"' :: rest) ∧ Doubled '"' body := by
  cases cs with
  | nil => cases h
  | cons c cs =>
    rw [readName?] at h
    split_ifs at h with hc
    · subst hc
      split at h
      next => cases h
      next hread =>
        obtain ⟨hname, rfl⟩ := Prod.mk.inj (Option.some.inj h)
        obtain rfl := Name.quoted.inj hname
        obtain ⟨rfl, hdoubled⟩ := of_quotedBody?_eq_some hread
        exact ⟨rfl, hdoubled⟩
      next => cases h
    · cases (Prod.mk.inj (Option.some.inj h)).1

/-- A quoted name that is introduced is a name of the text. -/
theorem exists_of_introduced_quoted {body : List Char} (h : Introduced cs (.quoted body)) :
    ∃ a b, cs = a ++ '"' :: (body ++ '"' :: b) ∧ Closed a ∧ Doubled '"' body := by
  obtain ⟨a, w, v, rfl, ha, hw, gap, k, gap', after, hread, -⟩ := h
  obtain ⟨htext, hbody⟩ := of_readName?_quoted hread
  have hplain : ∀ c ∈ w ++ v.takeWhile isBlank, isQuote c = false :=
    List.forall_mem_append.mpr
      ⟨isQuote_of_boundStart hw, fun c hc => isQuote_of_isBlank (List.mem_takeWhile_imp hc)⟩
  refine ⟨a ++ (w ++ v.takeWhile isBlank), gap ++ (k ++ (gap' ++ '(' :: after)), ?_,
    ha.append (closed_of_no_quote hplain), hbody⟩
  rw [List.append_assoc, List.append_assoc, ← htext, List.takeWhile_append_dropWhile]

theorem SimpleNames.of_introduced {body : List Char} (hnames : SimpleNames cs)
    (h : Introduced cs (.quoted body)) : '\'' ∉ body ∧ '.' ∉ body := by
  obtain ⟨a, b, rfl, ha, hbody⟩ := exists_of_introduced_quoted h
  have havoid := NamesAvoid.of_append ha hnames
  exact ⟨havoid.not_mem_of_name hbody (by decide) fun rest => Or.inr ⟨'\'', rfl, by decide⟩,
    havoid.not_mem_of_name hbody (by decide) fun rest => Or.inr ⟨'.', rfl, by decide⟩⟩

theorem SimpleNames.unforged (hnames : SimpleNames cs) (h : Stripped cs l n) : Unforged l := by
  intro p hp hinside
  obtain ⟨x, y, rfl, rfl⟩ := mem_places.mp hp
  rw [List.take_left] at hinside
  cases hmatch : boundName? ⟨x.length, x.getLast?, y⟩ with
  | none => rfl
  | some found =>
    exfalso
    obtain ⟨part, after⟩ := found
    obtain ⟨w, v, -, -, -, rfl, hw, -⟩ := of_boundName?_eq_some hmatch
    obtain ⟨c, w, rfl, hc, hplain⟩ := exists_cons_of_boundStart hw
    rcases h.cut_literalless_or (y := w ++ v) hc with ⟨a, b, nx, ny, -, -, hx, -⟩ | ⟨name, u, v', b, hthrough⟩
    · rw [hx.closed] at hinside
      cases hinside
    obtain ⟨⟨a, rfl, ha⟩, hname, -, ⟨lb, hbehind⟩, -, hkeep⟩ := hthrough
    have havoid := NamesAvoid.of_append ha hnames
    have hfree : '\'' ∉ name :=
      havoid.not_mem_of_name hname (by decide) fun rest => Or.inr ⟨'\'', rfl, by decide⟩
    obtain rfl := hkeep hfree
    have hne : c ≠ '"' := by
      rintro rfl
      cases hc
    refine havoid.not_of_name hname hne ?_
    rcases hw with ⟨hw, -⟩ | hw
    · -- the letters of WITH end before the quote
      obtain ⟨u', rfl, -⟩ := exists_of_append_eq_append (fun hmem => absurd (hplain '"' hmem) (by decide)) hbehind.symm
      have hletters : letters? "with".toList (c :: (w ++ u' ++ '"' :: b)) = some (u' ++ '"' :: b) :=
        letters?_eq_some_iff.mpr ⟨c :: w, by simp, hw⟩
      rw [hletters]
      exact Or.inl rfl
    · obtain ⟨rfl, -⟩ := List.cons.inj hw
      exact Or.inr ⟨',', rfl, by decide⟩

/-- The name that the gate takes for bound is introduced in the text. -/
theorem Stripped.introduces {part after k gap' : List Char} (h : Stripped cs l n)
    (hquoted : ∀ body, Introduces cs (.quoted body) → '\'' ∉ body ∧ '.' ∉ body)
    (hread : readPart? (l.dropWhile isBlank) = some (part, gap ++ (k ++ (gap' ++ '(' :: after))))
    (hbinding : IsBinding gap k gap') : ∃ name, Introduces cs name ∧ partNames part = [name.text] := by
  obtain ⟨gap'', lr, nr, -, -, -, -, -, hdrop, hrest⟩ := h.exists_dropWhile
  rw [hdrop] at hread
  generalize hds : cs.dropWhile isBlank = ds at hrest
  cases hrest with
  | nil => cases hread
  | literal => cases hread
  | @char c ds lr nr hc h =>
    have hne : c ≠ '"' := by
      rintro rfl
      cases hc
    obtain ⟨hlr, hpart, hall⟩ := of_readPart?_cons hne hread
    obtain ⟨after', hword⟩ := hbinding.exists_word hpart hall (hlr ▸ h.char hc)
    exact ⟨.word part, hbinding.introduces (hds ▸ hword), partNames_of_gives (gives_word hall)⟩
  | @name name name' ds lr nr hname hname' hkeep hnext h =>
    obtain ⟨hne', hquote, rfl, rfl⟩ := of_readPart?_doubled hname'
      (fun hhead => absurd (hbinding.isBlank_of_head? '"' hhead) (by decide)) hread
    have hne : name ≠ [] := by
      rintro rfl
      exact hne' (hkeep List.not_mem_nil)
    obtain ⟨d, body, rfl⟩ := List.exists_cons_of_ne_nil hne
    obtain ⟨after', rfl⟩ := hbinding.exists_text h
    have hread' : readName? isNameRest (cs.dropWhile isBlank) =
        some (.quoted (d :: body), gap ++ (k ++ (gap' ++ '(' :: after'))) := by
      rw [hds, readName?, if_pos rfl, quotedBody?_of_doubled hname hnext]
    have hintroduces : Introduces cs (.quoted (d :: body)) := hbinding.introduces hread'
    obtain ⟨hfree, hpoint⟩ := hquoted _ hintroduces
    obtain rfl := hkeep hfree
    refine ⟨_, hintroduces, ?_⟩
    rw [Name.text_quoted hquote]
    exact partNames_of_gives (gives_quoted hquote hpoint)

/-- **A name that the gate takes for bound is introduced in the text**, when quoted names forge none. -/
theorem Stripped.exists_introduced {bound : List Char} (h : Stripped cs l n) (hunforged : Unforged l)
    (hquoted : ∀ body, Introduced cs (.quoted body) → '\'' ∉ body ∧ '.' ∉ body) (hbound : bound ∈ boundNames l) :
    ∃ name, Introduced cs name ∧ bound = lower name.text.toList := by
  obtain ⟨⟨p, part⟩, hmem, rfl⟩ := List.mem_map.mp hbound
  obtain ⟨⟨x, y, rfl, rfl⟩, after, hmatch⟩ := of_mem_scan hmem
  obtain ⟨w, v, gap, k, gap', hy, hw, hread, hbinding⟩ := of_boundName?_eq_some hmatch
  simp only at hy
  subst hy
  obtain ⟨c, w, rfl, hc, hplain⟩ := exists_cons_of_boundStart hw
  rcases h.cut_literalless_or (y := w ++ v) hc with ⟨a, b, nx, ny, rfl, ha, hx, hb⟩ | ⟨name, u, v', b, hthrough⟩
  · obtain ⟨b, lb, nb, rfl, hlb, -, hb⟩ := hb.exists_of_isPrefix hplain (Or.inr (Or.inl (List.prefix_append w v)))
    obtain rfl := List.append_cancel_left hlb
    have hstart : IsWith (c :: w) ∧ wordStart (lastOr none a) ∨ c :: w = [','] := by
      rw [← (hx.wordStart_lastOr none).1, lastOr_none]
      exact hw
    obtain ⟨name, hname, hparts⟩ :=
      hb.introduces (fun body hbody => hquoted body ⟨a, c :: w, b, rfl, ha, hstart, hbody⟩) hread hbinding
    refine ⟨name, ⟨a, c :: w, b, rfl, ha, hstart, hname⟩, ?_⟩
    show lower (referenceName part).toList = _
    rw [referenceName_eq, hparts, toList_joinWith]
    simp
  · -- a match in a quoted name
    obtain ⟨-, -, ⟨la, rfl, hla⟩, -, hname', -⟩ := hthrough
    have hne : c ≠ '"' := by
      rintro rfl
      cases hc
    have hinside : quoteAfter none (la ++ '"' :: u) = some '"' := by
      rw [quoteAfter_append, hla]
      exact (hname'.of_append hne).1.quoteAfter rfl
    have hnone := hunforged _ (mem_places.mpr ⟨la ++ '"' :: u, _, rfl, rfl⟩) (by rw [List.take_left]; exact hinside)
    rw [hnone] at hmatch
    cases hmatch

end MetricLayer.Safety
