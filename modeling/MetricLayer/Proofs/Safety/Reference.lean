import MetricLayer.Proofs.Safety.Stripped

/-!
# Table references

`Refers` says which names a text refers to: names as they are written, with points between them.  The gate
reads the reference where names are blanked and takes the text of it from where they are not; what it takes
is the name that is referred to (`Stripped.exists_reference`) when no quoted part of it holds a quote or a
point and no word in it holds a dollar sign (`Name.IsPlain`).
-/

namespace MetricLayer.Sql

open MetricLayer.Text

/-- A name whose text is what stands between its quotes, and that can stand between points. -/
def Name.IsPlain : Name → Prop
  | .word cs => '$' ∉ cs
  | .quoted body => '"' ∉ body ∧ '\'' ∉ body ∧ '.' ∉ body

instance : (name : Name) → Decidable name.IsPlain
  | .word cs => inferInstanceAs (Decidable ('$' ∉ cs))
  | .quoted body => inferInstanceAs (Decidable ('"' ∉ body ∧ '\'' ∉ body ∧ '.' ∉ body))

theorem Name.text_quoted {body : List Char} (h : '"' ∉ body) :
    Name.text (.quoted body) = String.ofList body := by
  rw [Name.text]
  conv_lhs => rw [← double_eq_self h, undouble_double]

/-- A text refers to names with points between them, and the rest follows. -/
inductive Refers : List Char → List Name → List Char → Prop
  | last {cs rest : List Char} {name : Name} (hname : readName? isNameRest cs = some (name, rest))
      (hend : afterPoint? rest = none) : Refers cs [name] rest
  | point {cs rest later rest' : List Char} {name : Name} {names : List Name}
      (hname : readName? isNameRest cs = some (name, rest)) (hpoint : afterPoint? rest = some later)
      (hlater : Refers later names rest') : Refers cs (name :: names) rest'

theorem Refers.head? {cs rest : List Char} {names : List Name} (h : Refers cs names rest) :
    ∀ c ∈ cs.head?, isBlank c = false := by
  obtain ⟨found, hread⟩ : ∃ found, readName? isNameRest cs = some found := by
    cases h with
    | last hname => exact ⟨_, hname⟩
    | point hname => exact ⟨_, hname⟩
  cases cs with
  | nil => exact nofun
  | cons c cs =>
    rintro d hd
    obtain rfl := Option.some.inj hd
    rw [readName?] at hread
    split_ifs at hread with hquote hrest
    · rw [hquote]
      rfl
    · exact (plain_of_isNameRest hrest).1

/-- Names in quotes with points between them are referred to. -/
theorem refers_dotted {n : String} {names : List String} {rest : List Char} (hne : ∀ m ∈ n :: names, m ≠ "")
    (hquote : rest.head? ≠ some '"') (hend : afterPoint? rest = none) :
    Refers (dotted (n :: names) ++ rest) ((n :: names).map fun m => .quoted (double m.toList)) rest := by
  induction names generalizing n with
  | nil =>
    have hdotted : dotted [n] = (quote n).toList := by
      simp [dotted]
    rw [hdotted]
    exact .last (readName?_quote (hne n List.mem_cons_self) hquote) hend
  | cons m names ih =>
    rw [List.forall_mem_cons] at hne
    rw [dotted_cons_cons, List.append_assoc]
    exact .point (readName?_quote hne.1 (by simp)) (afterPoint?_dotted_append m names rest) (ih hne.2)

/-- The names as one, with points between them. -/
def referredName (names : List Name) : String :=
  joinWith "." (names.map Name.text)

end MetricLayer.Sql

namespace MetricLayer.Safety

open MetricLayer.Text MetricLayer.Sql

/-! ## Parts of references -/

/-- The names the gate takes from the text of a reference. -/
def partNames (cs : List Char) : List String :=
  (splitOn '.' cs).map fun part => String.ofList (dropBothWhile (· == '"') (trim part))

theorem referenceName_eq (cs : List Char) : referenceName cs = joinWith "." (partNames cs) := rfl

/-- The text of a part gives a name. -/
structure Gives (part : List Char) (name : String) : Prop where
  noPoint : '.' ∉ part
  name : dropBothWhile (· == '"') (trim part) = name.toList

variable {a cs l n gap gap' part rest later : List Char} {name : String}

theorem not_point_of_isBlank {c : Char} (h : isBlank c) : c ≠ '.' :=
  of_isBlank (P := fun c => c ≠ '.') (by decide) h

theorem partNames_of_gives (h : Gives part name) : partNames part = [name] := by
  rw [partNames, splitOn_of_not_mem h.noPoint, List.map_singleton, h.name, String.ofList_toList]

theorem partNames_blank_append (hgap : ∀ c ∈ gap, isBlank c) (cs : List Char) :
    partNames (gap ++ cs) = partNames cs := by
  obtain ⟨piece, pieces, hcs, happend⟩ :=
    exists_splitOn_append (fun hmem => not_point_of_isBlank (hgap _ hmem) rfl : '.' ∉ gap) cs
  rw [partNames, partNames, hcs, happend, List.map_cons, List.map_cons, trim_blank_append hgap]

/-- A point ends a part, with white space around it or not. -/
theorem partNames_append_point (h : Gives part name) (hgap : ∀ c ∈ gap, isBlank c)
    (hgap' : ∀ c ∈ gap', isBlank c) (cs : List Char) :
    partNames (part ++ (gap ++ '.' :: (gap' ++ cs))) = name :: partNames cs := by
  have hfree : '.' ∉ part ++ gap := by
    rw [List.mem_append, not_or]
    exact ⟨h.noPoint, fun hmem => not_point_of_isBlank (hgap _ hmem) rfl⟩
  rw [← partNames_blank_append hgap' cs, partNames, ← List.append_assoc, splitOn_append_cons hfree,
    List.map_cons, trim_append_blank _ hgap, h.name, String.ofList_toList]
  rfl

theorem gives_word (h : ∀ c ∈ part, isWord c) : Gives part (String.ofList part) := by
  have hplain {p : Char → Bool} (hp : ∀ c, p c → isWord c = false) : Bare p part := by
    have hc : ∀ c ∈ part, p c = false := by
      intro c hc
      rw [← Bool.not_eq_true]
      intro hpc
      have hword := h c hc
      rw [hp c hpc] at hword
      cases hword
    exact ⟨fun c hmem => hc c (List.mem_of_head? hmem), fun c hmem => hc c (List.mem_of_getLast? hmem)⟩
  refine ⟨fun hmem => absurd (h '.' hmem) (by decide +kernel), ?_⟩
  rw [trim_eq_self (hplain fun c hc => isWord_of_isBlank hc), dropBothWhile_eq_self (hplain fun c hc => ?_),
    String.toList_ofList]
  rw [beq_iff_eq.mp hc]
  decide +kernel

theorem gives_quoted {body : List Char} (hquote : '"' ∉ body) (hpoint : '.' ∉ body) :
    Gives ('"' :: (body ++ ['"'])) (String.ofList body) := by
  have hlast : ('"' :: (body ++ ['"'])).getLast? = some '"' := by
    rw [← List.cons_append, List.getLast?_concat]
  have hbare : Bare (· == '"') body := by
    constructor
    · exact fun c hc => beq_eq_false_iff_ne.mpr fun h => hquote (h ▸ List.mem_of_head? hc)
    · exact fun c hc => beq_eq_false_iff_ne.mpr fun h => hquote (h ▸ List.mem_of_getLast? hc)
  refine ⟨by simpa using hpoint, ?_⟩
  rw [trim_eq_self (trimmed_of_ends (c := '"') (d := '"') rfl rfl rfl hlast), String.toList_ofList]
  exact dropBothWhile_between (a := ['"']) (b := ['"']) (by decide) hbare (by decide)

/-! ## Reading where names are blanked -/

/-- A name without quotes in it is read up to its last quote. -/
theorem readPart?_quoted {body : List Char} (hne : body ≠ []) (hquote : '"' ∉ body) (rest : List Char) :
    readPart? ('"' :: (body ++ '"' :: rest)) = some ('"' :: (body ++ ['"']), rest) := by
  have hbody : ∀ c ∈ body, (c != '"') = true := fun c hc => bne_iff_ne.mpr fun h => hquote (h ▸ hc)
  have hdrop : (body ++ '"' :: rest).dropWhile (· != '"') = '"' :: rest := by
    rw [List.dropWhile_append_of_pos hbody]
    rfl
  have htake : (body ++ '"' :: rest).takeWhile (· != '"') = body := by
    rw [List.takeWhile_append_of_pos hbody]
    simp
  have hempty : body.isEmpty = false := by
    rwa [List.isEmpty_eq_false_iff]
  simp only [readPart?, hdrop, htake, hempty]
  rfl

theorem readPart?_blanked {k : Nat} (hk : k ≠ 0) (rest : List Char) :
    readPart? ('"' :: (List.replicate k '_' ++ '"' :: rest)) =
      some ('"' :: (List.replicate k '_' ++ ['"']), rest) :=
  readPart?_quoted (by simpa using hk)
    (fun hmem => absurd (List.eq_of_mem_replicate hmem) (by decide)) rest

theorem readPart?_word {w : List Char} (hne : w ≠ []) (hw : ∀ c ∈ w, isWord c)
    (hrest : ∀ c ∈ rest.head?, isWord c = false) : readPart? (w ++ rest) = some (w, rest) := by
  have hstop : rest.takeWhile isWord = [] := by
    cases rest with
    | nil => rfl
    | cons c rest => exact List.takeWhile_cons_of_neg (by simp [hrest c rfl])
  have htake : (w ++ rest).takeWhile isWord = w := by
    rw [List.takeWhile_append_of_pos hw, hstop, List.append_nil]
  have hdrop : (w ++ rest).dropWhile isWord = rest := by
    rw [List.dropWhile_append_of_pos hw, dropWhile_eq_self hrest]
  rw [readPart?]
  · rw [htake, hdrop, if_neg (by simpa using hne)]
  · intro cs hcs
    obtain ⟨c, w, rfl⟩ := List.exists_cons_of_ne_nil hne
    obtain ⟨rfl, -⟩ := List.cons.inj hcs
    exact absurd (hw _ List.mem_cons_self) (by decide +kernel)

/-- A part that does not start with a quote is a run of word characters. -/
theorem of_readPart?_cons {c : Char} (hc : c ≠ '"') (h : readPart? (c :: cs) = some (part, rest)) :
    c :: cs = part ++ rest ∧ part ≠ [] ∧ ∀ d ∈ part, isWord d := by
  rw [readPart?] at h
  · split at h
    next => cases h
    next hword =>
      obtain ⟨rfl, rfl⟩ := Prod.mk.inj (Option.some.inj h)
      exact ⟨List.takeWhile_append_dropWhile.symm, by simpa using hword, fun d hd => List.mem_takeWhile_imp hd⟩
  · intro rest hrest
    exact hc (List.cons.inj hrest).1

/-- A quoted part that no quote follows has no quote in it. -/
theorem of_readPart?_doubled {body : List Char} (hbody : Doubled '"' body) (hrest : rest.head? ≠ some '"')
    (h : readPart? ('"' :: (body ++ '"' :: cs)) = some (part, rest)) :
    body ≠ [] ∧ '"' ∉ body ∧ part = '"' :: (body ++ ['"']) ∧ rest = cs := by
  have hquote : '"' ∉ body := by
    intro hmem
    obtain ⟨u, v, rfl, hu⟩ := List.eq_append_cons_of_mem hmem
    obtain ⟨v, rfl⟩ := List.head?_eq_some_iff.mp (hbody.head?_of_not_mem hu)
    cases u with
    | nil => cases h
    | cons d u =>
      have htext : d :: u ++ '"' :: '"' :: v ++ '"' :: cs = d :: u ++ '"' :: ('"' :: v ++ '"' :: cs) := by
        simp
      rw [htext, readPart?_quoted (List.cons_ne_nil d u) hu] at h
      obtain ⟨-, rfl⟩ := Prod.mk.inj (Option.some.inj h)
      exact hrest rfl
  cases body with
  | nil => cases h
  | cons d body =>
    rw [readPart?_quoted (List.cons_ne_nil d body) hquote] at h
    obtain ⟨rfl, rfl⟩ := Prod.mk.inj (Option.some.inj h)
    exact ⟨List.cons_ne_nil d body, hquote, rfl, rfl⟩

theorem isWord_of_isNameRest {c : Char} (h : isNameRest c) (hc : c ≠ '$') : isWord c := by
  rw [isNameRest, Bool.or_eq_true, beq_iff_eq] at h
  exact h.resolve_right hc

namespace Stripped

/-- White space stands in all three readings. -/
theorem exists_dropWhile (h : Stripped cs l n) :
    ∃ gap lr nr, (∀ c ∈ gap, isBlank c) ∧ cs = gap ++ cs.dropWhile isBlank ∧ l = gap ++ lr ∧ n = gap ++ nr ∧
      n.dropWhile isBlank = nr ∧ l.dropWhile isBlank = lr ∧ Stripped (cs.dropWhile isBlank) lr nr := by
  have hgap : ∀ c ∈ cs.takeWhile isBlank, isBlank c := fun c hc => List.mem_takeWhile_imp hc
  have hcs : cs = cs.takeWhile isBlank ++ cs.dropWhile isBlank := List.takeWhile_append_dropWhile.symm
  obtain ⟨lr, nr, hl, hn, hrest⟩ := of_append (fun c hc => isQuote_of_isBlank (hgap c hc)) (hcs ▸ h)
  have hdrop {x y : List Char} (hx : x = cs.takeWhile isBlank ++ y) (hy : y.head? = (cs.dropWhile isBlank).head?) :
      x.dropWhile isBlank = y := by
    rw [hx, List.dropWhile_append_of_pos hgap, dropWhile_eq_self]
    rw [hy]
    exact head?_dropWhile_not isBlank cs
  exact ⟨_, lr, nr, hgap, hcs, hl, hn, hdrop hn hrest.head?_eq.2, hdrop hl hrest.head?_eq.1, hrest⟩

theorem afterPoint?_eq_none (h : Stripped cs l n) (hend : afterPoint? cs = none) : afterPoint? n = none := by
  obtain ⟨gap, lr, nr, -, -, -, -, hn, -, hrest⟩ := h.exists_dropWhile
  rw [afterPoint?, hn]
  split
  next =>
    have hhead := hrest.head?_eq.2
    rw [List.head?_cons, eq_comm, List.head?_eq_some_iff] at hhead
    obtain ⟨later, hlater⟩ := hhead
    rw [afterPoint?, hlater] at hend
    cases hend
  next => rfl

/-- A point stands in all three readings, with the same white space around it. -/
theorem exists_afterPoint? (h : Stripped cs l n) (hpoint : afterPoint? cs = some later) :
    ∃ gap gap' lr nr, (∀ c ∈ gap, isBlank c) ∧ (∀ c ∈ gap', isBlank c) ∧
      l = gap ++ '.' :: (gap' ++ lr) ∧ n = gap ++ '.' :: (gap' ++ nr) ∧ afterPoint? n = some nr ∧
        Stripped later lr nr := by
  obtain ⟨gap, lr, nr, hgap, -, rfl, hn, hdrop, -, hrest⟩ := h.exists_dropWhile
  rw [afterPoint?] at hpoint
  split at hpoint
  next after hafter =>
    rw [hafter] at hrest
    cases hrest with
    | char _ hrest =>
      obtain ⟨gap', lr, nr, hgap', -, rfl, rfl, hdrop', -, hrest⟩ := hrest.exists_dropWhile
      obtain rfl := Option.some.inj hpoint
      exact ⟨gap, gap', lr, nr, hgap, hgap', rfl, hn, by rw [afterPoint?, hdrop]; exact congrArg some hdrop', hrest⟩
  next => cases hpoint

/-- A name is in all three readings, with its quotes. -/
theorem exists_part (h : Stripped cs l n) {name : Name}
    (hread : readName? isNameRest cs = some (name, rest)) (hplain : name.IsPlain) :
    ∃ part blanked lr nr, l = part ++ lr ∧ n = blanked ++ nr ∧ part.length = blanked.length ∧
      Gives part name.text ∧ readPart? n = some (blanked, nr) ∧ Stripped rest lr nr := by
  cases h with
  | nil => cases hread
  | literal => cases hread
  | @char c cs l n hc h =>
    have hne : c ≠ '"' := by
      rintro rfl
      cases hc
    rw [readName?, if_neg hne] at hread
    split at hread
    next hstart =>
      obtain ⟨rfl, rfl⟩ := Prod.mk.inj (Option.some.inj hread)
      have hword : ∀ d ∈ c :: cs.takeWhile isNameRest, isWord d := by
        intro d hd
        refine isWord_of_isNameRest ?_ fun hdollar => hplain (hdollar ▸ hd)
        rcases List.mem_cons.mp hd with rfl | hd
        · exact hstart
        · exact List.mem_takeWhile_imp hd
      have htext : c :: cs = c :: cs.takeWhile isNameRest ++ cs.dropWhile isNameRest := by
        rw [List.cons_append, List.takeWhile_append_dropWhile]
      obtain ⟨lr, nr, hl, hn, hrest⟩ :=
        of_append (fun d hd => isQuote_of_isWord (hword d hd)) (htext ▸ h.char hc)
      refine ⟨_, _, lr, nr, hl, hn, rfl, gives_word hword, ?_, hrest⟩
      rw [hn]
      refine readPart?_word (List.cons_ne_nil _ _) hword ?_
      rw [hrest.head?_eq.2]
      intro d hd
      have hstop := head?_dropWhile_not isNameRest cs d hd
      rw [isNameRest, Bool.or_eq_false_iff] at hstop
      exact hstop.1
    next => cases hread
  | @name body body' cs l n hbody hbody' hkeep hnext h =>
    rw [readName?, if_pos rfl, quotedBody?_of_doubled hbody hnext] at hread
    cases body with
    | nil => cases hread
    | cons d body =>
      obtain ⟨rfl, rfl⟩ := Prod.mk.inj (Option.some.inj hread)
      obtain ⟨hquote, htick, hpoint⟩ := hplain
      obtain rfl := hkeep htick
      refine ⟨'"' :: (d :: body ++ ['"']), '"' :: (List.replicate (d :: body).length '_' ++ ['"']), l, n,
        by simp, by simp, by simp, ?_,
        readPart?_blanked (List.length_pos_of_ne_nil (List.cons_ne_nil d body)).ne' n, h⟩
      rw [Name.text_quoted hquote]
      exact gives_quoted hquote hpoint

/-- **What the gate takes from the text of a reference is the name that is referred to.** -/
theorem exists_reference {names : List Name} (h : Stripped cs l n) (hrefers : Refers cs names rest)
    (hplain : ∀ m ∈ names, m.IsPlain) {k : Nat} (hk : n.length ≤ k) :
    ∃ reference blanked lr nr, l = reference ++ lr ∧ n = blanked ++ nr ∧
      reference.length = blanked.length ∧ partNames reference = names.map Name.text ∧
        afterReference? k n = some nr ∧ Stripped rest lr nr := by
  -- the budget is the length of a text that is not empty
  have hbudget {k : Nat} {n part rest : List Char} (hread : readPart? n = some (part, rest))
      (hk : n.length ≤ k) : ∃ j, k = j + 1 := by
    cases n with
    | nil => cases hread
    | cons c n => exact Nat.exists_eq_succ_of_ne_zero (Nat.ne_of_gt (Nat.zero_lt_of_lt hk))
  induction hrefers generalizing l n k with
  | last hname hend =>
    obtain ⟨part, blanked, lr, nr, rfl, hn, hlength, hgives, hread, hrest⟩ :=
      h.exists_part hname (hplain _ List.mem_cons_self)
    obtain ⟨k, rfl⟩ := hbudget hread hk
    refine ⟨part, blanked, lr, nr, rfl, hn, hlength, partNames_of_gives hgives, ?_, hrest⟩
    rw [afterReference?, hread]
    simp only [Option.bind_eq_bind, Option.bind_some, hrest.afterPoint?_eq_none hend, Option.bind_none]
  | @point cs rest later rest' name names hname hpoint hlater ih =>
    rw [List.forall_mem_cons] at hplain
    obtain ⟨part, blanked, lr, nr, rfl, rfl, hlength, hgives, hread, hrest⟩ := h.exists_part hname hplain.1
    obtain ⟨k, rfl⟩ := hbudget hread hk
    obtain ⟨gap, gap', lr, nr, hgap, hgap', rfl, rfl, hafter, hrest⟩ := hrest.exists_afterPoint? hpoint
    have hk' : nr.length ≤ k := by
      simp only [List.length_append, List.length_cons] at hk
      omega
    obtain ⟨reference, blanked', lr, nr, rfl, rfl, hlength', hnames, hreference, hrest⟩ :=
      ih hrest hplain.2 hk'
    refine ⟨part ++ (gap ++ '.' :: (gap' ++ reference)), blanked ++ (gap ++ '.' :: (gap' ++ blanked')), lr, nr,
      by simp, by simp, by simp [hlength, hlength'], ?_, ?_, hrest⟩
    · rw [partNames_append_point hgives hgap hgap', hnames, List.map_cons]
    · rw [afterReference?, hread]
      simp only [Option.bind_eq_bind, Option.bind_some, hafter, hreference]

end Stripped

/-! ## Behind FROM and JOIN -/

/-- FROM or JOIN, in any letter case. -/
def IsSourceWord (w : List Char) : Prop :=
  w.map fold = "from".toList ∨ w.map fold = "join".toList

instance (w : List Char) : Decidable (IsSourceWord w) :=
  inferInstanceAs (Decidable (_ ∨ _))

variable {w text after : List Char} {p : Place} {start length : Nat}

theorem IsSourceWord.ne_nil (h : IsSourceWord w) : w ≠ [] := by
  rintro rfl
  rcases h with h | h <;> cases h

theorem IsSourceWord.isWord_and_plain (h : IsSourceWord w) : ∀ c ∈ w, isWord c ∧ Plain c := by
  have hletters : ∀ k ∈ "from".toList ++ "join".toList, isKeyLetter k ∧ Plain k := by
    decide
  intro c hc
  have hmem : fold c ∈ "from".toList ++ "join".toList := by
    have hmem : fold c ∈ w.map fold := List.mem_map_of_mem hc
    rw [List.mem_append]
    rcases h with h | h
    · exact Or.inl (h ▸ hmem)
    · exact Or.inr (h ▸ hmem)
  exact ⟨isWord_of_isKeyLetter_fold (hletters _ hmem).1, plain_of_fold (hletters _ hmem).2⟩

theorem letters?_source_iff {cs rest : List Char} :
    (letters? "from".toList cs).or (letters? "join".toList cs) = some rest ↔
      ∃ w, IsSourceWord w ∧ cs = w ++ rest := by
  have hclash {v : List Char} (hv : v.map fold = "join".toList) :
      letters? "from".toList (v ++ rest) = none := by
    refine letters?_eq_none_of_clash ?_ rest
    obtain ⟨c, v, rfl⟩ := List.exists_cons_of_ne_nil (IsSourceWord.ne_nil (Or.inr hv))
    have hc : fold c = 'j' := (List.cons.inj hv).1
    show (decide (fold c = 'f') && _) = false
    rw [hc]
    rfl
  rw [Option.or_eq_some_iff, letters?_eq_some_iff, letters?_eq_some_iff]
  constructor
  · rintro (⟨v, rfl, hv⟩ | ⟨-, v, rfl, hv⟩)
    · exact ⟨v, Or.inl hv, rfl⟩
    · exact ⟨v, Or.inr hv, rfl⟩
  · rintro ⟨v, hv | hv, rfl⟩
    · exact Or.inl ⟨v, rfl, hv⟩
    · exact Or.inr ⟨hclash hv, v, rfl, hv⟩

/-- A match is a keyword, white space, and a reference. -/
theorem tableReference?_eq_some_iff :
    tableReference? p = some ((start, length), after) ↔
      p.startsWord ∧ ∃ w gap text, IsSourceWord w ∧ gap ≠ [] ∧ (∀ c ∈ gap, isBlank c) ∧
        (∀ c ∈ text.head?, isBlank c = false) ∧ p.rest = w ++ (gap ++ text) ∧
        afterReference? (text.length + 1) text = some after ∧
        start = p.offset + (w ++ gap).length ∧ length = text.length - after.length := by
  have hoffset {w gap text : List Char} :
      (w ++ (gap ++ text)).length - text.length = (w ++ gap).length := by
    rw [← List.append_assoc, List.length_append, Nat.add_sub_cancel]
  constructor
  · intro h
    rw [tableReference?] at h
    split at h
    next => cases h
    next hstart =>
      obtain ⟨rest, hrest, h⟩ := Option.bind_eq_some_iff.mp h
      obtain ⟨w, hw, hp⟩ := letters?_source_iff.mp hrest
      cases rest with
      | nil => cases h
      | cons b cs =>
        simp only at h
        split at h
        next hb =>
          obtain ⟨text, htext, h⟩ := Option.bind_eq_some_iff.mp h
          obtain ⟨after', hafter, heq⟩ := Option.bind_eq_some_iff.mp h
          obtain rfl := Option.some.inj htext
          obtain ⟨hpair, rfl⟩ := Prod.mk.inj (Option.some.inj heq)
          obtain ⟨hs, rfl⟩ := Prod.mk.inj hpair
          have hcs : b :: cs = b :: cs.takeWhile isBlank ++ cs.dropWhile isBlank := by
            rw [List.cons_append, List.takeWhile_append_dropWhile]
          rw [hcs] at hp
          refine ⟨by simpa using hstart, w, _, _, hw, List.cons_ne_nil _ _, ?_, head?_dropWhile_not _ _, hp,
            hafter, ?_, rfl⟩
          · rw [List.forall_mem_cons]
            exact ⟨hb, fun c hc => List.mem_takeWhile_imp hc⟩
          · rw [← hs, hp, hoffset]
        next => cases h
  · rintro ⟨hstart, w, gap, text, hw, hgap, hblank, hhead, hp, hafter, rfl, rfl⟩
    obtain ⟨b, gap, rfl⟩ := List.exists_cons_of_ne_nil hgap
    rw [List.forall_mem_cons] at hblank
    have hdrop : (gap ++ text).dropWhile isBlank = text := by
      rw [List.dropWhile_append_of_pos hblank.2, dropWhile_eq_self hhead]
    have hletters := letters?_source_iff.mpr ⟨w, hw, hp⟩
    rw [tableReference?, if_neg (by simp [hstart]), hletters]
    simp only [Option.bind_eq_bind, Option.bind_some, List.cons_append, hblank.1, if_true, hdrop, hafter]
    rw [hp, hoffset]

/-! ## Keywords inside references -/

/-- The text ends where a name is awaited: behind a point, or behind FROM or JOIN. -/
def AwaitsName (cs : List Char) : Prop :=
  ∃ x w gap, cs = x ++ (w ++ gap) ∧ (∀ c ∈ gap, isBlank c) ∧
    (w = ['.'] ∨ IsSourceWord w ∧ wordStart (lastOr none x))

/-- Nothing but white space follows a point, or FROM or JOIN. -/
theorem awaitsName_iff {cs : List Char} :
    AwaitsName cs ↔ ∃ p ∈ places cs, (∃ gap ∈ ['.'].isPrefixOf? p.rest, ∀ c ∈ gap, isBlank c) ∨
      p.startsWord ∧ ∃ gap ∈ (letters? "from".toList p.rest).or (letters? "join".toList p.rest),
        ∀ c ∈ gap, isBlank c := by
  constructor
  · rintro ⟨x, w, gap, rfl, hgap, hw⟩
    refine ⟨_, mem_places.mpr ⟨x, w ++ gap, rfl, rfl⟩, hw.imp ?_ ?_⟩
    · rintro rfl
      exact ⟨gap, List.isPrefixOf?_eq_some_iff_append_eq.mpr rfl, hgap⟩
    · rintro ⟨hw, hstart⟩
      exact ⟨lastOr_none x ▸ hstart, gap, letters?_source_iff.mpr ⟨w, hw, rfl⟩, hgap⟩
  · rintro ⟨p, hp, hmatch⟩
    obtain ⟨x, rest, rfl, rfl⟩ := mem_places.mp hp
    rcases hmatch with ⟨gap, hpoint, hgap⟩ | ⟨hstart, gap, hletters, hgap⟩
    · exact ⟨x, ['.'], gap, by rw [List.isPrefixOf?_eq_some_iff_append_eq.mp hpoint], hgap, Or.inl rfl⟩
    · obtain ⟨w, hw, hrest⟩ := letters?_source_iff.mp hletters
      refine ⟨x, w, gap, congrArg (x ++ ·) hrest, hgap, Or.inr ⟨hw, ?_⟩⟩
      rw [lastOr_none]
      exact hstart

instance (cs : List Char) : Decidable (AwaitsName cs) :=
  decidable_of_iff _ awaitsName_iff.symm

/-- No word starts inside a word. -/
theorem eq_append_of_isWord {y k v : List Char} {c : Char} (hw : ∀ d ∈ w, isWord d)
    (hstart : wordStart (lastOr none y)) (h : w ++ k = y ++ c :: v) :
    y = [] ∨ ∃ y', y = w ++ y' ∧ k = y' ++ c :: v := by
  rcases List.append_eq_append_iff.mp h with ⟨y', rfl, hk⟩ | ⟨w', rfl, -⟩
  · exact Or.inr ⟨y', rfl, hk⟩
  · left
    rcases List.eq_nil_or_concat y with hy | ⟨init, d, hy⟩
    · exact hy
    · rw [List.concat_eq_append] at hy
      have hd : isWord d := hw d (by simp [hy])
      rw [hy, lastOr_append, lastOr_cons, wordStart] at hstart
      simp [hd] at hstart

namespace Stripped

/-- A part of a reference is a word, or a name in which no character stands outside quotes. -/
theorem of_readPart? (h : Stripped cs l n) (hread : readPart? n = some (part, rest)) :
    n = part ++ rest ∧ ((∀ c ∈ part, isWord c) ∨ ∀ c ∈ part, ¬ Plain c) ∧ ∃ cs' l', Stripped cs' l' rest := by
  cases h with
  | nil => cases hread
  | literal => cases hread
  | @char c cs l n hc h =>
    have hne : c ≠ '"' := by
      rintro rfl
      cases hc
    obtain ⟨hn, -, hall⟩ := of_readPart?_cons hne hread
    obtain ⟨b, lb, -, -, hb⟩ :=
      of_blanked_append (fun d hd => isQuote_of_isWord (hall d hd)) (hn ▸ h.char hc)
    exact ⟨hn, Or.inl hall, b, lb, hb⟩
  | @name body body' cs l n hbody hbody' hkeep hnext h =>
    cases body' with
    | nil => cases hread
    | cons d body' =>
      rw [readPart?_blanked (by simp)] at hread
      obtain ⟨rfl, rfl⟩ := Prod.mk.inj (Option.some.inj hread)
      refine ⟨by simp, Or.inr fun c hc => ?_, _, _, h⟩
      exact Region.not_plain (.of_mem rfl fun d hd => Or.inr (List.eq_of_mem_replicate hd)) hc

/-- A point is followed by what the gate reads. -/
theorem of_afterPoint? (h : Stripped cs l n) (hpoint : afterPoint? n = some later) :
    ∃ gap gap', (∀ c ∈ gap, isBlank c) ∧ (∀ c ∈ gap', isBlank c) ∧ n = gap ++ '.' :: (gap' ++ later) ∧
      ∃ cs' l', Stripped cs' l' later := by
  obtain ⟨gap, lr, nr, hgap, -, -, rfl, hdrop, -, hrest⟩ := h.exists_dropWhile
  rw [afterPoint?, hdrop] at hpoint
  split at hpoint
  next after =>
    generalize hcs : cs.dropWhile isBlank = ds at hrest
    cases hrest with
    | char _ hrest =>
      obtain ⟨gap', lr, nr, hgap', -, -, rfl, hdrop', -, hrest⟩ := hrest.exists_dropWhile
      rw [hdrop'] at hpoint
      obtain rfl := Option.some.inj hpoint
      exact ⟨gap, gap', hgap, hgap', rfl, _, _, hrest⟩
  next => cases hpoint

/-- No word stands in the point between two parts. -/
theorem not_mem_point {gap gap' : List Char} {c : Char} (hc : isWord c) (hgap : ∀ d ∈ gap, isBlank d)
    (hgap' : ∀ d ∈ gap', isBlank d) : c ∉ gap ++ '.' :: gap' := by
  have hblank : isBlank c = false := by
    rw [← Bool.not_eq_true]
    intro hblank
    rw [isWord_of_isBlank hblank] at hc
    cases hc
  simp only [List.mem_append, List.mem_cons, not_or]
  refine ⟨fun hmem => ?_, ?_, fun hmem => ?_⟩
  · rw [hgap c hmem] at hblank
    cases hblank
  · rintro rfl
    exact absurd hc (by decide +kernel)
  · rw [hgap' c hmem] at hblank
    cases hblank

/-- A word that starts inside a reference is the first of it, or follows a point. -/
theorem point_of_inside {k : Nat} {y z : List Char} {c : Char} (h : Stripped cs l n)
    (hreference : afterReference? k n = some after) (hn : n = y ++ c :: z) (hc : isWord c ∧ Plain c)
    (hstart : wordStart (lastOr none y)) (hinside : y.length < n.length - after.length) :
    y = [] ∨ ∃ x gap, y = x ++ '.' :: gap ∧ ∀ d ∈ gap, isBlank d := by
  induction k generalizing cs l n y with
  | zero => cases hreference
  | succ k ih =>
    obtain ⟨⟨part, rest⟩, hread, hreference⟩ := Option.bind_eq_some_iff.mp hreference
    obtain ⟨hpart, hkind, cs', l', hrest⟩ := h.of_readPart? hread
    have hbehind : y = [] ∨ ∃ y', y = part ++ y' ∧ rest = y' ++ c :: z := by
      rcases hkind with hword | hblank
      · exact eq_append_of_isWord hword hstart (hpart.symm.trans hn)
      · exact Or.inr (exists_of_append_eq_append (fun hmem => hblank c hmem hc.2) (hn.symm.trans hpart))
    rcases hbehind with hy | ⟨y, rfl, hrest'⟩
    · exact Or.inl hy
    right
    simp only at hreference
    split at hreference
    next after' hafter =>
      obtain rfl := Option.some.inj hreference
      obtain ⟨later, hpoint, hlater⟩ := Option.bind_eq_some_iff.mp hafter
      obtain ⟨gap, gap', hgap, hgap', hgaps, cs'', l'', hstripped⟩ := hrest.of_afterPoint? hpoint
      have hsplit : y ++ c :: z = (gap ++ '.' :: gap') ++ later := by
        rw [← hrest', hgaps]
        simp
      obtain ⟨y, rfl, hlater'⟩ := exists_of_append_eq_append (not_mem_point hc.1 hgap hgap') hsplit
      rw [← List.append_assoc] at hstart
      have hlength : y.length < later.length - after'.length := by
        rw [hpart, hgaps] at hinside
        simp only [List.length_append, List.length_cons] at hinside
        omega
      rcases ih hstripped hlater hlater' (wordStart_of_append hstart) hlength with rfl | ⟨x, gap'', rfl, hblank⟩
      · exact ⟨part ++ gap, gap', by simp, hgap'⟩
      · exact ⟨part ++ (gap ++ '.' :: (gap' ++ x)), gap'', by simp, hblank⟩
    next =>
      obtain rfl := Option.some.inj hreference
      rw [hpart, List.length_append, List.length_append] at hinside
      omega

/-- A word that starts inside a match awaits to be a name. -/
theorem awaitsName_of_isInside {x v : List Char} {c : Char} (h : Stripped cs l n) (hn : n = x ++ c :: v)
    (hc : isWord c ∧ Plain c) (hstart : wordStart (lastOr none x)) {q : Place} (hq : q ∈ places n)
    (hinside : Place.IsInside tableReference? ⟨x.length, x.getLast?, c :: v⟩ q) : AwaitsName x := by
  obtain ⟨pre, post, hpre, rfl⟩ := mem_places.mp hq
  obtain ⟨hbefore, ⟨start, length⟩, after, hmatch, hbehind⟩ := hinside
  obtain ⟨hstart', w, gap, text, hw, hne, hgap, hhead, hpost, hreference, -, -⟩ :=
    tableReference?_eq_some_iff.mp hmatch
  simp only at hbefore hbehind hpost
  subst hpost
  obtain ⟨y, rfl, hy⟩ : ∃ y, x = pre ++ y ∧ w ++ (gap ++ text) = y ++ c :: v := by
    rcases List.append_eq_append_iff.mp (hpre.symm.trans hn) with ⟨y, hy, hpost⟩ | ⟨y, hy, -⟩
    · exact ⟨y, hy, hpost⟩
    · rw [hy, List.length_append] at hbefore
      omega
  have hplain := hw.isWord_and_plain
  obtain ⟨-, -, b, lb, -, -, -, -, hb⟩ := cut_blanked hw.ne_nil (fun d hd => (hplain d hd).2) (hpre ▸ h)
  obtain ⟨b, lb, -, -, htext⟩ := of_blanked_append (fun d hd => isQuote_of_isBlank (hgap d hd)) hb
  rcases eq_append_of_isWord (fun d hd => (hplain d hd).1) (wordStart_of_append hstart) hy with rfl | ⟨y, rfl, hgaps⟩
  · simp at hbefore
  have hfree : c ∉ gap := by
    intro hmem
    have hword := hc.1
    rw [isWord_of_isBlank (hgap c hmem)] at hword
    cases hword
  obtain ⟨y, rfl, htail⟩ := exists_of_append_eq_append hfree hgaps.symm
  have hlength : y.length < text.length - after.length := by
    simp only [List.length_append] at hbehind
    omega
  rw [← List.append_assoc, ← List.append_assoc] at hstart
  rcases htext.point_of_inside hreference htail hc (wordStart_of_append hstart) hlength with
    rfl | ⟨z, gap', rfl, hblank⟩
  · exact ⟨pre, w, gap, by simp, hgap, Or.inr ⟨hw, by rw [lastOr_none]; exact hstart'⟩⟩
  · exact ⟨pre ++ (w ++ (gap ++ z)), ['.'], gap', by simp, hblank, Or.inl rfl⟩

/-- A name is awaited behind a text where it is awaited behind what is left of it. -/
theorem awaitsName (h : Stripped cs l n) (hn : AwaitsName n) : AwaitsName cs := by
  obtain ⟨x, w, gap, hn, hgap, hw⟩ := hn
  have hplain : ∀ c ∈ w ++ gap, Plain c := by
    rw [List.forall_mem_append]
    constructor
    · rcases hw with rfl | ⟨hw, -⟩
      · decide
      · exact fun c hc => (hw.isWord_and_plain c hc).2
    · exact fun c hc => ⟨isQuote_of_isBlank (hgap c hc), of_isBlank (P := fun c => c ≠ '_') (by decide) (hgap c hc)⟩
  have hne : w ++ gap ≠ [] := by
    rcases hw with rfl | ⟨hw, -⟩
    · exact List.cons_ne_nil _ _
    · exact List.append_ne_nil_of_left_ne_nil hw.ne_nil gap
  rw [← List.append_nil (w ++ gap)] at hn
  obtain ⟨a, la, b, lb, hcs, -, -, ha, hb⟩ := cut_blanked hne hplain (hn ▸ h)
  cases hb
  refine ⟨a, w, gap, by rw [hcs, List.append_nil], hgap, hw.imp_right fun hw => ⟨hw.1, ?_⟩⟩
  rw [← (ha.wordStart_lastOr none).2]
  exact hw.2

/-- The gate reads the names of a reference behind a keyword, where it stands. -/
theorem exists_slice {names : List Name} (ha : Stripped a l n) (lead : List Char) {lt nt : List Char}
    (htext : Stripped text lt nt) (hrefers : Refers text names rest) (hplain : ∀ m ∈ names, m.IsPlain) :
    ∃ after, afterReference? (nt.length + 1) nt = some after ∧
      partNames (((l ++ (lead ++ lt)).drop (n.length + lead.length)).take (nt.length - after.length)) =
        names.map Name.text := by
  obtain ⟨reference, blanked, lr, nr, rfl, rfl, hlength, hnames, hreference, -⟩ :=
    htext.exists_reference hrefers hplain (Nat.le_succ nt.length)
  refine ⟨nr, hreference, ?_⟩
  have hslice : ((l ++ (lead ++ (reference ++ lr))).drop (n.length + lead.length)).take
      ((blanked ++ nr).length - nr.length) = reference := by
    rw [← ha.length_eq, ← List.length_append, ← List.append_assoc, List.drop_left, List.length_append,
      Nat.add_sub_cancel, ← hlength, List.take_left]
  rw [hslice, hnames]

/-- **The gate finds the reference behind a keyword**, where no name is awaited. -/
theorem exists_mem_scan {names : List Name} (h : Stripped (a ++ (w ++ (gap ++ text))) l n) (ha : Closed a)
    (hw : IsSourceWord w) (hstart : wordStart (lastOr none a)) (hawaits : ¬ AwaitsName a)
    (hgap : gap ≠ [] ∧ ∀ c ∈ gap, isBlank c) (hrefers : Refers text names rest)
    (hplain : ∀ m ∈ names, m.IsPlain) :
    ∃ p start length, (p, (start, length)) ∈ scan tableReference? n ∧
      SameOutside (mask a) (n.take p.offset) ∧
      partNames ((l.drop start).take length) = names.map Name.text := by
  have hword := hw.isWord_and_plain
  obtain ⟨la, na, lb, nb, rfl, rfl, hla, hb⟩ := h.cut hw.ne_nil (fun c hc => (hword c hc).2.1) ha
  obtain ⟨lt, nt, rfl, rfl, htext⟩ := of_append (fun c hc => isQuote_of_isBlank (hgap.2 c hc)) hb
  have hhead : ∀ c ∈ nt.head?, isBlank c = false := by
    rw [htext.head?_eq.2]
    exact hrefers.head?
  obtain ⟨after, hafter, hparts⟩ := exists_slice hla (w ++ gap) htext hrefers hplain
  have hstart' : wordStart na.getLast? := by
    rw [← lastOr_none, (hla.wordStart_lastOr none).2]
    exact hstart
  have hmatch : tableReference? ⟨na.length, na.getLast?, w ++ (gap ++ nt)⟩ =
      some ((na.length + (w ++ gap).length, nt.length - after.length), after) :=
    tableReference?_eq_some_iff.mpr ⟨hstart', w, gap, nt, hw, hgap.1, hgap.2, hhead, rfl, hafter, rfl, rfl⟩
  have hmem := (mem_scan_or_inside hmatch).resolve_right fun ⟨q, hq, hinside⟩ => by
    obtain ⟨c, v, rfl⟩ := List.exists_cons_of_ne_nil hw.ne_nil
    exact hawaits (hla.awaitsName (h.awaitsName_of_isInside rfl (hword c List.mem_cons_self)
      (by rw [lastOr_none]; exact hstart') hq hinside))
  refine ⟨_, _, _, hmem, ?_, by rw [← hparts, List.append_assoc]⟩
  rw [List.take_left]
  exact hla.sameOutside

end Stripped

/-! ## Tables -/

/-- No table is reported when every match of the scan is in a function or gives a name that is allowed. -/
theorem otherTables_eq_nil_iff {c : Catalog} :
    otherTables c l n = [] ↔ ∀ p start length, (p, (start, length)) ∈ scan tableReference? n →
      (∃ f ∈ fromFunctions, enclosingFunction? n p.offset = some f) ∨
        lower (referenceName ((l.drop start).take length)).toList ∈ boundNames l ++ ownNames c := by
  rw [otherTables, List.filterMap_eq_nil_iff]
  constructor
  · intro h p start length hmem
    have hnone := h _ hmem
    simp only at hnone
    split at hnone
    next hfunction =>
      obtain ⟨f, hf, hcontains⟩ := (Option.any_eq_true _ _).mp hfunction
      exact Or.inl ⟨f, List.contains_iff_mem.mp hcontains, hf⟩
    next =>
      split at hnone
      next hallowed => exact Or.inr (List.contains_iff_mem.mp hallowed)
      next => cases hnone
  · rintro h ⟨p, start, length⟩ hmem
    simp only
    rcases h p start length hmem with ⟨f, hf, hfunction⟩ | hallowed
    · rw [hfunction, Option.any_some, if_pos (List.contains_iff_mem.mpr hf)]
    · rw [if_pos (List.contains_iff_mem.mpr hallowed)]
      split <;> rfl

end MetricLayer.Safety
