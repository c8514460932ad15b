import MetricLayer.Proofs.Sql.Name
import MetricLayer.Sql.Alias

/-!
# Reading aliases back

An item that ends in AS and a name is split there (`splitAlias_written`), whatever its expression is, if the
quotes of the expression are closed; the name may be quoted (`splitAlias_item`).  A pattern that is met earlier
would have to read a name up to the end of the item, over the AS before the last name; but a name that is read
inside the expression ends before that (`readName?_ends`).
-/

namespace MetricLayer.Sql

open MetricLayer.Text

/-! ## White space before a text -/

theorem afterBlank?_eq_some_iff {cs rest : List Char} :
    afterBlank? cs = some rest ↔
      ∃ gap, gap ≠ [] ∧ (∀ c ∈ gap, isBlank c) ∧ cs = gap ++ rest ∧
        ∀ c ∈ rest.head?, isBlank c = false := by
  constructor
  · intro h
    cases cs with
    | nil => cases h
    | cons c cs =>
      rw [afterBlank?] at h
      split at h
      next hc =>
        cases h
        refine ⟨c :: cs.takeWhile isBlank, List.cons_ne_nil _ _, ?_, ?_, head?_dropWhile_not _ _⟩
        · intro d hd
          rcases List.mem_cons.mp hd with rfl | hd
          · exact hc
          · exact List.mem_takeWhile_imp hd
        · rw [List.cons_append, List.takeWhile_append_dropWhile]
      next => cases h
  · rintro ⟨gap, hne, hgap, rfl, hrest⟩
    cases gap with
    | nil => exact absurd rfl hne
    | cons c gap =>
      rw [List.cons_append, afterBlank?, if_pos (hgap c List.mem_cons_self),
        List.dropWhile_append_of_pos fun d hd => hgap d (List.mem_cons_of_mem c hd),
        dropWhile_eq_self hrest]

/-! ## Where a name ends -/

/-- A quoted name that starts inside a text ends inside it, if the quotes of the text are closed. -/
theorem exists_quotedBody?_mask {x : List Char} (h : quoteAfter (some '"') x = none) {b : Char}
    (hb : b ≠ '"') (tail : List Char) :
    ∃ body pre, quotedBody? '"' (maskFrom (some '"') x ++ b :: tail) =
      some (body, pre ++ b :: tail) := by
  match x with
  | [] => cases h
  | [c] =>
    have hc : c = '"' := by
      by_contra hc
      rw [quoteAfter, List.foldl_cons, quoteStep, if_neg hc] at h
      cases h
    subst hc
    refine ⟨[], [], ?_⟩
    show quotedBody? '"' ('"' :: b :: tail) = _
    rw [quotedBody?, if_pos rfl, if_neg hb]
    rfl
  | c :: d :: x =>
    by_cases hc : c = '"'
    · subst hc
      by_cases hd : d = '"'
      · subst hd
        -- a doubled quote, or a name right after another: the reading goes on
        obtain ⟨body, pre, hread⟩ := exists_quotedBody?_mask (x := x) h hb tail
        refine ⟨'"' :: '"' :: body, pre, ?_⟩
        show quotedBody? '"' ('"' :: '"' :: (maskFrom (some '"') x ++ b :: tail)) = _
        rw [quotedBody?, if_pos rfl, if_pos rfl, hread]
      · refine ⟨[], mask (d :: x), ?_⟩
        show quotedBody? '"' ('"' :: d :: (maskFrom (quoteStep none d) x ++ b :: tail)) = _
        rw [quotedBody?, if_pos rfl, if_neg hd]
        rfl
    · have hstep : quoteStep (some '"') c = some '"' := if_neg hc
      have hx : quoteAfter (some '"') (d :: x) = none := by
        rw [quoteAfter, List.foldl_cons, hstep] at h
        exact h
      obtain ⟨body, pre, hread⟩ := exists_quotedBody?_mask hx hb tail
      refine ⟨'_' :: body, pre, ?_⟩
      rw [maskFrom, maskStep, if_neg hc, hstep]
      exact quotedBody?_cons (by decide) hread

/-- A name that starts inside a text ends inside it or with it. -/
theorem readName?_ends {start : Char → Bool} {x : List Char} (hx : Closed x) {b : Char}
    (hb : b ≠ '"') (hstart : start b = false) (hrest : isNameRest b = false) {tail : List Char}
    {name : Name} {rest : List Char} (h : readName? start (mask x ++ b :: tail) = some (name, rest)) :
    ∃ pre, rest = pre ++ b :: tail := by
  cases x with
  | nil =>
    have hnone : readName? start (b :: tail) = none := by
      rw [readName?, if_neg hb, if_neg (by simp [hstart])]
    rw [mask, maskFrom, List.nil_append, hnone] at h
    cases h
  | cons c x =>
    by_cases hc : c = '"'
    · subst hc
      obtain ⟨body, pre, hbody⟩ := exists_quotedBody?_mask hx hb tail
      have hmask : mask ('"' :: x) ++ b :: tail = '"' :: (maskFrom (some '"') x ++ b :: tail) := rfl
      rw [hmask, readName?, if_pos rfl, hbody] at h
      cases body with
      | nil => cases h
      | cons d body =>
        cases h
        exact ⟨pre, rfl⟩
    · have hmask : mask (c :: x) ++ b :: tail = c :: (maskFrom (quoteStep none c) x ++ b :: tail) := rfl
      rw [hmask, readName?, if_neg hc] at h
      split at h
      next =>
        cases h
        have hdrop := List.dropWhile_cons_of_neg (l := tail) (p := isNameRest) (a := b) (by simp [hrest])
        rw [List.dropWhile_append]
        split
        next => exact ⟨[], hdrop⟩
        next => exact ⟨_, rfl⟩
      next => cases h

/-- No name is read from inside a text to the end of a longer one. -/
theorem nameToEnd?_eq_none {start : Char → Bool} (hstart : start ' ' = false) {x : List Char}
    (hx : Closed x) {tail : List Char} (htail : ∃ c ∈ tail, isBlank c = false) :
    nameToEnd? start (mask x ++ ' ' :: tail) = none := by
  obtain ⟨c, hc, hsolid⟩ := htail
  rw [nameToEnd?]
  split
  next name rest h =>
    obtain ⟨pre, rfl⟩ := readName?_ends hx (by decide) hstart (by decide) h
    rw [if_neg]
    intro hall
    rw [List.all_eq_true] at hall
    have hblank := hall c (by simp [hc])
    rw [hsolid] at hblank
    cases hblank
  next => rfl

theorem nameToEnd?_quote {start : Char → Bool} {name : String} (h : name ≠ "") :
    nameToEnd? start (mask (quote name).toList) = some (quote name).toList.length := by
  have hne : name.toList.map (fun c => if c = '"' then '"' else '_') ≠ [] := by
    simpa using h
  rw [← length_mask, mask_quote, maskDouble_eq_double]
  have hread : readName? start ('"' :: (double _ ++ ['"'])) = some (.quoted (double _), []) :=
    readName?_double hne nofun
  rw [nameToEnd?, List.cons_append, hread]
  rfl

/-! ## Items -/

/-- The text between an expression and its alias. -/
def asText : List Char := [' ', 'A', 'S', ' ']

/-- A name that can be written behind AS. -/
structure IsWrittenName (n : List Char) : Prop where
  closed : Closed n
  read : nameToEnd? (fun c => isNameStart (fold c)) (mask n) = some n.length
  solid : ∀ c ∈ mask n, isBlank c = false

section item

variable {e n : List Char} {name : String}

theorem IsWrittenName.exists_solid (hn : IsWrittenName n) : ∃ c ∈ mask n, isBlank c = false := by
  cases n with
  | nil => cases hn.read
  | cons c n => exact ⟨_, List.mem_cons_self, hn.solid _ List.mem_cons_self⟩

theorem IsWrittenName.trimmed (hn : IsWrittenName n) : Trimmed n :=
  ⟨fun c hc => hn.solid c (List.mem_of_head? (by rwa [head?_mask])),
    fun c hc => hn.solid c (List.mem_of_getLast? (by rwa [getLast?_mask hn.closed]))⟩

theorem mask_item (he : Closed e) (n : List Char) : mask (e ++ asText ++ n) = mask e ++ asText ++ mask n := by
  have has : Closed asText := by decide
  rw [List.append_assoc, mask_append he, mask_append has, ← List.append_assoc]
  rfl

theorem not_isBlank_of_mem_mask_quote {c : Char} (h : c ∈ mask (quote name).toList) :
    isBlank c = false := by
  rw [mask_quote] at h
  have hcases : c = '"' ∨ c = '_' := by
    rcases List.mem_append.mp h with h | h
    · rcases List.mem_cons.mp h with h | h
      · exact Or.inl h
      · exact mem_maskDouble h
    · exact Or.inl (List.mem_singleton.mp h)
  rcases hcases with rfl | rfl <;> rfl

/-- The pattern of an alias after AS. -/
def asAlias? (p : Place) : Option (Nat × Nat) := do
  let rest ← afterBlank? p.rest
  let rest ← letters? ['a', 's'] rest
  let rest ← afterBlank? rest
  let length ← nameToEnd? (fun c => isNameStart (fold c)) rest
  some (p.offset, length)

theorem afterAs?_eq_findSome? (masked : List Char) :
    afterAs? masked = (places masked).findSome? asAlias? := rfl

theorem asAlias?_eq_some_iff {n : Nat} {b : Option Char} {cs : List Char} {stop length : Nat} :
    asAlias? ⟨n, b, cs⟩ = some (stop, length) ↔
      ∃ g w g' rest, cs = g ++ (w ++ (g' ++ rest)) ∧ (g ≠ [] ∧ ∀ c ∈ g, isBlank c) ∧
        w.map fold = ['a', 's'] ∧ (g' ≠ [] ∧ ∀ c ∈ g', isBlank c) ∧
        (∀ c ∈ rest.head?, isBlank c = false) ∧ n = stop ∧
        nameToEnd? (fun c => isNameStart (fold c)) rest = some length := by
  constructor
  · intro h
    simp only [asAlias?, Option.bind_eq_bind, Option.bind_eq_some_iff, Option.some.injEq,
      Prod.mk.injEq] at h
    obtain ⟨rest1, h1, rest2, h2, rest3, h3, length, h4, h5, rfl⟩ := h
    obtain ⟨g, hg, hgblank, rfl, -⟩ := afterBlank?_eq_some_iff.mp h1
    obtain ⟨w, rfl, hw⟩ := letters?_eq_some_iff.mp h2
    obtain ⟨g', hg', hgblank', rfl, hrest⟩ := afterBlank?_eq_some_iff.mp h3
    exact ⟨g, w, g', rest3, rfl, ⟨hg, hgblank⟩, hw, ⟨hg', hgblank'⟩, hrest, h5, h4⟩
  · rintro ⟨g, w, g', rest, rfl, ⟨hg, hgblank⟩, hw, ⟨hg', hgblank'⟩, hrest, rfl, hlength⟩
    have hword : ∀ c ∈ (w ++ (g' ++ rest)).head?, isBlank c = false := by
      cases w with
      | nil => cases hw
      | cons d w =>
        rintro c hc
        cases hc
        exact isBlank_of_isKeyLetter_fold (by rw [(List.cons.inj hw).1]; rfl)
    have h1 := afterBlank?_eq_some_iff.mpr ⟨g, hg, hgblank, rfl, hword⟩
    have h2 : letters? ['a', 's'] (w ++ (g' ++ rest)) = some (g' ++ rest) :=
      letters?_eq_some_iff.mpr ⟨w, rfl, hw⟩
    have h3 := afterBlank?_eq_some_iff.mpr ⟨g', hg', hgblank', rfl, hrest⟩
    simp only [asAlias?, Option.bind_eq_bind, h1, h2, h3, hlength, Option.bind_some]

/-- An AS with white space around it at the end of a text is the one written there. -/
theorem exists_gap_of_asText {m pre g w g' : List Char} (h : pre ++ (g ++ (w ++ g')) = m ++ asText)
    (hg : g ≠ []) (hgblank : ∀ c ∈ g, isBlank c) (hw : w.map fold = ['a', 's'])
    (hg' : g' ≠ []) (hgblank' : ∀ c ∈ g', isBlank c) :
    ∃ gap, m = pre ++ gap ∧ ∀ c ∈ gap, isBlank c := by
  obtain ⟨init, x, rfl⟩ := (List.eq_nil_or_concat' _).resolve_left hg'
  have hspace : (pre ++ g ++ w ++ init) ++ [x] = (m ++ [' ', 'A', 'S']) ++ [' '] := by
    simpa [asText] using h
  have hletters : pre ++ g ++ w ++ init = m ++ [' ', 'A', 'S'] := (List.append_inj' hspace rfl).1
  -- the white space behind the AS is a single space, since the character before it is an S
  have hinit : init = [] := by
    by_contra hne
    obtain ⟨init', y, rfl⟩ := (List.eq_nil_or_concat' _).resolve_left hne
    have hlast : (pre ++ g ++ w ++ init') ++ [y] = (m ++ [' ', 'A']) ++ ['S'] := by
      simpa using hletters
    obtain rfl : y = 'S' := List.singleton_inj.mp (List.append_inj' hlast rfl).2
    have hmem : 'S' ∈ init' ++ ['S'] ++ [x] := by simp
    exact absurd (hgblank' _ hmem) (by decide)
  subst hinit
  have hwlength : w.length = 2 := by
    rw [← List.length_map fold, hw]
    rfl
  have hword : (pre ++ g) ++ w = (m ++ [' ']) ++ ['A', 'S'] := by
    simpa using hletters
  obtain ⟨gap, y, rfl⟩ := (List.eq_nil_or_concat' _).resolve_left hg
  have hgap : (pre ++ gap) ++ [y] = m ++ [' '] := by
    simpa using (List.append_inj' hword hwlength).1
  exact ⟨gap, (List.append_inj' hgap rfl).1.symm, fun c hc => hgblank c (List.mem_append_left _ hc)⟩

/-- Before a text without white space a beginning of `asText` that ends in white space is its first space or all of
it. -/
theorem eq_of_asText_append_eq {m k rest : List Char} {x : Char} (h : asText ++ m = k ++ rest)
    (hm : ∀ c ∈ m, isBlank c = false) (hlast : k.getLast? = some x) (hx : isBlank x) : k = [' '] ∨ k = asText := by
  have hprefix : ∀ k ∈ asText.inits, ∀ x ∈ k.getLast?, isBlank x → k = [' '] ∨ k = asText := by decide
  rcases List.append_eq_append_iff.mp h with ⟨y, rfl, rfl⟩ | ⟨y, hy, -⟩
  · cases y with
    | nil => exact Or.inr (List.append_nil _)
    | cons c y =>
      rw [List.getLast?_append_of_ne_nil _ (List.cons_ne_nil c y)] at hlast
      rw [hm x (List.mem_append_left _ (List.mem_of_getLast? hlast))] at hx
      cases hx
  · exact hprefix k ((List.mem_inits _ _).mpr ⟨y, hy.symm⟩) x hlast hx

/-- An alias after AS is only found at the AS before the name, with the white space there. -/
theorem asAlias?_item (he : Closed e) (hn : IsWrittenName n) {pre g w g' rest : List Char} {length : Nat}
    (htext : mask e ++ asText ++ mask n = pre ++ (g ++ (w ++ (g' ++ rest))))
    (hg : g ≠ []) (hgblank : ∀ c ∈ g, isBlank c) (hw : w.map fold = ['a', 's'])
    (hg' : g' ≠ []) (hgblank' : ∀ c ∈ g', isBlank c)
    (hread : nameToEnd? (fun c => isNameStart (fold c)) rest = some length) :
    rest = mask n ∧ ∃ gap, mask e = pre ++ gap ∧ ∀ c ∈ gap, isBlank c := by
  have hsolid := hn.exists_solid
  -- the text before the name ends in white space
  obtain ⟨init, x, rfl⟩ := (List.eq_nil_or_concat' _).resolve_left hg'
  have hx : isBlank x := hgblank' x (by simp)
  have hlast : (pre ++ (g ++ w ++ (init ++ [x]))).getLast? = some x := by
    simp [← List.append_assoc]
  have hinside (y tail : List Char) (hy : Closed y) (htail : ∃ c ∈ tail, isBlank c = false)
      (hrest : rest = mask y ++ ' ' :: tail) : False := by
    rw [hrest, nameToEnd?_eq_none (by decide) hy htail] at hread
    cases hread
  have htext : pre ++ (g ++ w ++ (init ++ [x])) ++ rest =
      mask e ++ (asText ++ mask n) := by
    rw [← List.append_assoc (mask e), htext]
    simp
  rcases List.append_eq_append_iff.mp htext with ⟨k, hk, hrest⟩ | ⟨k, hk, hrest⟩
  · -- a name inside the expression
    obtain ⟨y, z, rfl, hy, -, rfl⟩ := exists_of_mask_eq_append hk hlast (isQuote_of_isBlank hx)
      (by rintro rfl; exact absurd hx (by decide))
    exact (hinside z _ ((closed_append_iff hy z).mp he) ⟨'A', List.mem_cons_self, rfl⟩ hrest).elim
  · by_cases hne : k = []
    · subst hne
      exact (hinside [] _ rfl ⟨'A', List.mem_cons_self, rfl⟩ hrest.symm).elim
    rw [hk, List.getLast?_append_of_ne_nil _ hne] at hlast
    rcases eq_of_asText_append_eq hrest hn.solid hlast hx with rfl | rfl
    · exact (hinside ['A', 'S'] _ (by decide) hsolid (List.cons.inj hrest).2.symm).elim
    · exact ⟨(List.append_cancel_left hrest).symm,
        exists_gap_of_asText (by simpa using hk) hg hgblank hw hg' hgblank'⟩

/-- An item is cut at its AS. -/
theorem afterAs?_item (he : Closed e) (hn : IsWrittenName n) :
    ∃ x gap, e = x ++ gap ∧ (∀ c ∈ gap, isBlank c) ∧ afterAs? (mask (e ++ asText ++ n)) = some (x.length, n.length) := by
  obtain ⟨⟨stop, length⟩, hfound⟩ : ∃ r, afterAs? (mask (e ++ asText ++ n)) = some r := by
    rw [← Option.isSome_iff_exists, afterAs?_eq_findSome?, List.findSome?_isSome_iff]
    refine ⟨⟨_, _, asText ++ mask n⟩,
      mem_places.mpr ⟨mask e, _, (mask_item he n).trans (List.append_assoc ..), rfl⟩, ?_⟩
    exact Option.isSome_iff_exists.mpr ⟨_, asAlias?_eq_some_iff.mpr ⟨[' '], ['A', 'S'], [' '], _, rfl,
      by decide, by decide, by decide, fun c hc => hn.solid c (List.mem_of_head? hc), rfl, hn.read⟩⟩
  obtain ⟨p, hp, hmatch⟩ := List.exists_of_findSome?_eq_some hfound
  obtain ⟨pre, post, htext, rfl⟩ := mem_places.mp hp
  obtain ⟨g, w, g', rest, rfl, ⟨hg, hgblank⟩, hw, ⟨hg', hgblank'⟩, -, rfl, hlength⟩ :=
    asAlias?_eq_some_iff.mp hmatch
  rw [mask_item he] at htext
  obtain ⟨rfl, gap, hgap, hblank⟩ := asAlias?_item he hn htext hg hgblank hw hg' hgblank' hlength
  obtain rfl : n.length = length := Option.some.inj (hn.read.symm.trans hlength)
  obtain ⟨x, y, rfl, rfl, hy⟩ := exists_of_maskFrom_eq_append hgap
  obtain rfl : y = gap := eq_of_maskFrom_eq hy fun h => absurd (hblank '_' h) (by decide)
  rw [length_maskFrom] at hfound
  exact ⟨x, y, rfl, hblank, hfound⟩

/-- **An item is split into its expression and its alias.** -/
theorem splitAlias_written (he : Closed e) (hn : IsWrittenName n)
    (hreserved : reservedWords.contains (String.ofList (upper n)) = false) :
    splitAlias (e ++ asText ++ n) = (trim e, some (String.ofList (aliasText n))) := by
  obtain ⟨x, gap, rfl, hgap, hfound⟩ := afterAs?_item he hn
  have hwritten : (x ++ gap ++ asText ++ n).drop ((x ++ gap ++ asText ++ n).length - n.length) = n := by
    rw [List.length_append, Nat.add_sub_cancel, List.drop_left]
  have hexpression : (x ++ gap ++ asText ++ n).take x.length = x := by
    rw [List.append_assoc, List.append_assoc, List.take_left]
  rw [splitAlias, hfound]
  simp only [Option.some_or, hwritten, hexpression, trim_eq_self hn.trimmed, hreserved, trim_append_blank x hgap,
    Bool.false_eq_true, if_false]

theorem trimmed_quote (name : String) : Trimmed (quote name).toList := by
  rw [quote_eq_dotted]
  exact trimmed_dotted name []

/-- A quoted name is none of the words that end an expression. -/
theorem not_reserved_quote (name : String) :
    reservedWords.contains (String.ofList (upper (quote name).toList)) = false := by
  have hhead : ∀ w ∈ reservedWords, w.toList.head? ≠ some '"' := by decide
  rw [← Bool.not_eq_true, List.contains_iff_mem]
  intro hmem
  apply hhead _ hmem
  rw [String.toList_ofList, toList_quote]
  rfl

theorem isWrittenName_quote (hname : name ≠ "") : IsWrittenName (quote name).toList :=
  ⟨closed_quote name, nameToEnd?_quote hname, fun _ hc => not_isBlank_of_mem_mask_quote hc⟩

theorem aliasText_quote (name : String) : aliasText (quote name).toList = name.toList := by
  rw [toList_quote, List.cons_append, aliasText, List.dropLast_concat, undouble_double]

/-- An alias may be written in quotes. -/
theorem splitAlias_item (he : Closed e) (hname : name ≠ "") :
    splitAlias (e ++ asText ++ (quote name).toList) = (trim e, some name) := by
  rw [splitAlias_written he (isWrittenName_quote hname) (not_reserved_quote name), aliasText_quote, String.ofList_toList]

end item

/-! ## Items without an alias -/

section unnamed

variable {start : Char → Bool} {cs m : List Char}

/-- The pattern of an alias behind a parenthesis. -/
def parenthesisAlias? (p : Place) : Option (Nat × Nat) :=
  match p.rest with
  | ')' :: rest => do
    let rest ← afterBlank? rest
    let length ← nameToEnd? isNameStart rest
    some (p.offset + 1, length)
  | _ => none

theorem afterParenthesis?_eq_getLast? (masked : List Char) :
    afterParenthesis? masked = ((places masked).filterMap parenthesisAlias?).getLast? := rfl

theorem of_parenthesisAlias?_eq_some {p : Place} {stop length : Nat} (h : parenthesisAlias? p = some (stop, length)) :
    ∃ g rest, p.rest = ')' :: (g ++ rest) ∧ (g ≠ [] ∧ ∀ c ∈ g, isBlank c) ∧ stop = p.offset + 1 ∧
      nameToEnd? isNameStart rest = some length := by
  rw [parenthesisAlias?] at h
  split at h
  next rest hrest =>
    obtain ⟨after, hafter, h⟩ := Option.bind_eq_some_iff.mp h
    obtain ⟨length, hlength, h⟩ := Option.bind_eq_some_iff.mp h
    obtain ⟨rfl, rfl⟩ := Prod.mk.inj (Option.some.inj h)
    obtain ⟨g, hne, hblank, rfl, -⟩ := afterBlank?_eq_some_iff.mp hafter
    exact ⟨g, after, hrest, ⟨hne, hblank⟩, rfl, hlength⟩
  next => cases h

end unnamed

end MetricLayer.Sql
