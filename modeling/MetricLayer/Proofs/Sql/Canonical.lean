import MetricLayer.Proofs.Sql.Qualifier

/-!
# The form in which expressions are compared

The canonical form of an expression is the text of what is compared of it, with every literal in the canonical form
of its value (`canonical_textOf`): qualifiers, letter case and white space are left out inside literals as well.
That text can be read back, so of two legible expressions with one canonical form the literals agree up to canonical
forms, and the expressions are the same exactly if the literals are (`sameExpression_iff_of_canonical_eq`).
-/

namespace MetricLayer.Sql

open MetricLayer.Text

variable {t : Token} {ts us : List Token} {a : Atom} {as bs : List Atom} {c : Char} {cs body : List Char}

/-! ## Texts of what is compared -/

namespace Atom

/-- A sign as it is, or a literal as it is written. -/
def text : Atom → List Char
  | sign c => [c]
  | literal body => '\'' :: (escape body ++ ['\''])

/-- The atom with its value, if it is a literal, in canonical form. -/
def normal : Atom → Atom
  | sign c => sign c
  | literal body => literal (canonical body)

/-- The value of a literal. -/
def literal? : Atom → Option (List Char)
  | sign _ => none
  | literal body => some body

theorem literal?_normal (a : Atom) : a.normal.literal? = a.literal?.map canonical := by
  cases a <;> rfl

theorem normal_eq_sign (h : a.normal = sign c) : a = sign c := by
  cases a with
  | sign d => exact h
  | literal body => cases h

theorem Apart.normal {b : Atom} (h : a.Apart b) : a.normal.Apart b.normal := by
  cases a with
  | sign c => trivial
  | literal body =>
    cases b with
    | sign d => trivial
    | literal other => exact h

end Atom

/-- The atoms can be read back from their texts: no sign is an apostrophe, and no two literals meet. -/
structure Readable (as : List Atom) : Prop where
  sign : .sign '\'' ∉ as
  apart : as.IsChain Atom.Apart

theorem Readable.tail (h : Readable (a :: as)) : Readable as :=
  ⟨fun hmem => h.sign (List.mem_cons_of_mem a hmem), h.apart.tail⟩

theorem flatMap_text_signs (cs : List Char) : ((cs.map Atom.sign).map Atom.normal).flatMap Atom.text = cs := by
  induction cs with
  | nil => rfl
  | cons c cs ih =>
    rw [List.map_cons, List.map_cons, List.flatMap_cons, ih]
    rfl

/-! ## The canonical form -/

theorem upper_append (x y : List Char) : upper (x ++ y) = upper x ++ upper y :=
  List.flatMap_append

theorem upper_escape (cs : List Char) : upper (escape cs) = escape (upper cs) := by
  have hapostrophe : upperChar '\'' = ['\''] := by decide
  induction cs with
  | nil => rfl
  | cons c cs ih =>
    by_cases hc : c = '\''
    · subst hc
      rw [escape_apostrophe, upper, List.flatMap_cons, List.flatMap_cons, hapostrophe, upper, List.flatMap_cons,
        hapostrophe, List.singleton_append, List.singleton_append, List.singleton_append, escape_apostrophe]
      exact congrArg _ (congrArg _ ih)
    · have hupper : '\'' ∉ upperChar c := fun hmem => hc (eq_of_mem_upperChar hmem)
      rw [escape_cons hc, upper, List.flatMap_cons, upper, List.flatMap_cons, escape_append, escape_eq_self hupper]
      exact congrArg _ ih

theorem dropQuoted_sublist (ts : List Token) : (dropQuoted ts).Sublist ts := by
  fun_induction dropQuoted ts with
  | case1 body ts ih => exact (ih.cons _).cons _
  | case2 t ts _ ih => exact ih.cons_cons t
  | case3 => exact List.Sublist.refl []

theorem dropWords_sublist (ts : List Token) : (dropWords ts).Sublist ts := by
  fun_induction dropWords ts with
  | case1 cs t ts _ ih => exact (ih.cons _).cons _
  | case2 cs t ts _ ih => exact (ih.cons_cons _).cons_cons _
  | case3 t ts _ ih => exact ih.cons_cons t
  | case4 => exact List.Sublist.refl []

theorem Lexed.isLegible_of_mem_kept (h : Lexed ts) (ht : t ∈ kept ts) : t.IsLegible := by
  have hsolid : (kept ts).Sublist (solid ts) := (dropWords_sublist _).trans (dropQuoted_sublist _)
  exact h.tokens t (List.filter_sublist.subset (hsolid.subset ht))

/-- Without double quotes there is no qualifier in quotes. -/
theorem erase_quotedQualifier?_eq_self (h : '"' ∉ cs) : erase quotedQualifier? cs = cs := by
  have hlocal := isLocal_quotedQualifier?
  have hkeep : eraseAfter quotedQualifier? none (cs ++ []) =
      cs ++ eraseAfter quotedQualifier? (lastOr none cs) [] := by
    refine hlocal.eraseAfter_append fun u d v heq => quotedQualifier?_eq_none ?_ 0
    rintro rfl
    exact h (heq ▸ List.mem_append_right u List.mem_cons_self)
  rw [hlocal.eraseAfter_nil, List.append_nil] at hkeep
  exact hkeep

theorem filter_quote_eq_self (h : '"' ∉ cs) : cs.filter (· != '"') = cs :=
  List.filter_eq_self.mpr fun _ hc => bne_iff_ne.mpr fun heq => h (heq ▸ hc)

/-- What is compared of a token, as it stands in the canonical form. -/
theorem Token.IsLegible.upper_filter_bare (h : t.IsLegible) :
    upper (t.bare.filter (· != '"')) = (t.atoms.map Atom.normal).flatMap Atom.text := by
  cases t with
  | literal body =>
    have hcanonical : canonical body =
        upper (((erase wordQualifier? body).filter fun c => !Text.isBlank c).filter (· != '"')) := by
      rw [canonical, erase_quotedQualifier?_eq_self h, List.filter_filter, List.filter_filter]
      simp only [Bool.and_comm]
    have hapostrophe : upper ['\''] = ['\''] := by decide
    rw [Token.bare, List.filter_cons_of_pos (by decide), List.filter_append, filter_escape (by decide),
      List.filter_cons_of_pos (by decide), List.filter_nil, ← List.singleton_append, upper_append, upper_append,
      upper_escape, ← hcanonical, hapostrophe]
    simp [Token.atoms, Atom.normal, Atom.text]
  | name body =>
    have hquote : '"' ∉ body.filter fun c => !Text.isBlank c :=
      fun hmem => (h.2 _ (List.mem_of_mem_filter hmem)).1 rfl
    rw [Token.bare, List.filter_cons_of_neg (by decide), List.filter_append, filter_quote_eq_self hquote,
      List.filter_cons_of_neg (by decide), List.filter_nil, List.append_nil, Token.atoms, flatMap_text_signs]
  | word cs =>
    have hquote : '"' ∉ cs := h.not_mem_text fun _ => Token.noConfusion
    rw [Token.bare, filter_quote_eq_self hquote, Token.atoms, flatMap_text_signs]
  | point => decide
  | blank c => rfl
  | sign c =>
    have hquote : '"' ∉ [c] := h.not_mem_text fun _ => Token.noConfusion
    rw [Token.bare, filter_quote_eq_self hquote, Token.atoms, flatMap_text_signs, upper, List.flatMap_singleton]

/-- The canonical form has the signs of an expression as they are compared, and the canonical forms of its
literals. -/
theorem canonical_textOf (h : Lexed ts) :
    canonical (textOf ts) = ((comparable ts).map Atom.normal).flatMap Atom.text := by
  obtain ⟨us, hus⟩ := exists_erasesQuoted h none
  have hbare : (erase wordQualifier? (textOf us)).filter (fun c => !isBlank c) = (kept ts).flatMap Token.bare := by
    rw [kept, ← hus.solid_eq]
    exact filter_eraseAfter_wordQualifier? hus.lexed fun _ _ => rfl
  have hcanonical : canonical (textOf ts) = upper (((kept ts).flatMap Token.bare).filter (· != '"')) := by
    rw [canonical, erase_eq_eraseAfter quotedQualifier?, hus.text_eq, ← hbare, List.filter_filter, List.filter_filter]
    simp only [Bool.and_comm]
  rw [hcanonical, List.filter_flatMap, upper, List.flatMap_assoc, comparable, List.map_flatMap, List.flatMap_assoc]
  exact List.flatMap_congr fun t ht => (h.isLegible_of_mem_kept ht).upper_filter_bare

/-- The same expressions have one canonical form. -/
theorem canonical_eq_of_sameExpression (hts : Lexed ts) (hus : Lexed us) (h : SameExpression ts us) :
    canonical (textOf ts) = canonical (textOf us) := by
  rw [canonical_textOf hts, canonical_textOf hus, h]

/-! ## Reading the canonical form back -/

theorem doubled_escape (cs : List Char) : Safety.Doubled '\'' (escape cs) := by
  induction cs with
  | nil => exact .nil
  | cons c cs ih =>
    by_cases hc : c = '\''
    · subst hc
      rw [escape_apostrophe]
      exact ih.pair
    · rw [escape_cons hc]
      exact ih.char hc

theorem Readable.head?_ne (h : Readable (.literal body :: as)) : (as.flatMap Atom.text).head? ≠ some '\'' := by
  cases as with
  | nil => nofun
  | cons a as =>
    cases a with
    | literal other => exact absurd h.apart.rel nofun
    | sign c =>
      rw [List.flatMap_cons]
      intro hhead
      obtain rfl : c = '\'' := Option.some.inj hhead
      exact h.sign (List.mem_cons_of_mem _ List.mem_cons_self)

/-- What is compared is read back from its text. -/
theorem Readable.eq_of_flatMap_text_eq (has : Readable as) (hbs : Readable bs)
    (h : as.flatMap Atom.text = bs.flatMap Atom.text) : as = bs := by
  induction as generalizing bs with
  | nil =>
    cases bs with
    | nil => rfl
    | cons b bs => cases b <;> cases h
  | cons a as ih =>
    cases bs with
    | nil => cases a <;> cases h
    | cons b bs =>
      rw [List.flatMap_cons, List.flatMap_cons] at h
      cases a with
      | sign c =>
        cases b with
        | sign d =>
          obtain ⟨rfl, hrest⟩ := List.cons.inj h
          rw [ih has.tail hbs.tail hrest]
        | literal body =>
          obtain rfl : c = '\'' := (List.cons.inj h).1
          exact absurd List.mem_cons_self has.sign
      | literal body =>
        cases b with
        | sign d =>
          obtain rfl : '\'' = d := (List.cons.inj h).1
          exact absurd List.mem_cons_self hbs.sign
        | literal other =>
          rw [Atom.text, Atom.text, List.cons_append, List.cons_append, List.append_assoc, List.append_assoc] at h
          obtain ⟨hbody, hrest⟩ := Safety.doubled_append_inj (doubled_escape body) (doubled_escape other)
            has.head?_ne hbs.head?_ne (List.cons.inj h).2
          rw [escape_injective hbody, ih has.tail hbs.tail hrest]

theorem Token.IsLegible.sign_not_mem_atoms (h : t.IsLegible) : .sign '\'' ∉ t.atoms := by
  have hupper {cs : List Char} (hcs : '\'' ∉ cs) : .sign '\'' ∉ (upper cs).map Atom.sign := by
    intro hmem
    obtain ⟨c, hc, heq⟩ := List.mem_map.mp hmem
    cases heq
    obtain ⟨d, hd, hquote⟩ := List.mem_flatMap.mp hc
    exact hcs (eq_of_mem_upperChar hquote ▸ hd)
  cases t with
  | literal body => exact fun hmem => absurd (List.mem_singleton.mp hmem) nofun
  | name body => exact hupper fun hmem => (h.2 _ (List.mem_of_mem_filter hmem)).2.1 rfl
  | word cs => exact hupper fun hmem => absurd (h.2 _ hmem) (by decide)
  | point => decide
  | blank c => exact List.not_mem_nil
  | sign c =>
    have hc : '\'' ∉ [c] := by
      intro hmem
      rw [← List.mem_singleton.mp hmem] at h
      cases h.2.1
    have hatoms := hupper hc
    rwa [upper, List.flatMap_singleton] at hatoms

theorem Legible.readable (h : Legible ts) : Readable ((comparable ts).map Atom.normal) where
  sign hmem := by
    obtain ⟨a, ha, hsign⟩ := List.mem_map.mp hmem
    obtain rfl := Atom.normal_eq_sign hsign
    obtain ⟨t, ht, hatom⟩ := List.mem_flatMap.mp ha
    exact (h.isLegible_of_mem_kept ht).sign_not_mem_atoms hatom
  apart := List.isChain_map_of_isChain Atom.normal (fun _ _ hab => hab.normal) h.literals

/-- Expressions with one canonical form agree but for what the canonical form leaves out of their literals. -/
theorem map_normal_comparable_eq (hts : Legible ts) (hus : Legible us)
    (h : canonical (textOf ts) = canonical (textOf us)) :
    (comparable ts).map Atom.normal = (comparable us).map Atom.normal := by
  rw [canonical_textOf hts.toLexed, canonical_textOf hus.toLexed] at h
  exact hts.readable.eq_of_flatMap_text_eq hus.readable h

/-! ## Literals -/

theorem literals_cons (t : Token) (ts : List Token) : literals (t :: ts) = t.literal?.toList ++ literals ts := by
  cases t <;> rfl

theorem literals_solid (ts : List Token) : literals (solid ts) = literals ts := by
  induction ts with
  | nil => rfl
  | cons t ts ih =>
    rw [literals_cons, ← ih]
    cases t <;> rfl

theorem literals_dropQuoted (ts : List Token) : literals (dropQuoted ts) = literals ts := by
  fun_induction dropQuoted ts with
  | case1 body ts ih => exact ih
  | case2 t ts _ ih => rw [literals_cons, literals_cons, ih]
  | case3 => rfl

theorem literals_dropWords (ts : List Token) : literals (dropWords ts) = literals ts := by
  fun_induction dropWords ts with
  | case1 cs t ts _ ih => exact ih
  | case2 cs t ts _ ih => exact ih
  | case3 t ts _ ih => rw [literals_cons, literals_cons, ih]
  | case4 => rfl

theorem Token.filterMap_literal?_atoms (t : Token) : t.atoms.filterMap Atom.literal? = t.literal?.toList := by
  have hsigns (cs : List Char) : (cs.map Atom.sign).filterMap Atom.literal? = [] := by
    rw [List.filterMap_map]
    exact List.filterMap_eq_nil_iff.mpr fun _ _ => rfl
  cases t with
  | literal body => rfl
  | name | word | sign => exact hsigns _
  | point | blank => rfl

/-- All literals of an expression are compared. -/
theorem filterMap_literal?_comparable (ts : List Token) : (comparable ts).filterMap Atom.literal? = literals ts := by
  have hkept : literals (kept ts) = literals ts := by
    rw [kept, literals_dropWords, literals_dropQuoted, literals_solid]
  rw [comparable, List.filterMap_flatMap, ← hkept, literals, List.filterMap_eq_flatMap_toList]
  simp only [Token.filterMap_literal?_atoms]

/-- Two rows that agree up to canonical forms are the same if their literals are. -/
theorem eq_of_map_normal_eq (h : as.map Atom.normal = bs.map Atom.normal)
    (hliterals : as.filterMap Atom.literal? = bs.filterMap Atom.literal?) : as = bs := by
  induction as generalizing bs with
  | nil => exact (List.map_eq_nil_iff.mp h.symm).symm
  | cons a as ih =>
    cases bs with
    | nil => cases h
    | cons b bs =>
      obtain ⟨hfirst, hrest⟩ := List.cons.inj h
      cases a with
      | sign c =>
        obtain rfl := Atom.normal_eq_sign hfirst.symm
        rw [ih hrest hliterals]
      | literal body =>
        cases b with
        | sign d => cases hfirst
        | literal other =>
          obtain ⟨rfl, hothers⟩ := List.cons.inj hliterals
          rw [ih hrest hothers]

/-- Of two expressions with one canonical form, the literals agree up to canonical forms. -/
theorem map_canonical_literals_eq (hts : Legible ts) (hus : Legible us)
    (h : canonical (textOf ts) = canonical (textOf us)) :
    (literals ts).map canonical = (literals us).map canonical := by
  have hmap (as : List Atom) :
      (as.filterMap Atom.literal?).map canonical = (as.map Atom.normal).filterMap Atom.literal? := by
    rw [List.map_filterMap, List.filterMap_map]
    simp only [Function.comp_def, Atom.literal?_normal]
  rw [← filterMap_literal?_comparable ts, ← filterMap_literal?_comparable us, hmap, hmap,
    map_normal_comparable_eq hts hus h]

/-- Expressions with one canonical form are the same exactly if their literals are. -/
theorem sameExpression_iff_of_canonical_eq (hts : Legible ts) (hus : Legible us)
    (h : canonical (textOf ts) = canonical (textOf us)) : SameExpression ts us ↔ literals ts = literals us := by
  rw [SameExpression, ← filterMap_literal?_comparable ts, ← filterMap_literal?_comparable us]
  exact ⟨fun heq => congrArg _ heq, eq_of_map_normal_eq (map_normal_comparable_eq hts hus h)⟩

end MetricLayer.Sql
