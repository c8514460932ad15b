import Mathlib.Data.List.Chain
import MetricLayer.Proofs.Sql.Erase
import MetricLayer.Proofs.Text.Case

/-!
# Expressions as tokens

An expression is a row of tokens, and its text has them one behind the other (`textOf`).  Two expressions are the
same up to letter case and white space outside literals, quotes of names and qualifiers if they are `comparable` to
the same row of signs and literals.

A row of tokens is `Legible` if its text tells them apart: words and names do not run into each other, nor do
literals, and quotes stand in their places only.
-/

namespace MetricLayer.Sql

open MetricLayer.Text

/-! ## Tokens -/

/-- A part of an expression; a literal holds its value and a name what stands between its quotes. -/
inductive Token where
  | literal (body : List Char)
  | name (body : List Char)
  | word (cs : List Char)
  | point
  | blank (c : Char)
  | sign (c : Char)
deriving DecidableEq

/-- Writes every apostrophe twice. -/
def escape (cs : List Char) : List Char :=
  cs.flatMap fun c => if c = '\'' then ['\'', '\''] else [c]

namespace Token

/-- The token as it is written. -/
def text : Token → List Char
  | literal body => '\'' :: (escape body ++ ['\''])
  | name body => '"' :: (body ++ ['"'])
  | word cs => cs
  | point => ['.']
  | blank c => [c]
  | sign c => [c]

/-- The token is white space. -/
def isBlank : Token → Bool
  | blank _ => true
  | _ => false

/-- The token is a name in quotes, or a word that can be a name. -/
def startsName : Token → Bool
  | name _ => true
  | word cs => cs.head?.any isNameStart
  | _ => false

/-- The value of a literal. -/
def literal? : Token → Option (List Char)
  | literal body => some body
  | _ => none

/-- The token can be read back: a literal holds no double quote, a name neither quotes nor points, a word is made
of word characters, and a sign is none of these characters. -/
def IsLegible : Token → Prop
  | literal body => '"' ∉ body
  | name body => body ≠ [] ∧ ∀ c ∈ body, c ≠ '"' ∧ c ≠ '\'' ∧ c ≠ '.'
  | word cs => cs ≠ [] ∧ ∀ c ∈ cs, isWord c
  | point => True
  | blank c => Text.isBlank c
  | sign c => isNameRest c = false ∧ isQuote c = false ∧ Text.isBlank c = false ∧ c ≠ '.'

instance : DecidablePred IsLegible
  | literal body => inferInstanceAs (Decidable ('"' ∉ body))
  | name body => inferInstanceAs (Decidable (body ≠ [] ∧ ∀ c ∈ body, c ≠ '"' ∧ c ≠ '\'' ∧ c ≠ '.'))
  | word cs => inferInstanceAs (Decidable (cs ≠ [] ∧ ∀ c ∈ cs, isWord c))
  | point => inferInstanceAs (Decidable True)
  | blank c => inferInstanceAs (Decidable (Text.isBlank c))
  | sign c =>
    inferInstanceAs (Decidable (isNameRest c = false ∧ isQuote c = false ∧ Text.isBlank c = false ∧ c ≠ '.'))

/-- The token ends before the next one: no word or name runs into another. -/
def Apart : Token → Token → Prop
  | word _, word _ => False
  | word _, name _ => False
  | name _, name _ => False
  | _, _ => True

instance : DecidableRel Apart := fun t u =>
  match t, u with
  | word _, word _ | word _, name _ | name _, name _ => inferInstanceAs (Decidable False)
  | literal _, _ | point, _ | blank _, _ | sign _, _ => inferInstanceAs (Decidable True)
  | word _, literal _ | word _, point | word _, blank _ | word _, sign _ => inferInstanceAs (Decidable True)
  | name _, literal _ | name _, word _ | name _, point | name _, blank _ | name _, sign _ =>
    inferInstanceAs (Decidable True)

end Token

/-- The text of an expression. -/
def textOf (ts : List Token) : List Char :=
  ts.flatMap Token.text

/-- The values of the literals in an expression. -/
def literals (ts : List Token) : List (List Char) :=
  ts.filterMap Token.literal?

/-! ## Comparable expressions -/

/-- The tokens without white space. -/
def solid (ts : List Token) : List Token :=
  ts.filter fun t => !t.isBlank

/-- The tokens without names in quotes that qualify: each one stands before a point. -/
def dropQuoted : List Token → List Token
  | .name _ :: .point :: ts => dropQuoted ts
  | t :: ts => t :: dropQuoted ts
  | [] => []

/-- The tokens without words that qualify: each one stands before a point and a name. -/
def dropWords : List Token → List Token
  | .word cs :: .point :: t :: ts =>
    if (Token.word cs).startsName && t.startsName then dropWords (t :: ts)
    else .word cs :: .point :: dropWords (t :: ts)
  | t :: ts => t :: dropWords ts
  | [] => []

/-- A literal, or a character outside literals. -/
inductive Atom where
  | sign (c : Char)
  | literal (body : List Char)
deriving DecidableEq

/-- What is compared of a token: literals as they are, and other tokens in upper case without quotes and white
space. -/
def Token.atoms : Token → List Atom
  | literal body => [.literal body]
  | name body => (upper (body.filter fun c => !Text.isBlank c)).map .sign
  | word cs => (upper cs).map .sign
  | point => [.sign '.']
  | blank _ => []
  | sign c => (upperChar c).map .sign

/-- The tokens without white space and qualifiers. -/
def kept (ts : List Token) : List Token :=
  dropWords (dropQuoted (solid ts))

/-- What is compared of an expression: its signs and literals without qualifiers. -/
def comparable (ts : List Token) : List Atom :=
  (kept ts).flatMap Token.atoms

/-- The expressions are the same up to letter case and white space outside literals, quotes of names and
qualifiers. -/
def SameExpression (ts us : List Token) : Prop :=
  comparable ts = comparable us

/-! ## Legible expressions -/

/-- Two literals do not meet. -/
def Atom.Apart : Atom → Atom → Prop
  | literal _, literal _ => False
  | _, _ => True

instance : DecidableRel Atom.Apart := fun a b =>
  match a, b with
  | .literal _, .literal _ => inferInstanceAs (Decidable False)
  | .sign _, _ | .literal _, .sign _ => inferInstanceAs (Decidable True)

/-- The text of the tokens can be read back one by one. -/
structure Lexed (ts : List Token) : Prop where
  tokens : ∀ t ∈ ts, t.IsLegible
  apart : ts.IsChain Token.Apart

/-- The text tells the tokens apart, also where only qualifiers and white space are between them. -/
structure Legible (ts : List Token) : Prop extends Lexed ts where
  literals : (comparable ts).IsChain Atom.Apart

instance (ts : List Token) : Decidable (Legible ts) :=
  decidable_of_iff ((∀ t ∈ ts, t.IsLegible) ∧ ts.IsChain Token.Apart ∧ (comparable ts).IsChain Atom.Apart)
    ⟨fun h => ⟨⟨h.1, h.2.1⟩, h.2.2⟩, fun h => ⟨h.tokens, h.apart, h.literals⟩⟩

variable {t u : Token} {ts us : List Token} {c : Char} {cs body : List Char}

theorem textOf_cons (t : Token) (ts : List Token) : textOf (t :: ts) = t.text ++ textOf ts :=
  List.flatMap_cons

theorem solid_cons_of_isBlank (h : t.isBlank) : solid (t :: ts) = solid ts :=
  List.filter_cons_of_neg (by simp [h])

theorem solid_dropWhile (ts : List Token) : solid (ts.dropWhile Token.isBlank) = solid ts := by
  induction ts with
  | nil => rfl
  | cons t ts ih =>
    cases h : t.isBlank with
    | true => rw [List.dropWhile_cons_of_pos h, ih, solid_cons_of_isBlank h]
    | false => rw [List.dropWhile_cons_of_neg (by simp [h])]

theorem solid_cons (h : t.isBlank = false) : solid (t :: ts) = t :: solid ts :=
  List.filter_cons_of_pos (by simp [h])

namespace Lexed

theorem head (h : Lexed (t :: ts)) : t.IsLegible :=
  h.tokens t List.mem_cons_self

theorem suffix (h : Lexed ts) (hsuffix : us <:+ ts) : Lexed us :=
  ⟨fun t ht => h.tokens t (hsuffix.subset ht), h.apart.suffix hsuffix⟩

theorem tail (h : Lexed (t :: ts)) : Lexed ts :=
  h.suffix (List.suffix_cons t ts)

end Lexed

/-! ## Escaped texts -/

theorem mem_escape_iff : c ∈ escape cs ↔ c ∈ cs := by
  rw [escape, List.mem_flatMap]
  constructor
  · rintro ⟨d, hd, hc⟩
    split at hc
    next heq =>
      subst heq
      rcases List.mem_cons.mp hc with rfl | hc
      · exact hd
      · rwa [List.mem_singleton.mp hc]
    next => rwa [List.mem_singleton.mp hc]
  · intro hc
    refine ⟨c, hc, ?_⟩
    split
    next heq => exact heq ▸ List.mem_cons_self
    next => exact List.mem_cons_self

theorem escape_append (x y : List Char) : escape (x ++ y) = escape x ++ escape y :=
  List.flatMap_append

theorem escape_cons (hc : c ≠ '\'') (cs : List Char) : escape (c :: cs) = c :: escape cs := by
  rw [escape, List.flatMap_cons, if_neg hc]
  rfl

theorem escape_apostrophe (cs : List Char) : escape ('\'' :: cs) = '\'' :: '\'' :: escape cs := by
  rw [escape, List.flatMap_cons, if_pos rfl]
  rfl

theorem escape_eq_self (h : '\'' ∉ cs) : escape cs = cs := by
  induction cs with
  | nil => rfl
  | cons c cs ih =>
    rw [List.mem_cons, not_or] at h
    rw [escape_cons (Ne.symm h.1), ih h.2]

theorem filter_escape {p : Char → Bool} (hp : p '\'' = true) (cs : List Char) :
    (escape cs).filter p = escape (cs.filter p) := by
  induction cs with
  | nil => rfl
  | cons c cs ih =>
    by_cases hc : c = '\''
    · subst hc
      rw [escape_apostrophe, List.filter_cons_of_pos hp, List.filter_cons_of_pos hp, List.filter_cons_of_pos hp,
        escape_apostrophe, ih]
    · rw [escape_cons hc]
      cases hpc : p c with
      | true => rw [List.filter_cons_of_pos hpc, List.filter_cons_of_pos hpc, escape_cons hc, ih]
      | false => rw [List.filter_cons_of_neg (by simp [hpc]), List.filter_cons_of_neg (by simp [hpc]), ih]

theorem escape_injective : Function.Injective escape := by
  intro x y h
  induction x generalizing y with
  | nil =>
    cases y with
    | nil => rfl
    | cons d y => exact absurd (h ▸ mem_escape_iff.mpr List.mem_cons_self) List.not_mem_nil
  | cons c x ih =>
    cases y with
    | nil => exact absurd (h ▸ mem_escape_iff.mpr List.mem_cons_self) List.not_mem_nil
    | cons d y =>
      by_cases hc : c = '\'' <;> by_cases hd : d = '\''
      · subst hc hd
        rw [escape_apostrophe, escape_apostrophe] at h
        rw [ih (List.cons.inj (List.cons.inj h).2).2]
      · subst hc
        rw [escape_apostrophe, escape_cons hd] at h
        exact absurd (List.cons.inj h).1.symm hd
      · subst hd
        rw [escape_apostrophe, escape_cons hc] at h
        exact absurd (List.cons.inj h).1 hc
      · rw [escape_cons hc, escape_cons hd] at h
        obtain ⟨rfl, hrest⟩ := List.cons.inj h
        rw [ih hrest]

/-! ## The first character -/

theorem isBlank_of_isWord (h : isWord c) : isBlank c = false := by
  rw [← Bool.not_eq_true]
  intro hblank
  rw [isWord_of_isBlank hblank] at h
  cases h

/-- A token that is no white space starts with a character that is none; only a point starts with a point. -/
theorem Token.IsLegible.exists_text_eq (h : t.IsLegible) (hblank : t.isBlank = false) :
    ∃ c cs, t.text = c :: cs ∧ Text.isBlank c = false ∧ (c = '.' → t = point) := by
  cases t with
  | literal body => exact ⟨_, _, rfl, by decide, nofun⟩
  | name body => exact ⟨_, _, rfl, by decide, nofun⟩
  | word cs =>
    obtain ⟨c, cs, rfl⟩ := List.exists_cons_of_ne_nil h.1
    have hc : isWord c := h.2 c List.mem_cons_self
    refine ⟨c, cs, rfl, isBlank_of_isWord hc, ?_⟩
    rintro rfl
    exact absurd hc (by decide)
  | point => exact ⟨_, _, rfl, by decide, fun _ => rfl⟩
  | blank c => cases hblank
  | sign c => exact ⟨c, [], rfl, h.2.2.1, fun hc => absurd hc h.2.2.2⟩

theorem dropWhile_textOf (h : ∀ t ∈ ts, t.IsLegible) :
    (textOf ts).dropWhile isBlank = textOf (ts.dropWhile Token.isBlank) := by
  induction ts with
  | nil => rfl
  | cons t ts ih =>
    obtain ⟨ht, hts⟩ := List.forall_mem_cons.mp h
    cases hblank : t.isBlank with
    | true =>
      cases t with
      | blank c => rw [textOf_cons, Token.text, List.singleton_append, List.dropWhile_cons_of_pos ht, ih hts]; rfl
      | _ => cases hblank
    | false =>
      obtain ⟨c, cs, htext, hc, -⟩ := ht.exists_text_eq hblank
      rw [textOf_cons, htext, List.cons_append, List.dropWhile_cons_of_neg (by simp [hc]),
        List.dropWhile_cons_of_neg (by simp [hblank]), textOf_cons, htext, List.cons_append]

/-- A point in the text of an expression is a token. -/
theorem afterPoint?_textOf (h : ∀ t ∈ ts, t.IsLegible) :
    afterPoint? (textOf ts) = none ∧ (solid ts).head? ≠ some .point ∨
      ∃ us, us <:+ ts ∧ us.length < ts.length ∧ afterPoint? (textOf ts) = some (textOf us) ∧
        solid ts = .point :: solid us ∧ ∀ u ∈ us.head?, u.isBlank = false := by
  induction ts with
  | nil => exact Or.inl ⟨rfl, nofun⟩
  | cons t ts ih =>
    obtain ⟨ht, hts⟩ := List.forall_mem_cons.mp h
    cases hblank : t.isBlank with
    | true =>
      cases t with
      | blank c =>
        rw [textOf_cons, Token.text, List.singleton_append, afterPoint?_blank ht, solid_cons_of_isBlank hblank]
        refine (ih hts).imp_right ?_
        rintro ⟨us, hsuffix, hlength, hrest⟩
        exact ⟨us, hsuffix.trans (List.suffix_cons _ ts), Nat.lt_succ_of_lt hlength, hrest⟩
      | _ => cases hblank
    | false =>
      rw [solid_cons hblank]
      obtain ⟨c, cs, htext, hc, hpoint⟩ := ht.exists_text_eq hblank
      by_cases hdot : c = '.'
      · obtain rfl := hpoint hdot
        refine Or.inr ⟨ts.dropWhile Token.isBlank, ?_, ?_, ?_, ?_, ?_⟩
        · exact (List.dropWhile_suffix _).trans (List.suffix_cons _ ts)
        · exact Nat.lt_succ_of_le (List.dropWhile_suffix _).length_le
        · rw [← dropWhile_textOf hts]
          rfl
        · rw [solid_dropWhile]
        · intro u hu
          have hhead := List.head?_dropWhile_not Token.isBlank ts
          rw [Option.mem_def.mp hu] at hhead
          exact hhead
      · rw [textOf_cons, htext, List.cons_append, afterPoint?_cons_eq_none hc hdot]
        refine Or.inl ⟨rfl, fun hhead => hdot ?_⟩
        obtain rfl := Option.some.inj hhead
        cases htext
        rfl

end MetricLayer.Sql
