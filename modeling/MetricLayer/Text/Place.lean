import MetricLayer.Text.Word

/-!
# Places of a text

A place lies between two characters: it knows its offset, the character before it and the text from
it on.  A pattern is a test of places; searching it is `find?` over `places`, and `scan` takes the
matches that do not overlap, from left to right.

Keywords are written in lower case in the patterns and read in any letter case, where the long s,
the Kelvin sign and the dotted and dotless i count as the letters they look like.
-/

namespace MetricLayer.Text

/-- A place between two characters of a text. -/
structure Place where
  offset : Nat
  before : Option Char
  rest : List Char
deriving Repr, DecidableEq

/-- The places of a text from a given one on, the end included. -/
def placesFrom : Nat → Option Char → List Char → List Place
  | n, b, [] => [⟨n, b, []⟩]
  | n, b, c :: cs => ⟨n, b, c :: cs⟩ :: placesFrom (n + 1) (some c) cs

/-- The places of a text, from its start to its end. -/
def places (cs : List Char) : List Place :=
  placesFrom 0 none cs

theorem length_placesFrom (n : Nat) (b : Option Char) (cs : List Char) :
    (placesFrom n b cs).length = cs.length + 1 := by
  induction cs generalizing n b with
  | nil => rfl
  | cons c cs ih => simp [placesFrom, ih]

/-- No word runs on from the character before. -/
def Place.startsWord (p : Place) : Bool :=
  !p.before.any isWord

/-- No word runs on into the text. -/
def endsWord (cs : List Char) : Bool :=
  !cs.head?.any isWord

/-- The letter of a keyword that a character is read as. -/
def fold (c : Char) : Char :=
  if c.toNat = 0x17f then 's'
  else if c.toNat = 0x212a then 'k'
  else if c.toNat = 0x130 ∨ c.toNat = 0x131 then 'i'
  else c.toLower

/-- Reads a keyword, given in lower case, in any letter case and returns what follows. -/
def letters? : List Char → List Char → Option (List Char)
  | [], cs => some cs
  | _ :: _, [] => none
  | k :: ks, c :: cs => if fold c = k then letters? ks cs else none

/-- Reads a keyword as a whole word at a place and returns what follows. -/
def Place.keyword? (word : String) (p : Place) : Option (List Char) :=
  if p.startsWord then (letters? word.toList p.rest).filter endsWord else none

/-- Some place starts with the letters of a keyword, in any letter case. -/
def hasLetters (word : String) (cs : List Char) : Bool :=
  (places cs).any fun p => (letters? word.toList p.rest).isSome

/-- The end of a text, or a line break there. -/
def isLineEnd (cs : List Char) : Bool :=
  cs == [] || cs == ['\n']

/-- The text starts with letters, in any letter case. -/
def startsInLetters (word : String) (cs : List Char) : Bool :=
  (letters? word.toList cs).isSome

/-- The text, or the text before a line break at its end, ends in letters, in any letter case. -/
def endsInLetters (word : String) (cs : List Char) : Bool :=
  (places cs).any fun p => (letters? word.toList p.rest).any isLineEnd

/-- The text, or the text before a line break at its end, is letters, in any letter case. -/
def isLetters (word : String) (cs : List Char) : Bool :=
  (letters? word.toList cs).any isLineEnd

/-- A keyword occurs as a whole word, in any letter case. -/
def hasKeyword (word : String) (cs : List Char) : Bool :=
  (places cs).any fun p => (p.keyword? word).isSome

/-- The matches of a pattern that do not overlap, each with its place; a pattern answers with a
value and the text after the match. -/
def scanFrom {α : Type} (pattern : Place → Option (α × List Char)) :
    Nat → List Place → List (Place × α)
  | _, [] => []
  | next, p :: ps =>
    if p.offset < next then scanFrom pattern next ps
    else match pattern p with
      | none => scanFrom pattern next ps
      | some (a, after) => (p, a) :: scanFrom pattern (p.offset + (p.rest.length - after.length)) ps

/-- The matches of a pattern that do not overlap, from left to right. -/
def scan {α : Type} (pattern : Place → Option (α × List Char)) (cs : List Char) :
    List (Place × α) :=
  scanFrom pattern 0 (places cs)

/-- A text occurs in another. -/
def occurs (needle hay : List Char) : Bool :=
  (places hay).any fun p => needle.isPrefixOf p.rest

/-- The text after the last occurrence of another. -/
def afterLast? (needle hay : List Char) : Option (List Char) :=
  ((places hay).filterMap fun p => needle.isPrefixOf? p.rest).getLast?

end MetricLayer.Text
