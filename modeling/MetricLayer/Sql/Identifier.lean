import MetricLayer.Text.Digit
import MetricLayer.Text.Pieces
import MetricLayer.Text.Place

/-!
# Names and literals in SQL

A name is a word or a text between double quotes, in which a double quote is written twice; names
joined by points are a qualified name.  `quote` writes a name, `identifier?` reads the last part of
a qualified one.
-/

namespace MetricLayer.Sql

open MetricLayer.Text

/-- Writes every double quote twice. -/
def double : List Char → List Char
  | [] => []
  | c :: cs => if c = '"' then '"' :: '"' :: double cs else c :: double cs

/-- Reads every pair of double quotes as one. -/
def undouble : List Char → List Char
  | '"' :: '"' :: cs => '"' :: undouble cs
  | c :: cs => c :: undouble cs
  | [] => []

/-- The name in double quotes. -/
def quote (name : String) : String :=
  String.ofList ('"' :: double name.toList ++ ['"'])

/-- The parts of a table name between its points. -/
def tableParts (table : String) : List String :=
  (splitOn '.' table.toList).map String.ofList

/-- The table name with every part in double quotes. -/
def quoteTable (table : String) : String :=
  joinWith "." ((tableParts table).map quote)

/-- A column qualified by its table. -/
def columnRef (table column : String) : String :=
  quoteTable table ++ "." ++ quote column

/-- Reads a text after its opening quote: what stands between the quotes, and what follows.  Two
quotes in a row belong to the text, unless the text would then never be closed. -/
def quotedBody? (q : Char) : List Char → Option (List Char × List Char)
  | [] => none
  | [c] => if c = q then some ([], []) else none
  | c :: d :: cs =>
    if c = q then
      if d = q then
        match quotedBody? q cs with
        | some (body, rest) => some (c :: d :: body, rest)
        | none => some ([], d :: cs)
      else some ([], d :: cs)
    else (quotedBody? q (d :: cs)).map fun (body, rest) => (c :: body, rest)

/-- A name as it is written. -/
inductive Name where
  | word (cs : List Char)
  | quoted (body : List Char)
deriving Repr, DecidableEq

/-- The name that is written. -/
def Name.text : Name → String
  | .word cs => String.ofList cs
  | .quoted body => String.ofList (undouble body)

/-- A character of a word after its first. -/
def isNameRest (c : Char) : Bool :=
  isWord c || c == '$'

/-- Reads a name whose first character is of a given class, or a quoted name that is not empty. -/
def readName? (start : Char → Bool) : List Char → Option (Name × List Char)
  | [] => none
  | c :: cs =>
    if c = '"' then
      match quotedBody? '"' cs with
      | some ([], _) => none
      | some (body, rest) => some (.quoted body, rest)
      | none => none
    else if start c then some (.word (c :: cs.takeWhile isNameRest), cs.dropWhile isNameRest)
    else none

/-- The text after a point and the white space around it. -/
def afterPoint? (cs : List Char) : Option (List Char) :=
  match cs.dropWhile isBlank with
  | '.' :: rest => some (rest.dropWhile isBlank)
  | _ => none

/-- Reads names joined by points, at most as many as given. -/
def readNames? : Nat → List Char → Option (List Name × List Char)
  | 0, _ => none
  | n + 1, cs => do
    let (name, rest) ← readName? isNameStart cs
    match (afterPoint? rest).bind (readNames? n) with
    | some (names, rest) => some (name :: names, rest)
    | none => some ([name], rest)

/-- Reads a qualified name. -/
def readQualified? (cs : List Char) : Option (List Name × List Char) :=
  readNames? (cs.length + 1) cs

/-- An unsigned number: digits, and a point with digits perhaps. -/
def isNumber (cs : List Char) : Bool :=
  !(cs.takeWhile isDigit).isEmpty &&
    match cs.dropWhile isDigit with
    | [] => true
    | '.' :: places => !places.isEmpty && places.all isDigit
    | _ => false

/-- A number, a text in single quotes or one of the constants. -/
def isLiteral (cs : List Char) : Bool :=
  match cs with
  | '\'' :: body => (quotedBody? '\'' body).any fun r => r.2.isEmpty
  | '-' :: digits => isNumber digits
  | _ => isNumber cs || ["true", "false", "null"].any fun w => letters? w.toList cs == some []

/-- The last part of a qualified name; literals and expressions have none. -/
def identifier? (cs : List Char) : Option String :=
  let cs := trim cs
  if isLiteral cs then none
  else match readQualified? cs with
    | some (names, []) => names.getLast?.map Name.text
    | _ => none

/-- A star, after qualifying names perhaps; at most as many names as given are read. -/
def isStarWithin : Nat → List Char → Bool
  | 0, _ => false
  | n + 1, cs =>
    if cs = ['*'] then true
    else match (readName? isNameStart cs).bind fun r => afterPoint? r.2 with
      | some rest => isStarWithin n rest
      | none => false

/-- A star, after qualifying names perhaps. -/
def isStar (cs : List Char) : Bool :=
  isStarWithin (cs.length + 1) cs

/-- A name with its quotes taken off but quotes inside it left doubled. -/
def Name.bare : Name → List Char
  | .word cs => cs
  | .quoted body => body

/-- The table a FROM clause names first, or else the clause itself. -/
def tableOf (clause : List Char) : String :=
  match readQualified? (clause.dropWhile isBlank) with
  | some (names, _) => joinWith "." (names.map fun n => String.ofList n.bare)
  | none => String.ofList (trim clause)

end MetricLayer.Sql
