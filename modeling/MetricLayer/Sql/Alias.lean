import MetricLayer.Sql.Identifier
import MetricLayer.Sql.Mask

/-!
# Aliases of select items

An item may end in a name of its own: after the word AS, or directly after a closing parenthesis.
-/

namespace MetricLayer.Sql

open MetricLayer.Text

/-- Words that end an expression and are no alias. -/
def reservedWords : List String :=
  ["END", "ASC", "DESC", "AND", "OR", "NOT", "NULL", "THEN", "ELSE", "FROM"]

/-- The text after white space, of which there must be some. -/
def afterBlank? : List Char → Option (List Char)
  | [] => none
  | c :: cs => if isBlank c then some (cs.dropWhile isBlank) else none

/-- The text is a name and white space after it; the offset from its end is returned. -/
def nameToEnd? (start : Char → Bool) (cs : List Char) : Option Nat :=
  match readName? start cs with
  | some (_, rest) => if rest.all isBlank then some cs.length else none
  | none => none

/-- An alias after the word AS: the end of the expression, and the length of the alias to the end of
the item. -/
def afterAs? (masked : List Char) : Option (Nat × Nat) :=
  (places masked).findSome? fun p => do
    let rest ← afterBlank? p.rest
    let rest ← letters? ['a', 's'] rest
    let rest ← afterBlank? rest
    let length ← nameToEnd? (fun c => isNameStart (fold c)) rest
    some (p.offset, length)

/-- An alias after the last closing parenthesis that a name follows. -/
def afterParenthesis? (masked : List Char) : Option (Nat × Nat) :=
  ((places masked).filterMap fun p =>
    match p.rest with
    | ')' :: rest => do
      let rest ← afterBlank? rest
      let length ← nameToEnd? isNameStart rest
      some (p.offset + 1, length)
    | _ => none).getLast?

/-- The name an alias writes. -/
def aliasText (cs : List Char) : List Char :=
  match cs with
  | '"' :: body => undouble body.dropLast
  | _ => cs

/-- The expression of a select item and its alias. -/
def splitAlias (item : List Char) : List Char × Option String :=
  let masked := mask item
  match (afterAs? masked).or (afterParenthesis? masked) with
  | none => (trim item, none)
  | some (stop, length) =>
    let written := trim (item.drop (item.length - length))
    if reservedWords.contains (String.ofList (upper written)) then (trim item, none)
    else (trim (item.take stop), some (String.ofList (aliasText written)))

end MetricLayer.Sql
