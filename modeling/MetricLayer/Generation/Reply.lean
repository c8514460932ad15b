import MetricLayer.Value.Json
import MetricLayer.Sql.Mask
import MetricLayer.Text.Place
import MetricLayer.Text.Quoted

/-!
# Replies of a generator

`Reply.statement` takes the SQL out of a reply: from a JSON object with an `sql` entry, inside a code
fence or not, else from the first fence that holds a SELECT, else from the reply itself.  The
statement runs from the word SELECT to the first semicolon outside quotes.  JSON that goes beyond a
limit of its reader ends the search.
-/

namespace MetricLayer.Reply

open MetricLayer.Text

/-- Why no statement is taken out of a reply: there is no SELECT in what was searched, or the search
ended at JSON beyond a limit. -/
inductive Fault where
  | noSelect (searched : String)
  | unreadable (limit : Json.Limit)
deriving Repr, DecidableEq

/-- How much of a text a message shows. -/
def shownLength : Nat := 120

/-- The wording of a fault. -/
def Fault.message : Fault → String
  | .noSelect searched =>
    "Generator output contains no SELECT statement: " ++
      quoted (String.ofList (searched.toList.take shownLength))
  | .unreadable limit => limit.message

/-- The text before the first occurrence of another, and the text after it. -/
def cutAt? (needle : List Char) : List Char → Option (List Char × List Char)
  | [] => none
  | c :: cs =>
    match needle.isPrefixOf? (c :: cs) with
    | some rest => some ([], rest)
    | none => (cutAt? needle cs).map fun (before, rest) => (c :: before, rest)

/-- What opens and closes a code fence. -/
def fenceMark : List Char := "```".toList

/-- The text after the tag of a fence, if it has one. -/
def afterTag (cs : List Char) : List Char :=
  (["json", "sql"].findSome? fun tag => letters? tag.toList cs).getD cs

/-- A fence at a place: its content, and the text after it. -/
def fence? (p : Place) : Option (List Char × List Char) := do
  let rest ← fenceMark.isPrefixOf? p.rest
  cutAt? fenceMark ((afterTag rest).dropWhile isBlank)

/-- The contents of the fences. -/
def fences (cs : List Char) : List (List Char) :=
  (scan fence? cs).map (·.2)

/-- The text from the first opening brace to the last closing one. -/
def braced (cs : List Char) : List Char :=
  dropEndWhile (· != '\x7d') (cs.dropWhile (· != '\x7b'))

/-- The `sql` entry of the JSON object in a text, unless it is empty. -/
def jsonSql? (cs : List Char) : Except Json.Limit (Option (List Char)) :=
  match Json.read (braced cs) with
  | .error (.beyond limit) => .error limit
  | .error .malformed => .ok none
  | .ok v =>
    match v.get? "sql" with
    | some (.text s) => .ok (if s = "" then none else some s.toList)
    | _ => .ok none

/-- The first `sql` entry of the JSON objects in several texts. -/
def firstSql? : List (List Char) → Except Json.Limit (Option (List Char))
  | [] => .ok none
  | cs :: rest => do
    match ← jsonSql? cs with
    | some sql => return some sql
    | none => firstSql? rest

/-- The word SELECT in upper case at a place. -/
def isUpperSelect (p : Place) : Bool :=
  p.startsWord && ("SELECT".toList.isPrefixOf? p.rest).any endsWord

/-- The text from SELECT on: from the first in upper case, or else the first in any letter case. -/
def fromSelect? (cs : List Char) : Option (List Char) :=
  (((places cs).find? isUpperSelect).or
    ((places cs).find? fun p => (p.keyword? "select").isSome)).map Place.rest

/-- The text before the first semicolon outside quotes. -/
def beforeSemicolon (cs : List Char) : List Char :=
  cs.take ((Sql.mask cs).takeWhile (· != ';')).length

/-- The text to search for SELECT. -/
def searched (cs : List Char) : Except Json.Limit (List Char) := do
  match ← firstSql? (fences cs ++ [cs]) with
  | some sql => return sql
  | none => return ((fences cs).find? fun f => (fromSelect? f).isSome).getD cs

/-- The statement in a reply. -/
def statement (reply : String) : Except Fault String := do
  let cs ← (searched reply.toList).mapError .unreadable
  match fromSelect? cs with
  | some sql => return String.ofList (trim (beforeSemicolon sql))
  | none => throw (.noSelect (String.ofList cs))

end MetricLayer.Reply
