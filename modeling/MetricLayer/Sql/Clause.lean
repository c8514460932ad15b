import MetricLayer.Sql.Mask
import MetricLayer.Text.Place

/-!
# Clauses of a statement

A flat SELECT statement is cut into its clauses at the first keyword of each clause outside quotes
and parentheses.
-/

namespace MetricLayer.Sql

open MetricLayer.Text

/-- The clauses of a statement. -/
inductive Clause where
  | select
  | source
  | condition
  | grouping
  | having
  | ordering
  | limit
deriving Repr, DecidableEq

namespace Clause

/-- The clauses that follow SELECT. -/
def followers : List Clause :=
  [.source, .condition, .grouping, .having, .ordering, .limit]

/-- The keyword of a clause and the word that completes it. -/
def keyword : Clause → String × Option String
  | .select => ("select", none)
  | .source => ("from", none)
  | .condition => ("where", none)
  | .grouping => ("group", some "by")
  | .having => ("having", none)
  | .ordering => ("order", some "by")
  | .limit => ("limit", none)

/-- The name of a clause in messages. -/
def title : Clause → String
  | .select => "SELECT"
  | .source => "FROM"
  | .condition => "WHERE"
  | .grouping => "GROUP BY"
  | .having => "HAVING"
  | .ordering => "ORDER BY"
  | .limit => "LIMIT"

/-- Reads the keyword of a clause at a place and returns what follows. -/
def after? (c : Clause) (p : Place) : Option (List Char) :=
  match c.keyword with
  | (word, none) => p.keyword? word
  | (word, some second) =>
    if p.startsWord then
      match letters? word.toList p.rest with
      | some (b :: rest) =>
        if isBlank b then (letters? second.toList (rest.dropWhile isBlank)).filter endsWord else none
      | _ => none
    else none

end Clause

/-- Where the keyword of a clause stands. -/
structure Heading where
  clause : Clause
  start : Nat
  stop : Nat
deriving Repr, DecidableEq

/-- The first keyword of a clause outside quotes and parentheses from an offset on. -/
def heading? (c : Clause) (start : Nat) (masked : List Char) : Option Heading :=
  ((places masked).zip (depths masked)).findSome? fun (p, depth) =>
    if start ≤ p.offset ∧ depth = 0 then
      (c.after? p).map fun rest => ⟨c, p.offset, masked.length - rest.length⟩
    else none

/-- The offset of the first keyword of a clause outside quotes and parentheses. -/
def clauseStart? (c : Clause) (sql : List Char) : Option Nat :=
  (heading? c 0 (mask sql)).map Heading.start

/-- The headings of a statement, from SELECT on. -/
def headings? (masked : List Char) : Option (List Heading) := do
  let first ← heading? .select 0 masked
  let others := Clause.followers.filterMap fun c => heading? c first.stop masked
  some ((first :: others).mergeSort fun a b => decide (a.start ≤ b.start))

/-- The texts between headings, each with its clause; the last one runs to the end. -/
def clauseTexts (sql : List Char) : List Heading → List (Clause × List Char)
  | [] => []
  | [h] => [(h.clause, trim (sql.drop h.stop))]
  | h :: next :: hs =>
    (h.clause, trim ((sql.take next.start).drop h.stop)) :: clauseTexts sql (next :: hs)

/-- The clauses of a statement with their texts; without SELECT there are none. -/
def clauses? (sql : List Char) : Option (List (Clause × List Char)) :=
  (headings? (mask sql)).map (clauseTexts sql)

/-- The text of a clause, empty when the statement has none. -/
def clauseText (c : Clause) (clauses : List (Clause × List Char)) : List Char :=
  (clauses.lookup c).getD []

/-- A statement without white space and semicolons after it. -/
def statement (sql : List Char) : List Char :=
  trim (dropEndWhile (· == ';') (trim sql))

end MetricLayer.Sql
