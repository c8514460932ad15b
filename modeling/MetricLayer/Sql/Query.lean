import MetricLayer.Catalog.Basic
import MetricLayer.Sql.Aggregate
import MetricLayer.Sql.Clause

/-!
# Queries

A query is what can be read off a flat SELECT statement without checking it: its items, each with
the name of its result column, and the texts of the other clauses.  Only a LIMIT with too many digits
cannot be read.
-/

namespace MetricLayer.Sql

open MetricLayer.Text

/-- An item of the SELECT clause. -/
structure SelectItem where
  expression : String
  aliasName : Option String
  outputName : String
  isMeasure : Bool
deriving Repr, DecidableEq

/-- The surface of a SELECT statement. -/
structure Query where
  sql : String
  table : String
  items : List SelectItem
  grouping : List String
  filters : List String
  ordering : List String
  limit : Option Nat
deriving Repr, DecidableEq

/-- The result columns that are no measures. -/
def Query.dimensions (q : Query) : List String :=
  (q.items.filter fun i => !i.isMeasure).map (·.outputName)

/-- The result columns that are measures. -/
def Query.measures (q : Query) : List String :=
  (q.items.filter (·.isMeasure)).map (·.outputName)

/-- Reads an item.  Its column is named by its alias, else by the column it selects, else by its
text; it is a measure if it aggregates or bears the alias of one. -/
def SelectItem.read (c : Catalog) (item : List Char) : SelectItem :=
  let (expression, aliasName) := splitAlias item
  let outputName := aliasName.getD ((identifier? expression).getD (String.ofList expression))
  { expression := String.ofList expression
    aliasName
    outputName
    isMeasure := hasCall (mask expression) || (c.entry? outputName).isSome }

/-- An item that calls no aggregate: whether it is a measure is looked up under its name. -/
def SelectItem.isLookedUp (i : SelectItem) : Bool :=
  !hasCall (mask i.expression.toList)

/-- The items of a SELECT clause. -/
def selectItems (c : Catalog) (clause : List Char) : List SelectItem :=
  (splitList ((afterDistinct? clause).getD clause)).map (SelectItem.read c)

/-- The number a LIMIT clause starts with. -/
def limitOf (clause : List Char) : Except NumeralTooLong (Option Nat) :=
  let digits := clause.takeWhile isDigit
  if digits.isEmpty then .ok none else (natural digits).map some

/-- The query of the clauses of a statement. -/
def Query.ofClauses (c : Catalog) (text : List Char) (clauses : List (Clause × List Char)) :
    Except NumeralTooLong Query :=
  let listOf (clause : Clause) := (splitList (clauseText clause clauses)).map String.ofList
  let condition := clauseText .condition clauses
  let named := tableOf (clauseText .source clauses)
  (limitOf (clauseText .limit clauses)).map fun limit =>
    { sql := String.ofList text
      table := if named = "" then c.table else named
      items := selectItems c (clauseText .select clauses)
      grouping := listOf .grouping
      filters := if condition.isEmpty then [] else [String.ofList condition]
      ordering := listOf .ordering
      limit }

/-- Reads a statement without checking it; without SELECT it is none. -/
def Query.read? (c : Catalog) (sql : String) : Except NumeralTooLong (Option Query) :=
  let text := statement sql.toList
  match clauses? text with
  | none => .ok none
  | some clauses => (Query.ofClauses c text clauses).map some

end MetricLayer.Sql
