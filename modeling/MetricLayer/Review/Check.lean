import MetricLayer.Review.Finding
import MetricLayer.Sql.Query

/-!
# Reviewing a statement

`review` checks a statement against a catalog: aggregates read columns and use the function that
their alias declares, plain items are columns, computed items bear an alias, and groups are
positions, aliases of the statement or columns.  An item with CASE is never wrong.

A statement without findings is valid, and its query is part of the review.  A statement is not
reviewed at all when a position among its groups or, in a valid one, its LIMIT has too many digits.
-/

namespace MetricLayer.Review

open MetricLayer.Text MetricLayer.Sql

/-- An item holds a CASE expression. -/
def hasCase (cs : List Char) : Bool :=
  hasKeyword "case" (mask cs)

/-- The finding for an alias where a column belongs. -/
def aliasAsColumn (c : Catalog) (name : String) (clause : Clause) : Finding :=
  let subject := named? c name
  let kind := match subject with
    | some (.dimension _) => "dimension"
    | some (.entry _) => "measure"
    | none => "catalog"
  let correction := match clause, subject with
    | .grouping, some (.dimension d) => "GROUP BY " ++ d.expression ++ " (or its position in SELECT)"
    | _, _ => itemOf c name
  { kind := .aliasUsedAsColumn
    identifier := name
    message := "'" ++ name ++ "' is a " ++ kind ++ " alias, not a column of " ++ c.table ++
      "; it cannot be referenced directly in " ++ clause.title ++ "."
    correction
    subject }

/-- A correction for a name that is unknown: the first column or measure that holds the name or is
held by it, or else the columns. -/
def nearestName (c : Catalog) (name : String) : String :=
  let low := (lower name.toList).map fun x => if x = ' ' then '_' else x
  let near (candidate : String) : Bool :=
    let other := lower candidate.toList
    occurs low other || occurs other low
  match (c.fields.map (·.name) ++ c.measureAliases).find? near with
  | some candidate =>
    if c.isField candidate then "Use the column " ++ candidate else "Use " ++ itemOf c candidate
  | none =>
    "Use one of the columns: " ++ joinWith ", " ((c.fields.map (·.name)).take listingLimit)

/-- The finding for a name that is neither column nor alias. -/
def unknownColumn (c : Catalog) (name : String) (clause : Clause) : Finding where
  kind := .unknownColumn
  identifier := name
  message := "'" ++ name ++ "' in " ++ clause.title ++ " is neither a column nor an alias of " ++
    c.table ++ "."
  correction := nearestName c name

/-- The finding for a name where a column belongs, if it is none. -/
def nameFinding? (c : Catalog) (name : String) (clause : Clause) : Option Finding :=
  if c.isField name then none
  else if c.isAlias name then some (aliasAsColumn c name clause)
  else some (unknownColumn c name clause)

/-- The finding for the argument of an aggregate or for a plain item; stars, literals and computed
expressions pass. -/
def referenceFinding? (c : Catalog) (reference : List Char) : Option Finding :=
  if reference = ['*'] || isLiteral reference || hasCase reference then none
  else (identifier? reference).bind fun name => nameFinding? c name .select

/-- The finding for an item whose alias declares another aggregate function than the item uses. -/
def wrongAggregation? (c : Catalog) (aliasName : String) (calls : List AggregateCall) :
    Option Finding :=
  match c.entry? aliasName with
  | some (.aggregation declared) =>
    (calls.find? fun call => call.kind != declared.function).map fun call =>
      { kind := .wrongAggregation
        identifier := declared.aliasName
        message := "'" ++ declared.aliasName ++ "' is declared as " ++
          within upper declared.function ++ " but the query uses " ++ call.function ++
          (if call.distinct then " DISTINCT" else "") ++ "."
        correction := declared.sql ++ " AS " ++ declared.aliasName
        subject := named? c declared.aliasName }
  | _ => none

/-- The finding for a computed item without an alias; the measure with the same SQL is proposed. -/
def missingAlias (c : Catalog) (expression : List Char) : Finding :=
  let form := canonical expression
  let text := String.ofList (trim expression)
  let proposed := (c.namedEntries.find? fun e => canonical e.sql.toList == form).map Entry.aliasName
  { kind := .missingAlias
    identifier := text
    message := "Expression '" ++ text ++
      "' has no AS alias, so its result column cannot be referenced."
    correction := text ++ " AS " ++ proposed.getD "<descriptive_alias>"
    subject := (proposed.filter (· != "")).bind (named? c) }

/-- The finding about the alias of a computed item: it is missing, or declares another function. -/
def aliasFinding? (c : Catalog) (expression : List Char) (aliasName : Option String)
    (calls : List AggregateCall) : Option Finding :=
  match aliasName with
  | none => some (missingAlias c expression)
  | some name => wrongAggregation? c name calls

/-- The alias of an item is compared with what the item computes. -/
def isComputed (expression : List Char) : Bool :=
  !(hasCase expression || isStar (trim expression)) &&
    ((singleCall? expression).isSome ||
      !((identifier? expression).isSome || isLiteral (trim expression)))

/-- The findings for a select item. -/
def itemFindings (c : Catalog) (expression : List Char) (aliasName : Option String) : List Finding :=
  if hasCase expression || isStar (trim expression) then []
  else match singleCall? expression with
    | some call =>
      (referenceFinding? c call.argument).toList ++
        (aliasFinding? c expression aliasName [call]).toList
    | none =>
      if (identifier? expression).isSome || isLiteral (trim expression) then
        (referenceFinding? c expression).toList
      else
        let calls := embeddedCalls expression
        calls.filterMap (fun call => referenceFinding? c call.argument) ++
          (aliasFinding? c expression aliasName calls).toList

/-- The finding for a position beyond the select items. -/
def positionFinding? (item : List Char) (count : Nat) : Option Finding :=
  let position := naturalOf item
  if 1 ≤ position ∧ position ≤ count then none
  else some
    { kind := .unknownColumn
      identifier := String.ofList item
      message := "GROUP BY position " ++ toString position ++ " is out of range (SELECT has " ++
        toString count ++ " columns)."
      correction := "Use a position between 1 and " ++ toString count }

/-- A group is a position. -/
def isPosition (group : List Char) : Bool :=
  !group.isEmpty && group.all isDigit

/-- The positions among groups have few enough digits to be read. -/
def checkPositions (groups : List (List Char)) : Except NumeralTooLong Unit :=
  (groups.filter isPosition).forM fun group => (natural group).map fun _ => ()

/-- The finding for a group. -/
def groupFinding? (c : Catalog) (items : List SelectItem) (group : List Char) : Option Finding :=
  if isPosition group then positionFinding? group items.length
  else if hasCase group then none
  else (identifier? group).bind fun name =>
    if items.any fun i => i.aliasName.any fun a => a != "" && sameLower a name then none
    else nameFinding? c name .grouping

/-- A function of another dialect: how it is shown, its name, and what replaces it. -/
structure ForeignFunction where
  shown : String
  name : String
  replacement : String

/-- The functions of other dialects that statements tend to use. -/
def foreignFunctions : List ForeignFunction :=
  [⟨"CURDATE()", "curdate", "CURRENT_DATE"⟩, ⟨"NOW()", "now", "CURRENT_TIMESTAMP"⟩]

/-- The function is called without arguments. -/
def ForeignFunction.isCalled (f : ForeignFunction) (masked : List Char) : Bool :=
  (places masked).any fun p =>
    p.startsWord &&
      match (letters? f.name.toList p.rest).map (·.dropWhile isBlank) with
      | some ('(' :: rest) => (rest.dropWhile isBlank).head? == some ')'
      | _ => false

/-- The finding for a call of a foreign function. -/
def ForeignFunction.finding (f : ForeignFunction) : Finding where
  kind := .unknownColumn
  identifier := f.shown
  message := f.shown ++ " is not a DuckDB function."
  correction := "Use " ++ f.replacement

/-- The findings of which no earlier one has the kind and, ignoring letter case, the identifier. -/
def firstFindings : List Finding → List Finding
  | [] => []
  | f :: fs =>
    f :: (firstFindings fs).filter fun g => !(g.kind == f.kind && sameLower g.identifier f.identifier)

/-- The findings for the clauses of a statement. -/
def clauseFindings (c : Catalog) (text : List Char) (clauses : List (Clause × List Char)) :
    List Finding :=
  let masked := mask text
  let items := selectItems c (clauseText .select clauses)
  firstFindings (
    (foreignFunctions.filter (·.isCalled masked)).map ForeignFunction.finding ++
    items.flatMap (fun i => itemFindings c i.expression.toList i.aliasName) ++
    (splitList (clauseText .grouping clauses)).filterMap (groupFinding? c items))

/-- The finding for a text without SELECT. -/
def noSelect (c : Catalog) (text : List Char) : Finding where
  kind := .unknownColumn
  identifier := if text.isEmpty then "<empty>" else String.ofList (text.take 40)
  message := "No SELECT statement found."
  correction := "Write a single SELECT ... FROM " ++ c.table ++ " statement."

end MetricLayer.Review

namespace MetricLayer

/-- The findings for a statement, and its query when there are none. -/
structure Review where
  findings : List Review.Finding
  query : Option Sql.Query
deriving Repr

/-- The statement has no findings. -/
def Review.isValid (r : Review) : Bool :=
  r.findings.isEmpty

open Review in
/-- Checks a statement against a catalog. -/
def review (c : Catalog) (sql : String) : Except Text.NumeralTooLong Review :=
  let text := Sql.statement sql.toList
  match Sql.clauses? text with
  | none => .ok ⟨[noSelect c text], none⟩
  | some clauses => do
    checkPositions (Sql.splitList (Sql.clauseText .grouping clauses))
    match clauseFindings c text clauses with
    | [] => return ⟨[], ← Sql.Query.read? c (String.ofList text)⟩
    | findings => return ⟨findings, none⟩

end MetricLayer
