import MetricLayer.Sql.Identifier
import MetricLayer.Catalog.Basic

/-!
# Findings

What a review of a statement finds wrong, with a correction, and the guidance that lists findings
for whoever wrote the statement: the errors, then at most fifteen dimensions and fifteen measures,
those that an error names first.
-/

namespace MetricLayer.Review

open MetricLayer.Text MetricLayer.Sql

/-- The kinds of findings; callers may report kinds of their own. -/
inductive FindingKind where
  | aliasUsedAsColumn
  | wrongAggregation
  | unknownColumn
  | missingAlias
  | reported (name : String)
deriving Repr, DecidableEq

/-- The name of a kind. -/
def FindingKind.name : FindingKind → String
  | .aliasUsedAsColumn => "alias_used_as_column"
  | .wrongAggregation => "wrong_aggregation_type"
  | .unknownColumn => "unknown_column"
  | .missingAlias => "missing_alias"
  | .reported name => name

/-- What an alias stands for in a catalog. -/
inductive Named where
  | dimension (d : Dimension)
  | entry (e : Entry)
deriving Repr

/-- What a name stands for, dimensions first. -/
def named? (c : Catalog) (name : String) : Option Named :=
  match c.dimension? name with
  | some d => some (.dimension d)
  | none => (c.entry? name).map .entry

/-- Something wrong in a statement. -/
structure Finding where
  kind : FindingKind
  identifier : String
  message : String
  correction : String
  /-- The alias that the finding is about. -/
  subject : Option Named := none
deriving Repr

/-- A dimension as a select item. -/
def dimensionItem (d : Dimension) : String :=
  let source := match d.transformation with
    | some t => "(" ++ t.display ++ ")"
    | none => d.source
  source ++ " AS \"" ++ d.aliasName ++ "\""

/-- An entry as a select item. -/
def entryItem (e : Entry) : String :=
  e.sql ++ " AS " ++ e.aliasName

/-- The select item of an alias; any other name stands for itself. -/
def itemOf (c : Catalog) (name : String) : String :=
  match named? c name with
  | some (.dimension d) => dimensionItem d
  | some (.entry e) => entryItem e
  | none => name

/-- How many names a listing shows at most. -/
def listingLimit : Nat := 15

/-- The first names of a listing, those that are mentioned before the others. -/
def ranked {α : Type} (mentioned : α → Bool) (items : List α) : List α :=
  (items.filter mentioned ++ items.filter fun a => !mentioned a).take listingLimit

/-- A finding with its number. -/
def numbered (n : Nat) (f : Finding) : List String :=
  [toString n ++ ". [" ++ f.kind.name ++ "] " ++ f.message, "   Fix: " ++ f.correction]

/-- The findings with their numbers, from a given one on. -/
def numberedFrom : Nat → List Finding → List String
  | _, [] => []
  | n, f :: fs => numbered n f ++ numberedFrom (n + 1) fs

/-- The lines of the guidance. -/
def guidanceLines (c : Catalog) (findings : List Finding) : List String :=
  let mentioned (name : String) := findings.any fun f => sameLower f.identifier name
  ["The SQL query has " ++ toString findings.length ++ " error(s):", ""] ++
    numberedFrom 1 findings ++
    ["", "VALID DIMENSIONS (select the source column, name it with AS):"] ++
    ((ranked (fun d => mentioned d.aliasName) c.namedDimensions).map fun d =>
      "  - " ++ dimensionItem d) ++
    ["VALID MEASURES (use exactly this aggregation):"] ++
    ((ranked (fun e => mentioned e.aliasName) c.namedEntries).map fun e => "  - " ++ entryItem e) ++
    ["TABLE: " ++ c.table, "Return one corrected SELECT statement using only these columns."]

/-- The guidance for findings; without findings it is empty. -/
def guidance (c : Catalog) (findings : List Finding) : String :=
  if findings.isEmpty then "" else joinWith "\n" (guidanceLines c findings)

end MetricLayer.Review
