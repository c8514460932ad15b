import MetricLayer.Text.Pieces

/-!
# Writing statements

`SelectStatement` holds the parts of a flat SELECT statement as they are written, and `text` sets
them, one item or condition a line.
-/

namespace MetricLayer.Sql

open MetricLayer.Text

/-- The parts of a SELECT statement as they are written.  The rows are grouped by the first items. -/
structure SelectStatement where
  items : List String
  source : String
  conditions : List String
  groups : Nat
  ordering : List String
  limit : Option Nat
deriving Repr, DecidableEq

namespace SelectStatement

/-- A clause with its list, left out when the list is empty. -/
def listClause (keyword sep : String) (parts : List String) : List String :=
  if parts.isEmpty then [] else [keyword ++ joinWith sep parts]

/-- The positions of the items the rows are grouped by. -/
def groupPositions (s : SelectStatement) : List String :=
  (List.range s.groups).map fun n => toString (n + 1)

/-- The clauses of the statement. -/
def clauses (s : SelectStatement) : List String :=
  ["SELECT\n  " ++ joinWith ",\n  " s.items, "FROM " ++ s.source] ++
    listClause "WHERE " "\n  AND " (s.conditions.map fun f => "(" ++ f ++ ")") ++
    listClause "GROUP BY " ", " s.groupPositions ++
    listClause "ORDER BY " ", " s.ordering ++
    s.limit.toList.map fun n => "LIMIT " ++ toString n

/-- The text of the statement. -/
def text (s : SelectStatement) : String :=
  joinWith "\n" s.clauses

end SelectStatement

end MetricLayer.Sql
