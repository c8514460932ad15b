import MetricLayer.Chart.Category
import MetricLayer.Sql.Query

/-!
# Ordering by time

A statement over time without an ORDER BY is ordered by its first temporal column, which is named by
its alias or else by its position.  The clause stands before LIMIT.
-/

namespace MetricLayer

open MetricLayer.Text MetricLayer.Sql

/-- What an item at a position is ordered by. -/
def SelectItem.orderTarget (position : Nat) (item : SelectItem) : String :=
  match item.aliasName with
  | some name => if name = "" then toString position else quote name
  | none => toString position

/-- The item is a dimension over time. -/
def isTemporalItem (c : Catalog) (item : SelectItem) : Bool :=
  !item.isMeasure && dimensionCategory (some c) item.outputName == .temporal

/-- What a query over time is ordered by. -/
def temporalTarget? (c : Catalog) (q : Query) : Option String :=
  (q.items.zipIdx.find? fun (item, _) => isTemporalItem c item).map fun (item, n) =>
    SelectItem.orderTarget (n + 1) item

/-- What keeps a query from being ordered by time: an item before the first temporal one that has no
category. -/
def orderFault? (c : Catalog) (query : Option Query) : Option ContentFault :=
  (query.filter fun q => q.ordering.isEmpty).bind fun q =>
    (q.items.takeWhile fun i => !isTemporalItem c i).findSome? fun i =>
      if i.isMeasure then none else categoryFault? (some c) i.outputName

/-- The statement with an ORDER BY clause, before its LIMIT clause if it has one. -/
def insertOrder (order sql : List Char) : List Char :=
  match clauseStart? .limit sql with
  | none => sql ++ '\n' :: order
  | some start => trimEnd (sql.take start) ++ '\n' :: order ++ '\n' :: sql.drop start

/-- The statement in temporal order, given its query. -/
def temporalOrder (c : Catalog) (sql : String) (query : Option Query) : String :=
  match query.filter fun q => q.ordering.isEmpty with
  | none => sql
  | some q =>
    match temporalTarget? c q with
    | none => sql
    | some target => within (insertOrder ("ORDER BY " ++ target ++ " ASC").toList) sql

end MetricLayer
