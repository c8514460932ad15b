import MetricLayer.Engine.Failure
import MetricLayer.Engine.Sanitize
import MetricLayer.Text.Blank

/-!
# Connections

`Connection.execute` runs a statement over a connection: the rows come back under their columns and
sanitized, and a fault of the database becomes an execution failure with the message of the driver.
-/

namespace MetricLayer

open MetricLayer.Text

/-- What a database answers to a statement. -/
inductive DatabaseReply where
  | table (columns : List String) (cells : List (List Value))
  | refused (message : String)
  | driverFault (message driverMessage : String)
  | failed (f : Failure)
deriving Repr

/-- What happens on a connection. -/
inductive ConnectionEvent where
  | connect
  | execute (sql : String)
  | close
deriving Repr, DecidableEq

/-- Why a statement has no rows. -/
inductive ExecutionFault where
  | failed (f : Failure)
  | notSanitized (f : SanitizeFault)
deriving Repr, DecidableEq

/-- A database that answers statements. -/
structure Connection where
  answer : String → DatabaseReply

namespace Connection

/-- A row of cells under their columns: surplus ones are dropped, and of a repeated column the last
cell counts. -/
def row (columns : List String) (cells : List Value) : Row :=
  mergeEntries (columns.zip cells)

/-- The rows of an answer. -/
def rows (sql : String) : DatabaseReply → Except Failure (List Row)
  | .table columns cells => .ok (cells.map (row columns))
  | .refused message => .error (.execution message sql)
  | .driverFault _ message => .error (.execution message sql)
  | .failed f => .error f

/-- Runs a statement. -/
def execute (c : Connection) (sql : String) : Except ExecutionFault (List Row) := do
  let rows ← (rows sql (c.answer sql)).mapError .failed
  (sanitizeRows rows).mapError .notSanitized

/-- What happens on the connection when a statement is run, whatever comes of it. -/
def events (sql : String) : List ConnectionEvent :=
  [.connect, .execute sql, .close]

end Connection

/-- The address is of a database in memory, which all threads have to share. -/
def isInMemory (url : String) : Bool :=
  let cs := url.toList
  ":memory:".toList.isSuffixOf cs ||
    ["duckdb:", "sqlite:"].any fun s => s.toList.isSuffixOf (dropEndWhile (· == '/') cs)

end MetricLayer
