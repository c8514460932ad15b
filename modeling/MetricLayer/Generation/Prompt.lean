import MetricLayer.Catalog.Basic
import MetricLayer.Text.Place
import MetricLayer.Text.Blank

/-!
# Prompts

The texts a generator is asked with: the first prompt shows the catalog and the request, a retry
shows guidance and ends in the request.  `requestIn` takes the request out of a retry again.
-/

namespace MetricLayer.Prompt

open MetricLayer.Text

/-- What stands before the request in a retry. -/
def requestMark : String := "ORIGINAL REQUEST:"

/-- How many names a retry after a failed execution shows. -/
def retryListing : Nat := 15

/-- What prompts show of a catalog: what yields every dimension alias, and the SQL of every measure
alias. -/
structure Listing where
  table : String
  description : Value
  dimensions : List (String × Value)
  measures : List (String × String)
deriving Repr

/-- The listing of a catalog. -/
def Listing.of (c : Catalog) : Listing :=
  ⟨c.table, c.description, c.dimensionListing, c.measureListing⟩

/-- The prompt that shows a listing and asks for a statement. -/
def generationOf (l : Listing) (request : String) : String :=
  let dimensions := joinWith "\n" (l.dimensions.map fun (name, v) =>
    "  - " ++ v.display ++ " AS \"" ++ name ++ "\"")
  let measures := joinWith "\n" (l.measures.map fun (name, sql) =>
    "  - " ++ sql ++ " AS " ++ name)
  "TABLE: " ++ l.table ++ "\nDESCRIPTION: " ++ l.description.display ++
    "\n\nDIMENSIONS (group by these columns, name them with AS):\n" ++ dimensions ++
    "\n\nMEASURES (use exactly these aggregations and aliases):\n" ++ measures ++
    "\n\nRULES:\n" ++
    "1. Write one DuckDB SELECT statement over this table only.\n" ++
    "2. Aliases are output names: never use an alias inside an aggregate or GROUP BY.\n" ++
    "3. Give every aggregate an AS alias from the list above.\n" ++
    "4. GROUP BY the dimension positions (1, 2, ...).\n" ++
    "5. Use CURRENT_DATE, not CURDATE() or NOW().\n" ++
    "Respond with JSON \x7b\"sql\": \"...\"\x7d or the bare SQL.\n\n" ++
    "QUESTION: " ++ request

/-- The prompt that shows the catalog and asks for a statement. -/
def generation (c : Catalog) (request : String) : String :=
  generationOf (.of c) request

/-- The prompt that asks again: guidance first, the request last. -/
def retry (guidance request : String) : String :=
  guidance ++ "\n\n" ++ requestMark ++ " \"" ++ request ++ "\""

/-- The transformations that a retry after a failed execution shows have to be texts. -/
def Listing.fault? (l : Listing) : Option ContentFault :=
  (l.dimensions.take retryListing).findSome? fun (_, v) =>
    if v.isText then none else some (.transformationNotText v.kindName)

/-- The guidance after a statement failed to execute. -/
def executionGuidance (error : String) (l : Listing) : String :=
  let dimensions := (l.dimensions.take retryListing).map fun (_, v) => v.display
  let measures := (l.measures.take retryListing).map fun (name, sql) => sql ++ " AS " ++ name
  "The previous SQL failed to execute: " ++ error ++
    "\nTABLE: " ++ l.table ++
    "\nVALID DIMENSION COLUMNS: " ++ joinWith ", " dimensions ++
    "\nVALID MEASURES: " ++ joinWith ", " measures ++
    "\nReturn one corrected SELECT statement."

/-- The prompt that asks again after a statement failed to execute. -/
def executionRetry (error : String) (l : Listing) (request : String) : Except ContentFault String :=
  match l.fault? with
  | some f => .error f
  | none => .ok (retry (executionGuidance error l) request)

/-- The request a retry ends in; any other prompt is the request itself. -/
def requestIn (prompt : String) : String :=
  match afterLast? requestMark.toList prompt.toList with
  | none => prompt
  | some rest => String.ofList (dropBothWhile (· == '"') (trim rest))

end MetricLayer.Prompt
