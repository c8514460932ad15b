import MetricLayer.Catalog.Basic

/-!
# Catalog checks

`Catalog.problems` lists what keeps a catalog out of a registry: an alias declared twice, a source
that is no column, and unknown categories, types, aggregate functions and formats.
-/

namespace MetricLayer

open MetricLayer.Text

/-- The categories of columns. -/
def fieldCategories : List String :=
  ["categorical", "numerical", "temporal", "identifier", "continuous"]

/-- The types columns are ingested as. -/
def ingestTypes : List String :=
  ["number", "string", "timestamp", "boolean"]

/-- The aggregate functions. -/
def aggregateFunctions : List String :=
  ["sum", "avg", "count", "count_distinct", "max", "min"]

/-- The formats of measures. -/
def formatNames : List String :=
  ["number", "currency", "percentage"]

/-- A reason to reject a catalog. -/
inductive Problem where
  | unknownCategory (field category : String)
  | unknownIngestType (field type : String)
  | duplicateAlias (name owner holder : String)
  | dimensionWithoutField (name source : String)
  | unknownFunction (name function : String)
  | measureWithoutField (name source : String)
  | rowsNotCounted (name : String)
  | unknownFormat (name format : String)
deriving Repr, DecidableEq

/-- The wording of a problem. -/
def Problem.message : Problem → String
  | .unknownCategory f c =>
    "Field '" ++ f ++ "' has unknown category '" ++ c ++ "'. Allowed: " ++ joinWith ", " fieldCategories
  | .unknownIngestType f t => "Field '" ++ f ++ "' has unknown ingest type '" ++ t ++ "'."
  | .duplicateAlias n o h => "Duplicate alias '" ++ n ++ "' (" ++ o ++ " collides with " ++ h ++ ")."
  | .dimensionWithoutField n s => "Dimension '" ++ n ++ "' references unknown field '" ++ s ++ "'."
  | .unknownFunction n f =>
    "Measure '" ++ n ++ "' uses unknown aggregation '" ++ f ++ "'. Allowed: " ++
      joinWith ", " aggregateFunctions
  | .measureWithoutField n s => "Measure '" ++ n ++ "' references unknown field '" ++ s ++ "'."
  | .rowsNotCounted n =>
    "Measure '" ++ n ++ "': '" ++ rowSource ++ "' only supports the count aggregation."
  | .unknownFormat n f => "Measure '" ++ n ++ "' has unknown format '" ++ f ++ "'."

/-- An alias with a description of who declares it. -/
structure Claim where
  name : String
  owner : String
deriving Repr, DecidableEq

/-- The problem of a claim after others: an earlier one has the alias, ignoring letter case. -/
def Claim.problems (earlier : List Claim) (c : Claim) : List Problem :=
  match earlier.find? fun e => sameLower e.name c.name with
  | some e => [.duplicateAlias c.name c.owner e.owner]
  | none => []

/-- The problems of a column. -/
def Field.problems (f : Field) : List Problem :=
  (if fieldCategories.contains f.category then [] else [.unknownCategory f.name f.category]) ++
    (if ingestTypes.contains f.ingestType then [] else [.unknownIngestType f.name f.ingestType])

/-- The claim of a dimension on its alias. -/
def Dimension.claim (d : Dimension) : Claim :=
  ⟨d.aliasName, "dimension '" ++ d.source ++ "'"⟩

/-- The claim of an entry on its alias. -/
def Entry.claim : Entry → Claim
  | .aggregation a => ⟨a.aliasName, "measure '" ++ a.source ++ "'"⟩
  | .formula f => ⟨f.aliasName, "formula on '" ++ f.source ++ "'"⟩

/-- The problems of an aggregation, its alias and format apart. -/
def Aggregation.problems (c : Catalog) (a : Aggregation) : List Problem :=
  (if aggregateFunctions.contains a.function then [] else [.unknownFunction a.aliasName a.function]) ++
    (if a.source != rowSource && !c.isField a.source then
      [.measureWithoutField a.aliasName a.source] else []) ++
    (if a.source == rowSource && a.function != "count" then [.rowsNotCounted a.aliasName] else [])

/-- The problem of an entry's format. -/
def Entry.formatProblems (e : Entry) : List Problem :=
  match e.format with
  | .text f => if formatNames.contains f then [] else [.unknownFormat e.aliasName f]
  | v => [.unknownFormat e.aliasName v.display]

/-- The problem of a dimension's source. -/
def Dimension.sourceProblems (c : Catalog) (d : Dimension) : List Problem :=
  if d.transformation.isNone && !c.isField d.source then
    [.dimensionWithoutField d.aliasName d.source] else []

/-- The problems of the dimensions, each after the claims of the earlier ones. -/
def dimensionProblems (c : Catalog) : List Claim → List Dimension → List Problem
  | _, [] => []
  | earlier, d :: ds =>
    d.claim.problems earlier ++ d.sourceProblems c ++ dimensionProblems c (earlier ++ [d.claim]) ds

/-- The problems of the aliases and aggregate functions of entries, each after the earlier ones. -/
def entryProblems (c : Catalog) : List Claim → List Entry → List Problem
  | _, [] => []
  | earlier, e :: es =>
    e.claim.problems earlier ++
      (match e with
        | .aggregation a => a.problems c
        | .formula _ => []) ++
      entryProblems c (earlier ++ [e.claim]) es

/-- The problems of the measures: of each one its entries and then their formats. -/
def measureProblems (c : Catalog) : List Claim → List Measure → List Problem
  | _, [] => []
  | earlier, m :: ms =>
    entryProblems c earlier m.entries ++ m.entries.flatMap Entry.formatProblems ++
      measureProblems c (earlier ++ m.entries.map Entry.claim) ms

namespace Catalog

/-- Everything that keeps the catalog out of a registry. -/
def problems (c : Catalog) : List Problem :=
  c.fields.flatMap Field.problems ++ dimensionProblems c [] c.dimensions ++
    measureProblems c (c.dimensions.map Dimension.claim) c.measures

/-- The catalog may be registered. -/
def Accepted (c : Catalog) : Prop :=
  c.problems = []

instance (c : Catalog) : Decidable c.Accepted :=
  inferInstanceAs (Decidable (c.problems = []))

end Catalog

end MetricLayer
