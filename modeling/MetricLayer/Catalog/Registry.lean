import MetricLayer.Catalog.Check

/-!
# Registries

A registry holds the accepted catalog of each table.  Registering replaces the catalog of a table as
a whole and counts: the version of a table is the count at its last registration.  A rejected
catalog leaves the registry as it is.
-/

namespace MetricLayer

open MetricLayer.Text

/-- A catalog was refused, or a table has none. -/
structure Rejection where
  table : String
  problems : List String
deriving Repr, DecidableEq

/-- The wording of a rejection. -/
def Rejection.message (r : Rejection) : String :=
  "Catalog for table '" ++ r.table ++ "' rejected: " ++
    (if r.problems.isEmpty then "unknown problem" else joinWith "; " r.problems)

/-- The accepted catalog of a table with its version. -/
structure Registration where
  catalog : Catalog
  version : Nat
deriving Repr, Inhabited

/-- The accepted catalogs and their versions, both by table, and the number of registrations so far. -/
structure Registry where
  catalogs : List (String × Catalog) := []
  versions : List (String × Nat) := []
  version : Nat := 0
deriving Repr, Inhabited

/-- Code point order of texts. -/
def textLe (s t : String) : Bool :=
  !decide (t < s)

namespace Registry

/-- The table has a catalog. -/
def contains (r : Registry) (table : String) : Bool :=
  (r.catalogs.lookup table).isSome

/-- The tables in code point order. -/
def tables (r : Registry) : List String :=
  (r.catalogs.map (·.1)).mergeSort textLe

/-- Registers a catalog that has no problems. -/
def register (r : Registry) (c : Catalog) : Except Rejection Registry :=
  match c.problems with
  | [] =>
    let version := r.version + 1
    .ok ⟨putEntry c.table c r.catalogs, putEntry c.table version r.versions, version⟩
  | ps => .error ⟨c.table, ps.map Problem.message⟩

/-- The rejection of a table that has no catalog. -/
def missing (r : Registry) (table : String) : Rejection :=
  let listed := joinWith ", " r.tables
  ⟨table, ["Table is not registered. Registered: " ++ (if listed = "" then "none" else listed)]⟩

/-- The catalog of a table. -/
def get (r : Registry) (table : String) : Except Rejection Catalog :=
  match r.catalogs.lookup table with
  | some c => .ok c
  | none => .error (r.missing table)

/-- The catalog of a table with its version. -/
def snapshot (r : Registry) (table : String) : Except Rejection Registration :=
  (r.get table).map fun c => ⟨c, (r.versions.lookup table).getD 0⟩

end Registry

end MetricLayer
