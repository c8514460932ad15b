import MetricLayer.Catalog.Loose
import MetricLayer.Catalog.Registry
import MetricLayer.Value.Integer

/-!
# Catalog feeds

A feed is the mapping a catalog is registered with.  `LooseCatalog.ofFeed` reads it: sections that
are missing are empty, and a section or an entry of the wrong shape rejects the feed with one problem.
Some contents cannot be read at all; those are the other faults.  `Catalog.ofFeed` also refuses
aliases that are no texts.
-/

namespace MetricLayer

open MetricLayer.Text

/-- Why a feed yields no catalog. -/
inductive FeedFault where
  | rejected (r : Rejection)
  | notACatalog (kind : String)
  | ingestTypeNotText (kind : String)
  | membersNotListed (kind : String)
  | decimalsInfinite
  | aliasNotAKey (kind : String)
  | aliasNotText (kind : String)
deriving Repr, DecidableEq

/-- The wording of a fault. -/
def FeedFault.message : FeedFault → String
  | .rejected r => r.message
  | .notACatalog kind => "'" ++ kind ++ "' object has no attribute 'fields'"
  | .ingestTypeNotText kind => "'" ++ kind ++ "' object has no attribute 'strip'"
  | .membersNotListed kind => "'" ++ kind ++ "' object is not iterable"
  | .decimalsInfinite => "cannot convert float infinity to integer"
  | .aliasNotAKey kind => "unhashable type: '" ++ kind ++ "'"
  | .aliasNotText kind => "'" ++ kind ++ "' object has no attribute 'lower'"

namespace Feed

/-- Rejects the feed of a table with one problem. -/
def reject {α : Type} (table problem : String) : Except FeedFault α :=
  .error (.rejected ⟨table, [problem]⟩)

/-- The entries of a mapping; null is an empty one. -/
def entriesOf (table what : String) : Option Value → Except FeedFault (List (String × Value))
  | none => .ok []
  | some .null => .ok []
  | some (.object es) => .ok es
  | some v => reject table (what ++ " must be a mapping, got " ++ v.kindName ++ ".")

/-- The value under a key, if it is present. -/
def present? (es : List (String × Value)) (key : String) : Option Value :=
  (es.lookup key).bind Value.present?

/-- The description among entries, empty when there is none. -/
def describe (es : List (String × Value)) : Value :=
  (present? es "description").getD (.text "")

/-- The ingest types by their other spellings. -/
def ingestSpellings : List (String × String) :=
  [("integer", "number"), ("int", "number"), ("bigint", "number"), ("float", "number"),
   ("double", "number"), ("decimal", "number"), ("uint8array", "number"), ("varchar", "string"),
   ("text", "string"), ("date", "timestamp"), ("datetime", "timestamp"), ("bool", "boolean")]

/-- The ingest type a feed names; without one it is a string. -/
def ingestType (es : List (String × Value)) : Except FeedFault String :=
  match present? es "ingest_data_type" with
  | none => .ok "string"
  | some (.text s) =>
    let name := within (fun cs => lower (trim cs)) s
    .ok ((ingestSpellings.lookup name).getD name)
  | some v => .error (.ingestTypeNotText v.kindName)

/-- The members of a column. -/
def members? (es : List (String × Value)) : Except FeedFault (Option (List Value)) :=
  match present? es "members" with
  | none => .ok none
  | some (.list vs) => .ok (some vs)
  | some (.text s) => .ok (some (s.toList.map fun c => .text (String.singleton c)))
  | some (.object ms) => .ok (some (ms.map fun m => .text m.1))
  | some (.bytes bs) => .ok (some (bs.map fun b => .int b.toNat))
  | some v => .error (.membersNotListed v.kindName)

/-- Reads a column. -/
def field (name : String) (es : List (String × Value)) : Except FeedFault Field := do
  let physicalType := (es.lookup "md_data_type").getD (.text "VARCHAR")
  let ingestType ← ingestType es
  let members ← members? es
  let category := (es.lookup "data_type_category").getD (.text "categorical")
  return {
    name
    physicalType := within upper physicalType.display
    ingestType
    category := within lower category.display
    members
    sanitize := ((es.lookup "sanitize").getD (.bool false)).truth
    description := describe es }

/-- The alias under a key, if it is present; bytes are known by their literal. -/
def alias? (es : List (String × Value)) (key : String) : Option Value :=
  (present? es key).map fun
    | .bytes bs => .text (Value.bytes bs).display
    | v => v

/-- Reads a dimension, with its alias as it is given. -/
def dimension (source : String) (es : List (String × Value)) : Value × Dimension :=
  let name := (alias? es "alias_name").getD (.text source)
  (name,
    { source
      aliasName := name.display
      transformation := present? es "transformation"
      sort := present? es "sort"
      description := describe es })

/-- Reads the number of places of an entry. -/
def decimals (table owner : String) (es : List (String × Value)) : Except FeedFault Int :=
  let v := (es.lookup "decimals").getD (.int 0)
  match v.toInteger with
  | .ok n => .ok n
  | .error .infinite => .error .decimalsInfinite
  | .error _ => reject table ("'" ++ owner ++ "': decimals must be an integer, got " ++ v.literal ++ ".")

/-- Reads an aggregation, written as one function name with its details, with its alias as it is
given. -/
def aggregation (table source : String) : Value → Except FeedFault (Value × Aggregation)
  | .object [(function, details)] => do
    let es ← entriesOf table ("Measure '" ++ source ++ "' aggregation '" ++ function ++ "'") details
    let name := (alias? es "alias").getD (.text (function ++ "_" ++ source))
    let decimals ← decimals table name.display es
    return (name,
      { aliasName := name.display
        function := within lower function
        source
        format := (es.lookup "format").getD (.text "number")
        decimals
        currency := (es.lookup "currency").getD .null
        description := describe es })
  | _ => reject table
    ("Measure '" ++ source ++ "': each aggregation must be a single \x7btype: details\x7d mapping.")

/-- Reads a formula. -/
def formula (table source aliasName : String) (v : Value) : Except FeedFault Formula :=
  match v with
  | .object es =>
    match present? es "sql" with
    | none => noSql
    | some sql => do
      let decimals ← decimals table aliasName es
      return {
        aliasName
        sql := within trim sql.display
        source
        format := (es.lookup "format").getD (.text "number")
        decimals
        currency := (es.lookup "currency").getD .null
        description := describe es }
  | _ => noSql
where
  /-- The problem of a formula without SQL. -/
  noSql : Except FeedFault Formula :=
    reject table ("Formula '" ++ aliasName ++ "' on '" ++ source ++ "' has no sql.")

/-- The aggregations listed in a measure. -/
def listed (table source : String) (es : List (String × Value)) : Except FeedFault (List Value) :=
  match present? es "aggregations" with
  | none => .ok []
  | some (.list vs) => .ok vs
  | some _ => reject table ("Measure '" ++ source ++ "': aggregations must be a list.")

/-- The formulas named in a measure. -/
def formulas (table source : String) (es : List (String × Value)) :
    Except FeedFault (List (String × Value)) :=
  match present? es "formula" with
  | none => .ok []
  | some (.object fs) => .ok fs
  | some _ => reject table
    ("Measure '" ++ source ++ "': formula must be a mapping of alias -> definition.")

/-- What has a text for an alias. -/
def withTextAlias {α : Type} (items : List (Value × α)) : List α :=
  (items.filter fun e => e.1.isText).map (·.2)

/-- Reads a measure, and all its entries with their aliases as they are given. -/
def measure (table source : String) (v : Value) :
    Except FeedFault (Measure × List (Value × Entry)) := do
  let es ← entriesOf table ("Measure '" ++ source ++ "'") v
  let aggregations ← listed table source es
  let formulas ← formulas table source es
  let aggregations ← aggregations.mapM (aggregation table source)
  let formulas ← formulas.mapM fun (aliasName, f) => formula table source aliasName f
  let entries := aggregations.map (fun (name, a) => (name, Entry.aggregation a)) ++
    formulas.map fun f => (.text f.aliasName, .formula f)
  let described := describe es
  return (⟨source, described, withTextAlias aggregations, formulas⟩, entries)

/-- Reads the catalog of a table. -/
def catalog (table : String) (es : List (String × Value)) : Except FeedFault LooseCatalog := do
  let fields ← (← entriesOf table "fields" (es.lookup "fields")).mapM fun (name, f) => do
    field name (← entriesOf table ("Field '" ++ name ++ "'") f)
  let dimensions ← (← entriesOf table "dimensions" (es.lookup "dimensions")).mapM fun (source, d) => do
    return dimension source (← entriesOf table ("Dimension '" ++ source ++ "'") d)
  let measures ← (← entriesOf table "measures" (es.lookup "measures")).mapM fun (source, m) =>
    measure table source m
  let entries := measures.flatMap (·.2)
  match (dimensions.map (·.1) ++ entries.map (·.1)).find? fun v => !v.isKey with
  | some v => throw (.aliasNotAKey v.kindName)
  | none =>
    return {
      catalog := {
        table
        description := describe es
        fields
        dimensions := withTextAlias dimensions
        measures := measures.map (·.1) }
      dimensions := firstByKey (dimensions.map fun (name, d) => (name, d.definition))
      measures := firstByKey (entries.map fun (name, e) => (name, e.sql)) }

end Feed

/-- Reads a loose catalog from its feed. -/
def LooseCatalog.ofFeed : Value → Except FeedFault LooseCatalog
  | .object es =>
    let missing := "Catalog must be a mapping with a 'table' key."
    match es.lookup "table" with
    | none => Feed.reject "?" missing
    | some table =>
      if table.truth then Feed.catalog table.display es else Feed.reject table.display missing
  | _ => Feed.reject "?" "Catalog must be a mapping with a 'table' key."

/-- Reads a catalog from its feed. -/
def Catalog.ofFeed (feed : Value) : Except FeedFault Catalog :=
  (LooseCatalog.ofFeed feed).bind fun l =>
    match l.foreignKind? with
    | some kind => .error (.aliasNotText kind)
    | none => .ok l.catalog

/-- What a registry is given to register: a catalog, or a feed. -/
inductive Offer where
  | catalog (c : Catalog)
  | feed (feed : Value)
deriving Repr

/-- Reads the catalog that is offered; only a mapping is a feed. -/
def Offer.read : Offer → Except FeedFault Catalog
  | .catalog c => .ok c
  | .feed (.object es) => Catalog.ofFeed (.object es)
  | .feed v => .error (.notACatalog v.kindName)

/-- Registers what is offered: its catalog, and the registry that has it. -/
def Registry.accept (r : Registry) (o : Offer) : Except FeedFault (Catalog × Registry) := do
  let c ← o.read
  let s ← (r.register c).mapError .rejected
  return (c, s)

end MetricLayer
