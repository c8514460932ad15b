import MetricLayer.Catalog.Basic
import MetricLayer.Value.Key

/-!
# Loose catalogs

The aliases of a feed may be any values that are keys, such as numbers.  An alias that is no text can
be shown but stands for nothing: no name equals it, and a look-up that has to compare a name with it
ignoring letter case is a fault.  A loose catalog keeps such aliases apart from the catalog of the
others, and `dimensionFault?` and `entryFault?` tell which look-ups are faults.
-/

namespace MetricLayer

open MetricLayer.Text

/-- A catalog with all aliases of its feed, those that are no texts included.  `catalog` holds what
has a text for an alias. -/
structure LooseCatalog where
  catalog : Catalog
  dimensions : List (Value × Value)
  measures : List (Value × String)
deriving Repr, Inhabited

/-- Two aliases are the same. -/
def sameAlias {α : Type} (a b : Value × α) : Bool :=
  a.1.sameKey b.1

/-- The entries whose alias no earlier entry has. -/
def firstByKey {α : Type} : List (Value × α) → List (Value × α)
  | [] => []
  | e :: es => e :: (firstByKey es).filter fun f => !sameAlias e f

/-- The kind of an alias that is no text. -/
def foreignKind? (v : Value) : Option String :=
  if v.isText then none else some v.kindName

/-- The fault of looking a name up among aliases: an alias that is no text comes before the first one
that equals the name ignoring letter case, and none is the name as written. -/
def lookupFault? {α : Type} (entries : List (Value × α)) (name : String) : Option ContentFault :=
  let isName : Value → Bool
    | .text s => s == name
    | _ => false
  let ends : Value → Bool
    | .text s => sameLower s name
    | _ => true
  if entries.any fun e => isName e.1 then none
  else ((entries.find? fun e => ends e.1).bind fun e => foreignKind? e.1).map .aliasNotText

namespace LooseCatalog

/-- A catalog whose aliases are texts. -/
def ofCatalog (c : Catalog) : LooseCatalog where
  catalog := c
  dimensions := c.namedDimensions.map fun d => (.text d.aliasName, d.definition)
  measures := c.namedEntries.map fun e => (.text e.aliasName, e.sql)

/-- The kind of the first alias that is no text. -/
def foreignKind? (l : LooseCatalog) : Option String :=
  (l.dimensions.map (·.1) ++ l.measures.map (·.1)).findSome? MetricLayer.foreignKind?

/-- The fault of looking up a dimension. -/
def dimensionFault? (l : LooseCatalog) (name : String) : Option ContentFault :=
  lookupFault? l.dimensions name

/-- The fault of looking up a measure. -/
def entryFault? (l : LooseCatalog) (name : String) : Option ContentFault :=
  lookupFault? l.measures name

/-- The dimension an alias stands for. -/
def dimension? (l : LooseCatalog) (name : String) : Except ContentFault (Option Dimension) :=
  (l.dimensionFault? name).elim (.ok (l.catalog.dimension? name)) .error

/-- The entry an alias stands for. -/
def entry? (l : LooseCatalog) (name : String) : Except ContentFault (Option Entry) :=
  (l.entryFault? name).elim (.ok (l.catalog.entry? name)) .error

/-- The name is an alias: of a dimension, or else of a measure. -/
def isAlias (l : LooseCatalog) (name : String) : Except ContentFault Bool := do
  match ← l.dimension? name with
  | some _ => return true
  | none => return (← l.entry? name).isSome

/-- The fault of comparing every alias with names ignoring letter case. -/
def aliasFault? (l : LooseCatalog) : Option ContentFault :=
  l.foreignKind?.map .aliasNotText

/-- The catalog, if all of its aliases are texts. -/
def strict (l : LooseCatalog) : Except ContentFault Catalog :=
  l.aliasFault?.elim (.ok l.catalog) .error

end LooseCatalog

end MetricLayer
