import MetricLayer.Catalog.Loose
import MetricLayer.Chart.Build
import MetricLayer.Generation.Plan
import MetricLayer.Run.Attempt

/-!
# Work with loose catalogs

What is done with a catalog can be done with a loose one as long as no look-up is a fault.  Each
operation here names the look-ups that it makes and is otherwise the operation on the catalog of the
text aliases; guidance and plans look at every alias.
-/

namespace MetricLayer

open MetricLayer.Text MetricLayer.Sql

namespace LooseCatalog

/-- What prompts show. -/
def listing (l : LooseCatalog) : Prompt.Listing where
  table := l.catalog.table
  description := l.catalog.description
  dimensions := l.dimensions.map fun e => (e.1.display, e.2)
  measures := l.measures.map fun e => (e.1.display, e.2)

/-! ## Statements -/

/-- The select items of a statement. -/
def itemsOf (l : LooseCatalog) (sql : String) : List SelectItem :=
  match clauses? (statement sql.toList) with
  | none => []
  | some clauses => selectItems l.catalog (clauseText .select clauses)

/-- Fails with a fault, if there is one. -/
def guardFault {ε : Type} (wrap : ContentFault → ε) (f : Option ContentFault) : Except ε Unit :=
  match f with
  | some f => .error (wrap f)
  | none => .ok ()

/-- The fault of the names that reading a statement looks up. -/
def readingFault? (l : LooseCatalog) (items : List SelectItem) : Option ContentFault :=
  (items.filter SelectItem.isLookedUp).findSome? fun i => l.entryFault? i.outputName

/-- Reads a statement without checking it. -/
def query? (l : LooseCatalog) (sql : String) : Except Breakage (Option Query) := do
  guardFault .content (l.readingFault? (l.itemsOf sql))
  (Query.read? l.catalog sql).mapError .numeralTooLong

/-- The guidance for findings. -/
def guidance (l : LooseCatalog) (findings : List Review.Finding) : Except ContentFault String := do
  guardFault id (if findings.isEmpty then none else l.aliasFault?)
  return Review.guidance l.catalog findings

/-- Checks a statement and writes the guidance for its findings. -/
def review (l : LooseCatalog) (sql : String) : Except Breakage (Review × String) := do
  let items := l.itemsOf sql
  let computed := items.filter fun i => Review.isComputed i.expression.toList
  guardFault .content (l.readingFault? items)
  guardFault .content ((computed.filterMap (·.aliasName)).findSome? l.entryFault?)
  let reviewed ← (MetricLayer.review l.catalog sql).mapError .numeralTooLong
  return (reviewed, ← (l.guidance reviewed.findings).mapError .content)

/-! ## Selections -/

/-- Why a selection has no statement. -/
inductive SelectionFault where
  | content (f : ContentFault)
  | notCompiled (f : CompileFault)
deriving Repr, DecidableEq

/-- The SQL of a selection. -/
def sqlOf (l : LooseCatalog) (s : Selection) : Except SelectionFault String := do
  for name in s.dimensions do
    guardFault .content (l.dimensionFault? name)
    let _ ← (Selection.dimensionItem l.catalog name).mapError .notCompiled
  for name in s.measures do
    guardFault .content (l.entryFault? name)
    let _ ← (Selection.measureItem l.catalog name).mapError .notCompiled
  (s.sql l.catalog).mapError .notCompiled

/-- Why a request has no plan. -/
inductive PlanFault where
  | content (f : ContentFault)
  | notPlanned (f : Plan.Fault)
deriving Repr, DecidableEq

/-- The plan for a request. -/
def plan (l : LooseCatalog) (request : String) : Except PlanFault (Option Selection) := do
  guardFault .content l.aliasFault?
  (Plan.ofRequest l.catalog request).mapError .notPlanned

/-- The reply to a prompt: the statement of the plan for its request. -/
def planReply (l : LooseCatalog) (prompt : String) : Except PlanFault String := do
  guardFault .content l.aliasFault?
  (Plan.reply l.catalog prompt).mapError .notPlanned

/-! ## Categories and charts -/

/-- The category of a dimension. -/
def category (l : Option LooseCatalog) (name : String) : Except ContentFault DimensionCategory := do
  let c := l.map LooseCatalog.catalog
  guardFault id (l.bind fun l => l.dimensionFault? name)
  guardFault id (categoryFault? c name)
  return dimensionCategory c name

/-- The fault of the first dimensions of a result up to a temporal one. -/
def orderFault? (l : LooseCatalog) : List String → Option ContentFault
  | [] => none
  | name :: names =>
    match category (some l) name with
    | .error f => some f
    | .ok .temporal => none
    | .ok _ => l.orderFault? names

/-- The statement in temporal order. -/
def temporalOrder (l : LooseCatalog) (sql : String) : Except Breakage String := do
  let query ← l.query? sql
  let dimensions := ((query.filter fun q => q.ordering.isEmpty).map Query.dimensions).getD []
  guardFault .content (l.orderFault? dimensions)
  return MetricLayer.temporalOrder l.catalog sql query

/-- Classifies a result. -/
def classify (l : Option LooseCatalog) (dimensions measures : List String) :
    Except ContentFault Classification := do
  for name in dimensions do
    let _ ← category l name
  return Classification.of (l.map LooseCatalog.catalog) dimensions measures

/-- The measures of a classified result can be looked up. -/
def checkMeasures (l : Option LooseCatalog) (v : Classification) : Except ContentFault Unit :=
  guardFault id (l.bind fun l => v.measures.findSome? l.entryFault?)

end LooseCatalog

end MetricLayer
