import MetricLayer.Chart.Build
import MetricLayer.Run.Generators
import MetricLayer.Run.Report

/-!
# Answers

`ask` runs a request, and `Run.answer` is the answer: the rows with a chart of them and its
alternatives, or what is known when the run is exhausted.
-/

namespace MetricLayer

/-- The drawn result of a run. -/
structure Drawing where
  classification : Classification
  chart : Chart
  alternatives : List Chart
deriving Repr

/-- The answer to a request. -/
structure Answer where
  request : String
  table : String
  sql : String
  rows : List Row
  drawing : Option Drawing
  metrics : Metrics
  exhaustion : Option Exhaustion
deriving Repr

/-- The request was answered with rows. -/
def Answer.isSuccess (a : Answer) : Bool :=
  a.exhaustion.isNone

/-- Why a run makes no answer. -/
inductive AnswerFault where
  | noOutcome (f : OutcomeFault)
  | notClassified (f : ContentFault)
  | notDrawn (f : PivotFault)
deriving Repr

/-- Draws the rows of a resolved query. -/
def drawRows (c : Catalog) (q : ResolvedQuery) (rows : List Row) : Except AnswerFault Drawing := do
  let v ← (Classification.of? (some c) q.dimensions q.measures).mapError .notClassified
  let chart ← (Chart.build v rows (some c) none none).mapError .notDrawn
  let alternatives ← (Chart.alternatives v rows (some c)).mapError .notDrawn
  return ⟨v, chart, alternatives⟩

/-- The answer of a finished run. -/
def Run.answer (r : Run) (table : String) : Except AnswerFault Answer := do
  match ← r.outcome.mapError .noOutcome with
  | .exhausted e =>
    return ⟨r.plan.request, table, e.lastSql, [], none, r.metrics, some e⟩
  | .success q rows =>
    let drawing ← drawRows r.plan.catalog q rows
    return ⟨r.plan.request, table, q.sql, rows, some drawing, r.metrics, none⟩

/-- The run that answers a request, with a generator of the caller or, without one, that of the
deployment. -/
def ask (request table : String) (r : Registry) (settings : ModelSettings) (service : Service)
    (generator : Option Generator) (engine : Engine) (strategy : Option String) :
    Except RunFault Run := do
  let g ← (r.snapshot table).mapError .notRegistered
  let deployed := Generator.ofChoice g.catalog settings service (settings.generatorChoice none)
  run request table r (generator.getD deployed) engine strategy none

end MetricLayer
