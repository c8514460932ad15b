import MetricLayer.Engine.Sanitize
import MetricLayer.Run.Basic

/-!
# Reports of runs

A finished run either succeeded with the rows of its last attempt or is exhausted.  `Run.outcome`
says which, unless the run was broken off or its rows cannot be sanitized; `Run.metrics` counts and
traces.  Both are read off the attempts.
-/

namespace MetricLayer

/-- The states a run passes through. -/
inductive RunState where
  | generating
  | validating
  | executing
  | retrying
  | success
  | failed
deriving Repr, DecidableEq

/-- The name of a state. -/
def RunState.name : RunState → String
  | .generating => "generating"
  | .validating => "validating"
  | .executing => "executing"
  | .retrying => "retrying"
  | .success => "success"
  | .failed => "failed"

/-- The states of an attempt. -/
def AttemptEnd.states (validates : Bool) (e : AttemptEnd) : List RunState :=
  [.generating] ++
    (if validates && e.extracted?.isSome then [.validating] else []) ++
    (if e.reviewed?.isSome then [.executing] else [])

/-- The first attempt was right about its statement: it was accepted in the review or, without one,
executed. -/
def AttemptEnd.initiallyValid (validates : Bool) : AttemptEnd → Bool
  | .blocked .. => validates
  | .engineFailed .. => validates
  | .succeeded .. => true
  | _ => false

/-- Counts and traces of a run. -/
structure Metrics where
  attemptCount : Nat
  validationUsed : Bool
  initialValid : Option Bool
  finalValid : Bool
  errorKinds : List String
  executionError : Option String
  catalogVersion : Nat
  states : List RunState
deriving Repr, DecidableEq

/-- The query that a run resolved its request to. -/
structure ResolvedQuery where
  table : String
  sql : String
  dimensions : List String
  measures : List String
  filters : List String
  ordering : List String
  limit : Option Nat
  catalogVersion : Nat
deriving Repr, DecidableEq

/-- What is known when all attempts failed. -/
structure Exhaustion where
  attempts : Nat
  cause : FailureCause
  lastErrorKind : String
  errorKinds : List String
  lastSql : String
  lastError : String
deriving Repr, DecidableEq

/-- The message after so many failed attempts. -/
def exhaustionMessage (attempts : Int) (cause lastErrorKind : String) : String :=
  "SQL generation failed after " ++ toString attempts ++ " attempt(s) (" ++ cause ++
    " failure, last error: " ++ lastErrorKind ++
    "). Try again with a more capable generation backend."

/-- The wording of an exhaustion. -/
def Exhaustion.message (e : Exhaustion) : String :=
  exhaustionMessage e.attempts e.cause.name e.lastErrorKind

/-- How a run ended. -/
inductive RunOutcome where
  | success (query : ResolvedQuery) (rows : List Row)
  | exhausted (e : Exhaustion)
deriving Repr

/-- Why a run has no outcome. -/
inductive OutcomeFault where
  | notSanitized (f : SanitizeFault)
  | brokenOff (b : Breakage)
deriving Repr, DecidableEq

/-- The query of an executed statement; without one it is known by its text alone. -/
def ResolvedQuery.of (p : RunPlan) (sql : String) (query : Option Sql.Query) : ResolvedQuery :=
  match query with
  | none => ⟨p.catalog.table, sql, [], [], [], [], none, p.version⟩
  | some q => ⟨q.table, sql, q.dimensions, q.measures, q.filters, q.ordering, q.limit, p.version⟩

namespace Run

/-- The prompts the generator got. -/
def prompts (r : Run) : List String :=
  r.attempts.map Attempt.prompt

/-- The endings of the attempts. -/
def endings (r : Run) : List AttemptEnd :=
  r.attempts.map Attempt.ending

/-- The statements the engine got. -/
def executed (r : Run) : List String :=
  r.endings.filterMap AttemptEnd.executed?

/-- The last attempt succeeded. -/
def isSuccess (r : Run) : Bool :=
  r.endings.getLast?.any AttemptEnd.isSuccess

/-- The kinds of all errors, in order. -/
def errorKinds (r : Run) : List String :=
  r.endings.flatMap AttemptEnd.errorKinds

/-- The states the run passed through. -/
def states (r : Run) : List RunState :=
  List.intercalate [.retrying] (r.endings.map fun e => e.states r.plan.validates) ++
    [if r.isSuccess then .success else .failed]

/-- The counts and traces of the run. -/
def metrics (r : Run) : Metrics where
  attemptCount := r.attempts.length
  validationUsed := r.plan.validates
  initialValid := r.endings.head?.map fun e => e.initiallyValid r.plan.validates
  finalValid := r.isSuccess
  errorKinds := r.errorKinds
  executionError := (r.endings.filterMap AttemptEnd.executionFailure?).getLast?.map (·.2)
  catalogVersion := r.plan.version
  states := r.states

/-- What is known when all attempts failed; the last one is given. -/
def exhaustion (r : Run) (last : AttemptEnd) : Exhaustion where
  attempts := r.attempts.length
  cause := last.cause?.getD .execution
  lastErrorKind := last.errorKinds.getLast?.getD ""
  errorKinds := r.errorKinds
  lastSql := (r.endings.filterMap AttemptEnd.extracted?).getLast?.getD ""
  lastError := last.errorText r.plan.catalog

/-- How the run ended. -/
def outcome (r : Run) : Except OutcomeFault RunOutcome :=
  match r.endings.getLast? with
  | some (.brokenOff _ b) => .error (.brokenOff b)
  | some (.succeeded _ sql query rows) =>
    ((sanitizeRows rows).mapError .notSanitized).map fun rows =>
      .success (.of r.plan sql query) rows
  | some last => .ok (.exhausted (r.exhaustion last))
  | none => .ok (.exhausted ⟨0, .execution, "", [], "", ""⟩)

end Run

end MetricLayer
