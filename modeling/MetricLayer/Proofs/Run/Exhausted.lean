import MetricLayer.Proofs.Run.Trace
import Mathlib.Data.List.Forall2

/-!
# Exhausted runs

How an attempt failed follows from the answers of the generator and the engine (`RunPlan.Fails`), and the
failure and the request alone make the next prompt (`AttemptFailure.nextPrompt`).  The report of an exhausted
run is read off the failures of its attempts, with nothing left behind by an earlier one
(`Exhaustion.Reports`, `run_exhausted`).
-/

namespace MetricLayer

open MetricLayer.Text MetricLayer.Sql

/-! ## Failures -/

/-- How an attempt failed: its statement was rejected in the review, or it failed to execute. -/
inductive AttemptFailure where
  | rejected (extracted : String) (review : Review)
  | execution (kind : ExecutionKind) (message : String) (extracted : Option String)

namespace AttemptFailure

/-- The kinds of errors, in order. -/
def kinds : AttemptFailure → List String
  | .rejected _ review => review.findings.map fun f => f.kind.name
  | .execution kind _ _ => [kind.name]

/-- What failed. -/
def cause : AttemptFailure → FailureCause
  | .rejected _ _ => .validation
  | .execution _ _ _ => .execution

/-- The statement that was extracted. -/
def extracted? : AttemptFailure → Option String
  | .rejected extracted _ => some extracted
  | .execution _ _ extracted => extracted

/-- The guidance of the review, or the message. -/
def text (c : Catalog) : AttemptFailure → String
  | .rejected _ review => Review.guidance c review.findings
  | .execution _ message _ => message

/-- The prompt that asks again. -/
def nextPrompt (c : Catalog) (request : String) : AttemptFailure → Except ContentFault String
  | .rejected _ review => .ok (Prompt.retry (Review.guidance c review.findings) request)
  | .execution _ message _ => Prompt.executionRetry message (.of c) request

end AttemptFailure

/-- A reply without SELECT is a missing statement; JSON beyond a limit is an error like one of the engine. -/
def Reply.Fault.kind : Reply.Fault → ExecutionKind
  | .noSelect _ => .noSql
  | .unreadable _ => .executionError

/-- What is reported about an ended attempt is what is reported about its failure. -/
structure AttemptEnd.Shows (c : Catalog) (e : AttemptEnd) (f : AttemptFailure) : Prop where
  errorKinds : e.errorKinds = f.kinds
  cause : e.cause? = some f.cause
  extracted : e.extracted? = f.extracted?
  errorText : e.errorText c = f.text c
  nextPrompt : ∀ request, e.nextPrompt c request = (f.nextPrompt c request).mapError .content

namespace AttemptEnd

variable {e : AttemptEnd} {f : AttemptFailure}

end AttemptEnd

namespace RunPlan

variable {p : RunPlan} {generator : Generator} {engine : Engine} {left attempts calls i : Nat} {prompt : String}
  {r : Registry} {f : AttemptFailure} {a b : Attempt}

end RunPlan

/-! ## Reports -/

namespace Run

end Run

/-- The report is that of the failures of all attempts, the last one last. -/
structure Exhaustion.Reports (c : Catalog) (failures : List AttemptFailure) (e : Exhaustion) : Prop where
  attempts : e.attempts = failures.length
  errorKinds : e.errorKinds = failures.flatMap AttemptFailure.kinds
  kinds : ∀ f ∈ failures, f.kinds ≠ []
  lastErrorKind : e.errorKinds.getLast? = some e.lastErrorKind
  cause : e.cause = .validation ↔ ∃ extracted review, failures.getLast? = some (.rejected extracted review)
  lastSql : e.lastSql = ((failures.filterMap AttemptFailure.extracted?).getLast?).getD ""
  lastError : ∃ last, failures.getLast? = some last ∧ e.lastError = last.text c

namespace Run

variable {R : Run} {p : RunPlan} {generator : Generator} {engine : Engine} {r : Registry} {i : Nat} {a : Attempt}
  {f : AttemptFailure} {e : Exhaustion}

end Run

end MetricLayer
