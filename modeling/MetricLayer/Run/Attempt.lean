import MetricLayer.Engine.Failure
import MetricLayer.Generation.Prompt
import MetricLayer.Generation.Reply
import MetricLayer.Review.Check
import MetricLayer.Run.Ordering
import MetricLayer.Safety

/-!
# Attempts

An attempt asks a generator for a statement, reviews it, passes it through the safety gate and lets
an engine execute it.  `Attempt` records the prompt and how the attempt ended; what is reported about
it, and the prompt of the next attempt, are functions of this record.
-/

namespace MetricLayer

open MetricLayer.Text

/-- What breaks a run off, so that no attempt follows: a numeral that cannot be read, or a part of
the catalog that is no text. -/
inductive Breakage where
  | numeralTooLong (f : NumeralTooLong)
  | content (f : ContentFault)
deriving Repr, DecidableEq

/-- How an attempt ended.  An extracted statement may have been ordered by time since.  Of an attempt
that broke the run off only the executed statement is kept. -/
inductive AttemptEnd where
  | generatorFailed (f : Failure)
  | notExtracted (f : Reply.Fault)
  | rejected (extracted : String) (review : Review)
  | blocked (extracted sql : String) (violations : List Safety.Violation)
  | engineFailed (extracted sql : String) (f : Failure)
  | succeeded (extracted sql : String) (query : Option Sql.Query) (rows : List Row)
  | brokenOff (executed : Option String) (b : Breakage)
deriving Repr

/-- A prompt with what became of it. -/
structure Attempt where
  prompt : String
  ending : AttemptEnd
deriving Repr

/-- The kinds of failures to execute. -/
inductive ExecutionKind where
  | noSql
  | blockedSql
  | executionError
deriving Repr, DecidableEq

/-- The name of a kind of failure. -/
def ExecutionKind.name : ExecutionKind → String
  | .noSql => "no_sql"
  | .blockedSql => "unsafe_sql"
  | .executionError => "execution_error"

/-- What a failed attempt failed at. -/
inductive FailureCause where
  | validation
  | execution
deriving Repr, DecidableEq

/-- The name of a cause. -/
def FailureCause.name : FailureCause → String
  | .validation => "validation"
  | .execution => "execution"

/-- The message for a statement that the safety gate keeps back. -/
def blockedMessage (violations : List String) : String :=
  "Unsafe SQL: " ++ joinWith " " violations

namespace AttemptEnd

/-- The attempt ended in rows. -/
def isSuccess : AttemptEnd → Bool
  | .succeeded .. => true
  | _ => false

/-- The statement that was extracted from the reply. -/
def extracted? : AttemptEnd → Option String
  | .generatorFailed _ => none
  | .notExtracted _ => none
  | .rejected sql _ => some sql
  | .blocked sql _ _ => some sql
  | .engineFailed sql _ _ => some sql
  | .succeeded sql _ _ _ => some sql
  | .brokenOff _ _ => none

/-- The statement that passed the review. -/
def reviewed? : AttemptEnd → Option String
  | .blocked _ sql _ => some sql
  | .engineFailed _ sql _ => some sql
  | .succeeded _ sql _ _ => some sql
  | _ => none

/-- The statement that the engine executed. -/
def executed? : AttemptEnd → Option String
  | .engineFailed _ sql _ => some sql
  | .succeeded _ sql _ _ => some sql
  | .brokenOff sql _ => sql
  | _ => none

/-- The failure to execute, with its message; a rejection is none. -/
def executionFailure? : AttemptEnd → Option (ExecutionKind × String)
  | .generatorFailed (.execution m _) => some (.noSql, m)
  | .generatorFailed (.raised _ m) => some (.executionError, m)
  | .notExtracted (.noSelect s) => some (.noSql, (Reply.Fault.noSelect s).message)
  | .notExtracted (.unreadable l) => some (.executionError, l.message)
  | .rejected _ _ => none
  | .blocked _ _ vs => some (.blockedSql, blockedMessage (vs.map Safety.Violation.message))
  | .engineFailed _ _ f => some (.executionError, f.message)
  | .succeeded .. => none
  | .brokenOff _ _ => none

/-- The kinds of errors of the attempt, in order. -/
def errorKinds (e : AttemptEnd) : List String :=
  match e with
  | .rejected _ review => review.findings.map fun f => f.kind.name
  | _ => (e.executionFailure?.map fun f => f.1.name).toList

/-- What the attempt failed at. -/
def cause? : AttemptEnd → Option FailureCause
  | .succeeded .. => none
  | .brokenOff _ _ => none
  | .rejected _ _ => some .validation
  | _ => some .execution

/-- What is said about the failure: the guidance for a rejected statement, or the message. -/
def errorText (c : Catalog) (e : AttemptEnd) : String :=
  match e with
  | .rejected _ review => Review.guidance c review.findings
  | _ => (e.executionFailure?.map (·.2)).getD ""

/-- The prompt of the next attempt, unless the run is broken off. -/
def nextPrompt (c : Catalog) (request : String) (e : AttemptEnd) : Except Breakage String :=
  match e with
  | .brokenOff _ b => .error b
  | .rejected _ _ => .ok (Prompt.retry (e.errorText c) request)
  | _ => (Prompt.executionRetry (e.errorText c) (.of c) request).mapError .content

end AttemptEnd

end MetricLayer
