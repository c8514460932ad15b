/-!
# Failures

What a generator or an engine may fail with.  An execution failure is the expected kind and keeps
the statement; any other failure is known by its kind and its message.
-/

namespace MetricLayer

/-- A failure of a generator or an engine. -/
inductive Failure where
  | execution (message sql : String)
  | raised (kind message : String)
deriving Repr, DecidableEq, Inhabited

/-- The message of a failure. -/
def Failure.message : Failure → String
  | .execution m _ => m
  | .raised _ m => m

end MetricLayer
