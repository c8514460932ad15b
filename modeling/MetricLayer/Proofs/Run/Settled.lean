import MetricLayer.Engine.Connection
import MetricLayer.Proofs.Engine.Sanitize
import MetricLayer.Proofs.Run.Guarded

/-!
# Rows that are sanitized twice

The rows of a connection are sanitized where they are fetched, and once more where a run succeeds with them.  The
second time leaves them as they are, unless bytes among them write an integer beyond the safe ones
(`settled_iff_and_kept_iff`).
-/

namespace MetricLayer

/-- The rows that an engine answers with are those of a connection. -/
def Engine.AnswersFrom (engine : Engine) (connection : Connection) : Prop :=
  ∀ calls sql r rows, (engine.execute calls sql r).1 = .ok rows → connection.execute sql = .ok rows

theorem Connection.of_execute_eq_ok {connection : Connection} {sql : String} {rows : List Row}
    (h : connection.execute sql = .ok rows) :
    ∃ fetched, Connection.rows sql (connection.answer sql) = .ok fetched ∧ sanitizeRows fetched = .ok rows := by
  rw [execute] at h
  cases hfetched : Connection.rows sql (connection.answer sql) with
  | error => rw [hfetched] at h; cases h
  | ok fetched =>
    rw [hfetched] at h
    refine ⟨fetched, rfl, ?_⟩
    cases hrows : sanitizeRows fetched with
    | error =>
      replace h : (sanitizeRows fetched).mapError ExecutionFault.notSanitized = .ok rows := h
      rw [hrows] at h
      cases h
    | ok sanitized =>
      replace h : (sanitizeRows fetched).mapError ExecutionFault.notSanitized = .ok rows := h
      rw [hrows] at h
      cases h
      rfl

/-- A success answers with the rows of its engine, sanitized once more. -/
theorem Run.exists_answer_of_success {request table : String} {r : Registry} {generator : Generator}
    {engine : Engine} {strategy : Option String} {maxAttempts : Option Int} {R : Run} {q : ResolvedQuery}
    {rows : List Row} (h : run request table r generator engine strategy maxAttempts = .ok R)
    (hsuccess : R.outcome = .ok (.success q rows)) :
    ∃ calls before answered, (engine.execute calls q.sql before).1 = .ok answered ∧
      sanitizeRows answered = .ok rows := by
  obtain ⟨s, g, -, -, rfl⟩ := Run.of_run_eq_ok h
  obtain ⟨as, a, answered, -, -, hcalls, hrows, -⟩ := (Run.guarded_run _ _ _ _).success q rows hsuccess
  obtain ⟨before, after, -, -, -, -, -, -, -, hanswer⟩ := hcalls.origin
  exact ⟨_, before, answered, by rw [hanswer], hrows⟩

/-- **What has been sanitized is settled, and the rows of a connection come out of a run as they were fetched**,
exactly unless bytes write an integer beyond the safe ones. -/
theorem settled_iff_and_kept_iff {connection : Connection} {engine : Engine}
    (hengine : engine.AnswersFrom connection) :
    (∀ v w : Value, v.sanitize = .ok w → (w.IsSettled ↔ ¬ v.IsOversized)) ∧
      ∀ (request table : String) (r : Registry) (generator : Generator) (strategy : Option String)
        (maxAttempts : Option Int) (R : Run) (q : ResolvedQuery) (rows : List Row),
        run request table r generator engine strategy maxAttempts = .ok R →
        R.outcome = .ok (.success q rows) →
        ∃ fetched answered, Connection.rows q.sql (connection.answer q.sql) = .ok fetched ∧
          connection.execute q.sql = .ok answered ∧ sanitizeRows answered = .ok rows ∧
          (rows = answered ↔ HaveNoOversized fetched) := by
  refine ⟨fun v w => Value.isSettled_iff_of_sanitize, ?_⟩
  intro request table r generator strategy maxAttempts R q rows hrun hsuccess
  obtain ⟨calls, before, answered, hanswer, hrows⟩ := Run.exists_answer_of_success hrun hsuccess
  have hexecute : connection.execute q.sql = .ok answered := hengine calls q.sql before answered hanswer
  obtain ⟨fetched, hfetched, hsanitized⟩ := Connection.of_execute_eq_ok hexecute
  refine ⟨fetched, answered, hfetched, hexecute, hrows, ?_⟩
  rw [← sanitizeRows_self_iff hsanitized, hrows]
  exact ⟨congrArg Except.ok, Except.ok.inj⟩

/-- A database that writes its counts as bytes. -/
def countConnection : Connection where
  answer := fun _ => .table ["user_count"] [[.bytes [2]]]

theorem answersFrom_countConnection : countEngine.AnswersFrom countConnection := by
  intro calls sql r rows hrows
  cases hrows
  rfl

theorem settled_iff_and_kept_iff_countPlan :
    countEngine.AnswersFrom countConnection ∧
      ∃ R q rows, run countPlan.request "users" .bundled countGenerator countEngine (some "strict") none = .ok R ∧
        R.outcome = .ok (.success q rows) ∧ countConnection.execute q.sql = .ok rows := by
  have hrun : run countPlan.request "users" .bundled countGenerator countEngine (some "strict") none =
      .ok (countPlan.run countGenerator countEngine .bundled) := rfl
  have hbudget : countPlan.budget = 2 + 1 := rfl
  have hsuccess : (countPlan.run countGenerator countEngine .bundled).outcome =
      .ok (.success (.of countPlan countStatement (some countQuery)) [[("user_count", .int 2)]]) := by
    rw [RunPlan.run, hbudget, RunPlan.attemptsFrom, attempt_countPlan]
    rfl
  obtain ⟨fetched, answered, hfetched, hexecute, -, hkept⟩ :=
    (settled_iff_and_kept_iff answersFrom_countConnection).2 _ _ _ _ _ _ _ _ _ hrun hsuccess
  have hsmall : HaveNoOversized fetched := by
    cases hfetched
    decide
  exact ⟨answersFrom_countConnection, _, _, _, hrun, hsuccess, by rw [hexecute, hkept.mpr hsmall]⟩

/-- Eight bytes write an integer that is too large, and that a second time makes a floating-point number. -/
theorem not_forall_isSettled : ¬ ∀ v w : Value, v.sanitize = .ok w → w.IsSettled := by
  intro h
  have hsettled := h (.bytes (List.replicate 8 255)) (.int 18446744073709551615) rfl
  exact absurd (hsettled.safe _ rfl) (by decide)

end MetricLayer
