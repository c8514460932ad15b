import MetricLayer.Run.Answer

/-!
# Runs while catalogs are replaced

A run reads the registry once, when it starts.  Whatever is done to the registry while a generator or an engine
is awaited, the prompts, the executed statements, the metrics, the outcome and the answer stay the same
(`run_isolated`).
-/

namespace MetricLayer

/-! ## Generators and engines that answer alike -/

/-- The generators reply alike, whatever the registries they are called with. -/
structure Generator.Agrees (g h : Generator) : Prop where
  requiresValidation : g.requiresValidation = h.requiresValidation
  reply : ∀ calls prompt r s, (g.complete calls prompt r).1 = (h.complete calls prompt s).1

/-- The engines answer alike, whatever the registries they are called with. -/
def Engine.Agrees (e f : Engine) : Prop :=
  ∀ calls sql r s, (e.execute calls sql r).1 = (f.execute calls sql s).1

theorem Generator.agrees_scripted (requires : Bool) (reply : Nat → String → Except Failure String)
    (meanwhile other : Nat → List Registry.Step) :
    (scripted requires reply meanwhile).Agrees (scripted requires reply other) :=
  ⟨rfl, fun _ _ _ _ => rfl⟩

theorem Engine.agrees_scripted (answer : Nat → String → Except Failure (List Row))
    (meanwhile other : Nat → List Registry.Step) :
    (scripted answer meanwhile).Agrees (scripted answer other) :=
  fun _ _ _ _ => rfl

variable {g h : Generator} {e f : Engine}

namespace RunPlan

variable {p : RunPlan}

theorem runStatement_of_agrees (he : e.Agrees f) (calls : Nat) (extracted : String) (r s : Registry) :
    (p.runStatement e calls extracted r).1 = (p.runStatement f calls extracted s).1 := by
  rw [runStatement, runStatement]
  cases p.vet extracted with
  | error b => rfl
  | ok v =>
    cases v with
    | rejected reviewed => rfl
    | ready sql query =>
      cases hgate : Safety.violations p.catalog sql with
      | cons violation violations => simp only [hgate]
      | nil =>
        have hrows := he calls sql r s
        rcases hr : e.execute calls sql r with ⟨rows, left⟩
        rcases hs : f.execute calls sql s with ⟨rows', right⟩
        obtain rfl : rows = rows' := by rwa [hr, hs] at hrows
        cases rows <;> simp only [hgate, hr, hs]

theorem attempt_of_agrees (hg : g.Agrees h) (he : e.Agrees f) (attempts calls : Nat) (prompt : String)
    (r s : Registry) :
    (p.attempt g e attempts calls prompt r).1 = (p.attempt h f attempts calls prompt s).1 := by
  have hreply := hg.reply attempts prompt r s
  rw [attempt, attempt]
  rcases hr : g.complete attempts prompt r with ⟨reply, left⟩
  rcases hs : h.complete attempts prompt s with ⟨reply', right⟩
  obtain rfl : reply = reply' := by rwa [hr, hs] at hreply
  cases reply with
  | error failure => rfl
  | ok reply =>
    cases hextracted : Reply.statement reply with
    | error fault => simp only [hextracted]
    | ok extracted =>
      simp only [hextracted]
      exact runStatement_of_agrees he calls extracted left right

/-- The registries may differ from attempt to attempt, so they are any two. -/
theorem attemptsFrom_of_agrees (hg : g.Agrees h) (he : e.Agrees f) (left attempts calls : Nat) (prompt : String)
    (r s : Registry) :
    (p.attemptsFrom g e left attempts calls prompt r).1 = (p.attemptsFrom h f left attempts calls prompt s).1 := by
  induction left generalizing attempts calls prompt r s with
  | zero => rfl
  | succ left ih =>
    have hending := attempt_of_agrees (p := p) hg he attempts calls prompt r s
    rw [attemptsFrom, attemptsFrom]
    rcases hr : p.attempt g e attempts calls prompt r with ⟨ending, r'⟩
    rcases hs : p.attempt h f attempts calls prompt s with ⟨ending', s'⟩
    obtain rfl : ending = ending' := by rwa [hr, hs] at hending
    simp only
    split
    next => rfl
    next =>
      cases hnext : ending.nextPrompt p.catalog p.request with
      | error b => rfl
      | ok next =>
        simp only
        rw [ih (attempts + 1) (calls + ending.executed?.toList.length) next r' s']

end RunPlan

/-! ## Runs -/

/-- What is known of a finished run and its answer; its registry is not. -/
structure RunReport where
  prompts : List String
  executed : List String
  metrics : Metrics
  outcome : Except OutcomeFault RunOutcome
  answer : Except AnswerFault Answer

/-- The report of a run on a table. -/
def Run.report (table : String) (r : Run) : RunReport where
  prompts := r.prompts
  executed := r.executed
  metrics := r.metrics
  outcome := r.outcome
  answer := r.answer table

theorem run_of_agrees (hg : g.Agrees h) (he : e.Agrees f) (request table : String) (r : Registry)
    (strategy : Option String) (maxAttempts : Option Int) :
    (run request table r g e strategy maxAttempts).map (Run.report table) =
      (run request table r h f strategy maxAttempts).map (Run.report table) := by
  rw [run, run, hg.requiresValidation]
  cases RunPlan.make request table r h.requiresValidation strategy maxAttempts with
  | error fault => rfl
  | ok p =>
    have hattempts := RunPlan.attemptsFrom_of_agrees (p := p) hg he p.budget 0 0 p.request r r
    have hreport (q : Generator) (d : Engine) : (p.run q d r).report table =
        Run.report table ⟨p, (p.attemptsFrom q d p.budget 0 0 p.request r).1, r⟩ :=
      rfl
    simp only [Except.map, hreport, hattempts]

/-- **Calls on the registry while a run waits change nothing about it**: not the prompts, the executed
statements, the metrics or the outcome, nor the classification and the charts of its answer. -/
theorem run_isolated (request table : String) (r : Registry) (settings : ModelSettings) (service : Service)
    (requiresValidation : Bool) (reply : Nat → String → Except Failure String)
    (rows : Nat → String → Except Failure (List Row)) (strategy : Option String) (maxAttempts : Option Int)
    (whileGenerating whileExecuting : Nat → List Registry.Step) :
    (run request table r (.scripted requiresValidation reply whileGenerating) (.scripted rows whileExecuting)
          strategy maxAttempts).map (Run.report table) =
        (run request table r (.scripted requiresValidation reply fun _ => []) (.scripted rows fun _ => [])
          strategy maxAttempts).map (Run.report table) ∧
      (ask request table r settings service (some (.scripted requiresValidation reply whileGenerating))
          (.scripted rows whileExecuting) strategy).map (Run.report table) =
        (ask request table r settings service (some (.scripted requiresValidation reply fun _ => []))
          (.scripted rows fun _ => []) strategy).map (Run.report table) := by
  have hgenerators := Generator.agrees_scripted requiresValidation reply whileGenerating fun _ => []
  have hengines := Engine.agrees_scripted rows whileExecuting fun _ => []
  constructor
  · exact run_of_agrees hgenerators hengines request table r strategy maxAttempts
  · rw [ask, ask]
    cases (r.snapshot table).mapError RunFault.notRegistered with
    | error fault => rfl
    | ok g => exact run_of_agrees hgenerators hengines request table r strategy none

end MetricLayer
