import MetricLayer.Catalog.Bundled
import MetricLayer.Proofs.Run.Step
import MetricLayer.Run.Report

/-!
# What a run lets its engine execute

Every statement that the engine gets in a run was vetted in the attempt that executes it, and a successful
run answers with the last one (`Run.Guarded`).  The engine gets no other statements: a run with an engine
that answers these alike is the same run (`attemptsFrom_congr`).
-/

namespace MetricLayer

open MetricLayer.Text MetricLayer.Sql

namespace RunPlan

variable {p : RunPlan} {generator : Generator} {engine engine' : Engine}
  {left attempts calls : Nat} {prompt : String} {r : Registry}

/-- The statements that the engine got in attempts. -/
def executedIn (as : List Attempt) : List String :=
  (as.map Attempt.ending).filterMap AttemptEnd.executed?

theorem executedIn_cons (a : Attempt) (as : List Attempt) :
    executedIn (a :: as) = a.ending.executed?.toList ++ executedIn as := by
  rw [executedIn, List.map_cons, List.filterMap_cons]
  cases a.ending.executed? <;> rfl

theorem executedIn_append (as bs : List Attempt) :
    executedIn (as ++ bs) = executedIn as ++ executedIn bs := by
  rw [executedIn, List.map_append, List.filterMap_append]
  rfl

/-- What a run keeps of an attempt: its ending, or, when no prompt follows from it, what it executed before
the run was broken off. -/
inductive Keeps (p : RunPlan) (e : AttemptEnd) : AttemptEnd → Prop where
  | whole : p.Keeps e e
  | brokenOff {b : Breakage} (h : e.nextPrompt p.catalog p.request = .error b) :
      p.Keeps e (.brokenOff e.executed? b)

section attemptsFrom

variable {e : AttemptEnd} {after : Registry}

theorem attemptsFrom_of_isSuccess (h : p.attempt generator engine attempts calls prompt r = (e, after))
    (hsuccess : e.isSuccess) :
    p.attemptsFrom generator engine (left + 1) attempts calls prompt r = ([⟨prompt, e⟩], after) := by
  rw [attemptsFrom]
  simp only [h, if_pos hsuccess]

theorem attemptsFrom_of_error {b : Breakage}
    (h : p.attempt generator engine attempts calls prompt r = (e, after)) (hsuccess : ¬ e.isSuccess)
    (hnext : e.nextPrompt p.catalog p.request = .error b) :
    p.attemptsFrom generator engine (left + 1) attempts calls prompt r =
      ([⟨prompt, .brokenOff e.executed? b⟩], after) := by
  rw [attemptsFrom]
  simp only [h, if_neg hsuccess, hnext]

theorem attemptsFrom_of_ok {next : String}
    (h : p.attempt generator engine attempts calls prompt r = (e, after)) (hsuccess : ¬ e.isSuccess)
    (hnext : e.nextPrompt p.catalog p.request = .ok next) :
    p.attemptsFrom generator engine (left + 1) attempts calls prompt r =
      (⟨prompt, e⟩ :: (p.attemptsFrom generator engine left (attempts + 1)
          (calls + e.executed?.toList.length) next after).1,
        (p.attemptsFrom generator engine left (attempts + 1) (calls + e.executed?.toList.length) next
          after).2) := by
  rw [attemptsFrom]
  simp only [h, if_neg hsuccess, hnext]

/-- An attempt is the last one, because it succeeds or breaks the run off, or others follow with the prompt
that it asks for. -/
theorem attemptsFrom_succ (left : Nat) (h : p.attempt generator engine attempts calls prompt r = (e, after)) :
    (∃ kept, p.Keeps e kept ∧ (kept.isSuccess ∨ ∃ executed b, kept = .brokenOff executed b) ∧
      p.attemptsFrom generator engine (left + 1) attempts calls prompt r = ([⟨prompt, kept⟩], after)) ∨
    ∃ next, ¬ e.isSuccess ∧ e.nextPrompt p.catalog p.request = .ok next ∧
      p.attemptsFrom generator engine (left + 1) attempts calls prompt r =
        (⟨prompt, e⟩ :: (p.attemptsFrom generator engine left (attempts + 1)
            (calls + e.executed?.toList.length) next after).1,
          (p.attemptsFrom generator engine left (attempts + 1) (calls + e.executed?.toList.length) next
            after).2) := by
  by_cases hsuccess : e.isSuccess
  · exact Or.inl ⟨e, .whole, Or.inl hsuccess, attemptsFrom_of_isSuccess h hsuccess⟩
  · cases hnext : e.nextPrompt p.catalog p.request with
    | error b =>
      exact Or.inl ⟨_, .brokenOff hnext, Or.inr ⟨_, b, rfl⟩, attemptsFrom_of_error h hsuccess hnext⟩
    | ok next => exact Or.inr ⟨next, hsuccess, rfl, attemptsFrom_of_ok h hsuccess hnext⟩

end attemptsFrom

/-- Every attempt of a run is made with what the attempts before it left, and only the last one succeeds or
breaks the run off. -/
theorem keeps_attemptsFrom {i : Nat} {a : Attempt}
    (ha : (p.attemptsFrom generator engine left attempts calls prompt r).1[i]? = some a) :
    p.Keeps (p.attempt generator engine (attempts + i)
      (calls + (executedIn ((p.attemptsFrom generator engine left attempts calls prompt r).1.take i)).length)
      a.prompt (p.attemptsFrom generator engine i attempts calls prompt r).2).1 a.ending ∧
    (i + 1 < (p.attemptsFrom generator engine left attempts calls prompt r).1.length →
      ¬ a.ending.isSuccess ∧ ∃ next, a.ending.nextPrompt p.catalog p.request = .ok next) := by
  induction left generalizing attempts calls prompt r i with
  | zero => cases ha
  | succ left ih =>
    rcases hattempt : p.attempt generator engine attempts calls prompt r with ⟨e, after⟩
    rcases attemptsFrom_succ left hattempt with
      ⟨kept, hkept, -, hlast⟩ | ⟨next, hsuccess, hnext, hmore⟩
    · rw [hlast] at ha ⊢
      cases i with
      | zero =>
        cases ha
        refine ⟨?_, fun hlt => absurd hlt (Nat.lt_irrefl _)⟩
        show p.Keeps (p.attempt generator engine attempts calls prompt r).1 kept
        rw [hattempt]
        exact hkept
      | succ i => cases ha
    · rw [hmore] at ha ⊢
      cases i with
      | zero =>
        cases ha
        refine ⟨?_, fun _ => ⟨hsuccess, next, hnext⟩⟩
        show p.Keeps (p.attempt generator engine attempts calls prompt r).1 e
        rw [hattempt]
        exact .whole
      | succ i =>
        have hlater := ih ha
        have hplace : attempts + (i + 1) = attempts + 1 + i := by omega
        rw [attemptsFrom_of_ok hattempt hsuccess hnext, hplace, List.take_succ_cons, executedIn_cons,
          List.length_append, ← Nat.add_assoc]
        exact ⟨hlater.1, fun hlt => hlater.2 (Nat.lt_of_succ_lt_succ hlt)⟩

theorem Reports.keeps {e kept : AttemptEnd} (h : p.Reports generator engine attempts calls prompt r e)
    (hkept : p.Keeps e kept) : p.Reports generator engine attempts calls prompt r kept := by
  cases hkept with
  | whole => exact h
  | brokenOff => exact ⟨h.executed, nofun⟩

/-- Other engines that answer the executed statements alike make the same attempts. -/
theorem attemptsFrom_congr
    (h : ∀ n sql, (executedIn (p.attemptsFrom generator engine left attempts calls prompt r).1)[n]? =
      some sql → ∀ r, engine'.execute (calls + n) sql r = engine.execute (calls + n) sql r) :
    p.attemptsFrom generator engine' left attempts calls prompt r =
      p.attemptsFrom generator engine left attempts calls prompt r := by
  induction left generalizing attempts calls prompt r with
  | zero => rfl
  | succ left ih =>
    rcases hattempt : p.attempt generator engine attempts calls prompt r with ⟨e, after⟩
    -- the first attempt is the same if what it executed is the first of all that was executed
    have hfirst (later : List String)
        (hexecuted : executedIn (p.attemptsFrom generator engine (left + 1) attempts calls prompt r).1 =
          e.executed?.toList ++ later) :
        p.attempt generator engine' attempts calls prompt r = (e, after) := by
      rw [← hattempt]
      apply attempt_congr
      rw [hattempt]
      intro sql hsql
      exact h 0 sql (by rw [hexecuted, hsql]; rfl)
    by_cases hsuccess : e.isSuccess
    · have hsame := hfirst [] (by rw [attemptsFrom_of_isSuccess hattempt hsuccess, executedIn_cons]; rfl)
      rw [attemptsFrom_of_isSuccess hattempt hsuccess, attemptsFrom_of_isSuccess hsame hsuccess]
    · cases hnext : e.nextPrompt p.catalog p.request with
      | error b =>
        have hsame := hfirst [] (by rw [attemptsFrom_of_error hattempt hsuccess hnext, executedIn_cons]; rfl)
        rw [attemptsFrom_of_error hattempt hsuccess hnext, attemptsFrom_of_error hsame hsuccess hnext]
      | ok next =>
        have hsame := hfirst _ (by rw [attemptsFrom_of_ok hattempt hsuccess hnext, executedIn_cons])
        rw [attemptsFrom_of_ok hattempt hsuccess hnext] at h ⊢
        rw [attemptsFrom_of_ok hsame hsuccess hnext, ih fun n sql hn => ?_]
        rw [Nat.add_assoc]
        refine h _ sql ?_
        rw [executedIn_cons, List.getElem?_append_right (Nat.le_add_right _ _), Nat.add_sub_cancel_left]
        exact hn

theorem run_congr {p : RunPlan}
    (h : ∀ n sql, (p.run generator engine r).executed[n]? = some sql →
      ∀ now, engine'.execute n sql now = engine.execute n sql now) :
    p.run generator engine' r = p.run generator engine r := by
  have hattempts : p.attemptsFrom generator engine' p.budget 0 0 p.request r =
      p.attemptsFrom generator engine p.budget 0 0 p.request r := by
    refine attemptsFrom_congr fun n sql hn => ?_
    rw [Nat.zero_add]
    exact h n sql hn
  rw [run, run, hattempts]

theorem length_executedIn_le (as : List Attempt) : (executedIn as).length ≤ as.length := by
  rw [executedIn, ← List.length_map Attempt.ending]
  exact List.length_filterMap_le _ _

end RunPlan

/-! ## Runs -/

theorem ResolvedQuery.of_sql (p : RunPlan) (sql : String) (query : Option Query) :
    (ResolvedQuery.of p sql query).sql = sql := by
  cases query <;> rfl

namespace Run

variable {R : Run} {generator : Generator} {engine : Engine}

/-- What a run that started with a registry owes to its engine and to its caller: each executed statement
was vetted in its attempt, and a success answers with the last call. -/
structure Guarded (R : Run) (generator : Generator) (engine : Engine) (r : Registry) : Prop where
  executed : ∀ as a later, R.attempts = as ++ a :: later → ∀ sql ∈ a.ending.executed?, ∃ answer,
    R.plan.Calls generator engine as.length (RunPlan.executedIn as).length a.prompt
      (R.plan.attemptsFrom generator engine as.length 0 0 R.plan.request r).2 sql answer
  success : ∀ q rows, R.outcome = .ok (.success q rows) →
    ∃ (as : List Attempt) (a : Attempt) (raw : List Row),
      R.attempts = as ++ [a] ∧ R.executed = RunPlan.executedIn as ++ [q.sql] ∧
        R.plan.Calls generator engine as.length (RunPlan.executedIn as).length a.prompt
          (R.plan.attemptsFrom generator engine as.length 0 0 R.plan.request r).2 q.sql (.ok raw) ∧
        sanitizeRows raw = .ok rows ∧
        (Closed q.sql.toList → ∃ query, Query.read? R.plan.catalog q.sql = .ok (some query) ∧
          q = .of R.plan q.sql (some query))

theorem of_outcome_eq_success {q : ResolvedQuery} {rows : List Row}
    (h : R.outcome = .ok (.success q rows)) :
    ∃ as a extracted sql query raw, R.attempts = as ++ [a] ∧
      a.ending = .succeeded extracted sql query raw ∧ sanitizeRows raw = .ok rows ∧
      q = .of R.plan sql query := by
  rw [outcome, endings, List.getLast?_map] at h
  rcases hattempts : R.attempts.eq_nil_or_concat with hnil | ⟨as, a, hlast⟩
  · rw [hnil] at h
    cases h
  · rw [List.concat_eq_append] at hlast
    rw [hlast, List.getLast?_concat, Option.map_some] at h
    cases hending : a.ending with
    | succeeded extracted sql query raw =>
      cases hrows : sanitizeRows raw with
      | error f => simp only [hending, hrows] at h; cases h
      | ok sanitized =>
        simp only [hending, hrows] at h
        cases h
        exact ⟨as, a, extracted, sql, query, raw, hlast, hending, hrows, rfl⟩
    | brokenOff => simp only [hending] at h; cases h
    | generatorFailed => simp only [hending] at h; cases h
    | notExtracted => simp only [hending] at h; cases h
    | rejected => simp only [hending] at h; cases h
    | blocked => simp only [hending] at h; cases h
    | engineFailed => simp only [hending] at h; cases h

theorem keeps_run {p : RunPlan} {r : Registry} {i : Nat} {a : Attempt}
    (ha : (p.run generator engine r).attempts[i]? = some a) :
    p.Keeps (p.attempt generator engine i
      (RunPlan.executedIn ((p.run generator engine r).attempts.take i)).length a.prompt
      (p.attemptsFrom generator engine i 0 0 p.request r).2).1 a.ending ∧
    (i + 1 < (p.run generator engine r).attempts.length →
      ¬ a.ending.isSuccess ∧ ∃ next, a.ending.nextPrompt p.catalog p.request = .ok next) := by
  have hkeeps := RunPlan.keeps_attemptsFrom ha
  rw [Nat.zero_add, Nat.zero_add] at hkeeps
  exact hkeeps

theorem reports_run {p : RunPlan} {r : Registry} {as later : List Attempt} {a : Attempt}
    (h : (p.run generator engine r).attempts = as ++ a :: later) :
    p.Reports generator engine as.length (RunPlan.executedIn as).length a.prompt
      (p.attemptsFrom generator engine as.length 0 0 p.request r).2 a.ending := by
  have ha : (p.run generator engine r).attempts[as.length]? = some a := by
    rw [h, List.getElem?_append_right (Nat.le_refl _), Nat.sub_self]
    rfl
  have hkeeps := (keeps_run ha).1
  rw [h, List.take_left] at hkeeps
  exact RunPlan.reports_attempt.keeps hkeeps

theorem guarded_run (p : RunPlan) (generator : Generator) (engine : Engine) (r : Registry) :
    (p.run generator engine r).Guarded generator engine r where
  executed := by
    intro as a later hattempts
    exact (reports_run hattempts).executed
  success := by
    intro q rows h
    obtain ⟨as, a, extracted, sql, query, raw, hattempts, hending, hrows, rfl⟩ := of_outcome_eq_success h
    have hexecuted : (p.run generator engine r).executed = RunPlan.executedIn (as ++ [a]) := by
      rw [← hattempts]
      rfl
    obtain ⟨hcalls, hread⟩ := (reports_run hattempts).succeeded extracted sql query raw hending
    rw [ResolvedQuery.of_sql]
    refine ⟨as, a, raw, hattempts, ?_, hcalls, hrows, fun hclosed => ?_⟩
    · rw [hexecuted, RunPlan.executedIn_append, RunPlan.executedIn_cons, hending]
      rfl
    · have hread := hread hclosed
      cases query with
      | none => exact absurd hread (hcalls.startsSelect.read?_ne_none _)
      | some query => exact ⟨query, hread, rfl⟩

theorem of_run_eq_ok {request table : String} {r : Registry} {strategy : Option String}
    {maxAttempts : Option Int} (h : run request table r generator engine strategy maxAttempts = .ok R) :
    ∃ s g, Strategy.ofName? strategy = some s ∧ r.snapshot table = .ok g ∧
      R = (RunPlan.mk request g.catalog g.version (s.validates generator.requiresValidation)
        (s.budget maxAttempts)).run generator engine r := by
  rw [run, RunPlan.make] at h
  cases hstrategy : Strategy.ofName? strategy with
  | none => simp only [hstrategy] at h; cases h
  | some s =>
    cases hsnapshot : r.snapshot table with
    | error => simp only [hstrategy, hsnapshot] at h; cases h
    | ok g =>
      simp only [hstrategy, hsnapshot] at h
      cases h
      exact ⟨s, g, rfl, rfl, rfl⟩

theorem run_eq_ok {request table : String} {r : Registry} {strategy : Option String}
    {maxAttempts : Option Int} {s : Strategy} {g : Registration}
    (hstrategy : Strategy.ofName? strategy = some s) (hsnapshot : r.snapshot table = .ok g) :
    run request table r generator engine strategy maxAttempts =
      .ok ((RunPlan.mk request g.catalog g.version (s.validates generator.requiresValidation)
        (s.budget maxAttempts)).run generator engine r) := by
  rw [run, RunPlan.make, hstrategy, hsnapshot]
  rfl

end Run

/-- Only vetted statements reach the engine of a run: at most one in each attempt, taken from the reply of
that attempt, accepted in its review if the run validates, in temporal order, and passed by the safety gate
of the catalog that was registered at the start.  A success answers with the last of them.  What the engine
would say to other statements makes no difference. -/
theorem run_guarded {request table : String} {r : Registry} {generator : Generator} {engine : Engine}
    {strategy : Option String} {maxAttempts : Option Int} {R : Run}
    (h : run request table r generator engine strategy maxAttempts = .ok R) :
    (∃ s g, Strategy.ofName? strategy = some s ∧ r.snapshot table = .ok g ∧
        R.plan = ⟨request, g.catalog, g.version, s.validates generator.requiresValidation,
          s.budget maxAttempts⟩) ∧
      R.Guarded generator engine r ∧ R.executed.length ≤ R.attempts.length ∧
      ∀ engine' : Engine,
        (∀ n sql, R.executed[n]? = some sql →
          ∀ now, engine'.execute n sql now = engine.execute n sql now) →
        run request table r generator engine' strategy maxAttempts = .ok R := by
  obtain ⟨s, g, hstrategy, hsnapshot, rfl⟩ := Run.of_run_eq_ok h
  refine ⟨⟨s, g, hstrategy, hsnapshot, rfl⟩, Run.guarded_run _ _ _ _, RunPlan.length_executedIn_le _,
    fun engine' hsame => ?_⟩
  rw [← RunPlan.run_congr hsame]
  exact Run.run_eq_ok hstrategy hsnapshot

/-! ## A run that counts -/

/-- Counts users. -/
def countStatement : String := "SELECT COUNT(*) AS user_count FROM users"

/-- The query of the count. -/
def countQuery : Query where
  sql := countStatement
  table := "users"
  items := [⟨"COUNT(*)", some "user_count", "user_count", true⟩]
  grouping := []
  filters := []
  ordering := []
  limit := none

theorem clauses?_countStatement : clauses? (statement countStatement.toList) =
    some [(.select, "COUNT(*) AS user_count".toList), (.source, "users".toList)] := by
  rw [clauses?_of_headings ⟨.select, 0, 6⟩ [⟨.source, 30, 34⟩] (by decide) (by decide) (by decide)]
  decide

theorem review_countStatement : review usersCatalog countStatement = .ok ⟨[], some countQuery⟩ := by
  have htext : String.ofList (statement countStatement.toList) = countStatement := by
    decide +kernel
  have hread : Query.read? usersCatalog countStatement = .ok (some countQuery) := by
    rw [Query.read?, clauses?_countStatement]
    decide +kernel
  have hfindings : Review.clauseFindings usersCatalog (statement countStatement.toList)
      [(.select, "COUNT(*) AS user_count".toList), (.source, "users".toList)] = [] := by
    decide +kernel
  rw [review, clauses?_countStatement]
  simp only [hfindings, htext, hread]
  rfl

/-- Always writes the count. -/
def countGenerator : Generator where
  complete := fun _ _ r => (.ok countStatement, r)

/-- Counts two users. -/
def countEngine : Engine where
  execute := fun _ _ r => (.ok [[("user_count", .int 2)]], r)

/-- The run that counts. -/
def countPlan : RunPlan := ⟨"How many users?", usersCatalog, 2, true, 3⟩

theorem vet_countStatement : countPlan.vet countStatement = .ok (.ready countStatement (some countQuery)) := by
  have hfault : orderFault? usersCatalog (some countQuery) = none := by decide
  have hordered : temporalOrder usersCatalog countStatement (some countQuery) = countStatement := by
    decide
  have hvalidates : countPlan.validates = true := rfl
  rw [RunPlan.vet, if_pos hvalidates, countPlan, review_countStatement]
  show countPlan.order countStatement (some countQuery) = _
  rw [RunPlan.order, countPlan, hfault, hordered]
  rfl

theorem attempt_countPlan (r : Registry) :
    countPlan.attempt countGenerator countEngine 0 0 countPlan.request r =
      (.succeeded countStatement countStatement (some countQuery) [[("user_count", .int 2)]], r) := by
  have hgate : Safety.violations countPlan.catalog countStatement = [] := by decide
  show countPlan.runStatement countEngine 0 countStatement r = _
  rw [RunPlan.runStatement, vet_countStatement]
  simp only [hgate]
  rfl

theorem run_guarded_countPlan :
    ∃ R, run countPlan.request "users" .bundled countGenerator countEngine (some "strict") none = .ok R ∧
      R.executed = [countStatement] ∧ R.Guarded countGenerator countEngine .bundled := by
  have h : run countPlan.request "users" .bundled countGenerator countEngine (some "strict") none =
      .ok (countPlan.run countGenerator countEngine .bundled) := rfl
  have hbudget : countPlan.budget = 2 + 1 := rfl
  refine ⟨_, h, ?_, (run_guarded h).2.1⟩
  rw [RunPlan.run, hbudget, RunPlan.attemptsFrom, attempt_countPlan]
  rfl

end MetricLayer
