import MetricLayer.Proofs.Generation.Select
import MetricLayer.Proofs.Review.Query
import MetricLayer.Run.Basic

/-!
# What an attempt lets the engine execute

An attempt calls the engine once at most, with a statement that its reply holds, that its review accepted
if the run validates, and that the safety gate let pass (`Calls`, `reports_attempt`).  What the engine would
answer to other statements does not matter (`attempt_congr`).
-/

namespace MetricLayer

open MetricLayer.Text MetricLayer.Sql

namespace RunPlan

/-- The query by which an extracted statement is known before it is ordered: that of its review, which
accepted it, or else as it is read. -/
def Admits (p : RunPlan) (extracted : String) (query : Option Query) : Prop :=
  if p.validates then
    ∃ r, review p.catalog extracted = .ok r ∧ r.isValid ∧ r.query = query
  else Query.read? p.catalog extracted = .ok query

/-- A call of the engine in an attempt, after so many attempts and calls and with what they left of the
registry: the statement comes from the reply to the prompt, in temporal order, and passes the safety
gate. -/
structure Calls (p : RunPlan) (generator : Generator) (engine : Engine) (attempts calls : Nat)
    (prompt : String) (r : Registry) (sql : String) (answer : Except Failure (List Row)) : Prop where
  origin : ∃ (between after : Registry) (reply extracted : String) (query : Option Query),
    generator.complete attempts prompt r = (.ok reply, between) ∧
      Reply.statement reply = .ok extracted ∧ p.Admits extracted query ∧
      sql = temporalOrder p.catalog extracted query ∧
      engine.execute calls sql between = (answer, after)
  startsSelect : StartsSelect sql.toList
  gate : Safety.violations p.catalog sql = []

variable {p : RunPlan} {extracted sql : String} {query : Option Query}

/-! ## Vetting -/

/-- Only the ordering by time changes a statement, and its query is read anew then. -/
theorem of_order_eq_ok {v : Vetted} (h : p.order extracted query = .ok v) :
    ∃ query', v = .ready (temporalOrder p.catalog extracted query) query' ∧
      (temporalOrder p.catalog extracted query = extracted ∧ query' = query ∨
        Query.read? p.catalog (temporalOrder p.catalog extracted query) = .ok query') := by
  rw [order] at h
  cases hfault : orderFault? p.catalog query with
  | some f => simp only [hfault] at h; cases h
  | none =>
    by_cases hsame : temporalOrder p.catalog extracted query = extracted
    · simp only [hfault, if_pos hsame] at h
      cases h
      exact ⟨query, rfl, Or.inl ⟨hsame, rfl⟩⟩
    · cases hread : Query.read? p.catalog (temporalOrder p.catalog extracted query) with
      | error => simp only [hfault, if_neg hsame, hread] at h; cases h
      | ok query' =>
        simp only [hfault, if_neg hsame, hread] at h
        cases h
        exact ⟨query', rfl, Or.inr rfl⟩

/-- What is ready for the gate was admitted and ordered by time.  It is known by its own query, if the
statement read in the review is the whole text. -/
theorem of_vet_eq_ready {query' : Option Query} (h : p.vet extracted = .ok (.ready sql query')) :
    ∃ query, p.Admits extracted query ∧ sql = temporalOrder p.catalog extracted query ∧
      ((sql = extracted → statement extracted.toList = extracted.toList) →
        Query.read? p.catalog sql = .ok query') := by
  rw [vet] at h
  by_cases hvalidates : p.validates
  · rw [if_pos hvalidates] at h
    cases hreview : review p.catalog extracted with
    | error => simp only [hreview] at h; cases h
    | ok r =>
      by_cases hvalid : r.isValid
      · have h : p.order extracted r.query = .ok (.ready sql query') := by
          simpa only [hreview, Except.mapError, Bind.bind, Except.bind, hvalid, if_true] using h
        obtain ⟨query'', hready, hquery⟩ := of_order_eq_ok h
        cases hready
        refine ⟨r.query, ?_, rfl, fun hstatement => ?_⟩
        · rw [Admits, if_pos hvalidates]
          exact ⟨r, hreview, hvalid, rfl⟩
        · rcases hquery with ⟨hsame, rfl⟩ | hread
          · have hread := read?_of_review hreview hvalid
            rw [hstatement hsame, String.ofList_toList] at hread
            rw [hsame]
            exact hread
          · exact hread
      · simp only [hreview, Except.mapError, Bind.bind, Except.bind, hvalid] at h
        cases h
  · rw [if_neg hvalidates] at h
    cases hread : Query.read? p.catalog extracted with
    | error => simp only [hread] at h; cases h
    | ok query =>
      have h : p.order extracted query = .ok (.ready sql query') := by
        simpa only [hread, Except.mapError, Bind.bind, Except.bind] using h
      obtain ⟨query'', hready, hquery⟩ := of_order_eq_ok h
      cases hready
      refine ⟨query, ?_, rfl, fun _ => ?_⟩
      · rw [Admits, if_neg hvalidates]
        exact hread
      · rcases hquery with ⟨hsame, rfl⟩ | hread'
        · rw [hsame]
          exact hread
        · exact hread'

/-! ## Attempts -/

section attempt

variable {generator : Generator} {engine engine' : Engine} {attempts calls : Nat} {prompt : String}
  {r : Registry}

theorem of_runStatement (h : sql ∈ (p.runStatement engine calls extracted r).1.executed?) :
    ∃ query answer after, p.vet extracted = .ok (.ready sql query) ∧
      Safety.violations p.catalog sql = [] ∧ engine.execute calls sql r = (answer, after) ∧
      ∀ extracted' sql' query' rows,
        (p.runStatement engine calls extracted r).1 = .succeeded extracted' sql' query' rows →
          sql' = sql ∧ query' = query ∧ answer = .ok rows := by
  rw [runStatement] at h ⊢
  cases hvet : p.vet extracted with
  | error => simp only [hvet] at h; cases h
  | ok v =>
    cases v with
    | rejected => simp only [hvet] at h; cases h
    | ready sql' query =>
      cases hgate : Safety.violations p.catalog sql' with
      | cons => simp only [hvet, hgate] at h; cases h
      | nil =>
        rcases hanswer : engine.execute calls sql' r with ⟨answer, after⟩
        cases answer with
        | error f =>
          simp only [hvet, hgate, hanswer] at h ⊢
          cases h
          exact ⟨query, .error f, after, rfl, hgate, hanswer, nofun⟩
        | ok rows =>
          simp only [hvet, hgate, hanswer] at h ⊢
          cases h
          refine ⟨query, .ok rows, after, rfl, hgate, hanswer, ?_⟩
          rintro _ _ _ _ heq
          cases heq
          exact ⟨rfl, rfl, rfl⟩

/-- An attempt executes nothing that another engine would not be asked for as well. -/
theorem runStatement_congr
    (h : ∀ sql ∈ (p.runStatement engine calls extracted r).1.executed?,
      ∀ r, engine'.execute calls sql r = engine.execute calls sql r) :
    p.runStatement engine' calls extracted r = p.runStatement engine calls extracted r := by
  rw [runStatement] at h ⊢
  rw [runStatement]
  cases hvet : p.vet extracted with
  | error => rfl
  | ok v =>
    cases v with
    | rejected => rfl
    | ready sql query =>
      cases hgate : Safety.violations p.catalog sql with
      | cons => simp only [hgate]
      | nil =>
        have hsame : engine'.execute calls sql r = engine.execute calls sql r := by
          apply h
          simp only [hvet, hgate]
          rcases engine.execute calls sql r with ⟨_ | _, _⟩ <;> rfl
        simp only [hgate, hsame]

/-- What the ending of an attempt says about the calls of the engine. -/
structure Reports (p : RunPlan) (generator : Generator) (engine : Engine) (attempts calls : Nat)
    (prompt : String) (r : Registry) (e : AttemptEnd) : Prop where
  executed : ∀ sql ∈ e.executed?, ∃ answer, p.Calls generator engine attempts calls prompt r sql answer
  succeeded : ∀ extracted sql query rows, e = .succeeded extracted sql query rows →
    p.Calls generator engine attempts calls prompt r sql (.ok rows) ∧
      (Closed sql.toList → Query.read? p.catalog sql = .ok query)

theorem reports_attempt :
    p.Reports generator engine attempts calls prompt r
      (p.attempt generator engine attempts calls prompt r).1 := by
  rw [attempt]
  rcases hreply : generator.complete attempts prompt r with ⟨reply, between⟩
  cases reply with
  | error f => exact ⟨nofun, nofun⟩
  | ok reply =>
    cases hextracted : Reply.statement reply with
    | error f =>
      simp only [hextracted]
      exact ⟨nofun, nofun⟩
    | ok extracted =>
      simp only [hextracted]
      have hcall : ∀ sql ∈ (p.runStatement engine calls extracted between).1.executed?,
          ∃ query answer, p.Calls generator engine attempts calls prompt r sql answer ∧
            (Closed sql.toList → Query.read? p.catalog sql = .ok query) ∧
            ∀ extracted' sql' query' rows,
              (p.runStatement engine calls extracted between).1 =
                .succeeded extracted' sql' query' rows →
              sql' = sql ∧ query' = query ∧ answer = .ok rows := by
        intro sql hsql
        obtain ⟨query, answer, after, hvet, hgate, hanswer, hsucceeded⟩ := of_runStatement hsql
        obtain ⟨first, hadmits, hordered, hread⟩ := of_vet_eq_ready hvet
        refine ⟨query, answer, ⟨?_, ?_, hgate⟩, fun hclosed => hread fun hsame => ?_, hsucceeded⟩
        · exact ⟨between, after, reply, extracted, first, hreply, hextracted, hadmits, hordered, hanswer⟩
        · rw [hordered]
          exact (Reply.startsSelect_of_statement hextracted).temporalOrder _ _
        · exact Reply.statement_eq_self hextracted (hsame ▸ hclosed)
      constructor
      · intro sql hsql
        obtain ⟨-, answer, hcalls, -⟩ := hcall sql hsql
        exact ⟨answer, hcalls⟩
      · intro extracted' sql query rows hending
        obtain ⟨query', answer, hcalls, hread, hsucceeded⟩ := hcall sql (by rw [hending]; rfl)
        obtain ⟨-, rfl, rfl⟩ := hsucceeded _ _ _ _ hending
        exact ⟨hcalls, hread⟩

theorem attempt_congr
    (h : ∀ sql ∈ (p.attempt generator engine attempts calls prompt r).1.executed?,
      ∀ r, engine'.execute calls sql r = engine.execute calls sql r) :
    p.attempt generator engine' attempts calls prompt r =
      p.attempt generator engine attempts calls prompt r := by
  rw [attempt] at h ⊢
  rw [attempt]
  rcases hreply : generator.complete attempts prompt r with ⟨reply, between⟩
  cases reply with
  | error f => rfl
  | ok reply =>
    cases hextracted : Reply.statement reply with
    | error f => simp only [hextracted]
    | ok extracted =>
      simp only [hreply, hextracted] at h ⊢
      exact runStatement_congr h

end attempt

end RunPlan

end MetricLayer
