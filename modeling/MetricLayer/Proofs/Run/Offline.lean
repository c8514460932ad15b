import MetricLayer.Catalog.Feed
import MetricLayer.Proofs.Run.Ordered
import MetricLayer.Proofs.Run.Outcome
import MetricLayer.Proofs.Selection.Planned
import MetricLayer.Run.Generators

/-!
# Runs that plan by keyword

A run with the generator that plans by keyword succeeds at its first attempt when the catalog can be planned with,
the request has a plan and the engine answers (`run_keyword`): planning, extraction, review, ordering by time and
the gate agree about the statement of a plan.  Only a sort directive that is no text breaks such a run off
(`outcome_keyword_of_orderFault`).
-/

namespace MetricLayer

open MetricLayer.Text MetricLayer.Sql MetricLayer.Review

/-- The engine answers every statement, with values that can be sanitized. -/
def Engine.Answers (engine : Engine) : Prop :=
  ∀ n sql r, ∃ rows, (engine.execute n sql r).1 = .ok rows ∧ ∀ row ∈ rows, ∀ cell ∈ row, cell.2.IsSanitizable

/-- The run executed one statement in one attempt and succeeded, with these result columns. -/
structure Run.SucceedsAtOnce (R : Run) (sql : String) (dimensions measures : List String) : Prop where
  attempts : R.attempts.length = 1
  executed : R.executed = [sql]
  outcome : ∃ q rows, R.outcome = .ok (.success q rows) ∧ q.sql = sql ∧ q.dimensions = dimensions ∧
    q.measures = measures

/-! ## Replies -/

/-- The generator replies with the statement of its plan. -/
theorem exists_reply_keyword {c : Catalog} {s : Selection} (hc : c.Plannable)
    (hcount : isWritable c.dimensions.length) {prompt : String}
    (hplan : Plan.ofRequest c (Prompt.requestIn prompt) = .ok (some s)) (n : Nat) (r : Registry) :
    ∃ reply, (Generator.keyword c).complete n prompt r = (.ok reply, r) ∧
      Reply.statement reply = .ok (s.compiled c).text := by
  have hplanned := Plan.planned_of_ofRequest hc.aliases hplan
  have hreply : Plan.reply c prompt = .ok ((s.compiled c).text ++ ";") := by
    rw [Plan.reply, hplan]
    simp only [bind, Except.bind, hplanned.sql_eq hc hcount]
    rfl
  have hstatement := (hplanned.extractable hc).statement_eq
  rw [String.ofList_toList] at hstatement
  refine ⟨(s.compiled c).text ++ ";", ?_, hstatement⟩
  show ((Plan.reply c prompt).mapError _, r) = _
  rw [hreply]
  rfl

namespace Plan.Planned

variable {c : Catalog} {s : Selection}

theorem compiled_limit (h : Planned c s) (hordering : (s.compiled c).ordering = []) : (s.compiled c).limit = none :=
  h.limit_of_ordering (List.map_eq_nil_iff.mp hordering)

/-- The parts can be told apart in temporal order. -/
theorem readable_inTemporalOrder (hc : c.Plannable) (h : Planned c s) :
    ((s.compiled c).inTemporalOrder c).Readable NoForeign :=
  (h.readable hc).inTemporalOrder rfl fun i hi => (h.items hc i hi).1

/-- The statement in temporal order passes the gate. -/
theorem violations_inTemporalOrder (hc : c.Plannable) (h : Planned c s) :
    Safety.violations c ((s.compiled c).inTemporalOrder c).text = [] := by
  have hsource : ((s.compiled c).inTemporalOrder c).source = quoteTable c.table := by
    rcases SelectStatement.inTemporalOrder_eq_or c (s.compiled c) with heq | ⟨_, -, heq⟩ <;> rw [heq] <;> rfl
  exact Safety.violations_text (SelectStatement.isTame_inTemporalOrder (h.isTame hc) rfl (h.items hc)) hsource
    ⟨hc.isQuote_table, hc.table⟩

end Plan.Planned

/-! ## Attempts -/

namespace RunPlan

variable {p : RunPlan} {s : Selection} {prompt : String} {engine : Engine} {attempts calls : Nat}
  {r after : Registry} {rows : List Row}

theorem vet_compiled (hc : p.catalog.Plannable) (hcount : isWritable p.catalog.dimensions.length)
    (h : Plan.Planned p.catalog s) : p.vet (s.compiled p.catalog).text =
      p.order (s.compiled p.catalog).text (some ((s.compiled p.catalog).query p.catalog)) :=
  vet_text (h.readable hc) h.isWritable_limit (h.review_text hc hcount)

/-- An attempt at a planned request succeeds when the statement can be ordered and the engine answers. -/
theorem attempt_keyword (hc : p.catalog.Plannable) (hcount : isWritable p.catalog.dimensions.length)
    (hplan : Plan.ofRequest p.catalog (Prompt.requestIn prompt) = .ok (some s))
    (hfault : orderFault? p.catalog (some ((s.compiled p.catalog).query p.catalog)) = none)
    (hanswer : engine.execute calls ((s.compiled p.catalog).inTemporalOrder p.catalog).text r = (.ok rows, after)) :
    p.attempt (.keyword p.catalog) engine attempts calls prompt r =
      (.succeeded (s.compiled p.catalog).text ((s.compiled p.catalog).inTemporalOrder p.catalog).text
        (some (((s.compiled p.catalog).inTemporalOrder p.catalog).query p.catalog)) rows, after) := by
  obtain ⟨reply, hreply, hstatement⟩ := exists_reply_keyword hc hcount hplan attempts r
  have hplanned := Plan.planned_of_ofRequest hc.aliases hplan
  have hvet := vet_compiled hc hcount hplanned
  rw [order_text (hplanned.readable hc) (hplanned.readable_inTemporalOrder hc) hplanned.compiled_limit
    hplanned.isWritable_limit hfault] at hvet
  rw [attempt, hreply]
  simp only [hstatement, runStatement, hvet, hplanned.violations_inTemporalOrder hc, hanswer]

/-- An attempt at a planned request breaks the run off when the statement cannot be ordered. -/
theorem attempt_keyword_of_orderFault (hc : p.catalog.Plannable) (hcount : isWritable p.catalog.dimensions.length)
    (hplan : Plan.ofRequest p.catalog (Prompt.requestIn prompt) = .ok (some s)) {f : ContentFault}
    (hfault : orderFault? p.catalog (some ((s.compiled p.catalog).query p.catalog)) = some f) :
    p.attempt (.keyword p.catalog) engine attempts calls prompt r = (.brokenOff none (.content f), r) := by
  obtain ⟨reply, hreply, hstatement⟩ := exists_reply_keyword hc hcount hplan attempts r
  have hvet : p.vet (s.compiled p.catalog).text = .error (.content f) := by
    rw [vet_compiled hc hcount (Plan.planned_of_ofRequest hc.aliases hplan), order, hfault]
    rfl
  rw [attempt, hreply]
  simp only [hstatement, runStatement, hvet]

/-! ## Runs -/

/-- A run whose first attempt succeeds makes no other. -/
theorem succeedsAtOnce_run (hbudget : 0 < p.budget) {generator : Generator} {extracted sql : String} {q : Query}
    (hattempt : p.attempt generator engine 0 0 p.request r = (.succeeded extracted sql (some q) rows, after))
    (hsanitizable : ∀ row ∈ rows, ∀ cell ∈ row, cell.2.IsSanitizable) :
    (p.run generator engine r).SucceedsAtOnce sql q.dimensions q.measures := by
  obtain ⟨left, hleft⟩ := Nat.exists_eq_succ_of_ne_zero hbudget.ne'
  have hattempts : (p.run generator engine r).attempts = [⟨p.request, .succeeded extracted sql (some q) rows⟩] := by
    rw [run, hleft, attemptsFrom_of_isSuccess hattempt rfl]
  obtain ⟨sanitized, hrows⟩ := exists_sanitizeRows hsanitizable
  refine ⟨by rw [hattempts]; rfl, by rw [Run.executed, Run.endings, hattempts]; rfl, ?_⟩
  refine ⟨.of p sql (some q), sanitized, ?_, rfl, rfl, rfl⟩
  rw [Run.outcome, Run.endings, hattempts]
  simp only [List.map_cons, List.map_nil, List.getLast?_singleton, hrows]
  rfl

end RunPlan

section run

variable {request table : String} {r : Registry} {engine : Engine} {strategy : Option String}
  {maxAttempts : Option Int} {t : Strategy} {g : Registration} {s : Selection}

/-- **A run that plans by keyword succeeds at its first attempt**, with the result columns of its plan. -/
theorem run_keyword (hstrategy : Strategy.ofName? strategy = some t) (hsnapshot : r.snapshot table = .ok g)
    (hc : g.catalog.Plannable) (hsorts : ∀ d ∈ g.catalog.dimensions, ∀ v ∈ d.sort, v.isText)
    (hcount : isWritable g.catalog.dimensions.length)
    (hplan : Plan.ofRequest g.catalog (Prompt.requestIn request) = .ok (some s)) (hengine : engine.Answers) :
    ∃ R sql query, run request table r (.keyword g.catalog) engine strategy maxAttempts = .ok R ∧
      s.sql g.catalog = .ok sql ∧ Query.read? g.catalog sql = .ok query ∧
      R.SucceedsAtOnce (temporalOrder g.catalog sql query) s.dimensions s.measures := by
  have hplanned := Plan.planned_of_ofRequest hc.aliases hplan
  have hreadable := hplanned.readable hc
  refine ⟨_, (s.compiled g.catalog).text, some ((s.compiled g.catalog).query g.catalog),
    Run.run_eq_ok hstrategy hsnapshot, hplanned.sql_eq hc hcount,
    (s.compiled g.catalog).read?_text g.catalog hreadable hplanned.isWritable_limit, ?_⟩
  obtain ⟨rows, hrows, hsanitizable⟩ := hengine 0 ((s.compiled g.catalog).inTemporalOrder g.catalog).text r
  have hcolumns := SelectStatement.columns_inTemporalOrder g.catalog (s.compiled g.catalog)
  rw [(hplanned.columns hc).1, (hplanned.columns hc).2] at hcolumns
  rw [SelectStatement.temporalOrder_text hreadable hplanned.compiled_limit, ← hcolumns.1, ← hcolumns.2]
  exact RunPlan.succeedsAtOnce_run (t.budget_pos maxAttempts)
    (RunPlan.attempt_keyword hc hcount hplan (orderFault?_eq_none hsorts _) (Prod.ext hrows rfl)) hsanitizable

/-- A run that plans by keyword breaks off when its statement cannot be ordered by time. -/
theorem outcome_keyword_of_orderFault (hstrategy : Strategy.ofName? strategy = some t)
    (hsnapshot : r.snapshot table = .ok g) (hc : g.catalog.Plannable)
    (hcount : isWritable g.catalog.dimensions.length)
    (hplan : Plan.ofRequest g.catalog (Prompt.requestIn request) = .ok (some s)) {f : ContentFault}
    (hfault : orderFault? g.catalog (some ((s.compiled g.catalog).query g.catalog)) = some f) :
    ∃ R, run request table r (.keyword g.catalog) engine strategy maxAttempts = .ok R ∧
      R.outcome = .error (.brokenOff (.content f)) := by
  let p : RunPlan := ⟨request, g.catalog, g.version, t.validates true, t.budget maxAttempts⟩
  have hattempt : (p.attempt (.keyword g.catalog) engine 0 0 request r).1 = .brokenOff none (.content f) :=
    congrArg Prod.fst (RunPlan.attempt_keyword_of_orderFault (p := p) hc hcount hplan hfault)
  exact ⟨_, Run.run_eq_ok hstrategy hsnapshot, RunPlan.outcome_run_of_brokenOff (t.budget_pos maxAttempts) hattempt⟩

end run

/-! ## Revenue over time -/

theorem plannable_sessionsCatalog : sessionsCatalog.Plannable where
  accepted := accepted_sessionsCatalog
  names := by decide +kernel
  table := by decide +kernel
  aliases := by decide +kernel
  raw := by
    have hunmarked : ∀ sql ∈ sessionsCatalog.transformations ++ sessionsCatalog.formulas,
        Reply.Unmarked sql.toList := by
      decide +kernel
    intro sql hsql
    have hfaultless := Selection.faultless_sessionsCatalog sql hsql
    exact ⟨hfaultless.wellFormed, .of_fixed (Selection.isFixed_sessionsCatalog sql hsql), hunmarked sql hsql,
      hfaultless.notForeign, hfaultless.columns⟩
  transformations := by decide +kernel

/-- A request for a ratio over time. -/
def revenueRequest : String := "Revenue per user by session date and session length"

/-- What the request is planned as. -/
def revenueSelection : Selection where
  dimensions := ["Session Date", "Session Length"]
  measures := ["revenue_per_user"]

/-- Answers with one row. -/
def revenueEngine : Engine where
  execute := fun _ _ r => (.ok [[("Session Date", .text "2024-05-01"), ("Session Length", .text "short"),
    ("revenue_per_user", .int 7)]], r)

theorem ofRequest_revenueRequest :
    Plan.ofRequest sessionsCatalog (Prompt.requestIn revenueRequest) = .ok (some revenueSelection) := by
  have hrequest : Prompt.requestIn revenueRequest = revenueRequest := by decide +kernel
  have hdimensions : Plan.dimensionMentions sessionsCatalog (lower revenueRequest.toList) =
      [⟨20, "Session Date"⟩, ⟨37, "Session Length"⟩] := by
    decide +kernel
  have hmeasures : Plan.measureMentions sessionsCatalog (lower revenueRequest.toList) =
      [⟨0, "revenue_per_user"⟩] := by
    decide +kernel
  have htop : Plan.top? revenueRequest = .ok none := by decide +kernel
  have hordered : Plan.ordered [⟨20, "Session Date"⟩, ⟨37, "Session Length"⟩] =
      ["Session Date", "Session Length"] := by
    rw [Plan.ordered, List.mergeSort_of_pairwise (by decide)]
    rfl
  have hsingle : Plan.ordered [⟨0, "revenue_per_user"⟩] = ["revenue_per_user"] := by
    rw [Plan.ordered, List.mergeSort_singleton]
    rfl
  rw [hrequest, Plan.ofRequest]
  simp only [hdimensions, hmeasures, hordered, hsingle, htop]
  decide

theorem answers_revenueEngine : revenueEngine.Answers := by
  intro n sql r
  refine ⟨_, rfl, ?_⟩
  simp only [List.forall_mem_cons]
  refine ⟨⟨trivial, trivial, ?_, List.forall_mem_nil _⟩, List.forall_mem_nil _⟩
  show Int.natAbs 7 < Number.overflowBound
  decide +kernel

theorem run_keyword_revenueRequest :
    Registry.bundled.snapshot "sessions" = .ok ⟨sessionsCatalog, 1⟩ ∧ sessionsCatalog.Plannable ∧
      (∀ d ∈ sessionsCatalog.dimensions, ∀ v ∈ d.sort, v.isText) ∧
      Plan.ofRequest sessionsCatalog (Prompt.requestIn revenueRequest) = .ok (some revenueSelection) ∧
      revenueEngine.Answers ∧
      ∃ R sql query,
        run revenueRequest "sessions" .bundled (.keyword sessionsCatalog) revenueEngine (some "fast") none = .ok R ∧
        revenueSelection.sql sessionsCatalog = .ok sql ∧ Query.read? sessionsCatalog sql = .ok query ∧
        R.SucceedsAtOnce (temporalOrder sessionsCatalog sql query) revenueSelection.dimensions
          revenueSelection.measures := by
  have hsorts : ∀ d ∈ sessionsCatalog.dimensions, ∀ v ∈ d.sort, v.isText := by decide +kernel
  exact ⟨rfl, plannable_sessionsCatalog, hsorts, ofRequest_revenueRequest, answers_revenueEngine,
    run_keyword (t := .fast) (g := ⟨sessionsCatalog, 1⟩) rfl rfl plannable_sessionsCatalog hsorts (by decide +kernel)
      ofRequest_revenueRequest answers_revenueEngine⟩

/-! ## A sort directive that is no text -/

/-- A feed with a number for a sort directive. -/
def kindsFeed : Value :=
  .object [("table", .text "t"),
    ("fields", .object [("kind", .object [("md_data_type", .text "VARCHAR"), ("ingest_data_type", .text "string"),
      ("data_type_category", .text "categorical")])]),
    ("dimensions", .object [("kind", .object [("alias_name", .text "Kind"), ("sort", .int 5)])]),
    ("measures", .object [("_count", .object [("aggregations",
      .list [.object [("count", .object [("alias", .text "n")])]])])])]

/-- The catalog of the feed. -/
def kindsCatalog : Catalog where
  table := "t"
  fields := [{ name := "kind", physicalType := "VARCHAR", ingestType := "string", category := "categorical" }]
  dimensions := [{ source := "kind", aliasName := "Kind", sort := some (.int 5) }]
  measures := [{ source := "_count"
                 aggregations := [{ aliasName := "n", function := "count", source := "_count" }] }]

theorem ofFeed_kindsFeed : Catalog.ofFeed kindsFeed = .ok kindsCatalog :=
  rfl

theorem plannable_kindsCatalog : kindsCatalog.Plannable where
  accepted := by decide
  names := by decide
  table := by decide
  aliases := by decide
  raw := List.forall_mem_nil _
  transformations := List.forall_mem_nil _

theorem register_kindsCatalog :
    Registry.register {} kindsCatalog = .ok ⟨[("t", kindsCatalog)], [("t", 1)], 1⟩ := by
  have hproblems : kindsCatalog.problems = [] := plannable_kindsCatalog.accepted
  rw [Registry.register, hproblems]
  rfl

theorem ofRequest_kinds : Plan.ofRequest kindsCatalog (Prompt.requestIn "kind") =
    .ok (some { dimensions := ["Kind"], measures := ["n"] }) := by
  have hrequest : Prompt.requestIn "kind" = "kind" := by decide
  have hdimensions : Plan.dimensionMentions kindsCatalog (lower "kind".toList) = [⟨0, "Kind"⟩] := by decide
  have hmeasures : Plan.measureMentions kindsCatalog (lower "kind".toList) = [] := by decide
  have htop : Plan.top? "kind" = .ok none := by decide
  have hsingle : Plan.ordered [⟨0, "Kind"⟩] = ["Kind"] := by
    rw [Plan.ordered, List.mergeSort_singleton]
    rfl
  have hnone : Plan.ordered [] = [] := by
    rw [Plan.ordered, List.mergeSort_nil]
    rfl
  rw [hrequest, Plan.ofRequest]
  simp only [hdimensions, hmeasures, hsingle, hnone, htop]
  decide

/-- A catalog that is registered with a number for a sort directive breaks the run off. -/
theorem not_run_keyword :
    ¬ ∀ (feed : Value) (c : Catalog) (r : Registry) (request : String) (engine : Engine) (strategy : Option String)
      (maxAttempts : Option Int) (t : Strategy) (s : Selection),
      Catalog.ofFeed feed = .ok c → Registry.register {} c = .ok r → Strategy.ofName? strategy = some t →
        c.Plannable → Plan.ofRequest c (Prompt.requestIn request) = .ok (some s) → engine.Answers →
        ∃ R sql query, run request c.table r (.keyword c) engine strategy maxAttempts = .ok R ∧
          s.sql c = .ok sql ∧ Query.read? c sql = .ok query ∧
          R.SucceedsAtOnce (temporalOrder c sql query) s.dimensions s.measures := by
  intro h
  obtain ⟨R, sql, query, hrun, -, -, hsucceeds⟩ := h kindsFeed kindsCatalog _ "kind" revenueEngine none none .adaptive
    { dimensions := ["Kind"], measures := ["n"] } ofFeed_kindsFeed register_kindsCatalog rfl plannable_kindsCatalog
    ofRequest_kinds answers_revenueEngine
  obtain ⟨R', hrun', hbroken⟩ : ∃ R, run "kind" "t" ⟨[("t", kindsCatalog)], [("t", 1)], 1⟩ (.keyword kindsCatalog)
      revenueEngine none none = .ok R ∧ R.outcome = .error (.brokenOff (.content (.sortNotText "int"))) :=
    outcome_keyword_of_orderFault (t := .adaptive) (g := ⟨kindsCatalog, 1⟩) rfl rfl plannable_kindsCatalog
      (by decide +kernel) ofRequest_kinds (by decide +kernel)
  obtain rfl : R' = R := Except.ok.inj (hrun'.symm.trans hrun)
  obtain ⟨q, rows, houtcome, -⟩ := hsucceeds.outcome
  rw [hbroken] at houtcome
  cases houtcome

end MetricLayer
