import MetricLayer.Catalog.Registry
import MetricLayer.Run.Attempt

/-!
# Runs

A run turns a request into rows: it makes attempts, each with the prompt that the failure of the one
before asks for, until one succeeds, breaks the run off or the budget is spent.  The catalog is the
one registered when the run starts.  Generators and engines may register catalogs while they work, so
the registry is passed on from call to call.
-/

namespace MetricLayer

/-- Writes statements.  A call is given the number of calls before it, the prompt and the registry;
it answers with a reply and the registry it leaves behind. -/
structure Generator where
  requiresValidation : Bool := true
  complete : Nat → String → Registry → Except Failure String × Registry

/-- Executes statements.  A call is given the number of calls before it, the statement and the
registry; it answers with rows and the registry it leaves behind. -/
structure Engine where
  execute : Nat → String → Registry → Except Failure (List Row) × Registry

/-- When statements are reviewed. -/
inductive Strategy where
  | strict
  | adaptive
  | fast
deriving Repr, DecidableEq

namespace Strategy

/-- The name of a strategy. -/
def name : Strategy → String
  | .strict => "strict"
  | .adaptive => "adaptive"
  | .fast => "fast"

/-- All strategies. -/
def all : List Strategy :=
  [.strict, .adaptive, .fast]

/-- The strategy of a name; no name is the adaptive strategy. -/
def ofName? (given : Option String) : Option Strategy :=
  match given.filter (· != "") with
  | none => some .adaptive
  | some s => all.find? fun t => t.name == s

/-- Statements are reviewed: always, if the generator asks for it, or never. -/
def validates (s : Strategy) (requiresValidation : Bool) : Bool :=
  match s with
  | .strict => true
  | .adaptive => requiresValidation
  | .fast => false

/-- The most attempts of a run. -/
def mostAttempts : Nat := 3

/-- The number of attempts: one for the fast strategy, else as given, one at least and three at most;
zero counts as not given. -/
def budget (s : Strategy) (given : Option Int) : Nat :=
  match s with
  | .fast => 1
  | _ =>
    let wanted := (given.filter (· != 0)).getD mostAttempts
    (max 1 (min wanted mostAttempts)).toNat

theorem budget_pos (s : Strategy) (given : Option Int) : 0 < s.budget given := by
  cases s <;> simp only [budget] <;> omega

theorem budget_le (s : Strategy) (given : Option Int) : s.budget given ≤ mostAttempts := by
  cases s <;> simp only [budget, mostAttempts] <;> omega

end Strategy

/-- What a run is fixed to at its start. -/
structure RunPlan where
  request : String
  catalog : Catalog
  version : Nat
  validates : Bool
  budget : Nat
deriving Repr

/-- What becomes of an extracted statement before the safety gate: it is rejected with its review, or
ready with its query. -/
inductive Vetted where
  | rejected (r : Review)
  | ready (sql : String) (query : Option Sql.Query)
deriving Repr

namespace RunPlan

/-- Orders a statement by time; the query of the ordered statement is read anew. -/
def order (p : RunPlan) (extracted : String) (query : Option Sql.Query) :
    Except Breakage Vetted := do
  if let some f := orderFault? p.catalog query then throw (.content f)
  let sql := temporalOrder p.catalog extracted query
  if sql = extracted then return .ready sql query
  return .ready sql (← (Sql.Query.read? p.catalog sql).mapError .numeralTooLong)

/-- Reviews an extracted statement, if the run validates, and orders it by time. -/
def vet (p : RunPlan) (extracted : String) : Except Breakage Vetted := do
  if p.validates then
    let reviewed ← (review p.catalog extracted).mapError .numeralTooLong
    if reviewed.isValid then p.order extracted reviewed.query else return .rejected reviewed
  else p.order extracted (← (Sql.Query.read? p.catalog extracted).mapError .numeralTooLong)

/-- Vets an extracted statement, passes it through the safety gate and lets the engine execute it. -/
def runStatement (p : RunPlan) (engine : Engine) (calls : Nat) (extracted : String)
    (r : Registry) : AttemptEnd × Registry :=
  match p.vet extracted with
  | .error b => (.brokenOff none b, r)
  | .ok (.rejected reviewed) => (.rejected extracted reviewed, r)
  | .ok (.ready sql query) =>
    match Safety.violations p.catalog sql with
    | [] =>
      match engine.execute calls sql r with
      | (.ok rows, r) => (.succeeded extracted sql query rows, r)
      | (.error f, r) => (.engineFailed extracted sql f, r)
    | violations => (.blocked extracted sql violations, r)

/-- Makes an attempt, after the given numbers of attempts and engine calls. -/
def attempt (p : RunPlan) (generator : Generator) (engine : Engine) (attempts calls : Nat)
    (prompt : String) (r : Registry) : AttemptEnd × Registry :=
  match generator.complete attempts prompt r with
  | (.error f, r) => (.generatorFailed f, r)
  | (.ok reply, r) =>
    match Reply.statement reply with
    | .error f => (.notExtracted f, r)
    | .ok extracted => p.runStatement engine calls extracted r

/-- Makes at most the given number of attempts, until one succeeds or breaks the run off. -/
def attemptsFrom (p : RunPlan) (generator : Generator) (engine : Engine) :
    Nat → Nat → Nat → String → Registry → List Attempt × Registry
  | 0, _, _, _, r => ([], r)
  | left + 1, attempts, calls, prompt, r =>
    let (ending, r) := p.attempt generator engine attempts calls prompt r
    if ending.isSuccess then ([⟨prompt, ending⟩], r)
    else match ending.nextPrompt p.catalog p.request with
      | .error b => ([⟨prompt, .brokenOff ending.executed? b⟩], r)
      | .ok next =>
        let calls := calls + ending.executed?.toList.length
        let (later, r) := p.attemptsFrom generator engine left (attempts + 1) calls next r
        (⟨prompt, ending⟩ :: later, r)

end RunPlan

/-- A finished run: what it was fixed to, its attempts, and the registry it leaves behind. -/
structure Run where
  plan : RunPlan
  attempts : List Attempt
  registry : Registry
deriving Repr

/-- Why a run does not start. -/
inductive RunFault where
  | unknownStrategy (name : String)
  | notRegistered (r : Rejection)
deriving Repr, DecidableEq

/-- Fixes a run. -/
def RunPlan.make (request table : String) (r : Registry) (requiresValidation : Bool)
    (strategy : Option String) (maxAttempts : Option Int) : Except RunFault RunPlan :=
  match Strategy.ofName? strategy with
  | none => .error (.unknownStrategy (strategy.getD ""))
  | some s => (r.snapshot table).mapError .notRegistered |>.map fun g =>
    { request
      catalog := g.catalog
      version := g.version
      validates := s.validates requiresValidation
      budget := s.budget maxAttempts }

/-- Makes the attempts of a run. -/
def RunPlan.run (p : RunPlan) (generator : Generator) (engine : Engine) (r : Registry) : Run :=
  let (attempts, registry) := p.attemptsFrom generator engine p.budget 0 0 p.request r
  ⟨p, attempts, registry⟩

/-- Turns a request into rows of a table. -/
def run (request table : String) (r : Registry) (generator : Generator) (engine : Engine)
    (strategy : Option String) (maxAttempts : Option Int) : Except RunFault Run :=
  (RunPlan.make request table r generator.requiresValidation strategy maxAttempts).map fun p =>
    p.run generator engine r

end MetricLayer
