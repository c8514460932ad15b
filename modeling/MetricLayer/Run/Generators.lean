import MetricLayer.Catalog.History
import MetricLayer.Generation.Plan
import MetricLayer.Generation.Provider
import MetricLayer.Run.Basic

/-!
# Generators

The generator that plans by keyword and the one that asks a language model.  Both are made for a
catalog and leave the registry alone.  Scripted generators and engines answer as they are told, while
others use the registry.
-/

namespace MetricLayer

/-- A reply with the registry as it is. -/
def leavingRegistry {ε α : Type} (f : ε → Failure) (reply : Except ε α) (r : Registry) :
    Except Failure α × Registry :=
  (reply.mapError f, r)

namespace Generator

/-- Plans by keyword. -/
def keyword (c : Catalog) : Generator where
  complete := fun _ prompt => leavingRegistry (fun f => .raised "plan" f.message) (Plan.reply c prompt)

/-- Asks a language model. -/
def model (c : Catalog) (settings : ModelSettings) (service : Service) (provider : Option String)
    (requiresValidation : Bool) : Generator where
  requiresValidation := requiresValidation
  complete := fun _ prompt =>
    leavingRegistry (fun f => .raised "provider" f.message)
      (settings.complete service (modelPrompt c prompt) provider)

/-- The generator of a deployment. -/
def ofChoice (c : Catalog) (settings : ModelSettings) (service : Service) :
    GeneratorChoice → Generator
  | .keyword => keyword c
  | .model provider => model c settings service (some provider) true

/-- Replies as it is told; during a call the registry is used. -/
def scripted (requiresValidation : Bool) (reply : Nat → String → Except Failure String)
    (meanwhile : Nat → List Registry.Step) : Generator where
  requiresValidation
  complete := fun calls prompt r => (reply calls prompt, r.after (meanwhile calls))

end Generator

/-- Answers as it is told; during a call the registry is used. -/
def Engine.scripted (answer : Nat → String → Except Failure (List Row))
    (meanwhile : Nat → List Registry.Step) : Engine where
  execute := fun calls sql r => (answer calls sql, r.after (meanwhile calls))

end MetricLayer
