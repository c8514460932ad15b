import MetricLayer.Catalog.Feed
import MetricLayer.Text.Quoted

/-!
# Registries in use

A registry is used by one call after another.  A call answers or fails, and leaves a registry: only a
catalog that is registered leaves another one than before.
-/

namespace MetricLayer

open MetricLayer.Text

namespace Registry

/-- A call on a registry. -/
inductive Step where
  | register (o : Offer)
  | get (table : String)
  | snapshot (table : String)
  | versionOf (table : String)
  | contains (table : String)
deriving Repr

/-- What a call answers. -/
inductive Answer where
  | registered (c : Catalog)
  | catalog (c : Catalog)
  | registration (g : Registration)
  | version (n : Nat)
  | contained (b : Bool)
deriving Repr

/-- Why a call fails: the registry refuses, or it holds a catalog without a version. -/
inductive Fault where
  | refused (f : FeedFault)
  | notCounted (table : String)
deriving Repr, DecidableEq

/-- The wording of a fault. -/
def Fault.message : Fault → String
  | .refused f => f.message
  | .notCounted table => quoted table

/-- The fault of a look-up that is refused. -/
def Fault.ofRejection (e : Rejection) : Fault :=
  .refused (.rejected e)

/-- The version of a table. -/
def versionOf (r : Registry) (table : String) : Except Fault Nat := do
  let _ ← (r.get table).mapError .ofRejection
  match r.versions.lookup table with
  | some n => return n
  | none => throw (.notCounted table)

/-- The answer of a call, and the registry it leaves. -/
def Step.run (r : Registry) : Step → Except Fault Answer × Registry
  | .register o =>
    match r.accept o with
    | .ok (c, s) => (.ok (.registered c), s)
    | .error f => (.error (.refused f), r)
  | .get table => (((r.get table).mapError .ofRejection).map .catalog, r)
  | .snapshot table => (((r.snapshot table).mapError .ofRejection).map .registration, r)
  | .versionOf table => ((r.versionOf table).map .version, r)
  | .contains table => (.ok (.contained (r.contains table)), r)

/-- The registry after calls in turn. -/
def after (r : Registry) (steps : List Step) : Registry :=
  steps.foldl (fun r step => (step.run r).2) r

/-- The answers of calls in turn. -/
def answers (r : Registry) : List Step → List (Except Fault Answer)
  | [] => []
  | step :: steps => (step.run r).1 :: answers (step.run r).2 steps

/-- The catalog that a call registered by its answer. -/
def newCatalog? : Except Fault Answer → Option Catalog
  | .ok (.registered c) => some c
  | _ => none

/-- The catalogs that calls register, in order. -/
def registered (r : Registry) (steps : List Step) : List Catalog :=
  (r.answers steps).filterMap newCatalog?

end Registry

end MetricLayer
