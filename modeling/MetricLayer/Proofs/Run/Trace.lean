import MetricLayer.Proofs.Run.Outcome
import MetricLayer.Proofs.Selection.Extract
import MetricLayer.Proofs.Selection.Table
import MetricLayer.Proofs.Text.Pieces

/-!
# The trace of a run

The states of a run are those of its attempts with a retry between two of them, and one final state
(`Run.Traced`).  What an attempt passes through follows from the answer of the generator alone
(`RunPlan.Block`): a run validates what it extracted, and executes what it extracted and did not reject.
A statement that cannot be read leaves a run without an outcome.
-/

namespace MetricLayer

open MetricLayer.Text MetricLayer.Sql

namespace RunPlan

variable {p : RunPlan} {generator : Generator} {engine : Engine}
  {left attempts calls : Nat} {prompt extracted : String} {r : Registry}

/-! ## Attempts -/

theorem vet_of_admits {query : Option Query} (h : p.Admits extracted query) :
    p.vet extracted = p.order extracted query := by
  rw [vet]
  rw [Admits] at h
  by_cases hvalidates : p.validates
  · rw [if_pos hvalidates] at h ⊢
    obtain ⟨reviewed, hreview, hvalid, rfl⟩ := h
    rw [hreview]
    exact if_pos hvalid
  · rw [if_neg hvalidates] at h ⊢
    rw [h]
    rfl

/-- An attempt whose call of the engine is answered with rows succeeds, unless the run was broken off
before. -/
theorem Calls.isSuccess {sql : String} {rows : List Row}
    (h : p.Calls generator engine attempts calls prompt r sql (.ok rows))
    (hbroken : ∀ executed b,
      (p.attempt generator engine attempts calls prompt r).1 ≠ .brokenOff executed b) :
    (p.attempt generator engine attempts calls prompt r).1.isSuccess := by
  obtain ⟨between, after, reply, extracted, query, hreply, hextracted, hadmits, rfl, hanswer⟩ := h.origin
  rw [attempt] at hbroken ⊢
  simp only [hreply, hextracted] at hbroken ⊢
  rw [runStatement, vet_of_admits hadmits] at hbroken ⊢
  cases horder : p.order extracted query with
  | error b =>
    rw [horder] at hbroken
    exact absurd rfl (hbroken none b)
  | ok v =>
    obtain ⟨query', rfl, -⟩ := of_order_eq_ok horder
    simp only [h.gate, hanswer]
    rfl

/-! ## The number of attempts -/

end RunPlan

/-! ## Runs -/

namespace Run

variable {p : RunPlan} {generator : Generator} {engine : Engine} {r : Registry} {o : RunOutcome}

section states

variable {validates : Bool} {e : AttemptEnd}

end states

end Run

end MetricLayer
