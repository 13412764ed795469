import MortgageAgent.Lib.Run

/-!
# What one observer sees of a run

A system serves many parties; one of them sees a part of its state and some of its steps. When every
step either is one that he sees, and then does to his part what a system of his own would do, or
leaves his part alone, a whole run is to him a run of a system of his own.

* **`project`** — the steps of a run that he sees.
* **`exec_project`** — the rule.
-/

namespace Runs

variable {σ α τ β : Type*}

/-- The steps of the run that the observer sees, as he sees them. -/
def project (step : σ → α → σ) (sees : σ → α → Option β) : σ → List α → List β
  | _, [] => []
  | s, a :: as => (sees s a).toList ++ project step sees (step s a) as

/-- **The rule**: the steps that are seen do to the view what `step'` does, and the others leave it
as it is. -/
theorem exec_project {step : σ → α → σ} {step' : τ → β → τ} {view : σ → τ}
    {sees : σ → α → Option β} {I : σ → Prop} {G : σ → α → Prop}
    (hinv : ∀ s a, I s → G s a → I (step s a))
    (hview : ∀ s a, I s → G s a → view (step s a) = exec step' (view s) (sees s a).toList)
    {s : σ} {as : List α} (hs : I s) (hG : AllSteps step G s as) :
    view (exec step s as) = exec step' (view s) (project step sees s as) := by
  induction as generalizing s with
  | nil => rfl
  | cons a as ih =>
    rw [exec_cons, project, exec_append, ← hview s a hs hG.1]
    exact ih (hinv s a hs hG.1) hG.2

end Runs
