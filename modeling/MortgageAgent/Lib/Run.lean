import Mathlib.Data.List.Induction

/-!
# Runs of a step function

A system is a step function `step : σ → α → σ`: a label `α` names one atomic step
(which party moves, with which inputs), and a label that is not enabled leaves the
state as it is. A run is then a list of labels, and every interleaving of any number
of parties is one such list.

* **`exec`** — the state a run ends in.
* **`AllSteps`** — a property of *every step* of a run, stated of the state before the
  step and its label. It serves both as a conclusion (a law each step obeys) and as a
  hypothesis (a side condition each step of the run meets).
* **`exec_inv`** / **`exec_inv_of_allSteps`** — the invariant rules: what one step
  preserves, a whole run preserves.
* **`exec_inv_of_history`** — the same for an invariant that remembers the run.
* **`exec_iff_allSteps`** — what each step keeps exactly if it meets `G`, a run keeps exactly if
  all its steps do.
* **`forall_before_iff_allSteps`** — the same of every state the run passes through.
* **`countSteps`** — how many steps of a run meet a decidable test.
-/

namespace Runs

variable {σ α : Type*}

/-- The state reached from `s` by the run `as`. -/
def exec (step : σ → α → σ) (s : σ) (as : List α) : σ :=
  as.foldl step s

@[simp] theorem exec_nil (step : σ → α → σ) (s : σ) : exec step s [] = s := rfl

@[simp] theorem exec_cons (step : σ → α → σ) (s : σ) (a : α) (as : List α) :
    exec step s (a :: as) = exec step (step s a) as := rfl

theorem exec_append (step : σ → α → σ) (s : σ) (as bs : List α) :
    exec step s (as ++ bs) = exec step (exec step s as) bs := by
  simp [exec, List.foldl_append]

/-- `P` holds of every step of the run: of the state the step starts in and its label. -/
def AllSteps (step : σ → α → σ) (P : σ → α → Prop) : σ → List α → Prop
  | _, [] => True
  | s, a :: as => P s a ∧ AllSteps step P (step s a) as

instance AllSteps.decidable (step : σ → α → σ) (P : σ → α → Prop)
    [∀ s a, Decidable (P s a)] : ∀ s as, Decidable (AllSteps step P s as)
  | _, [] => isTrue trivial
  | s, a :: as =>
    match decidable step P (step s a) as with
    | isTrue h => decidable_of_iff (P s a) ⟨fun ha => ⟨ha, h⟩, fun h' => h'.1⟩
    | isFalse h => isFalse fun h' => h h'.2

/-- A side condition met along a run is met along what follows a prefix. -/
theorem AllSteps.of_append_right {step : σ → α → σ} {P : σ → α → Prop} {s : σ}
    {as bs : List α} (h : AllSteps step P s (as ++ bs)) :
    AllSteps step P (exec step s as) bs := by
  induction as generalizing s with
  | nil => exact h
  | cons a as ih => exact ih h.2

/-- Where a side condition is not met along a run, one step breaks it. -/
theorem exists_step_of_not_allSteps {step : σ → α → σ} {P : σ → α → Prop} {s : σ} {as : List α}
    (h : ¬ AllSteps step P s as) :
    ∃ before a after, as = before ++ a :: after ∧ ¬ P (exec step s before) a := by
  induction as generalizing s with
  | nil => exact absurd trivial h
  | cons a as ih =>
    by_cases ha : P s a
    · have hrest : ¬ AllSteps step P (step s a) as := fun hrest => h ⟨ha, hrest⟩
      obtain ⟨before, b, after, rfl, hb⟩ := ih hrest
      exact ⟨a :: before, b, after, rfl, hb⟩
    · exact ⟨[], a, as, rfl, ha⟩

theorem AllSteps.of_append_left {step : σ → α → σ} {P : σ → α → Prop} {s : σ}
    {as bs : List α} (h : AllSteps step P s (as ++ bs)) : AllSteps step P s as := by
  induction as generalizing s with
  | nil => trivial
  | cons a as ih => exact ⟨h.1, ih h.2⟩

theorem AllSteps.append {step : σ → α → σ} {P : σ → α → Prop} {s : σ} {as bs : List α}
    (has : AllSteps step P s as) (hbs : AllSteps step P (exec step s as) bs) :
    AllSteps step P s (as ++ bs) := by
  induction as generalizing s with
  | nil => exact hbs
  | cons a as ih => exact ⟨has.1, ih has.2 hbs⟩

theorem AllSteps.imp {step : σ → α → σ} {P Q : σ → α → Prop}
    (hPQ : ∀ s a, P s a → Q s a) :
    ∀ {s : σ} {as : List α}, AllSteps step P s as → AllSteps step Q s as
  | _, [], _ => trivial
  | _, _ :: _, h => ⟨hPQ _ _ h.1, imp hPQ h.2⟩

theorem AllSteps.and {step : σ → α → σ} {P Q : σ → α → Prop} :
    ∀ {s : σ} {as : List α}, AllSteps step P s as → AllSteps step Q s as →
      AllSteps step (fun s a => P s a ∧ Q s a) s as
  | _, [], _, _ => trivial
  | _, _ :: _, hP, hQ => ⟨⟨hP.1, hQ.1⟩, hP.2.and hQ.2⟩

/-- A condition on labels alone. -/
theorem AllSteps.of_labels {step : σ → α → σ} {P : α → Prop} :
    ∀ {s : σ} {as : List α}, (∀ a ∈ as, P a) → AllSteps step (fun _ a => P a) s as
  | _, [], _ => trivial
  | _, a :: _, h => ⟨h a (List.mem_cons_self ..), of_labels fun b hb => h b (.tail a hb)⟩

/-! ## The invariant rules -/

/-- An invariant kept by every step that meets `G` holds after every run whose steps all
meet `G`. -/
theorem exec_inv_of_allSteps {step : σ → α → σ} {I : σ → Prop} {G : σ → α → Prop}
    (hstep : ∀ s a, I s → G s a → I (step s a)) {s : σ} {as : List α}
    (hs : I s) (hG : AllSteps step G s as) : I (exec step s as) := by
  induction as generalizing s with
  | nil => exact hs
  | cons a as ih => exact ih (hstep s a hs hG.1) hG.2

/-- An invariant kept by every step holds after every run. -/
theorem exec_inv {step : σ → α → σ} {I : σ → Prop}
    (hstep : ∀ s a, I s → I (step s a)) {s : σ} (hs : I s) (as : List α) :
    I (exec step s as) := by
  induction as generalizing s with
  | nil => exact hs
  | cons a as ih => exact ih (hstep s a hs)

/-- An invariant that also looks back at the steps taken so far. -/
theorem exec_inv_of_history {step : σ → α → σ} {s : σ} {I : List α → σ → Prop}
    {G : σ → α → Prop} (hnil : I [] s)
    (hstep : ∀ as a, I as (exec step s as) → G (exec step s as) a →
      I (as ++ [a]) (step (exec step s as) a)) {as : List α} (hG : AllSteps step G s as) :
    I as (exec step s as) := by
  induction as using List.reverseRecOn with
  | nil => exact hnil
  | append_singleton as a ih =>
    rw [exec_append]
    exact hstep as a (ih hG.of_append_left) hG.of_append_right.1

/-- A law that follows from an invariant at the state a step starts in holds of every
step of every run. -/
theorem allSteps_of_inv {step : σ → α → σ} {I : σ → Prop} {P : σ → α → Prop}
    (hstep : ∀ s a, I s → I (step s a)) (hP : ∀ s a, I s → P s a) {s : σ} (hs : I s)
    (as : List α) : AllSteps step P s as := by
  induction as generalizing s with
  | nil => trivial
  | cons a as ih => exact ⟨hP s a hs, ih (hstep s a hs)⟩

/-- The same for an invariant that is kept by the steps that meet `G`. -/
theorem allSteps_of_inv_of_allSteps {step : σ → α → σ} {I : σ → Prop} {G P : σ → α → Prop}
    (hstep : ∀ s a, I s → G s a → I (step s a)) (hP : ∀ s a, I s → G s a → P s a) {s : σ}
    {as : List α} (hs : I s) (hG : AllSteps step G s as) : AllSteps step P s as := by
  induction as generalizing s with
  | nil => trivial
  | cons a as ih => exact ⟨hP s a hs hG.1, ih (hstep s a hs hG.1) hG.2⟩

/-- A property that a step keeps just if it meets `G`, and never restores, holds after a run just
if it held before and every step of the run meets `G`. -/
theorem exec_iff_allSteps {step : σ → α → σ} {I P : σ → Prop} {G : σ → α → Prop}
    (hstep : ∀ s a, I s → I (step s a)) (hiff : ∀ s a, I s → (P (step s a) ↔ P s ∧ G s a)) {s : σ}
    (hs : I s) (as : List α) : P (exec step s as) ↔ P s ∧ AllSteps step G s as := by
  induction as generalizing s with
  | nil => simp [AllSteps]
  | cons a as ih => rw [exec_cons, ih (hstep s a hs), hiff s a hs, AllSteps, and_assoc]

/-- Such a property holds in every state a run passes through just if every step of the run meets
`G`. -/
theorem forall_before_iff_allSteps {step : σ → α → σ} {I P : σ → Prop} {G : σ → α → Prop}
    (hstep : ∀ s a, I s → I (step s a)) (hiff : ∀ s a, I s → (P (step s a) ↔ P s ∧ G s a)) {s : σ}
    (hs : I s) (hP : P s) (as : List α) :
    (∀ before after, as = before ++ after → P (exec step s before)) ↔ AllSteps step G s as := by
  refine ⟨fun hall => ?_, fun hG before after hsplit => ?_⟩
  · exact ((exec_iff_allSteps hstep hiff hs as).mp (hall as [] (List.append_nil as).symm)).2
  · rw [hsplit] at hG
    exact (exec_iff_allSteps hstep hiff hs before).mpr ⟨hP, hG.of_append_left⟩

/-! ## Counting steps -/

/-- The number of steps of the run that meet the test `p`. -/
def countSteps (step : σ → α → σ) (p : σ → α → Bool) : σ → List α → Nat
  | _, [] => 0
  | s, a :: as => (if p s a then 1 else 0) + countSteps step p (step s a) as

theorem countSteps_append (step : σ → α → σ) (p : σ → α → Bool) (s : σ) (as bs : List α) :
    countSteps step p s (as ++ bs) = countSteps step p s as + countSteps step p (exec step s as) bs := by
  induction as generalizing s with
  | nil => simp [countSteps]
  | cons a as ih => simp only [List.cons_append, countSteps, exec_cons, ih, Nat.add_assoc]

/-- A measure that each step raises by one exactly when it meets `p` counts those steps. -/
theorem countSteps_eq_of_measure {step : σ → α → σ} {I : σ → Prop} {p : σ → α → Bool}
    {m : σ → Nat} (hstep : ∀ s a, I s → I (step s a))
    (hm : ∀ s a, I s → m (step s a) = m s + if p s a then 1 else 0) {s : σ} (hs : I s)
    (as : List α) : m s + countSteps step p s as = m (exec step s as) := by
  induction as generalizing s with
  | nil => simp [countSteps]
  | cons a as ih =>
    rw [exec_cons, ← ih (hstep s a hs), hm s a hs, countSteps]
    omega

/-- A measure that no step that meets `G` raises, and that each step that meets `p` lowers, bounds
the number of those steps. -/
theorem countSteps_le_of_measure {step : σ → α → σ} {I : σ → Prop} {G : σ → α → Prop}
    {p : σ → α → Bool} {m : σ → Nat} (hstep : ∀ s a, I s → I (step s a))
    (hm : ∀ s a, I s → G s a → m (step s a) + (if p s a then 1 else 0) ≤ m s) {s : σ} (hs : I s)
    {as : List α} (hG : AllSteps step G s as) : countSteps step p s as ≤ m s := by
  induction as generalizing s with
  | nil => exact Nat.zero_le _
  | cons a as ih =>
    have hrest := ih (hstep s a hs) hG.2
    have hfirst := hm s a hs hG.1
    rw [countSteps]
    omega

end Runs
