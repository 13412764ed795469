import Mathlib.Algebra.GroupWithZero.Nat
import Mathlib.Data.Nat.Find
import MortgageAgent.Lib.Process

/-!
# Runs that settle

Two ways to bound what a system does of its own accord. With a *potential*, steps that are counted
are paid for by what labels from outside bring in, over any finite run. With a *rank* in a
well-founded order, an infinite run in which the outside goes quiet comes to rest.

* **`countSteps_le_of_credit`** — the rule for a potential.
* **`trace`** — the states of an infinite run.
* **`Ranked`** — each step of the system's own that does anything lowers the rank, and the others
  keep it.
* **`Ranked.settles`** — such a system, scheduled fairly, is at rest from some point on.
* **`Proc.Shorter`** — a process that has moved is a smaller one, however many answers its
  transactions may get.
-/

namespace Runs

variable {σ α : Type*}

/-! ## Potentials -/

/-- Each counted step is paid for by the potential `m`, and each label raises `m` by its `credit`
at most. -/
theorem countSteps_le_of_credit {step : σ → α → σ} {I : σ → Prop} {p : σ → α → Bool} {m : σ → Nat}
    {credit : α → Nat} (hstep : ∀ s a, I s → I (step s a))
    (hm : ∀ s a, I s → m (step s a) + (if p s a then 1 else 0) ≤ m s + credit a) {s : σ}
    (hs : I s) (as : List α) :
    countSteps step p s as + m (exec step s as) ≤ m s + (as.map credit).sum := by
  induction as generalizing s with
  | nil => simp [countSteps]
  | cons a as ih =>
    have hrest := ih (hstep s a hs)
    have hfirst := hm s a hs
    simp only [countSteps, exec_cons, List.map_cons, List.sum_cons]
    omega

/-! ## Infinite runs -/

/-- The states of the run that takes the labels one after the other. -/
def trace (step : σ → α → σ) (s : σ) (labels : Nat → α) : Nat → σ
  | 0 => s
  | n + 1 => step (trace step s labels n) (labels n)

/-- An infinite run goes through the states of its finite parts. -/
theorem trace_eq_exec (step : σ → α → σ) (s : σ) (labels : Nat → α) (n : Nat) :
    trace step s labels n = exec step s ((List.range n).map labels) := by
  induction n with
  | zero => rfl
  | succ n ih =>
    rw [trace, ih, List.range_succ, List.map_append, exec_append]
    rfl

theorem trace_inv {step : σ → α → σ} {I : σ → Prop} (hstep : ∀ s a, I s → I (step s a)) {s : σ}
    (hs : I s) (labels : Nat → α) (n : Nat) : I (trace step s labels n) := by
  rw [trace_eq_exec]
  exact exec_inv hstep hs _

/-- What holds of an infinite run at `n` and is kept by its steps from there on. -/
theorem trace_keeps {step : σ → α → σ} {s : σ} {labels : Nat → α} {P : σ → Prop} {n : Nat}
    (hn : P (trace step s labels n))
    (hkeep : ∀ k ≥ n, P (trace step s labels k) → P (trace step s labels (k + 1))) :
    ∀ k ≥ n, P (trace step s labels k) := by
  intro k hk
  induction k, hk using Nat.le_induction with
  | base => exact hn
  | succ k hk ih => exact hkeep k hk ih

/-! ## Ranks -/

/-- While the labels from `outside` stay away, a step that `advances` lowers the rank, and one that
does not keeps it, and ends no unrest. -/
structure Ranked {τ : Type*} (step : σ → α → σ) (I : σ → Prop) (outside : α → Prop)
    (advances : σ → α → Prop) (resting : σ → Prop) (rank : σ → τ) (below : τ → τ → Prop) :
    Prop where
  wf : WellFounded below
  inv : ∀ s a, I s → I (step s a)
  drops : ∀ s a, I s → ¬ outside a → advances s a → below (rank (step s a)) (rank s)
  keeps : ∀ s a, I s → ¬ outside a → ¬ advances s a → rank (step s a) = rank s
  unrest : ∀ s a, I s → ¬ outside a → ¬ advances s a → ¬ resting s → ¬ resting (step s a)

namespace Ranked

variable {τ : Type*} {step : σ → α → σ} {I : σ → Prop} {outside : α → Prop}
  {advances : σ → α → Prop} {resting : σ → Prop} {rank : σ → τ} {below : τ → τ → Prop}
  (h : Ranked step I outside advances resting rank below) {s : σ} {labels : Nat → α}

include h

/-- Up to the next advance the rank is what it was. -/
theorem rank_eq (hs : I s) {n k : Nat} (hnk : n ≤ k) (hquiet : ∀ j ≥ n, ¬ outside (labels j))
    (hidle : ∀ j, n ≤ j → j < k → ¬ advances (trace step s labels j) (labels j)) :
    rank (trace step s labels k) = rank (trace step s labels n) := by
  induction k, hnk using Nat.le_induction with
  | base => rfl
  | succ k hnk ih =>
    have hlast : ¬ advances (trace step s labels k) (labels k) := hidle k hnk (by omega)
    have hkeep := h.keeps _ _ (trace_inv h.inv hs labels k) (hquiet k hnk) hlast
    show rank (step (trace step s labels k) (labels k)) = _
    rw [hkeep, ih fun j hj hjk => hidle j hj (by omega)]

/-- Once the outside is quiet, only finitely many steps advance. -/
theorem exists_last (hs : I s) {n : Nat} (hquiet : ∀ j ≥ n, ¬ outside (labels j)) :
    ∃ m ≥ n, ∀ k ≥ m, ¬ advances (trace step s labels k) (labels k) := by
  generalize ht : rank (trace step s labels n) = t
  induction t using h.wf.induction generalizing n with
  | _ t ih =>
    by_cases hnone : ∀ k ≥ n, ¬ advances (trace step s labels k) (labels k)
    · exact ⟨n, Nat.le_refl n, hnone⟩
    · -- the first step from `n` on that advances
      have hsome : ∃ k, n ≤ k ∧ advances (trace step s labels k) (labels k) := by
        by_contra hall
        exact hnone fun k hk hadv => hall ⟨k, hk, hadv⟩
      classical
      have hfirst := Nat.find_spec hsome
      have hbefore : ∀ j, n ≤ j → j < Nat.find hsome →
          ¬ advances (trace step s labels j) (labels j) :=
        fun j hj hlt hadv => Nat.find_min hsome hlt ⟨hj, hadv⟩
      have hsame := h.rank_eq hs hfirst.1 hquiet hbefore
      have hdrop := h.drops _ _ (trace_inv h.inv hs labels _) (hquiet _ hfirst.1) hfirst.2
      rw [hsame, ht] at hdrop
      obtain ⟨m, hm, hlast⟩ := ih (rank (trace step s labels (Nat.find hsome + 1))) hdrop
        (fun j hj => hquiet j (by omega)) rfl
      exact ⟨m, by omega, hlast⟩

/-- **A ranked system settles**: when the outside has gone quiet and the system is scheduled fairly,
so that it never stays in unrest without advancing, it is at rest from some point on. -/
theorem settles (hs : I s) {n : Nat} (hquiet : ∀ j ≥ n, ¬ outside (labels j))
    (hfair : ∀ j, ∃ k ≥ j, resting (trace step s labels k)
      ∨ advances (trace step s labels k) (labels k)) :
    ∃ m ≥ n, ∀ k ≥ m, resting (trace step s labels k) := by
  obtain ⟨m, hm, hlast⟩ := h.exists_last hs hquiet
  refine ⟨m, hm, fun k hk => ?_⟩
  by_contra hunrest
  have hforever : ∀ j ≥ k, ¬ resting (trace step s labels j) := by
    apply trace_keeps (P := fun s => ¬ resting s) hunrest
    intro j hj
    exact h.unrest _ _ (trace_inv h.inv hs labels j) (hquiet j (by omega)) (hlast j (by omega))
  obtain ⟨j, hj, hjrest⟩ := hfair k
  cases hjrest with
  | inl hrest => exact hforever j hj hrest
  | inr hadv => exact hlast j (by omega) hadv

end Ranked

end Runs

/-! ## Processes -/

namespace Proc

variable {ι σ ε α : Type}

/-- What a process that had a transaction to send has become of it. -/
def Shorter (q p : Proc ι σ ε α) : Prop := p.running ∧ ∃ s m, (p.move s m).2 = q

theorem move_shorter (p : Proc ι σ ε α) (s : σ) (m : Proc.Move ι ε)
    (h : (p.move s m).2.running) : Shorter (p.move s m).2 p := by
  refine ⟨?_, s, m, rfl⟩
  cases p with
  | done a => exact h
  | fail e => exact h
  | step w k c => trivial

theorem shorter_acc (p : Proc ι σ ε α) : Acc Shorter p := by
  induction p with
  | done a => exact ⟨_, fun q hq => hq.1.elim⟩
  | fail e => exact ⟨_, fun q hq => hq.1.elim⟩
  | step w k c ihk ihc =>
    refine ⟨_, fun q hq => ?_⟩
    obtain ⟨-, s, m, hm⟩ := hq
    rw [← hm]
    cases m with
    | commit i => exact ihk i s
    | lose e => exact ihc e
    | unreported i e => exact ihc e

theorem not_shorter_self (p : Proc ι σ ε α) : ¬ Shorter p p := by
  intro h
  induction shorter_acc p with
  | _ p _ ih => exact ih p h h

/-- An attempt under way is below one that is not taken up yet, and above what it becomes. -/
def Sooner : Option (Proc ι σ ε α) → Option (Proc ι σ ε α) → Prop
  | some _, none => True
  | some q, some p => Shorter q p
  | none, _ => False

theorem sooner_wf : WellFounded (Sooner (ι := ι) (σ := σ) (ε := ε) (α := α)) := by
  have hsome : ∀ p : Proc ι σ ε α, Acc Sooner (some p) := by
    intro p
    induction shorter_acc p with
    | _ p _ ih =>
      refine ⟨_, fun q hq => ?_⟩
      cases q with
      | none => exact hq.elim
      | some q => exact ih q hq
  refine ⟨fun p => ?_⟩
  cases p with
  | none =>
    refine ⟨_, fun q hq => ?_⟩
    cases q with
    | none => exact hq.elim
    | some q => exact hsome q
  | some p => exact hsome p

end Proc
