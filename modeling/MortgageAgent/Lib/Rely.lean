import MortgageAgent.Lib.Process

/-!
# A process among others

`Obeys` speaks of a process at every store. Often the store is not just any store: what the
process has read is still there, because the others only do certain things to it, and what its
transactions take from outside meets a condition. `Assures` is the weakest precondition of a
process in such a surrounding.

* **`Setting`** — what the others do between two transactions, what each transaction of the
  process meets, and what a transaction that got lost can be reported as.
* **`Assures`** — from this store on, the process ends only as `post` says.
* The rules for `bind`, `rescue` and one transaction, and `Keeps.assures`, the frame rule: a fact
  that survives everything done to the store survives a process.
* **`Assures.move`** / **`Assures.later`** — the next transaction, and a step of another.
* **`Reaches`** — a run of the process in its setting; `Assures.returns` says what it ends with.
-/

/-- The surrounding of a process. -/
structure Setting (ι σ ε : Type) where
  /-- what others may have done when the process's next transaction runs -/
  others : σ → σ → Prop
  /-- a transaction's input, with the store before and after it -/
  meets : ι → σ → σ → Prop
  /-- what a transaction that was lost, or went unreported, throws -/
  reports : ε → Prop
  others_refl : ∀ s, others s s
  others_trans : ∀ {s s' s''}, others s s' → others s' s'' → others s s''

namespace Proc

variable {ι σ ε α β : Type} {S : Setting ι σ ε}

/-- Started at the store, the process ends as `post` says, whatever the setting allows. -/
def Assures (S : Setting ι σ ε) (post : Except ε α → σ → Prop) : Proc ι σ ε α → σ → Prop
  | done a, s => post (.ok a) s
  | fail e, s => post (.error e) s
  | step w k h, s => ∀ s', S.others s s' →
    (∀ i, S.meets i s' (w i s') → Assures S post (k i s') (w i s')
      ∧ ∀ e, S.reports e → Assures S post (h e) (w i s'))
    ∧ ∀ e, S.reports e → Assures S post (h e) s'

variable {post : Except ε α → σ → Prop} {p : Proc ι σ ε α} {s : σ}

/-- One transaction, with other code after it. -/
theorem Assures.after_step {w : ι → σ → σ} {k : ι → σ → Proc ι σ ε α} {c : ε → Proc ι σ ε α}
    {k' : ι → σ → Proc ι σ ε β} {c' : ε → Proc ι σ ε β} {post' : Except ε β → σ → Prop}
    (h : (step w k c).Assures S post s)
    (hk : ∀ i s' s, (k i s').Assures S post s → (k' i s').Assures S post' s)
    (hc : ∀ e s, (c e).Assures S post s → (c' e).Assures S post' s) :
    (step w k' c').Assures S post' s := by
  intro s' hothers
  obtain ⟨hcommit, hlose⟩ := h s' hothers
  refine ⟨fun i hmeets => ?_, fun e hreports => hc e _ (hlose e hreports)⟩
  obtain ⟨hanswer, hthrow⟩ := hcommit i hmeets
  exact ⟨hk i s' _ hanswer, fun e hreports => hc e _ (hthrow e hreports)⟩

theorem Assures.bind {f : α → Proc ι σ ε β} {post' : Except ε β → σ → Prop}
    (hf : ∀ a s, post (.ok a) s → (f a).Assures S post' s)
    (he : ∀ e s, post (.error e) s → post' (.error e) s) (h : p.Assures S post s) :
    (p.bind f).Assures S post' s := by
  induction p generalizing s with
  | done a => exact hf a s h
  | fail e => exact he e s h
  | step w k c ihk ihc => exact h.after_step (fun i s' _ => ihk i s') fun e _ => ihc e

theorem Assures.rescue {c : ε → Proc ι σ ε α} {post' : Except ε α → σ → Prop}
    (hc : ∀ e s, post (.error e) s → (c e).Assures S post' s)
    (ha : ∀ a s, post (.ok a) s → post' (.ok a) s) (h : p.Assures S post s) :
    (p.rescue c).Assures S post' s := by
  induction p generalizing s with
  | done a => exact ha a s h
  | fail e => exact hc e s h
  | step w k c ihk ihc => exact h.after_step (fun i s' _ => ihk i s') fun e _ => ihc e

theorem Assures.imp {post' : Except ε α → σ → Prop} (hpost : ∀ r s, post r s → post' r s)
    (h : p.Assures S post s) : p.Assures S post' s := by
  induction p generalizing s with
  | done a => exact hpost _ _ h
  | fail e => exact hpost _ _ h
  | step w k c ihk ihc => exact h.after_step (fun i s' _ => ihk i s') fun e _ => ihc e

/-- One transaction, of a kind that the others may do as well. -/
theorem assures_tx {t : ι → σ → σ × Except ε α} (hkeeps : (tx t).Keeps S.others)
    (ht : ∀ s' i, S.others s s' → S.meets i s' (t i s').1 → post (t i s').2 (t i s').1)
    (he : ∀ e s', S.others s s' → S.reports e → post (.error e) s') :
    (tx t).Assures S post s := by
  intro s' hothers
  refine ⟨fun i hmeets => ?_, fun e => he e s' hothers⟩
  have hown : S.others s' (t i s').1 := (hkeeps.move S.others_refl s' (.commit i)).1
  refine ⟨?_, fun e => he e _ (S.others_trans hothers hown)⟩
  have hpost := ht s' i hothers hmeets
  dsimp only
  cases h : (t i s').2 with
  | ok a => rw [h] at hpost; exact hpost
  | error e => rw [h] at hpost; exact hpost

/-- The frame rule: what everyone leaves true is true when the process has ended. -/
theorem Keeps.assures {K : σ → Prop} (hp : p.Keeps S.others)
    (hK : ∀ s s', S.others s s' → K s → K s') (hs : K s) : p.Assures S (fun _ => K) s := by
  induction p generalizing s with
  | done a => exact hs
  | fail e => exact hs
  | step w k c ihk ihc =>
    intro s' hs'
    have hbefore := hK s s' hs' hs
    refine ⟨fun i _ => ?_, fun e _ => ihc e (hp.2 e) hbefore⟩
    obtain ⟨_, hw, hk, hc⟩ := hp.1 i s'
    have hafter := hK s' _ hw hbefore
    exact ⟨ihk i s' hk hafter, fun e _ => ihc e (hc e) hafter⟩

/-- The frame rule, for a process of which is known what it can end with. -/
theorem Keeps.assures_ends {K : σ → Prop} {ends : Except ε α → Prop} (hp : p.Keeps S.others)
    (hends : p.Ends ends) (hK : ∀ s s', S.others s s' → K s → K s') (hs : K s) :
    p.Assures S (fun r s => ends r ∧ K s) s := by
  induction p generalizing s with
  | done a => exact ⟨hends, hs⟩
  | fail e => exact ⟨hends, hs⟩
  | step w k c ihk ihc =>
    intro s' hs'
    have hbefore := hK s s' hs' hs
    refine ⟨fun i _ => ?_, fun e _ => ihc e (hp.2 e) (hends.2 e) hbefore⟩
    obtain ⟨_, hw, hk, -⟩ := hp.1 i s'
    obtain ⟨_, -, hkends, -⟩ := hends.1 i s'
    have hafter := hK s' _ hw hbefore
    exact ⟨ihk i s' hk hkends hafter, fun e _ => ihc e (hp.2 e) (hends.2 e) hafter⟩

theorem assures_trivial (hpost : ∀ r s, post r s) (p : Proc ι σ ε α) : p.Assures S post s := by
  induction p generalizing s with
  | done a => exact hpost _ _
  | fail e => exact hpost _ _
  | step w k c ihk ihc =>
    intro s' _
    exact ⟨fun i _ => ⟨ihk i s', fun e _ => ihc e⟩, fun e _ => ihc e⟩

/-! ## What matters when the process returns -/

/-- The process returned what `Q` says; what it threw does not matter. -/
def OnReturn (Q : α → σ → Prop) : Except ε α → σ → Prop
  | .ok a, s => Q a s
  | .error _, _ => True

theorem onReturn_trivial (r : Except ε α) (s : σ) : OnReturn (fun _ _ => True) r s := by
  cases r <;> trivial

theorem onReturn_bind {f : α → Proc ι σ ε β} {Q : α → σ → Prop} {Q' : β → σ → Prop}
    (hp : p.Assures S (OnReturn Q) s) (hf : ∀ a s, Q a s → (f a).Assures S (OnReturn Q') s) :
    (p.bind f).Assures S (OnReturn Q') s :=
  hp.bind hf fun _ _ _ => trivial

/-- One transaction, of any kind. -/
theorem onReturn_tx {t : ι → σ → σ × Except ε α} {Q : α → σ → Prop}
    (ht : ∀ s' i a, S.others s s' → S.meets i s' (t i s').1 → (t i s').2 = .ok a →
      Q a (t i s').1) : (tx t).Assures S (OnReturn Q) s := by
  intro s' hothers
  refine ⟨fun i hmeets => ⟨?_, fun _ _ => trivial⟩, fun _ _ => trivial⟩
  have hQ := fun a => ht s' i a hothers hmeets
  dsimp only
  cases h : (t i s').2 with
  | ok a => exact hQ a h
  | error e => trivial

theorem Keeps.onReturn {K : σ → Prop} (hp : p.Keeps S.others)
    (hK : ∀ s s', S.others s s' → K s → K s') (hs : K s) :
    p.Assures S (OnReturn fun _ => K) s := by
  apply (hp.assures hK hs).imp
  intro r s hs
  cases r with
  | ok a => exact hs
  | error e => trivial

/-! ## Runs -/

/-- The process has sent its next transaction. -/
theorem Assures.move (h : p.Assures S post s) {m : Proc.Move ι ε}
    (hmeets : ∀ i ∈ m.input, S.meets i s (p.move s m).1) (hreports : ∀ e ∈ m.thrown, S.reports e) :
    (p.move s m).2.Assures S post (p.move s m).1 := by
  cases p with
  | done a => exact h
  | fail e => exact h
  | step w k c =>
    obtain ⟨hcommit, hlose⟩ := h s (S.others_refl s)
    cases m with
    | commit i => exact (hcommit i (hmeets i rfl)).1
    | lose e => exact hlose e (hreports e rfl)
    | unreported i e => exact (hcommit i (hmeets i rfl)).2 e (hreports e rfl)

/-- Another has done something meanwhile. -/
theorem Assures.later (hpost : ∀ r s s', S.others s s' → post r s → post r s') {s' : σ}
    (hothers : S.others s s') (h : p.Assures S post s) : p.Assures S post s' := by
  cases p with
  | done a => exact hpost _ s s' hothers h
  | fail e => exact hpost _ s s' hothers h
  | step w k c => exact fun s'' hs'' => h s'' (S.others_trans hothers hs'')

/-- A run in the setting, from one process and store to what has become of them. -/
inductive Reaches (S : Setting ι σ ε) : Proc ι σ ε α → σ → Proc ι σ ε α → σ → Prop where
  | refl (p : Proc ι σ ε α) (s : σ) : Reaches S p s p s
  | others {p p' : Proc ι σ ε α} {s s₁ s' : σ} (h : S.others s s₁) (hrest : Reaches S p s₁ p' s') :
      Reaches S p s p' s'
  | move {p p' : Proc ι σ ε α} {s s' : σ} (m : Proc.Move ι ε)
      (hmeets : ∀ i ∈ m.input, S.meets i s (p.move s m).1) (hreports : ∀ e ∈ m.thrown, S.reports e)
      (hrest : Reaches S (p.move s m).2 (p.move s m).1 p' s') : Reaches S p s p' s'

/-- What a run ends with. -/
theorem Assures.returns (hpost : ∀ r s s', S.others s s' → post r s → post r s')
    (h : p.Assures S post s) {a : α} {s' : σ} (hrun : Reaches S p s (.done a) s') :
    post (.ok a) s' := by
  generalize hend : (done a : Proc ι σ ε α) = p' at hrun
  induction hrun with
  | refl p s =>
    subst hend
    exact h
  | others hothers _ ih => exact ih (h.later hpost hothers) hend
  | move m hmeets hreports _ ih => exact ih (h.move hmeets hreports) hend

/-- The process and the store after transactions that all commit. -/
def commits (p : Proc ι σ ε α) (s : σ) (inputs : List ι) : σ × Proc ι σ ε α :=
  inputs.foldl (fun q i => q.2.move q.1 (.commit i)) (s, p)

def returned : Proc ι σ ε α → Option α
  | done a => some a
  | fail _ | step .. => none

theorem eq_done_of_returned {a : α} (h : p.returned = some a) : p = done a := by
  cases p with
  | done b =>
    cases h
    rfl
  | fail e => cases h
  | step w k c => cases h

theorem reaches_commits (p : Proc ι σ ε α) (s : σ) {inputs : List ι}
    (hmeets : ∀ i ∈ inputs, ∀ s s', S.meets i s s') :
    Reaches S p s (p.commits s inputs).2 (p.commits s inputs).1 := by
  induction inputs generalizing p s with
  | nil => exact .refl p s
  | cons i inputs ih =>
    apply Reaches.move (.commit i)
    · intro j hj
      cases hj
      exact hmeets i List.mem_cons_self s _
    · intro e he
      cases he
    · exact ih _ _ fun j hj => hmeets j (List.mem_cons_of_mem i hj)

theorem reaches_returned {inputs : List ι} {a : α} (h : (p.commits s inputs).2.returned = some a)
    (hmeets : ∀ i ∈ inputs, ∀ s s', S.meets i s s') :
    Reaches S p s (.done a) (p.commits s inputs).1 := by
  rw [← eq_done_of_returned h]
  exact reaches_commits p s hmeets

end Proc
