import MortgageAgent.Lib.Process

/-!
# Processes with notes

What a process has done cannot be read off the store: a call of a service may leave no trace in it.
A noted process is a process with ghost statements, each of which notes that the code has come to
this place. Erasing the notes gives the process back, and a step of a noted process is the step of
the erased one together with the notes it passes.

* **`Noted`** — processes with notes, and **`Noted.erase`**.
* **`Noted.move`** / **`erase_move`** — one step, with the notes written before its transaction.
* **`Protocol`** — the phases of a process: what others may do beside it, which transactions lead
  from one phase to another, and which notes may be written in a phase.
* **`Follows`** — the process keeps to the protocol from this phase and this store on; with the
  rules for `bind`, `rescue`, a transaction and plain code.
* **`Follows.move`** / **`Follows.later`** — its next step, and a step of another.
-/

/-- A process that also writes notes `ν`. -/
inductive Noted (ν ι σ ε α : Type) where
  | done (a : α)
  | fail (e : ε)
  | note (n : ν) (rest : Noted ν ι σ ε α)
  | step (write : ι → σ → σ) (next : ι → σ → Noted ν ι σ ε α) (handler : ε → Noted ν ι σ ε α)

namespace Noted

variable {ν ι σ ε α β : Type}

def bind : Noted ν ι σ ε α → (α → Noted ν ι σ ε β) → Noted ν ι σ ε β
  | done a, f => f a
  | fail e, _ => fail e
  | note n p, f => note n (p.bind f)
  | step w k h, f => step w (fun i s => (k i s).bind f) fun e => (h e).bind f

def rescue : Noted ν ι σ ε α → (ε → Noted ν ι σ ε α) → Noted ν ι σ ε α
  | done a, _ => done a
  | fail e, c => c e
  | note n p, c => note n (p.rescue c)
  | step w k h, c => step w (fun i s => (k i s).rescue c) fun e => (h e).rescue c

/-- A process without notes. -/
def plain : Proc ι σ ε α → Noted ν ι σ ε α
  | .done a => done a
  | .fail e => fail e
  | .step w k h => step w (fun i s => plain (k i s)) fun e => plain (h e)

/-- The process under the notes. -/
def erase : Noted ν ι σ ε α → Proc ι σ ε α
  | done a => .done a
  | fail e => .fail e
  | note _ p => p.erase
  | step w k h => .step w (fun i s => (k i s).erase) fun e => (h e).erase

@[simp] theorem erase_plain (p : Proc ι σ ε α) : (plain p : Noted ν ι σ ε α).erase = p := by
  induction p with
  | done a => rfl
  | fail e => rfl
  | step w k h ihk ihh => simp only [plain, erase, ihk, ihh]

@[simp] theorem erase_done (a : α) : (done a : Noted ν ι σ ε α).erase = .done a := rfl

@[simp] theorem erase_fail (e : ε) : (fail e : Noted ν ι σ ε α).erase = .fail e := rfl

@[simp] theorem erase_note (n : ν) (p : Noted ν ι σ ε α) : (note n p).erase = p.erase := rfl

@[simp] theorem erase_bind (p : Noted ν ι σ ε α) (f : α → Noted ν ι σ ε β) :
    (p.bind f).erase = p.erase.bind fun a => (f a).erase := by
  induction p with
  | done a => rfl
  | fail e => rfl
  | note n p ih => exact ih
  | step w k h ihk ihh => simp only [bind, erase, Proc.bind, ihk, ihh]

@[simp] theorem erase_rescue (p : Noted ν ι σ ε α) (c : ε → Noted ν ι σ ε α) :
    (p.rescue c).erase = p.erase.rescue fun e => (c e).erase := by
  induction p with
  | done a => rfl
  | fail e => rfl
  | note n p ih => exact ih
  | step w k h ihk ihh => simp only [rescue, erase, Proc.rescue, ihk, ihh]

theorem erase_bind_eq {p : Noted ν ι σ ε α} {q : Proc ι σ ε α} {f : α → Noted ν ι σ ε β}
    {f' : α → Proc ι σ ε β} (hp : p.erase = q) (hf : ∀ a, (f a).erase = f' a) :
    (p.bind f).erase = q.bind f' := by
  rw [erase_bind, hp]
  congr 1
  funext a
  exact hf a

theorem plain_bind (p : Proc ι σ ε α) (f : α → Proc ι σ ε β) :
    (plain (p.bind f) : Noted ν ι σ ε β) = (plain p).bind fun a => plain (f a) := by
  induction p with
  | done a => rfl
  | fail e => rfl
  | step w k h ihk ihh => simp only [Proc.bind, plain, bind, ihk, ihh]

theorem plain_rescue (p : Proc ι σ ε α) (c : ε → Proc ι σ ε α) :
    (plain (p.rescue c) : Noted ν ι σ ε α) = (plain p).rescue fun e => plain (c e) := by
  induction p with
  | done a => rfl
  | fail e => rfl
  | step w k h ihk ihh => simp only [Proc.rescue, plain, rescue, ihk, ihh]

/-! ## Steps -/

/-- What a step leaves: the store, the notes written on the way, and the rest. -/
structure Moved (ν ι σ ε α : Type) where
  store : σ
  notes : List ν
  rest : Noted ν ι σ ε α

/-- The notes before the next transaction are written whatever happens to it. -/
def move (s : σ) : Noted ν ι σ ε α → Proc.Move ι ε → Moved ν ι σ ε α
  | note n p, m => { p.move s m with notes := n :: (p.move s m).notes }
  | step w k _, .commit i => ⟨w i s, [], k i s⟩
  | step _ _ h, .lose e => ⟨s, [], h e⟩
  | step w _ h, .unreported i e => ⟨w i s, [], h e⟩
  | done a, _ => ⟨s, [], done a⟩
  | fail e, _ => ⟨s, [], fail e⟩

/-- A noted process steps as the process under the notes. -/
theorem erase_move (p : Noted ν ι σ ε α) (s : σ) (m : Proc.Move ι ε) :
    p.erase.move s m = ((p.move s m).store, (p.move s m).rest.erase) := by
  induction p with
  | done a => rfl
  | fail e => rfl
  | note n p ih => exact ih
  | step w k h => cases m <;> rfl

/-! ## Protocols -/

/-- The phases `γ` of a process that writes notes. -/
structure Protocol (ν σ γ : Type) where
  /-- what others may have done when the next transaction runs -/
  others : σ → σ → Prop
  /-- a transaction of the process -/
  tx : γ → σ → σ → γ → Prop
  /-- a note of the process -/
  note : γ → ν → γ → Prop
  others_refl : ∀ s, others s s
  others_trans : ∀ {s s' s''}, others s s' → others s' s'' → others s s''

variable {γ : Type} {P : Protocol ν σ γ}

/-- From the phase and the store on, the process keeps to the protocol and ends as `post` says. -/
def Follows (P : Protocol ν σ γ) (post : γ → Except ε α → σ → Prop) :
    Noted ν ι σ ε α → γ → σ → Prop
  | done a, g, s => post g (.ok a) s
  | fail e, g, s => post g (.error e) s
  | note n p, g, s => ∃ g', P.note g n g' ∧ Follows P post p g' s
  | step w k h, g, s => ∀ s', P.others s s' →
    (∀ i, (∃ g', P.tx g s' (w i s') g' ∧ Follows P post (k i s') g' (w i s'))
      ∧ ∀ e, ∃ g', P.tx g s' (w i s') g' ∧ Follows P post (h e) g' (w i s'))
    ∧ ∀ e, Follows P post (h e) g s'

variable {post : γ → Except ε α → σ → Prop} {p : Noted ν ι σ ε α} {g : γ} {s : σ}

/-- One transaction, with other code after it. -/
theorem Follows.after_step {w : ι → σ → σ} {k : ι → σ → Noted ν ι σ ε α} {c : ε → Noted ν ι σ ε α}
    {k' : ι → σ → Noted ν ι σ ε β} {c' : ε → Noted ν ι σ ε β} {post' : γ → Except ε β → σ → Prop}
    (h : (step w k c).Follows P post g s)
    (hk : ∀ i s' g s, (k i s').Follows P post g s → (k' i s').Follows P post' g s)
    (hc : ∀ e g s, (c e).Follows P post g s → (c' e).Follows P post' g s) :
    (step w k' c').Follows P post' g s := by
  intro s' hothers
  obtain ⟨hcommit, hlose⟩ := h s' hothers
  refine ⟨fun i => ⟨?_, fun e => ?_⟩, fun e => hc e _ _ (hlose e)⟩
  · obtain ⟨g', htx, hanswer⟩ := (hcommit i).1
    exact ⟨g', htx, hk i s' _ _ hanswer⟩
  · obtain ⟨g', htx, hthrow⟩ := (hcommit i).2 e
    exact ⟨g', htx, hc e _ _ hthrow⟩

theorem Follows.bind {f : α → Noted ν ι σ ε β} {post' : γ → Except ε β → σ → Prop}
    (h : p.Follows P post g s) (hf : ∀ g a s, post g (.ok a) s → (f a).Follows P post' g s)
    (he : ∀ g e s, post g (.error e) s → post' g (.error e) s) :
    (p.bind f).Follows P post' g s := by
  induction p generalizing g s with
  | done a => exact hf g a s h
  | fail e => exact he g e s h
  | note n p ih =>
    obtain ⟨g', hnote, hp⟩ := h
    exact ⟨g', hnote, ih hp⟩
  | step w k c ihk ihc => exact h.after_step (fun i s' _ _ => ihk i s') fun e _ _ => ihc e

theorem Follows.rescue {c : ε → Noted ν ι σ ε α} {post' : γ → Except ε α → σ → Prop}
    (h : p.Follows P post g s) (hc : ∀ g e s, post g (.error e) s → (c e).Follows P post' g s)
    (ha : ∀ g a s, post g (.ok a) s → post' g (.ok a) s) :
    (p.rescue c).Follows P post' g s := by
  induction p generalizing g s with
  | done a => exact ha g a s h
  | fail e => exact hc g e s h
  | note n p ih =>
    obtain ⟨g', hnote, hp⟩ := h
    exact ⟨g', hnote, ih hp⟩
  | step w k c ihk ihc => exact h.after_step (fun i s' _ _ => ihk i s') fun e _ _ => ihc e

theorem Follows.imp {post' : γ → Except ε α → σ → Prop} (h : p.Follows P post g s)
    (hpost : ∀ g r s, post g r s → post' g r s) : p.Follows P post' g s := by
  induction p generalizing g s with
  | done a => exact hpost g _ s h
  | fail e => exact hpost g _ s h
  | note n p ih =>
    obtain ⟨g', hnote, hp⟩ := h
    exact ⟨g', hnote, ih hp⟩
  | step w k c ihk ihc => exact h.after_step (fun i s' _ _ => ihk i s') fun e _ _ => ihc e

/-- The rule for one transaction: `g₁` is the phase after an answer, `g` that after an exception. -/
theorem follows_tx {t : ι → σ → σ × Except ε α}
    (ht : ∀ s' i, P.others s s' → ∃ g', P.tx g s' (t i s').1 g' ∧ post g' (t i s').2 (t i s').1)
    (he : ∀ s' i e, P.others s s' → ∃ g', P.tx g s' (t i s').1 g' ∧ post g' (.error e) (t i s').1)
    (hlose : ∀ s' e, P.others s s' → post g (.error e) s') :
    (plain (Proc.tx t) : Noted ν ι σ ε α).Follows P post g s := by
  intro s' hothers
  refine ⟨fun i => ⟨?_, fun e => he s' i e hothers⟩, fun e => hlose s' e hothers⟩
  obtain ⟨g', htx, hpost⟩ := ht s' i hothers
  refine ⟨g', htx, ?_⟩
  dsimp only
  cases h : (t i s').2 with
  | ok a => rw [h] at hpost; exact hpost
  | error e => rw [h] at hpost; exact hpost

/-- Code without notes whose transactions are all of a kind that the others may do as well stays
in its phase, and a fact that survives them survives the code. -/
theorem plain_follows {K : σ → Prop} {p : Proc ι σ ε α} (hp : p.Keeps P.others)
    (htx : ∀ s s', P.others s s' → P.tx g s s' g) (hK : ∀ s s', P.others s s' → K s → K s')
    (hs : K s) : (plain p : Noted ν ι σ ε α).Follows P (fun g' _ s => g' = g ∧ K s) g s := by
  induction p generalizing s with
  | done a => exact ⟨rfl, hs⟩
  | fail e => exact ⟨rfl, hs⟩
  | step w k c ihk ihc =>
    intro s' hothers
    have hbefore := hK s s' hothers hs
    refine ⟨fun i => ?_, fun e => ihc e (hp.2 e) hbefore⟩
    obtain ⟨_, hw, hk, hc⟩ := hp.1 i s'
    have hafter := hK s' _ hw hbefore
    exact ⟨⟨g, htx _ _ hw, ihk i s' hk hafter⟩, fun e => ⟨g, htx _ _ hw, ihc e (hc e) hafter⟩⟩

/-- The notes lead from one phase to the other. -/
def Protocol.Path (P : Protocol ν σ γ) : γ → List ν → γ → Prop
  | g, [], g' => g' = g
  | g, n :: ns, g' => ∃ g₁, P.note g n g₁ ∧ P.Path g₁ ns g'

/-- The next step: the notes, and then nothing or one transaction. -/
theorem Follows.move (h : p.Follows P post g s) (m : Proc.Move ι ε) :
    ∃ g₁ g', P.Path g (p.move s m).notes g₁
      ∧ ((p.move s m).store = s ∧ g' = g₁ ∨ P.tx g₁ s (p.move s m).store g')
      ∧ (p.move s m).rest.Follows P post g' (p.move s m).store := by
  induction p generalizing g with
  | done a => exact ⟨g, g, rfl, Or.inl ⟨rfl, rfl⟩, h⟩
  | fail e => exact ⟨g, g, rfl, Or.inl ⟨rfl, rfl⟩, h⟩
  | note n p ih =>
    obtain ⟨g₀, hnote, hp⟩ := h
    obtain ⟨g₁, g', hpath, htx, hrest⟩ := ih hp
    exact ⟨g₁, g', ⟨g₀, hnote, hpath⟩, htx, hrest⟩
  | step w k c =>
    obtain ⟨hcommit, hlose⟩ := h s (P.others_refl s)
    cases m with
    | commit i =>
      obtain ⟨g', htx, hk⟩ := (hcommit i).1
      exact ⟨g, g', rfl, Or.inr htx, hk⟩
    | lose e => exact ⟨g, g, rfl, Or.inl ⟨rfl, rfl⟩, hlose e⟩
    | unreported i e =>
      obtain ⟨g', htx, hc⟩ := (hcommit i).2 e
      exact ⟨g, g', rfl, Or.inr htx, hc⟩

/-- Another has done something meanwhile. -/
theorem Follows.later (h : p.Follows P post g s)
    (hpost : ∀ g r s s', P.others s s' → post g r s → post g r s') {s' : σ}
    (hothers : P.others s s') : p.Follows P post g s' := by
  induction p generalizing g with
  | done a => exact hpost g _ s s' hothers h
  | fail e => exact hpost g _ s s' hothers h
  | note n p ih =>
    obtain ⟨g', hnote, hp⟩ := h
    exact ⟨g', hnote, ih hp⟩
  | step w k c => exact fun s'' hs'' => h s'' (P.others_trans hothers hs'')

end Noted
