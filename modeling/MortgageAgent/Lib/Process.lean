import MortgageAgent.Lib.Run

/-!
# Processes that share a store

A process is code cut at its transactions: it has returned, it has thrown, or it is about to
send a transaction, and then knows how to go on with the answer and how to go on with an
exception. What a transaction reads from outside the store (a clock, a fresh id, the answer of
a service) is its input `ι`.

Between two transactions of one process any number of transactions of others may run, and a
transaction may be lost (nothing is written and the process sees an exception) or go unreported
(everything is written and the process sees an exception). A process that dies is one that gets
an exception it does not catch.

* **`Proc`** — processes, with `bind` for sequencing and `rescue` for `try … catch`.
* **`Move`** / **`Proc.move`** — what can happen to a process at its next transaction.
* **`Pool`** — any number of processes over one store, each advanced in any order.
* **`Obeys`** — a process keeps to a protocol: each of its transactions, run at *any* store, is
  one the protocol allows in the phase the process is in. The rules follow the constructors, and
  `Obeys.move` says that whatever happens to the process, it goes on obeying.
* **`Keeps`** — a process each of whose transactions is one that a relation allows; with
  **`Quiet`** for leaving a given part of the store alone.
* **`KeepsUntil`** — the same until the process has become one of a given kind.
* **`Ends`** — what a process can end with, whatever happens to it.
-/

/-- What happens to the next transaction of a process. -/
inductive Proc.Move (ι ε : Type) where
  | commit (i : ι)
  /-- rolled back, and reported as `e` -/
  | lose (e : ε)
  /-- committed, and reported as `e` -/
  | unreported (i : ι) (e : ε)

/-- A process over the store `σ` that ends with a value or an exception. -/
inductive Proc (ι σ ε α : Type) where
  | done (a : α)
  | fail (e : ε)
  /-- the store after the transaction, the rest of the process, and its handler -/
  | step (write : ι → σ → σ) (next : ι → σ → Proc ι σ ε α) (handler : ε → Proc ι σ ε α)

/-- What a transaction that is written takes from outside. -/
def Proc.Move.input {ι ε : Type} : Proc.Move ι ε → Option ι
  | .commit i | .unreported i _ => some i
  | .lose _ => none

/-- What a transaction that is lost or goes unreported throws. -/
def Proc.Move.thrown {ι ε : Type} : Proc.Move ι ε → Option ε
  | .lose e | .unreported _ e => some e
  | .commit _ => none

/-- The transaction is written, whether the process learns of it or not. -/
def Proc.Move.commits {ι ε : Type} : Proc.Move ι ε → Bool
  | .commit _ | .unreported _ _ => true
  | .lose _ => false

namespace Proc

variable {ι σ ε α β : Type}

/-- One transaction that writes the store and answers. -/
def tx (t : ι → σ → σ × Except ε α) : Proc ι σ ε α :=
  step (fun i s => (t i s).1)
    (fun i s => match (t i s).2 with
      | .ok a => done a
      | .error e => fail e)
    fail

/-- Reads the input alone. -/
def ask (f : ι → α) : Proc ι σ ε α := tx fun i s => (s, .ok (f i))

def ofExcept : Except ε α → Proc ι σ ε α
  | .ok a => done a
  | .error e => fail e

def bind : Proc ι σ ε α → (α → Proc ι σ ε β) → Proc ι σ ε β
  | done a, f => f a
  | fail e, _ => fail e
  | step w k h, f => step w (fun i s => (k i s).bind f) fun e => (h e).bind f

/-- `try p catch (e) { c e }`. -/
def rescue : Proc ι σ ε α → (ε → Proc ι σ ε α) → Proc ι σ ε α
  | done a, _ => done a
  | fail e, c => c e
  | step w k h, c => step w (fun i s => (k i s).rescue c) fun e => (h e).rescue c

instance : Monad (Proc ι σ ε) where
  pure := done
  bind := bind

@[simp] theorem pure_eq_done (a : α) : (pure a : Proc ι σ ε α) = done a := rfl

@[simp] theorem bind_eq (p : Proc ι σ ε α) (f : α → Proc ι σ ε β) : p >>= f = p.bind f := rfl

@[simp] theorem done_bind (a : α) (f : α → Proc ι σ ε β) : (done a : Proc ι σ ε α).bind f = f a :=
  rfl

@[simp] theorem fail_bind (e : ε) (f : α → Proc ι σ ε β) :
    (fail e : Proc ι σ ε α).bind f = fail e := rfl

/-! ## What can happen to a process -/

/-- The store and the process after `m`; a process that has ended stays as it is. -/
def move (s : σ) : Proc ι σ ε α → Proc.Move ι ε → σ × Proc ι σ ε α
  | step w k _, .commit i => (w i s, k i s)
  | step _ _ h, .lose e => (s, h e)
  | step w _ h, .unreported i e => (w i s, h e)
  | done a, _ => (s, done a)
  | fail e, _ => (s, fail e)

/-- The process has a transaction to send. -/
def running : Proc ι σ ε α → Prop
  | step .. => True
  | done _ | fail _ => False

theorem bind_move {p : Proc ι σ ε α} (h : p.running) (f : α → Proc ι σ ε β) (s : σ)
    (m : Proc.Move ι ε) : (p.bind f).move s m = ((p.move s m).1, (p.move s m).2.bind f) := by
  cases p with
  | done a => exact h.elim
  | fail e => exact h.elim
  | step w k c => cases m <;> rfl

theorem rescue_move {p : Proc ι σ ε α} (h : p.running) (c : ε → Proc ι σ ε α) (s : σ)
    (m : Proc.Move ι ε) : (p.rescue c).move s m = ((p.move s m).1, (p.move s m).2.rescue c) := by
  cases p with
  | done a => exact h.elim
  | fail e => exact h.elim
  | step w k c => cases m <;> rfl

/-! ## Protocols -/

variable {γ : Type}

/-- From phase `g`, every transaction of the process is one that `G` allows at the store it
finds, with the phase it leads to, and the process ends in a phase that meets `post`. -/
def Obeys (G : γ → σ → σ → γ → Prop) (post : γ → Except ε α → Prop) :
    Proc ι σ ε α → γ → Prop
  | done a, g => post g (.ok a)
  | fail e, g => post g (.error e)
  | step w k h, g =>
    (∀ i s, ∃ g', G g s (w i s) g' ∧ Obeys G post (k i s) g' ∧ ∀ e, Obeys G post (h e) g')
      ∧ ∀ e, Obeys G post (h e) g

variable {G : γ → σ → σ → γ → Prop} {post : γ → Except ε α → Prop} {g : γ}

/-- Whatever happens to the next transaction, the process goes on obeying. -/
theorem Obeys.move {p : Proc ι σ ε α} (h : p.Obeys G post g) (hG : ∀ g s, G g s s g) (s : σ)
    (m : Proc.Move ι ε) : ∃ g', G g s (p.move s m).1 g' ∧ (p.move s m).2.Obeys G post g' := by
  cases p with
  | done a => exact ⟨g, hG g s, h⟩
  | fail e => exact ⟨g, hG g s, h⟩
  | step w k c =>
    cases m with
    | commit i =>
      obtain ⟨g', hw, hk, -⟩ := h.1 i s
      exact ⟨g', hw, hk⟩
    | lose e => exact ⟨g, hG g s, h.2 e⟩
    | unreported i e =>
      obtain ⟨g', hw, -, hc⟩ := h.1 i s
      exact ⟨g', hw, hc e⟩

/-- A process that obeys a protocol obeys one whose phases say less of it. -/
theorem Obeys.map {δ : Type} {G' : δ → σ → σ → δ → Prop} {post' : δ → Except ε α → Prop} {φ : γ → δ}
    (hG : ∀ g s s' g', G g s s' g' → G' (φ g) s s' (φ g'))
    (hpost : ∀ g r, post g r → post' (φ g) r) :
    ∀ {p : Proc ι σ ε α} {g : γ}, p.Obeys G post g → p.Obeys G' post' (φ g) := by
  intro p
  induction p with
  | done a => exact fun {g} h => hpost g _ h
  | fail e => exact fun {g} h => hpost g _ h
  | step w k c ihk ihc =>
    intro g h
    refine ⟨fun i s => ?_, fun e => ihc e (h.2 e)⟩
    obtain ⟨g', hw, hk, hc⟩ := h.1 i s
    exact ⟨φ g', hG _ _ _ _ hw, ihk i s hk, fun e => ihc e (hc e)⟩

/-- A process that obeys a protocol obeys a more liberal one, with a weaker postcondition. -/
theorem Obeys.imp {G' : γ → σ → σ → γ → Prop} {post' : γ → Except ε α → Prop}
    (hG : ∀ g s s' g', G g s s' g' → G' g s s' g') (hpost : ∀ g r, post g r → post' g r)
    {p : Proc ι σ ε α} {g : γ} (h : p.Obeys G post g) : p.Obeys G' post' g :=
  h.map (φ := id) hG hpost

/-- The rule for sequencing: the rest obeys from every phase the first part returns in. -/
theorem Obeys.bind {f : α → Proc ι σ ε β} {post' : γ → Except ε β → Prop}
    (hf : ∀ g a, post g (.ok a) → (f a).Obeys G post' g)
    (he : ∀ g e, post g (.error e) → post' g (.error e)) :
    ∀ {p : Proc ι σ ε α} {g : γ}, p.Obeys G post g → (p.bind f).Obeys G post' g := by
  intro p
  induction p with
  | done a => exact fun {g} h => hf g a h
  | fail e => exact fun {g} h => he g e h
  | step w k c ihk ihc =>
    intro g h
    refine ⟨fun i s => ?_, fun e => ihc e (h.2 e)⟩
    obtain ⟨g', hw, hk, hc⟩ := h.1 i s
    exact ⟨g', hw, ihk i s hk, fun e => ihc e (hc e)⟩

/-- The rule for `try … catch`: the handler obeys from every phase the body throws in. -/
theorem Obeys.rescue {c : ε → Proc ι σ ε α} {post' : γ → Except ε α → Prop}
    (hc : ∀ g e, post g (.error e) → (c e).Obeys G post' g)
    (ha : ∀ g a, post g (.ok a) → post' g (.ok a)) :
    ∀ {p : Proc ι σ ε α} {g : γ}, p.Obeys G post g → (p.rescue c).Obeys G post' g := by
  intro p
  induction p with
  | done a => exact fun {g} h => ha g a h
  | fail e => exact fun {g} h => hc g e h
  | step w k c ihk ihc =>
    intro g h
    refine ⟨fun i s => ?_, fun e => ihc e (h.2 e)⟩
    obtain ⟨g', hw, hk, hc⟩ := h.1 i s
    exact ⟨g', hw, ihk i s hk, fun e => ihc e (hc e)⟩

/-- The rule for one transaction: `G` allows it at every store, into a phase that meets `post`
for its answer and for an answer that never arrives. -/
theorem obeys_tx {t : ι → σ → σ × Except ε α}
    (ht : ∀ i s, ∃ g', G g s (t i s).1 g' ∧ post g' (t i s).2 ∧ ∀ e, post g' (.error e))
    (he : ∀ e, post g (.error e)) : (tx t).Obeys G post g := by
  refine ⟨fun i s => ?_, he⟩
  obtain ⟨g', hw, hr, hc⟩ := ht i s
  refine ⟨g', hw, ?_, hc⟩
  show Obeys G post (match (t i s).2 with
    | .ok a => done a
    | .error e => fail e) g'
  cases h : (t i s).2 with
  | ok a => rw [h] at hr; exact hr
  | error e => rw [h] at hr; exact hr

/-! ## Processes that leave a part of the store alone -/

/-- Every transaction of the process is one that `R` allows. -/
def Keeps (R : σ → σ → Prop) (p : Proc ι σ ε α) : Prop :=
  p.Obeys (fun (_ : Unit) s s' _ => R s s') (fun _ _ => True) ()

/-- No transaction of the process changes `view`. -/
abbrev Quiet {τ : Type} (view : σ → τ) (p : Proc ι σ ε α) : Prop :=
  p.Keeps fun s s' => view s' = view s

section Keeps

variable {R : σ → σ → Prop}

@[simp] theorem keeps_done (a : α) : (done a : Proc ι σ ε α).Keeps R := trivial

@[simp] theorem keeps_fail (e : ε) : (fail e : Proc ι σ ε α).Keeps R := trivial

theorem keeps_tx {t : ι → σ → σ × Except ε α} (h : ∀ i s, R s (t i s).1) : (tx t).Keeps R :=
  obeys_tx (fun i s => ⟨(), h i s, trivial, fun _ => trivial⟩) fun _ => trivial

theorem keeps_ofExcept (r : Except ε α) : (ofExcept r : Proc ι σ ε α).Keeps R := by
  cases r <;> trivial

theorem Keeps.bind {p : Proc ι σ ε α} {f : α → Proc ι σ ε β} (hp : p.Keeps R)
    (hf : ∀ a, (f a).Keeps R) : (p.bind f).Keeps R :=
  Obeys.bind (fun _ a _ => hf a) (fun _ _ _ => trivial) hp

theorem Keeps.rescue {p : Proc ι σ ε α} {c : ε → Proc ι σ ε α} (hp : p.Keeps R)
    (hc : ∀ e, (c e).Keeps R) : (p.rescue c).Keeps R :=
  Obeys.rescue (fun _ e _ => hc e) (fun _ _ _ => trivial) hp

theorem Keeps.move {p : Proc ι σ ε α} (h : p.Keeps R) (hR : ∀ s, R s s) (s : σ)
    (m : Proc.Move ι ε) : R s (p.move s m).1 ∧ (p.move s m).2.Keeps R := by
  obtain ⟨_, hs, hrest⟩ := Obeys.move h (fun _ => hR) s m
  exact ⟨hs, hrest⟩

/-- Such a process stays in its phase under any protocol that allows what `R` does. -/
theorem Keeps.obeys (hG : ∀ s s', R s s' → G g s s' g) (hpost : ∀ r, post g r) :
    ∀ {p : Proc ι σ ε α}, p.Keeps R → p.Obeys G post g := by
  intro p
  induction p with
  | done a => exact fun _ => hpost _
  | fail e => exact fun _ => hpost _
  | step w k c ihk ihc =>
    intro h
    refine ⟨fun i s => ?_, fun e => ihc e (h.2 e)⟩
    obtain ⟨_, hw, hk, -⟩ := h.1 i s
    exact ⟨g, hG _ _ hw, ihk i s hk, fun e => ihc e (h.2 e)⟩

end Keeps

/-! ## Up to a point -/

/-- The process keeps to `R` until it has ended or is one of `Q`. -/
inductive KeepsUntil (R : σ → σ → Prop) (Q : Proc ι σ ε α → Prop) : Proc ι σ ε α → Prop where
  | done (a : α) : KeepsUntil R Q (.done a)
  | fail (e : ε) : KeepsUntil R Q (.fail e)
  | reached {p : Proc ι σ ε α} (h : Q p) : KeepsUntil R Q p
  | step {w : ι → σ → σ} {k : ι → σ → Proc ι σ ε α} {c : ε → Proc ι σ ε α}
      (hw : ∀ i s, R s (w i s)) (hk : ∀ i s, KeepsUntil R Q (k i s))
      (hc : ∀ e, KeepsUntil R Q (c e)) : KeepsUntil R Q (.step w k c)

section KeepsUntil

variable {R : σ → σ → Prop} {Q : Proc ι σ ε α → Prop} {p : Proc ι σ ε α}

theorem Keeps.until : ∀ {p : Proc ι σ ε α}, p.Keeps R → p.KeepsUntil R Q := by
  intro p
  induction p with
  | done a => exact fun _ => .done a
  | fail e => exact fun _ => .fail e
  | step w k c ihk ihc =>
    intro h
    refine .step (fun i s => ?_) (fun i s => ?_) fun e => ihc e (h.2 e)
    · obtain ⟨_, hw, -, -⟩ := h.1 i s
      exact hw
    · obtain ⟨_, -, hk, -⟩ := h.1 i s
      exact ihk i s hk

theorem KeepsUntil.bind {f : α → Proc ι σ ε β} {Q' : Proc ι σ ε β → Prop}
    (h : p.KeepsUntil R Q) (hQ : ∀ q, Q q → Q' (q.bind f))
    (hf : ∀ a, (f a).KeepsUntil R Q') : (p.bind f).KeepsUntil R Q' := by
  induction h with
  | done a => exact hf a
  | fail e => exact .fail e
  | reached hq => exact .reached (hQ _ hq)
  | step hw _ _ ihk ihc => exact .step hw ihk ihc

theorem KeepsUntil.rescue {c : ε → Proc ι σ ε α} {Q' : Proc ι σ ε α → Prop}
    (h : p.KeepsUntil R Q) (hQ : ∀ q, Q q → Q' (q.rescue c))
    (hc : ∀ e, (c e).KeepsUntil R Q') : (p.rescue c).KeepsUntil R Q' := by
  induction h with
  | done a => exact .done a
  | fail e => exact hc e
  | reached hq => exact .reached (hQ _ hq)
  | step hw _ _ ihk ihc => exact .step hw ihk ihc

theorem Keeps.bind_until {f : α → Proc ι σ ε β} {Q' : Proc ι σ ε β → Prop}
    (h : p.Keeps R) (hf : ∀ a, (f a).KeepsUntil R Q') : (p.bind f).KeepsUntil R Q' :=
  KeepsUntil.bind (Q := fun _ => False) h.until (fun _ hq => hq.elim) hf

/-- Whatever happens to the next transaction of a process that is not yet one of `Q`. -/
theorem KeepsUntil.move (h : p.KeepsUntil R Q) (hQ : ¬Q p) (hR : ∀ s, R s s) (s : σ)
    (m : Proc.Move ι ε) : R s (p.move s m).1 ∧ (p.move s m).2.KeepsUntil R Q := by
  cases h with
  | done a => exact ⟨hR s, .done a⟩
  | fail e => exact ⟨hR s, .fail e⟩
  | reached hq => exact absurd hq hQ
  | step hw hk hc =>
    cases m with
    | commit i => exact ⟨hw i s, hk i s⟩
    | lose e => exact ⟨hR s, hc e⟩
    | unreported i e => exact ⟨hw i s, hc e⟩

end KeepsUntil

/-! ## What a process can end with -/

/-- Whatever happens to the process, what it ends with meets `post`. -/
def Ends (post : Except ε α → Prop) (p : Proc ι σ ε α) : Prop :=
  p.Obeys (fun (_ : Unit) _ _ _ => True) (fun _ => post) ()

theorem Ends.bind {p : Proc ι σ ε α} {f : α → Proc ι σ ε β} {post : Except ε α → Prop}
    {post' : Except ε β → Prop} (hp : p.Ends post) (hf : ∀ a, post (.ok a) → (f a).Ends post')
    (he : ∀ e, post (.error e) → post' (.error e)) : (p.bind f).Ends post' :=
  Obeys.bind (fun _ a ha => hf a ha) (fun _ e h => he e h) hp

theorem Ends.rescue {p : Proc ι σ ε α} {c : ε → Proc ι σ ε α} {post post' : Except ε α → Prop}
    (hp : p.Ends post) (hc : ∀ e, post (.error e) → (c e).Ends post')
    (ha : ∀ a, post (.ok a) → post' (.ok a)) : (p.rescue c).Ends post' :=
  Obeys.rescue (fun _ e h => hc e h) (fun _ a h => ha a h) hp

theorem ends_trivial (p : Proc ι σ ε α) : p.Ends fun _ => True := by
  induction p with
  | done a => trivial
  | fail e => trivial
  | step w k c ihk ihc => exact ⟨fun i s => ⟨(), trivial, ihk i s, ihc⟩, ihc⟩

theorem Ends.move {p : Proc ι σ ε α} {post : Except ε α → Prop} (h : p.Ends post) (s : σ)
    (m : Proc.Move ι ε) : (p.move s m).2.Ends post := by
  obtain ⟨_, -, hp⟩ := Obeys.move h (fun _ _ => trivial) s m
  exact hp

end Proc

/-! ## Pools -/

/-- Processes over one store, and what those that ended returned. -/
structure Pool (ι σ ε α : Type) where
  store : σ
  running : List (Proc ι σ ε α) := []
  returned : List α := []

namespace Pool

variable {ι σ ε α γ : Type}

/-- The pool in which `p` is what has become of a process taken out of `rest`. -/
def keep (pool : Pool ι σ ε α) (rest : List (Proc ι σ ε α)) (s : σ) :
    Proc ι σ ε α → Pool ι σ ε α
  | .done a => { store := s, running := rest, returned := pool.returned ++ [a] }
  | .fail _ => { pool with store := s, running := rest }
  | p => { pool with store := s, running := rest ++ [p] }

/-- The `n`-th process takes part in `m`, and goes to the end of the list. -/
def move (pool : Pool ι σ ε α) (n : Nat) (m : Proc.Move ι ε) : Pool ι σ ε α :=
  match pool.running[n]? with
  | none => pool
  | some p =>
    let (s, p') := p.move pool.store m
    pool.keep (pool.running.eraseIdx n) s p'

/-- A new process, whose first transaction commits. -/
def spawn (pool : Pool ι σ ε α) (p : Proc ι σ ε α) (i : ι) : Pool ι σ ε α :=
  let (s, p') := p.move pool.store (.commit i)
  pool.keep pool.running s p'

variable {G : γ → σ → σ → γ → Prop} {post : γ → Except ε α → Prop} {I : σ → Prop}
  {C : γ → σ → Prop} {R : α → σ → Prop}

/-- What makes a protocol sound for a pool: `I` holds of the store, `C g` of the store beside
every process in phase `g`, and `R a` beside every returned `a`; an allowed transaction keeps
all three, its own process's and everyone else's. -/
structure Stable (G : γ → σ → σ → γ → Prop) (post : γ → Except ε α → Prop) (I : σ → Prop)
    (C : γ → σ → Prop) (R : α → σ → Prop) : Prop where
  refl : ∀ g s, G g s s g
  store : ∀ {g s s' g'}, G g s s' g' → I s → C g s → I s'
  own : ∀ {g s s' g'}, G g s s' g' → I s → C g s → C g' s'
  other : ∀ {g s s' g' f}, G g s s' g' → I s → C g s → C f s → C f s'
  result : ∀ {g s s' g' a}, G g s s' g' → I s → C g s → R a s → R a s'
  returns : ∀ {g s a}, post g (.ok a) → I s → C g s → R a s

/-- The invariant of a pool under a protocol. -/
structure Keeps (G : γ → σ → σ → γ → Prop) (post : γ → Except ε α → Prop) (I : σ → Prop)
    (C : γ → σ → Prop) (R : α → σ → Prop) (pool : Pool ι σ ε α) : Prop where
  store : I pool.store
  running : ∀ p ∈ pool.running, ∃ g, p.Obeys G post g ∧ C g pool.store
  returned : ∀ a ∈ pool.returned, R a pool.store

/-- Putting a process back keeps the invariant when the store moved as the protocol allows. -/
theorem Keeps.keep {pool : Pool ι σ ε α} (h : pool.Keeps G post I C R)
    (hS : Stable G post I C R) {rest : List (Proc ι σ ε α)} (hrest : ∀ p ∈ rest, p ∈ pool.running)
    {g g' : γ} {s : σ} (hw : G g pool.store s g') (hg : C g pool.store) {p : Proc ι σ ε α}
    (hp : p.Obeys G post g') : (pool.keep rest s p).Keeps G post I C R := by
  have hI := hS.store hw h.store hg
  have hrunning : ∀ q ∈ rest, ∃ f, q.Obeys G post f ∧ C f s := by
    intro q hq
    obtain ⟨f, hf, hC⟩ := h.running q (hrest q hq)
    exact ⟨f, hf, hS.other hw h.store hg hC⟩
  have hreturned : ∀ a ∈ pool.returned, R a s := by
    intro a ha
    exact hS.result hw h.store hg (h.returned a ha)
  cases p with
  | done a =>
    refine ⟨hI, hrunning, ?_⟩
    intro b hb
    rcases List.mem_append.mp hb with hb | hb
    · exact hreturned b hb
    · rw [List.mem_singleton.mp hb]
      exact hS.returns hp hI (hS.own hw h.store hg)
  | fail e => exact ⟨hI, hrunning, hreturned⟩
  | step w k c =>
    refine ⟨hI, ?_, hreturned⟩
    intro q hq
    rcases List.mem_append.mp hq with hq | hq
    · exact hrunning q hq
    · rw [List.mem_singleton.mp hq]
      exact ⟨g', hp, hS.own hw h.store hg⟩

theorem Keeps.move {pool : Pool ι σ ε α} (h : pool.Keeps G post I C R)
    (hS : Stable G post I C R) (n : Nat) (m : Proc.Move ι ε) :
    (pool.move n m).Keeps G post I C R := by
  unfold Pool.move
  cases hp : pool.running[n]? with
  | none => exact h
  | some p =>
    obtain ⟨g, hobeys, hg⟩ := h.running p (List.mem_of_getElem? hp)
    obtain ⟨g', hw, hp'⟩ := hobeys.move hS.refl pool.store m
    exact h.keep hS (fun q hq => List.mem_of_mem_eraseIdx hq) hw hg hp'

theorem Keeps.spawn {pool : Pool ι σ ε α} (h : pool.Keeps G post I C R)
    (hS : Stable G post I C R) {p : Proc ι σ ε α} {i : ι} {g g' : γ}
    (hw : G g pool.store (p.move pool.store (.commit i)).1 g') (hg : C g pool.store)
    (hp : (p.move pool.store (.commit i)).2.Obeys G post g') :
    (pool.spawn p i).Keeps G post I C R :=
  h.keep hS (fun _ hq => hq) hw hg hp

end Pool
