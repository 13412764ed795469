import Mathlib.Data.List.InsertIdx
import MortgageAgent.Database.Ownership
import MortgageAgent.Lib.Projection

/-!
# A database for each tenant

What a tenant's transactions see and do is what they would see and do on a database of their own,
one without settings and without policies that holds the tenant's rows and nothing else. The other
tenants, the transactions without a context, and what a connection was used for before, are not
there for them.

* **`PrivateDb`** / **`privateStep`** — the database of one tenant.
* **`Server.only`** / **`Server.sees`** — the part of the server, and of its steps, that is the
  tenant's.
* **`WellOwned.execute_eq`** / **`only_step`** — one statement, and one step.
* **`tenant_has_private_database`** — the refinement, in every run.
-/

namespace MortgageAgent.Database

open Runs

variable {γ : Type}

/-! ## The database of one tenant -/

/-- The row that the row belongs to is there. -/
def present (rows : List (StoredRow γ)) (r : StoredRow γ) : Bool :=
  match policy r.table with
  | .parentRow parent => rows.any fun p => p.isParentOf r parent
  | _ => true

/-- A new row is the tenant's. -/
def belongs (t : Uuid) (rows : List (StoredRow γ)) (r : StoredRow γ) : Bool :=
  match policy r.table with
  | .tenantColumn => r.tenantId = some t
  | _ => present rows r

structure PrivateDb (γ : Type) where
  rows : List (StoredRow γ)
  connections : List (Option (Transaction γ))
  deriving DecidableEq

inductive PrivateLabel (γ : Type) where
  | begin (c : Nat)
  | execute (c : Nat) (statement : Statement γ)
  | commit (c : Nat)
  | rollback (c : Nat)

def PrivateDb.locked (s : PrivateDb γ) (c : Nat) (key : RowKey) : Bool :=
  (s.connections.eraseIdx c).any fun tx => tx.any fun tx => tx.locks key

def privateStep (t : Uuid) (s : PrivateDb γ) : PrivateLabel γ → PrivateDb γ
  | .begin c =>
    match s.connections[c]? with
    | some none => { s with connections := s.connections.set c (some {}) }
    | _ => s
  | .execute c statement =>
    match s.connections[c]? with
    | some (some tx) =>
      let tx := tx.execute present (belongs t) (some t) s.rows (s.locked c) statement
      { s with connections := s.connections.set c (some tx) }
    | _ => s
  | .commit c =>
    match s.connections[c]? with
    | some (some tx) => { rows := tx.commit s.rows, connections := s.connections.set c none }
    | _ => s
  | .rollback c =>
    match s.connections[c]? with
    | some (some _) => { s with connections := s.connections.set c none }
    | _ => s

/-! ## The tenant's part of the server -/

def Connection.only (t : Uuid) (connection : Connection γ) : Option (Transaction γ) :=
  match connection.transaction with
  | some (settings, tx) => if settings.serves t then some tx else none
  | none => none

def Server.only (t : Uuid) (s : Server γ) : PrivateDb γ where
  rows := s.rows.filter (·.isOf t)
  connections := s.connections.map (·.only t)

/-- The steps of the tenant's transactions. -/
def Server.sees (t : Uuid) (s : Server γ) : ServerLabel γ → Option (PrivateLabel γ)
  | .begin c context =>
    match s.connections[c]? with
    | some ⟨session, none⟩ => if (context.set session).serves t then some (.begin c) else none
    | _ => none
  | .execute c statement =>
    if (s.connections[c]?.bind (·.only t)).isSome then some (.execute c statement) else none
  | .commit c => if (s.connections[c]?.bind (·.only t)).isSome then some (.commit c) else none
  | .rollback c => if (s.connections[c]?.bind (·.only t)).isSome then some (.rollback c) else none

/-! ## The refinement -/

section Refinement

variable {t u : Uuid} {s : Server γ} {c : Nat} {session settings : Settings} {tx : Transaction γ}

/-- The policies accept what belongs to the tenant, as their own rows have it. -/
theorem WellOwned.visible_eq_belongs (h : WellOwned t s)
    (hc : s.connections[c]? = some ⟨session, some (settings, tx)⟩)
    (hserves : settings.serves u = true) {r : StoredRow γ}
    (hprotected : r.table.isProtected = true) :
    visible settings (overlay tx.changes s.rows) r
      = belongs u ((overlay tx.changes s.rows).filter (·.isOf u)) r := by
  rw [Bool.eq_iff_iff, visible_iff hserves hprotected]
  unfold belongs present
  cases hpolicy : policy r.table with
  | unprotected => exact absurd hpolicy (isProtected_iff.mp hprotected)
  | tenantColumn => simp
  | parentRow parent =>
    simp only [reduceCtorEq, false_and, false_or, Policy.parentRow.injEq, exists_eq_left',
      List.any_eq_true, List.mem_filter]
    apply exists_congr
    intro p
    rw [and_assoc]
    apply and_congr_right
    intro hp
    rw [and_comm]
    apply and_congr_left
    intro hof
    have htable : p.table = parent := by
      simp only [StoredRow.isParentOf, Bool.and_eq_true, decide_eq_true_eq] at hof
      exact hof.1
    rw [h.isOf_iff (mem_held_of_view hc hp) (htable ▸ policy_parent hpolicy)]

/-- Of the rows that are there, the policies show those of the tenant whose parents are there. -/
theorem WellOwned.visible_eq (h : WellOwned t s)
    (hc : s.connections[c]? = some ⟨session, some (settings, tx)⟩)
    (hserves : settings.serves u = true) {r : StoredRow γ} (hr : r ∈ s.held)
    (hprotected : r.table.isProtected = true) :
    visible settings (overlay tx.changes s.rows) r
      = (r.isOf u && present ((overlay tx.changes s.rows).filter (·.isOf u)) r) := by
  rw [Bool.eq_iff_iff, Bool.and_eq_true]
  constructor
  · intro hvisible
    have howner := h.owner hc hserves hr hprotected hvisible
    rw [h.visible_eq_belongs hc hserves hprotected] at hvisible
    refine ⟨by simp [StoredRow.isOf, hprotected, howner], ?_⟩
    unfold belongs at hvisible
    unfold present at hvisible ⊢
    cases hpolicy : policy r.table <;> simp_all
  · rintro ⟨hof, hpresent⟩
    rw [h.visible_eq_belongs hc hserves hprotected]
    unfold belongs
    cases hpolicy : policy r.table with
    | tenantColumn => exact decide_eq_true ((h.isOf_iff hr hpolicy).mp hof)
    | unprotected => exact hpresent
    | parentRow parent => exact hpresent

theorem only_of_serves (hserves : settings.serves t = true) :
    Connection.only t ⟨session, some (settings, tx)⟩ = some tx := by
  simp [Connection.only, hserves]

theorem only_of_not_serves (hserves : settings.serves t = false) :
    Connection.only t ⟨session, some (settings, tx)⟩ = none := by
  simp [Connection.only, hserves]

theorem only_idle : (⟨session, none⟩ : Connection γ).only t = none := rfl

theorem only_connections_set {connection : Connection γ} {rows : List (StoredRow γ)} :
    Server.only t { rows, connections := s.connections.set c connection }
      = { rows := rows.filter (·.isOf t)
          connections := (s.only t).connections.set c (connection.only t) } := by
  simp [Server.only, List.map_set]

/-- A step of a connection that is not the tenant's, before or after. -/
theorem only_set_other {connection connection' : Connection γ}
    (hc : s.connections[c]? = some connection') (hbefore : connection'.only t = none)
    (hafter : connection.only t = none) {rows : List (StoredRow γ)}
    (hrows : rows.filter (·.isOf t) = s.rows.filter (·.isOf t)) :
    Server.only t { rows, connections := s.connections.set c connection } = s.only t := by
  rw [only_connections_set, hrows, hafter]
  have hset : (s.only t).connections.set c none = (s.only t).connections := by
    apply List.ext_getElem?
    intro n
    rw [List.getElem?_set]
    split
    · next hn =>
      subst hn
      have hget : (s.only t).connections[c]? = some none := by
        show (s.connections.map (·.only t))[c]? = some none
        rw [List.getElem?_map, hc]
        exact congrArg some hbefore
      rw [hget]
      simp [(List.getElem?_eq_some_iff.mp hget).1]
    · rfl
  rw [hset]
  rfl

theorem only_get (hc : s.connections[c]? = some ⟨session, some (settings, tx)⟩)
    (hserves : settings.serves t = true) : (s.only t).connections[c]? = some (some tx) := by
  show (s.connections.map (·.only t))[c]? = _
  rw [List.getElem?_map, hc]
  exact congrArg some (only_of_serves hserves)

/-- What a transaction of another context commits is none of the tenant's. -/
theorem WellOwned.filter_overlay_other (h : WellOwned t s)
    (hc : s.connections[c]? = some ⟨session, some (settings, tx)⟩)
    (hserves : settings.serves t = false) :
    (overlay tx.changes s.rows).filter (·.isOf t) = s.rows.filter (·.isOf t) := by
  -- a protected change is made in the context of some tenant, who is another
  have hother : ∀ ch ∈ tx.changes, ch.key.1.isProtected = true → settings.tenant ≠ some t := by
    intro ch hch hprotected htenant
    have hcontext := (h.pending _ (mem_pending_of_change hc hch)).context hprotected
    rw [serves_iff.mpr ⟨htenant, hcontext.2⟩] at hserves
    cases hserves
  unfold overlay
  rw [List.filter_append, List.filter_filter]
  have hnone : (tx.changes.filterMap (·.row)).filter (·.isOf t) = [] := by
    rw [List.filter_eq_nil_iff]
    intro r hr hof
    obtain ⟨ch, hch, hrow⟩ := List.mem_filterMap.mp hr
    have hcontext := h.pending _ (mem_pending_of_change hc hch)
    simp only [StoredRow.isOf, Bool.and_eq_true, decide_eq_true_eq] at hof
    have hprotected : ch.key.1.isProtected = true := by
      rw [← hcontext.key r hrow]
      exact hof.1
    exact hother ch hch hprotected ((hcontext.owner hprotected r hrow).symm.trans hof.2)
  rw [hnone, List.append_nil]
  apply List.filter_congr
  intro r hr
  cases hof : r.isOf t with
  | false => rfl
  | true =>
    simp only [StoredRow.isOf, Bool.and_eq_true, decide_eq_true_eq] at hof
    have hnot : (tx.changes.any fun ch => ch.key = r.key) = false := by
      rw [List.any_eq_false]
      intro ch hch hkey
      have hkey' : ch.key = r.key := of_decide_eq_true hkey
      have hprotected : ch.key.1.isProtected = true := by
        rw [hkey']
        exact hof.1
      apply hother ch hch hprotected
      have hrow : (r.key, r.insertedBy) ∈ s.claims := mem_claims.mpr (Or.inl ⟨r, hr, rfl⟩)
      have hchange : (ch.key, settings.tenant) ∈ s.claims :=
        mem_claims.mpr (Or.inr ⟨_, mem_pending_of_change hc hch, rfl⟩)
      exact (h.keys _ hchange _ hrow hkey' hprotected).trans hof.2
    simp [hnot]

/-- What the tenant's own transaction has changed is the tenant's. -/
theorem WellOwned.changes_own (h : WellOwned t s)
    (hc : s.connections[c]? = some ⟨session, some (settings, tx)⟩)
    (hserves : settings.serves t = true) :
    ∀ ch ∈ tx.changes, ∀ r ∈ ch.row, r.isOf t = true := by
  intro ch hch r hr
  have hcontext := h.pending _ (mem_pending_of_change hc hch)
  have htenant := (serves_iff.mp hserves).1
  have hprotected := hcontext.own htenant
  have hkey : r.table = ch.key.1 := congrArg Prod.fst (hcontext.key r hr)
  simp [StoredRow.isOf, hkey, hprotected, hcontext.owner hprotected r hr, htenant]

/-- The tenant's transaction, on the server, sees the rows of its own database and no others of
the tenant. -/
theorem WellOwned.view_eq (h : WellOwned t s)
    (hc : s.connections[c]? = some ⟨session, some (settings, tx)⟩)
    (hserves : settings.serves t = true) :
    (overlay tx.changes s.rows).filter (·.isOf t) = overlay tx.changes (s.only t).rows :=
  filter_overlay (h.changes_own hc hserves) s.rows

theorem WellOwned.found_eq (h : WellOwned t s)
    (hc : s.connections[c]? = some ⟨session, some (settings, tx)⟩)
    (hserves : settings.serves t = true) {table : TableName}
    (hprotected : table.isProtected = true) (p : StoredRow γ → Bool) :
    Transaction.found (visible settings) (overlay tx.changes s.rows) table p
      = Transaction.found present (overlay tx.changes (s.only t).rows) table p := by
  rw [← h.view_eq hc hserves]
  unfold Transaction.found
  rw [List.filter_filter]
  apply List.filter_congr
  intro r hr
  by_cases htable : r.table = table
  · rw [h.visible_eq hc hserves (mem_held_of_view hc hr) (htable ▸ hprotected)]
    cases r.isOf t <;> simp [htable]
  · simp [htable]

theorem any_congr_mem {α : Type} {l : List α} {p q : α → Bool} (h : ∀ a ∈ l, p a = q a) :
    l.any p = l.any q := by
  rw [Bool.eq_iff_iff, List.any_eq_true, List.any_eq_true]
  exact exists_congr fun a => and_congr_right fun ha => by rw [h a ha]

/-- The tenant's keys are locked by the tenant's own transactions only. -/
theorem WellOwned.locked_eq (h : WellOwned t s) {key : RowKey}
    (hprotected : key.1.isProtected = true)
    (hclaims : ∀ x ∈ s.claims, x.1 = key → x.2 = some t) :
    s.locked c key = (s.only t).locked c key := by
  unfold Server.locked PrivateDb.locked
  have hmap : (s.only t).connections.eraseIdx c = (s.connections.eraseIdx c).map (·.only t) := by
    show (s.connections.map (·.only t)).eraseIdx c = _
    rw [List.eraseIdx_map]
  rw [hmap, List.any_map]
  apply any_congr_mem
  intro connection hconnection
  obtain ⟨session, _ | ⟨settings, tx⟩⟩ := connection
  · rfl
  show tx.locks key = (Connection.only t ⟨session, some (settings, tx)⟩).any fun tx => tx.locks key
  cases hserves : settings.serves t with
  | true =>
    rw [only_of_serves hserves]
    rfl
  | false =>
    rw [only_of_not_serves hserves]
    show tx.locks key = false
    unfold Transaction.locks
    rw [List.any_eq_false]
    intro ch hch hkey
    have hkey' : ch.key = key := of_decide_eq_true hkey
    have hpending : (settings, ch) ∈ s.pending :=
      mem_pending.mpr ⟨_, List.mem_of_mem_eraseIdx hconnection,
        mem_pending_connection.mpr ⟨tx, rfl, hch⟩⟩
    have htenant := hclaims _ (mem_claims.mpr (Or.inr ⟨_, hpending, rfl⟩)) hkey'
    have hbypasses := ((h.pending _ hpending).context (by rw [hkey']; exact hprotected)).2
    rw [serves_iff.mpr ⟨htenant, hbypasses⟩] at hserves
    cases hserves

theorem WellOwned.found_locked_eq (h : WellOwned t s)
    (hc : s.connections[c]? = some ⟨session, some (settings, tx)⟩)
    (hserves : settings.serves t = true) {table : TableName}
    (hprotected : table.isProtected = true) {p : StoredRow γ → Bool} :
    ((Transaction.found (visible settings) (overlay tx.changes s.rows) table p).any fun r =>
        s.locked c r.key)
      = (Transaction.found (visible settings) (overlay tx.changes s.rows) table p).any fun r =>
        (s.only t).locked c r.key := by
  apply any_congr_mem
  intro r hr
  obtain ⟨hview, htable, hvisible⟩ := of_mem_found hr
  have hheld := mem_held_of_view hc hview
  have hp : r.table.isProtected = true := htable ▸ hprotected
  exact h.locked_eq hp (h.own_key hheld hp (h.owner hc hserves hheld hp hvisible)).1

/-- **A statement of the tenant's does on the server what it would do on the private database.** -/
theorem WellOwned.execute_eq (h : WellOwned t s)
    (hc : s.connections[c]? = some ⟨session, some (settings, tx)⟩)
    (hserves : settings.serves t = true) {statement : Statement γ}
    (hguarded : Guarded t s (.execute c statement)) :
    tx.execute (visible settings) (visible settings) settings.tenant s.rows (s.locked c) statement
      = tx.execute present (belongs t) (some t) (s.only t).rows ((s.only t).locked c) statement := by
  obtain ⟨htenant, hbypasses⟩ := serves_iff.mp hserves
  obtain ⟨-, hown, hfresh⟩ := hguarded _ hc _ rfl
  have hprotected := hown htenant
  unfold Transaction.execute
  split
  · rfl
  cases statement with
  | select table p =>
    have hp : table.isProtected = true := hprotected
    dsimp only
    rw [h.found_eq hc hserves hp]
  | insert row =>
    have hp : row.table.isProtected = true := hprotected
    obtain ⟨hclaims, -⟩ := hfresh row rfl
    rw [htenant] at hclaims
    have hunique : ((overlay tx.changes s.rows).any fun r => r.key = row.key)
        = (overlay tx.changes (s.only t).rows).any fun r => r.key = row.key := by
      rw [← h.view_eq hc hserves, List.any_filter]
      apply any_congr_mem
      intro r hr
      cases hkey : decide (r.key = row.key) with
      | false => simp
      | true =>
        have hkey' : r.key = row.key := of_decide_eq_true hkey
        have hp' : r.table.isProtected = true := by
          rw [← r.key_fst, hkey']
          exact hp
        have howner := hclaims _ (h.claimed (mem_held_of_view hc hr) hp') hkey'
        simp [StoredRow.isOf, hp', show r.insertedBy = some t from howner]
    have hlocked : s.locked c row.key = (s.only t).locked c row.key := h.locked_eq hp hclaims
    dsimp only
    rw [h.visible_eq_belongs hc hserves (r := { row with insertedBy := settings.tenant }) hp,
      h.view_eq hc hserves, htenant]
    show (if _ then _ else if ((overlay tx.changes s.rows).any fun r => r.key = row.key) = true then _
      else if s.locked c row.key = true then _ else _) = _
    rw [hunique, hlocked]
    rfl
  | update table p columns tenantId =>
    have hp : table.isProtected = true := hprotected
    have haccepts : ((Transaction.found present (overlay tx.changes (s.only t).rows) table p).map
          fun r => { r with columns := columns r, tenantId := tenantId r }).any (fun r =>
          !visible settings (overlay tx.changes s.rows) r)
        = ((Transaction.found present (overlay tx.changes (s.only t).rows) table p).map
          fun r => { r with columns := columns r, tenantId := tenantId r }).any fun r =>
          !belongs t (overlay tx.changes (s.only t).rows) r := by
      apply any_congr_mem
      intro r hr
      obtain ⟨r₀, hr₀, rfl⟩ := List.mem_map.mp hr
      have hp' : r₀.table.isProtected = true := by
        rw [(of_mem_found hr₀).2.1]
        exact hp
      rw [h.visible_eq_belongs hc hserves
        (r := { r₀ with columns := columns r₀, tenantId := tenantId r₀ }) hp', h.view_eq hc hserves]
    dsimp only
    rw [h.found_locked_eq hc hserves hp, h.found_eq hc hserves hp, haccepts]
  | delete table p =>
    have hp : table.isProtected = true := hprotected
    dsimp only
    rw [h.found_locked_eq hc hserves hp, h.found_eq hc hserves hp]

/-- The label of a transaction is the tenant's if the transaction is. -/
theorem only_bind (hc : s.connections[c]? = some ⟨session, some (settings, tx)⟩) :
    (s.connections[c]?.bind (·.only t)).isSome = settings.serves t := by
  rw [hc]
  show (Connection.only t ⟨session, some (settings, tx)⟩).isSome = settings.serves t
  cases hserves : settings.serves t with
  | true =>
    rw [only_of_serves hserves]
    rfl
  | false =>
    rw [only_of_not_serves hserves]
    rfl

/-- A commit of the tenant's is one of the private database. -/
theorem WellOwned.commit_own (h : WellOwned t s)
    (hc : s.connections[c]? = some ⟨session, some (settings, tx)⟩)
    (hserves : settings.serves t = true) :
    (tx.commit s.rows).filter (·.isOf t) = tx.commit (s.only t).rows := by
  unfold Transaction.commit
  split
  · rfl
  · exact h.view_eq hc hserves

/-- A commit of another tenant's leaves the tenant's rows alone. -/
theorem WellOwned.commit_other (h : WellOwned t s)
    (hc : s.connections[c]? = some ⟨session, some (settings, tx)⟩)
    (hserves : settings.serves t = false) :
    (tx.commit s.rows).filter (·.isOf t) = s.rows.filter (·.isOf t) := by
  unfold Transaction.commit
  split
  · rfl
  · exact h.filter_overlay_other hc hserves

/-- **One step**: the tenant's are those of the private database, and the others are not seen. -/
theorem only_step (s : Server γ) (a : ServerLabel γ) (h : WellOwned t s) (hguarded : Guarded t s a) :
    (serverStep s a).only t = exec (privateStep t) (s.only t) (s.sees t a).toList := by
  cases a with
  | begin c context =>
    cases hc : s.connections[c]? with
    | none => simp [serverStep, Server.sees, hc]
    | some connection =>
      obtain ⟨session, _ | x⟩ := connection
      · cases hserves : (context.set session).serves t with
        | true =>
          have hget : (s.only t).connections[c]? = some none := by
            show (s.connections.map (·.only t))[c]? = _
            rw [List.getElem?_map, hc]
            rfl
          simp only [serverStep, Server.sees, hc, hserves, if_true, Option.toList_some, exec_cons,
            exec_nil, privateStep, hget]
          rw [only_connections_set, only_of_serves hserves]
          rfl
        | false =>
          simp only [serverStep, Server.sees, hc, hserves, Bool.false_eq_true, if_false,
            Option.toList_none, exec_nil]
          exact only_set_other hc only_idle (only_of_not_serves hserves) rfl
      · simp [serverStep, Server.sees, hc]
  | execute c statement =>
    cases hc : s.connections[c]? with
    | none => simp [serverStep, Server.sees, hc]
    | some connection =>
      obtain ⟨session, _ | ⟨settings, tx⟩⟩ := connection
      · simp [serverStep, Server.sees, hc, only_idle]
      · have hbind := only_bind (t := t) hc
        cases hserves : settings.serves t with
        | true =>
          simp only [serverStep, Server.sees, hbind, hserves, if_true, Option.toList_some,
            exec_cons, exec_nil, privateStep, only_get hc hserves]
          simp only [hc]
          rw [only_connections_set, only_of_serves hserves, h.execute_eq hc hserves hguarded]
          rfl
        | false =>
          simp only [serverStep, Server.sees, hbind, hserves, Bool.false_eq_true, if_false,
            Option.toList_none, exec_nil]
          simp only [hc]
          exact only_set_other hc (only_of_not_serves hserves) (only_of_not_serves hserves) rfl
  | commit c =>
    cases hc : s.connections[c]? with
    | none => simp [serverStep, Server.sees, hc]
    | some connection =>
      obtain ⟨session, _ | ⟨settings, tx⟩⟩ := connection
      · simp [serverStep, Server.sees, hc, only_idle]
      · have hbind := only_bind (t := t) hc
        cases hserves : settings.serves t with
        | true =>
          simp only [serverStep, Server.sees, hbind, hserves, if_true, Option.toList_some,
            exec_cons, exec_nil, privateStep, only_get hc hserves]
          simp only [hc]
          rw [only_connections_set, h.commit_own hc hserves, only_idle]
        | false =>
          simp only [serverStep, Server.sees, hbind, hserves, Bool.false_eq_true, if_false,
            Option.toList_none, exec_nil]
          simp only [hc]
          exact only_set_other hc (only_of_not_serves hserves) only_idle (h.commit_other hc hserves)
  | rollback c =>
    cases hc : s.connections[c]? with
    | none => simp [serverStep, Server.sees, hc]
    | some connection =>
      obtain ⟨session, _ | ⟨settings, tx⟩⟩ := connection
      · simp [serverStep, Server.sees, hc, only_idle]
      · have hbind := only_bind (t := t) hc
        cases hserves : settings.serves t with
        | true =>
          simp only [serverStep, Server.sees, hbind, hserves, if_true, Option.toList_some,
            exec_cons, exec_nil, privateStep, only_get hc hserves]
          simp only [hc]
          rw [only_connections_set, only_idle]
          rfl
        | false =>
          simp only [serverStep, Server.sees, hbind, hserves, Bool.false_eq_true, if_false,
            Option.toList_none, exec_nil]
          simp only [hc]
          exact only_set_other hc (only_of_not_serves hserves) only_idle rfl

end Refinement

def openCondition (tenantId id : Uuid) : Statement String :=
  .insert { table := .loanConditions, id, tenantId := some tenantId, columns := "OPEN" }

def recordTransition (conditionId id : Uuid) : Statement String :=
  .insert { table := .conditionTransitions, id, parentId := some conditionId, columns := "WAIVED" }

/-- The second tenant tries to record a transition of the first one's condition, and reads on a
connection that the first one has used. -/
def twoTenantsRun : List (ServerLabel String) :=
  [.begin 0 (.runInTenantContext 1), .begin 1 (.runInTenantContext 2),
    .execute 0 (openCondition 1 10), .execute 1 (openCondition 2 20), .commit 0,
    .execute 1 (recordTransition 10 21), .rollback 1, .begin 0 (.runInTenantContext 2),
    .execute 0 (openCondition 2 20), .execute 0 (recordTransition 20 21),
    .execute 0 (.select .loanConditions fun _ => true)]

end MortgageAgent.Database
