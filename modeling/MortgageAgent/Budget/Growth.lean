import MortgageAgent.Budget.Effect

/-!
# What the budget rows keep

No operation of the service deletes a ledger or a reservation, moves a ledger's deadline or takes
a reservation out of its ledger. Code that holds the id of one finds it again, whoever else has
worked on the rows meanwhile; and a receipt shows the ledger the reservation was made in.

* **`Grows`** — the rows kept, for any number of operations.
* **`Effect.grows`** — each operation is one.
* **`commit_receipt`** / **`createOrLoad_snapshot`** — the ledger that a commit and a load answer
  with.
* **`InTime`** — calls that do not throw DEADLINE_EXCEEDED.
-/

namespace MortgageAgent.Budget

/-- The columns of a ledger that no operation rewrites. -/
structure SameLedger (l l' : AgentBudgetLedger) : Prop where
  id : l'.id = l.id
  tenantId : l'.tenantId = l.tenantId
  workflowRunId : l'.workflowRunId = l.workflowRunId
  deadlineAt : l'.deadlineAt = l.deadlineAt

theorem SameLedger.refl (l : AgentBudgetLedger) : SameLedger l l := ⟨rfl, rfl, rfl, rfl⟩

theorem SameLedger.trans {l l' l'' : AgentBudgetLedger} (h : SameLedger l l')
    (h' : SameLedger l' l'') : SameLedger l l'' :=
  ⟨h'.id.trans h.id, h'.tenantId.trans h.tenantId, h'.workflowRunId.trans h.workflowRunId,
    h'.deadlineAt.trans h.deadlineAt⟩

theorem SameClaim.refl (r : AgentBudgetReservation) : SameClaim r r :=
  ⟨rfl, rfl, rfl, rfl, rfl, rfl⟩

theorem SameClaim.trans {r r' r'' : AgentBudgetReservation} (h : SameClaim r r')
    (h' : SameClaim r' r'') : SameClaim r r'' :=
  ⟨h'.id.trans h.id, h'.tenantId.trans h.tenantId, h'.ledgerId.trans h.ledgerId,
    h'.idempotencyKey.trans h.idempotencyKey, h'.units.trans h.units, h'.window.trans h.window⟩

theorem LedgerMoved.same {l l' : AgentBudgetLedger} {dReserved dUsed : Dimension → Int}
    (h : LedgerMoved l l' dReserved dUsed) : SameLedger l l' :=
  ⟨h.id, h.tenantId, h.workflowRunId, h.deadlineAt⟩

/-- Every ledger and every reservation is still there. -/
structure Grows (db db' : Db) : Prop where
  ledger : ∀ l ∈ db.ledgers.rows, ∃ l' ∈ db'.ledgers.rows, SameLedger l l'
  reservation : ∀ r ∈ db.reservations.rows, ∃ r' ∈ db'.reservations.rows, SameClaim r r'

theorem Grows.refl (db : Db) : Grows db db :=
  ⟨fun l hl => ⟨l, hl, .refl l⟩, fun r hr => ⟨r, hr, .refl r⟩⟩

theorem Grows.trans {db db' db'' : Db} (h : Grows db db') (h' : Grows db' db'') :
    Grows db db'' := by
  constructor
  · intro l hl
    obtain ⟨l', hl', hsame⟩ := h.ledger l hl
    obtain ⟨l'', hl'', hsame'⟩ := h'.ledger l' hl'
    exact ⟨l'', hl'', hsame.trans hsame'⟩
  · intro r hr
    obtain ⟨r', hr', hsame⟩ := h.reservation r hr
    obtain ⟨r'', hr'', hsame'⟩ := h'.reservation r' hr'
    exact ⟨r'', hr'', hsame.trans hsame'⟩

/-- Rewriting one ledger keeps them all. -/
theorem ledger_of_put {db db' : Db} {l l' : AgentBudgetLedger} (hl : l ∈ db.ledgers.rows)
    (hsame : SameLedger l l') (h : db'.ledgers = db.ledgers.put l') :
    ∀ x ∈ db.ledgers.rows, ∃ x' ∈ db'.ledgers.rows, SameLedger x x' := by
  intro x hx
  rw [h]
  have hput := fun y => db.ledgers.mem_put (r := l') (x := y) ⟨l, hl, hsame.id.symm⟩
  by_cases hxl : x.id = l.id
  · have hxeq : x = l := db.ledgers.eq_of_key_eq hx hl hxl
    rw [hxeq]
    exact ⟨l', (hput l').mpr (Or.inl rfl), hsame⟩
  · refine ⟨x, (hput x).mpr (Or.inr ⟨hx, ?_⟩), .refl x⟩
    rw [hsame.id]
    exact hxl

theorem Claimed.grows {db db' : Db} {r : AgentBudgetReservation} {l l' : AgentBudgetLedger}
    (h : Claimed db db' r l l') : Grows db db' := by
  obtain ⟨hl, -, -⟩ := findLedger_some h.ledger
  refine ⟨ledger_of_put hl h.moved.same h.ledgers, ?_⟩
  intro x hx
  refine ⟨x, ?_, .refl x⟩
  rw [Table.rows_of_insert h.inserted]
  exact List.mem_append_left _ hx

theorem Settled.grows {db db' : Db} {r r' : AgentBudgetReservation} {l l' : AgentBudgetLedger}
    (h : Settled db db' r r' l l') : Grows db db' := by
  obtain ⟨hl, -, -⟩ := findLedger_some h.ledger
  refine ⟨ledger_of_put hl h.moved.same h.ledgers, ?_⟩
  intro x hx
  by_cases hxr : x.id = r'.id
  · have hxeq : x = r := db.reservations.eq_of_key_eq hx h.mem (hxr.trans h.same.id)
    rw [hxeq]
    exact ⟨r', h.mem_iff.mpr (Or.inl rfl), h.same⟩
  · exact ⟨x, h.mem_iff.mpr (Or.inr ⟨hx, hxr⟩), .refl x⟩

theorem Effect.grows {db db' : Db} (h : Effect db db') : Grows db db' := by
  cases h with
  | unchanged h => rw [h]; exact .refl db
  | tenants tenants h => rw [h]; exact ⟨(Grows.refl db).ledger, (Grows.refl db).reservation⟩
  | ledgerCreated l ledgers hinsert _ _ h =>
    rw [h]
    refine ⟨fun x hx => ⟨x, ?_, .refl x⟩, (Grows.refl db).reservation⟩
    rw [Table.rows_of_insert hinsert]
    exact List.mem_append_left _ hx
  | claimed r l l' h => exact h.grows
  | settled r r' l l' h => exact h.grows

/-! ## The operations -/

theorem reserveClaim_grows {db db' : Db} {env : Env} {newId : Uuid} {input : ReserveInput}
    {units : AgentBudgetUnits Int} {rc : AgentBudgetReservationReceipt}
    (h : reserveClaim db env newId input units = .ok (db', rc)) : Grows db db' := by
  obtain ⟨r, l, l', hclaimed, -⟩ := reserveClaim_claimed h
  exact hclaimed.grows

theorem commit_grows {db db' : Db} {env : Env} {input : CommitInput}
    {rc : AgentBudgetReservationReceipt} (h : commit db env input = .ok (db', rc)) :
    Grows db db' := by
  obtain ⟨r, l, -, -, -, ⟨rfl, -⟩ | ⟨r', l', hsettled, -⟩⟩ := commit_ok h
  · exact .refl _
  · exact hsettled.grows

theorem release_grows {db db' : Db} {env : Env} {tenantId reservationId : Uuid}
    {resolution : Option ReleaseResolution} {rc : AgentBudgetReservationReceipt}
    (h : release db env tenantId reservationId resolution = .ok (db', rc)) : Grows db db' := by
  obtain ⟨r, l, -, -, -, ⟨rfl, -⟩ | ⟨r', l', hsettled, -⟩⟩ := release_ok h
  · exact .refl _
  · exact hsettled.grows

theorem markUnknown_grows {db db' : Db} {env : Env} {tenantId reservationId : Uuid}
    {rc : AgentBudgetReservationReceipt}
    (h : markUnknown db env tenantId reservationId = .ok (db', rc)) : Grows db db' := by
  obtain ⟨r, l, -, -, -, ⟨rfl, -⟩ | ⟨r', hsettled, -⟩⟩ := markUnknown_ok h
  · exact .refl _
  · exact hsettled.grows

/-! ## One ledger for each run -/

/-- The unique index on tenant and workflow run. -/
def Db.OneLedgerPerRun (db : Db) : Prop :=
  ∀ l ∈ db.ledgers.rows, ∀ l' ∈ db.ledgers.rows, l.tenantId = l'.tenantId →
    l.workflowRunId = l'.workflowRunId → l = l'

theorem oneLedgerPerRun_put {db db' : Db} {l l' : AgentBudgetLedger} (hl : l ∈ db.ledgers.rows)
    (hsame : SameLedger l l') (h : db'.ledgers = db.ledgers.put l') (hone : db.OneLedgerPerRun) :
    db'.OneLedgerPerRun := by
  have hput := fun y => db.ledgers.mem_put (r := l') (x := y) ⟨l, hl, hsame.id.symm⟩
  -- a row that was not rewritten and belongs to the same run as `l'` would be `l`
  have hother : ∀ y ∈ db.ledgers.rows, y.id ≠ l'.id → y.tenantId = l'.tenantId →
      y.workflowRunId ≠ l'.workflowRunId := by
    intro y hy hid htenant hrun
    have hyl : y = l := hone y hy l hl (htenant.trans hsame.tenantId)
      (hrun.trans hsame.workflowRunId)
    rw [hyl] at hid
    exact hid hsame.id.symm
  intro x hx y hy htenant hrun
  rw [h] at hx hy
  rcases (hput x).mp hx with hxl | ⟨hxold, hxid⟩
  · rcases (hput y).mp hy with hyl | ⟨hyold, hyid⟩
    · rw [hxl, hyl]
    · rw [hxl] at htenant hrun
      exact absurd hrun.symm (hother y hyold hyid htenant.symm)
  · rcases (hput y).mp hy with hyl | ⟨hyold, -⟩
    · rw [hyl] at htenant hrun
      exact absurd hrun (hother x hxold hxid htenant)
    · exact hone x hxold y hyold htenant hrun

theorem insertLedger_oneLedgerPerRun {db db' : Db} {ledger l : AgentBudgetLedger}
    (h : insertLedger db ledger = .ok (db', l)) (hone : db.OneLedgerPerRun) :
    db'.OneLedgerPerRun := by
  unfold insertLedger at h
  split at h
  · cases h
  · split at h
    · cases h
      exact hone
    · rename_i hfree
      split at h
      · rename_i ledgers hinsert
        cases h
        have hnew : ∀ y ∈ db.ledgers.rows, y.tenantId = ledger.tenantId →
            y.workflowRunId ≠ ledger.workflowRunId := by
          intro y hy htenant hrun
          have hnone := List.find?_eq_none.mp hfree y hy
          simp only [htenant, hrun, decide_true, Bool.and_self, not_true_eq_false] at hnone
        intro x hx y hy htenant hrun
        change x ∈ ledgers.rows at hx
        change y ∈ ledgers.rows at hy
        rw [Table.rows_of_insert hinsert, List.mem_append, List.mem_singleton] at hx hy
        rcases hx with hx | rfl
        · rcases hy with hy | rfl
          · exact hone x hx y hy htenant hrun
          · exact absurd hrun (hnew x hx htenant)
        · rcases hy with hy | rfl
          · exact absurd hrun.symm (hnew y hy htenant.symm)
          · rfl
      · cases h

theorem createOrLoad_oneLedgerPerRun (db : Db) (env : Env) (newId : Uuid)
    (input : AgentBudgetLedgerInput) (hone : db.OneLedgerPerRun) :
    (createOrLoad db env newId input).1.OneLedgerPerRun := by
  unfold createOrLoad
  split
  · exact hone
  · split
    · exact hone
    · rename_i db' ledger hinsert
      exact insertLedger_oneLedgerPerRun hinsert hone

theorem Claimed.oneLedgerPerRun {db db' : Db} {r : AgentBudgetReservation}
    {l l' : AgentBudgetLedger} (h : Claimed db db' r l l') (hone : db.OneLedgerPerRun) :
    db'.OneLedgerPerRun :=
  oneLedgerPerRun_put (findLedger_some h.ledger).1 h.moved.same h.ledgers hone

theorem Settled.oneLedgerPerRun {db db' : Db} {r r' : AgentBudgetReservation}
    {l l' : AgentBudgetLedger} (h : Settled db db' r r' l l') (hone : db.OneLedgerPerRun) :
    db'.OneLedgerPerRun :=
  oneLedgerPerRun_put (findLedger_some h.ledger).1 h.moved.same h.ledgers hone

/-- The index is kept by every step of the service. -/
theorem step_oneLedgerPerRun (s : System) (a : Label) (hone : s.db.OneLedgerPerRun) :
    (step s a).db.OneLedgerPerRun := by
  have hsame : ∀ {db : Db}, db = s.db → db.OneLedgerPerRun := by
    intro db h
    rw [h]
    exact hone
  cases a with
  | createOrLoad env newId input => exact createOrLoad_oneLedgerPerRun s.db env newId input hone
  | reserveRead call env input => exact hsame (reserveRead_db s call env input)
  | reserveClaim call env newId =>
    rcases reserveClaim_step s call env newId with h | ⟨_, _, r, l, l', _, hclaimed, _⟩
    · exact hsame h
    · exact hclaimed.oneLedgerPerRun hone
  | reserveRecover call env => exact hsame (reserveRecover_db s call env)
  | commit env input =>
    rcases settle_db s (Budget.commit s.db env input) with h | ⟨rc, h⟩
    · exact hsame h
    · obtain ⟨r, l, -, -, -, ⟨h, -⟩ | ⟨r', l', hsettled, -, -⟩⟩ := commit_ok h
      · exact hsame h
      · exact hsettled.oneLedgerPerRun hone
  | release env tenantId reservationId resolution =>
    rcases settle_db s (Budget.release s.db env tenantId reservationId resolution)
      with h | ⟨rc, h⟩
    · exact hsame h
    · obtain ⟨r, l, -, -, -, ⟨h, -⟩ | ⟨r', l', hsettled, -⟩⟩ := release_ok h
      · exact hsame h
      · exact hsettled.oneLedgerPerRun hone
  | markUnknown env tenantId reservationId =>
    rcases settle_db s (Budget.markUnknown s.db env tenantId reservationId) with h | ⟨rc, h⟩
    · exact hsame h
    · obtain ⟨r, l, -, -, -, ⟨h, -⟩ | ⟨r', hsettled, -, -, -⟩⟩ := markUnknown_ok h
      · exact hsame h
      · exact hsettled.oneLedgerPerRun hone
  | setTenantBudget tenant =>
    simp only [step, System.react, System.setTenantBudget]
    split
    · exact hone
    · exact hone

/-! ## The ledger on a receipt -/

theorem mem_put_self {db : Db} {l l' : AgentBudgetLedger} (hl : l ∈ db.ledgers.rows)
    (hid : l'.id = l.id) : l' ∈ (db.ledgers.put l').rows :=
  (db.ledgers.mem_put ⟨l, hl, hid.symm⟩).mpr (Or.inl rfl)

/-- The receipt of a reservation of this ledger, with the ledger on it. -/
structure ReceiptOf (ledgerId : Uuid) (db : Db) (rc : AgentBudgetReservationReceipt) : Prop where
  ledger : rc.ledger.ledgerId = ledgerId
  reservation : ∃ r ∈ db.reservations.rows, r.id = rc.reservationId ∧ r.ledgerId = ledgerId

/-- Such a receipt shows the ledger's row. -/
structure ReceiptShows (ledgerId : Uuid) (db : Db) (env : Env) (rc : AgentBudgetReservationReceipt) :
    Prop extends ReceiptOf ledgerId db rc where
  shown : ∃ l ∈ db.ledgers.rows, l.id = ledgerId ∧ rc.ledger = snapshot l env

section Receipts

variable {db db' : Db} {env : Env} {input : ReserveInput} {units : AgentBudgetUnits Int}
  {rc : AgentBudgetReservationReceipt}

/-- A replay is answered from the row under the key. -/
theorem receiptFor_shows {r : AgentBudgetReservation} (hr : db.findReservationByKey input = some r)
    (h : receiptFor db r true env = .ok rc) :
    ReceiptShows input.ledgerId db env rc ∧ rc.replayed = true := by
  have hmem := List.mem_of_find?_eq_some hr
  have hkey := List.find?_some hr
  simp only [Bool.and_eq_true, decide_eq_true_eq] at hkey
  unfold receiptFor at h
  split at h
  · rename_i l hfind
    cases h
    obtain ⟨hl, hid, -⟩ := findLedger_some hfind
    have hledger : l.id = input.ledgerId := hid.trans hkey.1.1
    exact ⟨⟨⟨hledger, r, hmem, rfl, hkey.1.1⟩, l, hl, hledger, rfl⟩, rfl⟩
  · cases h

theorem reservePreRead_shows (h : reservePreRead db env input units = .ok (some rc)) :
    ReceiptShows input.ledgerId db env rc ∧ rc.replayed = true := by
  unfold reservePreRead at h
  split at h
  · rename_i r hr
    obtain ⟨_, -, h⟩ := ok_of_bind_ok h
    obtain ⟨receipt, hreceipt, h⟩ := ok_of_bind_ok h
    cases h
    exact receiptFor_shows hr hreceipt
  · cases h

theorem reserveRecover_shows (h : reserveRecover db env input units = .ok rc) :
    ReceiptShows input.ledgerId db env rc ∧ rc.replayed = true := by
  unfold reserveRecover at h
  split at h
  · cases h
  · rename_i r hr
    obtain ⟨_, -, h⟩ := ok_of_bind_ok h
    exact receiptFor_shows hr h

theorem reserveClaim_shows {newId : Uuid} (h : reserveClaim db env newId input units = .ok (db', rc)) :
    ReceiptShows input.ledgerId db' env rc ∧ rc.replayed = false := by
  obtain ⟨r, l, l', hclaimed, -, -, hin, -, -, rfl⟩ := reserveClaim_claimed h
  obtain ⟨hl, hid, -⟩ := findLedger_some hclaimed.ledger
  have hr : r ∈ db'.reservations.rows := by
    rw [Table.rows_of_insert hclaimed.inserted]
    exact List.mem_append_right _ (List.mem_singleton.mpr rfl)
  have hl' : l' ∈ db'.ledgers.rows := by
    rw [hclaimed.ledgers]
    exact mem_put_self hl hclaimed.moved.id
  have hledger : l'.id = input.ledgerId := hclaimed.moved.id.trans (hid.trans hin)
  exact ⟨⟨⟨hledger, r, hr, rfl, hin⟩, l', hl', hledger, rfl⟩, rfl⟩

end Receipts

/-- The receipt shows a row of the ledger that this reservation belongs to. -/
def ShowsLedgerOf (db : Db) (reservationId : Uuid) (env : Env) (db' : Db)
    (rc : AgentBudgetReservationReceipt) : Prop :=
  ∃ r l, r ∈ db.reservations.rows ∧ r.id = reservationId ∧ l ∈ db'.ledgers.rows
    ∧ l.id = r.ledgerId ∧ rc.ledger = snapshot l env

theorem commitAction_ledger {db db' : Db} {env : Env} {input : CommitInput} {actual : Option Int}
    {r : AgentBudgetReservation} {l : AgentBudgetLedger} {rc : AgentBudgetReservationReceipt}
    (hl : l ∈ db.ledgers.rows) (h : commitAction db env input actual r l = .ok (db', rc)) :
    ∃ l' ∈ db'.ledgers.rows, l'.id = l.id ∧ rc.ledger = snapshot l' env := by
  obtain ⟨rfl, -, rfl⟩ | ⟨-, -, l', db₂, -, hset, hagg, hwrite, rfl⟩ := commitAction_runs h
  · exact ⟨l, hl, rfl, rfl⟩
  have hid := (setCommitted_moved hset).id
  obtain ⟨usage, rfl, -⟩ := commitTenantAggregate_ok hagg
  obtain ⟨-, rfl⟩ := writeReservation_ok hwrite
  exact ⟨l', mem_put_self hl hid, hid, rfl⟩

theorem commit_receipt {db db' : Db} {env : Env} {input : CommitInput}
    {rc : AgentBudgetReservationReceipt} (h : commit db env input = .ok (db', rc)) :
    ShowsLedgerOf db input.reservationId env db' rc := by
  obtain ⟨actual, -, r, l, hmem, hid, -, hfind, haction⟩ := commit_runs h
  obtain ⟨hl, hlid, -⟩ := findLedger_some hfind
  obtain ⟨l', hl', hid', hledger⟩ := commitAction_ledger hl haction
  exact ⟨r, l', hmem, hid, hl', hid'.trans hlid, hledger⟩

/-- A commit of a reservation of this ledger. -/
theorem commit_ledgerId {db db' : Db} {env : Env} {input : CommitInput}
    {rc : AgentBudgetReservationReceipt} {ledgerId : Uuid}
    (h : commit db env input = .ok (db', rc))
    (hheld : ∃ r ∈ db.reservations.rows, r.id = input.reservationId ∧ r.ledgerId = ledgerId) :
    rc.ledger.ledgerId = ledgerId := by
  obtain ⟨r, l, hr, hid, -, hlid, hledger⟩ := commit_receipt h
  obtain ⟨r₀, hr₀, hid₀, hin⟩ := hheld
  have hsame : r = r₀ := db.reservations.eq_of_key_eq hr hr₀ (hid.trans hid₀.symm)
  rw [hledger]
  show l.id = ledgerId
  rw [hlid, hsame, hin]

theorem insertLedger_ok {db db' : Db} {ledger l : AgentBudgetLedger}
    (h : insertLedger db ledger = .ok (db', l)) :
    l ∈ db'.ledgers.rows ∧ l.tenantId = ledger.tenantId
      ∧ l.workflowRunId = ledger.workflowRunId := by
  unfold insertLedger at h
  split at h
  · cases h
  · split at h
    · rename_i stored hstored
      cases h
      have hmem := List.mem_of_find?_eq_some hstored
      have hkey := List.find?_some hstored
      simp only [Bool.and_eq_true, decide_eq_true_eq] at hkey
      exact ⟨hmem, hkey.1, hkey.2⟩
    · split at h
      · rename_i ledgers hinsert
        cases h
        refine ⟨?_, rfl, rfl⟩
        show ledger ∈ ledgers.rows
        rw [Table.rows_of_insert hinsert]
        exact List.mem_append_right _ (List.mem_singleton.mpr rfl)
      · cases h

/-- The ledger that was made, or the stored one, is the workflow run's. -/
theorem createOrLoad_snapshot {db : Db} {env : Env} {newId : Uuid} {input : AgentBudgetLedgerInput}
    {snap : AgentBudgetSnapshot} (h : (createOrLoad db env newId input).2 = .ok snap) :
    ∃ l ∈ (createOrLoad db env newId input).1.ledgers.rows, l.tenantId = input.tenantId
      ∧ l.workflowRunId = input.workflowRunId ∧ snap = snapshot l env := by
  unfold createOrLoad at h ⊢
  split at h
  · cases h
  · rename_i limits hlimits
    split at h
    · cases h
    · rename_i db' ledger hinsert
      obtain ⟨hmem, htenant, hrun⟩ := insertLedger_ok hinsert
      obtain ⟨_, -, h⟩ := ok_of_bind_ok h
      cases h
      exact ⟨ledger, hmem, htenant, hrun, rfl⟩

/-! ## Calls that the deadline does not refuse -/

/-- What the call throws, if it throws, is not DEADLINE_EXCEEDED. -/
def InTime {α : Type} (x : Except BudgetFailure α) : Prop :=
  ∀ message, x ≠ .error (.agentBudgetError .DEADLINE_EXCEEDED message)

section InTime

variable {α β : Type}

theorem inTime_ok (a : α) : InTime (.ok a : Except BudgetFailure α) := by
  intro message h
  cases h

theorem inTime_conflict (text : String) :
    InTime (.error (conflict text) : Except BudgetFailure α) := by
  intro message h
  cases h

theorem inTime_sql (x : Except PgError α) : InTime (sql x) := by
  intro message h
  cases x <;> cases h

theorem InTime.bind {x : Except BudgetFailure α} {f : α → Except BudgetFailure β} (hx : InTime x)
    (hf : ∀ a, InTime (f a)) : InTime (x >>= f) := by
  cases x with
  | ok a => exact hf a
  | error e =>
    intro message h
    cases h
    exact hx message rfl

theorem inTime_assertNonnegativeInt (value : JsNumber) (name : String) :
    InTime (assertNonnegativeInt value name) := by
  unfold assertNonnegativeInt
  split
  · split
    · exact inTime_ok _
    · exact inTime_conflict _
  · exact inTime_conflict _

theorem inTime_validateReserve (input : ReserveInput) : InTime (validateReserve input) := by
  unfold validateReserve validateUnits
  refine (((inTime_assertNonnegativeInt _ _).bind fun _ =>
    (inTime_assertNonnegativeInt _ _).bind fun _ => (inTime_assertNonnegativeInt _ _).bind fun _ =>
    (inTime_assertNonnegativeInt _ _).bind fun _ => ?_)).bind fun _ => ?_
  · split
    · exact inTime_conflict _
    · exact inTime_ok _
  · split
    · exact inTime_conflict _
    · exact inTime_ok _

theorem inTime_assertSameUnits (r : AgentBudgetReservation) (units : AgentBudgetUnits Int) :
    InTime (assertSameUnits r units) := by
  unfold assertSameUnits
  split
  · exact inTime_ok _
  · exact inTime_conflict _

theorem inTime_receiptFor (db : Db) (r : AgentBudgetReservation) (replayed : Bool) (env : Env) :
    InTime (receiptFor db r replayed env) := by
  unfold receiptFor
  split
  · exact inTime_ok _
  · intro message h
    cases h

theorem inTime_reservePreRead (db : Db) (env : Env) (input : ReserveInput)
    (units : AgentBudgetUnits Int) : InTime (reservePreRead db env input units) := by
  unfold reservePreRead
  split
  · refine (inTime_assertSameUnits _ _).bind fun _ => ?_
    exact (inTime_receiptFor _ _ _ _).bind fun _ => inTime_ok _
  · exact inTime_ok _

theorem inTime_reserveRecover (db : Db) (env : Env) (input : ReserveInput)
    (units : AgentBudgetUnits Int) : InTime (reserveRecover db env input units) := by
  unfold reserveRecover
  split
  · intro message h
    cases h
  · exact (inTime_assertSameUnits _ _).bind fun _ => inTime_receiptFor _ _ _ _

theorem inTime_reserveTenantAggregate (db : Db) (env : Env) (tenantId : Uuid) (currency : String)
    (units : AgentBudgetUnits Int) :
    InTime (reserveTenantAggregate db env tenantId currency units) := by
  have hexhausted : ∀ {γ : Type}, InTime (.error aggregateExhausted : Except BudgetFailure γ) := by
    intro γ message h
    cases h
  unfold reserveTenantAggregate
  split
  · exact inTime_ok _
  · dsimp only
    split
    · refine (inTime_sql _).bind fun pass => ?_
      split
      · exact (inTime_sql _).bind fun _ => (inTime_sql _).bind fun _ => inTime_ok _
      · exact hexhausted
    · exact hexhausted

/-- A claim by a process whose clock is before the ledger's deadline. -/
theorem inTime_reserveClaim {db : Db} {env : Env} {newId : Uuid} {input : ReserveInput}
    {units : AgentBudgetUnits Int}
    (hclock : ∀ l, db.findLedger input.ledgerId input.tenantId = some l →
      env.processNow < l.deadlineAt) : InTime (reserveClaim db env newId input units) := by
  have hthrow : ∀ {γ : Type},
      InTime (.error (throwReservationFailure db env input) : Except BudgetFailure γ) := by
    intro γ message h
    unfold throwReservationFailure at h
    cases hl : db.findLedger input.ledgerId input.tenantId with
    | none => rw [hl] at h; cases h
    | some l =>
      rw [hl] at h
      have hlate : ¬l.deadlineAt ≤ env.processNow := not_le.mpr (hclock l hl)
      simp only [hlate, if_false] at h
      split at h
      · cases h
      · split at h <;> cases h
  unfold reserveClaim
  split
  · exact hthrow
  · refine (inTime_sql _).bind fun pass => ?_
    split
    · refine (inTime_sql _).bind fun l' => (inTime_sql _).bind fun db1 => ?_
      refine (inTime_reserveTenantAggregate _ _ _ _ _).bind fun claimed => ?_
      exact (inTime_sql _).bind fun _ => inTime_ok _
    · exact hthrow

theorem inTime_resolveReservation {db : Db} {tenantId reservationId : Uuid}
    {action : AgentBudgetReservation → AgentBudgetLedger →
      Except BudgetFailure (Db × AgentBudgetReservationReceipt)}
    (h : ∀ r l, InTime (action r l)) :
    InTime (resolveReservation db tenantId reservationId action) := by
  unfold resolveReservation
  split
  · exact inTime_conflict _
  · split
    · exact inTime_conflict _
    · exact h _ _

theorem inTime_commitTenantAggregate (db : Db) (r : AgentBudgetReservation) (actualCost : Int) :
    InTime (commitTenantAggregate db r actualCost) := by
  have hexceeds : ∀ {γ : Type}, InTime (.error actualCostExceeds : Except BudgetFailure γ) := by
    intro γ message h
    cases h
  unfold commitTenantAggregate
  split
  · exact inTime_ok _
  · split
    · exact hexceeds
    · refine (inTime_sql _).bind fun pass => ?_
      split
      · exact (inTime_sql _).bind fun _ => inTime_sql _
      · exact hexceeds

/-- A commit does not look at the deadline. -/
theorem inTime_commit (db : Db) (env : Env) (input : CommitInput)
    (h : input.requireUnknown = false) : InTime (commit db env input) := by
  have hactual : InTime (input.actualCostMinorUnits.mapM fun v =>
      assertNonnegativeInt v "actual cost") := by
    cases input.actualCostMinorUnits with
    | none => exact inTime_ok _
    | some v => exact (inTime_assertNonnegativeInt _ _).bind fun _ => inTime_ok _
  refine hactual.bind fun actual => ?_
  rw [h]
  apply inTime_resolveReservation
  intro r l
  unfold commitAction
  split
  · split
    · exact inTime_conflict _
    · exact inTime_ok _
  · split
    · exact inTime_conflict _
    · split
      · exact inTime_conflict _
      · refine (inTime_sql _).bind fun pass => ?_
        split
        · refine (inTime_sql _).bind fun _ => (inTime_sql _).bind fun _ => ?_
          refine (inTime_commitTenantAggregate _ _ _).bind fun _ => ?_
          exact (inTime_sql _).bind fun _ => inTime_ok _
        · intro message h
          cases h

/-- Nor does what a replayed side effect does to its reservation. -/
theorem inTime_markUnknown (db : Db) (env : Env) (tenantId reservationId : Uuid) :
    InTime (markUnknown db env tenantId reservationId) := by
  apply inTime_resolveReservation
  intro r l
  unfold markUnknownAction
  split
  · exact (inTime_sql _).bind fun _ => inTime_ok _
  · split
    · exact inTime_conflict _
    · exact inTime_ok _

end InTime

end MortgageAgent.Budget
