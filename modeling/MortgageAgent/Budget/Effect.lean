import MortgageAgent.Budget.System

/-!
# What one step of the budget system can do

Every accounting and lifecycle result needs the same case analysis of the operations, so it
is made once here.

* **`Effect`** — everything one step can do to the rows. A reservation row is the unit of
  change: a step that moves a ledger's counters adds or rewrites exactly one reservation, and
  moves the counters by the difference of what the row held and spent.
* **`step_effect`** — every step has such an effect. The results about runs use this lemma and
  unfold no operation again.
-/

namespace MortgageAgent.Budget

/-! ## The effects -/

/-- The two dimensions the tenant aggregate keeps. -/
inductive AggregateDimension where
  | providerCall
  | cost
  deriving DecidableEq, Repr

def AggregateDimension.toDimension : AggregateDimension → Dimension
  | .providerCall => .providerCall
  | .cost => .cost

def TenantAgentBudgetUsage.used (u : TenantAgentBudgetUsage) : AggregateDimension → Int
  | .providerCall => u.providerCallUsed
  | .cost => u.costUsedMinorUnits

def TenantAgentBudgetUsage.reserved (u : TenantAgentBudgetUsage) : AggregateDimension → Int
  | .providerCall => u.providerCallReserved
  | .cost => u.costReservedMinorUnits

/-- The units a reservation holds back. -/
def AgentBudgetReservation.heldUnits (r : AgentBudgetReservation) (d : Dimension) : Int :=
  if r.held then r.units.get d else 0

/-- The units a reservation has spent. -/
def AgentBudgetReservation.spentUnits (r : AgentBudgetReservation) (d : Dimension) : Int :=
  if r.committed then r.spent d else 0

/-- `l'` is `l` with its counters moved, and nothing else that accounting reads. -/
structure LedgerMoved (l l' : AgentBudgetLedger) (dReserved dUsed : Dimension → Int) : Prop where
  id : l'.id = l.id
  tenantId : l'.tenantId = l.tenantId
  limit : ∀ d, l'.limit d = l.limit d
  reserved : ∀ d, l'.reserved d = l.reserved d + dReserved d
  used : ∀ d, l'.used d = l.used d + dUsed d
  workflowRunId : l'.workflowRunId = l.workflowRunId
  deadlineAt : l'.deadlineAt = l.deadlineAt

structure UsageMoved (u u' : TenantAgentBudgetUsage)
    (dReserved dUsed : AggregateDimension → Int) : Prop where
  key : u'.key = u.key
  reserved : ∀ d, u'.reserved d = u.reserved d + dReserved d
  used : ∀ d, u'.used d = u.used d + dUsed d

abbrev UsageTable := Table TenantAgentBudgetUsage TenantAgentBudgetUsage.key

/-- One row of the tenant's usage moves, or none does because there is nothing to move. -/
inductive UsageMoves (usage usage' : UsageTable) (tenantId : Uuid)
    (dReserved dUsed : AggregateDimension → Int) : Prop where
  | same (h : usage' = usage) (hreserved : ∀ d, dReserved d = 0) (hused : ∀ d, dUsed d = 0)
  | row (u u' : TenantAgentBudgetUsage) (hu : u ∈ usage.rows) (htenant : u.tenantId = tenantId)
      (hmoved : UsageMoved u u' dReserved dUsed) (h : usage' = usage.put u')

/-- The reservation lifecycle. -/
inductive StatusStep : AgentBudgetReservationStatus → AgentBudgetReservationStatus → Prop where
  | unknown : StatusStep .RESERVED .UNKNOWN
  | commitReserved : StatusStep .RESERVED .COMMITTED
  | commitUnknown : StatusStep .UNKNOWN .COMMITTED
  | releaseReserved : StatusStep .RESERVED .RELEASED
  | releaseUnknown : StatusStep .UNKNOWN .RELEASED

/-- The columns of a reservation that no operation rewrites. -/
structure SameClaim (r r' : AgentBudgetReservation) : Prop where
  id : r'.id = r.id
  tenantId : r'.tenantId = r.tenantId
  ledgerId : r'.ledgerId = r.ledgerId
  idempotencyKey : r'.idempotencyKey = r.idempotencyKey
  units : r'.units = r.units
  window : r'.aggregateWindowStart = r.aggregateWindowStart

/-- A reservation as `reserve` inserts it. -/
structure FreshClaim (r : AgentBudgetReservation) : Prop where
  status : r.status = .RESERVED
  actual : r.actualCostMinorUnits = none
  nonneg : ∀ d, 0 ≤ r.units.get d
  positive : ∃ d, 0 < r.units.get d
  window : r.aggregateWindowStart = none → ∀ d : AggregateDimension, r.units.get d.toDimension = 0

/-- A claim adds one reservation `r` and moves its ledger by `r`'s units. -/
structure Claimed (db db' : Db) (r : AgentBudgetReservation) (l l' : AgentBudgetLedger) : Prop where
  fresh : FreshClaim r
  ledger : db.findLedger r.ledgerId r.tenantId = some l
  moved : LedgerMoved l l' r.heldUnits r.spentUnits
  fits : ∀ d, l.used d + l.reserved d + r.units.get d ≤ l.limit d
  keyFree : ∀ x ∈ db.reservations.rows,
    ¬(x.ledgerId = r.ledgerId ∧ x.idempotencyKey = r.idempotencyKey)
  inserted : db.reservations.insert r = some db'.reservations
  ledgers : db'.ledgers = db.ledgers.put l'
  tenants : db'.tenants = db.tenants
  usage : ∃ mid : UsageTable,
    (mid = db.usage ∨ ∃ u, (∀ d, u.used d = 0 ∧ u.reserved d = 0) ∧ db.usage.insert u = some mid)
      ∧ UsageMoves mid db'.usage r.tenantId
        (fun d => if r.aggregateWindowStart.isSome then r.heldUnits d.toDimension else 0)
        (fun _ => 0)

/-- A settlement (or `markUnknown`) rewrites one reservation `r` to `r'` and moves its ledger
by the difference of the two. -/
structure Settled (db db' : Db) (r r' : AgentBudgetReservation) (l l' : AgentBudgetLedger) :
    Prop where
  mem : r ∈ db.reservations.rows
  same : SameClaim r r'
  status : StatusStep r.status r'.status
  actual : r'.committed → ∃ c, 0 ≤ c ∧ r'.actualCostMinorUnits = some c
  ledger : db.findLedger r.ledgerId r.tenantId = some l
  moved : LedgerMoved l l' (fun d => r'.heldUnits d - r.heldUnits d)
    (fun d => r'.spentUnits d - r.spentUnits d)
  costFits : r'.committed →
    l'.used .cost + l'.reserved .cost ≤ l'.limit .cost
  reservations : db'.reservations = db.reservations.put r'
  ledgers : db'.ledgers = db.ledgers.put l'
  tenants : db'.tenants = db.tenants
  usage : UsageMoves db.usage db'.usage r.tenantId
    (fun d => if r.aggregateWindowStart.isSome then
      r'.heldUnits d.toDimension - r.heldUnits d.toDimension else 0)
    (fun d => if r.aggregateWindowStart.isSome then
      r'.spentUnits d.toDimension - r.spentUnits d.toDimension else 0)

theorem Settled.mem_iff {db db' : Db} {r r' : AgentBudgetReservation} {l l' : AgentBudgetLedger}
    (h : Settled db db' r r' l l') {x : AgentBudgetReservation} :
    x ∈ db'.reservations.rows ↔ x = r' ∨ (x ∈ db.reservations.rows ∧ x.id ≠ r'.id) :=
  h.reservations ▸ Table.mem_put _ ⟨r, h.mem, h.same.id.symm⟩

/-- Everything one step can do to the rows. -/
inductive Effect (db db' : Db) : Prop where
  | unchanged (h : db' = db)
  | tenants (tenants : Table Tenant Tenant.id) (h : db' = { db with tenants })
  | ledgerCreated (l : AgentBudgetLedger) (ledgers : Table AgentBudgetLedger AgentBudgetLedger.id)
      (hinsert : db.ledgers.insert l = some ledgers) (hcheck : l.check = true)
      (hzero : ∀ d, l.used d = 0 ∧ l.reserved d = 0) (h : db' = { db with ledgers })
  | claimed (r : AgentBudgetReservation) (l l' : AgentBudgetLedger) (h : Claimed db db' r l l')
  | settled (r r' : AgentBudgetReservation) (l l' : AgentBudgetLedger)
      (h : Settled db db' r r' l l')

/-! ## Spec lemmas of the statements

One lemma for each `SET` list, guard and write; `Int` equations replace the `integer`
arithmetic that succeeded. -/

theorem sql_ok {α : Type} {x : Except PgError α} {a : α} (h : sql x = .ok a) : x = .ok a := by
  match x, h with
  | .ok a, h => cases h; rfl

theorem fits_le {used reserved units limit : Int} (h : fits used reserved units limit = .ok true) :
    used + reserved + units ≤ limit := by
  obtain ⟨held, hheld, h⟩ := ok_of_bind_ok h
  obtain ⟨claimed, hclaimed, h⟩ := ok_of_bind_ok h
  -- the sums did not overflow, so they are sums of integers
  have hle : claimed ≤ limit := by simpa [pure, Except.pure] using h
  rw [int4Add_eq_ok hclaimed, int4Add_eq_ok hheld] at hle
  exact hle

theorem costFits_le {used reserved reservedCost actualCost limit : Int}
    (h : costFits used reserved reservedCost actualCost limit = .ok true) :
    used + reserved - reservedCost + actualCost ≤ limit := by
  obtain ⟨held, hheld, h⟩ := ok_of_bind_ok h
  obtain ⟨rest, hrest, h⟩ := ok_of_bind_ok h
  obtain ⟨settled, hsettled, h⟩ := ok_of_bind_ok h
  have hle : settled ≤ limit := by simpa [pure, Except.pure] using h
  rw [int4Add_eq_ok hsettled, int4Sub_eq_ok hrest, int4Add_eq_ok hheld] at hle
  exact hle

theorem reserveGuard_fits {l : AgentBudgetLedger} {u : AgentBudgetUnits Int} {version : Int}
    {now : Instant} (h : reserveGuard l u version now = .ok true) (d : Dimension) :
    l.used d + l.reserved d + u.get d ≤ l.limit d := by
  unfold reserveGuard at h
  split at h
  · obtain ⟨hstep, h⟩ := ok_true_of_andM h
    obtain ⟨htoken, h⟩ := ok_true_of_andM h
    obtain ⟨hcall, hcost⟩ := ok_true_of_andM h
    -- one conjunct of the `WHERE` clause for each dimension
    cases d with
    | step => exact fits_le hstep
    | token => exact fits_le htoken
    | providerCall => exact fits_le hcall
    | cost => exact fits_le hcost
  · cases h

theorem setReserved_moved {l l' : AgentBudgetLedger} {u : AgentBudgetUnits Int}
    (h : setReserved l u = .ok l') : LedgerMoved l l' u.get fun _ => 0 := by
  obtain ⟨steps, hsteps, h⟩ := ok_of_bind_ok h
  obtain ⟨tokens, htokens, h⟩ := ok_of_bind_ok h
  obtain ⟨calls, hcalls, h⟩ := ok_of_bind_ok h
  obtain ⟨cost, hcost, h⟩ := ok_of_bind_ok h
  obtain ⟨version, -, h⟩ := ok_of_bind_ok h
  cases h
  -- every addition succeeded, so the columns moved by exactly the units
  rw [int4Add_eq_ok hsteps, int4Add_eq_ok htokens, int4Add_eq_ok hcalls, int4Add_eq_ok hcost]
  exact ⟨rfl, rfl, by rintro (_ | _ | _ | _) <;> rfl, by rintro (_ | _ | _ | _) <;> rfl,
    by rintro (_ | _ | _ | _) <;> exact (add_zero _).symm, rfl, rfl⟩

theorem setReleased_moved {l l' : AgentBudgetLedger} {u : AgentBudgetUnits Int}
    (h : setReleased l u = .ok l') : LedgerMoved l l' (fun d => -u.get d) fun _ => 0 := by
  obtain ⟨steps, hsteps, h⟩ := ok_of_bind_ok h
  obtain ⟨tokens, htokens, h⟩ := ok_of_bind_ok h
  obtain ⟨calls, hcalls, h⟩ := ok_of_bind_ok h
  obtain ⟨cost, hcost, h⟩ := ok_of_bind_ok h
  obtain ⟨version, -, h⟩ := ok_of_bind_ok h
  cases h
  rw [int4Sub_eq_ok hsteps, int4Sub_eq_ok htokens, int4Sub_eq_ok hcalls, int4Sub_eq_ok hcost]
  exact ⟨rfl, rfl, by rintro (_ | _ | _ | _) <;> rfl, by rintro (_ | _ | _ | _) <;> rfl,
    by rintro (_ | _ | _ | _) <;> exact (add_zero _).symm, rfl, rfl⟩

/-- What committing the units `u` at an actual cost spends. -/
def committedUnits (u : AgentBudgetUnits Int) (actualCost : Int) : Dimension → Int
  | .cost => actualCost
  | d => u.get d

theorem setCommitted_moved {l l' : AgentBudgetLedger} {u : AgentBudgetUnits Int}
    {actualCost : Int} (h : setCommitted l u actualCost = .ok l') :
    LedgerMoved l l' (fun d => -u.get d) (committedUnits u actualCost) := by
  obtain ⟨stepsR, hstepsR, h⟩ := ok_of_bind_ok h
  obtain ⟨stepsU, hstepsU, h⟩ := ok_of_bind_ok h
  obtain ⟨tokensR, htokensR, h⟩ := ok_of_bind_ok h
  obtain ⟨tokensU, htokensU, h⟩ := ok_of_bind_ok h
  obtain ⟨callsR, hcallsR, h⟩ := ok_of_bind_ok h
  obtain ⟨callsU, hcallsU, h⟩ := ok_of_bind_ok h
  obtain ⟨costR, hcostR, h⟩ := ok_of_bind_ok h
  obtain ⟨costU, hcostU, h⟩ := ok_of_bind_ok h
  obtain ⟨version, -, h⟩ := ok_of_bind_ok h
  cases h
  -- the units leave the reserved columns, and the cost arrives at its actual value
  rw [int4Sub_eq_ok hstepsR, int4Add_eq_ok hstepsU, int4Sub_eq_ok htokensR,
    int4Add_eq_ok htokensU, int4Sub_eq_ok hcallsR, int4Add_eq_ok hcallsU,
    int4Sub_eq_ok hcostR, int4Add_eq_ok hcostU]
  exact ⟨rfl, rfl, by rintro (_ | _ | _ | _) <;> rfl, by rintro (_ | _ | _ | _) <;> rfl,
    by rintro (_ | _ | _ | _) <;> rfl, rfl, rfl⟩

theorem setUsageReserved_moved {u u' : TenantAgentBudgetUsage} {units : AgentBudgetUnits Int}
    (h : setUsageReserved u units = .ok u') :
    UsageMoved u u' (fun d => units.get d.toDimension) fun _ => 0 := by
  obtain ⟨calls, hcalls, h⟩ := ok_of_bind_ok h
  obtain ⟨cost, hcost, h⟩ := ok_of_bind_ok h
  cases h
  rw [int4Add_eq_ok hcalls, int4Add_eq_ok hcost]
  exact ⟨rfl, by rintro (_ | _) <;> rfl, by rintro (_ | _) <;> exact (add_zero _).symm⟩

theorem setUsageReleased_moved {u u' : TenantAgentBudgetUsage} {units : AgentBudgetUnits Int}
    (h : setUsageReleased u units = .ok u') :
    UsageMoved u u' (fun d => -units.get d.toDimension) fun _ => 0 := by
  obtain ⟨calls, hcalls, h⟩ := ok_of_bind_ok h
  obtain ⟨cost, hcost, h⟩ := ok_of_bind_ok h
  cases h
  rw [int4Sub_eq_ok hcalls, int4Sub_eq_ok hcost]
  exact ⟨rfl, by rintro (_ | _) <;> rfl, by rintro (_ | _) <;> exact (add_zero _).symm⟩

theorem setUsageCommitted_moved {u u' : TenantAgentBudgetUsage} {units : AgentBudgetUnits Int}
    {actualCost : Int} (h : setUsageCommitted u units actualCost = .ok u') :
    UsageMoved u u' (fun d => -units.get d.toDimension)
      fun d => committedUnits units actualCost d.toDimension := by
  obtain ⟨callsR, hcallsR, h⟩ := ok_of_bind_ok h
  obtain ⟨callsU, hcallsU, h⟩ := ok_of_bind_ok h
  obtain ⟨costR, hcostR, h⟩ := ok_of_bind_ok h
  obtain ⟨costU, hcostU, h⟩ := ok_of_bind_ok h
  cases h
  rw [int4Sub_eq_ok hcallsR, int4Add_eq_ok hcallsU, int4Sub_eq_ok hcostR, int4Add_eq_ok hcostU]
  exact ⟨rfl, by rintro (_ | _) <;> rfl, by rintro (_ | _) <;> rfl⟩

theorem writeLedger_ok {db db' : Db} {l : AgentBudgetLedger} (h : db.writeLedger l = .ok db') :
    db' = { db with ledgers := db.ledgers.put l } := by
  unfold Db.writeLedger at h
  split at h
  · cases h; rfl
  · cases h

theorem writeUsage_ok {db db' : Db} {u : TenantAgentBudgetUsage}
    (h : db.writeUsage u = .ok db') : db' = { db with usage := db.usage.put u } := by
  unfold Db.writeUsage at h
  split at h
  · cases h; rfl
  · cases h

theorem writeReservation_ok {db db' : Db} {r : AgentBudgetReservation}
    (h : db.writeReservation r = .ok db') :
    0 ≤ r.actualCostMinorUnits.getD 0
      ∧ db' = { db with reservations := db.reservations.put r } := by
  unfold Db.writeReservation at h
  split at h
  · cases h; exact ⟨by assumption, rfl⟩
  · cases h

theorem findLedger_some {db : Db} {id tenantId : Uuid} {l : AgentBudgetLedger}
    (h : db.findLedger id tenantId = some l) :
    l ∈ db.ledgers.rows ∧ l.id = id ∧ l.tenantId = tenantId := by
  obtain ⟨hfind, htenant⟩ := Option.filter_eq_some_iff.mp h
  obtain ⟨hmem, hid⟩ := db.ledgers.find_eq_some_iff.mp hfind
  exact ⟨hmem, hid, by simpa using htenant⟩

/-! ## The aggregate -/

/-- Inserting the month's usage row adds at most one row, with zero counters. -/
theorem insertUsageIfAbsent_cases (db : Db) (tenantId : Uuid) (window : Day) (currency : String) :
    ∃ usage : UsageTable, insertUsageIfAbsent db tenantId window currency = { db with usage }
      ∧ (usage = db.usage
        ∨ ∃ u, (∀ d, u.used d = 0 ∧ u.reserved d = 0) ∧ db.usage.insert u = some usage) := by
  unfold insertUsageIfAbsent
  split
  · split
    · split
      · next usage hinsert =>
        exact ⟨usage, rfl, Or.inr ⟨_, by rintro (_ | _) <;> exact ⟨rfl, rfl⟩, hinsert⟩⟩
      · exact ⟨db.usage, rfl, Or.inl rfl⟩
    · exact ⟨db.usage, rfl, Or.inl rfl⟩
  · exact ⟨db.usage, rfl, Or.inl rfl⟩

/-- The aggregate claim touches only the usage table: free work leaves it alone and gets no
window, any other work moves one row of the tenant by its units. -/
theorem reserveTenantAggregate_ok {db db' : Db} {env : Env} {tenantId : Uuid} {currency : String}
    {units : AgentBudgetUnits Int} {window : Option Day}
    (h : reserveTenantAggregate db env tenantId currency units = .ok (db', window)) :
    ∃ usage mid : UsageTable, db' = { db with usage }
      ∧ (mid = db.usage
        ∨ ∃ u, (∀ d, u.used d = 0 ∧ u.reserved d = 0) ∧ db.usage.insert u = some mid)
      ∧ (window = none → ∀ d : AggregateDimension, units.get d.toDimension = 0)
      ∧ UsageMoves mid usage tenantId
        (fun d => if window.isSome then units.get d.toDimension else 0) fun _ => 0 := by
  unfold reserveTenantAggregate at h
  split at h
  · next hfree =>
    cases h
    simp only [Bool.and_eq_true, decide_eq_true_eq] at hfree
    exact ⟨db.usage, db.usage, rfl, Or.inl rfl,
      fun _ d => by cases d; exacts [hfree.1, hfree.2],
      .same rfl (fun _ => rfl) (fun _ => rfl)⟩
  · -- `mid` is the usage table after the month's row was inserted if absent
    obtain ⟨mid, hmid, hcases⟩ :=
      insertUsageIfAbsent_cases db tenantId (monthStart env.dbNow) currency
    simp only [hmid] at h
    split at h
    · next u t hu ht =>
      obtain ⟨hmem, hkey⟩ := (Table.find_eq_some_iff _).mp hu
      obtain ⟨pass, -, h⟩ := ok_of_bind_ok h
      cases pass with
      | false => cases h
      | true =>
        obtain ⟨u', hu', h⟩ := ok_of_bind_ok h
        obtain ⟨db'', hdb, h⟩ := ok_of_bind_ok h
        cases h
        rw [writeUsage_ok (sql_ok hdb)]
        exact ⟨mid.put u', mid, rfl, hcases, fun h => (Option.some_ne_none _ h).elim,
          .row u u' hmem (congrArg Prod.fst hkey) (setUsageReserved_moved (sql_ok hu')) rfl⟩
    · cases h

/-- Rewriting the deltas of a usage move. -/
theorem UsageMoves.congr {usage usage' : UsageTable} {tenantId : Uuid}
    {dReserved dUsed dReserved' dUsed' : AggregateDimension → Int}
    (h : UsageMoves usage usage' tenantId dReserved dUsed)
    (hreserved : dReserved = dReserved') (hused : dUsed = dUsed') :
    UsageMoves usage usage' tenantId dReserved' dUsed' := by
  subst hreserved hused
  exact h

theorem commitTenantAggregate_ok {db db' : Db} {r : AgentBudgetReservation} {actualCost : Int}
    (h : commitTenantAggregate db r actualCost = .ok db') :
    ∃ usage : UsageTable, db' = { db with usage }
      ∧ UsageMoves db.usage usage r.tenantId
        (fun d => if r.aggregateWindowStart.isSome then -r.units.get d.toDimension else 0)
        (fun d => if r.aggregateWindowStart.isSome then
          committedUnits r.units actualCost d.toDimension else 0) := by
  unfold commitTenantAggregate at h
  split at h
  · next hwindow =>
    cases h
    exact ⟨db.usage, rfl, .same rfl (fun _ => by simp [hwindow]) fun _ => by simp [hwindow]⟩
  · next window hwindow =>
    split at h
    · cases h
    · next u hu =>
      obtain ⟨hmem, hkey⟩ := (Table.find_eq_some_iff _).mp hu
      obtain ⟨pass, -, h⟩ := ok_of_bind_ok h
      cases pass with
      | false => cases h
      | true =>
        obtain ⟨u', hu', h⟩ := ok_of_bind_ok h
        refine ⟨db.usage.put u', writeUsage_ok (sql_ok h), ?_⟩
        refine (UsageMoves.row u u' hmem (congrArg Prod.fst hkey)
          (setUsageCommitted_moved (sql_ok hu')) rfl).congr ?_ ?_ <;> simp [hwindow]

theorem releaseTenantAggregate_ok {db db' : Db} {r : AgentBudgetReservation}
    (h : releaseTenantAggregate db r = .ok db') :
    ∃ usage : UsageTable, db' = { db with usage }
      ∧ UsageMoves db.usage usage r.tenantId
        (fun d => if r.aggregateWindowStart.isSome then -r.units.get d.toDimension else 0)
        fun _ => 0 := by
  unfold releaseTenantAggregate at h
  split at h
  · next hwindow =>
    cases h
    exact ⟨db.usage, rfl, .same rfl (fun _ => by simp [hwindow]) fun _ => rfl⟩
  · next window hwindow =>
    split at h
    · cases h
    · next u hu =>
      obtain ⟨hmem, hkey⟩ := (Table.find_eq_some_iff _).mp hu
      split at h
      · obtain ⟨u', hu', h⟩ := ok_of_bind_ok h
        refine ⟨db.usage.put u', writeUsage_ok (sql_ok h), ?_⟩
        refine (UsageMoves.row u u' hmem (congrArg Prod.fst hkey)
          (setUsageReleased_moved (sql_ok hu')) rfl).congr ?_ rfl
        simp [hwindow]
      · cases h

/-! ## The operations -/

/-- A reservation is inserted only with non-negative units, not all zero, under a key no row
of its ledger has. -/
theorem insertReservation_ok {db db' : Db} {r : AgentBudgetReservation}
    (h : insertReservation db r = .ok db') :
    (∀ d, 0 ≤ r.units.get d) ∧ (∃ d, 0 < r.units.get d)
      ∧ (∀ x ∈ db.reservations.rows,
        ¬(x.ledgerId = r.ledgerId ∧ x.idempotencyKey = r.idempotencyKey))
      ∧ ∃ reservations, db.reservations.insert r = some reservations
        ∧ db' = { db with reservations } := by
  obtain ⟨s1, hs1, h⟩ := ok_of_bind_ok h
  obtain ⟨s2, hs2, h⟩ := ok_of_bind_ok h
  obtain ⟨s3, hs3, h⟩ := ok_of_bind_ok h
  have hsum := int4Add_eq_ok hs3
  rw [int4Add_eq_ok hs2, int4Add_eq_ok hs1] at hsum
  split at h
  · cases h
  next hcheck =>
  split at h
  · cases h
  next hkey =>
  simp only [Bool.and_eq_true, Bool.not_eq_true, Bool.not_eq_false', decide_eq_true_eq] at hcheck
  obtain ⟨⟨⟨⟨hstep, htoken⟩, hcall⟩, hcost⟩, hpos⟩ := hcheck
  -- past the checks the only thing left to do is the insert
  have hinserted : ∃ reservations, db.reservations.insert r = some reservations
      ∧ db' = { db with reservations } := by
    split at h
    · cases h
    · next reservations hinsert =>
      refine ⟨reservations, hinsert, ?_⟩
      split at h
      · cases h
      · split at h
        · cases h
        · cases h; rfl
  refine ⟨?_, ?_, ?_, hinserted⟩
  · rintro (_ | _ | _ | _)
    exacts [hstep, htoken, hcall, hcost]
  · by_contra hnone
    -- were no dimension positive, the checked sum would not be
    have hle : ∀ d, r.units.get d ≤ 0 := fun d => Int.not_lt.mp fun hd => hnone ⟨d, hd⟩
    have h1 := hle .step
    have h2 := hle .token
    have h3 := hle .providerCall
    have h4 := hle .cost
    simp only [AgentBudgetUnits.get] at h1 h2 h3 h4
    omega
  · intro x hx hxr
    simp only [List.any_eq_true, Bool.and_eq_true, decide_eq_true_eq, not_exists, not_and] at hkey
    exact hkey x hx hxr.1 hxr.2

/-- The statements of a claim that commits, each of which has succeeded. -/
theorem reserveClaim_runs {db db' : Db} {env : Env} {newId : Uuid} {input : ReserveInput}
    {units : AgentBudgetUnits Int} {rc : AgentBudgetReservationReceipt}
    (h : reserveClaim db env newId input units = .ok (db', rc)) :
    ∃ l l' window db₂, db.findLedger input.ledgerId input.tenantId = some l
      ∧ reserveGuard l units input.expectedVersion env.dbNow = .ok true
      ∧ setReserved l units = .ok l'
      ∧ reserveTenantAggregate { db with ledgers := db.ledgers.put l' } env input.tenantId
          (jsTrim l'.currency) units = .ok (db₂, window)
      ∧ ∃ r : AgentBudgetReservation, r = {
            id := newId
            tenantId := input.tenantId
            ledgerId := input.ledgerId
            idempotencyKey := input.idempotencyKey
            units
            aggregateWindowStart := window }
        ∧ insertReservation db₂ r = .ok db' ∧ rc = receipt r l' false env := by
  unfold reserveClaim at h
  split at h
  · cases h
  next l hl =>
  obtain ⟨pass, hpass, h⟩ := ok_of_bind_ok h
  cases pass with
  | false => cases h
  | true =>
    obtain ⟨l', hl', h⟩ := ok_of_bind_ok h
    obtain ⟨db₁, hdb₁, h⟩ := ok_of_bind_ok h
    obtain ⟨⟨db₂, window⟩, hagg, h⟩ := ok_of_bind_ok h
    obtain ⟨db₃, hdb₃, h⟩ := ok_of_bind_ok h
    cases h
    obtain rfl := writeLedger_ok (sql_ok hdb₁)
    exact ⟨l, l', window, db₂, hl, sql_ok hpass, sql_ok hl', hagg, _, rfl, sql_ok hdb₃, rfl⟩

/-- **A claim that commits.** The key had no row, every dimension had room, and the ledger and
the aggregate moved by the units of the new reservation. -/
theorem reserveClaim_claimed {db db' : Db} {env : Env} {newId : Uuid} {input : ReserveInput}
    {units : AgentBudgetUnits Int} {rc : AgentBudgetReservationReceipt}
    (h : reserveClaim db env newId input units = .ok (db', rc)) :
    ∃ r l l', Claimed db db' r l l' ∧ r.id = newId ∧ r.tenantId = input.tenantId
      ∧ r.ledgerId = input.ledgerId ∧ r.idempotencyKey = input.idempotencyKey
      ∧ r.units = units ∧ rc = receipt r l' false env := by
  obtain ⟨l, l', window, db₂, hl, hguard, hset, hagg, r, rfl, hwrite, rfl⟩ := reserveClaim_runs h
  obtain ⟨usage, mid, rfl, hmid, hfree, hmoves⟩ := reserveTenantAggregate_ok hagg
  obtain ⟨hnonneg, hpos, hkey, reservations, hinsert, rfl⟩ := insertReservation_ok hwrite
  refine ⟨_, l, l', ?_, rfl, rfl, rfl, rfl, rfl, rfl⟩
  exact {
    fresh := ⟨rfl, rfl, hnonneg, hpos, hfree⟩
    ledger := hl
    moved := setReserved_moved hset
    fits := reserveGuard_fits hguard
    keyFree := hkey
    inserted := hinsert
    ledgers := rfl
    tenants := rfl
    usage := ⟨mid, hmid, hmoves⟩ }

/-- The rows an action of `resolveReservation` runs on. -/
theorem resolveReservation_ok {db : Db} {tenantId reservationId : Uuid}
    {action : AgentBudgetReservation → AgentBudgetLedger →
      Except BudgetFailure (Db × AgentBudgetReservationReceipt)}
    {result : Db × AgentBudgetReservationReceipt}
    (h : resolveReservation db tenantId reservationId action = .ok result) :
    ∃ r l, r ∈ db.reservations.rows ∧ r.id = reservationId ∧ r.tenantId = tenantId
      ∧ db.findLedger r.ledgerId r.tenantId = some l ∧ action r l = .ok result := by
  unfold resolveReservation at h
  split at h
  · cases h
  next r hr =>
  obtain ⟨hfind, htenant⟩ := Option.filter_eq_some_iff.mp hr
  obtain ⟨hmem, hid⟩ := (Table.find_eq_some_iff _).mp hfind
  have htenant : r.tenantId = tenantId := by simpa using htenant
  split at h
  · cases h
  next l hl => exact ⟨r, l, hmem, hid, htenant, htenant ▸ hl, h⟩

theorem held_of_status {r : AgentBudgetReservation} (hc : r.status ≠ .COMMITTED)
    (hr : r.status ≠ .RELEASED) : r.held = true := by
  unfold AgentBudgetReservation.held
  cases h : r.status <;> simp_all

theorem held_of_statusStep {r : AgentBudgetReservation} {st : AgentBudgetReservationStatus}
    (h : StatusStep r.status st) : r.held = true := by
  unfold AgentBudgetReservation.held
  cases hs : r.status <;> rw [hs] at h <;> cases h <;> rfl

/-- What settling a held reservation takes out of the reserved counters. -/
theorem heldUnits_settled {r r' : AgentBudgetReservation} (hr : r.held = true)
    (hr' : r'.held = false) (d : Dimension) :
    r'.heldUnits d - r.heldUnits d = -r.units.get d := by
  simp [AgentBudgetReservation.heldUnits, hr, hr']

theorem spentUnits_of_held {r : AgentBudgetReservation} (hr : r.held = true) (d : Dimension) :
    r.spentUnits d = 0 := by
  unfold AgentBudgetReservation.held at hr
  unfold AgentBudgetReservation.spentUnits AgentBudgetReservation.committed
  cases h : r.status <;> simp_all

/-- A `commit` that returns has replayed, or its statements have succeeded. -/
theorem commitAction_runs {db db' : Db} {env : Env} {input : CommitInput} {actual : Option Int}
    {r : AgentBudgetReservation} {l : AgentBudgetLedger} {rc : AgentBudgetReservationReceipt}
    (h : commitAction db env input actual r l = .ok (db', rc)) :
    (db' = db ∧ r.status = .COMMITTED ∧ rc = receipt r l false env)
      ∨ (r.status ≠ .COMMITTED ∧ r.status ≠ .RELEASED ∧ ∃ l' db₂,
        costFits l.costUsedMinorUnits l.costReservedMinorUnits r.units.costMinorUnits
            (actual.getD r.units.costMinorUnits) l.costLimitMinorUnits = .ok true
          ∧ setCommitted l r.units (actual.getD r.units.costMinorUnits) = .ok l'
          ∧ commitTenantAggregate { db with ledgers := db.ledgers.put l' } r
            (actual.getD r.units.costMinorUnits) = .ok db₂
          ∧ db₂.writeReservation (r.asCommitted env input (actual.getD r.units.costMinorUnits))
            = .ok db'
          ∧ rc = receipt (r.asCommitted env input (actual.getD r.units.costMinorUnits)) l' false
            env) := by
  unfold commitAction at h
  -- committed already: the call returns the row as it is
  split at h
  · next hcommitted =>
    split at h
    · cases h
    · cases h
      exact Or.inl ⟨rfl, hcommitted, rfl⟩
  next hnotCommitted =>
  split at h
  · cases h
  split at h
  · cases h
  next hnotReleased =>
  obtain ⟨pass, hpass, h⟩ := ok_of_bind_ok h
  cases pass with
  | false => cases h
  | true =>
    obtain ⟨l', hl', h⟩ := ok_of_bind_ok h
    obtain ⟨db₁, hdb₁, h⟩ := ok_of_bind_ok h
    obtain ⟨db₂, hdb₂, h⟩ := ok_of_bind_ok h
    obtain ⟨db₃, hdb₃, h⟩ := ok_of_bind_ok h
    cases h
    obtain rfl := writeLedger_ok (sql_ok hdb₁)
    exact Or.inr ⟨hnotCommitted, hnotReleased, l', db₂, sql_ok hpass, sql_ok hl', hdb₂,
      sql_ok hdb₃, rfl⟩

/-- A `commit` that returns found the reservation settled already, or settled it. -/
theorem commitAction_ok {db db' : Db} {env : Env} {input : CommitInput} {actual : Option Int}
    {r : AgentBudgetReservation} {l : AgentBudgetLedger} {rc : AgentBudgetReservationReceipt}
    (hmem : r ∈ db.reservations.rows) (hl : db.findLedger r.ledgerId r.tenantId = some l)
    (h : commitAction db env input actual r l = .ok (db', rc)) :
    (db' = db ∧ r.status = .COMMITTED)
      ∨ ∃ r' l', Settled db db' r r' l l' ∧ r'.status = .COMMITTED
        ∧ r'.actualCostMinorUnits = some (actual.getD r.units.costMinorUnits) := by
  obtain ⟨rfl, hcommitted, -⟩
    | ⟨hnotCommitted, hnotReleased, l', db₂, hfits, hset, hagg, hwrite, -⟩ := commitAction_runs h
  · exact Or.inl ⟨rfl, hcommitted⟩
  obtain ⟨usage, rfl, hmoves⟩ := commitTenantAggregate_ok hagg
  obtain ⟨hactual, rfl⟩ := writeReservation_ok hwrite
  have hheld := held_of_status hnotCommitted hnotReleased
  have hmoved := setCommitted_moved hset
  have hfits := costFits_le hfits
  -- the new row spends its units and the actual cost, and holds nothing
  let r' := r.asCommitted env input (actual.getD r.units.costMinorUnits)
  have hspent : ∀ d, r'.spentUnits d - r.spentUnits d
      = committedUnits r.units (actual.getD r.units.costMinorUnits) d := by
    intro d
    rw [spentUnits_of_held hheld d, sub_zero]
    cases d <;> rfl
  refine Or.inr ⟨r', l', ?_, rfl, rfl⟩
  refine {
    mem := hmem
    same := ⟨rfl, rfl, rfl, rfl, rfl, rfl⟩
    status := ?_
    actual := fun _ => ⟨_, hactual, rfl⟩
    ledger := hl
    moved := ⟨hmoved.id, hmoved.tenantId, hmoved.limit, fun d => ?_, fun d => ?_,
      hmoved.workflowRunId, hmoved.deadlineAt⟩
    costFits := fun _ => ?_
    reservations := rfl
    ledgers := rfl
    tenants := rfl
    usage := hmoves.congr ?_ ?_ }
  · -- the two settled statuses were refused above
    show StatusStep r.status .COMMITTED
    cases hs : r.status with
    | RESERVED => exact .commitReserved
    | UNKNOWN => exact .commitUnknown
    | COMMITTED => exact absurd hs hnotCommitted
    | RELEASED => exact absurd hs hnotReleased
  · rw [hmoved.reserved d, heldUnits_settled hheld rfl]
  · rw [hmoved.used d, hspent d]
  · -- the guard of the `UPDATE` is the bound on the row it wrote
    have hused := hmoved.used .cost
    have hreserved := hmoved.reserved .cost
    have hlimit := hmoved.limit .cost
    simp only [committedUnits, AgentBudgetUnits.get, AgentBudgetLedger.used,
      AgentBudgetLedger.reserved, AgentBudgetLedger.limit] at hused hreserved hlimit hfits ⊢
    omega
  · funext d
    rw [heldUnits_settled hheld rfl]
  · funext d
    rw [hspent]

/-- A `release` that returns has replayed, or its statements have succeeded. -/
theorem releaseAction_runs {db db' : Db} {env : Env} {resolution : Option ReleaseResolution}
    {r : AgentBudgetReservation} {l : AgentBudgetLedger} {rc : AgentBudgetReservationReceipt}
    (h : releaseAction db env resolution r l = .ok (db', rc)) :
    (db' = db ∧ r.status = .RELEASED)
      ∨ (r.status ≠ .RELEASED ∧ r.status ≠ .COMMITTED ∧ ∃ l' db₂,
        setReleased l r.units = .ok l'
          ∧ releaseTenantAggregate { db with ledgers := db.ledgers.put l' } r = .ok db₂
          ∧ db₂.writeReservation (r.asReleased env resolution) = .ok db') := by
  unfold releaseAction at h
  split at h
  · next hreleased =>
    split at h
    · cases h
    · cases h
      exact Or.inl ⟨rfl, hreleased⟩
  next hnotReleased =>
  split at h
  · cases h
  split at h
  · cases h
  next hnotCommitted =>
  obtain ⟨l', hl', h⟩ := ok_of_bind_ok h
  obtain ⟨db₁, hdb₁, h⟩ := ok_of_bind_ok h
  obtain ⟨db₂, hdb₂, h⟩ := ok_of_bind_ok h
  obtain ⟨db₃, hdb₃, h⟩ := ok_of_bind_ok h
  cases h
  obtain rfl := writeLedger_ok (sql_ok hdb₁)
  exact Or.inr ⟨hnotReleased, hnotCommitted, l', db₂, sql_ok hl', hdb₂, sql_ok hdb₃⟩

/-- A `release` that returns found the reservation released already, or released it. -/
theorem releaseAction_ok {db db' : Db} {env : Env} {resolution : Option ReleaseResolution}
    {r : AgentBudgetReservation} {l : AgentBudgetLedger} {rc : AgentBudgetReservationReceipt}
    (hmem : r ∈ db.reservations.rows) (hl : db.findLedger r.ledgerId r.tenantId = some l)
    (h : releaseAction db env resolution r l = .ok (db', rc)) :
    (db' = db ∧ r.status = .RELEASED)
      ∨ ∃ r' l', Settled db db' r r' l l' ∧ r'.status = .RELEASED := by
  obtain ⟨rfl, hreleased⟩ | ⟨hnotReleased, hnotCommitted, l', db₂, hset, hagg, hwrite⟩ :=
    releaseAction_runs h
  · exact Or.inl ⟨rfl, hreleased⟩
  obtain ⟨usage, rfl, hmoves⟩ := releaseTenantAggregate_ok hagg
  obtain ⟨hactual, rfl⟩ := writeReservation_ok hwrite
  have hheld := held_of_status hnotCommitted hnotReleased
  have hmoved := setReleased_moved hset
  let r' := r.asReleased env resolution
  -- a released row spends nothing, as the held one did not
  have hspent : ∀ d, r'.spentUnits d - r.spentUnits d = 0 := by
    intro d
    rw [spentUnits_of_held hheld d]
    rfl
  refine Or.inr ⟨r', l', ?_, rfl⟩
  refine {
    mem := hmem
    same := ⟨rfl, rfl, rfl, rfl, rfl, rfl⟩
    status := ?_
    actual := nofun
    ledger := hl
    moved := ⟨hmoved.id, hmoved.tenantId, hmoved.limit, fun d => ?_, fun d => ?_,
        hmoved.workflowRunId, hmoved.deadlineAt⟩
    costFits := nofun
    reservations := rfl
    ledgers := rfl
    tenants := rfl
    usage := hmoves.congr ?_ ?_ }
  · show StatusStep r.status .RELEASED
    cases hs : r.status with
    | RESERVED => exact .releaseReserved
    | UNKNOWN => exact .releaseUnknown
    | COMMITTED => exact absurd hs hnotCommitted
    | RELEASED => exact absurd hs hnotReleased
  · rw [hmoved.reserved d, heldUnits_settled hheld rfl]
  · rw [hmoved.used d, hspent d]
  · funext d
    rw [heldUnits_settled hheld rfl]
  · funext d
    rw [hspent]
    simp

/-- Marking unknown keeps the capacity: no counter moves. -/
theorem markUnknownAction_ok {db db' : Db} {env : Env} {r : AgentBudgetReservation}
    {l : AgentBudgetLedger} {rc : AgentBudgetReservationReceipt}
    (hmem : r ∈ db.reservations.rows) (hl : db.findLedger r.ledgerId r.tenantId = some l)
    (h : markUnknownAction db env r l = .ok (db', rc)) :
    (db' = db ∧ r.status = .UNKNOWN)
      ∨ ∃ r', Settled db db' r r' l l ∧ r'.status = .UNKNOWN
        ∧ db'.ledgers = db.ledgers ∧ db'.usage = db.usage := by
  unfold markUnknownAction at h
  split at h
  · next hreserved =>
    obtain ⟨db1, hdb1, h⟩ := ok_of_bind_ok h
    cases h
    obtain ⟨-, rfl⟩ := writeReservation_ok (sql_ok hdb1)
    obtain ⟨hlmem, -, -⟩ := findLedger_some hl
    -- an unknown row holds what it held
    have hheld : ∀ d, r.asUnknown.heldUnits d - r.heldUnits d = 0 := by
      intro d
      simp [AgentBudgetReservation.heldUnits, AgentBudgetReservation.held,
        AgentBudgetReservation.asUnknown, hreserved]
    have hspent : ∀ d, r.asUnknown.spentUnits d - r.spentUnits d = 0 := by
      intro d
      simp [AgentBudgetReservation.spentUnits, AgentBudgetReservation.committed,
        AgentBudgetReservation.asUnknown, hreserved]
    refine Or.inr ⟨r.asUnknown, ?_, rfl, rfl, rfl⟩
    exact {
      mem := hmem
      same := ⟨rfl, rfl, rfl, rfl, rfl, rfl⟩
      status := by rw [hreserved]; exact .unknown
      actual := nofun
      ledger := hl
      moved := ⟨rfl, rfl, fun _ => rfl, fun d => by rw [hheld]; simp, fun d => by
        rw [hspent]; simp, rfl, rfl⟩
      costFits := nofun
      reservations := rfl
      ledgers := (db.ledgers.put_self hlmem).symm
      tenants := rfl
      usage := .same rfl (fun d => by rw [hheld]; simp) fun d => by rw [hspent]; simp }
  · split at h
    · cases h
    · next hunknown =>
      cases h
      exact Or.inl ⟨rfl, by simpa using hunknown⟩

/-- The cost a `commit` settles `r` at: the supplied one, else the reserved one. -/
def CommitInput.settledCost (input : CommitInput) (r : AgentBudgetReservation) : Int :=
  match input.actualCostMinorUnits with
  | some (.int v) => v
  | _ => r.units.costMinorUnits

theorem assertNonnegativeInt_ok {value : JsNumber} {name : String} {v : Int}
    (h : assertNonnegativeInt value name = .ok v) : value = .int v ∧ 0 ≤ v := by
  unfold assertNonnegativeInt at h
  split at h
  · split at h
    · next hrange =>
      cases h
      simp only [Bool.and_eq_true, decide_eq_true_eq] at hrange
      exact ⟨rfl, hrange.1⟩
    · cases h
  · cases h

/-- A `commit` that returns ran its action on the reservation it names. -/
theorem commit_runs {db db' : Db} {env : Env} {input : CommitInput}
    {rc : AgentBudgetReservationReceipt} (h : commit db env input = .ok (db', rc)) :
    ∃ actual, (input.actualCostMinorUnits.mapM fun v => assertNonnegativeInt v "actual cost")
        = .ok actual
      ∧ ∃ r l, r ∈ db.reservations.rows ∧ r.id = input.reservationId
        ∧ r.tenantId = input.tenantId ∧ db.findLedger r.ledgerId r.tenantId = some l
        ∧ commitAction db env input actual r l = .ok (db', rc) := by
  obtain ⟨actual, hactual, h⟩ := ok_of_bind_ok h
  refine ⟨actual, hactual, resolveReservation_ok ?_⟩
  split at h
  · obtain ⟨_, -, h⟩ := ok_of_bind_ok h
    exact h
  · exact h

/-- **`commit`.** A call that returns changed nothing, or settled the reservation it names as
`COMMITTED` at the settled cost. -/
theorem commit_ok {db db' : Db} {env : Env} {input : CommitInput}
    {rc : AgentBudgetReservationReceipt} (h : commit db env input = .ok (db', rc)) :
    ∃ r l, r ∈ db.reservations.rows ∧ r.id = input.reservationId
      ∧ r.tenantId = input.tenantId
      ∧ ((db' = db ∧ r.status = .COMMITTED)
        ∨ ∃ r' l', Settled db db' r r' l l' ∧ r'.status = .COMMITTED
          ∧ r'.actualCostMinorUnits = some (input.settledCost r)) := by
  obtain ⟨actual, hactual, r, l, hmem, hid, htenant, hl, haction⟩ := commit_runs h
  -- without an actual cost the reserved one is settled
  have hcost : actual.getD r.units.costMinorUnits = input.settledCost r := by
    unfold CommitInput.settledCost
    cases hinput : input.actualCostMinorUnits with
    | none =>
      rw [hinput] at hactual
      cases hactual
      rfl
    | some value =>
      rw [hinput, Option.mapM_some] at hactual
      obtain ⟨v, hv, hactual⟩ := ok_of_bind_ok hactual
      cases hactual
      rw [(assertNonnegativeInt_ok hv).1]
      rfl
  refine ⟨r, l, hmem, hid, htenant, ?_⟩
  rw [← hcost]
  exact commitAction_ok hmem hl haction

/-- A `release` that returns ran its action on the reservation it names. -/
theorem release_runs {db db' : Db} {env : Env} {tenantId reservationId : Uuid}
    {resolution : Option ReleaseResolution} {rc : AgentBudgetReservationReceipt}
    (h : release db env tenantId reservationId resolution = .ok (db', rc)) :
    ∃ r l, r ∈ db.reservations.rows ∧ r.id = reservationId ∧ r.tenantId = tenantId
      ∧ db.findLedger r.ledgerId r.tenantId = some l
      ∧ releaseAction db env resolution r l = .ok (db', rc) := by
  refine resolveReservation_ok ?_
  unfold release at h
  cases resolution with
  | none => exact h
  | some _ =>
    obtain ⟨_, -, h⟩ := ok_of_bind_ok h
    exact h

/-- **`release`.** A call that returns changed nothing, or settled the reservation it names as
`RELEASED`. -/
theorem release_ok {db db' : Db} {env : Env} {tenantId reservationId : Uuid}
    {resolution : Option ReleaseResolution} {rc : AgentBudgetReservationReceipt}
    (h : release db env tenantId reservationId resolution = .ok (db', rc)) :
    ∃ r l, r ∈ db.reservations.rows ∧ r.id = reservationId ∧ r.tenantId = tenantId
      ∧ ((db' = db ∧ r.status = .RELEASED)
        ∨ ∃ r' l', Settled db db' r r' l l' ∧ r'.status = .RELEASED) := by
  obtain ⟨r, l, hmem, hid, htenant, hl, haction⟩ := release_runs h
  exact ⟨r, l, hmem, hid, htenant, releaseAction_ok hmem hl haction⟩

/-- **`markUnknown`.** A call that returns changed nothing, or moved the reservation it names
to `UNKNOWN`. -/
theorem markUnknown_ok {db db' : Db} {env : Env} {tenantId reservationId : Uuid}
    {rc : AgentBudgetReservationReceipt}
    (h : markUnknown db env tenantId reservationId = .ok (db', rc)) :
    ∃ r l, r ∈ db.reservations.rows ∧ r.id = reservationId ∧ r.tenantId = tenantId
      ∧ ((db' = db ∧ r.status = .UNKNOWN)
        ∨ ∃ r', Settled db db' r r' l l ∧ r'.status = .UNKNOWN
          ∧ db'.ledgers = db.ledgers ∧ db'.usage = db.usage) := by
  obtain ⟨r, l, hmem, hid, htenant, hl, haction⟩ := resolveReservation_ok h
  exact ⟨r, l, hmem, hid, htenant, markUnknownAction_ok hmem hl haction⟩

/-- **`createOrLoad`.** The rows are as before, or one ledger with zero counters is new. -/
theorem createOrLoad_effect (db : Db) (env : Env) (newId : Uuid)
    (input : AgentBudgetLedgerInput) : Effect db (createOrLoad db env newId input).1 := by
  unfold createOrLoad
  split
  · exact .unchanged rfl
  next limits hlimits =>
  split
  · exact .unchanged rfl
  next db' ledger hinsert =>
  -- the comparison after the insert decides only what is returned
  unfold insertLedger at hinsert
  split at hinsert
  · cases hinsert
  next hcheck =>
  split at hinsert
  · cases hinsert; exact .unchanged rfl
  · split at hinsert
    · next ledgers hledgers =>
      cases hinsert
      exact .ledgerCreated _ ledgers hledgers (by simpa using hcheck)
        (by rintro (_ | _ | _ | _) <;> exact ⟨rfl, rfl⟩) rfl
    · cases hinsert

theorem createOrLoad_reservations (db : Db) (env : Env) (newId : Uuid)
    (input : AgentBudgetLedgerInput) :
    (createOrLoad db env newId input).1.reservations = db.reservations := by
  unfold createOrLoad
  split
  · rfl
  split
  · rfl
  next db' ledger hinsert =>
  unfold insertLedger at hinsert
  split at hinsert
  · cases hinsert
  split at hinsert
  · cases hinsert; rfl
  · split at hinsert
    · cases hinsert; rfl
    · cases hinsert

/-! ## The system's step -/

/-- A settling call that fails leaves the rows; one that returns installs its own. -/
theorem settle_db (s : System)
    (result : Except BudgetFailure (Db × AgentBudgetReservationReceipt)) :
    (s.settle result).1.db = s.db ∨ ∃ rc, result = .ok ((s.settle result).1.db, rc) := by
  cases result with
  | error e => exact Or.inl rfl
  | ok p => exact Or.inr ⟨p.2, rfl⟩

/-- A `reserveClaim` step commits a claim for the call's own request, or leaves the rows. -/
theorem reserveClaim_step (s : System) (call : Nat) (env : Env) (newId : Uuid) :
    (s.reserveClaim call env newId).1.db = s.db
      ∨ ∃ input units r l l', s.calls call = .claiming input units
        ∧ Claimed s.db (s.reserveClaim call env newId).1.db r l l' ∧ r.id = newId
        ∧ r.tenantId = input.tenantId ∧ r.ledgerId = input.ledgerId
        ∧ r.idempotencyKey = input.idempotencyKey ∧ r.units = units
        ∧ (s.reserveClaim call env newId).2 = .receipt (.ok (receipt r l' false env)) := by
  unfold System.reserveClaim
  split
  · next input units hcall =>
    split
    · next db rc hclaim =>
      obtain ⟨r, l, l', hclaimed, hid, htenant, hledger, hkey, hunits, rfl⟩ :=
        reserveClaim_claimed hclaim
      exact Or.inr ⟨input, units, r, l, l', hcall, hclaimed, hid, htenant, hledger, hkey, hunits,
        rfl⟩
    · -- a unique violation sends the call to the recovery, any other failure ends it
      exact Or.inl rfl
    · exact Or.inl rfl
  · exact Or.inl rfl

theorem reserveRead_db (s : System) (call : Nat) (env : Env) (input : ReserveInput) :
    (s.reserveRead call env input).1.db = s.db := by
  unfold System.reserveRead
  split
  · split
    · rfl
    · split <;> rfl
  · rfl

theorem reserveRecover_db (s : System) (call : Nat) (env : Env) :
    (s.reserveRecover call env).1.db = s.db := by
  unfold System.reserveRecover
  split <;> rfl

/-- **Every step has an effect.** -/
theorem step_effect (s : System) (a : Label) : Effect s.db (step s a).db := by
  cases a with
  | createOrLoad env newId input => exact createOrLoad_effect s.db env newId input
  | reserveRead call env input => exact .unchanged (reserveRead_db s call env input)
  | reserveClaim call env newId =>
    rcases reserveClaim_step s call env newId with h | ⟨_, _, r, l, l', _, hclaimed, _⟩
    · exact .unchanged h
    · exact .claimed r l l' hclaimed
  | reserveRecover call env => exact .unchanged (reserveRecover_db s call env)
  | commit env input =>
    rcases settle_db s (Budget.commit s.db env input) with h | ⟨rc, h⟩
    · exact .unchanged h
    · obtain ⟨r, l, -, -, -, ⟨h, -⟩ | ⟨r', l', hsettled, -, -⟩⟩ := commit_ok h
      · exact .unchanged h
      · exact .settled r r' l l' hsettled
  | release env tenantId reservationId resolution =>
    rcases settle_db s (Budget.release s.db env tenantId reservationId resolution)
      with h | ⟨rc, h⟩
    · exact .unchanged h
    · obtain ⟨r, l, -, -, -, ⟨h, -⟩ | ⟨r', l', hsettled, -⟩⟩ := release_ok h
      · exact .unchanged h
      · exact .settled r r' l l' hsettled
  | markUnknown env tenantId reservationId =>
    rcases settle_db s (Budget.markUnknown s.db env tenantId reservationId)
      with h | ⟨rc, h⟩
    · exact .unchanged h
    · obtain ⟨r, l, -, -, -, ⟨h, -⟩ | ⟨r', hsettled, -, -, -⟩⟩ := markUnknown_ok h
      · exact .unchanged h
      · exact .settled r r' l l hsettled
  | setTenantBudget tenant =>
    simp only [step, System.react, System.setTenantBudget]
    split
    · exact .tenants _ rfl
    · exact .unchanged rfl

end MortgageAgent.Budget
