import MortgageAgent.Budget.Int4

/-!
# When a claim raises no raw error

A claim of `reserve` forms sums in three statements: the conditional update of the ledger, that
of the tenant's aggregate, and the CHECK constraint of the reservation row.

* **`Db.Stored`** — the rows that the column types and the constraints of the tables allow.
* **`ClaimFits`** — the sums of a claim are in range, and the row it writes names a usage row.
* **`only_reserveClaim_iff`** — from stored rows, a claim ends in no raw error exactly then.
-/

namespace MortgageAgent.Budget

/-! ## Rows the tables can hold -/

/-- The column types, the CHECK constraints and the foreign key to the ledger. -/
structure Db.Stored (db : Db) : Prop where
  ledger : ∀ l ∈ db.ledgers.rows, l.check = true ∧ l.version ≤ int4Max
    ∧ ∀ d, l.limit d ≤ int4Max ∧ l.used d ≤ int4Max ∧ l.reserved d ≤ int4Max
  usage : ∀ u ∈ db.usage.rows, u.check = true ∧ ∀ d, u.used d ≤ int4Max ∧ u.reserved d ≤ int4Max
  units : ∀ r ∈ db.reservations.rows, ∀ d, 0 ≤ r.units.get d ∧ r.units.get d ≤ int4Max
  owner : ∀ r ∈ db.reservations.rows, (db.findLedger r.ledgerId r.tenantId).isSome

theorem AgentBudgetLedger.check_iff (l : AgentBudgetLedger) :
    l.check = true ↔ (∀ d, 0 ≤ l.limit d ∧ 0 ≤ l.used d ∧ 0 ≤ l.reserved d)
      ∧ 0 < l.version ∧ l.startedAt < l.deadlineAt := by
  simp only [AgentBudgetLedger.check, Bool.and_eq_true, decide_eq_true_eq, and_assoc]
  constructor
  · rintro ⟨h1, h2, h3, h4, h5, h6, h7, h8, h9, h10, h11, h12, h13, h14⟩
    refine ⟨fun d => ?_, h13, h14⟩
    cases d with
    | step => exact ⟨h1, h2, h3⟩
    | token => exact ⟨h4, h5, h6⟩
    | providerCall => exact ⟨h7, h8, h9⟩
    | cost => exact ⟨h10, h11, h12⟩
  · rintro ⟨h, hversion, hdeadline⟩
    obtain ⟨h1, h2, h3⟩ := h .step
    obtain ⟨h4, h5, h6⟩ := h .token
    obtain ⟨h7, h8, h9⟩ := h .providerCall
    obtain ⟨h10, h11, h12⟩ := h .cost
    exact ⟨h1, h2, h3, h4, h5, h6, h7, h8, h9, h10, h11, h12, hversion, hdeadline⟩

theorem TenantAgentBudgetUsage.check_iff (u : TenantAgentBudgetUsage) :
    u.check = true ↔ ∀ d, 0 ≤ u.used d ∧ 0 ≤ u.reserved d := by
  simp only [TenantAgentBudgetUsage.check, Bool.and_eq_true, decide_eq_true_eq, and_assoc]
  constructor
  · rintro ⟨h1, h2, h3, h4⟩ d
    cases d with
    | providerCall => exact ⟨h1, h2⟩
    | cost => exact ⟨h3, h4⟩
  · intro h
    obtain ⟨h1, h2⟩ := h .providerCall
    obtain ⟨h3, h4⟩ := h .cost
    exact ⟨h1, h2, h3, h4⟩

/-- What validation lets through: units in range, at least one of them. -/
structure AgentBudgetUnits.Valid (u : AgentBudgetUnits Int) : Prop where
  range : ∀ d, 0 ≤ u.get d ∧ u.get d ≤ int4Max
  positive : ∃ d, 0 < u.get d

/-- The sum that the CHECK constraint of a reservation forms. -/
def AgentBudgetUnits.total (u : AgentBudgetUnits Int) : Int :=
  u.stepUnits + u.tokenUnits + u.providerCallUnits + u.costMinorUnits

theorem AgentBudgetUnits.Valid.total_pos {u : AgentBudgetUnits Int} (hu : u.Valid) :
    0 < u.total := by
  obtain ⟨d, hd⟩ := hu.positive
  have h1 := (hu.range .step).1
  have h2 := (hu.range .token).1
  have h3 := (hu.range .providerCall).1
  have h4 := (hu.range .cost).1
  cases d <;> simp only [AgentBudgetUnits.get, AgentBudgetUnits.total] at * <;> omega

theorem assertNonnegativeInt_range {value : JsNumber} {name : String} {v : Int}
    (h : assertNonnegativeInt value name = .ok v) : 0 ≤ v ∧ v ≤ int4Max := by
  unfold assertNonnegativeInt at h
  split at h
  · split at h
    · next hrange =>
      cases h
      simpa [int4Max] using hrange
    · cases h
  · cases h

theorem validateReserve_valid {input : ReserveInput} {units : AgentBudgetUnits Int}
    (h : validateReserve input = .ok units) : units.Valid := by
  obtain ⟨u, hu, h⟩ := ok_of_bind_ok h
  obtain rfl : u = units := by
    split at h
    · cases h
    · cases h
      rfl
  obtain ⟨steps, hsteps, hu⟩ := ok_of_bind_ok hu
  obtain ⟨tokens, htokens, hu⟩ := ok_of_bind_ok hu
  obtain ⟨calls, hcalls, hu⟩ := ok_of_bind_ok hu
  obtain ⟨cost, hcost, hu⟩ := ok_of_bind_ok hu
  have h1 := assertNonnegativeInt_range hsteps
  have h2 := assertNonnegativeInt_range htokens
  have h3 := assertNonnegativeInt_range hcalls
  have h4 := assertNonnegativeInt_range hcost
  split at hu
  · cases hu
  next hzero =>
  cases hu
  refine ⟨by rintro (_ | _ | _ | _) <;> assumption, ?_⟩
  by_contra hnone
  -- with no positive unit all four are zero, which validation refuses
  have hle : ∀ d, AgentBudgetUnits.get ⟨steps, tokens, calls, cost⟩ d ≤ 0 :=
    fun d => Int.not_lt.mp fun hd => hnone ⟨d, hd⟩
  have hs := hle .step
  have ht := hle .token
  have hp := hle .providerCall
  have hc := hle .cost
  simp only [AgentBudgetUnits.get] at hs ht hp hc
  refine hzero ?_
  simp only [Bool.and_eq_true, decide_eq_true_eq]
  omega

/-! ## The reservation row -/

/-- No row has the new row's id or its key. -/
def KeyFree (db : Db) (r : AgentBudgetReservation) : Prop :=
  ∀ x ∈ db.reservations.rows,
    x.id ≠ r.id ∧ ¬(x.ledgerId = r.ledgerId ∧ x.idempotencyKey = r.idempotencyKey)

section insertReservation

variable {db : Db} {r : AgentBudgetReservation}

theorem insertReservation_of_gt (hu : r.units.Valid) (h : int4Max < r.units.total) :
    insertReservation db r = .error .numericValueOutOfRange := by
  have h1 := (hu.range .step).1
  have h2 := (hu.range .token).1
  have h3 := (hu.range .providerCall).1
  have h4 := (hu.range .cost).1
  simp only [AgentBudgetUnits.get] at h1 h2 h3 h4
  unfold AgentBudgetUnits.total at h
  -- the first of the three additions to leave the range raises the error
  by_cases hfirst : r.units.stepUnits + r.units.tokenUnits ≤ int4Max
  · by_cases hsecond : r.units.stepUnits + r.units.tokenUnits + r.units.providerCallUnits ≤ int4Max
    · have hthird : int4Add (r.units.stepUnits + r.units.tokenUnits + r.units.providerCallUnits)
          r.units.costMinorUnits = .error .numericValueOutOfRange := int4_of_gt h
      simp only [insertReservation, int4Add_of_le h1 h2 hfirst, ok_bind,
        int4Add_of_le (add_nonneg h1 h2) h3 hsecond, hthird, error_bind]
    · have hthird : int4Add (r.units.stepUnits + r.units.tokenUnits) r.units.providerCallUnits
          = .error .numericValueOutOfRange := int4_of_gt (not_le.mp hsecond)
      simp only [insertReservation, int4Add_of_le h1 h2 hfirst, ok_bind, hthird, error_bind]
  · have hthird : int4Add r.units.stepUnits r.units.tokenUnits = .error .numericValueOutOfRange :=
      int4_of_gt (not_le.mp hfirst)
    simp only [insertReservation, hthird, error_bind]

/-- A row whose sum is in range is inserted, or loses the key or the id to another row, unless
its window names no usage row. -/
theorem insertReservation_of_le (hu : r.units.Valid) (h : r.units.total ≤ int4Max)
    (hl : (db.findLedger r.ledgerId r.tenantId).isSome) :
    (∀ e, insertReservation db r = .error e → e = .uniqueViolation)
      ↔ (KeyFree db r → ∀ w, r.aggregateWindowStart = some w →
          (db.usage.find (r.tenantId, w)).isSome) := by
  have h1 := (hu.range .step).1
  have h2 := (hu.range .token).1
  have h3 := (hu.range .providerCall).1
  have h4 := (hu.range .cost).1
  have hpos := hu.total_pos
  simp only [AgentBudgetUnits.get] at h1 h2 h3 h4
  unfold AgentBudgetUnits.total at h hpos
  have hcheck : (!(0 ≤ r.units.stepUnits && 0 ≤ r.units.tokenUnits && 0 ≤ r.units.providerCallUnits
      && 0 ≤ r.units.costMinorUnits
      && 0 < r.units.stepUnits + r.units.tokenUnits + r.units.providerCallUnits
        + r.units.costMinorUnits)) = false := by
    simp [h1, h2, h3, h4, hpos]
  simp only [insertReservation, int4Add_of_le h1 h2 (by omega), ok_bind,
    int4Add_of_le (add_nonneg h1 h2) h3 (by omega),
    int4Add_of_le (add_nonneg (add_nonneg h1 h2) h3) h4 h, hcheck, Bool.false_eq_true, if_false]
  split
  · next htaken =>
    -- the key is taken
    simp only [List.any_eq_true, Bool.and_eq_true, decide_eq_true_eq] at htaken
    obtain ⟨x, hx, hkey⟩ := htaken
    refine ⟨fun _ hfree => absurd hkey (hfree x hx).2, fun _ e he => ?_⟩
    cases he
    rfl
  next hkeyFree =>
  split
  · next hinsert =>
    -- the id is taken
    refine ⟨fun _ hfree => ?_, fun _ e he => ?_⟩
    · rw [Table.insert_eq_none_iff] at hinsert
      obtain ⟨x, hx, hid⟩ := hinsert
      exact absurd hid (hfree x hx).1
    · cases he
      rfl
  next reservations hinsert =>
  have hfree : KeyFree db r := by
    intro x hx
    refine ⟨Table.key_fresh_of_insert hinsert x hx, fun hkey => hkeyFree ?_⟩
    simp only [List.any_eq_true, Bool.and_eq_true, decide_eq_true_eq]
    exact ⟨x, hx, hkey⟩
  obtain ⟨l, hl⟩ := Option.isSome_iff_exists.mp hl
  simp only [hl, Option.isNone_some, Bool.false_eq_true, if_false]
  split
  · next hwindow =>
    -- the window names no row
    obtain ⟨w, hw, hnone⟩ := Option.any_eq_true _ _ |>.mp hwindow
    refine ⟨fun h => absurd (h _ rfl) (by decide), fun h => ?_⟩
    have hsome := h hfree w hw
    rw [Option.isNone_iff_eq_none.mp hnone] at hsome
    cases hsome
  · next hwindow =>
    refine ⟨fun _ _ w hw => ?_, fun _ e he => by cases he⟩
    by_contra hnone
    refine hwindow ?_
    rw [hw, Option.any_some]
    simpa using hnone

end insertReservation

/-! ## The ledger's update -/

def AgentBudgetLedger.capacity (l : AgentBudgetLedger) (u : AgentBudgetUnits Int) (d : Dimension) :
    Capacity where
  used := l.used d
  reserved := l.reserved d
  units := u.get d
  limit := l.limit d

/-- The capacity tests of a claim, in the order of its `WHERE` clause. -/
def AgentBudgetLedger.capacities (l : AgentBudgetLedger) (u : AgentBudgetUnits Int) :
    List Capacity :=
  [.step, .token, .providerCall, .cost].map (l.capacity u)

/-- The row the update looks for: at the expected version, open, and in time. -/
def AgentBudgetLedger.Takes (l : AgentBudgetLedger) (expectedVersion : Int)
    (now : Instant) : Prop :=
  l.version = expectedVersion ∧ l.closedAt = none ∧ now < l.deadlineAt

section ledger

variable {db : Db} {l : AgentBudgetLedger} {u : AgentBudgetUnits Int} {version : Int}
  {now : Instant}

theorem AgentBudgetLedger.capacities_nonneg (hl : l.check = true) (hu : u.Valid) :
    ∀ c ∈ l.capacities u, c.Nonneg := by
  intro c hc
  obtain ⟨d, -, rfl⟩ := List.mem_map.mp hc
  obtain ⟨-, hused, hreserved⟩ := (l.check_iff.mp hl).1 d
  exact ⟨hused, hreserved, (hu.range d).1⟩

theorem AgentBudgetLedger.capacity_mem (l : AgentBudgetLedger) (u : AgentBudgetUnits Int)
    (d : Dimension) : l.capacity u d ∈ l.capacities u :=
  List.mem_map_of_mem (by cases d <;> simp)

theorem reserveGuard_of_takes (h : l.Takes version now) :
    reserveGuard l u version now = capacityGuard (l.capacities u) := by
  obtain ⟨hversion, hopen, hnow⟩ := h
  have hguard : (l.version = version && l.closedAt.isNone && now < l.deadlineAt) = true := by
    simp [hversion, hopen, hnow]
  simp only [reserveGuard, hguard, if_true, AgentBudgetLedger.capacities, List.map_cons,
    List.map_nil, capacityGuard, andM_true, AgentBudgetLedger.capacity, AgentBudgetLedger.used,
    AgentBudgetLedger.reserved, AgentBudgetLedger.limit, AgentBudgetUnits.get]

theorem reserveGuard_of_not_takes (h : ¬l.Takes version now) :
    reserveGuard l u version now = .ok false := by
  have hguard : (l.version = version && l.closedAt.isNone && now < l.deadlineAt) = false := by
    rw [← Bool.not_eq_true]
    intro htrue
    simp only [Bool.and_eq_true, decide_eq_true_eq, Option.isNone_iff_eq_none, and_assoc] at htrue
    exact h htrue
  simp only [reserveGuard, hguard, Bool.false_eq_true, if_false]
  rfl

/-- A column of which the whole sum is in range takes the units. -/
theorem reserved_add_units (hl : l.check = true) (hu : u.Valid) {d : Dimension}
    (hsum : (l.capacity u d).total ≤ int4Max) :
    int4Add (l.reserved d) (u.get d) = .ok (l.reserved d + u.get d) := by
  obtain ⟨-, hused, hreserved⟩ := (l.check_iff.mp hl).1 d
  have htotal : l.used d + l.reserved d + u.get d ≤ int4Max := hsum
  exact int4Add_of_le hreserved (hu.range d).1 (by omega)

/-- With room everywhere the columns take the units, and only the version can overflow. -/
theorem setReserved_of_lt (hl : l.check = true) (hu : u.Valid)
    (hsum : ∀ d, (l.capacity u d).total ≤ int4Max) (hversion : l.version < int4Max) :
    ∃ l', setReserved l u = .ok l' ∧ l'.check = true ∧ l'.currency = l.currency := by
  obtain ⟨hcheck, hpos, hdeadline⟩ := l.check_iff.mp hl
  have hnext : int4Add l.version 1 = .ok (l.version + 1) :=
    int4Add_of_le hpos.le (by decide) (by omega)
  have hset : setReserved l u = .ok { l with
      stepReserved := l.stepReserved + u.stepUnits
      tokenReserved := l.tokenReserved + u.tokenUnits
      providerCallReserved := l.providerCallReserved + u.providerCallUnits
      costReservedMinorUnits := l.costReservedMinorUnits + u.costMinorUnits
      version := l.version + 1 } := by
    have h1 := reserved_add_units hl hu (hsum .step)
    have h2 := reserved_add_units hl hu (hsum .token)
    have h3 := reserved_add_units hl hu (hsum .providerCall)
    have h4 := reserved_add_units hl hu (hsum .cost)
    simp only [AgentBudgetLedger.reserved, AgentBudgetUnits.get] at h1 h2 h3 h4
    simp only [setReserved, h1, h2, h3, h4, hnext, ok_bind]
    rfl
  refine ⟨_, hset, (AgentBudgetLedger.check_iff _).mpr
    ⟨fun d => ?_, Int.lt_add_one_of_le hpos.le, hdeadline⟩, rfl⟩
  obtain ⟨hlimit, hused, hreserved⟩ := hcheck d
  have hunits := (hu.range d).1
  cases d <;>
    exact ⟨hlimit, hused, add_nonneg hreserved hunits⟩

theorem setReserved_of_ge (hl : l.check = true) (hu : u.Valid)
    (hsum : ∀ d, (l.capacity u d).total ≤ int4Max) (hversion : int4Max ≤ l.version) :
    setReserved l u = .error .numericValueOutOfRange := by
  have hnext : int4Add l.version 1 = .error .numericValueOutOfRange :=
    int4_of_gt (by omega)
  have h1 := reserved_add_units hl hu (hsum .step)
  have h2 := reserved_add_units hl hu (hsum .token)
  have h3 := reserved_add_units hl hu (hsum .providerCall)
  have h4 := reserved_add_units hl hu (hsum .cost)
  simp only [AgentBudgetLedger.reserved, AgentBudgetUnits.get] at h1 h2 h3 h4
  simp only [setReserved, h1, h2, h3, h4, hnext, ok_bind, error_bind]

end ledger

/-! ## The aggregate's update -/

/-- Work that no aggregate is charged for. -/
def AgentBudgetUnits.Free (u : AgentBudgetUnits Int) : Prop :=
  u.providerCallUnits = 0 ∧ u.costMinorUnits = 0

/-- The usage rows once the month's row has been inserted if it was absent. -/
def monthUsage (db : Db) (env : Env) (tenantId : Uuid) (currency : String) : UsageTable :=
  (insertUsageIfAbsent db tenantId (monthStart env.dbNow) currency).usage

/-- The tenant's usage row of the month and its configured limits, all in one currency. -/
structure MonthBudget (db : Db) (env : Env) (tenantId : Uuid) (currency : String)
    (u : TenantAgentBudgetUsage) (callLimit costLimit : Int) : Prop where
  row : (monthUsage db env tenantId currency).find (tenantId, monthStart env.dbNow) = some u
  same : btrim u.currency = currency
  tenant : ∃ id cur, db.tenants.find tenantId = some ⟨id, some callLimit, some costLimit, some cur⟩
    ∧ btrim cur = currency

def TenantAgentBudgetUsage.capacities (u : TenantAgentBudgetUsage) (callLimit costLimit : Int)
    (units : AgentBudgetUnits Int) : List Capacity :=
  [⟨u.providerCallUsed, u.providerCallReserved, units.providerCallUnits, callLimit⟩,
   ⟨u.costUsedMinorUnits, u.costReservedMinorUnits, units.costMinorUnits, costLimit⟩]

theorem insertUsageIfAbsent_ledgers (db : Db)
    (ledgers : Table AgentBudgetLedger AgentBudgetLedger.id) (tenantId : Uuid) (window : Day)
    (currency : String) :
    insertUsageIfAbsent { db with ledgers } tenantId window currency
      = { insertUsageIfAbsent db tenantId window currency with ledgers } := by
  unfold insertUsageIfAbsent
  dsimp only
  split
  · split
    · split <;> rfl
    · rfl
  · rfl

section aggregate

variable {db : Db} {env : Env} {tenantId : Uuid} {currency : String}
  {units : AgentBudgetUnits Int}

/-- A row that was inserted just now, or one that was there, holds non-negative counters. -/
theorem monthUsage_check (hs : db.Stored) {u : TenantAgentBudgetUsage}
    (hu : u ∈ (monthUsage db env tenantId currency).rows) : u.check = true := by
  obtain ⟨usage, heq, hcases⟩ :=
    insertUsageIfAbsent_cases db tenantId (monthStart env.dbNow) currency
  rw [monthUsage, heq] at hu
  obtain rfl | ⟨fresh, hzero, hinsert⟩ := hcases
  · exact (hs.usage u hu).1
  · rw [Table.rows_of_insert hinsert, List.mem_append, List.mem_singleton] at hu
    obtain hu | rfl := hu
    · exact (hs.usage u hu).1
    · exact u.check_iff.mpr fun d => ⟨(hzero d).1.ge, (hzero d).2.ge⟩

theorem MonthBudget.nonneg (hs : db.Stored) (hu : units.Valid) {u : TenantAgentBudgetUsage}
    {callLimit costLimit : Int} (h : MonthBudget db env tenantId currency u callLimit costLimit) :
    ∀ c ∈ u.capacities callLimit costLimit units, c.Nonneg := by
  have hcheck := u.check_iff.mp
    (monthUsage_check hs ((Table.find_eq_some_iff _).mp h.row).1)
  refine List.forall_mem_cons.mpr ⟨?_, List.forall_mem_cons.mpr ⟨?_, fun c hc => by cases hc⟩⟩
  · exact ⟨(hcheck .providerCall).1, (hcheck .providerCall).2, (hu.range .providerCall).1⟩
  · exact ⟨(hcheck .cost).1, (hcheck .cost).2, (hu.range .cost).1⟩

theorem MonthBudget.unique {u u' : TenantAgentBudgetUsage} {calls cost calls' cost' : Int}
    (h : MonthBudget db env tenantId currency u calls cost)
    (h' : MonthBudget db env tenantId currency u' calls' cost') :
    u' = u ∧ calls' = calls ∧ cost' = cost := by
  obtain ⟨_, _, ht, -⟩ := h.tenant
  obtain ⟨_, _, ht', -⟩ := h'.tenant
  have hrow := h'.row
  rw [h.row] at hrow
  rw [ht] at ht'
  cases hrow
  cases ht'
  exact ⟨rfl, rfl, rfl⟩

theorem aggregateGuard_of_budget {u : TenantAgentBudgetUsage} {id : Uuid}
    {callLimit costLimit : Int} {cur : String} (hu : btrim u.currency = currency)
    (hcur : btrim cur = currency) :
    aggregateGuard u ⟨id, some callLimit, some costLimit, some cur⟩ currency units
      = capacityGuard (u.capacities callLimit costLimit units) := by
  have hguard : (btrim u.currency = currency && btrim cur = currency) = true := by
    simp [hu, hcur]
  simp only [aggregateGuard, hguard, if_true, TenantAgentBudgetUsage.capacities, capacityGuard,
    andM_true]

/-- With room in both capacities the row takes the units. -/
theorem setUsageReserved_of_le {u : TenantAgentBudgetUsage} {callLimit costLimit : Int}
    (hu : u.check = true) (hv : units.Valid)
    (hsum : ∀ c ∈ u.capacities callLimit costLimit units, c.total ≤ int4Max) :
    ∃ u', setUsageReserved u units = .ok u' ∧ u'.check = true ∧ u'.key = u.key := by
  have hcheck := u.check_iff.mp hu
  obtain ⟨hcalls, hcost⟩ := List.forall_mem_cons.mp hsum
  have hcost := (List.forall_mem_cons.mp hcost).1
  obtain ⟨hcallsUsed, hcallsReserved⟩ := hcheck .providerCall
  obtain ⟨hcostUsed, hcostReserved⟩ := hcheck .cost
  simp only [Capacity.total, TenantAgentBudgetUsage.used, TenantAgentBudgetUsage.reserved] at *
  have h1 : int4Add u.providerCallReserved units.providerCallUnits
      = .ok (u.providerCallReserved + units.providerCallUnits) :=
    int4Add_of_le hcallsReserved (hv.range .providerCall).1 (by omega)
  have h2 : int4Add u.costReservedMinorUnits units.costMinorUnits
      = .ok (u.costReservedMinorUnits + units.costMinorUnits) :=
    int4Add_of_le hcostReserved (hv.range .cost).1 (by omega)
  have hset : setUsageReserved u units = .ok { u with
      providerCallReserved := u.providerCallReserved + units.providerCallUnits
      costReservedMinorUnits := u.costReservedMinorUnits + units.costMinorUnits } := by
    simp only [setUsageReserved, h1, h2, ok_bind]
    rfl
  refine ⟨_, hset, (TenantAgentBudgetUsage.check_iff _).mpr fun d => ?_, rfl⟩
  cases d with
  | providerCall => exact ⟨hcallsUsed, add_nonneg hcallsReserved (hv.range .providerCall).1⟩
  | cost => exact ⟨hcostUsed, add_nonneg hcostReserved (hv.range .cost).1⟩

variable (ledgers : Table AgentBudgetLedger AgentBudgetLedger.id)

theorem reserveTenantAggregate_of_free (h : units.Free) :
    reserveTenantAggregate { db with ledgers } env tenantId currency units
      = .ok ({ db with ledgers }, none) := by
  have hfree : (units.providerCallUnits = 0 && units.costMinorUnits = 0) = true := by
    simp [h.1, h.2]
  simp only [reserveTenantAggregate, hfree, if_true]

/-- Without a row and limits in the currency, the update matches nothing. -/
theorem reserveTenantAggregate_of_none (hfree : ¬units.Free)
    (h : ∀ u callLimit costLimit, ¬MonthBudget db env tenantId currency u callLimit costLimit) :
    reserveTenantAggregate { db with ledgers } env tenantId currency units
      = .error aggregateExhausted := by
  have hcharged : ¬(units.providerCallUnits = 0 && units.costMinorUnits = 0) = true := by
    simpa [AgentBudgetUnits.Free] using hfree
  rw [reserveTenantAggregate, if_neg hcharged]
  simp only [insertUsageIfAbsent_ledgers]
  split
  · next u t hu ht =>
    have hfalse : aggregateGuard u t currency units = .ok false := by
      unfold aggregateGuard
      split
      · next id callLimit costLimit cur =>
        split
        · next hcur =>
          simp only [Bool.and_eq_true, decide_eq_true_eq] at hcur
          have htenants : db.tenants.find tenantId
              = some ⟨id, some callLimit, some costLimit, some cur⟩ := by
            obtain ⟨usage, heq, -⟩ :=
              insertUsageIfAbsent_cases db tenantId (monthStart env.dbNow) currency
            rw [heq] at ht
            exact ht
          exact absurd ⟨hu, hcur.1, _, _, htenants, hcur.2⟩ (h u callLimit costLimit)
        · rfl
      · rfl
    rw [hfalse]
    rfl
  · rfl

/-- With a row and limits, the capacity tests decide. -/
theorem reserveTenantAggregate_of_budget (hs : db.Stored) (hv : units.Valid)
    (hfree : ¬units.Free) {u : TenantAgentBudgetUsage} {callLimit costLimit : Int}
    (h : MonthBudget db env tenantId currency u callLimit costLimit) :
    (¬SumsFit (u.capacities callLimit costLimit units) →
      reserveTenantAggregate { db with ledgers } env tenantId currency units
        = .error (.database .numericValueOutOfRange))
    ∧ (SumsFit (u.capacities callLimit costLimit units) →
      (∀ c ∈ u.capacities callLimit costLimit units, c.Room) →
        ∃ u', u'.key = u.key
          ∧ reserveTenantAggregate { db with ledgers } env tenantId currency units
            = .ok ({ db with
                ledgers, usage := (monthUsage db env tenantId currency).put u' },
              some (windowStartText env (monthStart env.dbNow))))
    ∧ (SumsFit (u.capacities callLimit costLimit units) →
      ¬(∀ c ∈ u.capacities callLimit costLimit units, c.Room) →
        reserveTenantAggregate { db with ledgers } env tenantId currency units
          = .error aggregateExhausted) := by
  have hcharged : ¬(units.providerCallUnits = 0 && units.costMinorUnits = 0) = true := by
    simpa [AgentBudgetUnits.Free] using hfree
  obtain ⟨id, cur, ht, hcur⟩ := h.tenant
  have hguard : aggregateGuard u ⟨id, some callLimit, some costLimit, some cur⟩ currency units
      = capacityGuard (u.capacities callLimit costLimit units) :=
    aggregateGuard_of_budget h.same hcur
  have hnonneg := h.nonneg hs hv
  obtain ⟨usage, heq, -⟩ := insertUsageIfAbsent_cases db tenantId (monthStart env.dbNow) currency
  have hrow : usage.find (tenantId, monthStart env.dbNow) = some u := by
    have hrow := h.row
    rwa [monthUsage, heq] at hrow
  have husage : monthUsage db env tenantId currency = usage := by rw [monthUsage, heq]
  rw [reserveTenantAggregate, if_neg hcharged]
  simp only [insertUsageIfAbsent_ledgers, heq, hrow, ht, hguard]
  refine ⟨fun hsums => ?_, fun hsums hroom => ?_, fun hsums hroom => ?_⟩
  · rw [capacityGuard_of_not_sumsFit hnonneg hsums]
    rfl
  · obtain ⟨u', hset, hcheck, hkey⟩ := setUsageReserved_of_le
      (monthUsage_check hs ((Table.find_eq_some_iff _).mp h.row).1) hv
      (total_le_of_sumsFit hsums hroom)
    refine ⟨u', hkey, ?_⟩
    rw [capacityGuard_of_sumsFit hnonneg hsums, decide_eq_true hroom, hset, husage]
    simp only [sql, Except.mapError, ok_bind, if_true, Db.writeUsage, hcheck]
    rfl
  · rw [capacityGuard_of_sumsFit hnonneg hsums, decide_eq_false hroom]
    rfl

end aggregate

/-! ## Claims -/

/-- The row a claim inserts. -/
def newReservation (newId : Uuid) (input : ReserveInput) (units : AgentBudgetUnits Int)
    (aggregateWindowStart : Option Day) : AgentBudgetReservation where
  id := newId
  tenantId := input.tenantId
  ledgerId := input.ledgerId
  idempotencyKey := input.idempotencyKey
  units := units
  aggregateWindowStart := aggregateWindowStart

/-- The sums of the aggregate's update are in range, and so is the row's own; the window written
on a row whose key is free names a usage row. -/
structure AggregateFits (db : Db) (env : Env) (newId : Uuid) (input : ReserveInput)
    (currency : String) (units : AgentBudgetUnits Int) : Prop where
  free : units.Free → units.total ≤ int4Max
  charged : ¬units.Free → ∀ u callLimit costLimit,
    MonthBudget db env input.tenantId currency u callLimit costLimit →
      SumsFit (u.capacities callLimit costLimit units)
        ∧ ((∀ c ∈ u.capacities callLimit costLimit units, c.Room) → units.total ≤ int4Max
          ∧ (KeyFree db (newReservation newId input units none) →
            ((monthUsage db env input.tenantId currency).find
              (input.tenantId, windowStartText env (monthStart env.dbNow))).isSome))

/-- The ledger is there. If it takes the request, the sums of its update are in range; if it has
room as well, so are its next version and the sums of the aggregate and the row. -/
def ClaimFits (db : Db) (env : Env) (newId : Uuid) (input : ReserveInput)
    (units : AgentBudgetUnits Int) : Prop :=
  ∃ l, db.findLedger input.ledgerId input.tenantId = some l
    ∧ (l.Takes input.expectedVersion env.dbNow → SumsFit (l.capacities units)
      ∧ ((∀ c ∈ l.capacities units, c.Room) → l.version < int4Max
        ∧ AggregateFits db env newId input (jsTrim l.currency) units))

theorem throwReservationFailure_own {db : Db} {env : Env} {input : ReserveInput}
    {l : AgentBudgetLedger} (hl : db.findLedger input.ledgerId input.tenantId = some l) :
    (throwReservationFailure db env input).Own := by
  unfold throwReservationFailure
  rw [hl]
  dsimp only
  split
  · exact own_agentBudgetError _ _
  · split
    · exact own_agentBudgetError _ _
    · split <;> exact own_agentBudgetError _ _

section claim

variable {db : Db} {env : Env} {newId : Uuid} {input : ReserveInput}
  {units : AgentBudgetUnits Int} {currency : String}

theorem only_insert_iff {α : Type} (g : Db → α) (r : AgentBudgetReservation) :
    Only BudgetFailure.OwnOrUnique
        (do let db ← sql (insertReservation db r); return g db)
      ↔ ∀ e, insertReservation db r = .error e → e = .uniqueViolation := by
  cases hinsert : insertReservation db r with
  | ok db' =>
    refine iff_of_true (only_ok _) fun e he => ?_
    cases he
  | error e =>
    rw [show (sql (.error e) : Except BudgetFailure Db) = .error (.database e) from rfl, error_bind,
      only_error_iff, ownOrUnique_database_iff]
    refine ⟨fun h e' he => ?_, fun h => h e rfl⟩
    cases he
    exact h

/-- The row's own sum and keys, once its ledger is there. -/
theorem only_newReservation_iff {α : Type} (hv : units.Valid)
    (hl : (db.findLedger input.ledgerId input.tenantId).isSome) (window : Option Day)
    (g : Db → α) :
    Only BudgetFailure.OwnOrUnique
        (do let db ← sql (insertReservation db (newReservation newId input units window))
            return g db)
      ↔ units.total ≤ int4Max ∧ (KeyFree db (newReservation newId input units none) →
        ∀ w, window = some w → (db.usage.find (input.tenantId, w)).isSome) := by
  rw [only_insert_iff]
  by_cases hsum : units.total ≤ int4Max
  · rw [insertReservation_of_le (r := newReservation newId input units window) hv hsum hl,
      and_iff_right hsum]
    exact Iff.rfl
  · refine iff_of_false (fun h => ?_) fun h => hsum h.1
    have herror : insertReservation db (newReservation newId input units window)
        = .error .numericValueOutOfRange := insertReservation_of_gt hv (not_le.mp hsum)
    exact absurd (h _ herror) (by decide)

/-- The aggregate's part of a claim, with the reservation row. -/
theorem only_aggregate_iff {α : Type} (hs : db.Stored) (hv : units.Valid)
    (ledgers : Table AgentBudgetLedger AgentBudgetLedger.id)
    (hl : ({ db with ledgers }.findLedger input.ledgerId input.tenantId).isSome)
    (g : Option Day → Db → α) :
    Only BudgetFailure.OwnOrUnique
        (do let (db, window) ←
              reserveTenantAggregate { db with ledgers } env input.tenantId currency units
            let db ← sql (insertReservation db (newReservation newId input units window))
            return g window db)
      ↔ AggregateFits db env newId input currency units := by
  by_cases hfree : units.Free
  · rw [reserveTenantAggregate_of_free ledgers hfree]
    refine (only_newReservation_iff hv hl none (g none)).trans ⟨fun h => ?_, fun h => ?_⟩
    · exact ⟨fun _ => h.1, fun hcharged => absurd hfree hcharged⟩
    · exact ⟨h.free hfree, fun _ w hw => by cases hw⟩
  by_cases hbudget : ∃ u callLimit costLimit,
      MonthBudget db env input.tenantId currency u callLimit costLimit
  · obtain ⟨u, callLimit, costLimit, hbudget⟩ := hbudget
    obtain ⟨hraise, hclaim, hrefuse⟩ :=
      reserveTenantAggregate_of_budget ledgers hs hv hfree hbudget
    have hfits : AggregateFits db env newId input currency units ↔
        SumsFit (u.capacities callLimit costLimit units)
          ∧ ((∀ c ∈ u.capacities callLimit costLimit units, c.Room) → units.total ≤ int4Max
            ∧ (KeyFree db (newReservation newId input units none) →
              ((monthUsage db env input.tenantId currency).find
                (input.tenantId, windowStartText env (monthStart env.dbNow))).isSome)) := by
      refine ⟨fun h => h.charged hfree u callLimit costLimit hbudget, fun h => ⟨fun hf => ?_, ?_⟩⟩
      · exact absurd hf hfree
      · intro _ u' calls' cost' hbudget'
        obtain ⟨rfl, rfl, rfl⟩ := hbudget.unique hbudget'
        exact h
    rw [hfits]
    by_cases hsums : SumsFit (u.capacities callLimit costLimit units)
    · rw [and_iff_right hsums]
      by_cases hroom : ∀ c ∈ u.capacities callLimit costLimit units, c.Room
      · obtain ⟨u', hkey, hclaim⟩ := hclaim hsums hroom
        rw [hclaim]
        have hl' : (Db.findLedger { db with
            ledgers, usage := (monthUsage db env input.tenantId currency).put u' }
            input.ledgerId input.tenantId).isSome := hl
        refine (only_newReservation_iff hv hl' (some _) (g _)).trans ⟨fun h _ => ⟨h.1, fun hkeyFree => ?_⟩, fun h => ?_⟩
        · have hsome := h.2 hkeyFree _ rfl
          rwa [Table.isSome_find_put] at hsome
        · refine ⟨(h hroom).1, fun hkeyFree w hw => ?_⟩
          cases hw
          rw [Table.isSome_find_put]
          exact (h hroom).2 hkeyFree
      · rw [hrefuse hsums hroom]
        exact iff_of_true ((only_error_iff _).mpr (Or.inl (own_agentBudgetError _ _)))
          fun h => absurd h hroom
    · rw [hraise hsums]
      refine iff_of_false (fun h => ?_) fun h => hsums h.1
      have := (ownOrUnique_database_iff _).mp ((only_error_iff _).mp h)
      cases this
  · simp only [not_exists] at hbudget
    rw [reserveTenantAggregate_of_none ledgers hfree hbudget]
    refine iff_of_true ((only_error_iff _).mpr (Or.inl (own_agentBudgetError _ _))) ⟨?_, ?_⟩
    · exact fun hf => absurd hf hfree
    · exact fun _ u callLimit costLimit h => absurd h (hbudget u callLimit costLimit)

theorem findLedger_put {l l' : AgentBudgetLedger} {id tenantId : Uuid}
    (hl : db.findLedger id tenantId = some l) (hid : l'.id = l.id)
    (htenant : l'.tenantId = l.tenantId) :
    { db with ledgers := db.ledgers.put l' }.findLedger id tenantId = some l' := by
  obtain ⟨hmem, hlid, hlt⟩ := findLedger_some hl
  have hfind : db.ledgers.find id = some l := db.ledgers.find_eq_some_iff.mpr ⟨hmem, hlid⟩
  rw [Db.findLedger, Table.find_put, if_pos (hid.trans hlid).symm, hfind]
  simp [htenant, hlt]

/-- **A claim.** It ends in its receipt, an `AgentBudgetError`, or the loss of the unique key,
exactly where `ClaimFits`. -/
theorem only_reserveClaim_iff (hs : db.Stored) (hv : units.Valid) :
    Only BudgetFailure.OwnOrUnique (reserveClaim db env newId input units)
      ↔ ClaimFits db env newId input units := by
  unfold reserveClaim ClaimFits
  cases hl : db.findLedger input.ledgerId input.tenantId with
  | none =>
    refine iff_of_false (fun h => ?_) fun h => by obtain ⟨_, h, -⟩ := h; cases h
    have hown := (only_error_iff _).mp h
    rw [throwReservationFailure, hl] at hown
    obtain hown | hunique := hown
    · exact not_own_entityNotFound hown
    · cases hunique
  | some l =>
    have hthrow : (throwReservationFailure db env input).OwnOrUnique :=
      Or.inl (throwReservationFailure_own hl)
    obtain ⟨hcheck, -, -⟩ := hs.ledger l (findLedger_some hl).1
    have hnonneg := AgentBudgetLedger.capacities_nonneg hcheck hv
    -- the row is the ledger that was found
    have hrow : ∀ P : AgentBudgetLedger → Prop, (∃ x, some l = some x ∧ P x) ↔ P l := by
      simp
    rw [hrow]
    dsimp only
    by_cases htakes : l.Takes input.expectedVersion env.dbNow
    · rw [reserveGuard_of_takes htakes]
      by_cases hsums : SumsFit (l.capacities units)
      · rw [only_sql_ok (capacityGuard_of_sumsFit hnonneg hsums)]
        by_cases hroom : ∀ c ∈ l.capacities units, c.Room
        · rw [decide_eq_true hroom, if_pos rfl]
          have hsum : ∀ d, (l.capacity units d).total ≤ int4Max :=
            fun d => total_le_of_sumsFit hsums hroom _ (l.capacity_mem units d)
          by_cases hversion : l.version < int4Max
          · obtain ⟨l', hset, hcheck', hcurrency⟩ := setReserved_of_lt hcheck hv hsum hversion
            have hmoved := setReserved_moved hset
            have hwrite : db.writeLedger l' = .ok { db with ledgers := db.ledgers.put l' } :=
              if_pos hcheck'
            rw [only_sql_ok hset, only_sql_ok hwrite, ← hcurrency]
            refine (only_aggregate_iff hs hv _ ?_
              fun w db => (db, receipt (newReservation newId input units w) l' false env)).trans ?_
            · rw [findLedger_put hl hmoved.id hmoved.tenantId]
              rfl
            · exact ⟨fun h _ => ⟨hsums, fun _ => ⟨hversion, h⟩⟩, fun h => ((h htakes).2 hroom).2⟩
          · rw [only_sql_error (setReserved_of_ge hcheck hv hsum (not_lt.mp hversion)),
              ownOrUnique_database_iff]
            exact iff_of_false (by decide) fun h => hversion ((h htakes).2 hroom).1
        · rw [decide_eq_false hroom, if_neg Bool.false_ne_true]
          exact iff_of_true ((only_error_iff _).mpr hthrow) fun _ =>
            ⟨hsums, fun h => absurd h hroom⟩
      · rw [only_sql_error (capacityGuard_of_not_sumsFit hnonneg hsums), ownOrUnique_database_iff]
        exact iff_of_false (by decide) fun h => hsums (h htakes).1
    · rw [only_sql_ok (reserveGuard_of_not_takes htakes), if_neg Bool.false_ne_true]
      exact iff_of_true ((only_error_iff _).mpr hthrow) fun h => absurd h htakes

end claim

end MortgageAgent.Budget
