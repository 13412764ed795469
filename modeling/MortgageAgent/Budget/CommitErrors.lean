import MortgageAgent.Budget.ClaimErrors

/-!
# When a commit raises no raw error

A commit compares one sum with the ledger's cost limit, and another with the tenant's when the
actual cost is above the reserved one; then it moves the units in both rows.

* **`CommitFits`** — the sums of a commit that reaches its updates are in range, and the ledger's
  reserved columns cover the units.
* **`only_commit_iff`** — from stored rows, a commit ends in no raw error exactly then.
-/

namespace MortgageAgent.Budget

/-! ## Commits -/

/-- The sum that a commit compares with a cost limit, and the one it is formed from. -/
structure SettledFits (used reserved reservedCost actualCost : Int) : Prop where
  held : used + reserved ≤ int4Max
  settled : used + reserved - reservedCost + actualCost ≤ int4Max

/-- A commit that passes the validation of its own fields. -/
structure CommitInput.Valid (input : CommitInput) : Prop where
  cost : ∀ v, input.actualCostMinorUnits = some v → ∃ n, v = .int n ∧ 0 ≤ n ∧ n ≤ int4Max
  resolution : input.requireUnknown = true →
    validateManualResolution input.resolvedBy input.resolutionNote = .ok ()

/-- The commit reaches its updates: it names a reservation that is still held, an UNKNOWN one
if a reviewer asks. -/
structure Settles (db : Db) (input : CommitInput) (r : AgentBudgetReservation)
    (l : AgentBudgetLedger) : Prop where
  valid : input.Valid
  reservation : db.reservations.find input.reservationId = some r
  tenant : r.tenantId = input.tenantId
  ledger : db.findLedger r.ledgerId input.tenantId = some l
  held : r.held = true
  unknown : input.requireUnknown = true → r.status = .UNKNOWN

/-- The tenant's cost limit, where its currency is that of the usage row. -/
def CostLimit (tenants : Table Tenant Tenant.id) (u : TenantAgentBudgetUsage) (costLimit : Int) :
    Prop :=
  ∃ id calls cur, tenants.find u.tenantId = some ⟨id, calls, some costLimit, some cur⟩
    ∧ btrim cur = btrim u.currency

/-- The sums of a usage row that covers the units: the one it compares when the actual cost is
above the reserved one, and where it goes on, the used columns. -/
structure UsageFits (tenants : Table Tenant Tenant.id) (u : TenantAgentBudgetUsage)
    (units : AgentBudgetUnits Int) (actualCost : Int) : Prop where
  compared : units.costMinorUnits < actualCost → ∀ costLimit, CostLimit tenants u costLimit →
    SettledFits u.costUsedMinorUnits u.costReservedMinorUnits units.costMinorUnits actualCost
  used : (actualCost ≤ units.costMinorUnits ∨ ∃ costLimit, CostLimit tenants u costLimit
      ∧ u.costUsedMinorUnits + u.costReservedMinorUnits - units.costMinorUnits + actualCost
        ≤ costLimit) →
    ∀ d : AggregateDimension, u.used d + committedUnits units actualCost d.toDimension ≤ int4Max

/-- The usage row that a reservation's window names fits, if it covers the units. -/
def WindowFits (db : Db) (r : AgentBudgetReservation) (actualCost : Int) : Prop :=
  ∀ window u, r.aggregateWindowStart = some window → db.usage.find (r.tenantId, window) = some u →
    (∀ d : AggregateDimension, r.units.get d.toDimension ≤ u.reserved d) →
      UsageFits db.tenants u r.units actualCost

/-- The ledger's compared sum is in range. Where the limit has room for it, so are its next
version and its used columns, its reserved columns cover the units, and the window fits. -/
structure LedgerFits (db : Db) (r : AgentBudgetReservation) (l : AgentBudgetLedger)
    (actualCost : Int) : Prop where
  compared : SettledFits l.costUsedMinorUnits l.costReservedMinorUnits r.units.costMinorUnits
    actualCost
  written : l.costUsedMinorUnits + l.costReservedMinorUnits - r.units.costMinorUnits + actualCost
      ≤ l.costLimitMinorUnits →
    (l.version < int4Max ∧ (∀ d, r.units.get d ≤ l.reserved d)
      ∧ ∀ d, l.used d + committedUnits r.units actualCost d ≤ int4Max)
    ∧ WindowFits db r actualCost

/-- A commit that reaches its updates fits. -/
def CommitFits (db : Db) (input : CommitInput) : Prop :=
  ∀ r l, Settles db input r l → LedgerFits db r l (input.settledCost r)

theorem int4_range {v w : Int} (h : int4 v = .ok w) : v ≤ int4Max := by
  unfold int4 at h
  split at h
  · next hrange =>
    simp only [inInt4, Bool.and_eq_true, decide_eq_true_eq] at hrange
    exact hrange.2
  · cases h

section commit

variable {db : Db} {used reserved reservedCost actualCost limit : Int}

theorem costFits_of_fits (hu : 0 ≤ used) (hr : 0 ≤ reserved) (hc : 0 ≤ reservedCost)
    (hc' : reservedCost ≤ int4Max) (ha : 0 ≤ actualCost)
    (h : SettledFits used reserved reservedCost actualCost) :
    costFits used reserved reservedCost actualCost limit
      = .ok (decide (used + reserved - reservedCost + actualCost ≤ limit)) := by
  obtain ⟨hheld, hsettled⟩ := h
  have hsum : int4Add (used + reserved - reservedCost) actualCost
      = .ok (used + reserved - reservedCost + actualCost) := by
    refine int4_of_inInt4 ?_
    unfold int4Max at *
    simp only [inInt4, Bool.and_eq_true, decide_eq_true_eq]
    omega
  simp only [costFits, int4Add_of_le hu hr hheld, ok_bind,
    int4Sub_of_le (add_nonneg hu hr) hc hheld hc', hsum]
  rfl

theorem fits_of_costFits {b : Bool}
    (h : costFits used reserved reservedCost actualCost limit = .ok b) :
    SettledFits used reserved reservedCost actualCost := by
  obtain ⟨held, hheld, h⟩ := ok_of_bind_ok h
  obtain ⟨rest, hrest, h⟩ := ok_of_bind_ok h
  obtain ⟨settled, hsettled, -⟩ := ok_of_bind_ok h
  have hsum := int4_range hsettled
  rw [int4Sub_eq_ok hrest, int4Add_eq_ok hheld] at hsum
  exact ⟨int4_range hheld, hsum⟩

/-- A statement's error is always raw. -/
theorem only_own_sql_iff {α β : Type} {x : Except PgError α} {f : α → Except BudgetFailure β} :
    Only BudgetFailure.Own (sql x >>= f) ↔ ∃ a, x = .ok a ∧ Only BudgetFailure.Own (f a) := by
  cases x with
  | ok a => simp [only_sql_ok rfl]
  | error e => simp [only_sql_error rfl]

variable {l : AgentBudgetLedger} {units : AgentBudgetUnits Int}

theorem committedUnits_nonneg (hunits : ∀ d, 0 ≤ units.get d ∧ units.get d ≤ int4Max)
    (ha : 0 ≤ actualCost) (d : Dimension) : 0 ≤ committedUnits units actualCost d := by
  cases d with
  | step => exact (hunits .step).1
  | token => exact (hunits .token).1
  | providerCall => exact (hunits .providerCall).1
  | cost => exact ha

/-- The ledger row that a commit writes. -/
theorem setCommitted_iff (hl : l.check = true) (hrange : ∀ d, l.reserved d ≤ int4Max)
    (hunits : ∀ d, 0 ≤ units.get d ∧ units.get d ≤ int4Max) (ha : 0 ≤ actualCost) :
    (∃ l', setCommitted l units actualCost = .ok l' ∧ l'.check = true)
      ↔ l.version < int4Max ∧ (∀ d, units.get d ≤ l.reserved d)
        ∧ ∀ d, l.used d + committedUnits units actualCost d ≤ int4Max := by
  obtain ⟨hcheck, hpos, hdeadline⟩ := l.check_iff.mp hl
  constructor
  · rintro ⟨l', hset, hcheck'⟩
    have hmoved := setCommitted_moved hset
    obtain ⟨_, -, hset⟩ := ok_of_bind_ok hset
    obtain ⟨_, hstep, hset⟩ := ok_of_bind_ok hset
    obtain ⟨_, -, hset⟩ := ok_of_bind_ok hset
    obtain ⟨_, htoken, hset⟩ := ok_of_bind_ok hset
    obtain ⟨_, -, hset⟩ := ok_of_bind_ok hset
    obtain ⟨_, hcall, hset⟩ := ok_of_bind_ok hset
    obtain ⟨_, -, hset⟩ := ok_of_bind_ok hset
    obtain ⟨_, hcost, hset⟩ := ok_of_bind_ok hset
    obtain ⟨_, hversion, -⟩ := ok_of_bind_ok hset
    refine ⟨Int.lt_of_add_one_le (int4_range hversion), fun d => ?_, fun d => ?_⟩
    · -- the new reserved column is not negative
      have hreserved := ((l'.check_iff.mp hcheck').1 d).2.2
      rw [hmoved.reserved d] at hreserved
      omega
    · cases d with
      | step => exact int4_range hstep
      | token => exact int4_range htoken
      | providerCall => exact int4_range hcall
      | cost => exact int4_range hcost
  · rintro ⟨hversion, hcover, hused⟩
    have hspent := committedUnits_nonneg hunits ha
    have hsub : ∀ d, int4Sub (l.reserved d) (units.get d) = .ok (l.reserved d - units.get d) :=
      fun d => int4Sub_of_le (hcheck d).2.2 (hunits d).1 (hrange d) (hunits d).2
    have hadd : ∀ d, int4Add (l.used d) (committedUnits units actualCost d)
        = .ok (l.used d + committedUnits units actualCost d) :=
      fun d => int4Add_of_le (hcheck d).2.1 (hspent d) (hused d)
    have hnext : int4Add l.version 1 = .ok (l.version + 1) :=
      int4Add_of_le hpos.le (by decide) (Int.add_one_le_of_lt hversion)
    have hset : setCommitted l units actualCost = .ok { l with
        stepReserved := l.stepReserved - units.stepUnits
        stepUsed := l.stepUsed + units.stepUnits
        tokenReserved := l.tokenReserved - units.tokenUnits
        tokenUsed := l.tokenUsed + units.tokenUnits
        providerCallReserved := l.providerCallReserved - units.providerCallUnits
        providerCallUsed := l.providerCallUsed + units.providerCallUnits
        costReservedMinorUnits := l.costReservedMinorUnits - units.costMinorUnits
        costUsedMinorUnits := l.costUsedMinorUnits + actualCost
        version := l.version + 1 } := by
      have r1 := hsub .step
      have r2 := hsub .token
      have r3 := hsub .providerCall
      have r4 := hsub .cost
      have u1 := hadd .step
      have u2 := hadd .token
      have u3 := hadd .providerCall
      have u4 := hadd .cost
      simp only [AgentBudgetLedger.reserved, AgentBudgetLedger.used, AgentBudgetUnits.get,
        committedUnits] at r1 r2 r3 r4 u1 u2 u3 u4
      simp only [setCommitted, r1, r2, r3, r4, u1, u2, u3, u4, hnext, ok_bind]
      rfl
    refine ⟨_, hset, (AgentBudgetLedger.check_iff _).mpr
      ⟨fun d => ?_, Int.lt_add_one_of_le hpos.le, hdeadline⟩⟩
    obtain ⟨hlimit, hu, -⟩ := hcheck d
    have hreserved := sub_nonneg.mpr (hcover d)
    have hnew := add_nonneg hu (hspent d)
    cases d <;> exact ⟨hlimit, hnew, hreserved⟩

/-- The usage row that a commit writes, once its reserved columns cover the units. -/
theorem setUsageCommitted_iff {u : TenantAgentBudgetUsage} (hu : u.check = true)
    (hrange : ∀ d, u.reserved d ≤ int4Max)
    (hunits : ∀ d : AggregateDimension,
      0 ≤ units.get d.toDimension ∧ units.get d.toDimension ≤ int4Max) (ha : 0 ≤ actualCost)
    (hcover : ∀ d : AggregateDimension, units.get d.toDimension ≤ u.reserved d) :
    (∃ u', setUsageCommitted u units actualCost = .ok u' ∧ u'.check = true)
      ↔ ∀ d : AggregateDimension,
        u.used d + committedUnits units actualCost d.toDimension ≤ int4Max := by
  have hcheck := u.check_iff.mp hu
  constructor
  · rintro ⟨u', hset, -⟩ d
    obtain ⟨_, -, hset⟩ := ok_of_bind_ok hset
    obtain ⟨_, hcall, hset⟩ := ok_of_bind_ok hset
    obtain ⟨_, -, hset⟩ := ok_of_bind_ok hset
    obtain ⟨_, hcost, -⟩ := ok_of_bind_ok hset
    cases d with
    | providerCall => exact int4_range hcall
    | cost => exact int4_range hcost
  · intro hused
    have hspent : ∀ d : AggregateDimension, 0 ≤ committedUnits units actualCost d.toDimension := by
      intro d
      cases d with
      | providerCall => exact (hunits .providerCall).1
      | cost => exact ha
    have hsub : ∀ d : AggregateDimension, int4Sub (u.reserved d) (units.get d.toDimension)
        = .ok (u.reserved d - units.get d.toDimension) :=
      fun d => int4Sub_of_le (hcheck d).2 (hunits d).1 (hrange d) (hunits d).2
    have hadd : ∀ d : AggregateDimension,
        int4Add (u.used d) (committedUnits units actualCost d.toDimension)
          = .ok (u.used d + committedUnits units actualCost d.toDimension) :=
      fun d => int4Add_of_le (hcheck d).1 (hspent d) (hused d)
    have hset : setUsageCommitted u units actualCost = .ok { u with
        providerCallReserved := u.providerCallReserved - units.providerCallUnits
        providerCallUsed := u.providerCallUsed + units.providerCallUnits
        costReservedMinorUnits := u.costReservedMinorUnits - units.costMinorUnits
        costUsedMinorUnits := u.costUsedMinorUnits + actualCost } := by
      have r1 := hsub .providerCall
      have r2 := hsub .cost
      have u1 := hadd .providerCall
      have u2 := hadd .cost
      simp only [TenantAgentBudgetUsage.reserved, TenantAgentBudgetUsage.used,
        AggregateDimension.toDimension, AgentBudgetUnits.get, committedUnits] at r1 r2 u1 u2
      simp only [setUsageCommitted, r1, r2, u1, u2, ok_bind]
      rfl
    refine ⟨_, hset, (TenantAgentBudgetUsage.check_iff _).mpr fun d => ?_⟩
    have hreserved := sub_nonneg.mpr (hcover d)
    have hnew := add_nonneg (hcheck d).1 (hspent d)
    cases d <;> exact ⟨hnew, hreserved⟩

theorem only_writeUsage_iff (u : TenantAgentBudgetUsage) :
    Only BudgetFailure.Own (do let u' ← sql (setUsageCommitted u units actualCost)
                               sql (db.writeUsage u'))
      ↔ ∃ u', setUsageCommitted u units actualCost = .ok u' ∧ u'.check = true := by
  rw [only_own_sql_iff]
  refine exists_congr fun u' => and_congr_right fun _ => ?_
  unfold Db.writeUsage
  split
  · next hcheck => exact iff_of_true (only_ok _) hcheck
  · next hcheck => exact iff_of_false (fun h => not_own_database _ (h _ rfl)) hcheck

/-- The units are covered by what the row has reserved. -/
theorem covered_iff {u : TenantAgentBudgetUsage} :
    (units.providerCallUnits ≤ u.providerCallReserved
        && units.costMinorUnits ≤ u.costReservedMinorUnits) = true
      ↔ ∀ d : AggregateDimension, units.get d.toDimension ≤ u.reserved d := by
  rw [Bool.and_eq_true, decide_eq_true_eq, decide_eq_true_eq]
  constructor
  · rintro ⟨hcalls, hcost⟩ d
    cases d with
    | providerCall => exact hcalls
    | cost => exact hcost
  · intro hcover
    exact ⟨hcover .providerCall, hcover .cost⟩

/-- With the units covered, an actual cost that is not above the reserved one needs no room. -/
theorem commitAggregateGuard_of_le {u : TenantAgentBudgetUsage}
    (hcover : ∀ d : AggregateDimension, units.get d.toDimension ≤ u.reserved d)
    (h : actualCost ≤ units.costMinorUnits) :
    commitAggregateGuard db u units actualCost = .ok true := by
  have hcovered := covered_iff.mpr hcover
  rw [commitAggregateGuard, if_pos hcovered, if_pos h]
  rfl

theorem commitAggregateGuard_of_not_covered {u : TenantAgentBudgetUsage}
    (hcover : ¬∀ d : AggregateDimension, units.get d.toDimension ≤ u.reserved d) :
    commitAggregateGuard db u units actualCost = .ok false := by
  rw [commitAggregateGuard, if_neg fun hcovered => hcover (covered_iff.mp hcovered)]
  rfl

/-- Above the reserved cost, the tenant's limit decides. -/
theorem commitAggregateGuard_of_gt {u : TenantAgentBudgetUsage}
    (hcover : ∀ d : AggregateDimension, units.get d.toDimension ≤ u.reserved d)
    (h : units.costMinorUnits < actualCost) :
    (∀ costLimit, CostLimit db.tenants u costLimit → commitAggregateGuard db u units actualCost
      = costFits u.costUsedMinorUnits u.costReservedMinorUnits units.costMinorUnits actualCost
        costLimit)
    ∧ ((∀ costLimit, ¬CostLimit db.tenants u costLimit) →
      commitAggregateGuard db u units actualCost = .ok false) := by
  have hcovered := covered_iff.mpr hcover
  rw [commitAggregateGuard, if_pos hcovered, if_neg (not_le.mpr h)]
  constructor
  · rintro costLimit ⟨id, calls, cur, ht, hcur⟩
    simp only [ht, hcur, if_true]
  · intro hnone
    split
    · next id calls costLimit cur ht =>
      split
      · next hcur => exact absurd ⟨id, calls, cur, ht, hcur⟩ (hnone costLimit)
      · rfl
    · rfl

theorem CostLimit.unique {tenants : Table Tenant Tenant.id} {u : TenantAgentBudgetUsage}
    {costLimit costLimit' : Int} (h : CostLimit tenants u costLimit)
    (h' : CostLimit tenants u costLimit') : costLimit' = costLimit := by
  obtain ⟨_, _, _, ht, -⟩ := h
  obtain ⟨_, _, _, ht', -⟩ := h'
  rw [ht] at ht'
  cases ht'
  rfl

/-- The update of a usage row that covers the units. -/
theorem only_usageUpdate_iff {u : TenantAgentBudgetUsage} (hu : u.check = true)
    (hrange : ∀ d, u.reserved d ≤ int4Max)
    (hunits : ∀ d, 0 ≤ units.get d ∧ units.get d ≤ int4Max) (ha : 0 ≤ actualCost)
    (hcover : ∀ d : AggregateDimension, units.get d.toDimension ≤ u.reserved d) :
    Only BudgetFailure.Own
        (do if ← sql (commitAggregateGuard db u units actualCost) then
              let u' ← sql (setUsageCommitted u units actualCost)
              sql (db.writeUsage u')
            else throw actualCostExceeds)
      ↔ UsageFits db.tenants u units actualCost := by
  have hexceeds : Only BudgetFailure.Own (.error actualCostExceeds : Except BudgetFailure Db) :=
    (only_error_iff _).mpr (own_agentBudgetError _ _)
  have hwrite : Only BudgetFailure.Own
      (do let u' ← sql (setUsageCommitted u units actualCost)
          sql (db.writeUsage u')) ↔ _ :=
    (only_writeUsage_iff u).trans (setUsageCommitted_iff hu hrange (fun d => hunits d.toDimension) ha hcover)
  by_cases hle : actualCost ≤ units.costMinorUnits
  · rw [only_sql_ok (commitAggregateGuard_of_le hcover hle), if_pos rfl, hwrite]
    exact ⟨fun h => ⟨fun hlt => absurd hle (not_le.mpr hlt), fun _ => h⟩,
      fun h => h.used (Or.inl hle)⟩
  obtain ⟨hlimited, hunlimited⟩ := @commitAggregateGuard_of_gt db _ _ _ hcover (not_le.mp hle)
  by_cases hlimit : ∃ costLimit, CostLimit db.tenants u costLimit
  · obtain ⟨costLimit, hlimit⟩ := hlimit
    rw [hlimited costLimit hlimit]
    by_cases hfits : SettledFits u.costUsedMinorUnits u.costReservedMinorUnits
        units.costMinorUnits actualCost
    · have hcheck := u.check_iff.mp hu .cost
      have hguard : costFits u.costUsedMinorUnits u.costReservedMinorUnits units.costMinorUnits
          actualCost costLimit = .ok (decide (u.costUsedMinorUnits + u.costReservedMinorUnits
            - units.costMinorUnits + actualCost ≤ costLimit)) :=
        costFits_of_fits hcheck.1 hcheck.2 (hunits .cost).1 (hunits .cost).2 ha hfits
      rw [only_sql_ok hguard]
      by_cases hroom : u.costUsedMinorUnits + u.costReservedMinorUnits - units.costMinorUnits
          + actualCost ≤ costLimit
      · rw [decide_eq_true hroom, if_pos rfl, hwrite]
        exact ⟨fun h => ⟨fun _ _ _ => hfits, fun _ => h⟩,
          fun h => h.used (Or.inr ⟨costLimit, hlimit, hroom⟩)⟩
      · rw [decide_eq_false hroom, if_neg Bool.false_ne_true]
        refine iff_of_true hexceeds ⟨fun _ _ _ => hfits, ?_⟩
        rintro (h | ⟨costLimit', hlimit', hroom'⟩)
        · exact absurd h hle
        · rw [hlimit.unique hlimit'] at hroom'
          exact absurd hroom' hroom
    · refine iff_of_false (fun h => ?_) fun h =>
        hfits (h.compared (not_le.mp hle) costLimit hlimit)
      obtain ⟨_, hguard, -⟩ := only_own_sql_iff.mp h
      exact hfits (fits_of_costFits hguard)
  · simp only [not_exists] at hlimit
    rw [only_sql_ok (hunlimited hlimit), if_neg Bool.false_ne_true]
    refine iff_of_true hexceeds ⟨fun _ costLimit h => absurd h (hlimit costLimit), ?_⟩
    rintro (h | ⟨costLimit, h, -⟩)
    · exact absurd h hle
    · exact absurd h (hlimit costLimit)

/-- **The aggregate's part of a commit.** -/
theorem only_commitTenantAggregate_iff {r : AgentBudgetReservation}
    (hrows : ∀ u ∈ db.usage.rows, u.check = true ∧ ∀ d, u.used d ≤ int4Max ∧ u.reserved d ≤ int4Max)
    (hunits : ∀ d, 0 ≤ r.units.get d ∧ r.units.get d ≤ int4Max) (ha : 0 ≤ actualCost) :
    Only BudgetFailure.Own (commitTenantAggregate db r actualCost)
      ↔ WindowFits db r actualCost := by
  have hexceeds : Only BudgetFailure.Own (.error actualCostExceeds : Except BudgetFailure Db) :=
    (only_error_iff _).mpr (own_agentBudgetError _ _)
  unfold commitTenantAggregate WindowFits
  cases hw : r.aggregateWindowStart with
  | none => exact iff_of_true (only_ok _) fun _ _ hwindow => by cases hwindow
  | some window =>
    dsimp only
    cases hu : db.usage.find (r.tenantId, window) with
    | none =>
      refine iff_of_true hexceeds fun window' u hwindow hfind => ?_
      cases hwindow
      rw [hu] at hfind
      cases hfind
    | some u =>
      -- the row is the one the reservation's window names
      have hrow : (∀ window' u', some window = some window' →
          db.usage.find (r.tenantId, window') = some u' →
          (∀ d : AggregateDimension, r.units.get d.toDimension ≤ u'.reserved d) →
            UsageFits db.tenants u' r.units actualCost)
          ↔ ((∀ d : AggregateDimension, r.units.get d.toDimension ≤ u.reserved d) →
            UsageFits db.tenants u r.units actualCost) := by
        refine ⟨fun h => h window u rfl hu, fun h window' u' hwindow hfind => ?_⟩
        cases hwindow
        rw [hu] at hfind
        cases hfind
        exact h
      rw [hrow]
      obtain ⟨hcheck, hrange⟩ := hrows u ((Table.find_eq_some_iff _).mp hu).1
      by_cases hcover : ∀ d : AggregateDimension, r.units.get d.toDimension ≤ u.reserved d
      · refine (only_usageUpdate_iff hcheck (fun d => (hrange d).2) hunits ha hcover).trans ?_
        exact ⟨fun h _ => h, fun h => h hcover⟩
      · dsimp only
        rw [only_sql_ok (commitAggregateGuard_of_not_covered hcover), if_neg Bool.false_ne_true]
        exact iff_of_true hexceeds fun h => absurd h hcover

/-- **The updates of a commit**, of a reservation that is held. -/
theorem only_commitAction_iff (hs : db.Stored) {env : Env} {input : CommitInput}
    {actual : Option Int} {r : AgentBudgetReservation} (hr : r ∈ db.reservations.rows)
    (hl : l ∈ db.ledgers.rows) (hheld : r.held = true)
    (hunknown : input.requireUnknown = true → r.status = .UNKNOWN)
    (ha : 0 ≤ actual.getD r.units.costMinorUnits) :
    Only BudgetFailure.Own (commitAction db env input actual r l)
      ↔ LedgerFits db r l (actual.getD r.units.costMinorUnits) := by
  obtain ⟨hcheck, -, hrange⟩ := hs.ledger l hl
  have hunits := hs.units r hr
  have hcost := (l.check_iff.mp hcheck).1 .cost
  have hcommitted : r.status ≠ .COMMITTED := by
    intro h
    simp [AgentBudgetReservation.held, h] at hheld
  have hreleased : r.status ≠ .RELEASED := by
    intro h
    simp [AgentBudgetReservation.held, h] at hheld
  have hreviewed : ¬(input.requireUnknown && r.status ≠ .UNKNOWN) = true := by
    simp only [ne_eq, decide_not, Bool.and_eq_true, Bool.not_eq_true', decide_eq_false_iff_not,
      not_and, not_not]
    exact hunknown
  rw [commitAction, if_neg hcommitted, if_neg hreviewed, if_neg hreleased]
  dsimp only
  generalize actual.getD r.units.costMinorUnits = actualCost at ha
  -- with the ledger's row written, the usage row and the reservation are left
  have hrest : ∀ l' : AgentBudgetLedger,
      Only BudgetFailure.Own (do
          let db ← sql (db.writeLedger l')
          let db ← commitTenantAggregate db r actualCost
          let db ← sql (db.writeReservation (r.asCommitted env input actualCost))
          return (db, receipt (r.asCommitted env input actualCost) l' false env))
        ↔ l'.check = true ∧ WindowFits db r actualCost := by
    intro l'
    by_cases hcheck' : l'.check = true
    · have hwrite : db.writeLedger l' = .ok { db with ledgers := db.ledgers.put l' } :=
        if_pos hcheck'
      rw [only_sql_ok hwrite, only_bind_iff, and_iff_right hcheck']
      refine (and_iff_left fun db2 _ => ?_).trans (@only_commitTenantAggregate_iff
        { db with ledgers := db.ledgers.put l' } _ _ hs.usage hunits ha)
      have hwrite : db2.writeReservation (r.asCommitted env input actualCost)
          = .ok { db2 with
              reservations := db2.reservations.put (r.asCommitted env input actualCost) } :=
        if_pos ha
      rw [only_sql_ok hwrite]
      exact only_ok _
    · have hwrite : db.writeLedger l' = .error .checkViolation := if_neg hcheck'
      rw [only_sql_error hwrite]
      exact iff_of_false (not_own_database _) fun h => hcheck' h.1
  by_cases hfits : SettledFits l.costUsedMinorUnits l.costReservedMinorUnits r.units.costMinorUnits
      actualCost
  · have hguard : costFits l.costUsedMinorUnits l.costReservedMinorUnits r.units.costMinorUnits
        actualCost l.costLimitMinorUnits = .ok (decide (l.costUsedMinorUnits
          + l.costReservedMinorUnits - r.units.costMinorUnits + actualCost
            ≤ l.costLimitMinorUnits)) :=
      costFits_of_fits hcost.2.1 hcost.2.2 (hunits .cost).1 (hunits .cost).2 ha hfits
    rw [only_sql_ok hguard]
    by_cases hroom : l.costUsedMinorUnits + l.costReservedMinorUnits - r.units.costMinorUnits
        + actualCost ≤ l.costLimitMinorUnits
    · rw [decide_eq_true hroom, if_pos rfl, only_own_sql_iff]
      simp only [hrest, ← and_assoc, exists_and_right]
      rw [setCommitted_iff hcheck (fun d => (hrange d).2.2) hunits ha]
      exact ⟨fun h => ⟨hfits, fun _ => h⟩, fun h => h.written hroom⟩
    · rw [decide_eq_false hroom, if_neg Bool.false_ne_true]
      exact iff_of_true ((only_error_iff _).mpr (own_agentBudgetError _ _))
        ⟨hfits, fun h => absurd h hroom⟩
  · refine iff_of_false (fun h => ?_) fun h => hfits h.compared
    obtain ⟨_, hguard, -⟩ := only_own_sql_iff.mp h
    exact hfits (fits_of_costFits hguard)

end commit

theorem only_assertNonnegativeInt (value : JsNumber) (name : String) :
    Only BudgetFailure.Own (assertNonnegativeInt value name) := by
  unfold assertNonnegativeInt
  split
  · split
    · exact only_ok _
    · exact (only_error_iff _).mpr (own_conflict _)
  · exact (only_error_iff _).mpr (own_conflict _)

theorem only_validateManualResolution (resolvedBy resolutionNote : Option String) :
    Only BudgetFailure.Own (validateManualResolution resolvedBy resolutionNote) := by
  have hconflict : ∀ {α : Type} (text : String),
      Only BudgetFailure.Own (.error (conflict text) : Except BudgetFailure α) :=
    fun text => (only_error_iff _).mpr (own_conflict text)
  unfold validateManualResolution
  dsimp only
  split
  · split
    · exact hconflict _
    · split
      · split
        · exact hconflict _
        · exact only_ok _
      · exact hconflict _
  · exact hconflict _

/-- The validation of the actual cost, and the cost it leads to. -/
theorem mapM_assertNonnegativeInt {input : CommitInput} {actual : Option Int}
    (h : input.actualCostMinorUnits.mapM (fun v => assertNonnegativeInt v "actual cost")
      = .ok actual) :
    (∀ v, input.actualCostMinorUnits = some v → ∃ n, v = .int n ∧ 0 ≤ n ∧ n ≤ int4Max)
      ∧ ∀ r : AgentBudgetReservation, actual.getD r.units.costMinorUnits = input.settledCost r := by
  unfold CommitInput.settledCost
  cases hinput : input.actualCostMinorUnits with
  | none =>
    rw [hinput] at h
    cases h
    exact ⟨fun v hv => by (cases hv), fun r => rfl⟩
  | some v =>
    rw [hinput, Option.mapM_some] at h
    obtain ⟨n, hn, h⟩ := ok_of_bind_ok h
    cases h
    obtain ⟨rfl, -⟩ := assertNonnegativeInt_ok hn
    refine ⟨fun v hv => ?_, fun r => rfl⟩
    cases hv
    exact ⟨n, rfl, assertNonnegativeInt_range hn⟩

theorem mapM_of_valid {input : CommitInput} (h : input.Valid) :
    ∃ actual, input.actualCostMinorUnits.mapM (fun v => assertNonnegativeInt v "actual cost")
      = .ok actual := by
  cases hinput : input.actualCostMinorUnits with
  | none => exact ⟨none, rfl⟩
  | some v =>
    obtain ⟨n, rfl, hnonneg, hmax⟩ := h.cost v hinput
    have hn : assertNonnegativeInt (.int n) "actual cost" = .ok n := by
      unfold int4Max at hmax
      simp [assertNonnegativeInt, hnonneg, hmax]
    exact ⟨some n, by rw [Option.mapM_some, hn]; rfl⟩

theorem only_mapM_assertNonnegativeInt (value : Option JsNumber) :
    Only BudgetFailure.Own (value.mapM fun v => assertNonnegativeInt v "actual cost") := by
  cases value with
  | none => exact only_ok _
  | some v =>
    rw [Option.mapM_some]
    exact only_bind_iff.mpr ⟨only_assertNonnegativeInt v _, fun _ _ => only_ok _⟩

section resolve

variable {db : Db}

theorem only_resolveReservation_iff {tenantId reservationId : Uuid}
    {action : AgentBudgetReservation → AgentBudgetLedger →
      Except BudgetFailure (Db × AgentBudgetReservationReceipt)} :
    Only BudgetFailure.Own (resolveReservation db tenantId reservationId action)
      ↔ ∀ r l, db.reservations.find reservationId = some r → r.tenantId = tenantId →
        db.findLedger r.ledgerId tenantId = some l → Only BudgetFailure.Own (action r l) := by
  have hconflict : ∀ text : String, Only BudgetFailure.Own
      (.error (conflict text) : Except BudgetFailure (Db × AgentBudgetReservationReceipt)) :=
    fun text => (only_error_iff _).mpr (own_conflict text)
  unfold resolveReservation
  split
  · next hnone =>
    refine iff_of_true (hconflict _) fun r l hr htenant _ => ?_
    rw [hr] at hnone
    simp [htenant] at hnone
  next r hr =>
  obtain ⟨hfind, htenant⟩ := Option.filter_eq_some_iff.mp hr
  have htenant : r.tenantId = tenantId := by simpa using htenant
  split
  · next hnone =>
    refine iff_of_true (hconflict _) fun r' l hr' _ hl => ?_
    rw [hfind] at hr'
    cases hr'
    rw [hnone] at hl
    cases hl
  · next l hl =>
    refine ⟨fun h r' l' hr' _ hl' => ?_, fun h => h r l hfind htenant hl⟩
    rw [hfind] at hr'
    cases hr'
    rw [hl] at hl'
    cases hl'
    exact h

/-- A commit that does not reach its updates replays, or is refused. -/
theorem only_commitAction_of_not {env : Env} {input : CommitInput} {actual : Option Int}
    {r : AgentBudgetReservation} {l : AgentBudgetLedger}
    (h : ¬(r.held = true ∧ (input.requireUnknown = true → r.status = .UNKNOWN))) :
    Only BudgetFailure.Own (commitAction db env input actual r l) := by
  have hconflict : ∀ text : String, Only BudgetFailure.Own
      (.error (conflict text) : Except BudgetFailure (Db × AgentBudgetReservationReceipt)) :=
    fun text => (only_error_iff _).mpr (own_conflict text)
  unfold commitAction
  split
  · split
    · exact hconflict _
    · exact only_ok _
  next hcommitted =>
  split
  · exact hconflict _
  next hreviewed =>
  split
  · exact hconflict _
  · next hreleased =>
    refine absurd ⟨held_of_status hcommitted hreleased, fun hrequire => ?_⟩ h
    simpa [hrequire] using hreviewed

/-- **A commit.** It ends in its receipt or an `AgentBudgetError` exactly where `CommitFits`. -/
theorem only_commit_iff (hs : db.Stored) {env : Env} {input : CommitInput} :
    Only BudgetFailure.Own (commit db env input) ↔ CommitFits db input := by
  -- what the validated actual cost gives for a stored reservation is not negative
  have hcost : ∀ (actual : Option Int) (r : AgentBudgetReservation), r ∈ db.reservations.rows →
      input.actualCostMinorUnits.mapM (fun v => assertNonnegativeInt v "actual cost") = .ok actual →
      0 ≤ actual.getD r.units.costMinorUnits := by
    intro actual r hr hactual
    obtain ⟨hvalid, hsettled⟩ := mapM_assertNonnegativeInt hactual
    rw [hsettled, CommitInput.settledCost]
    split
    · next v hv =>
      obtain ⟨n, hn, hnonneg, -⟩ := hvalid _ hv
      cases hn
      exact hnonneg
    · exact (hs.units r hr .cost).1
  unfold commit CommitFits
  constructor
  · intro h r l hsettles
    obtain ⟨hvalid, hr, htenant, hl, hheld, hunknown⟩ := hsettles
    obtain ⟨actual, hactual⟩ := mapM_of_valid hvalid
    have hmem := (db.reservations.find_eq_some_iff.mp hr).1
    have haction : Only BudgetFailure.Own (commitAction db env input actual r l) := by
      have hrest := (only_bind_iff.mp h).2 actual hactual
      split at hrest
      · next hrequire =>
        rw [hvalid.resolution hrequire] at hrest
        exact only_resolveReservation_iff.mp hrest r l hr htenant hl
      · exact only_resolveReservation_iff.mp hrest r l hr htenant hl
    rw [← (mapM_assertNonnegativeInt hactual).2 r]
    exact (only_commitAction_iff hs hmem (findLedger_some hl).1 hheld hunknown
      (hcost actual r hmem hactual)).mp haction
  · intro h
    refine only_bind_iff.mpr ⟨only_mapM_assertNonnegativeInt _, fun actual hactual => ?_⟩
    have hresolve : (input.requireUnknown = true →
          validateManualResolution input.resolvedBy input.resolutionNote = .ok ()) →
        Only BudgetFailure.Own (resolveReservation db input.tenantId input.reservationId
          (commitAction db env input actual)) := by
      intro hresolution
      refine only_resolveReservation_iff.mpr fun r l hr htenant hl => ?_
      have hmem := (db.reservations.find_eq_some_iff.mp hr).1
      by_cases hreach : r.held = true ∧ (input.requireUnknown = true → r.status = .UNKNOWN)
      · refine (only_commitAction_iff hs hmem (findLedger_some hl).1 hreach.1 hreach.2
          (hcost actual r hmem hactual)).mpr ?_
        obtain ⟨hvalid, hsettled⟩ := mapM_assertNonnegativeInt hactual
        rw [hsettled r]
        exact h r l ⟨⟨hvalid, hresolution⟩, hr, htenant, hl, hreach.1, hreach.2⟩
      · exact only_commitAction_of_not hreach
    split
    · refine only_bind_iff.mpr ⟨only_validateManualResolution _ _, fun _ hresolution => ?_⟩
      exact hresolve fun _ => hresolution
    · next hrequire => exact hresolve fun h => absurd h hrequire

end resolve

end MortgageAgent.Budget
