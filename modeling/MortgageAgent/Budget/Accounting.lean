import MortgageAgent.Budget.Effect
import Mathlib.Algebra.Order.BigOperators.Group.List
import Mathlib.Algebra.Order.Ring.Int

/-!
# Budget accounting over whole runs

The counters of a ledger, the counters of the tenant's monthly usage and the reservation rows
are three copies of one fact. The invariants here say how they agree in every state a run can
reach, whatever the interleaving.

* **`LedgerInv`** — a ledger's reserved counters are the units its open reservations hold, its
  used counters the units its committed ones spent, and the two together stay within the limit.
* **`AggregateInv`** — the tenant's usage rows sum to what the tenant's reservations hold and
  spent *through a window*. A reservation without provider calls and cost has no window, so what
  it spends reaches no usage row.
* **`aggregate_accounts`** — hence the third copy agrees with the other two along every run in
  which no such reservation is committed at a positive actual cost, and
  `aggregate_misses_free_commit` shows one in which it does not.
-/

namespace MortgageAgent.Budget

open Runs

/-! ## Sums over reservations -/

/-- The units the ledger's open reservations hold. -/
def Db.heldUnits (db : Db) (ledgerId : Uuid) (d : Dimension) : Int :=
  ((db.reservations.rows.filter fun r => r.ledgerId = ledgerId && r.held).map
    fun r => r.units.get d).sum

/-- The units the ledger's committed reservations spent, cost at its actual value. -/
def Db.spentUnits (db : Db) (ledgerId : Uuid) (d : Dimension) : Int :=
  ((db.reservations.rows.filter fun r => r.ledgerId = ledgerId && r.committed).map
    fun r => r.spent d).sum

theorem heldUnits_eq_total (db : Db) (ledgerId : Uuid) (d : Dimension) :
    db.heldUnits ledgerId d
      = db.reservations.total fun r => if r.ledgerId = ledgerId then r.heldUnits d else 0 := by
  rw [Db.heldUnits, Table.sum_filter_eq_total]
  refine Table.total_congr _ fun r _ => ?_
  by_cases h : r.ledgerId = ledgerId <;> simp [h, AgentBudgetReservation.heldUnits]

theorem spentUnits_eq_total (db : Db) (ledgerId : Uuid) (d : Dimension) :
    db.spentUnits ledgerId d
      = db.reservations.total fun r => if r.ledgerId = ledgerId then r.spentUnits d else 0 := by
  rw [Db.spentUnits, Table.sum_filter_eq_total]
  refine Table.total_congr _ fun r _ => ?_
  by_cases h : r.ledgerId = ledgerId <;> simp [h, AgentBudgetReservation.spentUnits]

/-! ## The ledger invariant -/

/-- What every reservation row keeps: its ledger exists, its units are non-negative, and a
committed one has an actual cost. -/
structure ReservationOk (db : Db) (r : AgentBudgetReservation) : Prop where
  ledger : ∃ l ∈ db.ledgers.rows, l.id = r.ledgerId
  nonneg : ∀ d, 0 ≤ r.units.get d
  actual : r.committed → ∃ c, 0 ≤ c ∧ r.actualCostMinorUnits = some c

/-- The counters of one ledger in one dimension agree with the reservation rows. -/
structure Accounted (db : Db) (l : AgentBudgetLedger) (d : Dimension) : Prop where
  used_nonneg : 0 ≤ l.used d
  reserved_nonneg : 0 ≤ l.reserved d
  within : l.used d + l.reserved d ≤ l.limit d
  reserved : l.reserved d = db.heldUnits l.id d
  used : l.used d = db.spentUnits l.id d

structure LedgerInv (db : Db) : Prop where
  reservations : ∀ r ∈ db.reservations.rows, ReservationOk db r
  ledgers : ∀ l ∈ db.ledgers.rows, ∀ d, Accounted db l d

theorem ReservationOk.heldUnits_nonneg {db : Db} {r : AgentBudgetReservation}
    (h : ReservationOk db r) (d : Dimension) : 0 ≤ r.heldUnits d := by
  unfold AgentBudgetReservation.heldUnits
  split
  · exact h.nonneg d
  · exact le_rfl

theorem ReservationOk.spentUnits_nonneg {db : Db} {r : AgentBudgetReservation}
    (h : ReservationOk db r) (d : Dimension) : 0 ≤ r.spentUnits d := by
  unfold AgentBudgetReservation.spentUnits
  split
  · next hc =>
    cases d with
    -- cost counts at its actual value, which the row carries
    | cost =>
      obtain ⟨c, hc, hactual⟩ := h.actual hc
      simpa [AgentBudgetReservation.spent, hactual] using hc
    | step => exact h.nonneg .step
    | token => exact h.nonneg .token
    | providerCall => exact h.nonneg .providerCall
  · exact le_rfl

/-- Sums of non-negative contributions over the rows. -/
theorem total_ite_nonneg (t : Table AgentBudgetReservation AgentBudgetReservation.id)
    (p : AgentBudgetReservation → Prop) [DecidablePred p] (f : AgentBudgetReservation → Int)
    (h : ∀ r ∈ t.rows, 0 ≤ f r) : 0 ≤ t.total fun r => if p r then f r else 0 := by
  refine List.sum_nonneg ?_
  intro x hx
  obtain ⟨r, hr, rfl⟩ := List.mem_map.mp hx
  by_cases hp : p r
  · simpa [hp] using h r hr
  · simp [hp]

/-- The counters follow from the two sums and the limit: sums of non-negative rows are not
negative. -/
theorem Accounted.of_sums {db : Db} {l : AgentBudgetLedger} {d : Dimension}
    (hok : ∀ r ∈ db.reservations.rows, ReservationOk db r)
    (hwithin : l.used d + l.reserved d ≤ l.limit d)
    (hreserved : l.reserved d = db.heldUnits l.id d)
    (hused : l.used d = db.spentUnits l.id d) : Accounted db l d where
  used_nonneg := by
    rw [hused, spentUnits_eq_total]
    exact total_ite_nonneg _ _ _ fun r hr => (hok r hr).spentUnits_nonneg d
  reserved_nonneg := by
    rw [hreserved, heldUnits_eq_total]
    exact total_ite_nonneg _ _ _ fun r hr => (hok r hr).heldUnits_nonneg d
  within := hwithin
  reserved := hreserved
  used := hused

/-- A reservation's open capacity and spending do not grow by settling it, except that cost
may: it settles at the actual value. -/
theorem Settled.units_le {db db' : Db} {r r' : AgentBudgetReservation} {l l' : AgentBudgetLedger}
    (h : Settled db db' r r' l l') (hok : ReservationOk db r) (d : Dimension)
    (hd : d ≠ .cost ∨ r'.committed = false) :
    r'.heldUnits d + r'.spentUnits d ≤ r.heldUnits d + r.spentUnits d := by
  have hunits := h.same.units
  have hnonneg := hok.nonneg d
  have hspent : r'.committed = true → r'.spent d = r.units.get d := by
    intro hc
    rcases hd with hd | hd
    · cases d with
      | cost => exact absurd rfl hd
      | step => simp [AgentBudgetReservation.spent, hunits]
      | token => simp [AgentBudgetReservation.spent, hunits]
      | providerCall => simp [AgentBudgetReservation.spent, hunits]
    · rw [hc] at hd; cases hd
  -- one case for each edge of the lifecycle
  have hstep := h.status
  unfold AgentBudgetReservation.heldUnits AgentBudgetReservation.spentUnits
    AgentBudgetReservation.held AgentBudgetReservation.committed at *
  generalize hs : r.status = s at *
  generalize hs' : r'.status = s' at *
  cases hstep <;> simp_all

/-! ### The steps keep the ledger invariant -/

theorem ledgerInv_of_ledgerCreated {db db' : Db} (hI : LedgerInv db) {l : AgentBudgetLedger}
    {ledgers : Table AgentBudgetLedger AgentBudgetLedger.id}
    (hinsert : db.ledgers.insert l = some ledgers) (hcheck : l.check = true)
    (hzero : ∀ d, l.used d = 0 ∧ l.reserved d = 0) (hdb : db' = { db with ledgers }) :
    LedgerInv db' := by
  subst hdb
  have hrows := Table.rows_of_insert hinsert
  -- old reservations keep their ledgers
  have hok : ∀ r ∈ db.reservations.rows, ReservationOk { db with ledgers } r := by
    intro r hr
    obtain ⟨⟨x, hx, hxid⟩, hnonneg, hactual⟩ := hI.reservations r hr
    exact ⟨⟨x, by rw [hrows]; exact List.mem_append_left _ hx, hxid⟩, hnonneg, hactual⟩
  refine ⟨hok, fun x hx d => ?_⟩
  rw [hrows, List.mem_append, List.mem_singleton] at hx
  rcases hx with hx | rfl
  · obtain ⟨h1, h2, h3, h4, h5⟩ := hI.ledgers x hx d
    exact ⟨h1, h2, h3, h4, h5⟩
  · -- no reservation can belong to an id that was free
    have hnone : ∀ r ∈ db.reservations.rows, r.ledgerId ≠ x.id := by
      intro r hr hid
      obtain ⟨y, hy, hyid⟩ := (hI.reservations r hr).ledger
      exact Table.key_fresh_of_insert hinsert y hy (hyid.trans hid)
    have hempty : ∀ f : AgentBudgetReservation → Int,
        (db.reservations.total fun r => if r.ledgerId = x.id then f r else 0) = 0 := by
      intro f
      rw [Table.total_congr (g := fun _ => 0) _ fun r hr => if_neg (hnone r hr)]
      simp [Table.total]
    refine Accounted.of_sums hok ?_ ?_ ?_
    · rw [(hzero d).1, (hzero d).2]
      simp only [AgentBudgetLedger.check, Bool.and_eq_true, decide_eq_true_eq] at hcheck
      cases d <;> simp only [AgentBudgetLedger.limit] <;> omega
    · rw [(hzero d).2, heldUnits_eq_total]
      exact (hempty _).symm
    · rw [(hzero d).1, spentUnits_eq_total]
      exact (hempty _).symm

/-- Replacing one ledger row keeps every reservation's ledger in place. -/
theorem ledger_mem_put {db : Db} {l l' : AgentBudgetLedger} (hl : l ∈ db.ledgers.rows)
    (hid : l'.id = l.id) {id : Uuid} (h : ∃ x ∈ db.ledgers.rows, x.id = id) :
    ∃ x ∈ (db.ledgers.put l').rows, x.id = id := by
  obtain ⟨x, hx, rfl⟩ := h
  by_cases hxl : x.id = l.id
  · exact ⟨l', (Table.mem_put _ ⟨l, hl, hid.symm⟩).mpr (Or.inl rfl), hid.trans hxl.symm⟩
  · exact ⟨x, (Table.mem_put _ ⟨l, hl, hid.symm⟩).mpr (Or.inr ⟨hx, hid ▸ hxl⟩), rfl⟩

theorem ledgerInv_of_claimed {db db' : Db} (hI : LedgerInv db) {r : AgentBudgetReservation}
    {l l' : AgentBudgetLedger} (h : Claimed db db' r l l') : LedgerInv db' := by
  obtain ⟨hl, hlid, -⟩ := findLedger_some h.ledger
  have hrows := Table.rows_of_insert h.inserted
  have hok : ∀ x ∈ db'.reservations.rows, ReservationOk db' x := by
    intro x hx
    rw [hrows, List.mem_append, List.mem_singleton] at hx
    rcases hx with hx | rfl
    · obtain ⟨hledger, hnonneg, hactual⟩ := hI.reservations x hx
      exact ⟨h.ledgers ▸ ledger_mem_put hl h.moved.id hledger, hnonneg, hactual⟩
    · refine ⟨h.ledgers ▸ ledger_mem_put hl h.moved.id ⟨l, hl, hlid⟩, h.fresh.nonneg, ?_⟩
      simp [AgentBudgetReservation.committed, h.fresh.status]
  -- both sums gain the contribution of the new row
  have hsum : ∀ (id : Uuid) (f : AgentBudgetReservation → Int),
      (db'.reservations.total fun x => if x.ledgerId = id then f x else 0)
        = (db.reservations.total fun x => if x.ledgerId = id then f x else 0)
          + if r.ledgerId = id then f r else 0 :=
    fun id f => Table.total_insert h.inserted _
  refine ⟨hok, fun x hx d => ?_⟩
  rw [h.ledgers, Table.mem_put _ ⟨l, hl, h.moved.id.symm⟩] at hx
  rcases hx with rfl | ⟨hx, hne⟩
  · -- the claimed ledger: both copies grow by the new row
    have hacc := hI.ledgers l hl d
    have hrl : r.ledgerId = x.id := hlid.symm.trans h.moved.id.symm
    have hheld : r.heldUnits d = r.units.get d := by
      simp [AgentBudgetReservation.heldUnits, AgentBudgetReservation.held, h.fresh.status]
    have hspent : r.spentUnits d = 0 := by
      simp [AgentBudgetReservation.spentUnits, AgentBudgetReservation.committed, h.fresh.status]
    refine Accounted.of_sums hok ?_ ?_ ?_
    · have hfits := h.fits d
      rw [h.moved.used d, h.moved.reserved d, h.moved.limit d, hheld, hspent]
      omega
    · rw [h.moved.reserved d, heldUnits_eq_total, hsum, if_pos hrl, hacc.reserved,
        heldUnits_eq_total, h.moved.id]
    · rw [h.moved.used d, spentUnits_eq_total, hsum, if_pos hrl, hacc.used,
        spentUnits_eq_total, h.moved.id]
  · -- any other ledger: the new row is not its own
    have hacc := hI.ledgers x hx d
    have hrx : r.ledgerId ≠ x.id := fun hrx => hne (hrx.symm.trans (hlid.symm.trans h.moved.id.symm))
    refine Accounted.of_sums hok hacc.within ?_ ?_
    · rw [heldUnits_eq_total, hsum, if_neg hrx, add_zero, ← heldUnits_eq_total]
      exact hacc.reserved
    · rw [spentUnits_eq_total, hsum, if_neg hrx, add_zero, ← spentUnits_eq_total]
      exact hacc.used

theorem ledgerInv_of_settled {db db' : Db} (hI : LedgerInv db) {r r' : AgentBudgetReservation}
    {l l' : AgentBudgetLedger} (h : Settled db db' r r' l l') : LedgerInv db' := by
  obtain ⟨hl, hlid, -⟩ := findLedger_some h.ledger
  have hok : ∀ x ∈ db'.reservations.rows, ReservationOk db' x := by
    intro x hx
    rcases h.mem_iff.mp hx with rfl | ⟨hx, -⟩
    · obtain ⟨hledger, hnonneg, -⟩ := hI.reservations r h.mem
      refine ⟨h.ledgers ▸ ledger_mem_put hl h.moved.id (h.same.ledgerId ▸ hledger), ?_, h.actual⟩
      rw [h.same.units]
      exact hnonneg
    · obtain ⟨hledger, hnonneg, hactual⟩ := hI.reservations x hx
      exact ⟨h.ledgers ▸ ledger_mem_put hl h.moved.id hledger, hnonneg, hactual⟩
  -- both sums trade the old contribution for the new one
  have hsum : ∀ (id : Uuid) (f : AgentBudgetReservation → Int),
      (db'.reservations.total fun x => if x.ledgerId = id then f x else 0)
        = (db.reservations.total fun x => if x.ledgerId = id then f x else 0)
          - (if r.ledgerId = id then f r else 0) + if r'.ledgerId = id then f r' else 0 :=
    fun id f => h.reservations ▸ Table.total_put _ h.mem h.same.id _
  refine ⟨hok, fun x hx d => ?_⟩
  rw [h.ledgers, Table.mem_put _ ⟨l, hl, h.moved.id.symm⟩] at hx
  rcases hx with rfl | ⟨hx, hne⟩
  · -- the settled ledger: both copies move by the difference of the two rows
    have hacc := hI.ledgers l hl d
    have hrl : r.ledgerId = x.id := hlid.symm.trans h.moved.id.symm
    have hrl' : r'.ledgerId = x.id := h.same.ledgerId.trans hrl
    refine Accounted.of_sums hok ?_ ?_ ?_
    · -- only a committed cost can grow, and that is what the guard bounds
      by_cases hd : d ≠ .cost ∨ r'.committed = false
      · have hle := h.units_le (hI.reservations r h.mem) d hd
        have hwithin := hacc.within
        rw [h.moved.used d, h.moved.reserved d, h.moved.limit d]
        omega
      · simp only [ne_eq, not_or, Decidable.not_not, Bool.not_eq_false] at hd
        obtain ⟨rfl, hc⟩ := hd
        exact h.costFits hc
    · rw [h.moved.reserved d, heldUnits_eq_total, hsum, if_pos hrl, if_pos hrl', hacc.reserved,
        heldUnits_eq_total, h.moved.id]
      omega
    · rw [h.moved.used d, spentUnits_eq_total, hsum, if_pos hrl, if_pos hrl', hacc.used,
        spentUnits_eq_total, h.moved.id]
      omega
  · have hacc := hI.ledgers x hx d
    have hrx : r.ledgerId ≠ x.id := fun hrx => hne (hrx.symm.trans (hlid.symm.trans h.moved.id.symm))
    have hrx' : r'.ledgerId ≠ x.id := h.same.ledgerId ▸ hrx
    refine Accounted.of_sums hok hacc.within ?_ ?_
    · rw [heldUnits_eq_total, hsum, if_neg hrx, if_neg hrx', sub_zero, add_zero,
        ← heldUnits_eq_total]
      exact hacc.reserved
    · rw [spentUnits_eq_total, hsum, if_neg hrx, if_neg hrx', sub_zero, add_zero,
        ← spentUnits_eq_total]
      exact hacc.used

theorem ledgerInv_step (s : System) (a : Label) (hI : LedgerInv s.db) :
    LedgerInv (step s a).db := by
  cases step_effect s a with
  | unchanged h => rw [h]; exact hI
  | tenants tenants h =>
    rw [h]
    refine ⟨fun r hr => ?_, fun l hl d => ?_⟩
    · obtain ⟨h1, h2, h3⟩ := hI.reservations r hr
      exact ⟨h1, h2, h3⟩
    · obtain ⟨h1, h2, h3, h4, h5⟩ := hI.ledgers l hl d
      exact ⟨h1, h2, h3, h4, h5⟩
  | ledgerCreated l ledgers hinsert hcheck hzero h =>
    exact ledgerInv_of_ledgerCreated hI hinsert hcheck hzero h
  | claimed r l l' h => exact ledgerInv_of_claimed hI h
  | settled r r' l l' h => exact ledgerInv_of_settled hI h

theorem ledgerInv_init (tenants : Table Tenant Tenant.id) :
    LedgerInv (System.init tenants).db where
  reservations := by simp [System.init]
  ledgers := by simp [System.init]

/-- The ledger invariant in every state of every run. -/
theorem ledgerInv_exec (tenants : Table Tenant Tenant.id) (run : List Label) :
    LedgerInv (exec step (System.init tenants) run).db :=
  exec_inv (I := fun s : System => LedgerInv s.db) ledgerInv_step (ledgerInv_init tenants) run

/-- **Ledger accounting.** In every state any interleaving of the service's calls can reach,
for every ledger and every dimension: neither counter is negative, the two together stay
within the limit, the reserved counter is the sum over the ledger's `RESERVED` and `UNKNOWN`
reservations of their units, and the used counter the sum over its `COMMITTED` ones (for
cost, of their actual costs, which every committed reservation has). -/
theorem ledger_accounts (tenants : Table Tenant Tenant.id) (run : List Label) :
    let db := (exec step (System.init tenants) run).db
    (∀ l ∈ db.ledgers.rows, ∀ d,
      0 ≤ l.used d ∧ 0 ≤ l.reserved d ∧ l.used d + l.reserved d ≤ l.limit d
        ∧ l.reserved d = db.heldUnits l.id d ∧ l.used d = db.spentUnits l.id d)
      ∧ ∀ r ∈ db.reservations.rows, r.status = .COMMITTED → r.actualCostMinorUnits.isSome := by
  have hI := ledgerInv_exec tenants run
  refine ⟨fun l hl d => ?_, fun r hr hc => ?_⟩
  · obtain ⟨h1, h2, h3, h4, h5⟩ := hI.ledgers l hl d
    exact ⟨h1, h2, h3, h4, h5⟩
  · obtain ⟨c, -, hactual⟩ := (hI.reservations r hr).actual
      (by simp [AgentBudgetReservation.committed, hc])
    simp [hactual]

/-! ## The tenant aggregate -/

/-- What the tenant's usage rows hold, summed over the months. -/
def Db.usageReserved (db : Db) (tenantId : Uuid) (d : AggregateDimension) : Int :=
  ((db.usage.rows.filter fun u => u.tenantId = tenantId).map fun u => u.reserved d).sum

/-- What the tenant's usage rows have spent, summed over the months. -/
def Db.usageUsed (db : Db) (tenantId : Uuid) (d : AggregateDimension) : Int :=
  ((db.usage.rows.filter fun u => u.tenantId = tenantId).map fun u => u.used d).sum

/-- What the tenant's open reservations hold. -/
def Db.tenantHeld (db : Db) (tenantId : Uuid) (d : AggregateDimension) : Int :=
  ((db.reservations.rows.filter fun r => r.tenantId = tenantId && r.held).map
    fun r => r.units.get d.toDimension).sum

/-- What the tenant's committed reservations spent. -/
def Db.tenantSpent (db : Db) (tenantId : Uuid) (d : AggregateDimension) : Int :=
  ((db.reservations.rows.filter fun r => r.tenantId = tenantId && r.committed).map
    fun r => r.spent d.toDimension).sum

/-- What a reservation contributes to its window: nothing when it has none. -/
def AgentBudgetReservation.windowed (r : AgentBudgetReservation) (amount : Int) : Int :=
  if r.aggregateWindowStart.isSome then amount else 0

/-- The usage rows of a tenant sum to what its reservations hold and spent through a window,
and a reservation without a window has no provider calls and no reserved cost. -/
structure AggregateInv (db : Db) : Prop where
  reserved : ∀ t d, (db.usage.total fun u => if u.tenantId = t then u.reserved d else 0)
    = db.reservations.total fun r =>
      if r.tenantId = t then r.windowed (r.heldUnits d.toDimension) else 0
  used : ∀ t d, (db.usage.total fun u => if u.tenantId = t then u.used d else 0)
    = db.reservations.total fun r =>
      if r.tenantId = t then r.windowed (r.spentUnits d.toDimension) else 0
  free : ∀ r ∈ db.reservations.rows, r.aggregateWindowStart = none →
    ∀ d : AggregateDimension, r.units.get d.toDimension = 0

/-- Moving a usage row moves its tenant's sums by the same amounts, and no other tenant's. -/
theorem UsageMoves.totals {usage usage' : UsageTable} {tenantId : Uuid}
    {dReserved dUsed : AggregateDimension → Int}
    (h : UsageMoves usage usage' tenantId dReserved dUsed) (t : Uuid) (d : AggregateDimension) :
    ((usage'.total fun u => if u.tenantId = t then u.reserved d else 0)
        = (usage.total fun u => if u.tenantId = t then u.reserved d else 0)
          + if tenantId = t then dReserved d else 0)
      ∧ (usage'.total fun u => if u.tenantId = t then u.used d else 0)
        = (usage.total fun u => if u.tenantId = t then u.used d else 0)
          + if tenantId = t then dUsed d else 0 := by
  cases h with
  | same h hreserved hused => simp [h, hreserved d, hused d]
  | row u u' hu htenant hmoved h =>
    subst h htenant
    have htenant' : u'.tenantId = u.tenantId := congrArg Prod.fst hmoved.key
    rw [Table.total_put _ hu hmoved.key, Table.total_put _ hu hmoved.key, htenant']
    by_cases ht : u.tenantId = t
    · simp only [ht, if_true, hmoved.reserved d, hmoved.used d]
      omega
    · simp [ht]

theorem aggregateInv_of_claimed {db db' : Db} (hI : AggregateInv db)
    {r : AgentBudgetReservation} {l l' : AgentBudgetLedger} (h : Claimed db db' r l l') :
    AggregateInv db' := by
  obtain ⟨mid, hmid, hmoves⟩ := h.usage
  -- the month's row is new with zero counters, if it is new at all
  have hmidTotal : ∀ t d,
      (mid.total fun u => if u.tenantId = t then u.reserved d else 0)
        = (db.usage.total fun u => if u.tenantId = t then u.reserved d else 0)
      ∧ (mid.total fun u => if u.tenantId = t then u.used d else 0)
        = (db.usage.total fun u => if u.tenantId = t then u.used d else 0) := by
    intro t d
    rcases hmid with rfl | ⟨u, hzero, hinsert⟩
    · exact ⟨rfl, rfl⟩
    · rw [Table.total_insert hinsert, Table.total_insert hinsert, (hzero d).1, (hzero d).2]
      simp
  have hspent : ∀ d, r.spentUnits d = 0 := fun d => by
    simp [AgentBudgetReservation.spentUnits, AgentBudgetReservation.committed, h.fresh.status]
  refine ⟨fun t d => ?_, fun t d => ?_, fun x hx => ?_⟩
  · rw [(hmoves.totals t d).1, (hmidTotal t d).1, Table.total_insert h.inserted, hI.reserved t d]
    rfl
  · rw [(hmoves.totals t d).2, (hmidTotal t d).2, Table.total_insert h.inserted, hI.used t d]
    simp [AgentBudgetReservation.windowed, hspent]
  · rw [Table.rows_of_insert h.inserted, List.mem_append, List.mem_singleton] at hx
    rcases hx with hx | rfl
    · exact hI.free x hx
    · exact h.fresh.window

theorem aggregateInv_of_settled {db db' : Db} (hI : AggregateInv db)
    {r r' : AgentBudgetReservation} {l l' : AgentBudgetLedger} (h : Settled db db' r r' l l') :
    AggregateInv db' := by
  -- the window is part of the claim and is never rewritten
  have hwindowed : ∀ amount, r'.windowed amount = r.windowed amount := fun amount => by
    rw [AgentBudgetReservation.windowed, AgentBudgetReservation.windowed, h.same.window]
  refine ⟨fun t d => ?_, fun t d => ?_, fun x hx => ?_⟩
  · rw [(h.usage.totals t d).1, h.reservations, Table.total_put _ h.mem h.same.id,
      hI.reserved t d, h.same.tenantId, hwindowed]
    by_cases ht : r.tenantId = t
    · simp only [ht, if_true, AgentBudgetReservation.windowed]
      split <;> omega
    · simp [ht]
  · rw [(h.usage.totals t d).2, h.reservations, Table.total_put _ h.mem h.same.id,
      hI.used t d, h.same.tenantId, hwindowed]
    by_cases ht : r.tenantId = t
    · simp only [ht, if_true, AgentBudgetReservation.windowed]
      split <;> omega
    · simp [ht]
  · rcases h.mem_iff.mp hx with rfl | ⟨hx, -⟩
    · rw [h.same.window, h.same.units]
      exact hI.free r h.mem
    · exact hI.free x hx

theorem aggregateInv_step (s : System) (a : Label) (hI : AggregateInv s.db) :
    AggregateInv (step s a).db := by
  cases step_effect s a with
  | unchanged h => rw [h]; exact hI
  | tenants tenants h => rw [h]; exact ⟨hI.reserved, hI.used, hI.free⟩
  | ledgerCreated l ledgers _ _ _ h => rw [h]; exact ⟨hI.reserved, hI.used, hI.free⟩
  | claimed r l l' h => exact aggregateInv_of_claimed hI h
  | settled r r' l l' h => exact aggregateInv_of_settled hI h

theorem aggregateInv_init (tenants : Table Tenant Tenant.id) :
    AggregateInv (System.init tenants).db where
  reserved := fun _ _ => rfl
  used := fun _ _ => rfl
  free := by simp [System.init]

/-! ## Free reservations

A reservation without provider calls and reserved cost has no window. The aggregate misses
what such a reservation spends, so it stays in step exactly as long as none of them is
committed at a positive cost. -/

/-- The side condition of a step: a `commit` of an open reservation that reserved neither
provider calls nor cost names no actual cost, or zero. -/
def CommitsFreeWorkFree (s : System) : Label → Prop
  | .commit _ input => ∀ r ∈ s.db.reservations.rows, r.id = input.reservationId → r.held →
      r.units.providerCallUnits = 0 → r.units.costMinorUnits = 0 →
        input.actualCostMinorUnits = none ∨ input.actualCostMinorUnits = some (.int 0)
  | _ => True

instance (s : System) (a : Label) : Decidable (CommitsFreeWorkFree s a) := by
  cases a <;> unfold CommitsFreeWorkFree <;> infer_instance

/-- No reservation without a window has spent anything. -/
def FreeSpendsNothing (db : Db) : Prop :=
  ∀ r ∈ db.reservations.rows, r.aggregateWindowStart = none → r.spentUnits .cost = 0

/-- Settling keeps free reservations free when the settled row, if it has no window, spends
nothing. -/
theorem freeSpendsNothing_of_settled {db db' : Db} (hI : FreeSpendsNothing db)
    {r r' : AgentBudgetReservation} {l l' : AgentBudgetLedger} (h : Settled db db' r r' l l')
    (hspent : r.aggregateWindowStart = none → r'.spentUnits .cost = 0) : FreeSpendsNothing db' := by
  intro x hx hnone
  rcases h.mem_iff.mp hx with rfl | ⟨hx, -⟩
  · exact hspent (h.same.window ▸ hnone)
  · exact hI x hx hnone

theorem spentUnits_of_not_committed {r : AgentBudgetReservation} (h : r.status ≠ .COMMITTED)
    (d : Dimension) : r.spentUnits d = 0 := by
  simp [AgentBudgetReservation.spentUnits, AgentBudgetReservation.committed, h]

theorem freeSpendsNothing_step (s : System) (a : Label) (hA : AggregateInv s.db)
    (hI : FreeSpendsNothing s.db) (hG : CommitsFreeWorkFree s a) :
    FreeSpendsNothing (step s a).db := by
  cases a with
  | commit env input =>
    rcases settle_db s (Budget.commit s.db env input) with h | ⟨rc, h⟩
    · rw [show (step s (.commit env input)).db = s.db from h]; exact hI
    · obtain ⟨r, l, -, hid, -, ⟨h, -⟩ | ⟨r', l', hsettled, hstatus, hactual⟩⟩ := commit_ok h
      · rw [show (step s (.commit env input)).db = s.db from h]; exact hI
      · refine freeSpendsNothing_of_settled hI hsettled fun hnone => ?_
        -- no window: nothing was reserved, so the side condition fixes the actual cost
        have hcalls : r.units.providerCallUnits = 0 := hA.free r hsettled.mem hnone .providerCall
        have hcost : r.units.costMinorUnits = 0 := hA.free r hsettled.mem hnone .cost
        have hzero : input.settledCost r = 0 := by
          unfold CommitInput.settledCost
          rcases hG r hsettled.mem hid (held_of_statusStep hsettled.status) hcalls hcost
            with hin | hin <;> simp [hin, hcost]
        simp [AgentBudgetReservation.spentUnits, AgentBudgetReservation.committed, hstatus,
          AgentBudgetReservation.spent, hactual, hzero]
  | release env tenantId reservationId resolution =>
    rcases settle_db s (Budget.release s.db env tenantId reservationId resolution)
      with h | ⟨rc, h⟩
    · rw [show (step s (.release env tenantId reservationId resolution)).db = s.db from h]
      exact hI
    · obtain ⟨r, l, -, -, -, ⟨h, -⟩ | ⟨r', l', hsettled, hstatus⟩⟩ := release_ok h
      · rw [show (step s (.release env tenantId reservationId resolution)).db = s.db from h]
        exact hI
      · exact freeSpendsNothing_of_settled hI hsettled fun _ =>
          spentUnits_of_not_committed (by rw [hstatus]; decide) _
  | markUnknown env tenantId reservationId =>
    rcases settle_db s (Budget.markUnknown s.db env tenantId reservationId) with h | ⟨rc, h⟩
    · rw [show (step s (.markUnknown env tenantId reservationId)).db = s.db from h]; exact hI
    · obtain ⟨r, l, -, -, -, ⟨h, -⟩ | ⟨r', hsettled, hstatus, -, -⟩⟩ := markUnknown_ok h
      · rw [show (step s (.markUnknown env tenantId reservationId)).db = s.db from h]; exact hI
      · exact freeSpendsNothing_of_settled hI hsettled fun _ =>
          spentUnits_of_not_committed (by rw [hstatus]; decide) _
  | reserveClaim call env newId =>
    rcases reserveClaim_step s call env newId with h | ⟨_, _, r, l, l', _, hclaimed, _⟩
    · rw [show (step s (.reserveClaim call env newId)).db = s.db from h]; exact hI
    · intro x hx hnone
      rw [show (step s (.reserveClaim call env newId)).db.reservations.rows = _ from
        Table.rows_of_insert hclaimed.inserted, List.mem_append, List.mem_singleton] at hx
      rcases hx with hx | rfl
      · exact hI x hx hnone
      · exact spentUnits_of_not_committed (by rw [hclaimed.fresh.status]; decide) _
  | reserveRead call env input =>
    rw [show (step s (.reserveRead call env input)).db = s.db from reserveRead_db s call env input]
    exact hI
  | reserveRecover call env =>
    rw [show (step s (.reserveRecover call env)).db = s.db from reserveRecover_db s call env]
    exact hI
  | createOrLoad env newId input =>
    have hres : (step s (.createOrLoad env newId input)).db.reservations = s.db.reservations :=
      createOrLoad_reservations s.db env newId input
    intro x hx
    exact hI x (hres ▸ hx)
  | setTenantBudget tenant =>
    have hres : (step s (.setTenantBudget tenant)).db.reservations = s.db.reservations := by
      simp only [step, System.react, System.setTenantBudget]
      split <;> rfl
    intro x hx
    exact hI x (hres ▸ hx)

/-! ### The aggregate along guarded runs -/

theorem usageReserved_eq_total (db : Db) (tenantId : Uuid) (d : AggregateDimension) :
    db.usageReserved tenantId d
      = db.usage.total fun u => if u.tenantId = tenantId then u.reserved d else 0 := by
  rw [Db.usageReserved, Table.sum_filter_eq_total]
  exact Table.total_congr _ fun u _ => by simp

theorem usageUsed_eq_total (db : Db) (tenantId : Uuid) (d : AggregateDimension) :
    db.usageUsed tenantId d
      = db.usage.total fun u => if u.tenantId = tenantId then u.used d else 0 := by
  rw [Db.usageUsed, Table.sum_filter_eq_total]
  exact Table.total_congr _ fun u _ => by simp

theorem tenantHeld_eq_total (db : Db) (tenantId : Uuid) (d : AggregateDimension) :
    db.tenantHeld tenantId d = db.reservations.total fun r =>
      if r.tenantId = tenantId then r.heldUnits d.toDimension else 0 := by
  rw [Db.tenantHeld, Table.sum_filter_eq_total]
  refine Table.total_congr _ fun r _ => ?_
  by_cases h : r.tenantId = tenantId <;> simp [h, AgentBudgetReservation.heldUnits]

theorem tenantSpent_eq_total (db : Db) (tenantId : Uuid) (d : AggregateDimension) :
    db.tenantSpent tenantId d = db.reservations.total fun r =>
      if r.tenantId = tenantId then r.spentUnits d.toDimension else 0 := by
  rw [Db.tenantSpent, Table.sum_filter_eq_total]
  refine Table.total_congr _ fun r _ => ?_
  by_cases h : r.tenantId = tenantId <;> simp [h, AgentBudgetReservation.spentUnits]

/-- While free reservations spend nothing, what a reservation moves through its window is all
it moves. -/
theorem windowed_eq {db : Db} (hA : AggregateInv db) (hF : FreeSpendsNothing db)
    {r : AgentBudgetReservation} (hr : r ∈ db.reservations.rows) (d : AggregateDimension) :
    r.windowed (r.heldUnits d.toDimension) = r.heldUnits d.toDimension
      ∧ r.windowed (r.spentUnits d.toDimension) = r.spentUnits d.toDimension := by
  cases hw : r.aggregateWindowStart with
  | some w => simp [AgentBudgetReservation.windowed, hw]
  -- without a window nothing was reserved, and by `hF` nothing was spent
  | none =>
    have hunits := hA.free r hr hw d
    have hheld : r.heldUnits d.toDimension = 0 := by
      simp [AgentBudgetReservation.heldUnits, hunits]
    have hspent : r.spentUnits d.toDimension = 0 := by
      cases d with
      | cost => exact hF r hr hw
      | providerCall =>
        simp only [AggregateDimension.toDimension] at hunits
        simp [AgentBudgetReservation.spentUnits, AgentBudgetReservation.spent,
          AggregateDimension.toDimension, hunits]
    simp [AgentBudgetReservation.windowed, hw, hheld, hspent]

/-- **The tenant aggregate.** Along every run in which each `commit` of an open reservation
that reserved neither provider calls nor cost names no actual cost or zero, for every tenant:
summed over the months, the usage rows' used counters are what the tenant's committed
reservations spent and their reserved counters what its open ones hold. -/
theorem aggregate_accounts (tenants : Table Tenant Tenant.id) (run : List Label)
    (hrun : AllSteps step CommitsFreeWorkFree (System.init tenants) run) (tenantId : Uuid)
    (d : AggregateDimension) :
    let db := (exec step (System.init tenants) run).db
    db.usageUsed tenantId d = db.tenantSpent tenantId d
      ∧ db.usageReserved tenantId d = db.tenantHeld tenantId d := by
  have hinv : AggregateInv (exec step (System.init tenants) run).db
      ∧ FreeSpendsNothing (exec step (System.init tenants) run).db :=
    exec_inv_of_allSteps (I := fun s : System => AggregateInv s.db ∧ FreeSpendsNothing s.db)
      (fun s a hI hG => ⟨aggregateInv_step s a hI.1, freeSpendsNothing_step s a hI.1 hI.2 hG⟩)
      ⟨aggregateInv_init tenants, fun r hr => by simp [System.init] at hr⟩ hrun
  -- the usage rows follow the windowed amounts, and these are all there is
  obtain ⟨hA, hF⟩ := hinv
  intro db
  constructor
  · rw [usageUsed_eq_total, tenantSpent_eq_total, hA.used tenantId d]
    exact Table.total_congr _ fun r hr => by rw [(windowed_eq hA hF hr d).2]
  · rw [usageReserved_eq_total, tenantHeld_eq_total, hA.reserved tenantId d]
    exact Table.total_congr _ fun r hr => by rw [(windowed_eq hA hF hr d).1]

/-- One tenant with a monthly allowance, and the clocks of 2026-08-15T12:00Z. -/
def allowedTenants : Table Tenant Tenant.id where
  rows := [{ id := 1, agentMonthlyProviderCallLimit := some 100,
             agentMonthlyCostLimitMinorUnits := some 100000, agentBudgetCurrency := some "USD" }]
  nodup := by decide

def noon : Env := { dbNow := 1786795200000, processNow := 1786795200000 }

/-- A run of one caller: a ledger with id 7, a reservation of `units` with id 9 whose outcome
stays unknown, and a reviewer's reconciliation at an actual cost of 5. -/
def reconcileRun (units : AgentBudgetUnits JsNumber) : List Label :=
  [.createOrLoad noon 7
    { tenantId := 1, caseId := 3, workflowRunId := "run-1", stepLimit := .int 10,
      tokenLimit := .int 10, providerCallLimit := .int 10, costLimitMinorUnits := .int 100,
      currency := "USD", startedAt := 1786795000000, deadlineAt := 1786799000000 },
   .reserveRead 0 noon
    { tenantId := 1, ledgerId := 7, idempotencyKey := "key", expectedVersion := 1, units },
   .reserveClaim 0 noon 9,
   .markUnknown noon 1 9,
   .commit noon
    { tenantId := 1, reservationId := 9, actualCostMinorUnits := some (.int 5),
      requireUnknown := true, resolvedBy := some "reviewer",
      resolutionNote := some "invoice of the provider" }]

/-- A cost-bearing reservation meets the side condition, and its settled cost arrives. -/
theorem aggregate_accounts_costBearing :
    AllSteps step CommitsFreeWorkFree (System.init allowedTenants)
        (reconcileRun ⟨.int 1, .int 0, .int 1, .int 20⟩)
      ∧ (exec step (System.init allowedTenants)
          (reconcileRun ⟨.int 1, .int 0, .int 1, .int 20⟩)).db.usageUsed 1 .cost = 5 :=
  ⟨by decide,
    (aggregate_accounts allowedTenants _ (by decide) 1 .cost).1.trans (by decide)⟩

/-- **The aggregate misses a free commit.** A reservation of one step, reconciled at an actual
cost of 5: the ledger and the reservation say 5, the tenant's month says 0. -/
theorem aggregate_misses_free_commit :
    ¬ ∀ (tenants : Table Tenant Tenant.id) (run : List Label) (tenantId : Uuid)
        (d : AggregateDimension),
      let db := (exec step (System.init tenants) run).db
      db.usageUsed tenantId d = db.tenantSpent tenantId d
        ∧ db.usageReserved tenantId d = db.tenantHeld tenantId d := by
  intro h
  have h5 := (h allowedTenants (reconcileRun ⟨.int 1, .int 0, .int 0, .int 0⟩) 1 .cost).1
  revert h5
  decide

end MortgageAgent.Budget
