import MortgageAgent.Budget.CommitErrors

/-!
# The window a reservation names

`reserve` increments the tenant's usage row of the month and writes the row's `windowStart` on
the reservation, by way of a `Date` at local midnight that is printed in UTC. The settling calls
look the usage row up by what was written.

* **`windowStartText_eq_iff`** — the day comes back as it was exactly at offsets at or behind UTC
  by less than a day.
* **`WindowInv`** — the reserved columns of each usage row are what the reservations that name it
  hold, so a held reservation finds its row, and the row covers it.
* **`windowsSettle_iff`** — every claim writes the window of the row it incremented, and every held
  reservation settles in its row, exactly at those offsets.
-/

namespace MortgageAgent.Budget

open Runs

/-! ## The text of a window -/

/-- The process is at UTC, or behind it by less than a day. -/
def Env.BehindUtc (env : Env) : Prop := -dayMs < env.utcOffset ∧ env.utcOffset ≤ 0

/-- **A day's text.** Local midnight of the day, printed in UTC, is on the same day only at
offsets at or behind UTC. -/
theorem windowStartText_eq_iff (env : Env) (window : Day) :
    windowStartText env window = window ↔ env.BehindUtc := by
  have hday : ∀ w o : Int, (w * 86400000 - o) / 86400000 = w ↔ -86400000 < o ∧ o ≤ 0 := by
    intro w o
    omega
  exact hday window env.utcOffset

/-! ## Moving one row -/

/-- What the row under `key` holds; nothing where there is none. -/
def reservedAt (usage : UsageTable) (key : Uuid × Day) (d : AggregateDimension) : Int :=
  ((usage.find key).map fun u => u.reserved d).getD 0

/-- A usage row as an update writes it: within its CHECK constraint, and with counters that stay
in range together. -/
structure RowMoved (u u' : TenantAgentBudgetUsage) (dReserved dUsed : AggregateDimension → Int) :
    Prop extends UsageMoved u u' dReserved dUsed where
  check : u'.check = true
  bounded : (∀ d, u.used d + u.reserved d ≤ int4Max) → ∀ d, u'.used d + u'.reserved d ≤ int4Max

/-- The row that the window names moves; without a window, or with nothing to move, none does. -/
inductive WindowMoves (usage usage' : UsageTable) (tenantId : Uuid) (window : Option Day)
    (dReserved dUsed : AggregateDimension → Int) : Prop where
  | same (h : usage' = usage) (hzero : window.isSome → ∀ d, dReserved d = 0)
  | row (w : Day) (u u' : TenantAgentBudgetUsage) (hw : window = some w)
      (hu : usage.find (tenantId, w) = some u) (hmoved : RowMoved u u' dReserved dUsed)
      (h : usage' = usage.put u')

theorem usage_key {usage : UsageTable} {key : Uuid × Day} {u : TenantAgentBudgetUsage}
    (h : usage.find key = some u) : u ∈ usage.rows ∧ u.key = key :=
  (Table.find_eq_some_iff _).mp h

theorem reservedAt_put {usage : UsageTable} {u u' : TenantAgentBudgetUsage} {k : Uuid × Day}
    {dReserved dUsed : AggregateDimension → Int} (hu : usage.find k = some u)
    (hmoved : UsageMoved u u' dReserved dUsed) (key : Uuid × Day) (d : AggregateDimension) :
    reservedAt (usage.put u') key d
      = reservedAt usage key d + if key = k then dReserved d else 0 := by
  have hk : u'.key = k := hmoved.key.trans (usage_key hu).2
  rw [reservedAt, reservedAt, Table.find_put, hk]
  by_cases hkey : key = k
  · subst hkey
    simp [hu, hmoved.reserved d]
  · simp [hkey]

/-- A new row holds nothing, as no row did. -/
theorem reservedAt_insert {usage mid : UsageTable} {u : TenantAgentBudgetUsage}
    (hzero : ∀ d, u.used d = 0 ∧ u.reserved d = 0) (hinsert : usage.insert u = some mid)
    (key : Uuid × Day) (d : AggregateDimension) :
    reservedAt mid key d = reservedAt usage key d := by
  rw [reservedAt, reservedAt, Table.find_insert hinsert]
  split
  · next hkey =>
    have hnone : usage.find key = none := by
      rw [Table.find_eq_none_iff, hkey]
      exact Table.key_fresh_of_insert hinsert
    simp [hnone, (hzero d).2]
  · rfl

theorem WindowMoves.reservedAt {usage usage' : UsageTable} {tenantId : Uuid} {window : Option Day}
    {dReserved dUsed : AggregateDimension → Int}
    (h : WindowMoves usage usage' tenantId window dReserved dUsed) (key : Uuid × Day)
    (d : AggregateDimension) :
    Budget.reservedAt usage' key d = Budget.reservedAt usage key d
      + if tenantId = key.1 ∧ window = some key.2 then dReserved d else 0 := by
  cases h with
  | same h hzero =>
    rw [h]
    split
    · next hkey => rw [hzero (by simp [hkey.2]) d, add_zero]
    · rw [add_zero]
  | row w u u' hw hu hmoved h =>
    rw [h, reservedAt_put hu hmoved.toUsageMoved, hw]
    congr 1
    have hiff : key = (tenantId, w) ↔ tenantId = key.1 ∧ some w = some key.2 := by
      rw [Prod.ext_iff, Option.some.injEq]
      exact and_congr eq_comm eq_comm
    simp only [hiff]

/-! ## What the updates move -/

section updates

variable {db db' : Db} {r : AgentBudgetReservation}

theorem fits_range {used reserved units limit : Int} {b : Bool}
    (h : fits used reserved units limit = .ok b) : used + reserved + units ≤ int4Max := by
  obtain ⟨held, hheld, h⟩ := ok_of_bind_ok h
  obtain ⟨claimed, hclaimed, -⟩ := ok_of_bind_ok h
  have hsum := int4_range hclaimed
  rw [int4Add_eq_ok hheld] at hsum
  exact hsum

theorem aggregateGuard_range {u : TenantAgentBudgetUsage} {t : Tenant} {currency : String}
    {units : AgentBudgetUnits Int} (h : aggregateGuard u t currency units = .ok true)
    (d : AggregateDimension) : u.used d + u.reserved d + units.get d.toDimension ≤ int4Max := by
  unfold aggregateGuard at h
  split at h
  · split at h
    · obtain ⟨hcalls, hcost⟩ := ok_true_of_andM h
      cases d with
      | providerCall => exact fits_range hcalls
      | cost => exact fits_range hcost
    · cases h
  · cases h

theorem writeUsage_check {u : TenantAgentBudgetUsage} (h : db.writeUsage u = .ok db') :
    u.check = true := by
  unfold Db.writeUsage at h
  split at h
  · assumption
  · cases h

/-- The aggregate's update moves the month's row by the units, unless the work is free. -/
theorem reserveTenantAggregate_row {env : Env} {tenantId : Uuid} {currency : String}
    {units : AgentBudgetUnits Int} {window : Option Day}
    (h : reserveTenantAggregate db env tenantId currency units = .ok (db', window)) :
    ∃ usage mid : UsageTable, db' = { db with usage }
      ∧ (mid = db.usage
        ∨ ∃ u, (∀ d, u.used d = 0 ∧ u.reserved d = 0) ∧ db.usage.insert u = some mid)
      ∧ ((window = none ∧ usage = mid)
        ∨ (window = some (windowStartText env (monthStart env.dbNow)) ∧ ¬units.Free
          ∧ WindowMoves mid usage tenantId (some (monthStart env.dbNow))
            (fun d => units.get d.toDimension) fun _ => 0)) := by
  unfold reserveTenantAggregate at h
  split at h
  · cases h
    exact ⟨db.usage, db.usage, rfl, Or.inl rfl, Or.inl ⟨rfl, rfl⟩⟩
  next hfree =>
  obtain ⟨mid, hmid, hcases⟩ :=
    insertUsageIfAbsent_cases db tenantId (monthStart env.dbNow) currency
  simp only [hmid] at h
  split at h
  · next u t hu ht =>
    obtain ⟨pass, hpass, h⟩ := ok_of_bind_ok h
    cases pass with
    | false => cases h
    | true =>
      obtain ⟨u', hu', h⟩ := ok_of_bind_ok h
      obtain ⟨db'', hdb, h⟩ := ok_of_bind_ok h
      cases h
      have hmoved := setUsageReserved_moved (sql_ok hu')
      rw [writeUsage_ok (sql_ok hdb)]
      refine ⟨mid.put u', mid, rfl, hcases, Or.inr ⟨rfl, ?_, .row _ u u' rfl hu ?_ rfl⟩⟩
      · simpa [AgentBudgetUnits.Free] using hfree
      · refine ⟨hmoved, writeUsage_check (sql_ok hdb), fun _ d => ?_⟩
        have hrange := aggregateGuard_range (sql_ok hpass) d
        rw [hmoved.used d, hmoved.reserved d]
        omega
  · cases h

theorem commitTenantAggregate_window {actualCost : Int}
    (h : commitTenantAggregate db r actualCost = .ok db') :
    ∃ usage : UsageTable, db' = { db with usage }
      ∧ WindowMoves db.usage usage r.tenantId r.aggregateWindowStart
        (fun d => -r.units.get d.toDimension)
        (fun d => committedUnits r.units actualCost d.toDimension) := by
  unfold commitTenantAggregate at h
  split at h
  · next hwindow =>
    cases h
    exact ⟨db.usage, rfl, .same rfl (by simp [hwindow])⟩
  · next window hwindow =>
    split at h
    · cases h
    · next u hu =>
      obtain ⟨pass, hpass, h⟩ := ok_of_bind_ok h
      cases pass with
      | false => cases h
      | true =>
        obtain ⟨u', hu', h⟩ := ok_of_bind_ok h
        have hmoved := setUsageCommitted_moved (sql_ok hu')
        refine ⟨db.usage.put u', writeUsage_ok (sql_ok h), .row window u u' hwindow hu ?_ rfl⟩
        refine ⟨hmoved, writeUsage_check (sql_ok h), fun hbound d => ?_⟩
        have hd := hbound d
        rw [hmoved.used d, hmoved.reserved d]
        cases d with
        | providerCall =>
          simp only [committedUnits, AggregateDimension.toDimension, AgentBudgetUnits.get]
          omega
        | cost =>
          -- an actual cost above the reserved one was compared as a sum in range
          have hcost : actualCost ≤ r.units.costMinorUnits
              ∨ u.used .cost + u.reserved .cost - r.units.costMinorUnits + actualCost
                ≤ int4Max := by
            have hguard := sql_ok hpass
            unfold commitAggregateGuard at hguard
            split at hguard
            · split at hguard
              · next hle => exact Or.inl hle
              · split at hguard
                · split at hguard
                  · exact Or.inr (fits_of_costFits hguard).settled
                  · cases hguard
                · cases hguard
            · cases hguard
          simp only [committedUnits, AggregateDimension.toDimension, AgentBudgetUnits.get]
          omega

theorem releaseTenantAggregate_window (hunits : ∀ d, 0 ≤ r.units.get d)
    (h : releaseTenantAggregate db r = .ok db') :
    ∃ usage : UsageTable, db' = { db with usage }
      ∧ WindowMoves db.usage usage r.tenantId r.aggregateWindowStart
        (fun d => -r.units.get d.toDimension) fun _ => 0 := by
  unfold releaseTenantAggregate at h
  split at h
  · next hwindow =>
    cases h
    exact ⟨db.usage, rfl, .same rfl (by simp [hwindow])⟩
  · next window hwindow =>
    split at h
    · cases h
    · next u hu =>
      split at h
      · obtain ⟨u', hu', h⟩ := ok_of_bind_ok h
        have hmoved := setUsageReleased_moved (sql_ok hu')
        refine ⟨db.usage.put u', writeUsage_ok (sql_ok h), .row window u u' hwindow hu ?_ rfl⟩
        refine ⟨hmoved, writeUsage_check (sql_ok h), fun hbound d => ?_⟩
        have hd := hbound d
        have hnonneg := hunits d.toDimension
        rw [hmoved.used d, hmoved.reserved d]
        omega
      · cases h

end updates

/-! ## What a step moves -/

/-- The claim of a call goes as far as its INSERT: its ledger took the units, and the aggregate's
update moved the month's row and returned the window `w` to write. -/
structure Increments (s : System) (call : Nat) (env : Env) (input : ReserveInput)
    (units : AgentBudgetUnits Int) (db' : Db) (w : Day) : Prop where
  call : s.calls call = .claiming input units
  aggregate : ∃ l l', s.db.findLedger input.ledgerId input.tenantId = some l
    ∧ reserveGuard l units input.expectedVersion env.dbNow = .ok true
    ∧ setReserved l units = .ok l'
    ∧ reserveTenantAggregate { s.db with ledgers := s.db.ledgers.put l' } env input.tenantId
      (jsTrim l'.currency) units = .ok (db', some w)

/-- A claim that moves a usage row is made by a process at or behind UTC. -/
def ChargesBehindUtc (s : System) : Label → Prop
  | .reserveClaim call env _ => ∀ input units db' w, Increments s call env input units db' w →
    env.BehindUtc
  | _ => True

/-- What one step does to the usage rows and to the reservations that name them. -/
inductive WindowEffect (db db' : Db) : Prop where
  | quiet (husage : db'.usage = db.usage) (hres : db'.reservations = db.reservations)
  | claimed (r : AgentBudgetReservation) (mid : UsageTable) (hstatus : r.status = .RESERVED)
      (hnonneg : ∀ d, 0 ≤ r.units.get d)
      (hinsert : db.reservations.insert r = some db'.reservations)
      (hmid : mid = db.usage
        ∨ ∃ u, (∀ d, u.used d = 0 ∧ u.reserved d = 0) ∧ db.usage.insert u = some mid)
      (hmoves : WindowMoves mid db'.usage r.tenantId r.aggregateWindowStart
        (fun d => r.units.get d.toDimension) fun _ => 0)
      (hrow : ∀ w, r.aggregateWindowStart = some w → (db'.usage.find (r.tenantId, w)).isSome)
  | settled (r r' : AgentBudgetReservation) (dUsed : AggregateDimension → Int)
      (hmem : r ∈ db.reservations.rows) (hsame : SameClaim r r')
      (hput : db'.reservations = db.reservations.put r')
      (hmoves : WindowMoves db.usage db'.usage r.tenantId r.aggregateWindowStart
        (fun d => r'.heldUnits d.toDimension - r.heldUnits d.toDimension) dUsed)

section effects

variable {db db' : Db} {env : Env} {rc : AgentBudgetReservationReceipt}

/-- The foreign key of a reservation to its usage row. -/
theorem insertReservation_row {r : AgentBudgetReservation} (h : insertReservation db r = .ok db')
    (w : Day) (hw : r.aggregateWindowStart = some w) : (db.usage.find (r.tenantId, w)).isSome := by
  obtain ⟨_, -, h⟩ := ok_of_bind_ok h
  obtain ⟨_, -, h⟩ := ok_of_bind_ok h
  obtain ⟨_, -, h⟩ := ok_of_bind_ok h
  split at h
  · cases h
  split at h
  · cases h
  split at h
  · cases h
  split at h
  · cases h
  split at h
  · cases h
  next hrow =>
  by_contra hnone
  refine hrow ?_
  rw [hw, Option.any_some]
  simpa using hnone

theorem reserveClaim_window {s : System} {call : Nat} {newId : Uuid} {input : ReserveInput}
    {units : AgentBudgetUnits Int} (hcall : s.calls call = .claiming input units)
    (hoffset : ChargesBehindUtc s (.reserveClaim call env newId))
    (h : reserveClaim s.db env newId input units = .ok (db', rc)) : WindowEffect s.db db' := by
  obtain ⟨l, l', window, db₂, hl, hguard, hset, hagg, r, rfl, hwrite, -⟩ := reserveClaim_runs h
  have hbehind : ∀ w, window = some w → env.BehindUtc := by
    rintro w rfl
    exact hoffset input units db₂ w ⟨hcall, l, l', hl, hguard, hset, hagg⟩
  obtain ⟨usage, mid, rfl, hmid, hrows⟩ := reserveTenantAggregate_row hagg
  -- at or behind UTC the window written is the month's
  have hmoves : WindowMoves mid usage input.tenantId window
      (fun d => units.get d.toDimension) fun _ => 0 := by
    obtain ⟨rfl, husage⟩ | ⟨hwindow, -, hmoves⟩ := hrows
    · exact .same husage nofun
    · rwa [hwindow, (windowStartText_eq_iff env _).mpr (hbehind _ hwindow)]
  have hrow := insertReservation_row hwrite
  obtain ⟨hnonneg, -, -, reservations, hinsert, rfl⟩ := insertReservation_ok hwrite
  exact .claimed _ mid rfl hnonneg hinsert hmid hmoves hrow

theorem commitAction_window {input : CommitInput} {actual : Option Int}
    {r : AgentBudgetReservation} {l : AgentBudgetLedger}
    (h : commitAction db env input actual r l = .ok (db', rc)) :
    db' = db ∨ ∃ dUsed, WindowMoves db.usage db'.usage r.tenantId r.aggregateWindowStart
      (fun d => -r.units.get d.toDimension) dUsed := by
  obtain ⟨rfl, -⟩ | ⟨-, -, l', db₂, -, -, hagg, hwrite, -⟩ := commitAction_runs h
  · exact Or.inl rfl
  obtain ⟨usage, rfl, hmoves⟩ := commitTenantAggregate_window hagg
  obtain ⟨-, rfl⟩ := writeReservation_ok hwrite
  exact Or.inr ⟨_, hmoves⟩

theorem releaseAction_window {resolution : Option ReleaseResolution}
    {r : AgentBudgetReservation} {l : AgentBudgetLedger} (hunits : ∀ d, 0 ≤ r.units.get d)
    (h : releaseAction db env resolution r l = .ok (db', rc)) :
    db' = db ∨ ∃ dUsed, WindowMoves db.usage db'.usage r.tenantId r.aggregateWindowStart
      (fun d => -r.units.get d.toDimension) dUsed := by
  obtain ⟨rfl, -⟩ | ⟨-, -, l', db₂, -, hagg, hwrite⟩ := releaseAction_runs h
  · exact Or.inl rfl
  obtain ⟨usage, rfl, hmoves⟩ := releaseTenantAggregate_window hunits hagg
  obtain ⟨-, rfl⟩ := writeReservation_ok hwrite
  exact Or.inr ⟨_, hmoves⟩

/-- A settlement that moved its window's row by the units it held. -/
theorem WindowEffect.of_settled {r r' : AgentBudgetReservation} {l l' : AgentBudgetLedger}
    {dUsed : AggregateDimension → Int} (h : Settled db db' r r' l l') (hheld : r'.held = false)
    (hmoves : WindowMoves db.usage db'.usage r.tenantId r.aggregateWindowStart
      (fun d => -r.units.get d.toDimension) dUsed) : WindowEffect db db' := by
  refine .settled r r' dUsed h.mem h.same h.reservations ?_
  have hunits : (fun d : AggregateDimension =>
      r'.heldUnits d.toDimension - r.heldUnits d.toDimension)
        = fun d => -r.units.get d.toDimension := by
    funext d
    exact heldUnits_settled (held_of_statusStep h.status) hheld _
  rw [hunits]
  exact hmoves

theorem commit_window {input : CommitInput} (h : commit db env input = .ok (db', rc)) :
    db' = db ∨ ∃ r ∈ db.reservations.rows, r.id = input.reservationId
      ∧ ∃ dUsed, WindowMoves db.usage db'.usage r.tenantId r.aggregateWindowStart
        (fun d => -r.units.get d.toDimension) dUsed := by
  obtain ⟨actual, -, r, l, hmem, hid, -, -, haction⟩ := commit_runs h
  exact (commitAction_window haction).imp_right fun hmoves => ⟨r, hmem, hid, hmoves⟩

theorem release_window {tenantId reservationId : Uuid} {resolution : Option ReleaseResolution}
    (hunits : ∀ r ∈ db.reservations.rows, ∀ d, 0 ≤ r.units.get d)
    (h : release db env tenantId reservationId resolution = .ok (db', rc)) :
    db' = db ∨ ∃ r ∈ db.reservations.rows, r.id = reservationId
      ∧ ∃ dUsed, WindowMoves db.usage db'.usage r.tenantId r.aggregateWindowStart
        (fun d => -r.units.get d.toDimension) dUsed := by
  obtain ⟨r, l, hmem, hid, -, -, haction⟩ := release_runs h
  exact (releaseAction_window (hunits r hmem) haction).imp_right fun hmoves =>
    ⟨r, hmem, hid, hmoves⟩

theorem createOrLoad_usage (db : Db) (env : Env) (newId : Uuid) (input : AgentBudgetLedgerInput) :
    (createOrLoad db env newId input).1.usage = db.usage := by
  unfold createOrLoad
  split
  · rfl
  split
  · rfl
  next db' ledger hinsert =>
  unfold insertLedger at hinsert
  split at hinsert
  · cases hinsert
  split at hinsert
  · cases hinsert
    rfl
  · split at hinsert
    · cases hinsert
      rfl
    · cases hinsert

theorem WindowEffect.of_eq (h : db' = db) : WindowEffect db db' :=
  .quiet (congrArg Db.usage h) (congrArg Db.reservations h)

end effects

/-- **Every step that charges at or behind UTC moves the row its reservation names.** -/
theorem step_window (s : System) (a : Label) (ha : ChargesBehindUtc s a)
    (hunits : ∀ r ∈ s.db.reservations.rows, ∀ d, 0 ≤ r.units.get d) :
    WindowEffect s.db (step s a).db := by
  cases a with
  | createOrLoad env newId input =>
    refine .quiet ?_ (createOrLoad_reservations s.db env newId input)
    exact createOrLoad_usage s.db env newId input
  | reserveRead call env input => exact .of_eq (reserveRead_db s call env input)
  | reserveClaim call env newId =>
    simp only [step, System.react, System.reserveClaim]
    split
    · next input units hcall =>
      split
      · next db rc hclaim => exact reserveClaim_window hcall ha hclaim
      · exact .quiet rfl rfl
      · exact .quiet rfl rfl
    · exact .quiet rfl rfl
  | reserveRecover call env => exact .of_eq (reserveRecover_db s call env)
  | commit env input =>
    rcases settle_db s (Budget.commit s.db env input) with h | ⟨rc, h⟩
    · exact .of_eq h
    rcases commit_window h with hsame | ⟨x, hx, hxid, dUsed, hmoves⟩
    · exact .of_eq hsame
    obtain ⟨r, l, hr, hid, -, ⟨hsame, -⟩ | ⟨r', l', hsettled, hstatus, -⟩⟩ := commit_ok h
    · exact .of_eq hsame
    · obtain rfl := s.db.reservations.eq_of_key_eq hx hr (hxid.trans hid.symm)
      exact .of_settled hsettled (by simp [AgentBudgetReservation.held, hstatus]) hmoves
  | release env tenantId reservationId resolution =>
    rcases settle_db s (Budget.release s.db env tenantId reservationId resolution)
      with h | ⟨rc, h⟩
    · exact .of_eq h
    rcases release_window hunits h with hsame | ⟨x, hx, hxid, dUsed, hmoves⟩
    · exact .of_eq hsame
    obtain ⟨r, l, hr, hid, -, ⟨hsame, -⟩ | ⟨r', l', hsettled, hstatus⟩⟩ := release_ok h
    · exact .of_eq hsame
    · obtain rfl := s.db.reservations.eq_of_key_eq hx hr (hxid.trans hid.symm)
      exact .of_settled hsettled (by simp [AgentBudgetReservation.held, hstatus]) hmoves
  | markUnknown env tenantId reservationId =>
    rcases settle_db s (Budget.markUnknown s.db env tenantId reservationId) with h | ⟨rc, h⟩
    · exact .of_eq h
    obtain ⟨r, l, -, -, -, ⟨hsame, -⟩ | ⟨r', hsettled, hstatus, -, husage⟩⟩ := markUnknown_ok h
    · exact .of_eq hsame
    · -- an unknown reservation holds what it held
      refine .settled r r' (fun _ => 0) hsettled.mem hsettled.same hsettled.reservations
        (.same husage fun _ d => ?_)
      have hheld : r'.held = true := by simp [AgentBudgetReservation.held, hstatus]
      simp [AgentBudgetReservation.heldUnits, hheld, held_of_statusStep hsettled.status,
        hsettled.same.units]
  | setTenantBudget tenant =>
    simp only [step, System.react, System.setTenantBudget]
    split
    · exact .quiet rfl rfl
    · exact .quiet rfl rfl

/-! ## The invariant -/

/-- What a reservation holds in the usage row under `key`. -/
def AgentBudgetReservation.heldAt (r : AgentBudgetReservation) (key : Uuid × Day)
    (d : AggregateDimension) : Int :=
  if r.tenantId = key.1 ∧ r.aggregateWindowStart = some key.2 then r.heldUnits d.toDimension else 0

/-- The reserved columns of each usage row are what the reservations that name it hold. -/
structure WindowInv (db : Db) : Prop where
  reserved : ∀ key d, reservedAt db.usage key d = db.reservations.total fun r => r.heldAt key d
  row : ∀ r ∈ db.reservations.rows, ∀ w, r.aggregateWindowStart = some w →
    (db.usage.find (r.tenantId, w)).isSome
  usage : ∀ u ∈ db.usage.rows, u.check = true ∧ ∀ d, u.used d + u.reserved d ≤ int4Max
  units : ∀ r ∈ db.reservations.rows, ∀ d, 0 ≤ r.units.get d

theorem WindowMoves.usage_ok {usage usage' : UsageTable} {tenantId : Uuid} {window : Option Day}
    {dReserved dUsed : AggregateDimension → Int}
    (h : WindowMoves usage usage' tenantId window dReserved dUsed)
    (hok : ∀ u ∈ usage.rows, u.check = true ∧ ∀ d, u.used d + u.reserved d ≤ int4Max) :
    ∀ u ∈ usage'.rows, u.check = true ∧ ∀ d, u.used d + u.reserved d ≤ int4Max := by
  cases h with
  | same h _ => exact h ▸ hok
  | row w u u' hw hu hmoved h =>
    intro x hx
    have hmem := (usage_key hu).1
    rw [h, Table.mem_put _ ⟨u, hmem, hmoved.key.symm⟩] at hx
    obtain rfl | ⟨hx, -⟩ := hx
    · exact ⟨hmoved.check, hmoved.bounded (hok u hmem).2⟩
    · exact hok x hx

theorem WindowMoves.find_isSome {usage usage' : UsageTable} {tenantId : Uuid} {window : Option Day}
    {dReserved dUsed : AggregateDimension → Int}
    (h : WindowMoves usage usage' tenantId window dReserved dUsed) (key : Uuid × Day) :
    (usage'.find key).isSome = (usage.find key).isSome := by
  cases h with
  | same h _ => rw [h]
  | row w u u' hw hu hmoved h => rw [h, Table.isSome_find_put]

theorem windowInv_of_claimed {db db' : Db} (hI : WindowInv db) {r : AgentBudgetReservation}
    {mid : UsageTable} (hstatus : r.status = .RESERVED) (hnonneg : ∀ d, 0 ≤ r.units.get d)
    (hinsert : db.reservations.insert r = some db'.reservations)
    (hmid : mid = db.usage
      ∨ ∃ u, (∀ d, u.used d = 0 ∧ u.reserved d = 0) ∧ db.usage.insert u = some mid)
    (hmoves : WindowMoves mid db'.usage r.tenantId r.aggregateWindowStart
      (fun d => r.units.get d.toDimension) fun _ => 0)
    (hrow : ∀ w, r.aggregateWindowStart = some w → (db'.usage.find (r.tenantId, w)).isSome) :
    WindowInv db' := by
  -- a row that is new in `mid` holds nothing
  have hmidReserved : ∀ key d, reservedAt mid key d = reservedAt db.usage key d := by
    intro key d
    rcases hmid with rfl | ⟨u, hzero, hinsert⟩
    · rfl
    · exact reservedAt_insert hzero hinsert key d
  have hmidOk : ∀ u ∈ mid.rows, u.check = true ∧ ∀ d, u.used d + u.reserved d ≤ int4Max := by
    rcases hmid with rfl | ⟨u, hzero, hinsert⟩
    · exact hI.usage
    · intro x hx
      rw [Table.rows_of_insert hinsert, List.mem_append, List.mem_singleton] at hx
      rcases hx with hx | rfl
      · exact hI.usage x hx
      · refine ⟨x.check_iff.mpr fun d => ⟨(hzero d).1.ge, (hzero d).2.ge⟩, fun d => ?_⟩
        rw [(hzero d).1, (hzero d).2]
        decide
  have hmidSome : ∀ key, (db.usage.find key).isSome → (mid.find key).isSome := by
    intro key hkey
    rcases hmid with rfl | ⟨u, hzero, hinsert⟩
    · exact hkey
    · obtain ⟨x, hx⟩ := Option.isSome_iff_exists.mp hkey
      rw [Table.find_of_insert hinsert hx]
      rfl
  have hrows : ∀ x, x ∈ db'.reservations.rows ↔ x ∈ db.reservations.rows ∨ x = r := fun x => by
    rw [Table.rows_of_insert hinsert, List.mem_append, List.mem_singleton]
  have hheld : r.held = true := by simp [AgentBudgetReservation.held, hstatus]
  refine ⟨fun key d => ?_, fun x hx w hw => ?_, hmoves.usage_ok hmidOk, fun x hx => ?_⟩
  · rw [hmoves.reservedAt, hmidReserved, hI.reserved, Table.total_insert hinsert]
    simp [AgentBudgetReservation.heldAt, AgentBudgetReservation.heldUnits, hheld]
  · rcases (hrows x).mp hx with hx | rfl
    · rw [hmoves.find_isSome]
      exact hmidSome _ (hI.row x hx w hw)
    · exact hrow w hw
  · rcases (hrows x).mp hx with hx | rfl
    · exact hI.units x hx
    · exact hnonneg

theorem windowInv_of_settled {db db' : Db} (hI : WindowInv db) {r r' : AgentBudgetReservation}
    {dUsed : AggregateDimension → Int} (hmem : r ∈ db.reservations.rows) (hsame : SameClaim r r')
    (hput : db'.reservations = db.reservations.put r')
    (hmoves : WindowMoves db.usage db'.usage r.tenantId r.aggregateWindowStart
      (fun d => r'.heldUnits d.toDimension - r.heldUnits d.toDimension) dUsed) :
    WindowInv db' := by
  have hrows : ∀ x, x ∈ db'.reservations.rows →
      ∃ y ∈ db.reservations.rows, y.tenantId = x.tenantId
        ∧ y.aggregateWindowStart = x.aggregateWindowStart ∧ y.units = x.units := by
    intro x hx
    rw [hput, Table.mem_put _ ⟨r, hmem, hsame.id.symm⟩] at hx
    obtain rfl | ⟨hx, -⟩ := hx
    · exact ⟨r, hmem, hsame.tenantId.symm, hsame.window.symm, hsame.units.symm⟩
    · exact ⟨x, hx, rfl, rfl, rfl⟩
  refine ⟨fun key d => ?_, fun x hx w hw => ?_, hmoves.usage_ok hI.usage, fun x hx => ?_⟩
  · rw [hmoves.reservedAt, hI.reserved, hput, Table.total_put _ hmem hsame.id]
    simp only [AgentBudgetReservation.heldAt, hsame.tenantId, hsame.window]
    split
    · omega
    · omega
  · obtain ⟨y, hy, htenant, hwindow, -⟩ := hrows x hx
    rw [hmoves.find_isSome, ← htenant]
    exact hI.row y hy w (hwindow.trans hw)
  · obtain ⟨y, hy, -, -, hunits⟩ := hrows x hx
    rw [← hunits]
    exact hI.units y hy

theorem windowInv_step (s : System) (a : Label) (hI : WindowInv s.db) (ha : ChargesBehindUtc s a) :
    WindowInv (step s a).db := by
  cases step_window s a ha hI.units with
  | quiet husage hres =>
    obtain ⟨hreserved, hrow, husageOk, hunits⟩ := hI
    refine ⟨?_, ?_, ?_, ?_⟩
    · rwa [husage, hres]
    · rwa [husage, hres]
    · rwa [husage]
    · rwa [hres]
  | claimed r mid hstatus hnonneg hinsert hmid hmoves hrow =>
    exact windowInv_of_claimed hI hstatus hnonneg hinsert hmid hmoves hrow
  | settled r r' dUsed hmem hsame hput hmoves =>
    exact windowInv_of_settled hI hmem hsame hput hmoves

theorem windowInv_init (tenants : Table Tenant Tenant.id) : WindowInv (System.init tenants).db where
  reserved := fun _ _ => rfl
  row := by simp [System.init]
  usage := by simp [System.init]
  units := by simp [System.init]

/-! ## Settling in the row -/

/-- The window names a usage row, and a commit at no more than the reserved cost moves the units
out of it, as a release does. -/
def SettlesIn (db : Db) (r : AgentBudgetReservation) (w : Day) : Prop :=
  ∃ u, db.usage.find (r.tenantId, w) = some u
    ∧ (∀ actualCost, 0 ≤ actualCost → actualCost ≤ r.units.costMinorUnits →
      ∃ u', UsageMoved u u' (fun d => -r.units.get d.toDimension)
          (fun d => committedUnits r.units actualCost d.toDimension)
        ∧ ∀ ledgers, commitTenantAggregate { db with ledgers } r actualCost
          = .ok { db with ledgers, usage := db.usage.put u' })
    ∧ ∃ u', UsageMoved u u' (fun d => -r.units.get d.toDimension) (fun _ => 0)
      ∧ ∀ ledgers, releaseTenantAggregate { db with ledgers } r
        = .ok { db with ledgers, usage := db.usage.put u' }

/-- Every reservation that holds units of a window settles in its row. -/
def HeldSettle (db : Db) : Prop :=
  ∀ r ∈ db.reservations.rows, r.held = true →
    ∀ w, r.aggregateWindowStart = some w → SettlesIn db r w

section settle

variable {db : Db} {r : AgentBudgetReservation}

/-- The row that a held reservation names covers its units. -/
theorem WindowInv.covers (hI : WindowInv db) (hr : r ∈ db.reservations.rows)
    (hheld : r.held = true) {w : Day} (hw : r.aggregateWindowStart = some w)
    {u : TenantAgentBudgetUsage} (hu : db.usage.find (r.tenantId, w) = some u)
    (d : AggregateDimension) : r.units.get d.toDimension ≤ u.reserved d := by
  have hnonneg : ∀ x ∈ db.reservations.rows, 0 ≤ x.heldAt (r.tenantId, w) d := by
    intro x hx
    unfold AgentBudgetReservation.heldAt AgentBudgetReservation.heldUnits
    split
    · split
      · exact hI.units x hx _
      · exact le_refl 0
    · exact le_refl 0
  calc r.units.get d.toDimension
      = r.heldAt (r.tenantId, w) d := by
        simp [AgentBudgetReservation.heldAt, AgentBudgetReservation.heldUnits, hheld, hw]
    _ ≤ db.reservations.total fun x => x.heldAt (r.tenantId, w) d :=
        Table.le_total _ hnonneg hr
    _ = reservedAt db.usage (r.tenantId, w) d := (hI.reserved _ d).symm
    _ = u.reserved d := by simp [reservedAt, hu]

theorem setUsageReleased_ok {u : TenantAgentBudgetUsage} {units : AgentBudgetUnits Int}
    (hu : u.check = true) (hrange : ∀ d, u.reserved d ≤ int4Max)
    (hunits : ∀ d : AggregateDimension,
      0 ≤ units.get d.toDimension ∧ units.get d.toDimension ≤ int4Max)
    (hcover : ∀ d : AggregateDimension, units.get d.toDimension ≤ u.reserved d) :
    ∃ u', setUsageReleased u units = .ok u' ∧ u'.check = true := by
  have hcheck := u.check_iff.mp hu
  have hsub : ∀ d : AggregateDimension, int4Sub (u.reserved d) (units.get d.toDimension)
      = .ok (u.reserved d - units.get d.toDimension) :=
    fun d => int4Sub_of_le (hcheck d).2 (hunits d).1 (hrange d) (hunits d).2
  have hset : setUsageReleased u units = .ok { u with
      providerCallReserved := u.providerCallReserved - units.providerCallUnits
      costReservedMinorUnits := u.costReservedMinorUnits - units.costMinorUnits } := by
    have h1 := hsub .providerCall
    have h2 := hsub .cost
    simp only [TenantAgentBudgetUsage.reserved, AggregateDimension.toDimension,
      AgentBudgetUnits.get] at h1 h2
    simp only [setUsageReleased, h1, h2, ok_bind]
    rfl
  refine ⟨_, hset, (TenantAgentBudgetUsage.check_iff _).mpr fun d => ?_⟩
  have hreserved := sub_nonneg.mpr (hcover d)
  cases d with
  | providerCall => exact ⟨(hcheck .providerCall).1, hreserved⟩
  | cost => exact ⟨(hcheck .cost).1, hreserved⟩

theorem settlesIn_of_inv (hI : WindowInv db) (hr : r ∈ db.reservations.rows)
    (hheld : r.held = true) {w : Day} (hw : r.aggregateWindowStart = some w) :
    SettlesIn db r w := by
  obtain ⟨u, hu⟩ := Option.isSome_iff_exists.mp (hI.row r hr w hw)
  obtain ⟨hcheck, hbounded⟩ := hI.usage u (usage_key hu).1
  have hcover := hI.covers hr hheld hw hu
  have hnonneg := u.check_iff.mp hcheck
  -- the reserved columns are in range, and the units below them
  have hrange : ∀ d, u.reserved d ≤ int4Max := by
    intro d
    have hsum := hbounded d
    have hused := (hnonneg d).1
    omega
  have hunits : ∀ d : AggregateDimension,
      0 ≤ r.units.get d.toDimension ∧ r.units.get d.toDimension ≤ int4Max :=
    fun d => ⟨hI.units r hr _, (hcover d).trans (hrange d)⟩
  refine ⟨u, hu, fun actualCost ha hle => ?_, ?_⟩
  · have hused : ∀ d : AggregateDimension,
        u.used d + committedUnits r.units actualCost d.toDimension ≤ int4Max := by
      intro d
      have hspent :
          committedUnits r.units actualCost d.toDimension ≤ r.units.get d.toDimension := by
        cases d with
        | providerCall => exact le_refl _
        | cost => exact hle
      have hsum := hbounded d
      have hbelow := hcover d
      omega
    obtain ⟨u', hset, hcheck'⟩ :=
      (setUsageCommitted_iff hcheck hrange hunits ha hcover).mpr hused
    refine ⟨u', setUsageCommitted_moved hset, fun ledgers => ?_⟩
    have hguard : commitAggregateGuard { db with ledgers } u r.units actualCost = .ok true :=
      commitAggregateGuard_of_le hcover hle
    simp only [commitTenantAggregate, hw, hu, hguard, sql, Except.mapError, ok_bind, if_true, hset,
      Db.writeUsage, hcheck']
  · obtain ⟨u', hset, hcheck'⟩ := setUsageReleased_ok hcheck hrange hunits hcover
    refine ⟨u', setUsageReleased_moved hset, fun ledgers => ?_⟩
    have hguard : (r.units.providerCallUnits ≤ u.providerCallReserved
        && r.units.costMinorUnits ≤ u.costReservedMinorUnits) = true := by
      have h1 : r.units.providerCallUnits ≤ u.providerCallReserved := hcover .providerCall
      have h2 : r.units.costMinorUnits ≤ u.costReservedMinorUnits := hcover .cost
      simp [h1, h2]
    simp only [releaseTenantAggregate, hw, hu, hguard, if_true, sql, Except.mapError, ok_bind, hset,
      Db.writeUsage, hcheck']

end settle

/-! ## Runs -/

/-- The window a claim writes names the row its update moved: the row under it holds the claim's
units more than before. -/
def StoresRow (s : System) : Label → Prop
  | .reserveClaim call env _ => ∀ input units db' w, Increments s call env input units db' w →
    ∀ d : AggregateDimension, reservedAt db'.usage (input.tenantId, w) d
      = reservedAt s.db.usage (input.tenantId, w) d + units.get d.toDimension
  | _ => True

/-- **A claim.** It writes the window of the row it moved exactly at or behind UTC. -/
theorem storesRow_iff (s : System) (a : Label) : StoresRow s a ↔ ChargesBehindUtc s a := by
  cases a with
  | reserveClaim call env newId =>
    refine forall_congr' fun input => forall_congr' fun units => forall_congr' fun db' =>
      forall_congr' fun w => forall_congr' fun h => ?_
    obtain ⟨l, l', -, -, -, hagg⟩ := h.aggregate
    obtain ⟨usage, mid, rfl, hmid, hrows⟩ := reserveTenantAggregate_row hagg
    obtain ⟨hwindow, -⟩ | ⟨hwindow, hfree, hmoves⟩ := hrows
    · cases hwindow
    cases hwindow
    have hmidReserved : ∀ key d, reservedAt mid key d = reservedAt s.db.usage key d := by
      intro key d
      rcases hmid with rfl | ⟨u, hzero, hinsert⟩
      · rfl
      · exact reservedAt_insert hzero hinsert key d
    rw [← windowStartText_eq_iff env (monthStart env.dbNow)]
    refine ⟨fun hstores => ?_, fun hsame d => ?_⟩
    · -- charged work moves some column of the month's row, and no other row
      by_contra hother
      have hnone : ∀ d : AggregateDimension, units.get d.toDimension = 0 := by
        intro d
        have hd := hstores d
        rw [hmoves.reservedAt, hmidReserved, if_neg (by simpa using Ne.symm hother)] at hd
        omega
      exact hfree ⟨hnone .providerCall, hnone .cost⟩
    · rw [hmoves.reservedAt, hmidReserved, hsame]
      simp
  | _ => exact Iff.rfl

/-- **Windows.** In a run, every claim writes the window of the usage row it incremented, and in
every state on the way every held reservation settles in its row, exactly if the claims that move
a row are made at or behind UTC. -/
theorem windowsSettle_iff (tenants : Table Tenant Tenant.id) (run : List Label) :
    (AllSteps step StoresRow (System.init tenants) run
        ∧ ∀ before after, run = before ++ after →
          HeldSettle (exec step (System.init tenants) before).db)
      ↔ AllSteps step ChargesBehindUtc (System.init tenants) run := by
  refine ⟨fun h => h.1.imp fun s a => (storesRow_iff s a).mp, fun hG => ⟨?_, ?_⟩⟩
  · exact hG.imp fun s a => (storesRow_iff s a).mpr
  · rintro before after rfl r hr hheld w hw
    have hI : WindowInv (exec step (System.init tenants) before).db :=
      exec_inv_of_allSteps (I := fun s => WindowInv s.db) windowInv_step (windowInv_init tenants)
        hG.of_append_left
    exact settlesIn_of_inv hI hr hheld hw

/-- A tenant with a monthly allowance. -/
def fundedTenants : Table Tenant Tenant.id := ⟨[⟨1, some 100, some 1000, some "USD"⟩], by decide⟩

/-- One hour east of UTC, in August 2026. -/
def eastEnv : Env := { dbNow := 1786795200000, processNow := 1786795200000, utcOffset := 3600000 }

/-- A `reserve` of one provider call, up to its claim. -/
def chargedRun : List Label :=
  [.createOrLoad eastEnv 7
    { tenantId := 1, caseId := 3, workflowRunId := "run-1", stepLimit := .int 10,
      tokenLimit := .int 10, providerCallLimit := .int 10, costLimitMinorUnits := .int 100,
      currency := "USD", startedAt := 1786795000000, deadlineAt := 1786799000000 },
   .reserveRead 0 eastEnv
    { tenantId := 1, ledgerId := 7, idempotencyKey := "key", expectedVersion := 1,
      units := ⟨.int 0, .int 0, .int 1, .int 0⟩ }]

/-- **East of UTC.** The claim increments the row of 1 August and writes 31 July on the
reservation, which the foreign key to the usage rows refuses. -/
theorem east_window_refused :
    (¬ ∀ (tenants : Table Tenant Tenant.id) (run : List Label),
      AllSteps step StoresRow (System.init tenants) run
        ∧ ∀ before after, run = before ++ after →
          HeldSettle (exec step (System.init tenants) before).db)
    ∧ ((exec step (System.init fundedTenants) chargedRun).react (.reserveClaim 0 eastEnv 9)).2
        = .receipt (.error (.database .foreignKeyViolation)) := by
  refine ⟨fun h => ?_, rfl⟩
  have hsteps := (h fundedTenants (chargedRun ++ [.reserveClaim 0 eastEnv 9])).1
  have hstores := (hsteps.of_append_right).1
  -- the row of 31 July, day 20665, stays as it was: there is none
  have hmoved := hstores _ _ _ 20665 ⟨rfl, _, _, rfl, rfl, rfl, rfl⟩ .providerCall
  exact absurd hmoved (by decide)

end MortgageAgent.Budget
