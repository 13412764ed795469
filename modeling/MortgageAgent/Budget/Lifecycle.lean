import MortgageAgent.Budget.Effect

/-!
# The life of one reservation

A reservation is identified by its ledger and its idempotency key. Retries and racing callers
meet it in five places: the unlocked read of `reserve`, its claim, its recovery after a unique
violation, and the settling calls. This module says that they agree on one effect.

* **`LifecycleInv`** — one row for each key, whose ledger exists.
* **`Attributed`** — whose step it is: a step that moves a counter is the claim of one request
  or the settlement of one reservation.
* **`ReservationLaw`** — what every next step does to the rows and what it answers.
* **`reservation_lifecycle`** — the laws along every run, and the two counts: the number of
  steps that moved a counter for a key is the number of its rows, and the number that moved one
  to settle a reservation is one exactly when the reservation is settled.

A `reserve` whose read came before a racing winner's claim is not replayed: the winner has
raised the ledger's version, so the ledger's guard refuses the loser
(`racing_reserve_refused`), which then has changed nothing.
-/

namespace MortgageAgent.Budget

open Runs

/-! ## Whose step it is -/

/-- `COMMITTED` or `RELEASED`. -/
def AgentBudgetReservation.settled (r : AgentBudgetReservation) : Bool :=
  r.status = .COMMITTED || r.status = .RELEASED

/-- A reservation under this key of this ledger exists. -/
def Db.hasKey (db : Db) (ledgerId : Uuid) (key : String) : Bool :=
  db.reservations.rows.any fun r => r.ledgerId = ledgerId && r.idempotencyKey = key

/-- The reservation with this id exists and is settled. -/
def Db.isSettled (db : Db) (id : Uuid) : Bool :=
  db.reservations.rows.any fun r => r.id = id && r.settled

/-- The request a `reserve` step acts for, with its validated units. -/
def System.reserving (s : System) : Label → Option (ReserveInput × AgentBudgetUnits Int)
  | .reserveRead call _ input =>
    match s.calls call, validateReserve input with
    | .idle, .ok units => some (input, units)
    | _, _ => none
  | .reserveClaim call _ _ =>
    match s.calls call with
    | .claiming input units => some (input, units)
    | _ => none
  | .reserveRecover call _ =>
    match s.calls call with
    | .recovering input units => some (input, units)
    | _ => none
  | _ => none

/-- The step is a `commit`, `release` or `markUnknown` of this reservation. -/
def Label.settles (id : Uuid) : Label → Bool
  | .commit _ input => input.reservationId = id
  | .release _ _ reservationId _ => reservationId = id
  | .markUnknown _ _ reservationId => reservationId = id
  | _ => false

/-- The step changes a ledger or a usage row. -/
def movesCounters (s : System) (a : Label) : Bool :=
  (step s a).db.ledgers ≠ s.db.ledgers || (step s a).db.usage ≠ s.db.usage

/-- The step moves counters on behalf of a `reserve` under this key. -/
def reserveMoves (ledgerId : Uuid) (key : String) (s : System) (a : Label) : Bool :=
  movesCounters s a
    && (s.reserving a).any fun p => p.1.ledgerId = ledgerId && p.1.idempotencyKey = key

/-- The step moves counters on behalf of a call that settles this reservation. -/
def settleMoves (id : Uuid) (s : System) (a : Label) : Bool :=
  movesCounters s a && a.settles id

/-- A step that changes reservations is the claim of the request it acts for, or rewrites the
reservation it names; a step that acts for a `reserve` or names a reservation does nothing
else. -/
inductive Attributed (s : System) (a : Label) : Prop where
  | quiet (hres : (step s a).db.reservations = s.db.reservations)
      (hreserve : (s.reserving a).isSome → (step s a).db = s.db)
      (hsettle : ∀ id, a.settles id → (step s a).db = s.db)
  | claimed (input : ReserveInput) (units : AgentBudgetUnits Int) (r : AgentBudgetReservation)
      (l l' : AgentBudgetLedger) (hreserving : s.reserving a = some (input, units))
      (h : Claimed s.db (step s a).db r l l') (hledger : r.ledgerId = input.ledgerId)
      (hkey : r.idempotencyKey = input.idempotencyKey) (hunits : r.units = units)
      (hsettle : ∀ id, a.settles id = false)
      (hanswer : ∃ env, (s.react a).2 = .receipt (.ok (receipt r l' false env)))
  | unknown (r r' : AgentBudgetReservation) (l : AgentBudgetLedger)
      (hsettles : ∀ id, a.settles id = decide (r.id = id)) (hreserving : s.reserving a = none)
      (h : Settled s.db (step s a).db r r' l l) (hstatus : r'.status = .UNKNOWN)
      (hledgers : (step s a).db.ledgers = s.db.ledgers)
      (husage : (step s a).db.usage = s.db.usage)
  | settled (r r' : AgentBudgetReservation) (l l' : AgentBudgetLedger)
      (hsettles : ∀ id, a.settles id = decide (r.id = id)) (hreserving : s.reserving a = none)
      (h : Settled s.db (step s a).db r r' l l') (hstatus : r'.settled = true)

theorem attributed_of_db_eq {s : System} {a : Label} (h : (step s a).db = s.db) :
    Attributed s a :=
  .quiet (congrArg Db.reservations h) (fun _ => h) fun _ _ => h

/-- **Every step is attributed.** -/
theorem step_attributed (s : System) (a : Label) : Attributed s a := by
  cases a with
  | createOrLoad env newId input =>
    exact .quiet (createOrLoad_reservations s.db env newId input) nofun nofun
  | reserveRead call env input => exact attributed_of_db_eq (reserveRead_db s call env input)
  | reserveClaim call env newId =>
    -- only the claim writes for a `reserve`; both reads leave the database as it is.
    rcases reserveClaim_step s call env newId with
      h | ⟨input, units, r, l, l', hcall, hclaimed, -, -, hledger, hkey, hunits, hanswer⟩
    · exact attributed_of_db_eq h
    · have hreserving : s.reserving (.reserveClaim call env newId) = some (input, units) := by
        simp [System.reserving, hcall]
      exact .claimed input units r l l' hreserving hclaimed hledger hkey hunits (fun _ => rfl)
        ⟨env, hanswer⟩
  | reserveRecover call env => exact attributed_of_db_eq (reserveRecover_db s call env)
  | commit env input =>
    rcases settle_db s (Budget.commit s.db env input) with h | ⟨rc, h⟩
    · exact attributed_of_db_eq h
    · -- a `commit` of a reservation that is already committed is a replay.
      obtain ⟨r, l, -, hid, -, ⟨h, -⟩ | ⟨r', l', hsettled, hstatus, -⟩⟩ := commit_ok h
      · exact attributed_of_db_eq h
      · exact .settled r r' l l' (fun id => by rw [hid]; rfl) rfl hsettled
          (by simp [AgentBudgetReservation.settled, hstatus])
  | release env tenantId reservationId resolution =>
    rcases settle_db s (Budget.release s.db env tenantId reservationId resolution)
      with h | ⟨rc, h⟩
    · exact attributed_of_db_eq h
    · obtain ⟨r, l, -, hid, -, ⟨h, -⟩ | ⟨r', l', hsettled, hstatus⟩⟩ := release_ok h
      · exact attributed_of_db_eq h
      · exact .settled r r' l l' (fun id => by rw [hid]; rfl) rfl hsettled
          (by simp [AgentBudgetReservation.settled, hstatus])
  | markUnknown env tenantId reservationId =>
    rcases settle_db s (Budget.markUnknown s.db env tenantId reservationId) with h | ⟨rc, h⟩
    · exact attributed_of_db_eq h
    · obtain ⟨r, l, -, hid, -, ⟨h, -⟩ | ⟨r', hsettled, hstatus, hledgers, husage⟩⟩ :=
        markUnknown_ok h
      · exact attributed_of_db_eq h
      · exact .unknown r r' l (fun id => by rw [hid]; rfl) rfl hsettled hstatus hledgers husage
  | setTenantBudget tenant =>
    refine .quiet ?_ nofun nofun
    simp only [step, System.react, System.setTenantBudget]
    split <;> rfl

/-! ## One row for each key -/

structure LifecycleInv (db : Db) : Prop where
  unique : ∀ r ∈ db.reservations.rows, ∀ r' ∈ db.reservations.rows,
    r.ledgerId = r'.ledgerId → r.idempotencyKey = r'.idempotencyKey → r = r'
  ledger : ∀ r ∈ db.reservations.rows,
    ∃ l ∈ db.ledgers.rows, l.id = r.ledgerId ∧ l.tenantId = r.tenantId
  positive : ∀ r ∈ db.reservations.rows, ∃ d, 0 < r.units.get d

/-- Moving the counters of one ledger keeps every ledger findable under its id and tenant. -/
theorem LedgerMoved.mem_put {db : Db} {l l' : AgentBudgetLedger}
    {dReserved dUsed : Dimension → Int} (h : LedgerMoved l l' dReserved dUsed)
    (hl : l ∈ db.ledgers.rows) {id tenantId : Uuid}
    (hx : ∃ x ∈ db.ledgers.rows, x.id = id ∧ x.tenantId = tenantId) :
    ∃ x ∈ (db.ledgers.put l').rows, x.id = id ∧ x.tenantId = tenantId := by
  obtain ⟨x, hx, rfl, rfl⟩ := hx
  -- the ledger asked for is the one that moved, or another row, which `put` keeps.
  by_cases hxl : x.id = l.id
  · obtain rfl := db.ledgers.eq_of_key_eq hx hl hxl
    exact ⟨l', (Table.mem_put _ ⟨x, hl, h.id.symm⟩).mpr (Or.inl rfl), h.id, h.tenantId⟩
  · exact ⟨x, (Table.mem_put _ ⟨l, hl, h.id.symm⟩).mpr (Or.inr ⟨hx, h.id ▸ hxl⟩), rfl, rfl⟩

theorem lifecycleInv_of_claimed {db db' : Db} (hI : LifecycleInv db)
    {r : AgentBudgetReservation} {l l' : AgentBudgetLedger} (h : Claimed db db' r l l') :
    LifecycleInv db' := by
  obtain ⟨hl, hlid, hltenant⟩ := findLedger_some h.ledger
  have hrows : ∀ x, x ∈ db'.reservations.rows ↔ x ∈ db.reservations.rows ∨ x = r := fun x => by
    rw [Table.rows_of_insert h.inserted, List.mem_append, List.mem_singleton]
  refine ⟨fun x hx y hy hledger hkey => ?_, fun x hx => ?_, fun x hx => ?_⟩
  · -- two old rows; an old row and the new one, whose key was free; the new row twice.
    rcases (hrows x).mp hx with hx | rfl <;> rcases (hrows y).mp hy with hy | rfl
    · exact hI.unique x hx y hy hledger hkey
    · exact absurd ⟨hledger, hkey⟩ (h.keyFree x hx)
    · exact absurd ⟨hledger.symm, hkey.symm⟩ (h.keyFree y hy)
    · rfl
  · rw [h.ledgers]
    refine h.moved.mem_put hl ?_
    rcases (hrows x).mp hx with hx | rfl
    · exact hI.ledger x hx
    · exact ⟨l, hl, hlid, hltenant⟩
  · rcases (hrows x).mp hx with hx | rfl
    · exact hI.positive x hx
    · exact h.fresh.positive

/-- A row after a settlement has the claim of a row before it. -/
theorem Settled.claim_of_mem {db db' : Db} {r r' : AgentBudgetReservation}
    {l l' : AgentBudgetLedger} (h : Settled db db' r r' l l') {x : AgentBudgetReservation}
    (hx : x ∈ db'.reservations.rows) : ∃ y ∈ db.reservations.rows, SameClaim y x := by
  rcases h.mem_iff.mp hx with rfl | ⟨hx, -⟩
  · exact ⟨r, h.mem, h.same⟩
  · exact ⟨x, hx, ⟨rfl, rfl, rfl, rfl, rfl, rfl⟩⟩

theorem lifecycleInv_of_settled {db db' : Db} (hI : LifecycleInv db)
    {r r' : AgentBudgetReservation} {l l' : AgentBudgetLedger} (h : Settled db db' r r' l l') :
    LifecycleInv db' := by
  obtain ⟨hl, -, -⟩ := findLedger_some h.ledger
  refine ⟨fun x hx y hy hledger hkey => ?_, fun x hx => ?_, fun x hx => ?_⟩
  · -- both rows carry the claim of a row before the step, and the id of that row.
    obtain ⟨x0, hx0, hxx⟩ := h.claim_of_mem hx
    obtain ⟨y0, hy0, hyy⟩ := h.claim_of_mem hy
    have h0 : x0 = y0 := hI.unique x0 hx0 y0 hy0
      (hxx.ledgerId.symm.trans (hledger.trans hyy.ledgerId))
      (hxx.idempotencyKey.symm.trans (hkey.trans hyy.idempotencyKey))
    exact db'.reservations.eq_of_key_eq hx hy (hxx.id.trans ((congrArg _ h0).trans hyy.id.symm))
  · obtain ⟨x0, hx0, hxx⟩ := h.claim_of_mem hx
    rw [h.ledgers, hxx.ledgerId, hxx.tenantId]
    exact h.moved.mem_put hl (hI.ledger x0 hx0)
  · obtain ⟨x0, hx0, hxx⟩ := h.claim_of_mem hx
    rw [hxx.units]
    exact hI.positive x0 hx0

theorem lifecycleInv_step (s : System) (a : Label) (hI : LifecycleInv s.db) :
    LifecycleInv (step s a).db := by
  cases step_effect s a with
  | unchanged h => rw [h]; exact hI
  | tenants tenants h => rw [h]; exact ⟨hI.unique, hI.ledger, hI.positive⟩
  | ledgerCreated l ledgers hinsert _ _ h =>
    rw [h]
    refine ⟨hI.unique, fun r hr => ?_, hI.positive⟩
    obtain ⟨x, hx, hxr⟩ := hI.ledger r hr
    exact ⟨x, Table.rows_of_insert hinsert ▸ List.mem_append_left _ hx, hxr⟩
  | claimed r l l' h => exact lifecycleInv_of_claimed hI h
  | settled r r' l l' h => exact lifecycleInv_of_settled hI h

theorem lifecycleInv_init (tenants : Table Tenant Tenant.id) :
    LifecycleInv (System.init tenants).db := by
  constructor <;> simp [System.init]

/-! ## When counters move -/

/-- Replacing a ledger by one with another reserved counter changes the table. -/
theorem put_ne_of_reserved_ne {t : Table AgentBudgetLedger AgentBudgetLedger.id}
    {l l' : AgentBudgetLedger} (hl : l ∈ t.rows) (hid : l'.id = l.id) {d : Dimension}
    (hne : l'.reserved d ≠ l.reserved d) : t.put l' ≠ t := by
  -- were the table unchanged, `l'` would be a row of it beside `l`, with the same id.
  intro h
  have hmem : l' ∈ (t.put l').rows := (t.mem_put ⟨l, hl, hid.symm⟩).mpr (Or.inl rfl)
  rw [h] at hmem
  exact hne (congrArg (fun x => x.reserved d) (t.eq_of_key_eq hmem hl hid))

theorem movesCounters_of_claimed {s : System} {a : Label} {r : AgentBudgetReservation}
    {l l' : AgentBudgetLedger} (h : Claimed s.db (step s a).db r l l') :
    movesCounters s a = true := by
  obtain ⟨hl, -, -⟩ := findLedger_some h.ledger
  -- a claim asks for something in some dimension, so that counter really rises.
  obtain ⟨d, hd⟩ := h.fresh.positive
  have hne : l'.reserved d ≠ l.reserved d := by
    rw [h.moved.reserved d]
    simp only [AgentBudgetReservation.heldUnits, AgentBudgetReservation.held, h.fresh.status]
    simp
    omega
  simp [movesCounters, h.ledgers, put_ne_of_reserved_ne hl h.moved.id hne]

theorem movesCounters_of_settled {s : System} {a : Label} (hI : LifecycleInv s.db)
    {r r' : AgentBudgetReservation} {l l' : AgentBudgetLedger}
    (h : Settled s.db (step s a).db r r' l l') (hstatus : r'.settled = true) :
    movesCounters s a = true := by
  obtain ⟨hl, -, -⟩ := findLedger_some h.ledger
  -- the units were held and are held no longer: the reserved counter falls where they are positive.
  obtain ⟨d, hd⟩ := hI.positive r h.mem
  have hheld : r.held = true := held_of_statusStep h.status
  have hheld' : r'.held = false := by
    unfold AgentBudgetReservation.settled at hstatus
    unfold AgentBudgetReservation.held
    cases hs : r'.status <;> simp_all
  have hne : l'.reserved d ≠ l.reserved d := by
    rw [h.moved.reserved d, heldUnits_settled hheld hheld']
    omega
  simp [movesCounters, h.ledgers, put_ne_of_reserved_ne hl h.moved.id hne]

theorem movesCounters_eq_false {s : System} {a : Label}
    (hledgers : (step s a).db.ledgers = s.db.ledgers) (husage : (step s a).db.usage = s.db.usage) :
    movesCounters s a = false := by
  simp [movesCounters, hledgers, husage]

/-! ## Counting the moves -/

theorem hasKey_iff {db : Db} {ledgerId : Uuid} {key : String} :
    db.hasKey ledgerId key = true
      ↔ ∃ r ∈ db.reservations.rows, r.ledgerId = ledgerId ∧ r.idempotencyKey = key := by
  simp [Db.hasKey]

theorem isSettled_iff {db : Db} {id : Uuid} :
    db.isSettled id = true ↔ ∃ r ∈ db.reservations.rows, r.id = id ∧ r.settled = true := by
  simp [Db.isSettled]

theorem Settled.hasKey_eq {db db' : Db} {r r' : AgentBudgetReservation}
    {l l' : AgentBudgetLedger} (h : Settled db db' r r' l l') (ledgerId : Uuid) (key : String) :
    db'.hasKey ledgerId key = db.hasKey ledgerId key := by
  rw [Bool.eq_iff_iff, hasKey_iff, hasKey_iff]
  constructor
  · rintro ⟨x, hx, hledger, hkey⟩
    obtain ⟨y, hy, hsame⟩ := h.claim_of_mem hx
    exact ⟨y, hy, hsame.ledgerId ▸ hledger, hsame.idempotencyKey ▸ hkey⟩
  · rintro ⟨x, hx, hledger, hkey⟩
    -- the settled row was rewritten, under the same key; every other row stayed.
    by_cases hxr : x.id = r'.id
    · obtain rfl := db.reservations.eq_of_key_eq hx h.mem (hxr.trans h.same.id)
      exact ⟨r', h.mem_iff.mpr (Or.inl rfl), h.same.ledgerId.trans hledger,
        h.same.idempotencyKey.trans hkey⟩
    · exact ⟨x, h.mem_iff.mpr (Or.inr ⟨hx, hxr⟩), hledger, hkey⟩

/-- Settling `r` decides `isSettled` at its id, and nowhere else. -/
theorem Settled.isSettled_eq {db db' : Db} {r r' : AgentBudgetReservation}
    {l l' : AgentBudgetLedger} (h : Settled db db' r r' l l') (id : Uuid) :
    db'.isSettled id = if r.id = id then r'.settled else db.isSettled id := by
  rw [Bool.eq_iff_iff, isSettled_iff]
  by_cases hid : r.id = id
  · rw [if_pos hid]
    constructor
    · rintro ⟨x, hx, hxid, hxs⟩
      rcases h.mem_iff.mp hx with rfl | ⟨-, hne⟩
      · exact hxs
      · exact absurd (hxid.trans (hid.symm.trans h.same.id.symm)) hne
    · intro hs
      exact ⟨r', h.mem_iff.mpr (Or.inl rfl), h.same.id.trans hid, hs⟩
  · rw [if_neg hid, isSettled_iff]
    constructor
    · rintro ⟨x, hx, hxid, hxs⟩
      rcases h.mem_iff.mp hx with rfl | ⟨hx, -⟩
      · exact absurd (h.same.id.symm.trans hxid) hid
      · exact ⟨x, hx, hxid, hxs⟩
    · rintro ⟨x, hx, hxid, hxs⟩
      refine ⟨x, h.mem_iff.mpr (Or.inr ⟨hx, fun hxr => hid ?_⟩), hxid, hxs⟩
      exact h.same.id.symm.trans (hxr.symm.trans hxid)

/-- A reservation about to be settled is not settled. -/
theorem Settled.not_isSettled {db db' : Db} {r r' : AgentBudgetReservation}
    {l l' : AgentBudgetLedger} (h : Settled db db' r r' l l') : db.isSettled r.id = false := by
  rw [Bool.eq_false_iff, Ne, isSettled_iff]
  rintro ⟨x, hx, hid, hs⟩
  obtain rfl := db.reservations.eq_of_key_eq hx h.mem hid
  -- a transition leaves only `RESERVED` and `UNKNOWN`, where the units are still held.
  have hheld := held_of_statusStep h.status
  unfold AgentBudgetReservation.held at hheld
  unfold AgentBudgetReservation.settled at hs
  cases hx : x.status <;> simp [hx] at hheld hs

theorem settled_of_claimed {db db' : Db} {r : AgentBudgetReservation} {l l' : AgentBudgetLedger}
    (h : Claimed db db' r l l') (id : Uuid) : db'.isSettled id = db.isSettled id := by
  have hfresh : r.settled = false := by
    simp [AgentBudgetReservation.settled, h.fresh.status]
  simp [Db.isSettled, Table.rows_of_insert h.inserted, hfresh]

/-- One step moves counters for a key exactly when it creates the key's row. -/
theorem hasKey_step (ledgerId : Uuid) (key : String) (s : System) (a : Label) :
    (if (step s a).db.hasKey ledgerId key then 1 else 0)
      = (if s.db.hasKey ledgerId key then 1 else 0)
        + if reserveMoves ledgerId key s a then 1 else 0 := by
  cases step_attributed s a with
  | quiet hres hreserve _ =>
    have hmoves : reserveMoves ledgerId key s a = false := by
      cases hr : s.reserving a with
      | none => simp [reserveMoves, hr]
      | some p =>
        have hdb := hreserve (by rw [hr]; rfl)
        simp [reserveMoves, movesCounters, hdb]
    simp [hmoves, Db.hasKey, hres]
  | claimed input units r l l' hreserving h hledger hkey _ _ _ =>
    have hmoves : reserveMoves ledgerId key s a
        = decide (r.ledgerId = ledgerId ∧ r.idempotencyKey = key) := by
      simp [reserveMoves, movesCounters_of_claimed h, hreserving, hledger, hkey]
    have hafter : (step s a).db.hasKey ledgerId key
        = (s.db.hasKey ledgerId key
          || decide (r.ledgerId = ledgerId ∧ r.idempotencyKey = key)) := by
      simp [Db.hasKey, Table.rows_of_insert h.inserted]
    -- the claim inserted under this key, which had no row before, or under another one.
    by_cases hr : r.ledgerId = ledgerId ∧ r.idempotencyKey = key
    · have hbefore : s.db.hasKey ledgerId key = false := by
        rw [Bool.eq_false_iff, Ne, hasKey_iff]
        rintro ⟨x, hx, hxl, hxk⟩
        exact h.keyFree x hx ⟨hxl.trans hr.1.symm, hxk.trans hr.2.symm⟩
      simp [hmoves, hafter, hbefore, hr]
    · simp [hmoves, hafter, hr]
  | unknown r r' l _ hreserving h _ _ _ =>
    simp [h.hasKey_eq, reserveMoves, hreserving]
  | settled r r' l l' _ hreserving h _ =>
    simp [h.hasKey_eq, reserveMoves, hreserving]

/-- One step moves counters to settle a reservation exactly when it settles it. -/
theorem isSettled_step (id : Uuid) (s : System) (a : Label) (hI : LifecycleInv s.db) :
    (if (step s a).db.isSettled id then 1 else 0)
      = (if s.db.isSettled id then 1 else 0) + if settleMoves id s a then 1 else 0 := by
  cases step_attributed s a with
  | quiet hres _ hsettle =>
    have hmoves : settleMoves id s a = false := by
      cases ha : a.settles id with
      | false => simp [settleMoves, ha]
      | true => simp [settleMoves, movesCounters, hsettle id ha]
    simp [hmoves, Db.isSettled, hres]
  | claimed input units r l l' _ h _ _ _ hsettle _ =>
    simp [settled_of_claimed h, settleMoves, hsettle]
  | unknown r r' l hsettles _ h hstatus hledgers husage =>
    have hmoves : settleMoves id s a = false := by
      simp [settleMoves, movesCounters_eq_false hledgers husage]
    -- `markUnknown` keeps the units reserved: no counter moves and nothing is settled.
    have hopen : r'.settled = false := by simp [AgentBudgetReservation.settled, hstatus]
    rw [h.isSettled_eq, hmoves, hopen]
    by_cases hid : r.id = id
    · rw [if_pos hid, ← hid, h.not_isSettled]
      rfl
    · rw [if_neg hid]
      rfl
  | settled r r' l l' hsettles _ h hstatus =>
    have hmoves : settleMoves id s a = decide (r.id = id) := by
      simp [settleMoves, movesCounters_of_settled hI h hstatus, hsettles]
    rw [h.isSettled_eq, hmoves, hstatus]
    by_cases hid : r.id = id
    · subst hid
      simp [h.not_isSettled]
    · simp [hid]

/-! ## Answers -/

theorem findReservationByKey_some {db : Db} {input : ReserveInput} {r : AgentBudgetReservation}
    (h : db.findReservationByKey input = some r) :
    r ∈ db.reservations.rows ∧ r.ledgerId = input.ledgerId ∧ r.tenantId = input.tenantId
      ∧ r.idempotencyKey = input.idempotencyKey := by
  refine ⟨List.mem_of_find?_eq_some h, ?_⟩
  have hp := List.find?_some h
  simp only [Bool.and_eq_true, decide_eq_true_eq] at hp
  exact ⟨hp.1.1, hp.1.2, hp.2⟩

theorem findReservationByKey_of_mem {db : Db} (hI : LifecycleInv db) {input : ReserveInput}
    {r : AgentBudgetReservation} (hr : r ∈ db.reservations.rows)
    (hledger : r.ledgerId = input.ledgerId) (htenant : r.tenantId = input.tenantId)
    (hkey : r.idempotencyKey = input.idempotencyKey) :
    db.findReservationByKey input = some r := by
  cases hf : db.findReservationByKey input with
  | none =>
    have hnone := List.find?_eq_none.mp hf r hr
    simp [hledger, htenant, hkey] at hnone
  | some x =>
    -- the query may stop at another row first; uniqueness makes it the same one.
    obtain ⟨hx, hxl, -, hxk⟩ := findReservationByKey_some hf
    rw [hI.unique x hx r hr (hxl.trans hledger.symm) (hxk.trans hkey.symm)]

/-- The receipt of a stored row: its ledger is there. -/
theorem receiptFor_of_mem {db : Db} (hI : LifecycleInv db) {r : AgentBudgetReservation}
    (hr : r ∈ db.reservations.rows) (replayed : Bool) (env : Env) :
    ∃ l, receiptFor db r replayed env = .ok (receipt r l replayed env) := by
  obtain ⟨l, hl, hid, htenant⟩ := hI.ledger r hr
  have hfind : db.findLedger r.ledgerId r.tenantId = some l := by
    rw [Db.findLedger, db.ledgers.find_eq_some_iff.mpr ⟨hl, hid⟩]
    simp [htenant]
  exact ⟨l, by simp [receiptFor, hfind]⟩

/-- What both reads of the key do with the row they find. -/
def replay (db : Db) (env : Env) (units : AgentBudgetUnits Int) (r : AgentBudgetReservation) :
    Except BudgetFailure AgentBudgetReservationReceipt := do
  assertSameUnits r units
  receiptFor db r true env

def differentUnits : BudgetFailure :=
  conflict "A reservation idempotency key cannot be reused for different units"

theorem replay_of_units_eq {db : Db} (hI : LifecycleInv db) {r : AgentBudgetReservation}
    (hr : r ∈ db.reservations.rows) (env : Env) :
    ∃ l, replay db env r.units r = .ok (receipt r l true env) := by
  obtain ⟨l, hl⟩ := receiptFor_of_mem hI hr true env
  refine ⟨l, ?_⟩
  rw [replay, assertSameUnits, if_pos rfl]
  exact hl

theorem replay_of_units_ne {db : Db} {env : Env} {units : AgentBudgetUnits Int}
    {r : AgentBudgetReservation} (h : r.units ≠ units) :
    replay db env units r = .error differentUnits := by
  rw [replay, assertSameUnits, if_neg h]
  rfl

theorem replay_ok {db : Db} {env : Env} {units : AgentBudgetUnits Int}
    {r : AgentBudgetReservation} {rc : AgentBudgetReservationReceipt}
    (h : replay db env units r = .ok rc) : r.units = units ∧ rc.reservationId = r.id := by
  obtain ⟨_, hunits, h⟩ := ok_of_bind_ok h
  refine ⟨?_, ?_⟩
  · unfold assertSameUnits at hunits
    split at hunits
    · assumption
    · cases hunits
  · unfold receiptFor at h
    split at h
    · cases h; rfl
    · cases h

/-- The read of the key answers when it finds the key's row. -/
theorem reserveRead_answer {s : System} {call : Nat} {env : Env} {input : ReserveInput}
    {units : AgentBudgetUnits Int} {r : AgentBudgetReservation} (hcall : s.calls call = .idle)
    (hunits : validateReserve input = .ok units) (hr : s.db.findReservationByKey input = some r) :
    (s.react (.reserveRead call env input)).2 = .receipt (replay s.db env units r) := by
  -- the unlocked read wraps the same replay in an option: `none` sends the caller on to the claim.
  have hread : reservePreRead s.db env input units
      = (replay s.db env units r).map some := by
    simp only [reservePreRead, hr, replay]
    generalize assertSameUnits r units = same
    generalize receiptFor s.db r true env = rc
    cases same <;> cases rc <;> rfl
  simp only [System.react, System.reserveRead, hcall, hunits, hread]
  cases replay s.db env units r <;> rfl

theorem reserveRead_pending {s : System} {call : Nat} {env : Env} {input : ReserveInput}
    {units : AgentBudgetUnits Int} (hcall : s.calls call = .idle)
    (hunits : validateReserve input = .ok units) (hr : s.db.findReservationByKey input = none) :
    (s.react (.reserveRead call env input)).2 = .pending := by
  simp only [System.react, System.reserveRead, hcall, hunits, reservePreRead, hr]
  rfl

theorem reserveRecover_answer {s : System} {call : Nat} {env : Env} {input : ReserveInput}
    {units : AgentBudgetUnits Int} (hcall : s.calls call = .recovering input units) :
    (s.react (.reserveRecover call env)).2
      = .receipt (match s.db.findReservationByKey input with
        | some r => replay s.db env units r
        | none => .error .entityNotFound) := by
  simp only [System.react, System.reserveRecover, hcall, Budget.reserveRecover]
  cases s.db.findReservationByKey input <;> rfl

theorem reserveClaim_answer {s : System} {call : Nat} {env : Env} {newId : Uuid}
    {input : ReserveInput} {units : AgentBudgetUnits Int} {rc : AgentBudgetReservationReceipt}
    (hcall : s.calls call = .claiming input units)
    (hanswer : (s.react (.reserveClaim call env newId)).2 = .receipt (.ok rc)) :
    Budget.reserveClaim s.db env newId input units
      = .ok ((step s (.reserveClaim call env newId)).db, rc) := by
  simp only [System.react, step, System.reserveClaim, hcall] at hanswer ⊢
  split at hanswer
  · next db rc' hclaim =>
    cases hanswer
    simp [hclaim, System.setCall]
  · cases hanswer
  · cases hanswer

/-- A `reserve` that returns names the key's row, which has the requested units. -/
theorem reserve_answered {s : System} {a : Label} {input : ReserveInput}
    {units : AgentBudgetUnits Int} {rc : AgentBudgetReservationReceipt}
    (hreserving : s.reserving a = some (input, units))
    (hanswer : (s.react a).2 = .receipt (.ok rc)) :
    ∃ r ∈ (step s a).db.reservations.rows, r.ledgerId = input.ledgerId
      ∧ r.idempotencyKey = input.idempotencyKey ∧ r.units = units ∧ rc.reservationId = r.id := by
  cases a with
  | reserveRead call env input' =>
    have hdb : (step s (.reserveRead call env input')).db = s.db :=
      reserveRead_db s call env input'
    simp only [System.reserving] at hreserving
    split at hreserving
    · next units' hcall hunits =>
      cases hreserving
      cases hf : s.db.findReservationByKey input with
      -- no row yet: the call goes on to its claim and has not answered.
      | none => rw [reserveRead_pending hcall hunits hf] at hanswer; cases hanswer
      | some r =>
        rw [reserveRead_answer hcall hunits hf] at hanswer
        obtain ⟨hr, hledger, -, hkey⟩ := findReservationByKey_some hf
        obtain ⟨hu, hid⟩ := replay_ok (Response.receipt.inj hanswer)
        exact ⟨r, hdb ▸ hr, hledger, hkey, hu, hid⟩
    · cases hreserving
  | reserveClaim call env newId =>
    simp only [System.reserving] at hreserving
    split at hreserving
    · next hcall =>
      cases hreserving
      obtain ⟨r, l, l', hclaimed, -, -, hledger, hkey, hunits, rfl⟩ :=
        reserveClaim_claimed (reserveClaim_answer hcall hanswer)
      exact ⟨r, by simp [Table.rows_of_insert hclaimed.inserted], hledger, hkey, hunits, rfl⟩
    · cases hreserving
  | reserveRecover call env =>
    have hdb : (step s (.reserveRecover call env)).db = s.db := reserveRecover_db s call env
    simp only [System.reserving] at hreserving
    split at hreserving
    · next hcall =>
      cases hreserving
      rw [reserveRecover_answer hcall] at hanswer
      cases hf : s.db.findReservationByKey input with
      | none => rw [hf] at hanswer; cases hanswer
      | some r =>
        rw [hf] at hanswer
        obtain ⟨hr, hledger, -, hkey⟩ := findReservationByKey_some hf
        obtain ⟨hu, hid⟩ := replay_ok (Response.receipt.inj hanswer)
        exact ⟨r, hdb ▸ hr, hledger, hkey, hu, hid⟩
    · cases hreserving
  | _ => cases hreserving

/-- A call that throws changes nothing. -/
theorem db_eq_of_error {s : System} {a : Label} {e : BudgetFailure}
    (h : (s.react a).2 = .receipt (.error e)) : (step s a).db = s.db := by
  -- the settling calls write and answer together, so an error comes with the old state.
  have settle_error : ∀ result, (s.settle result).2 = .receipt (.error e) →
      (s.settle result).1.db = s.db := by
    intro result hr
    cases result with
    | error _ => rfl
    | ok _ => cases hr
  cases a with
  | createOrLoad env newId input => cases h
  | reserveRead call env input => exact reserveRead_db s call env input
  | reserveClaim call env newId =>
    simp only [System.react, step, System.reserveClaim] at h ⊢
    split at h
    · split at h
      · cases h
      · cases h
      · rfl
    · cases h
  | reserveRecover call env => exact reserveRecover_db s call env
  | commit env input => exact settle_error _ h
  | release env tenantId reservationId resolution => exact settle_error _ h
  | markUnknown env tenantId reservationId => exact settle_error _ h
  | setTenantBudget tenant => cases h

/-- A step leaves each reservation as it is, or moves it along the lifecycle. -/
theorem reservation_kept (s : System) (a : Label) {r : AgentBudgetReservation}
    (hr : r ∈ s.db.reservations.rows) :
    r ∈ (step s a).db.reservations.rows
      ∨ ∃ r' ∈ (step s a).db.reservations.rows, SameClaim r r' ∧ StatusStep r.status r'.status := by
  -- a settlement rewrites one row along `StatusStep` and keeps the rest.
  have hsettled : ∀ x x' l l', Settled s.db (step s a).db x x' l l' →
      r ∈ (step s a).db.reservations.rows ∨ ∃ r' ∈ (step s a).db.reservations.rows,
        SameClaim r r' ∧ StatusStep r.status r'.status := by
    intro x x' l l' h
    by_cases hid : r.id = x'.id
    · obtain rfl := s.db.reservations.eq_of_key_eq hr h.mem (hid.trans h.same.id)
      exact Or.inr ⟨x', h.mem_iff.mpr (Or.inl rfl), h.same, h.status⟩
    · exact Or.inl (h.mem_iff.mpr (Or.inr ⟨hr, hid⟩))
  cases step_attributed s a with
  | quiet hres _ _ => exact Or.inl (hres ▸ hr)
  | claimed _ _ x _ _ _ h _ _ _ _ _ =>
    exact Or.inl (Table.rows_of_insert h.inserted ▸ List.mem_append_left _ hr)
  | unknown x x' l _ _ h _ _ _ => exact hsettled x x' l l h
  | settled x x' l l' _ _ h _ => exact hsettled x x' l l' h

/-! ## The laws -/

/-- What the next step `a` does to reservations and what it answers. -/
structure ReservationLaw (s : System) (a : Label) : Prop where
  /-- the status follows the lifecycle, and nothing else a claim fixed changes -/
  kept : ∀ r ∈ s.db.reservations.rows, r ∈ (step s a).db.reservations.rows
    ∨ ∃ r' ∈ (step s a).db.reservations.rows, SameClaim r r' ∧ StatusStep r.status r'.status
  /-- a `reserve` that returns names the key's row, which has the requested units -/
  answered : ∀ input units rc, s.reserving a = some (input, units) →
    (s.react a).2 = .receipt (.ok rc) →
      ∃ r ∈ (step s a).db.reservations.rows, r.ledgerId = input.ledgerId
        ∧ r.idempotencyKey = input.idempotencyKey ∧ r.units = units ∧ rc.reservationId = r.id
  /-- a call that throws changes nothing -/
  refused : ∀ e, (s.react a).2 = .receipt (.error e) → (step s a).db = s.db
  /-- a read that finds the key's row changes nothing and replays it, or refuses other units -/
  replayed : ∀ input units r, s.reserving a = some (input, units) →
    (∀ call env newId, a ≠ .reserveClaim call env newId) → r ∈ s.db.reservations.rows →
    r.ledgerId = input.ledgerId → r.tenantId = input.tenantId →
    r.idempotencyKey = input.idempotencyKey →
      (step s a).db = s.db
        ∧ (r.units = units → ∃ l env, (s.react a).2 = .receipt (.ok (receipt r l true env)))
        ∧ (r.units ≠ units → (s.react a).2 = .receipt (.error differentUnits))
  /-- a `reserve` moves counters only by claiming the key, by the requested units -/
  claims : ∀ input units, s.reserving a = some (input, units) → movesCounters s a →
    ∃ r l l', Claimed s.db (step s a).db r l l' ∧ r.ledgerId = input.ledgerId
      ∧ r.idempotencyKey = input.idempotencyKey ∧ r.units = units
  /-- a settling call moves counters only by settling its reservation -/
  settles : ∀ id, a.settles id → movesCounters s a →
    ∃ r r' l l', Settled s.db (step s a).db r r' l l' ∧ r.id = id ∧ r'.settled

theorem reserve_replayed {s : System} {a : Label} {input : ReserveInput}
    {units : AgentBudgetUnits Int} {r : AgentBudgetReservation}
    (hreserving : s.reserving a = some (input, units))
    (hread : ∀ call env newId, a ≠ .reserveClaim call env newId)
    (hr : s.db.findReservationByKey input = some r) :
    (step s a).db = s.db
      ∧ ∃ env, (s.react a).2 = .receipt (replay s.db env units r) := by
  cases a with
  | reserveRead call env input' =>
    simp only [System.reserving] at hreserving
    split at hreserving
    · next hcall hunits =>
      cases hreserving
      exact ⟨reserveRead_db s call env input, env, reserveRead_answer hcall hunits hr⟩
    · cases hreserving
  | reserveClaim call env newId => exact absurd rfl (hread call env newId)
  | reserveRecover call env =>
    simp only [System.reserving] at hreserving
    split at hreserving
    · next hcall =>
      cases hreserving
      exact ⟨reserveRecover_db s call env, env, by rw [reserveRecover_answer hcall, hr]⟩
    · cases hreserving
  | _ => cases hreserving

theorem reservationLaw_of_inv (s : System) (a : Label) (hI : LifecycleInv s.db) :
    ReservationLaw s a where
  kept := fun _ hr => reservation_kept s a hr
  answered := fun _ _ _ hreserving hanswer => reserve_answered hreserving hanswer
  refused := fun _ he => db_eq_of_error he
  replayed := by
    intro input units r hreserving hread hr hledger htenant hkey
    obtain ⟨hdb, env, hanswer⟩ := reserve_replayed hreserving hread
      (findReservationByKey_of_mem hI hr hledger htenant hkey)
    refine ⟨hdb, ?_, ?_⟩
    · rintro rfl
      obtain ⟨l, hl⟩ := replay_of_units_eq hI hr env
      exact ⟨l, env, by rw [hanswer, hl]⟩
    · intro hne
      rw [hanswer, replay_of_units_ne hne]
  claims := by
    intro input units hreserving hmoves
    cases step_attributed s a with
    | quiet _ hreserve _ =>
      have hdb := hreserve (by rw [hreserving]; rfl)
      simp [movesCounters, hdb] at hmoves
    | claimed input' units' r l l' hreserving' h hledger hkey hunits _ _ =>
      rw [hreserving] at hreserving'
      cases hreserving'
      exact ⟨r, l, l', h, hledger, hkey, hunits⟩
    | unknown _ _ _ _ hnone _ _ _ _ => rw [hreserving] at hnone; cases hnone
    | settled _ _ _ _ _ hnone _ _ => rw [hreserving] at hnone; cases hnone
  settles := by
    intro id hid hmoves
    cases step_attributed s a with
    | quiet _ _ hsettle => simp [movesCounters, hsettle id hid] at hmoves
    | claimed _ _ _ _ _ _ _ _ _ _ hsettle _ => rw [hsettle] at hid; cases hid
    | unknown _ _ _ _ _ _ _ hledgers husage =>
      rw [movesCounters_eq_false hledgers husage] at hmoves
      cases hmoves
    | settled r r' l l' hsettles _ h hstatus =>
      rw [hsettles] at hid
      exact ⟨r, r', l, l', h, by simpa using hid, hstatus⟩

/-- **The life of a reservation.** In every state any interleaving of the service's calls can
reach: a key of a ledger has at most one row; every next step obeys `ReservationLaw`; and over
the whole run, the steps of `reserve` calls that moved a counter for a key are one in number if
the key has a row and none otherwise, and the steps of settling calls that moved a counter for
a reservation are one in number if it is settled and none otherwise. -/
theorem reservation_lifecycle (tenants : Table Tenant Tenant.id) (run : List Label) :
    let s := exec step (System.init tenants) run
    (∀ r ∈ s.db.reservations.rows, ∀ r' ∈ s.db.reservations.rows,
        r.ledgerId = r'.ledgerId → r.idempotencyKey = r'.idempotencyKey → r = r')
      ∧ (∀ a, ReservationLaw s a)
      ∧ (∀ ledgerId key, countSteps step (reserveMoves ledgerId key) (System.init tenants) run
        = if s.db.hasKey ledgerId key then 1 else 0)
      ∧ ∀ id, countSteps step (settleMoves id) (System.init tenants) run
        = if s.db.isSettled id then 1 else 0 := by
  have hinit := lifecycleInv_init tenants
  have hI : LifecycleInv (exec step (System.init tenants) run).db :=
    exec_inv (I := fun s : System => LifecycleInv s.db) lifecycleInv_step hinit run
  -- each count is the growth of a measure that starts at zero: a key has a row, an id is settled.
  refine ⟨hI.unique, fun a => reservationLaw_of_inv _ a hI, fun ledgerId key => ?_, fun id => ?_⟩
  · have hcount := countSteps_eq_of_measure (I := fun s : System => LifecycleInv s.db)
      (m := fun s => if s.db.hasKey ledgerId key then 1 else 0)
      lifecycleInv_step (fun s a _ => hasKey_step ledgerId key s a) hinit run
    simpa [System.init, Db.hasKey] using hcount
  · have hcount := countSteps_eq_of_measure (I := fun s : System => LifecycleInv s.db)
      (m := fun s => if s.db.isSettled id then 1 else 0)
      lifecycleInv_step (fun s a hI => isSettled_step id s a hI) hinit run
    simpa [System.init, Db.isSettled] using hcount

/-- Two callers read the same free key at the same ledger version, and call 0 claims it. -/
def racingRun : List Label :=
  let env : Env := { dbNow := 1786795200000, processNow := 1786795200000 }
  let input : ReserveInput :=
    { tenantId := 1, ledgerId := 7, idempotencyKey := "key", expectedVersion := 1,
      units := ⟨.int 1, .int 0, .int 0, .int 0⟩ }
  [.createOrLoad env 7
    { tenantId := 1, caseId := 3, workflowRunId := "run-1", stepLimit := .int 10,
      tokenLimit := .int 10, providerCallLimit := .int 10, costLimitMinorUnits := .int 100,
      currency := "USD", startedAt := 1786795000000, deadlineAt := 1786799000000 },
   .reserveRead 0 env input, .reserveRead 1 env input, .reserveClaim 0 env 9]

/-- **A racing `reserve` is refused.** Call 1 asks for the units the key's row has, and receives
`LEDGER_VERSION_CONFLICT` instead of the row's id. -/
theorem racing_reserve_refused :
    ¬ ∀ (tenants : Table Tenant Tenant.id) (run : List Label) (a : Label) (input : ReserveInput)
        (units : AgentBudgetUnits Int) (r : AgentBudgetReservation)
        (result : Except BudgetFailure AgentBudgetReservationReceipt),
      let s := exec step (System.init tenants) run
      s.reserving a = some (input, units) → (s.react a).2 = .receipt result →
      r ∈ (step s a).db.reservations.rows → r.ledgerId = input.ledgerId →
      r.idempotencyKey = input.idempotencyKey → r.units = units →
        ∃ rc, result = .ok rc ∧ rc.reservationId = r.id := by
  intro h
  have hrace := h .empty racingRun (.reserveClaim 1 ⟨1786795200000, 1786795200000, 0⟩ 10) _ _
    { id := 9, tenantId := 1, ledgerId := 7, idempotencyKey := "key",
      units := ⟨1, 0, 0, 0⟩, aggregateWindowStart := none }
    _ rfl rfl (by decide) rfl rfl rfl
  obtain ⟨rc, hrc, -⟩ := hrace
  cases hrc

end MortgageAgent.Budget
