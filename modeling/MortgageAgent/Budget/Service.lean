import MortgageAgent.Budget.Ledger

/-!
# The operations of the budget service

`createOrLoad`, the three parts of `reserve`, `commit`, `release` and `markUnknown`, each as
the statements it sends: a conditional `UPDATE` is its guard (the `WHERE` clause, evaluated
left to right) and its assignments (the `SET` list), and a row is written only when it passes
the table's CHECK constraints.
-/

namespace MortgageAgent.Budget

/-! ## Writing rows -/

def Db.writeLedger (db : Db) (l : AgentBudgetLedger) : Except PgError Db :=
  if l.check then .ok { db with ledgers := db.ledgers.put l } else .error .checkViolation

def Db.writeUsage (db : Db) (u : TenantAgentBudgetUsage) : Except PgError Db :=
  if u.check then .ok { db with usage := db.usage.put u } else .error .checkViolation

def Db.writeReservation (db : Db) (r : AgentBudgetReservation) : Except PgError Db :=
  if 0 ≤ r.actualCostMinorUnits.getD 0 then
    .ok { db with reservations := db.reservations.put r }
  else .error .checkViolation

/-- `used + reserved + units <= limit`. -/
def fits (used reserved units limit : Int) : Except PgError Bool := do
  let held ← int4Add used reserved
  let claimed ← int4Add held units
  return claimed ≤ limit

/-! ## `createOrLoad` -/

def validateLedgerInput (input : AgentBudgetLedgerInput) :
    Except BudgetFailure (AgentBudgetUnits Int) := do
  let stepUnits ← assertNonnegativeInt input.stepLimit "step limit"
  let tokenUnits ← assertNonnegativeInt input.tokenLimit "token limit"
  let providerCallUnits ← assertNonnegativeInt input.providerCallLimit "provider-call limit"
  let costMinorUnits ← assertNonnegativeInt input.costLimitMinorUnits "cost limit"
  if !isCurrencyCode input.currency then
    throw (conflict "Budget currency must be a three-letter uppercase code")
  if input.deadlineAt ≤ input.startedAt then
    throw (.agentBudgetError .DEADLINE_EXCEEDED
      "Agent deadline must be after its trusted start time")
  return { stepUnits, tokenUnits, providerCallUnits, costMinorUnits }

def newLedger (id : Uuid) (input : AgentBudgetLedgerInput) (limits : AgentBudgetUnits Int) :
    AgentBudgetLedger where
  id := id
  tenantId := input.tenantId
  caseId := input.caseId
  workflowRunId := input.workflowRunId
  stepLimit := limits.stepUnits
  tokenLimit := limits.tokenUnits
  providerCallLimit := limits.providerCallUnits
  costLimitMinorUnits := limits.costMinorUnits
  currency := input.currency
  startedAt := input.startedAt
  deadlineAt := input.deadlineAt

/-- `INSERT … ON CONFLICT ("tenantId", "workflowRunId") DO NOTHING RETURNING *`, and the
stored row when there is a conflict. -/
def insertLedger (db : Db) (ledger : AgentBudgetLedger) :
    Except PgError (Db × AgentBudgetLedger) :=
  if !ledger.check then .error .checkViolation
  else
    -- the conflict target is the unique index on tenant and workflow run
    match db.ledgers.rows.find? fun l =>
        l.tenantId = ledger.tenantId && l.workflowRunId = ledger.workflowRunId with
    | some stored => .ok (db, stored)
    | none =>
      match db.ledgers.insert ledger with
      | some ledgers => .ok ({ db with ledgers }, ledger)
      | none => .error .uniqueViolation

def assertSameLedgerConfiguration (ledger : AgentBudgetLedger) (input : AgentBudgetLedgerInput)
    (limits : AgentBudgetUnits Int) : Except BudgetFailure Unit :=
  if ledger.caseId ≠ input.caseId || ledger.stepLimit ≠ limits.stepUnits
      || ledger.tokenLimit ≠ limits.tokenUnits
      || ledger.providerCallLimit ≠ limits.providerCallUnits
      || ledger.costLimitMinorUnits ≠ limits.costMinorUnits
      || jsTrim ledger.currency ≠ input.currency then
    .error (conflict "A workflow retry cannot reset or alter its existing budget ledger")
  else .ok ()

/-- The configuration is compared after the transaction has committed, so a refusal here
does not undo the insert. -/
def createOrLoad (db : Db) (env : Env) (newId : Uuid) (input : AgentBudgetLedgerInput) :
    Db × Except BudgetFailure AgentBudgetSnapshot :=
  match validateLedgerInput input with
  | .error e => (db, .error e)
  | .ok limits =>
    match insertLedger db (newLedger newId input limits) with
    | .error e => (db, .error (.database e))
    | .ok (db', ledger) =>
      (db', do
        assertSameLedgerConfiguration ledger input limits
        return snapshot ledger env)

/-! ## `reserve` -/

def validateReserve (input : ReserveInput) : Except BudgetFailure (AgentBudgetUnits Int) := do
  let units ← validateUnits input.units
  if input.idempotencyKey = "" || 200 < jsLength input.idempotencyKey then
    throw (conflict "Budget reservation requires a bounded idempotency key")
  return units

def Db.findReservationByKey (db : Db) (input : ReserveInput) : Option AgentBudgetReservation :=
  db.reservations.rows.find? fun r =>
    r.ledgerId = input.ledgerId && r.tenantId = input.tenantId
      && r.idempotencyKey = input.idempotencyKey

/-- The unlocked read of the key. `none` sends the call on to `reserveClaim`. -/
def reservePreRead (db : Db) (env : Env) (input : ReserveInput)
    (units : AgentBudgetUnits Int) :
    Except BudgetFailure (Option AgentBudgetReservationReceipt) :=
  match db.findReservationByKey input with
  | some existing => do
    -- a replay is answered from the row, whatever the ledger has become
    assertSameUnits existing units
    return some (← receiptFor db existing true env)
  | none => return none

def reserveGuard (l : AgentBudgetLedger) (u : AgentBudgetUnits Int) (expectedVersion : Int)
    (now : Instant) : Except PgError Bool :=
  if l.version = expectedVersion && l.closedAt.isNone && now < l.deadlineAt then
    fits l.stepUsed l.stepReserved u.stepUnits l.stepLimit
      <&&> fits l.tokenUsed l.tokenReserved u.tokenUnits l.tokenLimit
      <&&> fits l.providerCallUsed l.providerCallReserved u.providerCallUnits l.providerCallLimit
      <&&> fits l.costUsedMinorUnits l.costReservedMinorUnits u.costMinorUnits
        l.costLimitMinorUnits
  else return false

def setReserved (l : AgentBudgetLedger) (u : AgentBudgetUnits Int) :
    Except PgError AgentBudgetLedger := do
  return { l with
    stepReserved := ← int4Add l.stepReserved u.stepUnits
    tokenReserved := ← int4Add l.tokenReserved u.tokenUnits
    providerCallReserved := ← int4Add l.providerCallReserved u.providerCallUnits
    costReservedMinorUnits := ← int4Add l.costReservedMinorUnits u.costMinorUnits
    version := ← int4Add l.version 1 }

/-- Why the conditional update matched no row. -/
def throwReservationFailure (db : Db) (env : Env) (input : ReserveInput) : BudgetFailure :=
  match db.findLedger input.ledgerId input.tenantId with
  | none => .entityNotFound
  | some ledger =>
    -- the row is read again here, so the reason is that of its current state
    if ledger.closedAt.isSome then
      .agentBudgetError .LEDGER_CLOSED "Agent budget ledger is closed"
    else if ledger.deadlineAt ≤ env.processNow then
      .agentBudgetError .DEADLINE_EXCEEDED "Agent run deadline has been exceeded"
    else if ledger.version ≠ input.expectedVersion then
      .agentBudgetError .LEDGER_VERSION_CONFLICT "Agent budget ledger version is stale"
    else .agentBudgetError .BUDGET_EXHAUSTED "Agent budget capacity is exhausted"

/-- The month's usage row, inserted for a tenant with a configured aggregate in this
currency unless it is there already. -/
def insertUsageIfAbsent (db : Db) (tenantId : Uuid) (window : Day) (currency : String) : Db :=
  match db.tenants.find tenantId with
  | some ⟨_, some _, some _, some tenantCurrency⟩ =>
    if btrim tenantCurrency = currency then
      match db.usage.insert { tenantId, windowStart := window, currency := tenantCurrency } with
      | some usage => { db with usage }
      | none => db
    else db
  | _ => db

def aggregateGuard (u : TenantAgentBudgetUsage) (t : Tenant) (currency : String)
    (units : AgentBudgetUnits Int) : Except PgError Bool :=
  match t with
  | ⟨_, some callLimit, some costLimit, some tenantCurrency⟩ =>
    if btrim u.currency = currency && btrim tenantCurrency = currency then
      fits u.providerCallUsed u.providerCallReserved units.providerCallUnits callLimit
        <&&> fits u.costUsedMinorUnits u.costReservedMinorUnits units.costMinorUnits costLimit
    else return false
  -- a comparison with a null limit is not true
  | _ => return false

def setUsageReserved (u : TenantAgentBudgetUsage) (units : AgentBudgetUnits Int) :
    Except PgError TenantAgentBudgetUsage := do
  return { u with
    providerCallReserved := ← int4Add u.providerCallReserved units.providerCallUnits
    costReservedMinorUnits := ← int4Add u.costReservedMinorUnits units.costMinorUnits }

/-- `windowStart.toISOString().slice(0, 10)` of the `Date` the driver builds for a `date`
column: midnight in the process's time zone, printed in UTC. -/
def windowStartText (env : Env) (window : Day) : Day :=
  utcDay (window * dayMs - env.utcOffset)

def aggregateExhausted : BudgetFailure :=
  .agentBudgetError .BUDGET_EXHAUSTED "Tenant aggregate Agent budget is unavailable or exhausted"

/-- Claims the tenant's calendar-month allowance; work without provider calls and cost has no
aggregate window. -/
def reserveTenantAggregate (db : Db) (env : Env) (tenantId : Uuid) (currency : String)
    (units : AgentBudgetUnits Int) : Except BudgetFailure (Db × Option Day) :=
  if units.providerCallUnits = 0 && units.costMinorUnits = 0 then .ok (db, none)
  else
    let window := monthStart env.dbNow
    let db := insertUsageIfAbsent db tenantId window currency
    match db.usage.find (tenantId, window), db.tenants.find tenantId with
    | some u, some t => do
      if ← sql (aggregateGuard u t currency units) then
        let u' ← sql (setUsageReserved u units)
        let db ← sql (db.writeUsage u')
        return (db, some (windowStartText env window))
      else throw aggregateExhausted
    | _, _ => .error aggregateExhausted

/-- The reservation's INSERT: CHECK constraints, then the primary key and
`UQ_agent_budget_reservations_key`, then the foreign keys to the ledger and the usage row. -/
def insertReservation (db : Db) (r : AgentBudgetReservation) : Except PgError Db := do
  let sum ← int4Add (← int4Add (← int4Add r.units.stepUnits r.units.tokenUnits)
    r.units.providerCallUnits) r.units.costMinorUnits
  if !(0 ≤ r.units.stepUnits && 0 ≤ r.units.tokenUnits && 0 ≤ r.units.providerCallUnits
      && 0 ≤ r.units.costMinorUnits && 0 < sum) then
    .error .checkViolation
  -- the unique key of the ledger, which a racing claim may have taken
  else if db.reservations.rows.any fun x =>
      x.ledgerId = r.ledgerId && x.idempotencyKey = r.idempotencyKey then
    .error .uniqueViolation
  else
    match db.reservations.insert r with
    | none => .error .uniqueViolation
    | some reservations =>
      if (db.findLedger r.ledgerId r.tenantId).isNone then .error .foreignKeyViolation
      else if r.aggregateWindowStart.any fun w => (db.usage.find (r.tenantId, w)).isNone then
        .error .foreignKeyViolation
      else .ok { db with reservations }

/-- The rest of the first transaction, under the ledger's row lock: the conditional update,
the tenant aggregate and the reservation row. -/
def reserveClaim (db : Db) (env : Env) (newId : Uuid) (input : ReserveInput)
    (units : AgentBudgetUnits Int) : Except BudgetFailure (Db × AgentBudgetReservationReceipt) :=
  match db.findLedger input.ledgerId input.tenantId with
  | none => .error (throwReservationFailure db env input)
  | some l => do
    if ← sql (reserveGuard l units input.expectedVersion env.dbNow) then
      let l' ← sql (setReserved l units)
      let db ← sql (db.writeLedger l')
      -- a refusal by the aggregate rolls the ledger's update back with it
      let (db, aggregateWindowStart) ←
        reserveTenantAggregate db env input.tenantId (jsTrim l'.currency) units
      let r : AgentBudgetReservation := {
        id := newId
        tenantId := input.tenantId
        ledgerId := input.ledgerId
        idempotencyKey := input.idempotencyKey
        units
        aggregateWindowStart }
      let db ← sql (insertReservation db r)
      return (db, receipt r l' false env)
    else throw (throwReservationFailure db env input)

/-- The second transaction, after a unique violation rolled the first one back. -/
def reserveRecover (db : Db) (env : Env) (input : ReserveInput)
    (units : AgentBudgetUnits Int) : Except BudgetFailure AgentBudgetReservationReceipt :=
  match db.findReservationByKey input with
  | none => .error .entityNotFound
  | some existing => do
    assertSameUnits existing units
    receiptFor db existing true env

/-! ## `commit`, `release` and `markUnknown` -/

/-- Locks the reservation and then its ledger, and runs `action` on the two rows. -/
def resolveReservation (db : Db) (tenantId reservationId : Uuid)
    (action : AgentBudgetReservation → AgentBudgetLedger →
      Except BudgetFailure (Db × AgentBudgetReservationReceipt)) :
    Except BudgetFailure (Db × AgentBudgetReservationReceipt) :=
  match (db.reservations.find reservationId).filter fun r => r.tenantId = tenantId with
  | none => .error (conflict "Budget reservation does not exist")
  | some reservation =>
    match db.findLedger reservation.ledgerId tenantId with
    | none => .error (conflict "The reservation ledger no longer exists")
    | some ledger => action reservation ledger

/-- `costUsed + costReserved - reservedCost + actualCost <= limit`. -/
def costFits (used reserved reservedCost actualCost limit : Int) : Except PgError Bool := do
  let held ← int4Add used reserved
  let rest ← int4Sub held reservedCost
  let settled ← int4Add rest actualCost
  return settled ≤ limit

def setCommitted (l : AgentBudgetLedger) (u : AgentBudgetUnits Int) (actualCost : Int) :
    Except PgError AgentBudgetLedger := do
  return { l with
    stepReserved := ← int4Sub l.stepReserved u.stepUnits
    stepUsed := ← int4Add l.stepUsed u.stepUnits
    tokenReserved := ← int4Sub l.tokenReserved u.tokenUnits
    tokenUsed := ← int4Add l.tokenUsed u.tokenUnits
    providerCallReserved := ← int4Sub l.providerCallReserved u.providerCallUnits
    providerCallUsed := ← int4Add l.providerCallUsed u.providerCallUnits
    costReservedMinorUnits := ← int4Sub l.costReservedMinorUnits u.costMinorUnits
    costUsedMinorUnits := ← int4Add l.costUsedMinorUnits actualCost
    version := ← int4Add l.version 1 }

def setUsageCommitted (u : TenantAgentBudgetUsage) (units : AgentBudgetUnits Int)
    (actualCost : Int) : Except PgError TenantAgentBudgetUsage := do
  return { u with
    providerCallReserved := ← int4Sub u.providerCallReserved units.providerCallUnits
    providerCallUsed := ← int4Add u.providerCallUsed units.providerCallUnits
    costReservedMinorUnits := ← int4Sub u.costReservedMinorUnits units.costMinorUnits
    costUsedMinorUnits := ← int4Add u.costUsedMinorUnits actualCost }

/-- An actual cost above the reserved one needs room under the tenant's current limit. -/
def commitAggregateGuard (db : Db) (u : TenantAgentBudgetUsage) (units : AgentBudgetUnits Int)
    (actualCost : Int) : Except PgError Bool :=
  if units.providerCallUnits ≤ u.providerCallReserved
      && units.costMinorUnits ≤ u.costReservedMinorUnits then
    -- spending no more than was reserved cannot exceed any limit
    if actualCost ≤ units.costMinorUnits then return true
    else
      match db.tenants.find u.tenantId with
      | some ⟨_, _, some costLimit, some tenantCurrency⟩ =>
        if btrim tenantCurrency = btrim u.currency then
          costFits u.costUsedMinorUnits u.costReservedMinorUnits units.costMinorUnits actualCost
            costLimit
        else return false
      | _ => return false
  else return false

def actualCostExceeds : BudgetFailure :=
  .agentBudgetError .BUDGET_EXHAUSTED
    "Actual provider cost exceeds the tenant aggregate Agent budget"

def commitTenantAggregate (db : Db) (r : AgentBudgetReservation) (actualCost : Int) :
    Except BudgetFailure Db :=
  match r.aggregateWindowStart with
  -- free work has no window, and then no row is charged here
  | none => .ok db
  | some window =>
    match db.usage.find (r.tenantId, window) with
    | none => .error actualCostExceeds
    | some u => do
      if ← sql (commitAggregateGuard db u r.units actualCost) then
        let u' ← sql (setUsageCommitted u r.units actualCost)
        sql (db.writeUsage u')
      else throw actualCostExceeds

def onlyUnknown : BudgetFailure :=
  conflict "Only an UNKNOWN reservation can be reconciled manually"

def AgentBudgetReservation.asCommitted (r : AgentBudgetReservation) (env : Env)
    (input : CommitInput) (actualCost : Int) : AgentBudgetReservation :=
  { r with
    status := .COMMITTED
    actualCostMinorUnits := some actualCost
    resolvedAt := some env.processNow
    resolvedBy := input.resolvedBy
    resolutionNote := input.resolutionNote }

/-- Moves the units from reserved to used, the cost at its actual value. -/
def commitAction (db : Db) (env : Env) (input : CommitInput) (actual : Option Int)
    (reservation : AgentBudgetReservation) (ledger : AgentBudgetLedger) :
    Except BudgetFailure (Db × AgentBudgetReservationReceipt) :=
  if reservation.status = .COMMITTED then
    -- committing twice is a replay, except for a reviewer
    if input.requireUnknown then .error onlyUnknown
    else .ok (db, receipt reservation ledger false env)
  else if input.requireUnknown && reservation.status ≠ .UNKNOWN then .error onlyUnknown
  else if reservation.status = .RELEASED then
    .error (conflict "A released budget reservation cannot be committed")
  else do
    let actualCost := actual.getD reservation.units.costMinorUnits
    if ← sql (costFits ledger.costUsedMinorUnits ledger.costReservedMinorUnits
        reservation.units.costMinorUnits actualCost ledger.costLimitMinorUnits) then
      let ledger' ← sql (setCommitted ledger reservation.units actualCost)
      let db ← sql (db.writeLedger ledger')
      let db ← commitTenantAggregate db reservation actualCost
      let reservation' := reservation.asCommitted env input actualCost
      let db ← sql (db.writeReservation reservation')
      return (db, receipt reservation' ledger' false env)
    else
      throw (.agentBudgetError .BUDGET_EXHAUSTED
        "Actual provider cost exceeds the authoritative budget")

def commit (db : Db) (env : Env) (input : CommitInput) :
    Except BudgetFailure (Db × AgentBudgetReservationReceipt) := do
  let actual ← input.actualCostMinorUnits.mapM fun v => assertNonnegativeInt v "actual cost"
  if input.requireUnknown then
    validateManualResolution input.resolvedBy input.resolutionNote
  resolveReservation db input.tenantId input.reservationId (commitAction db env input actual)

def setReleased (l : AgentBudgetLedger) (u : AgentBudgetUnits Int) :
    Except PgError AgentBudgetLedger := do
  return { l with
    stepReserved := ← int4Sub l.stepReserved u.stepUnits
    tokenReserved := ← int4Sub l.tokenReserved u.tokenUnits
    providerCallReserved := ← int4Sub l.providerCallReserved u.providerCallUnits
    costReservedMinorUnits := ← int4Sub l.costReservedMinorUnits u.costMinorUnits
    version := ← int4Add l.version 1 }

def setUsageReleased (u : TenantAgentBudgetUsage) (units : AgentBudgetUnits Int) :
    Except PgError TenantAgentBudgetUsage := do
  return { u with
    providerCallReserved := ← int4Sub u.providerCallReserved units.providerCallUnits
    costReservedMinorUnits := ← int4Sub u.costReservedMinorUnits units.costMinorUnits }

def releaseTenantAggregate (db : Db) (r : AgentBudgetReservation) : Except BudgetFailure Db :=
  match r.aggregateWindowStart with
  | none => .ok db
  | some window =>
    match db.usage.find (r.tenantId, window) with
    | none => .error (conflict "Tenant aggregate reservation no longer exists")
    | some u =>
      if r.units.providerCallUnits ≤ u.providerCallReserved
          && r.units.costMinorUnits ≤ u.costReservedMinorUnits then do
        let u' ← sql (setUsageReleased u r.units)
        sql (db.writeUsage u')
      else .error (conflict "Tenant aggregate reservation no longer exists")

def AgentBudgetReservation.asReleased (r : AgentBudgetReservation) (env : Env)
    (resolution : Option ReleaseResolution) : AgentBudgetReservation :=
  { r with
    status := .RELEASED
    resolvedAt := some env.processNow
    resolvedBy := resolution.map (·.resolvedBy)
    resolutionNote := resolution.map (·.resolutionNote) }

/-- Gives the reserved units back. -/
def releaseAction (db : Db) (env : Env) (resolution : Option ReleaseResolution)
    (reservation : AgentBudgetReservation) (ledger : AgentBudgetLedger) :
    Except BudgetFailure (Db × AgentBudgetReservationReceipt) :=
  if reservation.status = .RELEASED then
    -- releasing twice is a replay, except for a reviewer
    if resolution.isSome then .error onlyUnknown
    else .ok (db, receipt reservation ledger false env)
  else if resolution.isSome && reservation.status ≠ .UNKNOWN then .error onlyUnknown
  else if reservation.status = .COMMITTED then
    .error (conflict "A committed budget reservation cannot be released")
  else do
    let ledger' ← sql (setReleased ledger reservation.units)
    let db ← sql (db.writeLedger ledger')
    let db ← releaseTenantAggregate db reservation
    let reservation' := reservation.asReleased env resolution
    let db ← sql (db.writeReservation reservation')
    return (db, receipt reservation' ledger' false env)

def release (db : Db) (env : Env) (tenantId reservationId : Uuid)
    (resolution : Option ReleaseResolution) :
    Except BudgetFailure (Db × AgentBudgetReservationReceipt) := do
  if let some r := resolution then
    validateManualResolution (some r.resolvedBy) (some r.resolutionNote)
  resolveReservation db tenantId reservationId (releaseAction db env resolution)

def AgentBudgetReservation.asUnknown (r : AgentBudgetReservation) : AgentBudgetReservation :=
  { r with status := .UNKNOWN }

def markUnknownAction (db : Db) (env : Env) (reservation : AgentBudgetReservation)
    (ledger : AgentBudgetLedger) : Except BudgetFailure (Db × AgentBudgetReservationReceipt) :=
  if reservation.status = .RESERVED then do
    let reservation' := reservation.asUnknown
    let db ← sql (db.writeReservation reservation')
    return (db, receipt reservation' ledger false env)
  else if reservation.status ≠ .UNKNOWN then
    .error (conflict "Only an unresolved reservation can become outcome-unknown")
  else .ok (db, receipt reservation ledger false env)

def markUnknown (db : Db) (env : Env) (tenantId reservationId : Uuid) :
    Except BudgetFailure (Db × AgentBudgetReservationReceipt) :=
  resolveReservation db tenantId reservationId (markUnknownAction db env)

end MortgageAgent.Budget
