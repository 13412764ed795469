import MortgageAgent.Lib.Table
import MortgageAgent.Platform

/-!
# Agent budget ledgers

The rows and the operations of `AgentBudgetLedgerService`: a ledger per workflow run with
a limit, a used and a reserved amount in four dimensions, the idempotent reservations
against it, and the tenant's calendar-month aggregate, a third copy of the same
accounting.

Every operation is one transaction. It is written as a function that returns either the
database after the commit or the error that rolled it back, so a failed operation cannot
leave a partial write behind. `integer` arithmetic raises 22003 outside its range, and the
table constraints of the migrations are checked where a row is written.

`reserve` alone is not one transaction: its first transaction reads the key without a lock
(`reservePreRead`) and then claims capacity under the ledger's row lock (`reserveClaim`),
and a unique violation sends it to a second transaction (`reserveRecover`). The three parts
are separate functions, and the interleavings of their callers are in `Budget.System`.
-/

namespace MortgageAgent.Budget

/-! ## Failures -/

inductive AgentBudgetFailureCode where
  | BUDGET_EXHAUSTED
  | DEADLINE_EXCEEDED
  | LEDGER_VERSION_CONFLICT
  | LEDGER_CLOSED
  | RESERVATION_CONFLICT
  deriving DecidableEq, Repr

/-- What an operation throws: the service's own error, TypeORM's failed `findOneByOrFail`,
or a raw database error. -/
inductive BudgetFailure where
  | agentBudgetError (code : AgentBudgetFailureCode) (message : String)
  | entityNotFound
  | database (error : PgError)
  deriving DecidableEq, Repr

/-- A statement's error leaves the operation as a raw database error. -/
def sql {α : Type} (x : Except PgError α) : Except BudgetFailure α :=
  x.mapError .database

/-! ## Rows -/

/-- The four budget dimensions. -/
inductive Dimension where
  | step
  | token
  | providerCall
  | cost
  deriving DecidableEq, Repr

/-- Units as a request carries them (`ν := JsNumber`) or as the columns hold them
(`ν := Int`). -/
structure AgentBudgetUnits (ν : Type) where
  stepUnits : ν
  tokenUnits : ν
  providerCallUnits : ν
  costMinorUnits : ν
  deriving DecidableEq, Repr

def AgentBudgetUnits.get {ν : Type} (u : AgentBudgetUnits ν) : Dimension → ν
  | .step => u.stepUnits
  | .token => u.tokenUnits
  | .providerCall => u.providerCallUnits
  | .cost => u.costMinorUnits

/-- `agent_budget_ledgers`. -/
structure AgentBudgetLedger where
  id : Uuid
  tenantId : Uuid
  caseId : Uuid
  workflowRunId : String
  stepLimit : Int
  stepUsed : Int := 0
  stepReserved : Int := 0
  tokenLimit : Int
  tokenUsed : Int := 0
  tokenReserved : Int := 0
  providerCallLimit : Int
  providerCallUsed : Int := 0
  providerCallReserved : Int := 0
  costLimitMinorUnits : Int
  costUsedMinorUnits : Int := 0
  costReservedMinorUnits : Int := 0
  currency : String
  startedAt : Instant
  deadlineAt : Instant
  version : Int := 1
  closedAt : Option Instant := none
  deriving DecidableEq, Repr

def AgentBudgetLedger.limit (l : AgentBudgetLedger) : Dimension → Int
  | .step => l.stepLimit
  | .token => l.tokenLimit
  | .providerCall => l.providerCallLimit
  | .cost => l.costLimitMinorUnits

def AgentBudgetLedger.used (l : AgentBudgetLedger) : Dimension → Int
  | .step => l.stepUsed
  | .token => l.tokenUsed
  | .providerCall => l.providerCallUsed
  | .cost => l.costUsedMinorUnits

def AgentBudgetLedger.reserved (l : AgentBudgetLedger) : Dimension → Int
  | .step => l.stepReserved
  | .token => l.tokenReserved
  | .providerCall => l.providerCallReserved
  | .cost => l.costReservedMinorUnits

/-- The table's CHECK constraints. -/
def AgentBudgetLedger.check (l : AgentBudgetLedger) : Bool :=
  0 ≤ l.stepLimit && 0 ≤ l.stepUsed && 0 ≤ l.stepReserved
    && 0 ≤ l.tokenLimit && 0 ≤ l.tokenUsed && 0 ≤ l.tokenReserved
    && 0 ≤ l.providerCallLimit && 0 ≤ l.providerCallUsed && 0 ≤ l.providerCallReserved
    && 0 ≤ l.costLimitMinorUnits && 0 ≤ l.costUsedMinorUnits && 0 ≤ l.costReservedMinorUnits
    && 0 < l.version && l.startedAt < l.deadlineAt

inductive AgentBudgetReservationStatus where
  | RESERVED
  | COMMITTED
  | RELEASED
  | UNKNOWN
  deriving DecidableEq, Repr

/-- `agent_budget_reservations`. `units` are its four unit columns. -/
structure AgentBudgetReservation where
  id : Uuid
  tenantId : Uuid
  ledgerId : Uuid
  idempotencyKey : String
  units : AgentBudgetUnits Int
  aggregateWindowStart : Option Day
  actualCostMinorUnits : Option Int := none
  status : AgentBudgetReservationStatus := .RESERVED
  resolvedAt : Option Instant := none
  resolvedBy : Option String := none
  resolutionNote : Option String := none
  deriving DecidableEq, Repr

/-- Capacity is still held: `RESERVED`, or `UNKNOWN` until reconciliation. -/
def AgentBudgetReservation.held (r : AgentBudgetReservation) : Bool :=
  r.status = .RESERVED || r.status = .UNKNOWN

def AgentBudgetReservation.committed (r : AgentBudgetReservation) : Bool :=
  r.status = .COMMITTED

/-- What a settled reservation spent: its units, and for cost the actual one. -/
def AgentBudgetReservation.spent (r : AgentBudgetReservation) : Dimension → Int
  | .cost => r.actualCostMinorUnits.getD 0
  | d => r.units.get d

/-- `tenant_agent_budget_usage`, keyed by tenant and month. -/
structure TenantAgentBudgetUsage where
  tenantId : Uuid
  windowStart : Day
  providerCallUsed : Int := 0
  providerCallReserved : Int := 0
  costUsedMinorUnits : Int := 0
  costReservedMinorUnits : Int := 0
  currency : String
  deriving DecidableEq, Repr

def TenantAgentBudgetUsage.key (u : TenantAgentBudgetUsage) : Uuid × Day :=
  (u.tenantId, u.windowStart)

def TenantAgentBudgetUsage.check (u : TenantAgentBudgetUsage) : Bool :=
  0 ≤ u.providerCallUsed && 0 ≤ u.providerCallReserved
    && 0 ≤ u.costUsedMinorUnits && 0 ≤ u.costReservedMinorUnits

/-- The budget columns of `tenants`; all null means that cost-bearing work is not
authorised. -/
structure Tenant where
  id : Uuid
  agentMonthlyProviderCallLimit : Option Int := none
  agentMonthlyCostLimitMinorUnits : Option Int := none
  agentBudgetCurrency : Option String := none
  deriving DecidableEq, Repr

/-- `CK_tenants_agent_aggregate_budget` and the columns' range. -/
def Tenant.check (t : Tenant) : Bool :=
  match t.agentMonthlyProviderCallLimit, t.agentMonthlyCostLimitMinorUnits,
    t.agentBudgetCurrency with
  | none, none, none => true
  | some calls, some cost, some currency =>
    0 ≤ calls && inInt4 calls && 0 ≤ cost && inInt4 cost && isCurrencyCode currency
  | _, _, _ => false

/-- The rows the budget service reads and writes. -/
structure Db where
  tenants : Table Tenant Tenant.id
  ledgers : Table AgentBudgetLedger AgentBudgetLedger.id
  reservations : Table AgentBudgetReservation AgentBudgetReservation.id
  usage : Table TenantAgentBudgetUsage TenantAgentBudgetUsage.key

/-- The clocks and the time zone one operation runs under: `now()` in the database,
`Date.now()` in the process, and the process's offset east of UTC. -/
structure Env where
  dbNow : Instant
  processNow : Instant
  utcOffset : Int := 0
  deriving DecidableEq, Repr

/-! ## Inputs and validation -/

structure AgentBudgetLedgerInput where
  tenantId : Uuid
  caseId : Uuid
  workflowRunId : String
  stepLimit : JsNumber
  tokenLimit : JsNumber
  providerCallLimit : JsNumber
  costLimitMinorUnits : JsNumber
  currency : String
  startedAt : Instant
  deadlineAt : Instant
  deriving DecidableEq, Repr

structure ReserveInput where
  tenantId : Uuid
  ledgerId : Uuid
  idempotencyKey : String
  expectedVersion : Int
  units : AgentBudgetUnits JsNumber
  deriving DecidableEq, Repr

structure CommitInput where
  tenantId : Uuid
  reservationId : Uuid
  actualCostMinorUnits : Option JsNumber := none
  requireUnknown : Bool := false
  resolvedBy : Option String := none
  resolutionNote : Option String := none
  deriving DecidableEq, Repr

/-- `release`'s optional resolution, which always carries `requireUnknown: true`. -/
structure ReleaseResolution where
  resolvedBy : String
  resolutionNote : String
  deriving DecidableEq, Repr

def conflict (message : String) : BudgetFailure :=
  .agentBudgetError .RESERVATION_CONFLICT message

def assertNonnegativeInt (value : JsNumber) (name : String) : Except BudgetFailure Int :=
  match value with
  | .int v =>
    if 0 ≤ v && v ≤ 2147483647 then .ok v
    else .error (conflict (name ++ " must be a nonnegative 32-bit safe integer"))
  | .nonInteger => .error (conflict (name ++ " must be a nonnegative 32-bit safe integer"))

def validateUnits (units : AgentBudgetUnits JsNumber) :
    Except BudgetFailure (AgentBudgetUnits Int) := do
  let stepUnits ← assertNonnegativeInt units.stepUnits "stepUnits"
  let tokenUnits ← assertNonnegativeInt units.tokenUnits "tokenUnits"
  let providerCallUnits ← assertNonnegativeInt units.providerCallUnits "providerCallUnits"
  let costMinorUnits ← assertNonnegativeInt units.costMinorUnits "costMinorUnits"
  if stepUnits = 0 && tokenUnits = 0 && providerCallUnits = 0 && costMinorUnits = 0 then
    throw (conflict "A budget reservation must claim at least one unit")
  return { stepUnits, tokenUnits, providerCallUnits, costMinorUnits }

def validateManualResolution (resolvedBy resolutionNote : Option String) :
    Except BudgetFailure Unit := do
  match resolvedBy with
  | some by_ =>
    if jsTrim by_ = "" || 200 < jsLength by_ then
      throw (conflict "Manual reconciliation requires a bounded reviewer identity")
  | none => throw (conflict "Manual reconciliation requires a bounded reviewer identity")
  match resolutionNote with
  | some note =>
    if jsTrim note = "" || jsLength note < 10 || 2000 < jsLength note then
      throw (conflict "Manual reconciliation requires a 10-2000 character evidence note")
  | none => throw (conflict "Manual reconciliation requires a 10-2000 character evidence note")

def assertSameUnits (reservation : AgentBudgetReservation) (units : AgentBudgetUnits Int) :
    Except BudgetFailure Unit :=
  if reservation.units = units then .ok ()
  else .error (conflict "A reservation idempotency key cannot be reused for different units")

/-! ## Receipts -/

structure AgentBudgetSnapshot where
  ledgerId : Uuid
  version : Int
  remainingSteps : Int
  remainingTokens : Int
  remainingProviderCalls : Int
  remainingCostMinorUnits : Int
  remainingDurationMs : Int
  currency : String
  startedAt : Instant
  deadlineAt : Instant
  closed : Bool
  deriving DecidableEq, Repr

structure AgentBudgetReservationReceipt where
  reservationId : Uuid
  idempotencyKey : String
  status : AgentBudgetReservationStatus
  units : AgentBudgetUnits Int
  actualCostMinorUnits : Option Int
  replayed : Bool
  ledger : AgentBudgetSnapshot
  deriving DecidableEq, Repr

def snapshot (ledger : AgentBudgetLedger) (env : Env) : AgentBudgetSnapshot where
  ledgerId := ledger.id
  version := ledger.version
  remainingSteps := max 0 (ledger.stepLimit - ledger.stepUsed - ledger.stepReserved)
  remainingTokens := max 0 (ledger.tokenLimit - ledger.tokenUsed - ledger.tokenReserved)
  remainingProviderCalls :=
    max 0 (ledger.providerCallLimit - ledger.providerCallUsed - ledger.providerCallReserved)
  remainingCostMinorUnits :=
    max 0 (ledger.costLimitMinorUnits - ledger.costUsedMinorUnits
      - ledger.costReservedMinorUnits)
  remainingDurationMs := max 0 (ledger.deadlineAt - env.processNow)
  currency := jsTrim ledger.currency
  startedAt := ledger.startedAt
  deadlineAt := ledger.deadlineAt
  closed := ledger.closedAt.isSome

def receipt (reservation : AgentBudgetReservation) (ledger : AgentBudgetLedger)
    (replayed : Bool) (env : Env) : AgentBudgetReservationReceipt where
  reservationId := reservation.id
  idempotencyKey := reservation.idempotencyKey
  status := reservation.status
  units := reservation.units
  actualCostMinorUnits := reservation.actualCostMinorUnits
  replayed := replayed
  ledger := snapshot ledger env

/-- The ledger with this id, in this tenant. -/
def Db.findLedger (db : Db) (id tenantId : Uuid) : Option AgentBudgetLedger :=
  (db.ledgers.find id).filter fun l => l.tenantId = tenantId

def receiptFor (db : Db) (reservation : AgentBudgetReservation) (replayed : Bool) (env : Env) :
    Except BudgetFailure AgentBudgetReservationReceipt :=
  match db.findLedger reservation.ledgerId reservation.tenantId with
  | some ledger => .ok (receipt reservation ledger replayed env)
  | none => .error .entityNotFound

end MortgageAgent.Budget
