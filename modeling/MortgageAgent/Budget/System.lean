import MortgageAgent.Lib.Run
import MortgageAgent.Budget.Service

/-!
# Interleaved callers of the budget service

Any number of workers call the service. A step of the system is one transaction of one
call, except that a `reserve` is two or three: its unlocked read of the key, its claim under
the ledger's row lock, and the recovery read after a unique violation. Between the steps of
one `reserve`, every other caller may move, and the clocks of any two steps are unrelated.

* **`System`** / **`Label`** / **`step`** — the rows, the `reserve` calls in flight, and what
  one transaction does to them, together with what its caller receives.
* **`System.init`** — no ledger, no reservation, no usage row and no call in flight.

A worker that dies inside a `reserve` is a call that never takes its next step: its open
transaction is rolled back, so it has written nothing.
-/

namespace MortgageAgent.Budget

open Runs

/-! ## The system -/

/-- Where a `reserve` call stands between its transactions. -/
inductive CallState where
  | idle
  | claiming (input : ReserveInput) (units : AgentBudgetUnits Int)
  | recovering (input : ReserveInput) (units : AgentBudgetUnits Int)
  deriving DecidableEq, Repr

structure System where
  db : Db
  calls : Nat → CallState

/-- One atomic step: which call moves, under which clocks and with which inputs. -/
inductive Label where
  | createOrLoad (env : Env) (newId : Uuid) (input : AgentBudgetLedgerInput)
  | reserveRead (call : Nat) (env : Env) (input : ReserveInput)
  | reserveClaim (call : Nat) (env : Env) (newId : Uuid)
  | reserveRecover (call : Nat) (env : Env)
  | commit (env : Env) (input : CommitInput)
  | release (env : Env) (tenantId reservationId : Uuid) (resolution : Option ReleaseResolution)
  | markUnknown (env : Env) (tenantId reservationId : Uuid)
  /-- the operator's `set-tenant-agent-aggregate-budget` -/
  | setTenantBudget (tenant : Tenant)
  deriving DecidableEq, Repr

/-- What the caller of a step receives. -/
inductive Response where
  /-- the call is not over, or the label named no call in that position -/
  | pending
  | snapshot (result : Except BudgetFailure AgentBudgetSnapshot)
  | receipt (result : Except BudgetFailure AgentBudgetReservationReceipt)

/-- The outcome of a transaction that settles a reservation: a failure rolls it back. -/
def System.settle (s : System)
    (result : Except BudgetFailure (Db × AgentBudgetReservationReceipt)) : System × Response :=
  match result with
  | .ok (db, r) => ({ s with db }, .receipt (.ok r))
  | .error e => (s, .receipt (.error e))

def System.setCall (s : System) (call : Nat) (c : CallState) : System :=
  { s with calls := Function.update s.calls call c }

def System.reserveRead (s : System) (call : Nat) (env : Env) (input : ReserveInput) :
    System × Response :=
  match s.calls call with
  | .idle =>
    match validateReserve input with
    | .error e => (s, .receipt (.error e))
    | .ok units =>
      match reservePreRead s.db env input units with
      | .error e => (s, .receipt (.error e))
      | .ok (some r) => (s, .receipt (.ok r))
      | .ok none => (s.setCall call (.claiming input units), .pending)
  | _ => (s, .pending)

def System.reserveClaim (s : System) (call : Nat) (env : Env) (newId : Uuid) :
    System × Response :=
  match s.calls call with
  | .claiming input units =>
    match Budget.reserveClaim s.db env newId input units with
    | .ok (db, r) => ({ s with db }.setCall call .idle, .receipt (.ok r))
    | .error (.database .uniqueViolation) =>
      (s.setCall call (.recovering input units), .pending)
    | .error e => (s.setCall call .idle, .receipt (.error e))
  | _ => (s, .pending)

def System.reserveRecover (s : System) (call : Nat) (env : Env) : System × Response :=
  match s.calls call with
  | .recovering input units =>
    (s.setCall call .idle, .receipt (Budget.reserveRecover s.db env input units))
  | _ => (s, .pending)

def System.setTenantBudget (s : System) (tenant : Tenant) : System :=
  if tenant.check then { s with db := { s.db with tenants := s.db.tenants.put tenant } } else s

/-- One step, with what its caller receives. -/
def System.react (s : System) : Label → System × Response
  | .createOrLoad env newId input =>
    let (db, result) := Budget.createOrLoad s.db env newId input
    ({ s with db }, .snapshot result)
  | .reserveRead call env input => s.reserveRead call env input
  | .reserveClaim call env newId => s.reserveClaim call env newId
  | .reserveRecover call env => s.reserveRecover call env
  | .commit env input => s.settle (Budget.commit s.db env input)
  | .release env tenantId reservationId resolution =>
    s.settle (Budget.release s.db env tenantId reservationId resolution)
  | .markUnknown env tenantId reservationId =>
    s.settle (Budget.markUnknown s.db env tenantId reservationId)
  | .setTenantBudget tenant => (s.setTenantBudget tenant, .pending)

def step (s : System) (a : Label) : System := (s.react a).1

/-- No ledger, no reservation, no usage row, no call in flight; any tenants. -/
def System.init (tenants : Table Tenant Tenant.id) : System where
  db := { tenants, ledgers := .empty, reservations := .empty, usage := .empty }
  calls := fun _ => .idle

end MortgageAgent.Budget
