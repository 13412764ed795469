import MortgageAgent.Lib.Run
import MortgageAgent.Outbox
import MortgageAgent.Workflow.Case

/-!
# Creating a case

`CasesService.createCase` looks the case up by its idempotency key, inserts it together with its
`loan_case.created` event in one transaction, and grants the consent in a second one. A retry
that finds the case returns it as it is. Any number of calls run at once; each of their
transactions may commit, be rolled back, or commit without its answer arriving, and a process may
die anywhere.

* **`CasesDb`** / **`createCaseStep`** — the rows, and a call cut at its transactions.
* **`CreateLabel`** / **`createStep`** — calls for any tenants and keys, in any order.
* **`Inserted`** / **`insertCase_ok`** — what the first transaction writes.
-/

namespace MortgageAgent.Cases

open Runs
open Outbox
open Workflow (LoanType CaseStatus)

/-! ## Rows -/

/-- A request after its validation. -/
structure CreateCaseDto where
  borrowerId : String
  requestedAmount : JsDecimal
  loanType : LoanType
  statedMonthlyIncome : JsDecimal
  jurisdictionCode : String
  deriving DecidableEq

/-- `loan_cases`; a `numeric(14,2)` column counts hundredths. -/
structure LoanCase where
  id : Uuid
  tenantId : Uuid
  idempotencyKey : String
  borrowerId : String
  requestedAmount : Int
  loanType : LoanType
  statedMonthlyIncome : Int
  jurisdictionCode : String
  status : CaseStatus
  version : Nat := 1
  deriving DecidableEq

/-- The columns of `UQ_loan_cases_tenant_idempotency_key`. -/
def LoanCase.key (c : LoanCase) : Uuid × String := (c.tenantId, c.idempotencyKey)

/-- `consent_records`. -/
structure ConsentRecord where
  id : Uuid
  tenantId : Uuid
  caseId : Uuid
  purpose : String
  scope : String
  permittedPurposes : List String
  permittedDataClasses : List String
  grantedAt : Instant
  expiresAt : Option Instant := none
  revokedAt : Option Instant := none
  revocationReason : Option String := none
  deriving DecidableEq

/-- `loan_cases` under both of its unique constraints. -/
structure LoanCases where
  table : Table LoanCase LoanCase.id
  unique : (table.rows.map LoanCase.key).Nodup

def LoanCases.empty : LoanCases := ⟨.empty, List.nodup_nil⟩

def LoanCases.insert (t : LoanCases) (c : LoanCase) : Option LoanCases :=
  if hkey : c.key ∈ t.table.rows.map LoanCase.key then none
  else
    match hinsert : t.table.insert c with
    | none => none
    | some table => some ⟨table, by
        rw [Table.rows_of_insert hinsert, List.map_append, List.map_singleton]
        exact List.nodup_append_comm.mp (List.nodup_cons.mpr ⟨hkey, t.unique⟩)⟩

/-- `findOneBy({ tenantId, idempotencyKey })`. -/
def LoanCases.findByKey (t : LoanCases) (tenantId : Uuid) (idempotencyKey : String) :
    Option LoanCase :=
  t.table.rows.find? fun c => c.key = (tenantId, idempotencyKey)

structure CasesDb where
  /-- the ids of `tenants` -/
  tenants : List Uuid
  /-- the codes of `jurisdictions` -/
  jurisdictions : List String
  loanCases : LoanCases
  outbox : OutboxEvents
  consents : Table ConsentRecord ConsentRecord.id

/-! ## The transactions -/

/-- The clock, and the ids a transaction draws. -/
structure Env where
  now : Instant
  caseId : Uuid
  eventId : Uuid
  consentId : Uuid

inductive CreateCaseFailure where
  | notFound (message : String)
  | entityNotFound
  | database (error : PgError)
  /-- the connection failed -/
  | unavailable
  /-- the process died -/
  | stopped
  deriving DecidableEq, Repr

/-- `numeric(14,2)`: rounded half away from zero to hundredths, or 22003. -/
def numeric14_2 (v : JsDecimal) : Except PgError Int :=
  let e := v.exponent + 2
  let hundredths :=
    if 0 ≤ e then v.mantissa * 10 ^ e.toNat
    else
      let d := 10 ^ (-e).toNat
      v.mantissa.sign * ((v.mantissa.natAbs + d / 2) / d : Nat)
  if hundredths.natAbs < 10 ^ 14 then .ok hundredths else .error .numericValueOutOfRange

structure CreateCaseCall where
  idempotencyKey : String
  tenantId : Uuid
  dto : CreateCaseDto

def CreateCaseCall.newCase (call : CreateCaseCall) (env : Env) : Except PgError LoanCase := do
  let requestedAmount ← numeric14_2 call.dto.requestedAmount
  let statedMonthlyIncome ← numeric14_2 call.dto.statedMonthlyIncome
  return {
    id := env.caseId
    tenantId := call.tenantId
    idempotencyKey := call.idempotencyKey
    borrowerId := call.dto.borrowerId
    requestedAmount
    loanType := call.dto.loanType
    statedMonthlyIncome
    jurisdictionCode := call.dto.jurisdictionCode
    status := .DRAFT }

def loanTypeText : LoanType → String
  | .CONVENTIONAL => "CONVENTIONAL"
  | .FHA => "FHA"
  | .VA => "VA"
  | .JUMBO => "JUMBO"

def loanCaseCreated : String := "loan_case.created"

/-- The payload carries the numbers of the request, not those of the row. -/
def CreateCaseCall.createdPayload (call : CreateCaseCall) (caseId : Uuid) : Json :=
  .obj [
    ("caseId", .str (toString caseId)),
    ("borrowerId", .str call.dto.borrowerId),
    ("requestedAmount", .num call.dto.requestedAmount),
    ("loanType", .str (loanTypeText call.dto.loanType)),
    ("statedMonthlyIncome", .num call.dto.statedMonthlyIncome),
    ("jurisdictionCode", .str call.dto.jurisdictionCode)]

def CreateCaseCall.createdEvent (call : CreateCaseCall) (caseId : Uuid) : OutboxEventInput where
  tenantId := call.tenantId
  caseId
  eventType := loanCaseCreated
  payload := call.createdPayload caseId

/-- The case and its event, in one transaction. -/
def insertCase (signer : Signer) (db : CasesDb) (env : Env) (call : CreateCaseCall) :
    Except PgError (CasesDb × LoanCase) := do
  let created ← call.newCase env
  if db.tenants.contains created.tenantId && db.jurisdictions.contains created.jurisdictionCode then
    match db.loanCases.insert created with
    | none => .error .uniqueViolation
    | some loanCases => do
      let outbox ← writeOutboxEvent db.outbox signer env.eventId (call.createdEvent created.id)
      return ({ db with loanCases, outbox }, created)
  else .error .foreignKeyViolation

def DEFAULT_PURPOSE : String := "UNDERWRITING_EVIDENCE"

def DEFAULT_PROVIDER_DATA_CLASSES : List String :=
  ["INCOME", "CREDIT", "DOCUMENT", "ASSET", "IDENTITY"]

def DEFAULT_SCOPE : String := ",".intercalate DEFAULT_PROVIDER_DATA_CLASSES

def defaultConsent (env : Env) (tenantId caseId : Uuid) : ConsentRecord where
  id := env.consentId
  tenantId
  caseId
  purpose := DEFAULT_PURPOSE
  scope := DEFAULT_SCOPE
  permittedPurposes := [DEFAULT_PURPOSE]
  permittedDataClasses := DEFAULT_PROVIDER_DATA_CLASSES
  grantedAt := env.now

/-- `ConsentService.grantForCase`, with the default purpose and scope. -/
def grantForCase (db : CasesDb) (env : Env) (tenantId caseId : Uuid) : Except PgError CasesDb :=
  match db.consents.insert (defaultConsent env tenantId caseId) with
  | none => .error .uniqueViolation
  | some consents => .ok { db with consents }

/-! ## A call -/

/-- Where a `createCase` call stands: the transaction it sends next, or how it ended. -/
inductive CreateCaseState where
  | idle
  | findTenant (call : CreateCaseCall)
  | findJurisdiction (call : CreateCaseCall)
  | findExisting (call : CreateCaseCall)
  | create (call : CreateCaseCall)
  | grant (call : CreateCaseCall) (loanCase : LoanCase)
  /-- the read behind a unique violation -/
  | recover (call : CreateCaseCall)
  | returned (call : CreateCaseCall) (loanCase : LoanCase)
  | threw (failure : CreateCaseFailure)

/-- `catch (error)` around the two writing transactions. -/
def caught (call : CreateCaseCall) (error : PgError) : CreateCaseState :=
  if error = .uniqueViolation then .recover call else .threw (.database error)

/-- The next transaction of a call runs and its answer arrives. -/
def createCaseStep (signer : Signer) (db : CasesDb) (env : Env) :
    CreateCaseState → CasesDb × CreateCaseState
  | .findTenant call =>
    if db.tenants.contains call.tenantId then (db, .findJurisdiction call)
    else (db, .threw (.notFound ("Tenant " ++ toString call.tenantId ++ " not found")))
  | .findJurisdiction call =>
    if db.jurisdictions.contains call.dto.jurisdictionCode then (db, .findExisting call)
    else
      (db, .threw (.notFound ("Jurisdiction " ++ call.dto.jurisdictionCode ++ " not found")))
  | .findExisting call =>
    match db.loanCases.findByKey call.tenantId call.idempotencyKey with
    | some existing => (db, .returned call existing)
    | none => (db, .create call)
  | .create call =>
    match insertCase signer db env call with
    | .ok (db', loanCase) => (db', .grant call loanCase)
    | .error e => (db, caught call e)
  | .grant call loanCase =>
    match grantForCase db env call.tenantId loanCase.id with
    | .ok db' => (db', .returned call loanCase)
    | .error e => (db, caught call e)
  | .recover call =>
    match db.loanCases.findByKey call.tenantId call.idempotencyKey with
    | some loanCase => (db, .returned call loanCase)
    | none => (db, .threw .entityNotFound)
  | state => (db, state)

/-- The call has a transaction to send. -/
def CreateCaseState.running : CreateCaseState → Bool
  | .idle | .returned _ _ | .threw _ => false
  | _ => true

/-- The call gets an exception that is no unique violation, or its process dies. -/
def CreateCaseState.cutOff (state : CreateCaseState) (failure : CreateCaseFailure) :
    CreateCaseState :=
  if state.running then .threw failure else state

/-! ## Calls in any order -/

structure CreateSystem where
  db : CasesDb
  calls : Nat → CreateCaseState

inductive CreateLabel where
  | start (c : Nat) (call : CreateCaseCall)
  | run (c : Nat) (env : Env)
  /-- the next transaction is rolled back -/
  | lost (c : Nat)
  /-- the next transaction commits, and its answer does not arrive -/
  | unreported (c : Nat) (env : Env)
  | crash (c : Nat)

def CreateSystem.setCall (s : CreateSystem) (c : Nat) (state : CreateCaseState) : CreateSystem :=
  { s with calls := Function.update s.calls c state }

def createStep (signer : Signer) (s : CreateSystem) : CreateLabel → CreateSystem
  | .start c call =>
    match s.calls c with
    | .idle => s.setCall c (.findTenant call)
    | _ => s
  | .run c env =>
    let (db, state) := createCaseStep signer s.db env (s.calls c)
    { s with db }.setCall c state
  | .lost c => s.setCall c ((s.calls c).cutOff .unavailable)
  | .unreported c env =>
    { s with db := (createCaseStep signer s.db env (s.calls c)).1 }.setCall c
      ((s.calls c).cutOff .unavailable)
  | .crash c => s.setCall c ((s.calls c).cutOff .stopped)

/-- No case and no call yet, for any tenants and jurisdictions. -/
def CreateSystem.init (tenants : List Uuid) (jurisdictions : List String) : CreateSystem where
  db :=
    { tenants, jurisdictions, loanCases := .empty, outbox := .empty,
      consents := .empty }
  calls := fun _ => .idle

/-! ## What a transaction writes -/

theorem LoanCases.rows_of_insert {t t' : LoanCases} {c : LoanCase} (h : t.insert c = some t') :
    t'.table.rows = t.table.rows ++ [c] ∧ (∀ x ∈ t.table.rows, x.key ≠ c.key)
      ∧ ∀ x ∈ t.table.rows, x.id ≠ c.id := by
  unfold LoanCases.insert at h
  split at h
  · cases h
  next hkey =>
  split at h
  · cases h
  next table hinsert =>
  cases h
  refine ⟨Table.rows_of_insert hinsert, fun x hx hsame => hkey ?_, Table.key_fresh_of_insert hinsert⟩
  exact hsame ▸ List.mem_map_of_mem hx

theorem LoanCases.findByKey_eq_some {t : LoanCases} {tenantId : Uuid} {idempotencyKey : String}
    {c : LoanCase} (h : t.findByKey tenantId idempotencyKey = some c) :
    t.table.rows.filter (fun x => x.key = (tenantId, idempotencyKey)) = [c] := by
  have hmem : c ∈ t.table.rows := List.mem_of_find?_eq_some h
  have hkey : c.key = (tenantId, idempotencyKey) := by simpa using List.find?_some h
  rw [← hkey]
  exact List.filter_eq_singleton_of_nodup_map t.unique hmem

/-- The transaction that inserts a case. -/
structure Inserted (signer : Signer) (db db' : CasesDb) (env : Env) (call : CreateCaseCall)
    (created : LoanCase) : Prop where
  key : created.key = (call.tenantId, call.idempotencyKey)
  cases : db'.loanCases.table.rows = db.loanCases.table.rows ++ [created]
  freshKey : ∀ c ∈ db.loanCases.table.rows, c.key ≠ created.key
  freshId : ∀ c ∈ db.loanCases.table.rows, c.id ≠ created.id
  outbox : db'.outbox.rows
    = db.outbox.rows ++ [(call.createdEvent created.id).event signer env.eventId]
  consents : db'.consents = db.consents

theorem insertCase_ok {signer : Signer} {db db' : CasesDb} {env : Env} {call : CreateCaseCall}
    {created : LoanCase} (h : insertCase signer db env call = .ok (db', created)) :
    Inserted signer db db' env call created := by
  unfold insertCase at h
  obtain ⟨c, hnew, h⟩ := ok_of_bind_ok h
  have hkey : c.key = (call.tenantId, call.idempotencyKey) := by
    unfold CreateCaseCall.newCase at hnew
    obtain ⟨requested, -, hnew⟩ := ok_of_bind_ok hnew
    obtain ⟨stated, -, hnew⟩ := ok_of_bind_ok hnew
    cases hnew
    rfl
  split at h
  swap
  · cases h
  split at h
  · cases h
  next loanCases hcases =>
  obtain ⟨outbox, houtbox, h⟩ := ok_of_bind_ok h
  cases h
  obtain ⟨hrows, hfreshKey, hfreshId⟩ := LoanCases.rows_of_insert hcases
  exact ⟨hkey, hrows, hfreshKey, hfreshId, rows_of_writeOutboxEvent houtbox, rfl⟩

end MortgageAgent.Cases
