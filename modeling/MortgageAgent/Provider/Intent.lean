import MortgageAgent.Provider.Authorization

/-!
# The operation intent

`ProviderOperationIntentService` and the reconciliation sweep. `prepare` is one transaction of
up to three statements: an unlocked read of the logical key, then the insert, or the refresh of
the grant of a row that was read as `PREPARED`. Other transactions commit between the
statements, so each is a function of its own. The `mark*` methods and the manual resolution
are compare-and-swap updates on the state column.
-/

namespace MortgageAgent.Provider

/-! ## `prepare` -/

structure PrepareIntentInput where
  tenantId : Uuid
  caseId : Uuid
  providerId : String
  capability : ProviderCapability
  effectClass : ProviderEffectClass
  authorizationGrantId : Uuid
  logicalOperationKey : String
  requestPayloadForFingerprint : Json

def PrepareIntentInput.key (input : PrepareIntentInput) : OperationKey where
  tenantId := input.tenantId
  providerId := input.providerId
  capability := input.capability
  logicalOperationKey := input.logicalOperationKey

def PrepareIntentInput.requestFingerprint (deps : Deps) (input : PrepareIntentInput) : String :=
  deps.sha256 input.requestPayloadForFingerprint.canonical

def Db.findByKey (db : Db) (key : OperationKey) : Option ProviderOperationIntent :=
  db.intents.rows.find? fun i => i.key = key

/-- What `prepare` does next once it has read the key. -/
inductive PrepareNext where
  | insert
  | refresh (existing : ProviderOperationIntent)
  | reuse (existing : ProviderOperationIntent)

/-- A stored row is reused only for the same case, payload and effect class. -/
def prepareReuse (deps : Deps) (input : PrepareIntentInput)
    (existing : ProviderOperationIntent) : Except ProviderFailure PrepareNext :=
  if existing.caseId ≠ input.caseId
      ∨ existing.requestFingerprint ≠ input.requestFingerprint deps
      ∨ existing.effectClass ≠ input.effectClass then
    .error (.intentConflict ("logical provider operation \"" ++ input.logicalOperationKey
      ++ "\" was reused with a changed case, payload, or effect class"))
  else if existing.state = .PREPARED then .ok (.refresh existing)
  else .ok (.reuse existing)

/-- The read of the logical key. -/
def prepareRead (deps : Deps) (db : Db) (input : PrepareIntentInput) :
    Except ProviderFailure PrepareNext :=
  match db.findByKey input.key with
  | none => .ok .insert
  | some existing => prepareReuse deps input existing

def newIntent (deps : Deps) (env : Env) (input : PrepareIntentInput) :
    ProviderOperationIntent where
  id := env.newId
  tenantId := input.tenantId
  caseId := input.caseId
  providerId := input.providerId
  capability := input.capability
  effectClass := input.effectClass
  requestFingerprint := input.requestFingerprint deps
  idempotencyKey := env.randomUUID
  logicalOperationKey := input.logicalOperationKey
  authorizationGrantId := input.authorizationGrantId
  updatedAt := env.dbNow

/-- The insert, which commits the transaction. A unique violation aborts it: the reload that
the code answers with runs in the failed transaction, so the call ends with 25P02. -/
def prepareInsert (deps : Deps) (db : Db) (env : Env) (input : PrepareIntentInput) :
    Except ProviderFailure (Db × ProviderOperationIntent) :=
  if (db.findByKey input.key).isSome then .error (.database .inFailedTransaction)
  else
    match db.intents.insert (newIntent deps env input) with
    | some intents => .ok ({ db with intents }, newIntent deps env input)
    | none => .error (.database .inFailedTransaction)

def ProviderOperationIntent.withGrant (i : ProviderOperationIntent) (grantId : Uuid)
    (updatedAt : Instant) : ProviderOperationIntent :=
  { i with authorizationGrantId := grantId, updatedAt }

/-- The refresh of the grant, conditional on the state. The call goes on with the row it read
earlier, whether or not the update matched. -/
def prepareRefresh (db : Db) (env : Env) (existing : ProviderOperationIntent) (grantId : Uuid) :
    Db :=
  match db.intents.find existing.id with
  | some row =>
    if row.state = .PREPARED then
      { db with intents := db.intents.put (row.withGrant grantId env.dbNow) }
    else db
  | none => db

def receiptAad (tenantId id : Uuid) : String :=
  toString tenantId ++ ":" ++ toString id ++ ":receipt"

def findingAad (tenantId id : Uuid) : String :=
  toString tenantId ++ ":" ++ toString id ++ ":finding"

/-- The row with its payloads decrypted. -/
def toIntentValue (deps : Deps) (entity : ProviderOperationIntent) :
    Except ProviderFailure ProviderOperationIntent := do
  let providerReceipt ← entity.providerReceipt.mapM fun v =>
    deps.decrypt v (receiptAad entity.tenantId entity.id)
  let normalizedFinding ← entity.normalizedFinding.mapM fun v =>
    deps.decrypt v (findingAad entity.tenantId entity.id)
  return { entity with providerReceipt, normalizedFinding }

/-! ## Transitions -/

/-- The payload columns a transition writes; `none` leaves a column as it is. -/
structure PayloadValues where
  providerReceipt : Option Json := none
  normalizedFinding : Option Json := none

def ProviderOperationIntent.moved (i : ProviderOperationIntent) (env : Env)
    (state : ProviderOperationIntentStatus) (values : PayloadValues) : ProviderOperationIntent :=
  { i with
    state
    providerReceipt := values.providerReceipt <|> i.providerReceipt
    normalizedFinding := values.normalizedFinding <|> i.normalizedFinding
    updatedAt := env.dbNow }

/-- The row with this id, in this tenant. -/
def Db.findIntent (db : Db) (tenantId id : Uuid) : Option ProviderOperationIntent :=
  (db.intents.find id).filter fun i => i.tenantId = tenantId

def transition (db : Db) (env : Env) (tenantId id : Uuid)
    (source : List ProviderOperationIntentStatus) (state : ProviderOperationIntentStatus)
    (values : PayloadValues) : Except ProviderFailure Db :=
  match db.findIntent tenantId id with
  | some i =>
    if source.contains i.state then
      .ok { db with intents := db.intents.put (i.moved env state values) }
    else
      .error (.transition ("intent " ++ toString id ++ " cannot transition from "
        ++ i.state.text ++ " to " ++ state.text))
  | none =>
    .error (.transition ("intent " ++ toString id ++ " cannot transition from NOT_FOUND to "
      ++ state.text))

def markDispatched (db : Db) (env : Env) (tenantId id : Uuid) : Except ProviderFailure Db :=
  transition db env tenantId id [.PREPARED] .DISPATCHED {}

def markSucceeded (deps : Deps) (db : Db) (env : Env) (tenantId id : Uuid)
    (receipt : SynchronousProviderReceipt) (finding : Json) : Except ProviderFailure Db :=
  transition db env tenantId id [.DISPATCHED] .SUCCEEDED
    { providerReceipt := some (deps.encrypt env.iv (deps.receiptJson receipt)
        (receiptAad tenantId id))
      normalizedFinding := some (deps.encrypt (env.iv + 1) finding (findingAad tenantId id)) }

def markFailedFinal (deps : Deps) (db : Db) (env : Env) (tenantId id : Uuid)
    (receipt : Option SynchronousProviderReceipt) : Except ProviderFailure Db :=
  transition db env tenantId id [.PREPARED, .DISPATCHED] .FAILED_FINAL
    { providerReceipt := receipt.map fun r =>
        deps.encrypt env.iv (deps.receiptJson r) (receiptAad tenantId id) }

def markOutcomeUnknown (db : Db) (env : Env) (tenantId id : Uuid) : Except ProviderFailure Db :=
  transition db env tenantId id [.DISPATCHED] .OUTCOME_UNKNOWN {}

def markReconciling (db : Db) (env : Env) (tenantId id : Uuid) : Except ProviderFailure Db :=
  transition db env tenantId id [.OUTCOME_UNKNOWN] .RECONCILING {}

/-- The outcomes an operator may record. -/
inductive ManualOutcome where
  | SUCCEEDED
  | FAILED_FINAL
  | CANCELLED
  deriving DecidableEq, Repr

def ManualOutcome.status : ManualOutcome → ProviderOperationIntentStatus
  | .SUCCEEDED => .SUCCEEDED
  | .FAILED_FINAL => .FAILED_FINAL
  | .CANCELLED => .CANCELLED

def ProviderOperationIntent.resolved (i : ProviderOperationIntent) (env : Env)
    (outcome : ManualOutcome) (resolvedBy resolutionNote : String) : ProviderOperationIntent :=
  { i with
    state := outcome.status
    resolvedBy := some resolvedBy
    resolutionNote := some resolutionNote
    updatedAt := env.dbNow }

def notReconcilable (id : Uuid) (current : String) : ProviderFailure :=
  .transition ("intent " ++ toString id ++ " is not in a reconcilable state (current: "
    ++ current ++ ")")

def resolveManually (db : Db) (env : Env) (tenantId id : Uuid) (outcome : ManualOutcome)
    (resolvedBy resolutionNote : String) : Except ProviderFailure Db :=
  match db.findIntent tenantId id with
  | some i =>
    if i.state = .OUTCOME_UNKNOWN ∨ i.state = .RECONCILING then
      .ok { db with intents :=
        db.intents.put (i.resolved env outcome resolvedBy resolutionNote) }
    else .error (notReconcilable id i.state.text)
  | none => .error (notReconcilable id "NOT_FOUND")

/-! ## The reconciliation sweep -/

def reconciliationBatchSize : Nat := 100

/-- The stale intents of one sweep, oldest first; each is then moved on its own. -/
def staleIntents (db : Db) (now : Instant) (staleAfterMs : Int) : List (Uuid × Uuid) :=
  (((db.intents.rows.filter fun i =>
    i.state = .OUTCOME_UNKNOWN && i.updatedAt ≤ now - staleAfterMs).insertionSort
      fun a b => a.updatedAt ≤ b.updatedAt).take reconciliationBatchSize).map
    fun i => (i.tenantId, i.id)

end MortgageAgent.Provider
