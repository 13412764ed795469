import MortgageAgent.Provider.Finding
import MortgageAgent.Provider.Intent

/-!
# `dispatchProviderRequest`

The dispatch as a state machine. A state is the point between two of its transactions (or
between the call of `submit` and its return) together with the locals that are live there, and
`dispatchStep` runs the code up to the next such point. `submit` itself is the adapter's:
`dispatchReturn` takes whatever it did. `dispatchStoreFails` is the same point when the
transaction fails and is rolled back, which the code sees as a thrown error.

* **`DispatchState`** — the points, in the order of the code.
* **`dispatchStart`** — the synchronous prologue: registry and structural exclusions.
* **`dispatchStep`** / **`dispatchReturn`** / **`dispatchStoreFails`** — the three ways on.
* **`Event`** — what an outside observer sees: submissions, what they returned, and each time a
  dispatch recorded `FAILED_FINAL`. The log is history only; no step reads it.
-/

namespace MortgageAgent.Provider

/-! ## States -/

/-- What the `catch` block writes. -/
inductive RecordPlan where
  | failedFinal (receipt : Option SynchronousProviderReceipt)
  | outcomeUnknown

inductive DispatchState where
  | idle
  | killSwitch (p : DispatchProviderRequestParams) (adapter : ProviderAdapter)
  | activation (p : DispatchProviderRequestParams) (adapter : ProviderAdapter)
  | consent (p : DispatchProviderRequestParams) (adapter : ProviderAdapter)
  | issuePurpose (p : DispatchProviderRequestParams) (adapter : ProviderAdapter)
      (consentRecordId : Uuid)
  | validatePurpose (p : DispatchProviderRequestParams) (adapter : ProviderAdapter)
      (consentRecordId decisionId : Uuid)
  | issueGrant (p : DispatchProviderRequestParams) (adapter : ProviderAdapter)
      (consentRecordId : Uuid) (decisionId : Option Uuid)
  | prepareRead (p : DispatchProviderRequestParams) (adapter : ProviderAdapter)
      (decisionId : Option Uuid) (grantId : Uuid)
  | prepareInsert (p : DispatchProviderRequestParams) (adapter : ProviderAdapter)
      (decisionId : Option Uuid) (grantId : Uuid)
  | prepareRefresh (p : DispatchProviderRequestParams) (adapter : ProviderAdapter)
      (decisionId : Option Uuid) (grantId : Uuid) (existing : ProviderOperationIntent)
  | revalidateGrant (p : DispatchProviderRequestParams) (adapter : ProviderAdapter)
      (decisionId : Option Uuid) (grantId : Uuid) (intent : ProviderOperationIntent)
  | revalidateConsent (p : DispatchProviderRequestParams) (adapter : ProviderAdapter)
      (decisionId : Option Uuid) (intent : ProviderOperationIntent)
      (grant : ProviderAuthorizationGrant) (remaining : List Uuid)
  | revalidatePurpose (p : DispatchProviderRequestParams) (adapter : ProviderAdapter)
      (decisionId : Uuid) (intent : ProviderOperationIntent) (grant : ProviderAuthorizationGrant)
  | failAuthorization (intent : ProviderOperationIntent) (failure : ProviderFailure)
  | markDispatched (p : DispatchProviderRequestParams) (adapter : ProviderAdapter)
      (intent : ProviderOperationIntent) (grant : ProviderAuthorizationGrant)
  | submit (p : DispatchProviderRequestParams) (adapter : ProviderAdapter)
      (intent : ProviderOperationIntent) (grant : ProviderAuthorizationGrant)
  | awaiting (p : DispatchProviderRequestParams) (adapter : ProviderAdapter)
      (intent : ProviderOperationIntent) (grant : ProviderAuthorizationGrant)
  | markSucceeded (intent : ProviderOperationIntent) (receipt : SynchronousProviderReceipt)
      (finding : Json)
  | record (intent : ProviderOperationIntent) (plan : RecordPlan) (failure : ProviderFailure)
  | finished (result : Except ProviderFailure Json)
  /-- the process died here -/
  | crashed

/-- What became of one `submit`. -/
inductive SubmitVerdict where
  /-- the adapter rejected the request -/
  | rejected
  /-- the receipt failed `normalize` or `validateProviderFinding` -/
  | receiptRefused
  /-- the receipt normalizes and validates -/
  | receiptAccepted
  /-- the adapter threw anything else -/
  | failed
  deriving DecidableEq, Repr

inductive Event where
  | submitted (intentId : Uuid) (key : OperationKey)
  | returned (intentId : Uuid) (verdict : SubmitVerdict)
  | failedFinal (intentId : Uuid)
  deriving DecidableEq, Repr

/-! ## The prologue -/

def structurallyExcludedCommandClasses : List String :=
  ["FUNDS_MOVEMENT", "RATE_LOCK", "LEGAL_DISCLOSURE", "FORMAL_DECISION", "CLEAR_TO_CLOSE",
   "SETTLEMENT", "FUNDING", "SERVICING_PAYMENT", "CAPITAL_DELIVERY"]

def assertNotStructurallyExcluded (kind identifier : String)
    (declaredCommandClass : Option String) : Except ProviderFailure Unit :=
  match declaredCommandClass with
  | some c =>
    if structurallyExcludedCommandClasses.contains c then
      .error (.structurallyExcluded ("structurally excluded: " ++ kind ++ " \"" ++ identifier
        ++ "\" declares command class \"" ++ c ++ "\" — Section 2/7.5's permanent product "
        ++ "boundary forbids registering this regardless of provider certification, promotion "
        ++ "approval, or Agent configuration (Section 7.5: \"cannot expand it\"). A replacement "
        ++ "charter, separate legal and licensing analysis, and a newly approved architecture "
        ++ "are required before this boundary can change."))
    else .ok ()
  | none => .ok ()

def tupleText (p : DispatchProviderRequestParams) : String :=
  "capability=" ++ p.capability.text ++ " mode=" ++ p.mode.text

def dispatchStart (deps : Deps) (p : DispatchProviderRequestParams) : DispatchState :=
  match deps.registry p.capability p.mode with
  | none =>
    .finished (.error (.notRegistered ("no provider adapter registered for " ++ tupleText p)))
  | some adapter =>
    match assertNotStructurallyExcluded "provider_adapter"
        (adapter.providerId ++ "/" ++ p.capability.text ++ "/" ++ p.mode.text)
        adapter.structurallyExcludedCommandClass with
    | .error e => .finished (.error e)
    | .ok _ => .killSwitch p adapter

/-! ## Intermediate decisions -/

def PrepareIntentInput.ofParams (p : DispatchProviderRequestParams) (adapter : ProviderAdapter)
    (grantId : Uuid) : PrepareIntentInput where
  tenantId := p.tenantId
  caseId := p.caseId
  providerId := adapter.providerId
  capability := p.capability
  effectClass := adapter.effectClass
  authorizationGrantId := grantId
  logicalOperationKey := p.logicalOperationKey.getD
    (toString p.caseId ++ ":" ++ p.capability.text ++ ":" ++ p.purposeCode)
  requestPayloadForFingerprint := p.request

/-- The logical operation a dispatch is for. -/
def DispatchProviderRequestParams.operationKey (p : DispatchProviderRequestParams)
    (adapter : ProviderAdapter) : OperationKey :=
  (PrepareIntentInput.ofParams p adapter 0).key

/-- After the consent read: consumer reports need a permissible-purpose decision. -/
def afterConsent (p : DispatchProviderRequestParams) (adapter : ProviderAdapter)
    (consentRecordId : Uuid) : DispatchState :=
  if p.capability = .CREDIT then
    match p.permissiblePurposeDecisionId with
    | some decisionId => .validatePurpose p adapter consentRecordId decisionId
    | none =>
      if p.mode = .SIMULATOR then .issuePurpose p adapter consentRecordId
      else .finished (.error (.permissiblePurpose
        "consumer-report dispatch requires a transaction-specific permissible-purpose decision"))
  else .issueGrant p adapter consentRecordId p.permissiblePurposeDecisionId

/-- After `prepare`: a stored result is replayed, any other settled or open effect blocks. -/
def afterPrepare (deps : Deps) (p : DispatchProviderRequestParams) (adapter : ProviderAdapter)
    (decisionId : Option Uuid) (grantId : Uuid) (entity : ProviderOperationIntent) :
    DispatchState :=
  match toIntentValue deps entity with
  | .error e => .finished (.error e)
  | .ok intent =>
    if intent.state = .SUCCEEDED then
      match intent.normalizedFinding with
      | none => .finished (.error (.replayBlocked ("logical provider operation \""
          ++ intent.logicalOperationKey
          ++ "\" already succeeded but has no replayable normalized finding")))
      | some finding => .finished (.ok finding)
    else if intent.state ≠ .PREPARED then
      .finished (.error (.replayBlocked ("logical provider operation \""
        ++ intent.logicalOperationKey ++ "\" is " ++ intent.state.text
        ++ "; another provider submission is blocked pending reconciliation or a new logical "
        ++ "operation key")))
    else .revalidateGrant p adapter decisionId grantId intent

/-- After `revalidate`: a request with a purpose decision checks it once more. -/
def afterRevalidate (p : DispatchProviderRequestParams) (adapter : ProviderAdapter)
    (decisionId : Option Uuid) (intent : ProviderOperationIntent)
    (grant : ProviderAuthorizationGrant) : DispatchState :=
  match decisionId with
  | some decisionId => .revalidatePurpose p adapter decisionId intent grant
  | none => .markDispatched p adapter intent grant

/-- The `catch` block: a rejection and an unusable receipt are final, the rest is ambiguous. -/
def classify (e : ProviderError) (receipt : Option SynchronousProviderReceipt) : RecordPlan :=
  match e, receipt with
  | .syntheticRejection _, _ => .failedFinal none
  | .other _, some receipt => .failedFinal (some receipt)
  | .other _, none => .outcomeUnknown

/-! ## The steps -/

/-- The database, the next state and the events of a step. -/
structure DispatchMove where
  db : Db
  state : DispatchState
  events : List Event := []

/-- One transaction of the dispatch (or, at `submit`, the call of the adapter). -/
def dispatchStep (deps : Deps) (db : Db) (env : Env) : DispatchState → DispatchMove
  -- the kill switch is read first, and not again before the submission.
  | .killSwitch p adapter =>
    if !isActive db adapter.providerId p.capability p.mode then
      ⟨db, .finished (.error (.disabled ("provider " ++ adapter.providerId ++ " " ++ tupleText p
        ++ " is disabled — see provider_adapter_status for the reason"))), []⟩
    else if p.mode ≠ .SIMULATOR then ⟨db, .activation p adapter, []⟩
    else ⟨db, .consent p adapter, []⟩
  | .activation p adapter =>
    if isActivated db adapter.providerId p.capability p.mode then ⟨db, .consent p adapter, []⟩
    else
      ⟨db, .finished (.error (.notActivated ("provider " ++ adapter.providerId ++ " "
        ++ tupleText p ++ " has no active promotion — see provider_activations"))), []⟩
  | .consent p adapter =>
    match activeRecordForPurpose db env.processNow p.tenantId p.caseId p.purposeCode
        p.permittedDataClasses with
    | none =>
      ⟨db, .finished (.error (.consentScope ("no active consent authorizes purpose="
        ++ p.purposeCode ++ " dataClasses=" ++ String.intercalate "," p.permittedDataClasses))),
        []⟩
    | some record => ⟨db, afterConsent p adapter record.id, []⟩
  | .issuePurpose p adapter consentRecordId =>
    match issueSynthetic db env p.purposeContext with
    | .error e => ⟨db, .finished (.error e), []⟩
    | .ok (db', decisionId) => ⟨db', .validatePurpose p adapter consentRecordId decisionId, []⟩
  | .validatePurpose p adapter consentRecordId decisionId =>
    match validatePurpose db env.processNow decisionId p.purposeContext with
    | some reason => ⟨db, .finished (.error (.permissiblePurpose reason)), []⟩
    | none => ⟨db, .issueGrant p adapter consentRecordId (some decisionId), []⟩
  | .issueGrant p adapter consentRecordId decisionId =>
    match issueGrant db env p adapter.providerId consentRecordId decisionId with
    | .error e => ⟨db, .finished (.error e), []⟩
    | .ok (db', grant) => ⟨db', .prepareRead p adapter decisionId grant.id, []⟩
  | .prepareRead p adapter decisionId grantId =>
    match prepareRead deps db (.ofParams p adapter grantId) with
    | .error e => ⟨db, .finished (.error e), []⟩
    | .ok .insert => ⟨db, .prepareInsert p adapter decisionId grantId, []⟩
    | .ok (.refresh existing) => ⟨db, .prepareRefresh p adapter decisionId grantId existing, []⟩
    | .ok (.reuse existing) => ⟨db, afterPrepare deps p adapter decisionId grantId existing, []⟩
  | .prepareInsert p adapter decisionId grantId =>
    match prepareInsert deps db env (.ofParams p adapter grantId) with
    | .error e => ⟨db, .finished (.error e), []⟩
    | .ok (db', intent) => ⟨db', afterPrepare deps p adapter decisionId grantId intent, []⟩
  -- the caller goes on with its own copy of the row, whether or not the update matched.
  | .prepareRefresh p adapter decisionId grantId existing =>
    ⟨prepareRefresh db env existing grantId,
      afterPrepare deps p adapter decisionId grantId
        (existing.withGrant grantId existing.updatedAt), []⟩
  | .revalidateGrant p adapter decisionId grantId intent =>
    match revalidateGrant db env.processNow grantId p.tenantId p.caseId adapter.providerId
        p.capability with
    | .error reason => ⟨db, .failAuthorization intent (.revalidation reason), []⟩
    | .ok grant =>
      ⟨db, .revalidateConsent p adapter decisionId intent grant grant.consentRecordIds, []⟩
  -- the consents of the grant are read one by one, each by a query of its own.
  | .revalidateConsent p adapter decisionId intent grant [] =>
    ⟨db, afterRevalidate p adapter decisionId intent grant, []⟩
  | .revalidateConsent p adapter decisionId intent grant (consentRecordId :: remaining) =>
    match revalidateConsent db env.processNow grant consentRecordId with
    | .error reason => ⟨db, .failAuthorization intent (.revalidation reason), []⟩
    | .ok _ => ⟨db, .revalidateConsent p adapter decisionId intent grant remaining, []⟩
  | .revalidatePurpose p adapter decisionId intent grant =>
    match validatePurpose db env.processNow decisionId p.purposeContext with
    | some reason => ⟨db, .failAuthorization intent (.permissiblePurpose reason), []⟩
    | none => ⟨db, .markDispatched p adapter intent grant, []⟩
  | .failAuthorization intent failure =>
    match markFailedFinal deps db env intent.tenantId intent.id none with
    | .error e => ⟨db, .finished (.error e), []⟩
    | .ok db' => ⟨db', .finished (.error failure), [.failedFinal intent.id]⟩
  | .markDispatched p adapter intent grant =>
    match markDispatched db env intent.tenantId intent.id with
    | .error e => ⟨db, .finished (.error e), []⟩
    | .ok db' => ⟨db', .submit p adapter intent grant, []⟩
  -- the only step outside the database: the row is `DISPATCHED` and the request leaves.
  | .submit p adapter intent grant =>
    ⟨db, .awaiting p adapter intent grant, [.submitted intent.id (p.operationKey adapter)]⟩
  | .markSucceeded intent receipt finding =>
    match markSucceeded deps db env intent.tenantId intent.id receipt finding with
    -- thrown inside the same `try` as `submit`, with a receipt in hand.
    | .error e => ⟨db, .record intent (.failedFinal (some receipt)) e, []⟩
    | .ok db' => ⟨db', .finished (.ok finding), []⟩
  | .record intent (.failedFinal receipt) failure =>
    match markFailedFinal deps db env intent.tenantId intent.id receipt with
    | .error e => ⟨db, .finished (.error e), []⟩
    | .ok db' => ⟨db', .finished (.error failure), [.failedFinal intent.id]⟩
  | .record intent .outcomeUnknown failure =>
    match markOutcomeUnknown db env intent.tenantId intent.id with
    | .error e => ⟨db, .finished (.error e), []⟩
    | .ok db' => ⟨db', .finished (.error failure), []⟩
  -- nothing to do: not started, waiting for the adapter, or over
  | state => ⟨db, state, []⟩

/-- What an adapter's `submit` does: it returns a receipt or it throws. -/
inductive SubmitOutcome where
  | receipt (receipt : SynchronousProviderReceipt)
  | threw (error : ProviderError)

/-- The return of `submit`, up to the next write. -/
def dispatchReturn (env : Env) (outcome : SubmitOutcome) :
    DispatchState → DispatchState × List Event
  | .awaiting p adapter intent grant =>
    match outcome with
    | .receipt receipt =>
      match acceptReceipt adapter p receipt env.processNow with
      | .ok finding =>
        (.markSucceeded intent receipt (filterToPermittedFields finding grant.permittedFields),
          [.returned intent.id .receiptAccepted])
      -- `receipt` is assigned before it is checked, so the `catch` block sees it.
      | .error e =>
        (.record intent (classify e (some receipt)) (.adapter e),
          [.returned intent.id .receiptRefused])
    | .threw e =>
      let verdict := match e with
        | .syntheticRejection _ => SubmitVerdict.rejected
        | .other _ => SubmitVerdict.failed
      (.record intent (classify e none) (.adapter e), [.returned intent.id verdict])
  | state => (state, [])

/-- The transaction at this point fails and is rolled back. After `submit` has returned a
receipt, the `catch` block takes even this failure for an unusable receipt. -/
def dispatchStoreFails : DispatchState → DispatchState
  | .markSucceeded intent receipt _ =>
    .record intent (.failedFinal (some receipt)) .storeUnavailable
  | .submit p adapter intent grant => .submit p adapter intent grant
  | .awaiting p adapter intent grant => .awaiting p adapter intent grant
  | .idle => .idle
  | .crashed => .crashed
  | .finished result => .finished result
  | _ => .finished (.error .storeUnavailable)

end MortgageAgent.Provider
