import MortgageAgent.Lib.Table
import MortgageAgent.Lib.Json
import MortgageAgent.Platform

/-!
# Provider operations: the rows and the failures

A logical provider operation is one row of `provider_operation_intents`, identified by tenant,
provider, capability and the caller's logical operation key. Around it stand the rows that
decide whether a dispatch may go on (kill switch, activation, consent, permissible purpose,
authorization grant) and those of the data-disposition review that may cancel or scrub it.

Every text the code throws is carried, so that two failures are equal only if a caller sees the
same error.
-/

namespace MortgageAgent.Provider

/-! ## Vocabulary -/

inductive ProviderCapability where
  | INCOME
  | ASSET
  | CREDIT
  | IDENTITY
  | DOCUMENT
  deriving DecidableEq, Repr

def ProviderCapability.text : ProviderCapability → String
  | .INCOME => "INCOME"
  | .ASSET => "ASSET"
  | .CREDIT => "CREDIT"
  | .IDENTITY => "IDENTITY"
  | .DOCUMENT => "DOCUMENT"

inductive ProviderMode where
  | SIMULATOR
  | AUTHORIZED_SANDBOX
  | PRODUCTION_BYOC
  deriving DecidableEq, Repr

def ProviderMode.text : ProviderMode → String
  | .SIMULATOR => "SIMULATOR"
  | .AUTHORIZED_SANDBOX => "AUTHORIZED_SANDBOX"
  | .PRODUCTION_BYOC => "PRODUCTION_BYOC"

inductive ProviderEffectClass where
  | READ_ONLY
  | REUSABLE_LOOKUP
  | COST_BEARING_ORDER
  | CONSUMER_IMPACTING
  | IRREVERSIBLE
  deriving DecidableEq, Repr

inductive ProviderOperationIntentStatus where
  | PREPARED
  | DISPATCHED
  | SUCCEEDED
  | FAILED_FINAL
  | OUTCOME_UNKNOWN
  | RECONCILING
  | CANCELLED
  deriving DecidableEq, Repr

def ProviderOperationIntentStatus.text : ProviderOperationIntentStatus → String
  | .PREPARED => "PREPARED"
  | .DISPATCHED => "DISPATCHED"
  | .SUCCEEDED => "SUCCEEDED"
  | .FAILED_FINAL => "FAILED_FINAL"
  | .OUTCOME_UNKNOWN => "OUTCOME_UNKNOWN"
  | .RECONCILING => "RECONCILING"
  | .CANCELLED => "CANCELLED"

/-- What an adapter, or the contract check behind it, throws: the terminal synthetic rejection
the code tells apart, or anything else. -/
inductive ProviderError where
  | syntheticRejection (message : String)
  | other (message : String)
  deriving DecidableEq, Repr

/-- What a dispatch, a transition or a disposition throws. -/
inductive ProviderFailure where
  | notRegistered (message : String)
  | structurallyExcluded (message : String)
  | disabled (reason : String)
  | notActivated (reason : String)
  | consentScope (reason : String)
  | permissiblePurpose (reason : String)
  | intentConflict (message : String)
  | replayBlocked (reason : String)
  | revalidation (reason : String)
  | transition (message : String)
  | badRequest (message : String)
  | notFound (message : String)
  | decryption (message : String)
  | adapter (error : ProviderError)
  | database (error : PgError)
  /-- the connection or the commit failed; the transaction is rolled back -/
  | storeUnavailable
  deriving DecidableEq, Repr

/-! ## Rows -/

/-- `provider_operation_intents`. The payload columns hold what the cipher wrote. -/
structure ProviderOperationIntent where
  id : Uuid
  tenantId : Uuid
  caseId : Uuid
  providerId : String
  capability : ProviderCapability
  effectClass : ProviderEffectClass
  requestFingerprint : String
  idempotencyKey : Uuid
  logicalOperationKey : String
  authorizationGrantId : Uuid
  providerReceipt : Option Json := none
  normalizedFinding : Option Json := none
  state : ProviderOperationIntentStatus := .PREPARED
  resolvedBy : Option String := none
  resolutionNote : Option String := none
  updatedAt : Instant

/-- The columns of `UQ_provider_operation_intents_logical_effect`. -/
structure OperationKey where
  tenantId : Uuid
  providerId : String
  capability : ProviderCapability
  logicalOperationKey : String
  deriving DecidableEq, Repr

def ProviderOperationIntent.key (i : ProviderOperationIntent) : OperationKey where
  tenantId := i.tenantId
  providerId := i.providerId
  capability := i.capability
  logicalOperationKey := i.logicalOperationKey

/-- `provider_authorization_grants`. -/
structure ProviderAuthorizationGrant where
  id : Uuid
  tenantId : Uuid
  caseId : Uuid
  borrowerSubjectId : String
  providerId : String
  capability : ProviderCapability
  purposeCode : String
  permittedDataClasses : List String
  permittedFields : Option (List String)
  consentRecordIds : List Uuid
  permissiblePurposeDecisionId : Option Uuid
  expiresAt : Instant
  revokedAt : Option Instant := none
  deriving DecidableEq, Repr

/-- `consent_records`. -/
structure ConsentRecord where
  id : Uuid
  tenantId : Uuid
  caseId : Uuid
  permittedPurposes : List String
  permittedDataClasses : List String
  grantedAt : Instant
  expiresAt : Option Instant := none
  revokedAt : Option Instant := none
  revocationReason : Option String := none
  deriving DecidableEq, Repr

inductive PermissiblePurposeDecisionStatus where
  | AUTHORIZED
  | DENIED
  deriving DecidableEq, Repr

/-- `permissible_purpose_decisions`. -/
structure PermissiblePurposeDecision where
  id : Uuid
  tenantId : Uuid
  caseId : Uuid
  borrowerSubjectId : String
  capability : ProviderCapability
  purposeCode : String
  permittedDataClasses : List String
  decision : PermissiblePurposeDecisionStatus
  basisCode : String
  decidedBy : String
  syntheticOnly : Bool
  expiresAt : Instant
  revokedAt : Option Instant := none
  deriving DecidableEq, Repr

inductive ProviderAdapterState where
  | ACTIVE
  | DISABLED
  deriving DecidableEq, Repr

/-- `provider_adapter_status`, the kill switch; no row means active. -/
structure ProviderAdapterStatus where
  providerId : String
  capability : ProviderCapability
  mode : ProviderMode
  state : ProviderAdapterState
  deriving DecidableEq, Repr

def ProviderAdapterStatus.key (s : ProviderAdapterStatus) :
    String × ProviderCapability × ProviderMode :=
  (s.providerId, s.capability, s.mode)

inductive ProviderActivationState where
  | ACTIVE
  | DEACTIVATED
  deriving DecidableEq, Repr

/-- `provider_activations`; no row means not activated. -/
structure ProviderActivation where
  providerId : String
  capability : ProviderCapability
  mode : ProviderMode
  state : ProviderActivationState
  deriving DecidableEq, Repr

def ProviderActivation.key (a : ProviderActivation) :
    String × ProviderCapability × ProviderMode :=
  (a.providerId, a.capability, a.mode)

inductive LegalHoldStatus where
  | ACTIVE
  | RELEASED
  deriving DecidableEq, Repr

/-- `legal_holds`. -/
structure LegalHold where
  id : Uuid
  tenantId : Uuid
  caseId : Uuid
  reason : String
  ownerId : String
  status : LegalHoldStatus := .ACTIVE
  releasedAt : Option Instant := none
  releasedBy : Option String := none
  deriving DecidableEq, Repr

/-- `evidence_facts`, as far as a disposition touches them. -/
structure EvidenceFact where
  id : Uuid
  tenantId : Uuid
  caseId : Uuid
  value : Json

inductive DataDispositionTaskStatus where
  | PENDING
  | IN_PROGRESS
  | COMPLETED
  | VERIFIED
  deriving DecidableEq, Repr

def DataDispositionTaskStatus.text : DataDispositionTaskStatus → String
  | .PENDING => "PENDING"
  | .IN_PROGRESS => "IN_PROGRESS"
  | .COMPLETED => "COMPLETED"
  | .VERIFIED => "VERIFIED"

inductive DataDispositionResolutionOutcome where
  | DELETED
  | ANONYMIZED
  | RETAINED_UNDER_HOLD
  deriving DecidableEq, Repr

/-- `data_disposition_tasks`. -/
structure DataDispositionTask where
  id : Uuid
  tenantId : Uuid
  caseId : Uuid
  status : DataDispositionTaskStatus := .PENDING
  reason : String
  triggeringConsentRecordId : Option Uuid
  affectedEvidenceFactIds : List Uuid
  affectedProviderIntentIds : List Uuid
  resolvedAt : Option Instant := none
  resolutionOutcome : Option DataDispositionResolutionOutcome := none
  backupExpiryDueAt : Option Instant := none
  resolvedBy : Option String := none
  deriving DecidableEq, Repr

/-- The rows the provider platform and the disposition review read and write. -/
structure Db where
  intents : Table ProviderOperationIntent ProviderOperationIntent.id
  grants : Table ProviderAuthorizationGrant ProviderAuthorizationGrant.id
  consents : Table ConsentRecord ConsentRecord.id
  decisions : Table PermissiblePurposeDecision PermissiblePurposeDecision.id
  adapterStatus : Table ProviderAdapterStatus ProviderAdapterStatus.key
  activations : Table ProviderActivation ProviderActivation.key
  holds : Table LegalHold LegalHold.id
  evidence : Table EvidenceFact EvidenceFact.id
  tasks : Table DataDispositionTask DataDispositionTask.id

/-- The clocks one transaction runs under, and the values it draws: the primary key of a row
it inserts, the idempotency key of an intent, and the initialisation vector of an envelope. -/
structure Env where
  dbNow : Instant
  processNow : Instant
  newId : Uuid
  randomUUID : Uuid
  iv : Nat
  deriving DecidableEq, Repr

/-! ## The parties outside the database -/

/-- `SynchronousProviderReceipt`. `observedAt` is the instant its text denotes, if any. -/
structure SynchronousProviderReceipt where
  payload : Json
  observedAt : Option Instant

/-- The synchronous part of a registered adapter. What `submit` does is the environment's
choice, at the step where a dispatch waits for it. -/
structure ProviderAdapter where
  providerId : String
  effectClass : ProviderEffectClass
  structurallyExcludedCommandClass : Option String := none
  normalize : Json → (tenantId caseId : Uuid) → Except ProviderError Json

/-- What a process is deployed with: the registry, the hash and the payload cipher. -/
structure Deps where
  registry : ProviderCapability → ProviderMode → Option ProviderAdapter
  sha256 : String → String
  encrypt : (iv : Nat) → Json → (aad : String) → Json
  decrypt : Json → (aad : String) → Except ProviderFailure Json
  /-- the receipt as `JSON.stringify` writes it before encryption -/
  receiptJson : SynchronousProviderReceipt → Json
  /-- `Number(process.env.BACKUP_RETENTION_HOURS ?? '24')` -/
  backupRetentionHours : Int := 24

structure DispatchProviderRequestParams where
  tenantId : Uuid
  caseId : Uuid
  borrowerSubjectId : String
  capability : ProviderCapability
  mode : ProviderMode := .SIMULATOR
  request : Json
  purposeCode : String
  permittedDataClasses : List String
  logicalOperationKey : Option String := none
  permittedFields : Option (List String) := none
  permissiblePurposeDecisionId : Option Uuid := none

end MortgageAgent.Provider
