import MortgageAgent.Budget.Service
import MortgageAgent.Lib.Process
import MortgageAgent.Policy.Resolver

/-!
# Cases and the code that works on them

The rows the case workflow reads and writes, the exceptions its code tells apart, and what a
transaction takes from outside the store. Code is a process (`Act`): each `runInTenantContext`
is one transaction of it, and a call of a service outside this store (consent, policy
evaluation, communications, the planner's model) is one step that takes the service's answer
from its input.

A TypeORM `update` raises the row's `@VersionColumn` with every write.
-/

namespace MortgageAgent.Workflow

/-! ## Rows -/

inductive CaseStatus where
  | DRAFT
  | COLLECTING_EVIDENCE
  | CONDITIONS_OPEN
  | WAITING_FOR_INFORMATION
  | WAITING_FOR_REVIEW
  | READY_FOR_UNDERWRITING
  | MANUAL_REVIEW
  | CLOSED
  deriving DecidableEq, Repr

inductive LoanType where
  | CONVENTIONAL
  | FHA
  | VA
  | JUMBO
  deriving DecidableEq, Repr

def loanTypeToProductCode : LoanType → String
  | .CONVENTIONAL => "CONVENTIONAL_MORTGAGE"
  | .FHA => "FHA_MORTGAGE"
  | .VA => "VA_MORTGAGE"
  | .JUMBO => "JUMBO_MORTGAGE"

structure LoanCase where
  id : Uuid
  tenantId : Uuid
  statedMonthlyIncome : JsDecimal
  loanType : LoanType
  jurisdictionCode : String
  status : CaseStatus := .DRAFT
  version : Nat := 1
  createdAt : Instant
  deriving DecidableEq

inductive ConditionStatus where
  | OPEN
  | IN_PROGRESS
  | WAITING_FOR_EVIDENCE
  | SATISFIED
  | WAIVED
  | ESCALATED
  deriving DecidableEq, Repr

/-- The statuses a recovery looks for. -/
def ConditionStatus.active : ConditionStatus → Bool
  | .OPEN | .IN_PROGRESS | .WAITING_FOR_EVIDENCE => true
  | .SATISFIED | .WAIVED | .ESCALATED => false

structure LoanCondition where
  id : Uuid
  tenantId : Uuid
  caseId : Uuid
  code : String
  description : String
  status : ConditionStatus
  policySnapshotId : Uuid
  evaluationManifestId : Option Uuid
  version : Nat := 1
  createdAt : Instant
  deriving DecidableEq

structure ConditionTransition where
  conditionId : Uuid
  fromStatus : ConditionStatus
  toStatus : ConditionStatus
  actorId : String
  reason : Option String
  deriving DecidableEq

inductive EvidenceType where
  | INCOME
  | CREDIT
  | DOCUMENT
  | ASSET
  | IDENTITY
  deriving DecidableEq, Repr

structure EvidenceFact where
  id : Uuid
  tenantId : Uuid
  caseId : Uuid
  factType : EvidenceType
  sourceIdentifier : String
  value : Json
  observedAt : Instant

structure EvaluationInputManifest where
  id : Uuid
  tenantId : Uuid
  caseId : Uuid
  caseVersion : Nat
  evidenceIds : List Uuid
  policyBindingId : Option Uuid
  observedPolicyDependencyDigest : Option String
  evaluatorVersion : String
  modelAndPromptManifestId : Option Uuid
  deriving DecidableEq

inductive AgentPlannerAction where
  | EVALUATE_POLICY
  | REQUEST_HUMAN_REVIEW
  deriving DecidableEq, Repr

inductive AgentPlannerReason where
  | POLICY_EVALUATION_REQUIRED
  | HUMAN_REVIEW_REQUIRED
  deriving DecidableEq, Repr

/-- The recorded answer of the planner's model, at most one for each run, case version, model
and prompt. -/
structure AgentModelInvocation where
  id : Uuid
  tenantId : Uuid
  caseId : Uuid
  caseVersion : Nat
  workflowRunId : String
  modelVersion : String
  promptVersion : String
  nextAction : AgentPlannerAction
  reasonCode : AgentPlannerReason
  confidenceBasisPoints : Int
  accountedTokenUnits : Int
  requestDigest : String
  responseDigest : String
  deriving DecidableEq

inductive AgentRunRoute where
  | PROPOSED_ACTION
  | AWAITING_INFORMATION
  | INTERRUPTED_FOR_REVIEW
  | ROUTED_TO_MANUAL_REVIEW
  deriving DecidableEq, Repr

inductive MandatoryReviewCategory where
  | CONSENT_INVALID
  | BUDGET_OR_DEADLINE_EXHAUSTED
  | POLICY_AMBIGUITY
  | TOOL_EXECUTION_FAILURE
  | MODEL_OUTPUT_INVALID
  | MODEL_UNCERTAINTY
  deriving DecidableEq, Repr

structure ToolAttemptSummary where
  toolName : String
  succeeded : Bool
  detail : Option String
  deriving DecidableEq

structure AgentRun where
  tenantId : Uuid
  caseId : Uuid
  workflowRunId : String
  route : AgentRunRoute
  conditionId : Option Uuid
  reviewReason : Option String
  reviewCategory : Option MandatoryReviewCategory
  modelInvocationId : Option Uuid
  attempts : List ToolAttemptSummary
  deriving DecidableEq

/-- The overrides of an agent run's budget. -/
structure Tenant where
  id : Uuid
  agentRunStepBudgetOverride : Option Int := none
  agentRunDurationBudgetMsOverride : Option Int := none
  deriving DecidableEq

inductive ConditionResolutionKind where
  | SATISFIED
  | WAIVED
  deriving DecidableEq, Repr

/-- The outbox events the workflow writes, each with the payload beside its tenant and case. -/
inductive OutboxPayload where
  | workflowRunStarted
  | workflowRunRecoveryStarted (recoveryOfRunId : String) (activeConditionCount : Nat)
  | evidenceUpdated (evidenceType : EvidenceType) (sourceIdentifier : String)
  | conditionOpened (conditionId : Uuid) (code : String) (policyVersionId : Uuid)
      (ruleId : String) (policySnapshotId : Uuid)
  | workflowRunWaitingForReview (conditionId : Uuid)
  | conditionSatisfied (conditionId : Uuid) (actorId : String) (reason : Option String)
  | conditionWaived (conditionId : Uuid) (actorId : String) (reason : Option String)
  | workflowRunCompleted (finalStatus : CaseStatus)
  | evaluationInterrupted (reason : String)
  | workflowRunFailed (reason : String)
  | workflowRunCancelled (caseStatusAtCancellation : CaseStatus)
  | caseEscalated (reason : String)
  deriving DecidableEq

structure OutboxEvent where
  tenantId : Uuid
  caseId : Uuid
  payload : OutboxPayload
  deriving DecidableEq

structure Db where
  tenants : Table Tenant Tenant.id
  loanCases : Table LoanCase LoanCase.id
  conditions : Table LoanCondition LoanCondition.id
  transitions : List ConditionTransition := []
  facts : List EvidenceFact := []
  manifests : List EvaluationInputManifest := []
  invocations : List AgentModelInvocation := []
  agentRuns : List AgentRun := []
  budget : Budget.Db
  outbox : List OutboxEvent := []

/-! ## Code -/

/-- A case of a tenant, which every query names together. -/
structure CaseRef where
  tenantId : Uuid
  caseId : Uuid
  deriving DecidableEq, Repr

inductive AgentPlannerErrorCode where
  | UNAVAILABLE
  | TIMEOUT
  | PROVIDER_ERROR
  | MALFORMED_OUTPUT
  deriving DecidableEq, Repr

/-- What the code throws. -/
inductive Failure where
  | agentBudgetError (code : Budget.AgentBudgetFailureCode) (message : String)
  | staleCaseVersion (caseId : Uuid) (expectedVersion : Nat)
  | agentPlannerError (code : AgentPlannerErrorCode) (message : String)
  /-- `findOneByOrFail` found nothing -/
  | entityNotFound
  | database (error : PgError)
  /-- any other error of the store's driver or of a service -/
  | other (message : String)
  /-- the process died: no handler of the code runs -/
  | stopped
  deriving DecidableEq, Repr

def Failure.ofBudget : Budget.BudgetFailure → Failure
  | .agentBudgetError code message => .agentBudgetError code message
  | .entityNotFound => .entityNotFound
  | .database error => .database error

/-- `error.message`. -/
def Failure.message : Failure → String
  | .agentBudgetError _ message => message
  | .staleCaseVersion caseId expectedVersion =>
    "case " ++ toString caseId ++ " version changed during the write (expected "
      ++ toString expectedVersion ++ "); re-evaluation required"
  | .agentPlannerError _ message => message
  | .entityNotFound => "Could not find any entity"
  | .database .uniqueViolation => "duplicate key value violates unique constraint"
  | .database .foreignKeyViolation => "violates foreign key constraint"
  | .database .checkViolation => "violates check constraint"
  | .database .numericValueOutOfRange => "integer out of range"
  | .database .inFailedTransaction => "current transaction is aborted"
  | .other message => message
  | .stopped => ""

inductive ConsentStatus where
  | VALID
  | MISSING
  | EXPIRED
  | REVOKED
  deriving DecidableEq, Repr

def ConsentStatus.text : ConsentStatus → String
  | .VALID => "VALID"
  | .MISSING => "MISSING"
  | .EXPIRED => "EXPIRED"
  | .REVOKED => "REVOKED"

structure EvaluatePolicyArgs where
  jurisdictionCode : String
  productCode : String
  lifecycleEvent : String
  applicationReceivedAt : Instant
  deriving DecidableEq

structure MatchedVersion where
  policyVersionId : Uuid
  ruleId : String
  version : String
  rule : Policy.PolicyRuleDocument
  deriving DecidableEq

structure EvaluatePolicyResult where
  status : Policy.PolicyResolutionStatus
  policySnapshotId : Uuid
  policyBindingId : Option Uuid
  observedPolicyDependencyDigest : Option String
  matchedVersions : List MatchedVersion
  unresolvedReasons : List String

structure DraftInformationRequestArgs where
  recipientRelationship : String := "BORROWER"
  channel : String := "EMAIL"
  locale : String := "en-US"
  templateKey : Option String := none
  freeformContent : Option String := none
  hasAttachments : Bool := false
  deriving DecidableEq

structure AgentPlannerResult where
  nextAction : AgentPlannerAction
  reasonCode : AgentPlannerReason
  /-- nothing is `NaN` or an infinity -/
  confidence : Option JsDecimal
  modelVersion : String
  promptVersion : String
  requestDigest : String
  responseDigest : String
  accountedTokenUnits : Int

/-- What a transaction takes from outside the store: the clocks, a fresh id, and the answers
of the services that keep rows of their own. -/
structure Input where
  env : Budget.Env
  newId : Uuid
  consent : ConsentStatus := .VALID
  evaluatePolicy : EvaluatePolicyArgs → Except Failure EvaluatePolicyResult :=
    fun _ => .error (.other "unavailable")
  draft : DraftInformationRequestArgs → Except Failure Uuid := fun _ => .error (.other "unavailable")
  send : Uuid → Except Failure Unit := fun _ => .ok ()
  hasApprovedTemplate : Bool := false
  plan : Except Failure AgentPlannerResult := .error (.agentPlannerError .UNAVAILABLE "unavailable")

/-- Code over the store. -/
abbrev Act := Proc Input Db Failure

/-- `try … catch`: the handler sees every exception but the death of its own process. -/
def Act.catch {α : Type} (p : Act α) (handler : Failure → Act α) : Act α :=
  p.rescue fun
    | .stopped => .fail .stopped
    | e => handler e

/-- A transaction that reads, and writes only when it succeeds. -/
def transaction {α : Type} (t : Input → Db → Except Failure (Db × α)) : Act α :=
  .tx fun i db => match t i db with
    | .ok (db', a) => (db', .ok a)
    | .error e => (db, .error e)

/-- A transaction that only reads. -/
def query {α : Type} (t : Db → Except Failure α) : Act α :=
  transaction fun _ db => (t db).map (db, ·)

def Db.findCase (db : Db) (ref : CaseRef) : Option LoanCase :=
  (db.loanCases.find ref.caseId).filter fun c => c.tenantId = ref.tenantId

/-- `findOneByOrFail({ id: caseId, tenantId })`. -/
def Db.findCaseOrFail (db : Db) (ref : CaseRef) : Except Failure LoanCase :=
  match db.findCase ref with
  | some c => .ok c
  | none => .error .entityNotFound

/-- The row after `update(…, { status })`. -/
def LoanCase.withStatus (c : LoanCase) (status : CaseStatus) : LoanCase :=
  { c with status, version := c.version + 1 }

section

variable (c : LoanCase) (status : CaseStatus)

@[simp] theorem LoanCase.withStatus_id : (c.withStatus status).id = c.id := rfl

@[simp] theorem LoanCase.withStatus_tenantId : (c.withStatus status).tenantId = c.tenantId := rfl

@[simp] theorem LoanCase.withStatus_version : (c.withStatus status).version = c.version + 1 := rfl

@[simp] theorem LoanCase.withStatus_status : (c.withStatus status).status = status := rfl

end

/-- `update({ id: caseId, tenantId }, { status })`; no row is not an error. -/
def Db.setCaseStatus (db : Db) (ref : CaseRef) (status : CaseStatus) : Db :=
  match db.findCase ref with
  | some c => { db with loanCases := db.loanCases.put (c.withStatus status) }
  | none => db

/-- `update({ id: caseId, tenantId, version }, { status })`, or nothing when no row is
affected. -/
def Db.setCaseStatusAt (db : Db) (ref : CaseRef) (version : Nat) (status : CaseStatus) :
    Option Db :=
  match db.findCase ref with
  | some c =>
    if c.version = version then
      some { db with loanCases := db.loanCases.put (c.withStatus status) }
    else none
  | none => none

def Db.writeOutboxEvent (db : Db) (ref : CaseRef) (payload : OutboxPayload) : Db :=
  { db with outbox := db.outbox ++ [{ tenantId := ref.tenantId, caseId := ref.caseId, payload }] }

end MortgageAgent.Workflow
