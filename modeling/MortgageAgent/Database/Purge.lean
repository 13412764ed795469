import MortgageAgent.Database.Schema

/-!
# Purging a tenant

`purgeTenantData` deletes, table by table, what a disposable tenant has written. The rest of the
module is what it has to keep up with: the rows that the API and the workflows write for a tenant.

* **`purgeTenantData`** — the `DELETE`s, in the order of the source.
* **`Write`** — the places that insert a row of a tenant, with the rows they read first. What else
  they check before they write (a status, a role, a budget) only makes them write less often.
* **`Label`** / **`step`** — writes of any tenants in any order, with guest sandboxes that come and
  go.
-/

namespace MortgageAgent.Database

open Relational ForeignKey

/-! ## The purge -/

/-- `deleteIfKnown(entity, { tenantId })`. -/
def deleteIfKnown (hasMetadata : TableName → Bool) (table : TableName) :
    List (Statement TableName) :=
  if hasMetadata table then [.owned table] else []

/-- The statements of `purgeTenantDataWithManager`. -/
def purgeStatements (hasMetadata : TableName → Bool) : List (Statement TableName) :=
  deleteIfKnown hasMetadata .agentBudgetReservations
    ++ deleteIfKnown hasMetadata .agentBudgetLedgers
    ++ deleteIfKnown hasMetadata .tenantAgentBudgetUsage
    ++ (if hasMetadata .agentRuns then
        (if hasMetadata .toolAttempts then [.children toolAttemptRun] else [])
          ++ [.owned .agentRuns]
      else [])
    ++ deleteIfKnown hasMetadata .agentModelInvocations
    ++ deleteIfKnown hasMetadata .evaluationInputManifests
    ++ deleteIfKnown hasMetadata .providerOperationIntents
    ++ deleteIfKnown hasMetadata .providerAuthorizationGrants
    ++ deleteIfKnown hasMetadata .permissiblePurposeDecisions
    ++ deleteIfKnown hasMetadata .outboxEvents
    ++ deleteIfKnown hasMetadata .evidenceFacts
    ++ deleteIfKnown hasMetadata .casePolicyBindings
    ++ deleteIfKnown hasMetadata .casePolicySnapshots
    -- the conditions of the tenant, by the ids that were found
    ++ (if hasMetadata .loanConditions then
        (if hasMetadata .conditionTransitions then [.children conditionTransitionCondition] else [])
          ++ [.owned .loanConditions]
      else [])
    ++ deleteIfKnown hasMetadata .dataDispositionTasks
    ++ deleteIfKnown hasMetadata .consentRecords
    ++ deleteIfKnown hasMetadata .communicationMessages
    ++ [.owned .loanCases, .owned .tenants]

/-- The data source of the API and of the worker registers every entity. -/
def appHasMetadata : TableName → Bool := fun _ => true

/-- One transaction; `none` where a foreign key refuses one of its statements. -/
def purgeTenantData (hasMetadata : TableName → Bool) (db : Db) (tenantId : Uuid) : Option Db :=
  deleteAll tenantId (purgeStatements hasMetadata) db

/-! ## What is written -/

/-- A write by the function of that name, with the id of its row and of those it refers to. -/
inductive Write where
  | createCase (id : Uuid)
  | grantForCase (id : Uuid)
  | openRetentionReviewForRevokedConsent (id : Uuid)
  | writeOutboxEvent (id : Uuid)
  | recordEvidence (id caseId : Uuid)
  | persistSnapshot (id : Uuid)
  | evaluateInternal (id snapshotId : Uuid)
  /-- `EvaluationManifestService.assemble` -/
  | assemble (id : Uuid)
  /-- the `create_condition` tool -/
  | createCondition (id caseId : Uuid)
  | resolveCondition (id conditionId : Uuid)
  | assessOneCase (id caseId bindingId : Uuid)
  /-- `AgentBudgetLedgerService.createOrLoad` -/
  | createOrLoad (id : Uuid)
  | reserveTenantAggregate (windowStart : Nat)
  /-- `AgentBudgetLedgerService.reserve` -/
  | reserve (id ledgerId : Uuid) (aggregateWindowStart : Option Nat)
  | persistPlannerInvocation (id : Uuid)
  | persistAgentRun (id : Uuid) (modelInvocationId : Option Uuid)
  | persistToolAttempt (id agentRunId : Uuid)
  /-- `CommunicationMessageService.draft` -/
  | draft (id : Uuid) (templateId : Option Uuid)
  /-- `CommunicationApprovalService.approve` -/
  | approve (id communicationMessageId : Uuid)
  /-- `POST /v1/webhook-endpoints`, which has no role guard -/
  | createWebhookEndpoint (id : Uuid)
  | dispatchPendingEvents (id webhookEndpointId outboxEventId : Uuid)
  /-- `ProviderOperationIntentService.prepare` -/
  | prepare (id : Uuid)
  /-- `ProviderAuthorizationService.issue` -/
  | issue (id : Uuid)
  /-- `PermissiblePurposeService.issueSynthetic` -/
  | issueSynthetic (id : Uuid)
  /-- `AuditEventService.record` -/
  | recordAuditEvent (id : Uuid)
  deriving DecidableEq, Repr

/-- A row that refers to no other. -/
def Row.plain (tenantId : Uuid) (table : TableName) (id : Uuid)
    (required : ∀ fk ∈ foreignKeys, fk.child = table → fk.nullable = true) : Row :=
  .of tenantId table [id] [] (fun _ h => by cases h) fun fk hfk hchild hnullable => by
    rw [required fk hfk hchild] at hnullable
    cases hnullable

/-- The row that is inserted. -/
def Write.row (tenantId : Uuid) : Write → Row
  | .createCase id => .of tenantId .loanCases [id] [(loanCaseTenant, [tenantId])]
      (of_decide_eq_true rfl) (of_decide_eq_true rfl)
  | .grantForCase id => .plain tenantId .consentRecords id (by decide)
  | .openRetentionReviewForRevokedConsent id =>
      .plain tenantId .dataDispositionTasks id (by decide)
  | .writeOutboxEvent id => .plain tenantId .outboxEvents id (by decide)
  | .recordEvidence id caseId => .of tenantId .evidenceFacts [id] [(evidenceFactCase, [caseId])]
      (of_decide_eq_true rfl) (of_decide_eq_true rfl)
  | .persistSnapshot id => .plain tenantId .casePolicySnapshots id (by decide)
  | .evaluateInternal id snapshotId => .of tenantId .casePolicyBindings [id]
      [(casePolicyBindingSnapshot, [snapshotId])] (of_decide_eq_true rfl) (of_decide_eq_true rfl)
  | .assemble id => .plain tenantId .evaluationInputManifests id (by decide)
  | .createCondition id caseId => .of tenantId .loanConditions [id] [(loanConditionCase, [caseId])]
      (of_decide_eq_true rfl) (of_decide_eq_true rfl)
  | .resolveCondition id conditionId => .of tenantId .conditionTransitions [id]
      [(conditionTransitionCondition, [conditionId])]
      (of_decide_eq_true rfl) (of_decide_eq_true rfl)
  | .assessOneCase id _ _ => .plain tenantId .policyChangeImpactAssessments id (by decide)
  | .createOrLoad id => .of tenantId .agentBudgetLedgers [id, tenantId] []
      (of_decide_eq_true rfl) (of_decide_eq_true rfl)
  | .reserveTenantAggregate windowStart => .of tenantId .tenantAgentBudgetUsage
      [tenantId, windowStart] [(usageTenant, [tenantId])]
      (of_decide_eq_true rfl) (of_decide_eq_true rfl)
  | .reserve id ledgerId none => .of tenantId .agentBudgetReservations [id]
      [(reservationLedger, [ledgerId, tenantId])] (of_decide_eq_true rfl) (of_decide_eq_true rfl)
  | .reserve id ledgerId (some windowStart) => .of tenantId .agentBudgetReservations [id]
      [(reservationLedger, [ledgerId, tenantId]), (reservationUsage, [tenantId, windowStart])]
      (of_decide_eq_true rfl) (of_decide_eq_true rfl)
  | .persistPlannerInvocation id => .plain tenantId .agentModelInvocations id (by decide)
  | .persistAgentRun id none => .plain tenantId .agentRuns id (by decide)
  | .persistAgentRun id (some modelInvocationId) => .of tenantId .agentRuns [id]
      [(agentRunModelInvocation, [modelInvocationId])]
      (of_decide_eq_true rfl) (of_decide_eq_true rfl)
  | .persistToolAttempt id agentRunId => .of tenantId .toolAttempts [id]
      [(toolAttemptRun, [agentRunId])] (of_decide_eq_true rfl) (of_decide_eq_true rfl)
  | .draft id none => .plain tenantId .communicationMessages id (by decide)
  | .draft id (some templateId) => .of tenantId .communicationMessages [id]
      [(communicationMessageTemplate, [templateId])]
      (of_decide_eq_true rfl) (of_decide_eq_true rfl)
  | .approve id communicationMessageId => .of tenantId .communicationApprovals [id]
      [(communicationApprovalMessage, [communicationMessageId])]
      (of_decide_eq_true rfl) (of_decide_eq_true rfl)
  | .createWebhookEndpoint id => .plain tenantId .webhookEndpoints id (by decide)
  | .dispatchPendingEvents id webhookEndpointId outboxEventId => .of tenantId .webhookDeliveries
      [id] [(webhookDeliveryEndpoint, [webhookEndpointId]), (webhookDeliveryEvent, [outboxEventId])]
      (of_decide_eq_true rfl) (of_decide_eq_true rfl)
  | .prepare id => .plain tenantId .providerOperationIntents id (by decide)
  | .issue id => .plain tenantId .providerAuthorizationGrants id (by decide)
  | .issueSynthetic id => .plain tenantId .permissiblePurposeDecisions id (by decide)
  | .recordAuditEvent id => .plain tenantId .auditEvents id (by decide)

/-- The rows of the tenant that are read, or written just before, and without which the function
does not get as far as its write. A workflow runs for a case that was found for its tenant. -/
def Write.reads (tenantId : Uuid) : Write → List (TableName × Key)
  | .createCase _ => [(.tenants, [tenantId])]
  | .recordEvidence _ caseId | .createCondition _ caseId => [(.loanCases, [caseId])]
  | .evaluateInternal _ snapshotId => [(.casePolicySnapshots, [snapshotId])]
  | .resolveCondition _ conditionId => [(.loanConditions, [conditionId])]
  | .assessOneCase _ caseId bindingId =>
    [(.loanCases, [caseId]), (.casePolicyBindings, [bindingId])]
  | .reserveTenantAggregate _ => [(.tenants, [tenantId])]
  | .reserve _ ledgerId aggregateWindowStart =>
    (.agentBudgetLedgers, [ledgerId, tenantId])
      :: aggregateWindowStart.toList.map fun w => (.tenantAgentBudgetUsage, [tenantId, w])
  | .persistAgentRun _ modelInvocationId =>
    modelInvocationId.toList.map fun id => (.agentModelInvocations, [id])
  | .persistToolAttempt _ agentRunId => [(.agentRuns, [agentRunId])]
  | .draft _ templateId => templateId.toList.map fun id => (.communicationTemplates, [id])
  | .approve _ communicationMessageId => [(.communicationMessages, [communicationMessageId])]
  | .dispatchPendingEvents _ webhookEndpointId outboxEventId =>
    [(.webhookEndpoints, [webhookEndpointId]), (.outboxEvents, [outboxEventId])]
  | _ => []

/-- The tenant has a row with the key. -/
def finds (db : Db) (tenantId : Uuid) (r : TableName × Key) : Bool :=
  db.any fun x => x.table = r.1 ∧ x.key = r.2 ∧ x.owner = some tenantId

def Write.run (db : Db) (tenantId : Uuid) (w : Write) : Option Db :=
  if (w.reads tenantId).all (finds db tenantId) then insert db (w.row tenantId) else none

/-! ## Runs -/

inductive Label where
  /-- `GuestSandboxService.create`, up to the session -/
  | createSandbox (tenantId sessionId : Uuid)
  | write (tenantId : Uuid) (w : Write)
  /-- `DELETE` as the resolution of a data disposition task -/
  | deleteEvidence (tenantId : Uuid) (evidenceFactIds : List Uuid)
  /-- the session of a sandbox is deleted by its id -/
  | deleteSession (sessionId : Uuid)
  | purge (tenantId : Uuid)
  deriving DecidableEq, Repr

def tenantRow (tenantId : Uuid) : Row := .plain tenantId .tenants tenantId (by decide)

def sessionRow (tenantId sessionId : Uuid) : Row :=
  .of tenantId .guestSandboxSessions [sessionId] [(guestSandboxSessionTenant, [tenantId])]
    (of_decide_eq_true rfl) (of_decide_eq_true rfl)

/-- What a transaction makes of the rows; `none` rolls it back. -/
def Label.run (db : Db) : Label → Option Db
  | .createSandbox tenantId sessionId =>
    (insert db (tenantRow tenantId)).bind fun db => insert db (sessionRow tenantId sessionId)
  | .write tenantId w => w.run db tenantId
  | .deleteEvidence tenantId ids =>
    delete db fun x => x.table = .evidenceFacts ∧ x.owner = some tenantId ∧ x.key ∈ ids.map ([·])
  | .deleteSession sessionId =>
    delete db fun x => x.table = .guestSandboxSessions ∧ x.key = [sessionId]
  | .purge tenantId => purgeTenantData appHasMetadata db tenantId

def step (db : Db) (a : Label) : Db := (a.run db).getD db

end MortgageAgent.Database
