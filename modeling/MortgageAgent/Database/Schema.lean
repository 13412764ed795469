import MortgageAgent.Platform
import MortgageAgent.Lib.Relational

/-!
# Tables and foreign keys

The tables that hold rows of tenants, with the foreign keys between them. `tenantId` is mostly a
plain column; what a row refers to is declared for a few columns only.

* **`TableName`**, **`foreignKeys`**, **`schema`** — as the migrations leave them.
* **`Row`**, **`Db`** — rows of any table, told apart by table and key.
* **`Row.of`** — a row of a tenant.
-/

namespace MortgageAgent.Database

open Relational

inductive TableName where
  | tenants
  | loanCases
  | evidenceFacts
  | loanConditions
  | conditionTransitions
  | outboxEvents
  | casePolicyBindings
  | casePolicySnapshots
  | agentRuns
  | toolAttempts
  | agentModelInvocations
  | agentBudgetLedgers
  | agentBudgetReservations
  | tenantAgentBudgetUsage
  | evaluationInputManifests
  | consentRecords
  | dataDispositionTasks
  | communicationTemplates
  | communicationMessages
  | communicationApprovals
  | providerOperationIntents
  | providerAuthorizationGrants
  | permissiblePurposeDecisions
  | policyChangeImpactAssessments
  | webhookEndpoints
  | webhookDeliveries
  | guestSandboxSessions
  | documentRecords
  | legalHolds
  | tenantMemberships
  | apiClients
  | auditEvents
  deriving DecidableEq, Repr

namespace TableName

/-- The tables with a `tenantId`; a row of `tenants` is its own. -/
def hasTenantId : TableName → Bool
  | conditionTransitions | toolAttempts | communicationApprovals => false
  | _ => true

end TableName

abbrev ForeignKey := Relational.ForeignKey TableName

namespace ForeignKey

def loanCaseTenant : ForeignKey where
  child := .loanCases
  parent := .tenants
  onDelete := .restrict

def evidenceFactCase : ForeignKey where
  child := .evidenceFacts
  parent := .loanCases
  onDelete := .cascade

def loanConditionCase : ForeignKey where
  child := .loanConditions
  parent := .loanCases
  onDelete := .cascade

def conditionTransitionCondition : ForeignKey where
  child := .conditionTransitions
  parent := .loanConditions
  onDelete := .cascade

def documentRecordCase : ForeignKey where
  child := .documentRecords
  parent := .loanCases
  onDelete := .cascade

def casePolicyBindingSnapshot : ForeignKey where
  child := .casePolicyBindings
  parent := .casePolicySnapshots
  onDelete := .restrict

def agentRunModelInvocation : ForeignKey where
  child := .agentRuns
  parent := .agentModelInvocations
  onDelete := .restrict
  nullable := true

def toolAttemptRun : ForeignKey where
  child := .toolAttempts
  parent := .agentRuns
  onDelete := .cascade

/-- `("ledgerId", "tenantId")` to `("id", "tenantId")`. -/
def reservationLedger : ForeignKey where
  child := .agentBudgetReservations
  parent := .agentBudgetLedgers
  onDelete := .cascade

/-- `("tenantId", "aggregateWindowStart")` to `("tenantId", "windowStart")`. -/
def reservationUsage : ForeignKey where
  child := .agentBudgetReservations
  parent := .tenantAgentBudgetUsage
  onDelete := .noAction
  nullable := true

def usageTenant : ForeignKey where
  child := .tenantAgentBudgetUsage
  parent := .tenants
  onDelete := .cascade

def communicationMessageTemplate : ForeignKey where
  child := .communicationMessages
  parent := .communicationTemplates
  onDelete := .restrict
  nullable := true

def communicationApprovalMessage : ForeignKey where
  child := .communicationApprovals
  parent := .communicationMessages
  onDelete := .cascade

def webhookDeliveryEndpoint : ForeignKey where
  child := .webhookDeliveries
  parent := .webhookEndpoints
  onDelete := .cascade

def webhookDeliveryEvent : ForeignKey where
  child := .webhookDeliveries
  parent := .outboxEvents
  onDelete := .cascade

def guestSandboxSessionTenant : ForeignKey where
  child := .guestSandboxSessions
  parent := .tenants
  onDelete := .cascade

end ForeignKey

open ForeignKey

def foreignKeys : List ForeignKey :=
  [loanCaseTenant, evidenceFactCase, loanConditionCase, conditionTransitionCondition,
    documentRecordCase, casePolicyBindingSnapshot, agentRunModelInvocation, toolAttemptRun,
    reservationLedger, reservationUsage, usageTenant, communicationMessageTemplate,
    communicationApprovalMessage, webhookDeliveryEndpoint, webhookDeliveryEvent,
    guestSandboxSessionTenant]

def schema : Schema TableName where
  foreignKeys := foreignKeys
  hasOwner := TableName.hasTenantId

/-- The values of the columns that a foreign key of the table refers to, else of the primary key. -/
abbrev Key := List Nat

abbrev Row := Relational.Row schema Key Uuid

abbrev Db := List Row

/-- A row of the tenant, with the keys of the rows it refers to. -/
def Row.of (tenantId : Uuid) (table : TableName) (key : Key) (refs : List (ForeignKey × Key))
    (columns : ∀ fk ∈ refs.map Prod.fst, fk ∈ foreignKeys ∧ fk.child = table)
    (required : ∀ fk ∈ foreignKeys, fk.child = table → fk.nullable = false →
      fk ∈ refs.map Prod.fst) : Row where
  table
  key
  owner := if table.hasTenantId then some tenantId else none
  refs
  ownerColumn := by
    show (if table.hasTenantId = true then some tenantId else none).isSome = table.hasTenantId
    cases table.hasTenantId <;> rfl
  columns
  required

end MortgageAgent.Database
