import MortgageAgent.Workflow.Runtime

/-!
# The activities of the case workflow

Each activity as Temporal executes it once: at least once, and possibly stopped between any two
of its transactions. `evaluateConditions` reads the case, runs the agent and, when the agent
proposes nothing, marks the case ready; the others are one transaction each, which writes the
case or a condition together with an outbox event.
-/

namespace MortgageAgent.Workflow

/-! ## Marking a case ready -/

def staleCaseVersionError (ref : CaseRef) (expectedCaseVersion : Nat) : Failure :=
  .staleCaseVersion ref.caseId expectedCaseVersion

/-- With an expected version the update is a compare-and-swap, without one it is
unconditional. The condition table is not looked at. -/
def finalizeReadyForUnderwriting (ref : CaseRef) (expectedCaseVersion : Option Nat) (db : Db) :
    Except Failure Db :=
  let completed := OutboxPayload.workflowRunCompleted .READY_FOR_UNDERWRITING
  match expectedCaseVersion with
  | some version =>
    match db.setCaseStatusAt ref version .READY_FOR_UNDERWRITING with
    | some db => .ok (db.writeOutboxEvent ref completed)
    | none => .error (staleCaseVersionError ref version)
  | none => .ok ((db.setCaseStatus ref .READY_FOR_UNDERWRITING).writeOutboxEvent ref completed)

/-- The transaction around it. -/
def finalizeReady (ref : CaseRef) (expectedCaseVersion : Option Nat) : Act Unit :=
  transaction fun _ db => (finalizeReadyForUnderwriting ref expectedCaseVersion db).map (·, ())

def READY_FOR_UNDERWRITING_TEMPLATE_KEY : String := "READY_FOR_UNDERWRITING_NOTICE"

/-- Drafts and sends the notice; its failures are logged and dropped. -/
def sendReadyForUnderwritingNotification : Act Unit :=
  Act.catch (do
    if ← .ask fun i => i.hasApprovedTemplate then
      match ← invokeTool (draftInformationRequestTool
          { templateKey := some READY_FOR_UNDERWRITING_TEMPLATE_KEY }).execute with
      | .error _ => return ()
      | .ok messageId =>
        let _ ← invokeTool (.tx fun i db => (db, i.send messageId) : Act Unit)
        return ()
    else return ())
    fun _ => return ()

/-! ## `evaluateConditions` -/

inductive EvaluateConditionsResult where
  | CONDITION_OPENED (conditionId : Uuid)
  | READY
  | REVIEW_REQUIRED (reviewReason : String)
  | INTERRUPTED (reviewReason : String)
  deriving DecidableEq

def DEFAULT_AGENT_RUN_STEP_BUDGET : Int := 10

def DEFAULT_AGENT_RUN_DURATION_BUDGET_MS : Int := 75000

def resolveAgentRunBudget (deps : RuntimeDeps) (tenant : Tenant) : AgentRunBudget where
  stepBudget := tenant.agentRunStepBudgetOverride.getD DEFAULT_AGENT_RUN_STEP_BUDGET
  durationBudgetMs :=
    tenant.agentRunDurationBudgetMsOverride.getD DEFAULT_AGENT_RUN_DURATION_BUDGET_MS
  tokenBudget := (deps.agentPlanner.map (·.tokenBudgetUnits)).getD 0

def Db.findTenantOrFail (db : Db) (tenantId : Uuid) : Except Failure Tenant :=
  match db.tenants.find tenantId with
  | some t => .ok t
  | none => .error .entityNotFound

/-- The answer of the activity for the way the run ended. -/
def concludeEvaluation (ctx : RunContext) : AgentRunResult → Act EvaluateConditionsResult
  | .proposedAction _ (some action) => return .CONDITION_OPENED action.conditionId
  | .proposedAction _ none => do
    finalizeReady ctx.ref (some ctx.caseVersion)
    sendReadyForUnderwritingNotification
    return .READY
  | .ended (.review _ trigger) =>
    match trigger.category.route with
    | .ROUTE_TO_MANUAL_REVIEW => return .REVIEW_REQUIRED trigger.reason
    | .INTERRUPT_FOR_REVIEW => return .INTERRUPTED trigger.reason
  | .ended (.awaitingInformation _) =>
    return .REVIEW_REQUIRED "unexpected Agent run route \"AWAITING_INFORMATION\""

/-- The activity once it has read the case. -/
def evaluateCase (deps : RuntimeDeps) (ref : CaseRef) (workflowRunId : String)
    (caseVersion : Nat) : Act EvaluateConditionsResult := do
  let consentStatus ← .ask fun i => i.consent
  let tenant ← query fun db => db.findTenantOrFail ref.tenantId
  let now ← .ask fun i => i.env.processNow
  let ctx : RunContext := { ref, caseVersion, workflowRunId, consentStatus }
  let result ← runAgent deps ctx (resolveAgentRunBudget deps tenant) now
  concludeEvaluation ctx result

def evaluateConditions (deps : RuntimeDeps) (ref : CaseRef) (workflowRunId : String) :
    Act EvaluateConditionsResult := do
  let loanCase ← query fun db => db.findCaseOrFail ref
  evaluateCase deps ref workflowRunId loanCase.version

/-! ## The other activities -/

/-- An activity that sets the case's status and writes an event. -/
def markCase (ref : CaseRef) (status : CaseStatus) (payload : OutboxPayload) : Act Unit :=
  transaction fun _ db => .ok ((db.setCaseStatus ref status).writeOutboxEvent ref payload, ())

def markCollectingEvidence (ref : CaseRef) : Act Unit :=
  markCase ref .COLLECTING_EVIDENCE .workflowRunStarted

def markWaitingForReview (ref : CaseRef) (reason : String) : Act Unit :=
  markCase ref .WAITING_FOR_REVIEW (.evaluationInterrupted reason)

def markManualReview (ref : CaseRef) (reason : String) : Act Unit :=
  markCase ref .MANUAL_REVIEW (.workflowRunFailed reason)

/-- The status is read first, without a lock. -/
def markWorkflowCancelled (ref : CaseRef) : Act Unit := do
  let loanCase ← query fun db => db.findCaseOrFail ref
  transaction fun _ db =>
    let db :=
      if loanCase.status ≠ .READY_FOR_UNDERWRITING ∧ loanCase.status ≠ .CLOSED then
        db.setCaseStatus ref .MANUAL_REVIEW
      else db
    .ok (db.writeOutboxEvent ref (.workflowRunCancelled loanCase.status), ())

def markReadyForUnderwriting (ref : CaseRef) : Act Unit := do
  finalizeReady ref none
  sendReadyForUnderwritingNotification

/-- The case's conditions that are not settled. -/
def Db.activeConditions (db : Db) (ref : CaseRef) : List LoanCondition :=
  db.conditions.rows.filter fun c =>
    c.tenantId = ref.tenantId && c.caseId = ref.caseId && c.status.active

inductive PrepareWorkflowRecoveryResult where
  | REUSE_OPEN_CONDITION (conditionId : Uuid)
  | REVIEW_REQUIRED (reviewReason : String)
  | RESTART_COLLECTION
  deriving DecidableEq

def prepareWorkflowRecovery (ref : CaseRef) (recoveryOfRunId : String) :
    Act PrepareWorkflowRecoveryResult :=
  transaction fun _ db =>
    let conditions := db.activeConditions ref
    let db := db.writeOutboxEvent ref
      (.workflowRunRecoveryStarted recoveryOfRunId conditions.length)
    match conditions with
    | [] => .ok (db, .RESTART_COLLECTION)
    | [condition] => .ok (db.setCaseStatus ref .CONDITIONS_OPEN, .REUSE_OPEN_CONDITION condition.id)
    | _ => .ok (db, .REVIEW_REQUIRED
        "recovery found multiple active conditions; reviewer selection is required")

structure ResolveConditionSignalPayload where
  actorId : String
  resolution : ConditionResolutionKind
  reason : Option String
  deriving DecidableEq

def ConditionResolutionKind.toStatus : ConditionResolutionKind → ConditionStatus
  | .SATISFIED => .SATISFIED
  | .WAIVED => .WAIVED

def resolvedEvent (conditionId : Uuid) (p : ResolveConditionSignalPayload) : OutboxPayload :=
  match p.resolution with
  | .SATISFIED => .conditionSatisfied conditionId p.actorId p.reason
  | .WAIVED => .conditionWaived conditionId p.actorId p.reason

/-- The condition is found by its id, and its status is written whatever it was. -/
def resolveCondition (ref : CaseRef) (conditionId : Uuid) (p : ResolveConditionSignalPayload) :
    Act Unit :=
  transaction fun _ db =>
    match db.conditions.find conditionId with
    | none => .error .entityNotFound
    | some condition =>
      let toStatus := p.resolution.toStatus
      let resolved := { condition with status := toStatus, version := condition.version + 1 }
      let transition : ConditionTransition := {
        conditionId
        fromStatus := condition.status
        toStatus
        actorId := p.actorId
        reason := p.reason }
      let db := { db with
        conditions := db.conditions.put resolved
        transitions := db.transitions ++ [transition] }
      .ok (db.writeOutboxEvent ref (resolvedEvent conditionId p), ())

/-- The transaction of an evidence-fetch activity, once the provider has answered. -/
def recordEvidence (db : Db) (ref : CaseRef) (fact : EvidenceFact) : Db :=
  { db with facts := db.facts ++ [fact] }.writeOutboxEvent ref
    (.evidenceUpdated fact.factType fact.sourceIdentifier)

def ESCALATABLE_STATUSES : List CaseStatus :=
  [.DRAFT, .COLLECTING_EVIDENCE, .CONDITIONS_OPEN, .WAITING_FOR_INFORMATION]

/-- `escalate_to_reviewer`, for the version its caller read: one conditional update. -/
def escalateToReviewer (db : Db) (ref : CaseRef) (reason : String) (expectedCaseVersion : Nat) :
    Db :=
  match db.findCase ref with
  | some c =>
    if c.status ∈ ESCALATABLE_STATUSES then
      match db.setCaseStatusAt ref expectedCaseVersion .WAITING_FOR_REVIEW with
      | some db => db.writeOutboxEvent ref (.caseEscalated reason)
      | none => db
    else db
  | none => db

end MortgageAgent.Workflow
