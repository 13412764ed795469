import MortgageAgent.Policy.Evaluation
import MortgageAgent.Workflow.Case

/-!
# The lending-operations agent runtime

One bounded agent run: five graph nodes in a row, each of which may end the run with a route.
Every tool goes through `invokeBudgetedTool`, which reserves a step of the run's budget ledger
under a key made of the workflow run, the case version the run started from, the tool and its
position, executes the tool and commits the reservation.

The fields of the agent state that no node writes (the case, its version at the start, the
workflow run, the consent status) are the `RunContext`, an argument of every node.
-/

namespace MortgageAgent.Workflow

open Budget (AgentBudgetSnapshot AgentBudgetReservationReceipt)

/-! ## Review triggers -/

inductive MandatoryReviewRoute where
  | INTERRUPT_FOR_REVIEW
  | ROUTE_TO_MANUAL_REVIEW
  deriving DecidableEq, Repr

/-- `CATEGORY_ROUTES`. -/
def MandatoryReviewCategory.route : MandatoryReviewCategory → MandatoryReviewRoute
  | .POLICY_AMBIGUITY | .MODEL_UNCERTAINTY => .INTERRUPT_FOR_REVIEW
  | .CONSENT_INVALID | .BUDGET_OR_DEADLINE_EXHAUSTED | .TOOL_EXECUTION_FAILURE
  | .MODEL_OUTPUT_INVALID => .ROUTE_TO_MANUAL_REVIEW

def MandatoryReviewCategory.text : MandatoryReviewCategory → String
  | .CONSENT_INVALID => "CONSENT_INVALID"
  | .BUDGET_OR_DEADLINE_EXHAUSTED => "BUDGET_OR_DEADLINE_EXHAUSTED"
  | .POLICY_AMBIGUITY => "POLICY_AMBIGUITY"
  | .TOOL_EXECUTION_FAILURE => "TOOL_EXECUTION_FAILURE"
  | .MODEL_OUTPUT_INVALID => "MODEL_OUTPUT_INVALID"
  | .MODEL_UNCERTAINTY => "MODEL_UNCERTAINTY"

structure MandatoryReviewTrigger where
  category : MandatoryReviewCategory
  reason : String
  deriving DecidableEq

def classifyMandatoryReviewTrigger (category : MandatoryReviewCategory) (detail : String) :
    MandatoryReviewTrigger where
  category := category
  reason := "[" ++ category.text ++ "] " ++ detail

/-! ## The state of a run -/

/-- What the run starts from and never changes. -/
structure RunContext where
  ref : CaseRef
  caseVersion : Nat
  workflowRunId : String
  consentStatus : ConsentStatus

structure AgentState where
  attemptedTools : List ToolAttemptSummary := []
  policyBindingId : Option Uuid := none
  modelVersion : Option String := none
  promptVersion : Option String := none
  modelAndPromptManifestId : Option Uuid := none
  remainingStepBudget : Int
  remainingDurationBudgetMs : Int
  remainingTokenBudget : Int
  remainingProviderCallBudget : Int
  remainingCostBudgetMinorUnits : Int
  budgetCurrency : String
  budgetLedgerId : Uuid
  budgetLedgerVersion : Int
  runStartedAt : Instant
  runDeadlineAt : Instant

structure ProposedAction where
  conditionId : Uuid
  code : String
  communicationMessageId : Uuid
  deriving DecidableEq

/-- The ends any node can come to, with what the final state carries. -/
inductive NodeEnd where
  | awaitingInformation (finalState : AgentState)
  | review (finalState : AgentState) (trigger : MandatoryReviewTrigger)

/-- How a run ends; only the last node proposes an action. -/
inductive AgentRunResult where
  | proposedAction (finalState : AgentState) (action : Option ProposedAction)
  | ended (reached : NodeEnd)

def AgentRunResult.route : AgentRunResult → AgentRunRoute
  | .proposedAction .. => .PROPOSED_ACTION
  | .ended (.awaitingInformation _) => .AWAITING_INFORMATION
  | .ended (.review _ trigger) =>
    match trigger.category.route with
    | .INTERRUPT_FOR_REVIEW => .INTERRUPTED_FOR_REVIEW
    | .ROUTE_TO_MANUAL_REVIEW => .ROUTED_TO_MANUAL_REVIEW

def AgentRunResult.finalState : AgentRunResult → AgentState
  | .proposedAction finalState _ => finalState
  | .ended (.awaitingInformation finalState) => finalState
  | .ended (.review finalState _) => finalState

def AgentRunResult.action : AgentRunResult → Option ProposedAction
  | .proposedAction _ action => action
  | .ended _ => none

def AgentRunResult.trigger : AgentRunResult → Option MandatoryReviewTrigger
  | .ended (.review _ trigger) => some trigger
  | _ => none

def recordAttempt (st : AgentState) (toolName : String) (succeeded : Bool)
    (detail : Option String) : AgentState :=
  { st with attemptedTools := st.attemptedTools ++ [{ toolName, succeeded, detail }] }

def applyBudgetSnapshot (st : AgentState) (snapshot : AgentBudgetSnapshot) : AgentState :=
  { st with
    budgetLedgerId := snapshot.ledgerId
    budgetLedgerVersion := snapshot.version
    remainingStepBudget := snapshot.remainingSteps
    remainingDurationBudgetMs := snapshot.remainingDurationMs
    remainingTokenBudget := snapshot.remainingTokens
    remainingProviderCallBudget := snapshot.remainingProviderCalls
    remainingCostBudgetMinorUnits := snapshot.remainingCostMinorUnits
    budgetCurrency := snapshot.currency
    runStartedAt := snapshot.startedAt
    runDeadlineAt := snapshot.deadlineAt }

/-- The fast check before a reservation; the ledger decides. -/
def budgetExceeded (st : AgentState) : Act (Option MandatoryReviewTrigger) := do
  if st.remainingStepBudget ≤ 0 then
    return some (classifyMandatoryReviewTrigger .BUDGET_OR_DEADLINE_EXHAUSTED
      "remainingStepBudget exhausted")
  else
    let now ← .ask fun i => i.env.processNow
    if st.remainingDurationBudgetMs ≤ 0 || st.runDeadlineAt ≤ now then
      return some (classifyMandatoryReviewTrigger .BUDGET_OR_DEADLINE_EXHAUSTED
        ("runDeadlineAt (" ++ toISOString st.runDeadlineAt ++ ") exceeded"))
    else return none

/-! ## The budget ledger as the run calls it -/

def budgetCall {α : Type}
    (t : Input → Budget.Db → Except Budget.BudgetFailure (Budget.Db × α)) : Act α :=
  transaction fun i db =>
    match t i db.budget with
    | .ok (budget, a) => .ok ({ db with budget }, a)
    | .error e => .error (.ofBudget e)

def createOrLoad (input : Budget.AgentBudgetLedgerInput) : Act AgentBudgetSnapshot :=
  .tx fun i db =>
    let (budget, r) := Budget.createOrLoad db.budget i.env i.newId input
    ({ db with budget }, r.mapError .ofBudget)

def reserve (input : Budget.ReserveInput) : Act AgentBudgetReservationReceipt := do
  let units ← .ofExcept ((Budget.validateReserve input).mapError .ofBudget)
  match ← budgetCall fun i db => (Budget.reservePreRead db i.env input units).map (db, ·) with
  | some receipt => return receipt
  | none =>
    (budgetCall fun i db => Budget.reserveClaim db i.env i.newId input units).rescue fun
      -- another execution took the key between the read and the insert
      | .database .uniqueViolation =>
        budgetCall fun i db => (Budget.reserveRecover db i.env input units).map (db, ·)
      | e => .fail e

def commit (input : Budget.CommitInput) : Act AgentBudgetReservationReceipt :=
  budgetCall fun i db => Budget.commit db i.env input

def release (tenantId reservationId : Uuid) : Act AgentBudgetReservationReceipt :=
  budgetCall fun i db => Budget.release db i.env tenantId reservationId none

def markUnknown (tenantId reservationId : Uuid) : Act AgentBudgetReservationReceipt :=
  budgetCall fun i db => Budget.markUnknown db i.env tenantId reservationId

def budgetCodeText : Budget.AgentBudgetFailureCode → String
  | .BUDGET_EXHAUSTED => "BUDGET_EXHAUSTED"
  | .DEADLINE_EXCEEDED => "DEADLINE_EXCEEDED"
  | .LEDGER_VERSION_CONFLICT => "LEDGER_VERSION_CONFLICT"
  | .LEDGER_CLOSED => "LEDGER_CLOSED"
  | .RESERVATION_CONFLICT => "RESERVATION_CONFLICT"

def reservationStatusText : Budget.AgentBudgetReservationStatus → String
  | .RESERVED => "RESERVED"
  | .COMMITTED => "COMMITTED"
  | .RELEASED => "RELEASED"
  | .UNKNOWN => "UNKNOWN"

/-- `catch (error) { if (!(error instanceof AgentBudgetError)) throw error; … }`. -/
def onBudgetError {α : Type} (p : Act α) (handler : MandatoryReviewTrigger → Act α) : Act α :=
  p.rescue fun
    | .agentBudgetError code message =>
      handler (classifyMandatoryReviewTrigger .BUDGET_OR_DEADLINE_EXHAUSTED
        (budgetCodeText code ++ ": " ++ message))
    | e => .fail e

/-- `[workflowRunId, caseVersion, name, attemptedTools.length].join(':')`. -/
def reservationKey (ctx : RunContext) (name : String) (attempts : Nat) : String :=
  ":".intercalate [ctx.workflowRunId, toString ctx.caseVersion, name, toString attempts]

/-- One step of the run's budget, under the key of `name` at this point of the run. -/
def stepReservation (ctx : RunContext) (st : AgentState) (name : String) :
    Budget.ReserveInput where
  tenantId := ctx.ref.tenantId
  ledgerId := st.budgetLedgerId
  idempotencyKey := reservationKey ctx name st.attemptedTools.length
  expectedVersion := st.budgetLedgerVersion
  units := { stepUnits := .int 1, tokenUnits := .int 0, providerCallUnits := .int 0,
             costMinorUnits := .int 0 }

/-! ## Tools -/

inductive ToolSideEffect where
  | NONE
  | CREATES_ASSESSMENT
  | CASE_MUTATION
  deriving DecidableEq, Repr

/-- A registered tool with its arguments; no tool of this runtime declares token, provider-call
or cost units. -/
structure AgentTool (α : Type) where
  name : String
  sideEffect : ToolSideEffect
  execute : Act α

/-- Never throws: a failure is its message. -/
def invokeTool {α : Type} (execute : Act α) : Act (Except String α) :=
  Act.catch (do return .ok (← execute)) fun e => return .error e.message

inductive BudgetedToolResult (α : Type) where
  | ok (agentState : AgentState) (invocation : Except String α)
  | refused (agentState : AgentState) (trigger : MandatoryReviewTrigger)

/-- A side effect whose reservation was there already is not executed again. -/
def quarantine {α : Type} (ctx : RunContext) (st : AgentState) (toolName : String)
    (reservation : AgentBudgetReservationReceipt) : Act (BudgetedToolResult α) := do
  let st ←
    if reservation.status = .RESERVED then do
      let unknown ← markUnknown ctx.ref.tenantId reservation.reservationId
      pure (applyBudgetSnapshot st unknown.ledger)
    else pure st
  return .refused st (classifyMandatoryReviewTrigger .TOOL_EXECUTION_FAILURE
    (toolName ++ " has a replayed " ++ reservationStatusText reservation.status
      ++ " side-effect reservation requiring reconciliation"))

def invokeBudgetedTool {α : Type} (ctx : RunContext) (st : AgentState) (tool : AgentTool α) :
    Act (BudgetedToolResult α) := do
  match ← budgetExceeded st with
  | some exceeded => return .refused st exceeded
  | none =>
    onBudgetError (do
      let reservation ← reserve (stepReservation ctx st tool.name)
      let reservedState := applyBudgetSnapshot st reservation.ledger
      if reservation.replayed && tool.sideEffect ≠ .NONE then
        quarantine ctx reservedState tool.name reservation
      else
        let invocation ← invokeTool tool.execute
        -- what the tool wrote is committed before its reservation is
        let committed ← commit {
          tenantId := ctx.ref.tenantId
          reservationId := reservation.reservationId
          actualCostMinorUnits := some (.int 0) }
        return .ok (applyBudgetSnapshot reservedState committed.ledger) invocation)
      fun trigger => return .refused st trigger

/-- A step of the runtime itself, charged like a tool and committed at once. -/
def consumeBudgetedRuntimeStep (ctx : RunContext) (st : AgentState) (stepName : String) :
    Act (Except MandatoryReviewTrigger AgentState) := do
  match ← budgetExceeded st with
  | some exceeded => return .error exceeded
  | none =>
    onBudgetError (do
      let reservation ← reserve (stepReservation ctx st ("runtime-" ++ stepName))
      let committed ← commit {
        tenantId := ctx.ref.tenantId
        reservationId := reservation.reservationId }
      return .ok (applyBudgetSnapshot st committed.ledger))
      fun trigger => return .error trigger

def REQUIRED_FACT_TYPES : List EvidenceType := [.INCOME, .CREDIT, .DOCUMENT]

/-- The facts of the case. -/
def Db.factsOf (db : Db) (ref : CaseRef) : List EvidenceFact :=
  db.facts.filter fun f => f.tenantId = ref.tenantId && f.caseId = ref.caseId

/-- `missingFactTypes`; the case is complete when there are none. -/
def checkCaseCompletenessTool (ref : CaseRef) : AgentTool (List EvidenceType) where
  name := "check_case_completeness"
  sideEffect := .NONE
  execute := query fun db =>
    let present := (db.factsOf ref).map (·.factType)
    .ok (REQUIRED_FACT_TYPES.filter fun t => t ∉ present)

def evaluatePolicyTool (args : EvaluatePolicyArgs) : AgentTool EvaluatePolicyResult where
  name := "evaluate_policy"
  sideEffect := .CREATES_ASSESSMENT
  execute := .tx fun i db => (db, i.evaluatePolicy args)

structure CreateConditionArgs where
  code : String
  description : String
  policyVersionId : Uuid
  ruleId : String
  policySnapshotId : Uuid
  expectedCaseVersion : Nat
  evaluationManifestId : Option Uuid

inductive CreateConditionResult where
  | CREATED (conditionId : Uuid)
  | STALE_CASE_VERSION
  deriving DecidableEq

def newCondition (ref : CaseRef) (args : CreateConditionArgs) (i : Input) : LoanCondition where
  id := i.newId
  tenantId := ref.tenantId
  caseId := ref.caseId
  code := args.code
  description := args.description
  status := .OPEN
  policySnapshotId := args.policySnapshotId
  evaluationManifestId := args.evaluationManifestId
  createdAt := i.env.dbNow

/-- The writes of the transaction: the condition, the case's conditional update, two events. -/
def writeCondition (ref : CaseRef) (args : CreateConditionArgs) (i : Input) (db : Db) :
    Except Failure (Db × CreateConditionResult) :=
  let condition := newCondition ref args i
  match db.conditions.insert condition with
  | none => .error (.database .uniqueViolation)
  | some conditions =>
    match { db with conditions }.setCaseStatusAt ref args.expectedCaseVersion .CONDITIONS_OPEN with
    -- the case changed after the check: the insert is rolled back with the transaction
    | none => .error (.staleCaseVersion ref.caseId args.expectedCaseVersion)
    | some db =>
      .ok ((db.writeOutboxEvent ref (.conditionOpened condition.id condition.code
          args.policyVersionId args.ruleId args.policySnapshotId)).writeOutboxEvent ref
            (.workflowRunWaitingForReview condition.id), .CREATED condition.id)

/-- The transaction reads the case without a lock, so its check and its writes are two steps. -/
def createConditionTool (ref : CaseRef) (args : CreateConditionArgs) :
    AgentTool CreateConditionResult where
  name := "create_condition"
  sideEffect := .CASE_MUTATION
  execute := do
    let currentCase ← query fun db => db.findCaseOrFail ref
    if currentCase.version ≠ args.expectedCaseVersion then return .STALE_CASE_VERSION
    else transaction (writeCondition ref args)

def draftInformationRequestTool (args : DraftInformationRequestArgs) : AgentTool Uuid where
  name := "draft_information_request"
  sideEffect := .CASE_MUTATION
  execute := .tx fun i db => (db, i.draft args)

/-! ## The planner -/

/-- The optional model step's configuration. -/
structure AgentPlannerPort where
  tokenBudgetUnits : Int
  minimumConfidenceBasisPoints : Int
  modelVersion : String
  promptVersion : String

structure RuntimeDeps where
  agentPlanner : Option AgentPlannerPort := none
  arith : Policy.FactArithmetic
  /-- `Math.round(confidence * 10_000)` -/
  basisPoints : JsDecimal → Int := fun _ => 0

def Db.findPlannerInvocation (db : Db) (ctx : RunContext) (planner : AgentPlannerPort) :
    Option AgentModelInvocation :=
  db.invocations.find? fun r =>
    r.tenantId = ctx.ref.tenantId && r.workflowRunId = ctx.workflowRunId
      && r.caseVersion = ctx.caseVersion && r.modelVersion = planner.modelVersion
      && r.promptVersion = planner.promptVersion

/-- `/^[0-9a-f]{64}$/.test(s)`. -/
def isSha256Hex (s : String) : Bool :=
  s.toList.length = 64 && s.toList.all fun c => c.isDigit || ('a' ≤ c && c ≤ 'f')

def expectedReason : AgentPlannerAction → AgentPlannerReason
  | .EVALUATE_POLICY => .POLICY_EVALUATION_REQUIRED
  | .REQUEST_HUMAN_REVIEW => .HUMAN_REVIEW_REQUIRED

/-- The confidence, once the result is consistent with what was reserved for it. -/
def assertPlannerResultMatchesReservation (planner : AgentPlannerPort)
    (result : AgentPlannerResult) : Except Failure JsDecimal :=
  let malformed := Failure.agentPlannerError .MALFORMED_OUTPUT
    "local Agent planner returned inconsistent provenance or accounting"
  match result.confidence with
  | none => .error malformed
  | some confidence =>
    if result.modelVersion ≠ planner.modelVersion || result.promptVersion ≠ planner.promptVersion
        || result.accountedTokenUnits ≠ planner.tokenBudgetUnits
        || result.reasonCode ≠ expectedReason result.nextAction
        || !confidence.geInt 0 || !confidence.leInt 1
        || !isSha256Hex result.requestDigest || !isSha256Hex result.responseDigest then
      .error malformed
    else .ok confidence

def newInvocation (deps : RuntimeDeps) (ctx : RunContext) (result : AgentPlannerResult)
    (confidence : JsDecimal) (id : Uuid) : AgentModelInvocation where
  id := id
  tenantId := ctx.ref.tenantId
  caseId := ctx.ref.caseId
  caseVersion := ctx.caseVersion
  workflowRunId := ctx.workflowRunId
  modelVersion := result.modelVersion
  promptVersion := result.promptVersion
  nextAction := result.nextAction
  reasonCode := result.reasonCode
  confidenceBasisPoints := deps.basisPoints confidence
  accountedTokenUnits := result.accountedTokenUnits
  requestDigest := result.requestDigest
  responseDigest := result.responseDigest

/-- The table's CHECK constraints and its unique index. -/
def insertInvocation (db : Db) (r : AgentModelInvocation) :
    Except Failure (Db × AgentModelInvocation) :=
  if !(0 ≤ r.confidenceBasisPoints && r.confidenceBasisPoints ≤ 10000
      && 0 < r.accountedTokenUnits && r.reasonCode = expectedReason r.nextAction) then
    .error (.database .checkViolation)
  else if db.invocations.any fun x => x.tenantId = r.tenantId && x.workflowRunId = r.workflowRunId
      && x.caseVersion = r.caseVersion && x.modelVersion = r.modelVersion
      && x.promptVersion = r.promptVersion then
    .error (.database .uniqueViolation)
  else .ok ({ db with invocations := db.invocations ++ [r] }, r)

def persistPlannerInvocation (deps : RuntimeDeps) (ctx : RunContext) (planner : AgentPlannerPort)
    (result : AgentPlannerResult) (confidence : JsDecimal) : Act AgentModelInvocation :=
  (transaction fun i db => insertInvocation db (newInvocation deps ctx result confidence i.newId)).rescue
    fun
    | .database .uniqueViolation => do
      match ← query fun db => .ok (db.findPlannerInvocation ctx planner) with
      | some winner => return winner
      | none => .fail (.database .uniqueViolation)
    | e => .fail e

/-- The recorded answer, or the model's answer once it is recorded. -/
def plannerRecord (deps : RuntimeDeps) (ctx : RunContext) (planner : AgentPlannerPort)
    (record : Option AgentModelInvocation) : Act AgentModelInvocation :=
  match record with
  | some record => return record
  | none => do
    let result ← .tx fun i db => (db, i.plan)
    let confidence ← .ofExcept (assertPlannerResultMatchesReservation planner result)
    persistPlannerInvocation deps ctx planner result confidence

def plannerReservation (ctx : RunContext) (st : AgentState) (planner : AgentPlannerPort) :
    Budget.ReserveInput where
  tenantId := ctx.ref.tenantId
  ledgerId := st.budgetLedgerId
  idempotencyKey := ":".intercalate [ctx.workflowRunId, toString ctx.caseVersion, "agent-planner",
    planner.modelVersion, planner.promptVersion]
  expectedVersion := st.budgetLedgerVersion
  units := { stepUnits := .int 1, tokenUnits := .int planner.tokenBudgetUnits,
             providerCallUnits := .int 0, costMinorUnits := .int 0 }

def actionText : AgentPlannerAction → String
  | .EVALUATE_POLICY => "EVALUATE_POLICY"
  | .REQUEST_HUMAN_REVIEW => "REQUEST_HUMAN_REVIEW"

def reasonText : AgentPlannerReason → String
  | .POLICY_EVALUATION_REQUIRED => "POLICY_EVALUATION_REQUIRED"
  | .HUMAN_REVIEW_REQUIRED => "HUMAN_REVIEW_REQUIRED"

def plannerErrorText : Failure → String
  | .agentPlannerError .UNAVAILABLE _ => "UNAVAILABLE"
  | .agentPlannerError .TIMEOUT _ => "TIMEOUT"
  | .agentPlannerError .PROVIDER_ERROR _ => "PROVIDER_ERROR"
  | .agentPlannerError .MALFORMED_OUTPUT _ => "MALFORMED_OUTPUT"
  | _ => "PLANNER_RUNTIME_FAILURE"

def plannerErrorCategory : Failure → MandatoryReviewCategory
  | .agentPlannerError .MALFORMED_OUTPUT _ => .MODEL_OUTPUT_INVALID
  | _ => .TOOL_EXECUTION_FAILURE

/-- The state after the planner's answer, or the review it asks for. -/
def plannedState (planner : AgentPlannerPort) (st : AgentState) (record : AgentModelInvocation) :
    Except NodeEnd AgentState :=
  let planned := recordAttempt st "agent_planner" true
    (some (actionText record.nextAction ++ ":" ++ reasonText record.reasonCode))
  let withManifest := { planned with
    modelVersion := some record.modelVersion
    promptVersion := some record.promptVersion
    modelAndPromptManifestId := some record.id }
  if record.nextAction = .REQUEST_HUMAN_REVIEW then
    .error (.review withManifest (classifyMandatoryReviewTrigger .MODEL_UNCERTAINTY
      ("bounded planner requested review (" ++ reasonText record.reasonCode ++ ")")))
  else if record.confidenceBasisPoints < planner.minimumConfidenceBasisPoints then
    .error (.review withManifest (classifyMandatoryReviewTrigger .MODEL_UNCERTAINTY
      ("bounded planner confidence " ++ toString record.confidenceBasisPoints ++ "bp is below "
        ++ toString planner.minimumConfidenceBasisPoints ++ "bp")))
  else .ok withManifest

/-- The planner's failure releases what was reserved for it. -/
def plannerFailed (ctx : RunContext) (st : AgentState)
    (reservation : AgentBudgetReservationReceipt) (error : Failure) :
    Act (Except NodeEnd AgentState) := do
  if reservation.status = .RESERVED then
    let _ ← release ctx.ref.tenantId reservation.reservationId
  let code := plannerErrorText error
  return .error (.review (recordAttempt st "agent_planner" false (some code))
    (classifyMandatoryReviewTrigger (plannerErrorCategory error)
      ("bounded planner failed (" ++ code ++ ")")))

/-! ## The nodes -/

def verifyConsentNode (ctx : RunContext) (st : AgentState) : Except NodeEnd AgentState :=
  if ctx.consentStatus ≠ .VALID then
    .error (.review st (classifyMandatoryReviewTrigger .CONSENT_INVALID
      ("consentStatus is \"" ++ ctx.consentStatus.text ++ "\", not VALID")))
  else .ok st

def toolFailure (st : AgentState) (detail : String) : NodeEnd :=
  .review st (classifyMandatoryReviewTrigger .TOOL_EXECUTION_FAILURE detail)

/-- The error of an attempt, when it failed. -/
def attemptError {α : Type} : Except String α → Option String
  | .ok _ => none
  | .error e => some e

/-- `recordAttempt` of an invocation. -/
def recordInvocation {α : Type} (st : AgentState) (toolName : String)
    (invocation : Except String α) : AgentState :=
  recordAttempt st toolName (attemptError invocation).isNone (attemptError invocation)

def checkCompletenessNode (ctx : RunContext) (st : AgentState) :
    Act (Except NodeEnd AgentState) := do
  match ← invokeBudgetedTool ctx st (checkCaseCompletenessTool ctx.ref) with
  | .refused st trigger => return .error (.review st trigger)
  | .ok st invocation =>
    let next := recordInvocation st "check_case_completeness" invocation
    match invocation with
    | .error e => return .error (toolFailure next ("check_case_completeness unavailable: " ++ e))
    | .ok [] => return .ok next
    | .ok _ => return .error (.awaitingInformation next)

def reservePlanner (ctx : RunContext) (st : AgentState) (planner : AgentPlannerPort) :
    Act (Except NodeEnd AgentBudgetReservationReceipt) :=
  onBudgetError (do return .ok (← reserve (plannerReservation ctx st planner)))
    fun trigger => return .error (.review st trigger)

def planNextActionNode (deps : RuntimeDeps) (ctx : RunContext) (st : AgentState) :
    Act (Except NodeEnd AgentState) :=
  match deps.agentPlanner with
  | none => return .ok st
  | some planner => do
    match ← reservePlanner ctx st planner with
    | .error reached => return .error reached
    | .ok reservation =>
      let record ← query fun db => .ok (db.findPlannerInvocation ctx planner)
      Act.catch (do
        let record ← plannerRecord deps ctx planner record
        let committed ←
          if reservation.status = .COMMITTED then pure reservation
          else commit { tenantId := ctx.ref.tenantId, reservationId := reservation.reservationId }
        return plannedState planner (applyBudgetSnapshot st committed.ledger) record)
        (plannerFailed ctx st reservation)

def UNDERWRITING_REVIEW_LIFECYCLE_EVENT : String := "UNDERWRITING_REVIEW"

def evaluatePolicyArgs (loanCase : LoanCase) : EvaluatePolicyArgs where
  jurisdictionCode := loanCase.jurisdictionCode
  productCode := loanTypeToProductCode loanCase.loanType
  lifecycleEvent := UNDERWRITING_REVIEW_LIFECYCLE_EVENT
  applicationReceivedAt := loanCase.createdAt

def policyReviewReason (result : EvaluatePolicyResult) : String :=
  let reasons := "; ".intercalate result.unresolvedReasons
  if reasons = "" then "policy review required" else reasons

def evaluatePolicyNode (ctx : RunContext) (st : AgentState) :
    Act (Except NodeEnd (AgentState × EvaluatePolicyResult)) := do
  match ← budgetExceeded st with
  | some exceeded => return .error (.review st exceeded)
  | none =>
    let loanCase ← query fun db => db.findCaseOrFail ctx.ref
    match ← invokeBudgetedTool ctx st (evaluatePolicyTool (evaluatePolicyArgs loanCase)) with
    | .refused st trigger => return .error (.review st trigger)
    | .ok st invocation =>
      let next := recordInvocation st "evaluate_policy" invocation
      match invocation with
      | .error e => return .error (toolFailure next ("evaluate_policy unavailable: " ++ e))
      | .ok result =>
        if result.status = .REVIEW_REQUIRED then
          return .error (.review next
            (classifyMandatoryReviewTrigger .POLICY_AMBIGUITY (policyReviewReason result)))
        else return .ok ({ next with policyBindingId := result.policyBindingId }, result)

/-- `evaluationManifestService.assemble`: the id of the stored manifest. -/
def assembleManifest (ctx : RunContext) (st : AgentState) (evaluation : EvaluatePolicyResult)
    (evidence : List EvidenceFact) : Act Uuid :=
  transaction fun i db =>
    let manifest : EvaluationInputManifest := {
      id := i.newId
      tenantId := ctx.ref.tenantId
      caseId := ctx.ref.caseId
      caseVersion := ctx.caseVersion
      evidenceIds := evidence.map (·.id)
      policyBindingId := st.policyBindingId
      observedPolicyDependencyDigest := evaluation.observedPolicyDependencyDigest
      evaluatorVersion := Policy.resolverVersion
      modelAndPromptManifestId := st.modelAndPromptManifestId }
    .ok ({ db with manifests := db.manifests ++ [manifest] }, manifest.id)

/-- The newest fact of a list, the first of several equally new ones. -/
def newestFact : List EvidenceFact → Option EvidenceFact
  | [] => none
  | f :: rest =>
    match newestFact rest with
    | some g => if f.observedAt < g.observedAt then some g else some f
    | none => some f

def Db.latestIncomeFact (db : Db) (ref : CaseRef) : Option EvidenceFact :=
  newestFact ((db.factsOf ref).filter fun f => f.factType = .INCOME)

def factContext (loanCase : LoanCase) (latestIncomeFact : Option EvidenceFact) :
    Policy.PolicyFactContext where
  application := [("monthly_income", .num loanCase.statedMonthlyIncome)]
  evidence :=
    match latestIncomeFact with
    | some { value := .obj fields, .. } =>
      (Policy.field fields "monthlyIncome").toList.map fun v => ("verified_monthly_income", v)
    | _ => []

/-- The first version whose rule matches the facts, with the reason. -/
def firstMatch (arith : Policy.FactArithmetic) (context : Policy.PolicyFactContext)
    (versions : List MatchedVersion) : Option (MatchedVersion × String) :=
  (versions.map fun version => (version, Policy.evaluatePolicyRule arith version.rule context)).find?
    (fun p => p.2.matched) |>.map fun p => (p.1, p.2.reason)

/-- After the condition was opened: the remediation draft, and the proposed action. -/
def draftForCondition (ctx : RunContext) (st : AgentState) (version : MatchedVersion)
    (reason : String) (conditionId : Uuid) : Act AgentRunResult := do
  match ← invokeBudgetedTool ctx st (draftInformationRequestTool {
      freeformContent := some ("A condition on your loan application requires attention: "
        ++ version.rule.outcome.condition ++ ". " ++ reason) }) with
  | .refused st trigger => return .ended (.review st trigger)
  | .ok st invocation =>
    let next := recordInvocation st "draft_information_request" invocation
    match invocation with
    | .error e => return .ended (toolFailure next ("draft_information_request failed: " ++ e))
    | .ok communicationMessageId =>
      return .proposedAction next
        (some { conditionId, code := version.rule.outcome.condition, communicationMessageId })

/-- Opens the condition of the matched version. -/
def openCondition (ctx : RunContext) (st : AgentState) (evaluation : EvaluatePolicyResult)
    (version : MatchedVersion) (reason : String) (manifestId : Uuid) : Act AgentRunResult := do
  match ← invokeBudgetedTool ctx st (createConditionTool ctx.ref {
      code := version.rule.outcome.condition
      description := reason
      policyVersionId := version.policyVersionId
      ruleId := version.ruleId
      policySnapshotId := evaluation.policySnapshotId
      expectedCaseVersion := ctx.caseVersion
      evaluationManifestId := some manifestId }) with
  | .refused st trigger => return .ended (.review st trigger)
  | .ok st invocation =>
    let next := recordInvocation st "create_condition" invocation
    match invocation with
    | .error e => return .ended (toolFailure next ("create_condition failed: " ++ e))
    -- not a failure of the tool: the exception leaves the graph, and the activity is retried
    | .ok .STALE_CASE_VERSION => .fail (.staleCaseVersion ctx.ref.caseId ctx.caseVersion)
    | .ok (.CREATED conditionId) => draftForCondition ctx next version reason conditionId

def resolveOutcomeNode (deps : RuntimeDeps) (ctx : RunContext) (st : AgentState)
    (evaluation : EvaluatePolicyResult) : Act AgentRunResult := do
  match ← consumeBudgetedRuntimeStep ctx st "resolve-outcome" with
  | .error trigger => return .ended (.review st trigger)
  | .ok stepped =>
    match evaluation.matchedVersions with
    | [] =>
      let _ ← assembleManifest ctx st evaluation []
      return .proposedAction stepped none
    | versions =>
      let (loanCase, latestIncomeFact) ← query fun db => do
        return (← db.findCaseOrFail ctx.ref, db.latestIncomeFact ctx.ref)
      let manifestId ← assembleManifest ctx st evaluation latestIncomeFact.toList
      match firstMatch deps.arith (factContext loanCase latestIncomeFact) versions with
      | none => return .proposedAction stepped none
      | some (version, reason) => openCondition ctx stepped evaluation version reason manifestId

/-! ## The run -/

/-- A conditional edge: to the end once a route is set, to the next node otherwise. -/
def edge {α : Type} (node : Act (Except NodeEnd α)) (next : α → Act AgentRunResult) :
    Act AgentRunResult := do
  match ← node with
  | .error reached => return .ended reached
  | .ok a => next a

def graph (deps : RuntimeDeps) (ctx : RunContext) (st : AgentState) : Act AgentRunResult :=
  edge (pure (verifyConsentNode ctx st)) fun st =>
  edge (checkCompletenessNode ctx st) fun st =>
  edge (planNextActionNode deps ctx st) fun st =>
  edge (evaluatePolicyNode ctx st) fun (st, evaluation) =>
  resolveOutcomeNode deps ctx st evaluation

def persistAgentRun (ctx : RunContext) (result : AgentRunResult) : Act Unit :=
  transaction fun _ db =>
    let agentRun : AgentRun := {
      tenantId := ctx.ref.tenantId
      caseId := ctx.ref.caseId
      workflowRunId := ctx.workflowRunId
      route := result.route
      conditionId := result.action.map (·.conditionId)
      reviewReason := result.trigger.map (·.reason)
      reviewCategory := result.trigger.map (·.category)
      modelInvocationId := result.finalState.modelAndPromptManifestId
      attempts := result.finalState.attemptedTools }
    .ok ({ db with agentRuns := db.agentRuns ++ [agentRun] }, ())

structure AgentRunBudget where
  stepBudget : Int
  durationBudgetMs : Int
  tokenBudget : Int

def ledgerInput (ctx : RunContext) (budget : AgentRunBudget) (startedAt : Instant) :
    Budget.AgentBudgetLedgerInput where
  tenantId := ctx.ref.tenantId
  caseId := ctx.ref.caseId
  workflowRunId := ctx.workflowRunId
  stepLimit := .int budget.stepBudget
  tokenLimit := .int budget.tokenBudget
  providerCallLimit := .int 0
  costLimitMinorUnits := .int 0
  currency := "USD"
  startedAt := startedAt
  deadlineAt := startedAt + budget.durationBudgetMs

/-- The state the graph starts from: every budget field is the ledger's. -/
def initialAgentState (snapshot : AgentBudgetSnapshot) : AgentState where
  remainingStepBudget := snapshot.remainingSteps
  remainingDurationBudgetMs := snapshot.remainingDurationMs
  remainingTokenBudget := snapshot.remainingTokens
  remainingProviderCallBudget := snapshot.remainingProviderCalls
  remainingCostBudgetMinorUnits := snapshot.remainingCostMinorUnits
  budgetCurrency := snapshot.currency
  budgetLedgerId := snapshot.ledgerId
  budgetLedgerVersion := snapshot.version
  runStartedAt := snapshot.startedAt
  runDeadlineAt := snapshot.deadlineAt

/-- `AgentRuntimePort.run`. -/
def runAgent (deps : RuntimeDeps) (ctx : RunContext) (budget : AgentRunBudget)
    (startedAt : Instant) : Act AgentRunResult := do
  let initialBudget ← createOrLoad (ledgerInput ctx budget startedAt)
  let result ← graph deps ctx (initialAgentState initialBudget)
  persistAgentRun ctx result
  return result

end MortgageAgent.Workflow
