import MortgageAgent.Lib.Noted
import MortgageAgent.Workflow.Runtime

/-!
# The runtime with notes

Whether a tool was called cannot be read off the store. `notedRunAgent` is the agent runtime with
two ghost statements: where the code calls a side-effecting tool, and where it has found that the
tool's reservation was there already. `notedRunAgent_erase` says that without them it is the
runtime.
-/

namespace MortgageAgent.Workflow

open Budget (AgentBudgetReservationReceipt)

/-- The places of the runtime's code that are noted. -/
inductive ToolNote where
  /-- a side-effecting tool is executed, under this reservation key -/
  | executed (tool key : String)
  /-- the reservation of a side-effecting tool was there already -/
  | found (tool key : String)
  deriving DecidableEq

/-- The runtime's code, with notes. -/
abbrev NotedAct := Noted ToolNote Input Db Failure

def noteExecuted {α β : Type} (tool : AgentTool α) (key : String) (p : NotedAct β) : NotedAct β :=
  if tool.sideEffect = .NONE then p else .note (.executed tool.name key) p

def notedOnBudgetError {α : Type} (p : NotedAct α) (handler : MandatoryReviewTrigger → Act α) :
    NotedAct α :=
  p.rescue fun
    | .agentBudgetError code message =>
      .plain (handler (classifyMandatoryReviewTrigger .BUDGET_OR_DEADLINE_EXHAUSTED
        (budgetCodeText code ++ ": " ++ message)))
    | e => .fail e

/-- What a budgeted tool does once its reservation has answered. -/
def notedReserved {α : Type} (ctx : RunContext) (st : AgentState) (tool : AgentTool α)
    (reservation : AgentBudgetReservationReceipt) : NotedAct (BudgetedToolResult α) :=
  let reservedState := applyBudgetSnapshot st reservation.ledger
  let key := reservationKey ctx tool.name st.attemptedTools.length
  if reservation.replayed && tool.sideEffect ≠ .NONE then
    .note (.found tool.name key) (.plain (quarantine ctx reservedState tool.name reservation))
  else
    (noteExecuted tool key (.plain (invokeTool tool.execute))).bind fun invocation => .plain do
      let committed ← commit {
        tenantId := ctx.ref.tenantId
        reservationId := reservation.reservationId
        actualCostMinorUnits := some (.int 0) }
      return .ok (applyBudgetSnapshot reservedState committed.ledger) invocation

def notedBudgetedTool {α : Type} (ctx : RunContext) (st : AgentState) (tool : AgentTool α) :
    NotedAct (BudgetedToolResult α) :=
  (Noted.plain (budgetExceeded st)).bind fun
    | some exceeded => .done (.refused st exceeded)
    | none =>
      notedOnBudgetError
        ((Noted.plain (reserve (stepReservation ctx st tool.name))).bind
          (notedReserved ctx st tool))
        fun trigger => return .refused st trigger

def notedCheckCompletenessNode (ctx : RunContext) (st : AgentState) :
    NotedAct (Except NodeEnd AgentState) :=
  (notedBudgetedTool ctx st (checkCaseCompletenessTool ctx.ref)).bind fun
    | .refused st trigger => .done (.error (.review st trigger))
    | .ok st invocation =>
      let next := recordInvocation st "check_case_completeness" invocation
      match invocation with
      | .error e => .done (.error (toolFailure next ("check_case_completeness unavailable: " ++ e)))
      | .ok [] => .done (.ok next)
      | .ok _ => .done (.error (.awaitingInformation next))

def notedEvaluatePolicyNode (ctx : RunContext) (st : AgentState) :
    NotedAct (Except NodeEnd (AgentState × EvaluatePolicyResult)) :=
  (Noted.plain (budgetExceeded st)).bind fun
    | some exceeded => .done (.error (.review st exceeded))
    | none =>
      (Noted.plain (query fun db => db.findCaseOrFail ctx.ref)).bind fun loanCase =>
      (notedBudgetedTool ctx st (evaluatePolicyTool (evaluatePolicyArgs loanCase))).bind fun
        | .refused st trigger => .done (.error (.review st trigger))
        | .ok st invocation =>
          let next := recordInvocation st "evaluate_policy" invocation
          match invocation with
          | .error e => .done (.error (toolFailure next ("evaluate_policy unavailable: " ++ e)))
          | .ok result =>
            if result.status = .REVIEW_REQUIRED then
              .done (.error (.review next
                (classifyMandatoryReviewTrigger .POLICY_AMBIGUITY (policyReviewReason result))))
            else .done (.ok ({ next with policyBindingId := result.policyBindingId }, result))

def notedDraftForCondition (ctx : RunContext) (st : AgentState) (version : MatchedVersion)
    (reason : String) (conditionId : Uuid) : NotedAct AgentRunResult :=
  (notedBudgetedTool ctx st (draftInformationRequestTool {
      freeformContent := some ("A condition on your loan application requires attention: "
        ++ version.rule.outcome.condition ++ ". " ++ reason) })).bind fun
    | .refused st trigger => .done (.ended (.review st trigger))
    | .ok st invocation =>
      let next := recordInvocation st "draft_information_request" invocation
      match invocation with
      | .error e => .done (.ended (toolFailure next ("draft_information_request failed: " ++ e)))
      | .ok communicationMessageId =>
        .done (.proposedAction next
          (some { conditionId, code := version.rule.outcome.condition, communicationMessageId }))

def notedOpenCondition (ctx : RunContext) (st : AgentState) (evaluation : EvaluatePolicyResult)
    (version : MatchedVersion) (reason : String) (manifestId : Uuid) : NotedAct AgentRunResult :=
  (notedBudgetedTool ctx st (createConditionTool ctx.ref {
      code := version.rule.outcome.condition
      description := reason
      policyVersionId := version.policyVersionId
      ruleId := version.ruleId
      policySnapshotId := evaluation.policySnapshotId
      expectedCaseVersion := ctx.caseVersion
      evaluationManifestId := some manifestId })).bind fun
    | .refused st trigger => .done (.ended (.review st trigger))
    | .ok st invocation =>
      let next := recordInvocation st "create_condition" invocation
      match invocation with
      | .error e => .done (.ended (toolFailure next ("create_condition failed: " ++ e)))
      | .ok .STALE_CASE_VERSION => .fail (.staleCaseVersion ctx.ref.caseId ctx.caseVersion)
      | .ok (.CREATED conditionId) => notedDraftForCondition ctx next version reason conditionId

def notedResolveOutcomeNode (deps : RuntimeDeps) (ctx : RunContext) (st : AgentState)
    (evaluation : EvaluatePolicyResult) : NotedAct AgentRunResult :=
  (Noted.plain (consumeBudgetedRuntimeStep ctx st "resolve-outcome")).bind fun
    | .error trigger => .done (.ended (.review st trigger))
    | .ok stepped =>
      match evaluation.matchedVersions with
      | [] =>
        (Noted.plain (assembleManifest ctx st evaluation [])).bind fun _ =>
        .done (.proposedAction stepped none)
      | versions =>
        (Noted.plain (query fun db => do
          return (← db.findCaseOrFail ctx.ref, db.latestIncomeFact ctx.ref))).bind
            fun (loanCase, latestIncomeFact) =>
        (Noted.plain (assembleManifest ctx st evaluation latestIncomeFact.toList)).bind
          fun manifestId =>
        match firstMatch deps.arith (factContext loanCase latestIncomeFact) versions with
        | none => .done (.proposedAction stepped none)
        | some (version, reason) =>
          notedOpenCondition ctx stepped evaluation version reason manifestId

def notedEdge {α : Type} (node : NotedAct (Except NodeEnd α)) (next : α → NotedAct AgentRunResult) :
    NotedAct AgentRunResult :=
  node.bind fun
    | .error reached => .done (.ended reached)
    | .ok a => next a

def notedGraph (deps : RuntimeDeps) (ctx : RunContext) (st : AgentState) :
    NotedAct AgentRunResult :=
  notedEdge (.done (verifyConsentNode ctx st)) fun st =>
  notedEdge (notedCheckCompletenessNode ctx st) fun st =>
  notedEdge (.plain (planNextActionNode deps ctx st)) fun st =>
  notedEdge (notedEvaluatePolicyNode ctx st) fun (st, evaluation) =>
  notedResolveOutcomeNode deps ctx st evaluation

def notedRunAgent (deps : RuntimeDeps) (ctx : RunContext) (budget : AgentRunBudget)
    (startedAt : Instant) : NotedAct AgentRunResult :=
  (Noted.plain (createOrLoad (ledgerInput ctx budget startedAt))).bind fun initialBudget =>
  (notedGraph deps ctx (initialAgentState initialBudget)).bind fun result =>
  (Noted.plain (persistAgentRun ctx result)).bind fun _ =>
  .done result

/-! ## Under the notes it is the runtime -/

section Erase

theorem noteExecuted_erase {α β : Type} (tool : AgentTool α) (key : String) (p : NotedAct β) :
    (noteExecuted tool key p).erase = p.erase := by
  unfold noteExecuted
  split <;> rfl

theorem notedReserved_erase {α : Type} (ctx : RunContext) (st : AgentState) (tool : AgentTool α)
    (reservation : AgentBudgetReservationReceipt) :
    (notedReserved ctx st tool reservation).erase =
      if reservation.replayed && tool.sideEffect ≠ .NONE then
        quarantine ctx (applyBudgetSnapshot st reservation.ledger) tool.name reservation
      else do
        let invocation ← invokeTool tool.execute
        let committed ← commit {
          tenantId := ctx.ref.tenantId
          reservationId := reservation.reservationId
          actualCostMinorUnits := some (.int 0) }
        return .ok (applyBudgetSnapshot (applyBudgetSnapshot st reservation.ledger)
          committed.ledger) invocation := by
  unfold notedReserved
  dsimp only
  split
  · rw [Noted.erase_note, Noted.erase_plain]
  · apply Noted.erase_bind_eq
    · rw [noteExecuted_erase, Noted.erase_plain]
    · intro invocation
      exact Noted.erase_plain _

theorem notedBudgetedTool_erase {α : Type} (ctx : RunContext) (st : AgentState)
    (tool : AgentTool α) :
    (notedBudgetedTool ctx st tool).erase = invokeBudgetedTool ctx st tool := by
  apply Noted.erase_bind_eq (Noted.erase_plain _)
  intro exceeded
  cases exceeded with
  | some trigger => rfl
  | none =>
    have hbody : ((Noted.plain (reserve (stepReservation ctx st tool.name))).bind
        (notedReserved ctx st tool)).erase = _ :=
      Noted.erase_bind_eq (Noted.erase_plain _) (notedReserved_erase ctx st tool)
    show (Noted.rescue _ _).erase = Proc.rescue _ _
    rw [Noted.erase_rescue, hbody]
    congr 1
    funext e
    cases e with
    | agentBudgetError code message => exact Noted.erase_plain _
    | _ => rfl

theorem notedCheckCompletenessNode_erase (ctx : RunContext) (st : AgentState) :
    (notedCheckCompletenessNode ctx st).erase = checkCompletenessNode ctx st := by
  apply Noted.erase_bind_eq (notedBudgetedTool_erase ctx st _)
  intro r
  cases r with
  | refused st trigger => rfl
  | ok st invocation =>
    cases invocation with
    | error e => rfl
    | ok missing => cases missing <;> rfl

theorem notedEvaluatePolicyNode_erase (ctx : RunContext) (st : AgentState) :
    (notedEvaluatePolicyNode ctx st).erase = evaluatePolicyNode ctx st := by
  apply Noted.erase_bind_eq (Noted.erase_plain _)
  intro exceeded
  cases exceeded with
  | some trigger => rfl
  | none =>
    apply Noted.erase_bind_eq (Noted.erase_plain _)
    intro loanCase
    apply Noted.erase_bind_eq (notedBudgetedTool_erase ctx st _)
    intro r
    cases r with
    | refused st trigger => rfl
    | ok st invocation =>
      cases invocation with
      | error e => rfl
      | ok result =>
        dsimp only
        split <;> rfl

theorem notedDraftForCondition_erase (ctx : RunContext) (st : AgentState) (version : MatchedVersion)
    (reason : String) (conditionId : Uuid) :
    (notedDraftForCondition ctx st version reason conditionId).erase
      = draftForCondition ctx st version reason conditionId := by
  apply Noted.erase_bind_eq (notedBudgetedTool_erase ctx st _)
  intro r
  cases r with
  | refused st trigger => rfl
  | ok st invocation => cases invocation <;> rfl

theorem notedOpenCondition_erase (ctx : RunContext) (st : AgentState)
    (evaluation : EvaluatePolicyResult) (version : MatchedVersion) (reason : String)
    (manifestId : Uuid) :
    (notedOpenCondition ctx st evaluation version reason manifestId).erase
      = openCondition ctx st evaluation version reason manifestId := by
  apply Noted.erase_bind_eq (notedBudgetedTool_erase ctx st _)
  intro r
  cases r with
  | refused st trigger => rfl
  | ok st invocation =>
    cases invocation with
    | error e => rfl
    | ok result =>
      cases result with
      | STALE_CASE_VERSION => rfl
      | CREATED id => exact notedDraftForCondition_erase ctx _ version reason id

theorem notedResolveOutcomeNode_erase (deps : RuntimeDeps) (ctx : RunContext) (st : AgentState)
    (evaluation : EvaluatePolicyResult) :
    (notedResolveOutcomeNode deps ctx st evaluation).erase
      = resolveOutcomeNode deps ctx st evaluation := by
  apply Noted.erase_bind_eq (Noted.erase_plain _)
  intro stepped
  cases stepped with
  | error trigger => rfl
  | ok stepped =>
    dsimp only
    cases evaluation.matchedVersions with
    | nil => exact Noted.erase_bind_eq (Noted.erase_plain _) fun _ => rfl
    | cons version versions =>
      apply Noted.erase_bind_eq (Noted.erase_plain _)
      intro facts
      apply Noted.erase_bind_eq (Noted.erase_plain _)
      intro manifestId
      cases firstMatch deps.arith (factContext facts.1 facts.2) (version :: versions) with
      | none => rfl
      | some found => exact notedOpenCondition_erase ..

theorem notedEdge_erase {α : Type} {node : NotedAct (Except NodeEnd α)}
    {next : α → NotedAct AgentRunResult} {node' : Act (Except NodeEnd α)}
    {next' : α → Act AgentRunResult} (hnode : node.erase = node')
    (hnext : ∀ a, (next a).erase = next' a) :
    (notedEdge node next).erase = edge node' next' := by
  apply Noted.erase_bind_eq hnode
  intro r
  cases r with
  | error reached => rfl
  | ok a => exact hnext a

/-- **The notes change nothing**: under them is the runtime. -/
theorem notedRunAgent_erase (deps : RuntimeDeps) (ctx : RunContext) (budget : AgentRunBudget)
    (startedAt : Instant) :
    (notedRunAgent deps ctx budget startedAt).erase = runAgent deps ctx budget startedAt := by
  apply Noted.erase_bind_eq (Noted.erase_plain _)
  intro initialBudget
  apply Noted.erase_bind_eq
  · apply notedEdge_erase rfl
    intro st
    apply notedEdge_erase (notedCheckCompletenessNode_erase ctx st)
    intro st
    apply notedEdge_erase (Noted.erase_plain _)
    intro st
    apply notedEdge_erase (notedEvaluatePolicyNode_erase ctx st)
    intro r
    exact notedResolveOutcomeNode_erase deps ctx r.1 r.2
  · intro result
    exact Noted.erase_bind_eq (Noted.erase_plain _) fun _ => rfl

end Erase

end MortgageAgent.Workflow
