import MortgageAgent.Workflow.InTime
import MortgageAgent.Workflow.Readiness

/-!
# The deadline of an interrupted run

An evaluation that meets an ambiguity is interrupted, and the workflow waits for a reviewer as long
as it takes. The evaluation it then starts again computes a new deadline, but runs under the budget
ledger of the workflow run, which was made for the first evaluation: the wait counts against the
first deadline.

* **`InTimeStep`** — an evaluation reads its clocks before the deadline of its run's ledger.
* **`ReviewsInTime`** — the evaluation a step ends is not sent to review on account of it.
* **`reviews_in_time`** — every step of every history in time.
* **`late_resume_reviewed`** — a reviewer answers after two minutes.
-/

namespace MortgageAgent.Workflow

open Runs
open Proc (OnReturn onReturn_bind)

/-! ## The activities -/

section Activities

variable {ref : CaseRef} {s : Db}

/-- A transaction that does not look at the budget. -/
theorem transaction_keepsBudget {α : Type} {t : Input → Db → Except Failure (Db × α)}
    (h : ∀ i db db' a, t i db = .ok (db', a) → db'.budget = db.budget) :
    (transaction t).Keeps BudgetGrows :=
  transaction_keeps fun i db db' a ht => budgetGrows_of_eq (h i db db' a ht)

theorem markCase_keepsBudget (status : CaseStatus) (payload : OutboxPayload) :
    (markCase ref status payload).Keeps BudgetGrows := by
  apply transaction_keepsBudget
  intro i db db' a h
  cases h
  exact setCaseStatus_budget ref status db

theorem prepareWorkflowRecovery_keepsBudget (recoveryOfRunId : String) :
    (prepareWorkflowRecovery ref recoveryOfRunId).Keeps BudgetGrows := by
  apply transaction_keepsBudget
  intro i db db' a h
  dsimp only at h
  split at h
  · cases h
    rfl
  · cases h
    exact setCaseStatus_budget ref _ _
  · cases h
    rfl

theorem markWorkflowCancelled_keepsBudget : (markWorkflowCancelled ref).Keeps BudgetGrows := by
  apply (query_keeps _).bind
  intro loanCase
  apply transaction_keepsBudget
  intro i db db' a h
  dsimp only at h
  cases h
  split
  · exact setCaseStatus_budget ref _ db
  · rfl

theorem resolveCondition_keepsBudget (conditionId : Uuid) (p : ResolveConditionSignalPayload) :
    (resolveCondition ref conditionId p).Keeps BudgetGrows := by
  apply transaction_keepsBudget
  intro i db db' a h
  dsimp only at h
  split at h
  · cases h
  · cases h
    rfl

/-- No activity takes a row of the budget away. -/
theorem activity_keepsBudget {deps : RuntimeDeps} {runId : String} {point : Point} {p : Act Next}
    (h : activityAt deps ref runId point = some p) : p.Keeps BudgetGrows := by
  cases point with
  | prepareWorkflowRecovery recoveryOfRunId =>
    cases h
    exact (prepareWorkflowRecovery_keepsBudget recoveryOfRunId).bind fun _ => Proc.keeps_done _
  | markCollectingEvidence =>
    cases h
    exact (markCase_keepsBudget _ _).bind fun _ => Proc.keeps_done _
  | fetchEvidence pending => cases h
  | evaluateConditions =>
    cases h
    exact (evaluateConditions_keeps deps ref runId).bind fun _ => Proc.keeps_done _
  | markWaitingForReview reason =>
    cases h
    exact (markCase_keepsBudget _ _).bind fun _ => Proc.keeps_done _
  | awaitResume => cases h
  | markManualReview reason =>
    cases h
    exact (markCase_keepsBudget _ _).bind fun _ => Proc.keeps_done _
  | awaitResolution conditionId => cases h
  | resolveCondition conditionId resolution =>
    cases h
    exact (resolveCondition_keepsBudget conditionId resolution).bind fun _ => Proc.keeps_done _
  | markReadyForUnderwriting =>
    cases h
    apply Proc.Keeps.bind _ fun _ => Proc.keeps_done _
    exact (finalizeReady_keeps ref none).bind fun _ => sendReadyForUnderwritingNotification_keeps
  | markWorkflowCancelled =>
    cases h
    exact markWorkflowCancelled_keepsBudget.bind fun _ => Proc.keeps_done _

/-- The reason the code goes to manual review with. -/
def Point.reviewReason : Point → Option String
  | .markManualReview reason => some reason
  | _ => none

/-- Not to manual review on account of the deadline. -/
def Point.ReviewsInTime (point : Point) : Prop :=
  ∀ reason ∈ point.reviewReason, ¬DeadlineReason reason

instance (point : Point) : Decidable point.ReviewsInTime := by
  unfold Point.ReviewsInTime
  infer_instance

def Next.InTime : Next → Prop
  | .goto point => point.ReviewsInTime
  | .close _ => True

theorem afterEvaluation_inTime {answer : EvaluateConditionsResult} (h : AnswerInTime answer) :
    (afterEvaluation answer).InTime := by
  cases answer with
  | READY => trivial
  | REVIEW_REQUIRED text =>
    intro reason hreason
    cases hreason
    exact h _ rfl
  | CONDITION_OPENED conditionId =>
    intro reason hreason
    cases hreason
  | INTERRUPTED text =>
    intro reason hreason
    cases hreason

theorem evaluation_nextInTime (deps : RuntimeDeps) (runId : String) {p : Act Next}
    (h : activityAt deps ref runId .evaluateConditions = some p) :
    p.Assures (evaluating ref runId) (OnReturn fun next _ => next.InTime) s := by
  cases h
  apply onReturn_bind (evaluateConditions_assures deps)
  intro answer db hanswer
  exact afterEvaluation_inTime hanswer

end Activities

/-! ## The workflow -/

/-- An attempt of the evaluation reads its clocks before the deadline of its run's ledger. What a
lost transaction throws is not the ledger's own refusal. -/
def InTimeStep (ref : CaseRef) (s : CaseSystem) : WorkflowLabel → Prop
  | .move m => ∀ e ∈ s.execution, e.point = .evaluateConditions → ∀ p ∈ e.attempt,
      (∀ i ∈ m.input, InTime ref e.runId i (p.move s.db m).1) ∧ ∀ failure ∈ m.thrown, NotLate failure
  | _ => True

instance (e : Failure) : Decidable (NotLate e) :=
  match e with
  | .agentBudgetError .DEADLINE_EXCEEDED message => isFalse fun h => h message rfl
  | .agentBudgetError .BUDGET_EXHAUSTED _ | .agentBudgetError .LEDGER_VERSION_CONFLICT _
  | .agentBudgetError .LEDGER_CLOSED _ | .agentBudgetError .RESERVATION_CONFLICT _ =>
    isTrue fun _ h => by cases h
  | .stopped | .entityNotFound | .database _ | .staleCaseVersion _ _ | .agentPlannerError _ _
  | .other _ => isTrue fun _ h => by cases h

instance (ref : CaseRef) (s : CaseSystem) (a : WorkflowLabel) : Decidable (InTimeStep ref s a) :=
  match a with
  | .move m => by unfold InTimeStep; infer_instance
  | .startWorkflow _ | .recoverWorkflow _ _ | .cancelWorkflow | .closeRun _ | .schedule | .timeout
  | .late _ _ | .evidence _ | .evidenceFailed _ | .resolveConditionSignal _ | .resumeSignal _
  | .wake | .escalate _ _ => isTrue trivial

/-- An evaluation that this step ends is not sent to manual review on account of the deadline. -/
def ReviewsInTime (deps : RuntimeDeps) (ref : CaseRef) (s : CaseSystem) (a : WorkflowLabel) :
    Prop :=
  ∀ e ∈ s.execution, e.point = .evaluateConditions →
    ∀ e' ∈ (workflowStep deps ref s a).execution, e'.point.ReviewsInTime

instance (deps : RuntimeDeps) (ref : CaseRef) (s : CaseSystem) (a : WorkflowLabel) :
    Decidable (ReviewsInTime deps ref s a) := by
  unfold ReviewsInTime
  infer_instance

/-- An attempt, as the workflow may rely on it. -/
def AttemptInTime (ref : CaseRef) (e : Execution) (p : Act Next) (db : Db) : Prop :=
  p.Keeps BudgetGrows ∧ (e.point = .evaluateConditions →
    p.Assures (evaluating ref e.runId) (OnReturn fun next _ => next.InTime) db)

/-- The attempt under way, and those that go on beside it. -/
structure DeadlineInv (ref : CaseRef) (s : CaseSystem) : Prop where
  attempt : ∀ e, s.execution = some e → ∀ p, e.attempt = some p → AttemptInTime ref e p s.db
  abandoned : ∀ p ∈ s.abandoned, p.Keeps BudgetGrows

section Workflow

variable {deps : RuntimeDeps} {ref : CaseRef} {s : CaseSystem} {e : Execution}

/-- No evaluation is under way while its evidence is being collected. -/
theorem collected_evaluating {factType : EvidenceType} {p : Act Next}
    (hattempt : (e.collected factType).attempt = some p)
    (hpoint : (e.collected factType).point = .evaluateConditions) : e.collected factType = e := by
  unfold Execution.collected at hattempt hpoint ⊢
  cases hcollecting : e.point with
  | fetchEvidence pending =>
    rw [hcollecting] at hattempt hpoint
    dsimp only at hattempt hpoint
    split at hpoint
    · rename_i hrest
      rw [hrest] at hattempt
      cases hattempt
    · cases hpoint
  | _ => rfl

theorem AttemptInTime.grows {p : Act Next} {db db' : Db} (h : AttemptInTime ref e p db)
    (hgrows : BudgetGrows db db') : AttemptInTime ref e p db' := by
  refine ⟨h.1, fun hpoint => (h.2 hpoint).later ?_ hgrows⟩
  intro r s s' _ hr
  cases r with
  | ok next => exact hr
  | error failure => trivial

theorem AttemptInTime.move {p : Act Next} {m : Proc.Move Input Failure}
    (h : AttemptInTime ref e p s.db) (he : s.execution = some e) (hp : e.attempt = some p)
    (hstep : InTimeStep ref s (.move m)) :
    AttemptInTime ref e (p.move s.db m).2 (p.move s.db m).1 := by
  refine ⟨(h.1.move AllowsRun.refl s.db m).2, fun hpoint => ?_⟩
  obtain ⟨hmeets, hreports⟩ := hstep e he hpoint p hp
  exact (h.2 hpoint).move hmeets hreports

theorem DeadlineInv.grows (h : DeadlineInv ref s) {db : Db} (hgrows : BudgetGrows s.db db) :
    DeadlineInv ref { s with db } where
  attempt e he p hp := (h.attempt e he p hp).grows hgrows
  abandoned := h.abandoned

/-- The code has gone on to a point where nothing is under way yet. -/
theorem DeadlineInv.fresh (h : DeadlineInv ref s) (hnone : e.attempt = none) :
    DeadlineInv ref (s.withExecution e) where
  attempt e' he' p hp := by
    cases he'
    rw [hnone] at hp
    cases hp
  abandoned := h.abandoned

theorem DeadlineInv.close (h : DeadlineInv ref s) (status : CloseStatus) :
    DeadlineInv ref (s.close e status) where
  attempt e' he' := by cases he'
  abandoned := h.abandoned

theorem DeadlineInv.proceed (h : DeadlineInv ref s) (next : Next) :
    DeadlineInv ref (s.proceed e next) := by
  cases next with
  | goto point => exact h.fresh rfl
  | close status => exact h.close status

theorem DeadlineInv.attemptFailed (h : DeadlineInv ref s) :
    DeadlineInv ref (s.attemptFailed e) := by
  unfold CaseSystem.attemptFailed
  split
  · exact h.fresh rfl
  · exact h.proceed _

theorem DeadlineInv.attempted (h : DeadlineInv ref s) {p : Act Next}
    (hp : AttemptInTime ref e p s.db) : DeadlineInv ref (s.attempted e p) := by
  cases p with
  | done next => exact h.proceed next
  | fail failure => exact h.attemptFailed
  | step write next handler =>
    refine ⟨fun e' he' p' hp' => ?_, h.abandoned⟩
    cases he'
    cases hp'
    exact hp

theorem DeadlineInv.abandon (h : DeadlineInv ref s) (he : s.execution = some e) :
    DeadlineInv ref (s.abandon e) := by
  refine ⟨h.attempt, fun p hp => ?_⟩
  rcases List.mem_append.mp hp with hp | hp
  · exact h.abandoned p hp
  · exact (h.attempt e he p (Option.mem_toList.mp hp)).1

theorem escalateToReviewer_budget (db : Db) (reason : String) (expectedCaseVersion : Nat) :
    (escalateToReviewer db ref reason expectedCaseVersion).budget = db.budget := by
  unfold escalateToReviewer
  split
  · split
    · split
      · rename_i db' hset
        obtain ⟨c, -, -, rfl⟩ := setCaseStatusAt_some hset
        rfl
      · rfl
    · rfl
  · rfl

/-- The invariant is kept by every step that is in time. -/
theorem deadlineInv_step (s : CaseSystem) (a : WorkflowLabel) (h : DeadlineInv ref s)
    (hstep : InTimeStep ref s a) : DeadlineInv ref (workflowStep deps ref s a) := by
  have hcase := workflowStep_case deps ref s a
  generalize workflowStep deps ref s a = s' at hcase ⊢
  cases hcase with
  | stays _ => exact h
  | started _ _ => exact h.fresh rfl
  | recovered _ _ _ => exact h.fresh rfl
  | cancelled e he => exact (h.abandon he).fresh rfl
  | closed e he status => exact (h.abandon he).close status
  | scheduled e he p _ hactivity =>
    refine ⟨fun e' he' p' hp' => ?_, h.abandoned⟩
    cases he'
    cases hp'
    refine ⟨activity_keepsBudget hactivity, fun hpoint => ?_⟩
    rw [hpoint] at hactivity
    exact evaluation_nextInTime deps e.runId hactivity
  | moved e he p hp m =>
    have hattempt := h.attempt e he p hp
    have hgrows := (hattempt.1.move AllowsRun.refl s.db m).1
    exact (h.grows hgrows).attempted (hattempt.move he hp hstep)
  | timedOut e he _ _ => exact (h.abandon he).attemptFailed
  | wentOn n m p hp =>
    obtain ⟨hgrows, hrest⟩ := (h.abandoned p (List.mem_of_getElem? hp)).move AllowsRun.refl s.db m
    refine ⟨(h.grows hgrows).attempt, fun q hq => ?_⟩
    rcases List.mem_or_eq_of_mem_set hq with hq | rfl
    · exact h.abandoned q hq
    · exact hrest
  | evidence fact =>
    refine ⟨fun e' he' p hp => ?_, h.abandoned⟩
    obtain ⟨e, he, rfl⟩ := Option.map_eq_some_iff.mp he'
    have hattempt := h.attempt e he p (collected_attempt hp)
    refine ⟨hattempt.1, fun hpoint => ?_⟩
    have hsame := collected_evaluating hp hpoint
    rw [hsame] at hpoint
    rw [hsame]
    have hgrows : BudgetGrows s.db (recordEvidence s.db ref
        { fact with tenantId := ref.tenantId, caseId := ref.caseId }) := budgetGrows_of_eq rfl
    exact (hattempt.grows hgrows).2 hpoint
  | evidenceFailed _ _ _ _ _ => exact h.fresh rfl
  | resolutionSignalled payload =>
    refine ⟨fun e' he' p hp => ?_, h.abandoned⟩
    obtain ⟨e, he, rfl⟩ := Option.map_eq_some_iff.mp he'
    exact h.attempt e he p hp
  | resumeSignalled actorId =>
    refine ⟨fun e' he' p hp => ?_, h.abandoned⟩
    obtain ⟨e, he, rfl⟩ := Option.map_eq_some_iff.mp he'
    exact h.attempt e he p hp
  | resolved _ _ _ _ _ _ => exact h.fresh rfl
  | resumed _ _ _ => exact h.fresh rfl
  | escalated reason expectedCaseVersion =>
    exact h.grows (budgetGrows_of_eq (escalateToReviewer_budget s.db reason expectedCaseVersion))

theorem proceed_reviewsInTime {next : Next} (h : next.InTime) :
    ∀ e' ∈ (s.proceed e next).execution, e'.point.ReviewsInTime := by
  intro e' he'
  cases next with
  | goto point => cases he'; exact h
  | close status => cases he'

theorem attemptFailed_reviewsInTime (hpoint : e.point = .evaluateConditions) :
    ∀ e' ∈ (s.attemptFailed e).execution, e'.point.ReviewsInTime := by
  unfold CaseSystem.attemptFailed
  split
  · intro e' he'
    cases he'
    rw [hpoint]
    decide
  · apply proceed_reviewsInTime
    rw [hpoint]
    show Point.ReviewsInTime (.markManualReview activityFailureText)
    decide

theorem attempted_reviewsInTime (hpoint : e.point = .evaluateConditions) {p : Act Next} {db : Db}
    (h : p.Assures (evaluating ref e.runId) (OnReturn fun next _ => next.InTime) db) :
    ∀ e' ∈ (s.attempted e p).execution, e'.point.ReviewsInTime := by
  cases p with
  | done next => exact proceed_reviewsInTime h
  | fail failure => exact attemptFailed_reviewsInTime hpoint
  | step write next handler =>
    intro e' he'
    cases he'
    show e.point.ReviewsInTime
    rw [hpoint]
    decide

/-- A step in time sends no evaluation to review on account of the deadline. -/
theorem reviewsInTime_step (s : CaseSystem) (a : WorkflowLabel) (h : DeadlineInv ref s)
    (hstep : InTimeStep ref s a) : ReviewsInTime deps ref s a := by
  intro e he hpoint
  have hexecution : s.execution = some e := he
  -- where the evaluation goes on
  have hstays : ∀ e' : Execution, e'.point = .evaluateConditions → e'.point.ReviewsInTime := by
    intro e' he'
    rw [he']
    decide
  have hsame : ∀ e' ∈ s.execution, e'.point.ReviewsInTime := by
    intro e' he'
    rw [hexecution] at he'
    cases he'
    exact hstays e hpoint
  have hcase := workflowStep_case deps ref s a
  generalize workflowStep deps ref s a = s' at hcase ⊢
  cases hcase with
  | stays _ => exact hsame
  -- an open execution is the evaluation's, so nothing is started and nothing else is answered
  | started _ hnone =>
    rw [hnone] at hexecution
    cases hexecution
  | recovered _ _ hnone =>
    rw [hnone] at hexecution
    cases hexecution
  | evidenceFailed e₀ he₀ pending hfetch reason =>
    obtain rfl : e = e₀ := Option.some.inj (hexecution.symm.trans he₀)
    rw [hpoint] at hfetch
    cases hfetch
  | resolved e₀ he₀ _ _ hawait _ =>
    obtain rfl : e = e₀ := Option.some.inj (hexecution.symm.trans he₀)
    rw [hpoint] at hawait
    cases hawait
  | resumed e₀ he₀ hawait =>
    obtain rfl : e = e₀ := Option.some.inj (hexecution.symm.trans he₀)
    rw [hpoint] at hawait
    cases hawait
  | moved e₀ he₀ p hp m =>
    obtain rfl : e = e₀ := Option.some.inj (hexecution.symm.trans he₀)
    have hrest := (h.attempt e hexecution p hp).move hexecution hp hstep
    exact attempted_reviewsInTime hpoint (hrest.2 hpoint)
  | timedOut e₀ he₀ p hp =>
    obtain rfl : e = e₀ := Option.some.inj (hexecution.symm.trans he₀)
    exact attemptFailed_reviewsInTime hpoint
  | cancelled _ _ =>
    intro e' he'
    cases he'
    show Point.ReviewsInTime .markWorkflowCancelled
    decide
  | closed _ _ _ =>
    intro e' he'
    cases he'
  | scheduled e₀ he₀ p _ _ =>
    obtain rfl : e = e₀ := Option.some.inj (hexecution.symm.trans he₀)
    intro e' he'
    cases he'
    exact hstays _ hpoint
  | wentOn _ _ _ _ => exact hsame
  | evidence fact =>
    intro e' he'
    obtain ⟨e₀, he₀, rfl⟩ := Option.map_eq_some_iff.mp he'
    obtain rfl : e = e₀ := Option.some.inj (hexecution.symm.trans he₀)
    apply hstays
    unfold Execution.collected
    rw [hpoint]
    exact hpoint
  | resolutionSignalled payload =>
    intro e' he'
    obtain ⟨e₀, he₀, rfl⟩ := Option.map_eq_some_iff.mp he'
    exact hsame e₀ he₀
  | resumeSignalled actorId =>
    intro e' he'
    obtain ⟨e₀, he₀, rfl⟩ := Option.map_eq_some_iff.mp he'
    exact hsame e₀ he₀
  | escalated _ _ => exact hsame

end Workflow

/-- **No review on account of the wait**, in every history in which the clocks of the evaluations
are before the deadline of their run's ledger, which the first evaluation has set. -/
theorem reviews_in_time (deps : RuntimeDeps) (ref : CaseRef) (db : Db) (run : List WorkflowLabel)
    (h : AllSteps (workflowStep deps ref) (InTimeStep ref) { db } run) :
    AllSteps (workflowStep deps ref) (ReviewsInTime deps ref) { db } run := by
  have hinit : DeadlineInv ref { db } :=
    ⟨fun e he => (by cases he), fun p hp => (by cases hp)⟩
  exact allSteps_of_inv_of_allSteps deadlineInv_step reviewsInTime_step hinit h

/-! ## A reviewer who takes two minutes -/

/-- Two versions of the policy apply. -/
def ambiguousPolicy (n : Nat) : Input :=
  { sampleInput n with
    evaluatePolicy := fun _ => .ok { resolvedTo [] with
      status := .REVIEW_REQUIRED
      unresolvedReasons := ["two versions apply"] } }

/-- The services answer as they should, `d` milliseconds after noon. -/
def answeredAfter (d : Int) (n : Nat) : Input :=
  { sampleInput n with env := { dbNow := 1786795200000 + d, processNow := 1786795200000 + d } }

/-- The evaluation is interrupted, and the case waits for review. -/
def interruptedRun : List WorkflowLabel :=
  collection "run-1" 0 (verifiedEvidence (.scaled 6 3) 1786795000000)
    ++ attempt ambiguousPolicy 1 20 ++ attempt sampleInput 30 1

/-- A reviewer has made the policy clear, and resumes the workflow. -/
def resumedAfter (d : Int) : List WorkflowLabel :=
  interruptedRun ++ [.resumeSignal "underwriter-1", .wake] ++ attempt (answeredAfter d) 40 35

theorem reviews_in_time_resumed :
    AllSteps (workflowStep incomeDeps sampleRef) (ReviewsInTime incomeDeps sampleRef)
        { db := sampleDb .DRAFT [] } (resumedAfter 60000)
      ∧ (sampleSystem (resumedAfter 60000)).execution.map (·.point) = some (.awaitResolution 167) :=
  ⟨reviews_in_time incomeDeps sampleRef (sampleDb .DRAFT []) (resumedAfter 60000)
    (by decide +kernel), by decide +kernel⟩

/-- Two minutes later the same evaluation ends in manual review. -/
theorem late_resume_reviewed :
    (sampleSystem interruptedRun).execution.map (·.point) = some .awaitResume
      ∧ (sampleSystem (resumedAfter 120000)).execution.map (·.point) = some (.markManualReview
        "[BUDGET_OR_DEADLINE_EXHAUSTED] runDeadlineAt (2026-08-15T12:01:15.000Z) exceeded")
      ∧ ¬AllSteps (workflowStep incomeDeps sampleRef) (ReviewsInTime incomeDeps sampleRef)
        { db := sampleDb .DRAFT [] } (resumedAfter 120000) := by
  refine ⟨by decide +kernel, by decide +kernel, by decide +kernel⟩

end MortgageAgent.Workflow
