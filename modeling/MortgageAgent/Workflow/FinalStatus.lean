import MortgageAgent.Workflow.CancelRace
import MortgageAgent.Workflow.Readiness

/-!
# A case that is final

READY_FOR_UNDERWRITING and CLOSED are where the workflow leaves a case for good. A recovery is
refused for such a case, an escalation passes it over and a cancellation reads the status first;
but a plain start asks nothing, and the activities of the new run write the status whatever it is.
So does an evaluation that is attempted again after it had made the case ready.

* **`FinalKept`** — a final status stays, or goes from ready to closed.
* **`StatusStep`** — what the transactions of the activities do to the status, with what each
  takes the status for.
* **`SparesFinal`** — no activity that writes the status is taken up while the case is final.
* **`final_is_kept`** — the law, in every history all of whose steps do.
* **`restart_reopens_ready`** — a ready case is started again.
-/

namespace MortgageAgent.Workflow

open Proc (Obeys)
open Runs

def Db.statusOf (db : Db) (ref : CaseRef) : Option CaseStatus := (db.findCase ref).map (·.status)

/-- **The law**, of one step. -/
def FinalKept (ref : CaseRef) (db db' : Db) : Prop :=
  ∀ status ∈ db.statusOf ref, status.isFinal = true →
    db'.statusOf ref = some status
      ∨ status = .READY_FOR_UNDERWRITING ∧ db'.statusOf ref = some .CLOSED

instance (ref : CaseRef) (db db' : Db) : Decidable (FinalKept ref db db') := by
  unfold FinalKept
  infer_instance

section Status

variable {ref : CaseRef} {db db' : Db}

theorem isFinal_iff : db.isFinal ref ↔ ∃ status, db.statusOf ref = some status
    ∧ status.isFinal = true := by
  unfold Db.isFinal Db.statusOf
  cases db.findCase ref with
  | none => simp
  | some c => simp

theorem isFinal_congr (h : db'.statusOf ref = db.statusOf ref) :
    db'.isFinal ref ↔ db.isFinal ref := by
  rw [isFinal_iff, isFinal_iff, h]

theorem statusOf_congr (h : db'.loanCases = db.loanCases) :
    db'.statusOf ref = db.statusOf ref := by
  unfold Db.statusOf
  rw [findCase_congr h]

theorem statusOf_put {c : LoanCase} {status : CaseStatus} (hc : db.findCase ref = some c)
    (h : db'.loanCases = db.loanCases.put (c.withStatus status)) :
    db'.statusOf ref = (db.statusOf ref).map fun _ => status := by
  unfold Db.statusOf
  rw [findCase_put hc h, hc]
  rfl

theorem statusOf_setCaseStatus {status : CaseStatus}
    (h : db'.loanCases = (db.setCaseStatus ref status).loanCases) :
    db'.statusOf ref = (db.statusOf ref).map fun _ => status := by
  unfold Db.setCaseStatus at h
  cases hc : db.findCase ref with
  | none =>
    rw [hc] at h
    rw [statusOf_congr h]
    unfold Db.statusOf
    rw [hc]
    rfl
  | some c =>
    rw [hc] at h
    exact statusOf_put hc h

theorem finalKept_of_eq (h : db'.statusOf ref = db.statusOf ref) : FinalKept ref db db' := by
  intro status hstatus _
  exact Or.inl (h.trans hstatus)

theorem finalKept_of_not (h : ¬ db.isFinal ref) : FinalKept ref db db' := by
  intro status hstatus hfinal
  exact absurd (isFinal_iff.mpr ⟨status, hstatus, hfinal⟩) h

/-- A status that is not final, once written, is the case's if there is a case. -/
theorem not_isFinal_of_written {status : CaseStatus} (hstatus : status.isFinal = false)
    (h : db'.statusOf ref = (db.statusOf ref).map fun _ => status) : ¬ db'.isFinal ref := by
  rw [isFinal_iff]
  rintro ⟨written, hwritten, hfinal⟩
  rw [h] at hwritten
  obtain ⟨_, _, rfl⟩ := Option.map_eq_some_iff.mp hwritten
  rw [hstatus] at hfinal
  cases hfinal

end Status

/-! ## What the activities do to the status -/

/-- What an attempt takes the status for: not final, not closed, or nothing. -/
inductive StatusPhase where
  | writes
  | readies
  | spares
  deriving DecidableEq

def StatusPhase.HoldsIn (ref : CaseRef) (db : Db) : StatusPhase → Prop
  | .writes => ¬ db.isFinal ref
  | .readies => db.statusOf ref ≠ some .CLOSED
  | .spares => True

inductive StatusStep (ref : CaseRef) : StatusPhase → Db → Db → StatusPhase → Prop where
  | quiet {g : StatusPhase} {db db' : Db} (h : db'.statusOf ref = db.statusOf ref) :
      StatusStep ref g db db' g
  /-- the status is read first -/
  | reads {db : Db} (h : ¬ db.isFinal ref) : StatusStep ref .spares db db .writes
  | writes {db db' : Db} {status : CaseStatus} (hstatus : status.isFinal = false)
      (h : db'.statusOf ref = (db.statusOf ref).map fun _ => status) :
      StatusStep ref .writes db db' .writes
  /-- an evaluation makes the case ready, its last write -/
  | finishes {db db' : Db}
      (h : db'.statusOf ref = (db.statusOf ref).map fun _ => .READY_FOR_UNDERWRITING) :
      StatusStep ref .writes db db' .spares
  | readies {db db' : Db}
      (h : db'.statusOf ref = (db.statusOf ref).map fun _ => .READY_FOR_UNDERWRITING) :
      StatusStep ref .readies db db' .readies

section Activities

variable {ref : CaseRef} {db db' : Db}

theorem statusStep_refl (g : StatusPhase) (db : Db) : StatusStep ref g db db g := .quiet rfl

theorem statusStep_letsQuiet : LetsQuiet (StatusStep ref) :=
  fun _ _ _ h => .quiet (statusOf_congr (loanCases_of_caseRows h))

/-- A transaction that takes the status for what it is keeps a final one, and what it leads to
holds. -/
theorem statusStep_keeps {g g' : StatusPhase} (h : StatusStep ref g db db' g')
    (hg : g.HoldsIn ref db) : FinalKept ref db db' ∧ g'.HoldsIn ref db' := by
  cases h with
  | quiet h =>
    refine ⟨finalKept_of_eq h, ?_⟩
    cases g with
    | writes => exact fun hfinal => hg ((isFinal_congr h).mp hfinal)
    | readies => exact fun hclosed => hg (h ▸ hclosed)
    | spares => trivial
  | reads h => exact ⟨finalKept_of_eq rfl, h⟩
  | writes hstatus h => exact ⟨finalKept_of_not hg, not_isFinal_of_written hstatus h⟩
  | finishes h => exact ⟨finalKept_of_not hg, trivial⟩
  | readies h =>
    constructor
    · intro status hstatus hfinal
      left
      have hold : db.statusOf ref = some status := hstatus
      have hready : status = .READY_FOR_UNDERWRITING := by
        cases status with
        | READY_FOR_UNDERWRITING => rfl
        | CLOSED => exact absurd hold hg
        | _ => cases hfinal
      rw [h, hold, hready]
      rfl
    · intro hclosed
      rw [h] at hclosed
      obtain ⟨_, _, hwritten⟩ := Option.map_eq_some_iff.mp hclosed
      cases hwritten

/-- What the workflow makes of an answer writes nothing. -/
theorem answer_statusStep {α : Type} {p : Act α} {g : StatusPhase}
    (h : p.Obeys (StatusStep ref) (Returned fun _ _ => True) g) (next : α → Next) :
    (p.bind fun a => Proc.done (next a)).Obeys (StatusStep ref) (Returned fun _ _ => True) g := by
  apply h.bind
  · intro g a _
    trivial
  · intro g e _
    trivial

theorem markCase_statusStep {status : CaseStatus} (hstatus : status.isFinal = false)
    (payload : OutboxPayload) :
    (markCase ref status payload).Obeys (StatusStep ref) (Returned fun _ _ => True) .writes := by
  apply transaction_obeys (statusStep_refl _)
  intro i db db' r h
  cases h
  exact ⟨.writes, .writes hstatus (statusOf_setCaseStatus rfl), trivial⟩

theorem prepareWorkflowRecovery_statusStep (recoveryOfRunId : String) :
    (prepareWorkflowRecovery ref recoveryOfRunId).Obeys (StatusStep ref)
      (Returned fun _ _ => True) .writes := by
  apply transaction_obeys (statusStep_refl _)
  intro i db db' r h
  dsimp only at h
  split at h
  · cases h
    exact ⟨.writes, .quiet rfl, trivial⟩
  · cases h
    let started := db.writeOutboxEvent ref
      (.workflowRunRecoveryStarted recoveryOfRunId (db.activeConditions ref).length)
    have hset : (started.setCaseStatus ref .CONDITIONS_OPEN).statusOf ref
        = (started.statusOf ref).map fun _ => .CONDITIONS_OPEN := statusOf_setCaseStatus rfl
    exact ⟨.writes, .writes rfl hset, trivial⟩
  · cases h
    exact ⟨.writes, .quiet rfl, trivial⟩

/-- What an evaluation takes the status for, in the phases of its contract. -/
def Phase.statusPhase : Phase → StatusPhase
  | .reading _ | .opened _ => .writes
  | .idle | .clear => .spares

theorem evaluationStep_statusStep {g g' : Phase} (h : EvaluationStep ref g db db' g') :
    StatusStep ref g.statusPhase db db' g'.statusPhase := by
  cases h with
  | quiet h => exact statusStep_letsQuiet _ _ _ h
  | opens hc hcases hinsert hopen => exact .writes (by rfl) (statusOf_put hc hcases)
  | readies hc hcases hconditions => exact .finishes (statusOf_put hc hcases)

theorem evaluateConditions_statusStep (deps : RuntimeDeps) (runId : String) :
    (evaluateConditions deps ref runId).Obeys (StatusStep ref) (Returned fun _ _ => True)
      .writes := by
  apply keeps_bind_obeys (query_keeps _) statusStep_letsQuiet
  intro loanCase
  apply (evaluateCase_obeys deps ref runId loanCase.version).map (φ := Phase.statusPhase)
  · exact fun _ _ _ _ hstep => evaluationStep_statusStep hstep
  · intro g r _
    cases r <;> trivial

/-- The cancellation's read finds the status final, or may write afterwards. -/
theorem readStatus_statusStep :
    (query fun db => db.findCaseOrFail ref).Obeys (StatusStep ref)
      (Returned fun g (c : LoanCase) => c.status.isFinal = false → g = .writes) .spares := by
  apply transaction_obeys (statusStep_refl _)
  intro i db db' c h
  dsimp only [Db.findCaseOrFail] at h
  cases hc : db.findCase ref with
  | none => rw [hc] at h; cases h
  | some found =>
    rw [hc] at h
    cases h
    cases hfinal : c.status.isFinal with
    | true => exact ⟨.spares, statusStep_refl _ _, fun hnot => by cases hnot⟩
    | false =>
      refine ⟨.writes, .reads ?_, fun _ => rfl⟩
      unfold Db.isFinal
      rw [hc, Option.any_some, hfinal]
      exact Bool.false_ne_true

theorem markWorkflowCancelled_statusStep :
    (markWorkflowCancelled ref).Obeys (StatusStep ref) (Returned fun _ _ => True) .spares := by
  apply readStatus_statusStep.bind
  · intro g c hg
    apply transaction_obeys (statusStep_refl _)
    intro i db db' r h
    cases h
    refine ⟨g, ?_, trivial⟩
    split
    · rename_i hopen
      have hfinal : c.status.isFinal = false := by
        cases hstatus : c.status with
        | READY_FOR_UNDERWRITING => exact absurd hstatus hopen.1
        | CLOSED => exact absurd hstatus hopen.2
        | _ => rfl
      have hset : (db.setCaseStatus ref .MANUAL_REVIEW).statusOf ref
          = (db.statusOf ref).map fun _ => .MANUAL_REVIEW := statusOf_setCaseStatus rfl
      rw [hg hfinal]
      exact .writes rfl hset
    · exact .quiet rfl
  · intro g e _
    trivial

theorem resolveCondition_statusStep (conditionId : Uuid) (p : ResolveConditionSignalPayload) :
    (resolveCondition ref conditionId p).Obeys (StatusStep ref) (Returned fun _ _ => True)
      .spares := by
  apply transaction_obeys (statusStep_refl _)
  intro i db db' r h
  cases hfind : db.conditions.find conditionId with
  | none => rw [hfind] at h; cases h
  | some condition =>
    rw [hfind] at h
    cases h
    exact ⟨.spares, .quiet (statusOf_congr rfl), trivial⟩

theorem markReadyForUnderwriting_statusStep :
    (markReadyForUnderwriting ref).Obeys (StatusStep ref) (Returned fun _ _ => True) .readies := by
  have hfinalize : (finalizeReady ref none).Obeys (StatusStep ref)
      (Returned fun g _ => g = .readies) .readies := by
    apply transaction_obeys (statusStep_refl _)
    intro i db db' r h
    cases h
    exact ⟨.readies, .readies (statusOf_setCaseStatus rfl), rfl⟩
  apply hfinalize.bind
  · rintro _ _ rfl
    apply (keeps_obeys sendReadyForUnderwritingNotification_keeps statusStep_letsQuiet
      .readies).imp fun _ _ _ _ hstep => hstep
    intro g r _
    cases r <;> trivial
  · intro g e _
    trivial

/-- What the activity called at a point takes the status for. -/
def Point.statusPhase : Point → StatusPhase
  | .markWorkflowCancelled | .resolveCondition _ _ => .spares
  | .markReadyForUnderwriting => .readies
  | _ => .writes

theorem activity_statusStep {deps : RuntimeDeps} {runId : String} {point : Point} {p : Act Next}
    (h : activityAt deps ref runId point = some p) :
    p.Obeys (StatusStep ref) (Returned fun _ _ => True) point.statusPhase := by
  cases point with
  | prepareWorkflowRecovery recoveryOfRunId =>
    cases h
    exact answer_statusStep (prepareWorkflowRecovery_statusStep recoveryOfRunId) _
  | markCollectingEvidence =>
    cases h
    exact answer_statusStep (markCase_statusStep rfl _) _
  | fetchEvidence pending => cases h
  | evaluateConditions =>
    cases h
    exact answer_statusStep (evaluateConditions_statusStep deps runId) _
  | markWaitingForReview reason =>
    cases h
    exact answer_statusStep (markCase_statusStep rfl _) _
  | awaitResume => cases h
  | markManualReview reason =>
    cases h
    exact answer_statusStep (markCase_statusStep rfl _) _
  | awaitResolution conditionId => cases h
  | resolveCondition conditionId resolution =>
    cases h
    exact answer_statusStep (resolveCondition_statusStep conditionId resolution) _
  | markReadyForUnderwriting =>
    cases h
    exact answer_statusStep markReadyForUnderwriting_statusStep _
  | markWorkflowCancelled =>
    cases h
    exact answer_statusStep markWorkflowCancelled_statusStep _

end Activities

/-! ## The workflow -/

/-- The activity at a point, if there is one, may be taken up for a case with this final
status. -/
def Point.SparesFinal (status : CaseStatus) : Point → Prop
  | .fetchEvidence _ | .awaitResume | .awaitResolution _ => True
  | .resolveCondition _ _ | .markWorkflowCancelled => True
  | .markReadyForUnderwriting => status = .READY_FOR_UNDERWRITING
  | _ => False

instance (status : CaseStatus) (point : Point) : Decidable (point.SparesFinal status) := by
  cases point <;> unfold Point.SparesFinal <;> infer_instance

/-- While the case is final no activity that writes its status is taken up; and an attempt that
Temporal has given up on leaves a final status alone, and makes the case final only when no other
attempt is under way. -/
def SparesFinal (ref : CaseRef) (s : CaseSystem) : WorkflowLabel → Prop
  | .schedule => ∀ e ∈ s.execution, e.attempt.isNone = true → ∀ status ∈ s.db.statusOf ref,
      status.isFinal = true → e.point.SparesFinal status
  | .late n m => ∀ p ∈ s.abandoned[n]?,
      (s.db.isFinal ref → (p.move s.db m).1.statusOf ref = s.db.statusOf ref)
        ∧ ((∃ e ∈ s.execution, e.attempt.isSome = true) → (p.move s.db m).1.isFinal ref →
          s.db.isFinal ref)
  | _ => True

instance (ref : CaseRef) (s : CaseSystem) (a : WorkflowLabel) :
    Decidable (SparesFinal ref s a) :=
  match a with
  | .schedule => by unfold SparesFinal; infer_instance
  | .late n m => by unfold SparesFinal; infer_instance
  | .startWorkflow _ | .recoverWorkflow _ _ | .cancelWorkflow | .closeRun _ | .move _ | .timeout
  | .evidence _ | .evidenceFailed _ | .resolveConditionSignal _ | .resumeSignal _ | .wake
  | .escalate _ _ => isTrue trivial

/-- The attempt under way takes the status for what it is. -/
def FinalInv (ref : CaseRef) (s : CaseSystem) : Prop :=
  ∀ e, s.execution = some e → ∀ p, e.attempt = some p →
    ∃ g : StatusPhase, p.Obeys (StatusStep ref) (Returned fun _ _ => True) g ∧ g.HoldsIn ref s.db

section Workflow

variable {deps : RuntimeDeps} {ref : CaseRef} {s : CaseSystem} {e : Execution}

/-- A write after which the case is final only if it was, with the status it had. -/
def SparesStatus (ref : CaseRef) (db db' : Db) : Prop :=
  (db.isFinal ref → db'.statusOf ref = db.statusOf ref) ∧ (db'.isFinal ref → db.isFinal ref)

theorem SparesStatus.holdsIn {db db' : Db} (h : SparesStatus ref db db') {g : StatusPhase}
    (hg : g.HoldsIn ref db) : g.HoldsIn ref db' := by
  cases g with
  | writes => exact fun hfinal => hg (h.2 hfinal)
  | readies =>
    intro hclosed
    have hfinal : db.isFinal ref := h.2 (isFinal_iff.mpr ⟨.CLOSED, hclosed, rfl⟩)
    rw [h.1 hfinal] at hclosed
    exact hg hclosed
  | spares => trivial

theorem escalateToReviewer_sparesStatus (db : Db) (reason : String) (expectedCaseVersion : Nat) :
    SparesStatus ref db (escalateToReviewer db ref reason expectedCaseVersion) := by
  have hsame : SparesStatus ref db db := ⟨fun _ => rfl, fun h => h⟩
  unfold escalateToReviewer
  split
  · rename_i c hc
    split
    · rename_i hescalatable
      split
      · rename_i db' hset
        obtain ⟨c', hc', -, rfl⟩ := setCaseStatusAt_some hset
        rw [hc] at hc'
        cases hc'
        have hopen : ¬ db.isFinal ref := by
          unfold Db.isFinal
          rw [hc, Option.any_some]
          revert hescalatable
          cases c.status <;> decide
        let escalated : Db :=
          { db with loanCases := db.loanCases.put (c.withStatus .WAITING_FOR_REVIEW) }
        have hwritten : escalated.statusOf ref
            = (db.statusOf ref).map fun _ => .WAITING_FOR_REVIEW := statusOf_put hc rfl
        refine ⟨fun hfinal => absurd hfinal hopen, fun hfinal => ?_⟩
        exact absurd hfinal (not_isFinal_of_written rfl hwritten)
      · exact hsame
    · exact hsame
  · exact hsame

theorem finalInv_of_no_attempt
    (h : ∀ e, s.execution = some e → e.attempt = none) : FinalInv ref s := by
  intro e he p hp
  rw [h e he] at hp
  cases hp

theorem finalInv_fresh (hnone : e.attempt = none) : FinalInv ref (s.withExecution e) :=
  finalInv_of_no_attempt fun e' he' => by cases he'; exact hnone

theorem finalInv_close (status : CloseStatus) : FinalInv ref (s.close e status) :=
  finalInv_of_no_attempt fun e' he' => by cases he'

theorem finalInv_proceed (next : Next) : FinalInv ref (s.proceed e next) := by
  cases next with
  | goto point => exact finalInv_fresh rfl
  | close status => exact finalInv_close status

theorem finalInv_attemptFailed : FinalInv ref (s.attemptFailed e) := by
  unfold CaseSystem.attemptFailed
  split
  · exact finalInv_fresh rfl
  · exact finalInv_proceed _

theorem finalInv_attempted {p : Act Next} {g : StatusPhase}
    (hobeys : p.Obeys (StatusStep ref) (Returned fun _ _ => True) g) (hg : g.HoldsIn ref s.db) :
    FinalInv ref (s.attempted e p) := by
  cases p with
  | done next => exact finalInv_proceed next
  | fail failure => exact finalInv_attemptFailed
  | step write next handler =>
    intro e' he' p' hp'
    cases he'
    cases hp'
    exact ⟨g, hobeys, hg⟩

/-- An activity taken up under the condition takes the status for what it is. -/
theorem statusPhase_holdsIn {db : Db} {point : Point} {p : Act Next}
    (hactivity : activityAt deps ref e.runId point = some p)
    (h : ∀ status ∈ db.statusOf ref, status.isFinal = true → point.SparesFinal status) :
    point.statusPhase.HoldsIn ref db := by
  cases point with
  | markWorkflowCancelled => trivial
  | resolveCondition conditionId resolution => trivial
  | markReadyForUnderwriting =>
    intro hclosed
    have hready : CaseStatus.CLOSED = .READY_FOR_UNDERWRITING := h .CLOSED hclosed rfl
    cases hready
  | fetchEvidence pending => cases hactivity
  | awaitResume => cases hactivity
  | awaitResolution conditionId => cases hactivity
  | _ =>
    intro hfinal
    obtain ⟨status, hstatus, hisFinal⟩ := isFinal_iff.mp hfinal
    exact h status hstatus hisFinal

/-- The invariant is kept by every step that meets the condition. -/
theorem finalInv_step (s : CaseSystem) (a : WorkflowLabel) (h : FinalInv ref s)
    (hspares : SparesFinal ref s a) : FinalInv ref (workflowStep deps ref s a) := by
  have hcase := workflowStep_case deps ref s a
  generalize workflowStep deps ref s a = s' at hcase ⊢
  cases hcase with
  | stays _ => exact h
  | started _ _ => exact finalInv_fresh rfl
  | recovered _ _ _ => exact finalInv_fresh rfl
  | cancelled _ _ => exact finalInv_fresh rfl
  | closed _ _ status => exact finalInv_close status
  | scheduled e he p hidle hactivity =>
    intro e' he' p' hp'
    cases he'
    cases hp'
    have hstatus := hspares e he (by rw [hidle]; rfl)
    exact ⟨_, activity_statusStep hactivity, statusPhase_holdsIn hactivity hstatus⟩
  | moved e he p hp m =>
    obtain ⟨g, hobeys, hg⟩ := h e he p hp
    obtain ⟨g', hstep, hrest⟩ := hobeys.move statusStep_refl s.db m
    exact finalInv_attempted hrest (statusStep_keeps hstep hg).2
  | timedOut _ _ _ _ => exact finalInv_attemptFailed
  | wentOn n m p hp =>
    obtain ⟨hsame, hfinal⟩ := hspares p hp
    intro e he q hq
    have hunderWay : ∃ e ∈ s.execution, e.attempt.isSome = true := ⟨e, he, by rw [hq]; rfl⟩
    have hspared : SparesStatus ref s.db (p.move s.db m).1 := ⟨hsame, hfinal hunderWay⟩
    obtain ⟨g, hobeys, hg⟩ := h e he q hq
    exact ⟨g, hobeys, hspared.holdsIn hg⟩
  | evidence fact =>
    intro e' he' p hp
    obtain ⟨e, he, rfl⟩ := Option.map_eq_some_iff.mp he'
    exact h e he p (collected_attempt hp)
  | evidenceFailed _ _ _ _ _ => exact finalInv_fresh rfl
  | resolutionSignalled payload =>
    intro e' he' p hp
    obtain ⟨e, he, rfl⟩ := Option.map_eq_some_iff.mp he'
    exact h e he p hp
  | resumeSignalled actorId =>
    intro e' he' p hp
    obtain ⟨e, he, rfl⟩ := Option.map_eq_some_iff.mp he'
    exact h e he p hp
  | resolved _ _ _ _ _ _ => exact finalInv_fresh rfl
  | resumed _ _ _ => exact finalInv_fresh rfl
  | escalated reason expectedCaseVersion =>
    intro e he p hp
    obtain ⟨g, hobeys, hg⟩ := h e he p hp
    exact ⟨g, hobeys, (escalateToReviewer_sparesStatus s.db reason expectedCaseVersion).holdsIn hg⟩

/-- Only three kinds of step write the store's cases: each keeps a final status. -/
theorem finalKept_step (s : CaseSystem) (a : WorkflowLabel) (h : FinalInv ref s)
    (hspares : SparesFinal ref s a) : FinalKept ref s.db (workflowStep deps ref s a).db := by
  have hcase := workflowStep_case deps ref s a
  generalize workflowStep deps ref s a = s' at hcase ⊢
  cases hcase with
  | moved e he p hp m =>
    obtain ⟨g, hobeys, hg⟩ := h e he p hp
    obtain ⟨g', hstep, -⟩ := hobeys.move statusStep_refl s.db m
    rw [attempted_db]
    exact (statusStep_keeps hstep hg).1
  | wentOn n m p hp =>
    obtain ⟨hkept, -⟩ := hspares p hp
    by_cases hfinal : s.db.isFinal ref
    · exact finalKept_of_eq (hkept hfinal)
    · exact finalKept_of_not hfinal
  | escalated reason expectedCaseVersion =>
    obtain ⟨hkept, -⟩ : SparesStatus ref s.db
        (escalateToReviewer s.db ref reason expectedCaseVersion) :=
      escalateToReviewer_sparesStatus s.db reason expectedCaseVersion
    by_cases hfinal : s.db.isFinal ref
    · exact finalKept_of_eq (hkept hfinal)
    · exact finalKept_of_not hfinal
  | evidence fact => exact finalKept_of_eq (statusOf_congr rfl)
  | timedOut e _ _ _ =>
    rw [attemptFailed_db]
    exact finalKept_of_eq rfl
  -- the others leave the store alone.
  | _ => exact finalKept_of_eq rfl

end Workflow

/-- **A final status stays**, in every history in which no activity that writes it is taken up
while the case is final. -/
theorem final_is_kept (deps : RuntimeDeps) (ref : CaseRef) (db : Db) (run : List WorkflowLabel)
    (h : AllSteps (workflowStep deps ref) (SparesFinal ref) { db } run) :
    AllSteps (workflowStep deps ref)
      (fun s a => FinalKept ref s.db (workflowStep deps ref s a).db) { db } run := by
  have hinit : FinalInv ref { db } := finalInv_of_no_attempt fun e he => by cases he
  exact allSteps_of_inv_of_allSteps finalInv_step finalKept_step hinit h

/-! ## A case that is started again -/

/-- The income is verified as stated, and the evaluation makes the case ready. -/
def readyRun : List WorkflowLabel :=
  collection "run-1" 0 (verifiedEvidence (.scaled 5 3) 1786795000000)
    ++ attempt sampleInput 1 26

/-- Afterwards an escalation and a recovery are tried. -/
def leftAloneRun : List WorkflowLabel :=
  readyRun ++ [.escalate "late documents" 3, .recoverWorkflow "run-1" "run-2", .cancelWorkflow]

theorem final_is_kept_leftAloneRun :
    AllSteps (workflowStep incomeDeps sampleRef)
        (fun s a => FinalKept sampleRef s.db (workflowStep incomeDeps sampleRef s a).db)
        { db := sampleDb .DRAFT [] } leftAloneRun
      ∧ (sampleSystem leftAloneRun).db.isReady sampleRef :=
  ⟨final_is_kept incomeDeps sampleRef (sampleDb .DRAFT []) leftAloneRun (by decide +kernel),
    by decide +kernel⟩

/-- The workflow is started a second time, and marks the collection of evidence. -/
def reopenedRun : List WorkflowLabel :=
  readyRun ++ .startWorkflow "run-2" :: attempt sampleInput 40 1

theorem restart_reopens_ready :
    (sampleSystem readyRun).db.statusOf sampleRef = some .READY_FOR_UNDERWRITING
      ∧ (sampleSystem reopenedRun).db.statusOf sampleRef = some .COLLECTING_EVIDENCE
      ∧ ¬ AllSteps (workflowStep incomeDeps sampleRef)
        (fun s a => FinalKept sampleRef s.db (workflowStep incomeDeps sampleRef s a).db)
        { db := sampleDb .DRAFT [] } reopenedRun := by
  refine ⟨by decide +kernel, by decide +kernel, by decide +kernel⟩

end MortgageAgent.Workflow
