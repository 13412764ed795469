import MortgageAgent.Workflow.Evaluation
import MortgageAgent.Workflow.System

/-!
# Ready for underwriting

Whether a case that is READY_FOR_UNDERWRITING has no active condition, over every history of its
workflow: starts, recoveries, cancellations, reviews, escalations and attempts that fail, time out
or are stopped anywhere.

Marking a case ready never looks at its conditions. What keeps the law is what the code knows
when it does: an evaluation that opened nothing holds the case at the version it read, and a
workflow that settled the condition it had opened (or had found, in a recovery) has settled the
only one. Both rest on the evaluation having begun on a case without active conditions, which
nothing checks: a workflow started again after its predecessor gave up on an open condition, or
an attempt retried after it had opened one, evaluates a case that has one already. And
`markReadyForUnderwriting` writes whatever the case has become, so that an attempt of it that was
given up on may come too late.

* **`ActivityStep`** — what the transactions of the activities do to the case, with the phase the
  workflow is in before and after.
* **`activity_obeys`** — every activity keeps to it.
* **`ready_has_no_active`** — the law, when every evaluation begins without an active condition.
* **`restart_leaves_condition_open`** — a draft is blocked, the workflow is started again, and the
  case becomes ready with its condition open.
-/

namespace MortgageAgent.Workflow

open Proc (Obeys)
open Runs

def Db.isReady (db : Db) (ref : CaseRef) : Prop :=
  (db.findCase ref).map (·.status) = some .READY_FOR_UNDERWRITING

instance (db : Db) (ref : CaseRef) : Decidable (db.isReady ref) := by
  unfold Db.isReady
  infer_instance

/-- **The law.** -/
def ReadyHasNoActive (ref : CaseRef) (db : Db) : Prop :=
  db.isReady ref → db.activeConditions ref = []

instance (ref : CaseRef) (db : Db) : Decidable (ReadyHasNoActive ref db) := by
  unfold ReadyHasNoActive
  infer_instance

section Active

variable {ref : CaseRef} {db db' : Db}

theorem mem_activeConditions {c : LoanCondition} :
    c ∈ db.activeConditions ref ↔ c ∈ db.conditions.rows ∧ c.tenantId = ref.tenantId
      ∧ c.caseId = ref.caseId ∧ c.status.active = true := by
  unfold Db.activeConditions
  rw [List.mem_filter]
  simp only [Bool.and_eq_true, decide_eq_true_eq, and_assoc]

theorem activeConditions_congr (h : db'.conditions = db.conditions) :
    db'.activeConditions ref = db.activeConditions ref := by
  unfold Db.activeConditions
  rw [h]

theorem activeConditions_insert {condition : LoanCondition}
    (h : db.conditions.insert condition = some db'.conditions) (hopen : condition.OpenFor ref) :
    db'.activeConditions ref = db.activeConditions ref ++ [condition] := by
  unfold Db.activeConditions
  rw [Table.rows_of_insert h, List.filter_append]
  simp [hopen.tenantId, hopen.caseId, hopen.status, ConditionStatus.active]

/-- Settling a condition leaves the other active ones. -/
theorem activeConditions_put {resolved c : LoanCondition}
    (hmem : ∃ x ∈ db.conditions.rows, x.id = resolved.id)
    (h : db'.conditions = db.conditions.put resolved) (hstatus : resolved.status.active = false)
    (hc : c ∈ db'.activeConditions ref) : c ∈ db.activeConditions ref ∧ c.id ≠ resolved.id := by
  rw [mem_activeConditions] at hc
  obtain ⟨hrow, htenant, hcase, hactive⟩ := hc
  rw [h, Table.mem_put _ hmem] at hrow
  rcases hrow with rfl | ⟨hrow, hid⟩
  · rw [hstatus] at hactive
    cases hactive
  · exact ⟨mem_activeConditions.mpr ⟨hrow, htenant, hcase, hactive⟩, hid⟩

end Active

/-! ## What the activities do to a case -/

/-- What a phase says of the store. -/
def Phase.HoldsIn (ref : CaseRef) (db : Db) : Phase → Prop
  | .idle => True
  | .reading _ | .clear => db.activeConditions ref = []
  | .opened id => ∀ c ∈ db.activeConditions ref, c.id = id

/-- The transactions of the activities, with the phase each leads to. -/
inductive ActivityStep (ref : CaseRef) : Phase → Db → Db → Phase → Prop where
  | evaluation {g g' : Phase} {db db' : Db} (h : EvaluationStep ref g db db' g') :
      ActivityStep ref g db db' g'
  /-- the evaluation's first transaction -/
  | reads {db : Db} (v : Nat) : ActivityStep ref .clear db db (.reading v)
  /-- a status other than ready -/
  | marks {g : Phase} {db db' : Db} {c : LoanCase} {status : CaseStatus}
      (hstatus : status ≠ .READY_FOR_UNDERWRITING) (hc : db.findCase ref = some c)
      (hcases : db'.loanCases = db.loanCases.put (c.withStatus status))
      (hconditions : db'.conditions = db.conditions) : ActivityStep ref g db db' g
  /-- a recovery finds the one active condition -/
  | finds {db db' : Db} {condition : LoanCondition}
      (hone : db.activeConditions ref = [condition])
      (hconditions : db'.conditions = db.conditions)
      (hready : ¬ db'.isReady ref) :
      ActivityStep ref .idle db db' (.opened condition.id)
  | resolves {db db' : Db} {resolved : LoanCondition}
      (hmem : ∃ x ∈ db.conditions.rows, x.id = resolved.id)
      (hstatus : resolved.status.active = false) (hcases : db'.loanCases = db.loanCases)
      (hconditions : db'.conditions = db.conditions.put resolved) :
      ActivityStep ref (.opened resolved.id) db db' .clear
  /-- the unconditional update of `markReadyForUnderwriting` -/
  | finalizes {db db' : Db} (hconditions : db'.conditions = db.conditions) :
      ActivityStep ref .clear db db' .clear

theorem activityStep_refl (ref : CaseRef) (g : Phase) (db : Db) : ActivityStep ref g db db g :=
  .evaluation (evaluationStep_refl ref g db)

theorem activityStep_letsQuiet (ref : CaseRef) : LetsQuiet (ActivityStep ref) :=
  fun _ _ _ h => .evaluation (.quiet h)

section Preservation

variable {ref : CaseRef} {db db' : Db}

theorem holdsIn_congr (h : db'.conditions = db.conditions) {g : Phase} :
    g.HoldsIn ref db' ↔ g.HoldsIn ref db := by
  cases g <;> simp only [Phase.HoldsIn, activeConditions_congr h]

theorem conditions_setCaseStatus (db : Db) (ref : CaseRef) (status : CaseStatus) :
    (db.setCaseStatus ref status).conditions = db.conditions := by
  unfold Db.setCaseStatus
  split <;> rfl

theorem ready_of_active_nil (h : db.activeConditions ref = []) : ReadyHasNoActive ref db :=
  fun _ => h

theorem ready_of_not (h : ¬ db.isReady ref) : ReadyHasNoActive ref db := fun hready =>
  absurd hready h

theorem isReady_congr (h : db'.loanCases = db.loanCases) : db'.isReady ref ↔ db.isReady ref := by
  unfold Db.isReady
  rw [findCase_congr h]

/-- A written status other than ready is the case's. -/
theorem not_isReady_of_marked {c : LoanCase} {status : CaseStatus}
    (hstatus : status ≠ .READY_FOR_UNDERWRITING) (hc : db.findCase ref = some c)
    (hcases : db'.loanCases = db.loanCases.put (c.withStatus status)) : ¬ db'.isReady ref := by
  unfold Db.isReady
  rw [findCase_put hc hcases]
  intro h
  cases h
  exact hstatus rfl

theorem ready_congr (hcases : db'.loanCases = db.loanCases)
    (hconditions : db'.conditions = db.conditions) (h : ReadyHasNoActive ref db) :
    ReadyHasNoActive ref db' := by
  intro hready
  rw [activeConditions_congr hconditions]
  exact h ((isReady_congr hcases).mp hready)

theorem evaluationStep_keeps {g g' : Phase} (hstep : EvaluationStep ref g db db' g')
    (hg : g.HoldsIn ref db) (hready : ReadyHasNoActive ref db) :
    g'.HoldsIn ref db' ∧ ReadyHasNoActive ref db' := by
  cases hstep with
  | quiet h =>
    have hconditions := conditions_of_caseRows h
    exact ⟨(holdsIn_congr hconditions).mpr hg,
      ready_congr (loanCases_of_caseRows h) hconditions hready⟩
  | opens hc hcases hinsert hopen =>
    refine ⟨?_, ready_of_not (not_isReady_of_marked (by decide) hc hcases)⟩
    have hnone : db.activeConditions ref = [] := hg
    intro c hcond
    rw [activeConditions_insert hinsert hopen, hnone] at hcond
    rw [List.mem_singleton.mp hcond]
  | readies hc hcases hconditions =>
    have hnone : db'.activeConditions ref = [] := (activeConditions_congr hconditions).trans hg
    exact ⟨hnone, ready_of_active_nil hnone⟩

/-- Whatever an activity does, it keeps the law and what its phase says. -/
theorem activityStep_keeps {g g' : Phase} (hstep : ActivityStep ref g db db' g')
    (hg : g.HoldsIn ref db) (hready : ReadyHasNoActive ref db) :
    g'.HoldsIn ref db' ∧ ReadyHasNoActive ref db' := by
  cases hstep with
  | evaluation h => exact evaluationStep_keeps h hg hready
  | reads v => exact ⟨hg, hready⟩
  | marks hstatus hc hcases hconditions =>
    exact ⟨(holdsIn_congr hconditions).mpr hg,
      ready_of_not (not_isReady_of_marked hstatus hc hcases)⟩
  | finds hone hconditions hmarked =>
    refine ⟨?_, ready_of_not hmarked⟩
    intro c hc
    rw [activeConditions_congr hconditions, hone] at hc
    rw [List.mem_singleton.mp hc]
  | resolves hmem hstatus hcases hconditions =>
    have hnone : db'.activeConditions ref = [] := by
      rw [List.eq_nil_iff_forall_not_mem]
      intro c hc
      obtain ⟨hactive, hid⟩ := activeConditions_put hmem hconditions hstatus hc
      exact hid (hg c hactive)
    exact ⟨hnone, ready_of_active_nil hnone⟩
  | finalizes hconditions =>
    have hnone : db'.activeConditions ref = [] := (activeConditions_congr hconditions).trans hg
    exact ⟨hnone, ready_of_active_nil hnone⟩

end Preservation

/-! ## Each activity -/

/-- What the workflow knows at a point. -/
def Point.phase : Point → Phase
  | .awaitResolution conditionId | .resolveCondition conditionId _ => .opened conditionId
  | .markReadyForUnderwriting => .clear
  | _ => .idle

/-- What an activity called at a point begins with. -/
def Point.startPhase : Point → Phase
  | .evaluateConditions => .clear
  | point => point.phase

def Phase.Entails (g g' : Phase) : Prop := ∀ ref db, g.HoldsIn ref db → g'.HoldsIn ref db

theorem Phase.Entails.refl (g : Phase) : g.Entails g := fun _ _ h => h

theorem entails_idle (g : Phase) : g.Entails .idle := fun _ _ _ => trivial

theorem clear_entails_opened (id : Uuid) : Phase.clear.Entails (.opened id) := by
  intro ref db h c hc
  have hnone : db.activeConditions ref = [] := h
  rw [hnone] at hc
  cases hc

theorem startPhase_entails (point : Point) : point.startPhase.Entails point.phase := by
  cases point <;> exact fun _ _ h => by first | exact h | trivial

/-- A step of an activity whose workflow goes on knowing `own` whatever becomes of the attempt. -/
def StepKnowing (ref : CaseRef) (own g : Phase) (db db' : Db) (g' : Phase) : Prop :=
  ActivityStep ref g db db' g' ∧ (g.Entails own → g'.Entails own)

/-- The answer sends the workflow to a point that knows no more than the phase does. -/
def Knows (g : Phase) : Next → Prop
  | .goto point => g.Entails point.phase
  | .close _ => True

/-- The answer sends the workflow to a point that knows nothing, or just what the phase says; only
a signal leads to a resolution. -/
def Leads (g : Phase) : Next → Prop
  | .goto (.resolveCondition _ _) => False
  | .goto point => point.phase = .idle ∨ g = point.phase
  | .close _ => True

section Activities

variable {ref : CaseRef}

theorem Leads.phase {g : Phase} {point : Point} (h : Leads g (.goto point)) :
    point.phase = .idle ∨ g = point.phase := by
  cases point with
  | resolveCondition conditionId resolution => exact absurd h id
  | _ => exact h

theorem Leads.knows {g : Phase} {next : Next} (h : Leads g next) : Knows g next := by
  cases next with
  | close status => trivial
  | goto point =>
    rcases h.phase with hidle | hphase
    · show g.Entails point.phase
      rw [hidle]
      exact entails_idle g
    · rw [hphase]
      exact Phase.Entails.refl _

theorem stepKnowing_refl (own g : Phase) (db : Db) : StepKnowing ref own g db db g :=
  ⟨activityStep_refl ref g db, fun h => h⟩

theorem stepKnowing_letsQuiet (own : Phase) : LetsQuiet (StepKnowing ref own) :=
  fun g db db' h => ⟨activityStep_letsQuiet ref g db db' h, fun h => h⟩

/-- Most points know nothing that an attempt could spoil. -/
theorem obeys_idle {α : Type} {p : Act α} {post : Phase → Except Failure α → Prop} {g : Phase}
    (h : p.Obeys (ActivityStep ref) post g) : p.Obeys (StepKnowing ref .idle) post g :=
  h.imp (fun _ _ _ g' hstep => ⟨hstep, fun _ => entails_idle g'⟩) fun _ _ h => h

/-- Writing a status other than ready, and anything outside the two tables. -/
theorem activityStep_mark {g : Phase} {db db' : Db} {status : CaseStatus}
    (hstatus : status ≠ .READY_FOR_UNDERWRITING)
    (h : db'.caseRows = (db.setCaseStatus ref status).caseRows) : ActivityStep ref g db db' g := by
  unfold Db.setCaseStatus at h
  cases hc : db.findCase ref with
  | none =>
    rw [hc] at h
    exact activityStep_letsQuiet ref g db db' h
  | some c =>
    rw [hc] at h
    exact .marks hstatus hc (congrArg Prod.fst h) (congrArg Prod.snd h)

theorem markCase_obeys {status : CaseStatus} (hstatus : status ≠ .READY_FOR_UNDERWRITING)
    (payload : OutboxPayload) {next : Next} (hnext : Leads .idle next) :
    ((markCase ref status payload).bind fun _ => Proc.done next).Obeys (ActivityStep ref)
      (Returned Leads) .idle := by
  have hmark : (markCase ref status payload).Obeys (ActivityStep ref)
      (Returned fun g _ => g = .idle) .idle := by
    apply transaction_obeys (activityStep_refl ref _)
    intro i db db' r h
    cases h
    exact ⟨.idle, activityStep_mark hstatus rfl, rfl⟩
  apply hmark.bind
  · rintro _ _ rfl
    exact hnext
  · intro g e _
    trivial

theorem not_isReady_setCaseStatus {db : Db} {status : CaseStatus}
    (hstatus : status ≠ .READY_FOR_UNDERWRITING) : ¬ (db.setCaseStatus ref status).isReady ref := by
  unfold Db.setCaseStatus
  cases hc : db.findCase ref with
  | none =>
    unfold Db.isReady
    dsimp only
    rw [hc]
    intro h
    cases h
  | some c => exact not_isReady_of_marked hstatus hc rfl

theorem prepareWorkflowRecovery_obeys (recoveryOfRunId : String) :
    (do return afterRecovery (← prepareWorkflowRecovery ref recoveryOfRunId) : Act Next).Obeys
      (ActivityStep ref) (Returned Leads) .idle := by
  have hprepare : (prepareWorkflowRecovery ref recoveryOfRunId).Obeys (ActivityStep ref)
      (Returned fun g r => ∀ id, r = .REUSE_OPEN_CONDITION id → g = .opened id) .idle := by
    apply transaction_obeys (activityStep_refl ref _)
    intro i db db' r h
    dsimp only at h
    split at h
    · cases h
      exact ⟨.idle, activityStep_letsQuiet ref _ _ _ rfl, fun id hid => by cases hid⟩
    · rename_i condition hone
      cases h
      refine ⟨.opened condition.id, ?_, ?_⟩
      · exact .finds hone (conditions_setCaseStatus ..) (not_isReady_setCaseStatus (by decide))
      · intro id hid
        cases hid
        rfl
    · cases h
      exact ⟨.idle, activityStep_letsQuiet ref _ _ _ rfl, fun id hid => by cases hid⟩
  apply hprepare.bind
  · intro g r hr
    cases r with
    | REUSE_OPEN_CONDITION id =>
      rw [hr id rfl]
      exact Or.inr rfl
    | REVIEW_REQUIRED reason => exact Or.inl rfl
    | RESTART_COLLECTION => exact Or.inl rfl
  · intro g e _
    trivial

theorem evaluateConditions_obeys (deps : RuntimeDeps) (workflowRunId : String) :
    (evaluateConditions deps ref workflowRunId).Obeys (ActivityStep ref) (Returned OpenedIn)
      .clear := by
  have hread : (query fun db => db.findCaseOrFail ref).Obeys (ActivityStep ref)
      (Returned fun g (c : LoanCase) => g = .reading c.version) .clear := by
    apply transaction_obeys (activityStep_refl ref _)
    intro i db db' c h
    dsimp only at h
    cases hfound : db.findCaseOrFail ref with
    | error e => rw [hfound] at h; cases h
    | ok found =>
      rw [hfound] at h
      cases h
      exact ⟨.reading c.version, .reads c.version, rfl⟩
  apply hread.bind
  · rintro _ c rfl
    exact (evaluateCase_obeys deps ref workflowRunId c.version).imp
      (fun _ _ _ _ hstep => .evaluation hstep) fun _ _ h => h
  · intro g e _
    trivial

theorem evaluateActivity_obeys (deps : RuntimeDeps) (runId : String) :
    (do return afterEvaluation (← evaluateConditions deps ref runId) : Act Next).Obeys
      (ActivityStep ref) (Returned Leads) .clear := by
  apply (evaluateConditions_obeys deps runId).bind
  · intro g r hr
    cases r with
    | CONDITION_OPENED id =>
      rw [hr id rfl]
      exact Or.inr rfl
    | READY => trivial
    | REVIEW_REQUIRED reason => exact Or.inl rfl
    | INTERRUPTED reason => exact Or.inl rfl
  · intro g e _
    trivial

theorem markWorkflowCancelled_obeys :
    ((markWorkflowCancelled ref).bind fun _ => Proc.done (.close .CANCELLED)).Obeys
      (ActivityStep ref) (Returned Leads) .idle := by
  have hcancel : (markWorkflowCancelled ref).Obeys (ActivityStep ref) (Returned fun _ _ => True)
      .idle := by
    apply keeps_bind_obeys (query_keeps _) (activityStep_letsQuiet ref)
    intro loanCase
    apply transaction_obeys (activityStep_refl ref _)
    intro i db db' r h
    cases h
    refine ⟨.idle, ?_, trivial⟩
    split
    · exact activityStep_mark (by decide) rfl
    · exact activityStep_letsQuiet ref _ _ _ rfl
  apply hcancel.bind
  · intro g _ _
    trivial
  · intro g e _
    trivial

theorem resolveCondition_obeys (conditionId : Uuid) (p : ResolveConditionSignalPayload) :
    ((resolveCondition ref conditionId p).bind fun _ =>
      Proc.done (.goto .markReadyForUnderwriting)).Obeys (StepKnowing ref (.opened conditionId))
      (Returned Leads) (.opened conditionId) := by
  have hresolve : (resolveCondition ref conditionId p).Obeys
      (StepKnowing ref (.opened conditionId)) (Returned fun g _ => g = .clear)
      (.opened conditionId) := by
    apply transaction_obeys (stepKnowing_refl _ _)
    intro i db db' r h
    cases hfind : db.conditions.find conditionId with
    | none => rw [hfind] at h; cases h
    | some condition =>
      rw [hfind] at h
      cases h
      obtain ⟨hmem, rfl⟩ := db.conditions.find_eq_some_iff.mp hfind
      let resolved : LoanCondition :=
        { condition with status := p.resolution.toStatus, version := condition.version + 1 }
      have hsettled : resolved.status.active = false := by
        show p.resolution.toStatus.active = false
        cases p.resolution <;> rfl
      refine ⟨.clear, ⟨?_, fun _ => clear_entails_opened _⟩, rfl⟩
      exact @ActivityStep.resolves ref db _ resolved ⟨condition, hmem, rfl⟩ hsettled rfl rfl
  apply hresolve.bind
  · rintro _ _ rfl
    exact Or.inr rfl
  · intro g e _
    trivial

theorem markReadyForUnderwriting_obeys :
    ((markReadyForUnderwriting ref).bind fun _ => Proc.done (.close .COMPLETED)).Obeys
      (StepKnowing ref .clear) (Returned Leads) .clear := by
  have hfinalize : (finalizeReady ref none).Obeys (StepKnowing ref .clear)
      (Returned fun g _ => g = .clear) .clear := by
    apply transaction_obeys (stepKnowing_refl _ _)
    intro i db db' r h
    cases h
    exact ⟨.clear, ⟨.finalizes (conditions_setCaseStatus ..), fun h => h⟩, rfl⟩
  have hready : (markReadyForUnderwriting ref).Obeys (StepKnowing ref .clear)
      (Returned fun _ _ => True) .clear := by
    apply hfinalize.bind
    · rintro _ _ rfl
      apply (keeps_obeys sendReadyForUnderwritingNotification_keeps
        (stepKnowing_letsQuiet .clear) .clear).imp fun _ _ _ _ hstep => hstep
      intro g r _
      cases r <;> trivial
    · intro g e _
      trivial
  apply hready.bind
  · intro g _ _
    trivial
  · intro g e _
    trivial

theorem activity_leads {deps : RuntimeDeps} {runId : String} {point : Point} {p : Act Next}
    (h : activityAt deps ref runId point = some p) :
    p.Obeys (StepKnowing ref point.phase) (Returned Leads) point.startPhase := by
  cases point with
  | prepareWorkflowRecovery recoveryOfRunId =>
    cases h
    exact obeys_idle (prepareWorkflowRecovery_obeys recoveryOfRunId)
  | markCollectingEvidence =>
    cases h
    exact obeys_idle (markCase_obeys (by decide) _ (Or.inl rfl))
  | fetchEvidence pending => cases h
  | evaluateConditions =>
    cases h
    exact obeys_idle (evaluateActivity_obeys deps runId)
  | markWaitingForReview reason =>
    cases h
    exact obeys_idle (markCase_obeys (by decide) _ (Or.inl rfl))
  | awaitResume => cases h
  | markManualReview reason =>
    cases h
    exact obeys_idle (markCase_obeys (by decide) _ trivial)
  | awaitResolution conditionId => cases h
  | resolveCondition conditionId resolution =>
    cases h
    exact resolveCondition_obeys conditionId resolution
  | markReadyForUnderwriting =>
    cases h
    exact markReadyForUnderwriting_obeys
  | markWorkflowCancelled =>
    cases h
    exact obeys_idle markWorkflowCancelled_obeys

/-- **Every activity keeps to the protocol**, from what its point knows. -/
theorem activity_obeys {deps : RuntimeDeps} {runId : String} {point : Point} {p : Act Next}
    (h : activityAt deps ref runId point = some p) :
    p.Obeys (StepKnowing ref point.phase) (Returned Knows) point.startPhase := by
  apply (activity_leads h).imp fun _ _ _ _ hstep => hstep
  intro g r hr
  cases r with
  | ok next => exact Leads.knows hr
  | error e => trivial

end Activities

/-! ## The workflow -/

/-- A write that neither opens a condition nor makes the case ready. -/
structure Harmless (ref : CaseRef) (db db' : Db) : Prop where
  active : db'.activeConditions ref ⊆ db.activeConditions ref
  ready : db'.isReady ref → db.isReady ref

instance (ref : CaseRef) (db db' : Db) : Decidable (Harmless ref db db') :=
  decidable_of_iff (db'.activeConditions ref ⊆ db.activeConditions ref
      ∧ (db'.isReady ref → db.isReady ref))
    ⟨fun h => ⟨h.1, h.2⟩, fun h => ⟨h.active, h.ready⟩⟩

/-- An evaluation begins on a case without active conditions, and an attempt that Temporal has
given up on neither opens a condition nor makes the case ready. -/
def EvaluatesSettled (ref : CaseRef) (s : CaseSystem) : WorkflowLabel → Prop
  | .schedule => ∀ e ∈ s.execution, e.attempt.isNone = true → e.point = .evaluateConditions →
      s.db.activeConditions ref = []
  | .late n m => ∀ p ∈ s.abandoned[n]?, Harmless ref s.db (p.move s.db m).1
  | _ => True

instance (ref : CaseRef) (s : CaseSystem) (a : WorkflowLabel) :
    Decidable (EvaluatesSettled ref s a) := by
  cases a <;> unfold EvaluatesSettled <;> infer_instance

/-- What holds of an open execution: what its point knows is so, and the attempt under way keeps
to the protocol from a phase that says no less. -/
structure Execution.HoldsIn (e : Execution) (ref : CaseRef) (db : Db) : Prop where
  point : e.point.phase.HoldsIn ref db
  attempt : ∀ p, e.attempt = some p → ∃ g : Phase, p.Obeys (StepKnowing ref e.point.phase)
    (Returned Knows) g ∧ g.Entails e.point.phase ∧ g.HoldsIn ref db

structure CaseInv (ref : CaseRef) (s : CaseSystem) : Prop where
  ready : ReadyHasNoActive ref s.db
  execution : ∀ e, s.execution = some e → e.HoldsIn ref s.db

section Workflow

variable {deps : RuntimeDeps} {ref : CaseRef} {s : CaseSystem} {e : Execution}

theorem harmless_of_caseRows {db db' : Db} (h : db'.caseRows = db.caseRows) :
    Harmless ref db db' where
  active := by
    rw [activeConditions_congr (conditions_of_caseRows h)]
    exact List.Subset.refl _
  ready := (isReady_congr (loanCases_of_caseRows h)).mp

theorem escalateToReviewer_harmless (db : Db) (reason : String) (expectedCaseVersion : Nat) :
    Harmless ref db (escalateToReviewer db ref reason expectedCaseVersion) := by
  unfold escalateToReviewer
  split
  · split
    · split
      · rename_i db' hset
        obtain ⟨c, hc, -, rfl⟩ := setCaseStatusAt_some hset
        refine ⟨List.Subset.refl _, fun hready => ?_⟩
        exact absurd hready (not_isReady_of_marked (by decide) hc rfl)
      · exact harmless_of_caseRows rfl
    · exact harmless_of_caseRows rfl
  · exact harmless_of_caseRows rfl

theorem Harmless.holdsIn {db db' : Db} (h : Harmless ref db db') {g : Phase}
    (hg : g.HoldsIn ref db) : g.HoldsIn ref db' := by
  have hnil : db.activeConditions ref = [] → db'.activeConditions ref = [] := by
    intro hnone
    have hsub := h.active
    rw [hnone] at hsub
    exact List.subset_nil.mp hsub
  cases g with
  | idle => trivial
  | reading v => exact hnil hg
  | clear => exact hnil hg
  | opened id => exact fun c hc => hg c (h.active hc)

/-- A harmless write of anyone keeps the invariant. -/
theorem CaseInv.of_harmless (h : CaseInv ref s) {db' : Db} (hdb : Harmless ref s.db db')
    (abandoned : List (Act Next)) : CaseInv ref { s with db := db', abandoned } where
  ready := by
    intro hready
    have hnone : Phase.clear.HoldsIn ref s.db := h.ready (hdb.ready hready)
    exact hdb.holdsIn hnone
  execution := by
    intro e he
    have hin := h.execution e he
    refine ⟨hdb.holdsIn hin.point, ?_⟩
    intro p hp
    obtain ⟨g, hobeys, hentails, hg⟩ := hin.attempt p hp
    exact ⟨g, hobeys, hentails, hdb.holdsIn hg⟩

/-- An execution that calls its activity afresh, or waits. -/
theorem caseInv_fresh (hready : ReadyHasNoActive ref s.db) (hnone : e.attempt = none)
    (hpoint : e.point.phase.HoldsIn ref s.db) : CaseInv ref (s.withExecution e) := by
  refine ⟨hready, ?_⟩
  intro e' he'
  cases he'
  refine ⟨hpoint, ?_⟩
  intro p hp
  rw [hnone] at hp
  cases hp

theorem caseInv_close (hready : ReadyHasNoActive ref s.db) (status : CloseStatus) :
    CaseInv ref (s.close e status) :=
  ⟨hready, fun _ he => by cases he⟩

theorem caseInv_proceed (hready : ReadyHasNoActive ref s.db) {g : Phase} {next : Next}
    (hknows : Knows g next) (hg : g.HoldsIn ref s.db) : CaseInv ref (s.proceed e next) := by
  cases next with
  | goto point => exact caseInv_fresh hready rfl (hknows ref s.db hg)
  | close status => exact caseInv_close hready status

theorem caseInv_attemptFailed (hready : ReadyHasNoActive ref s.db)
    (hpoint : e.point.phase.HoldsIn ref s.db) : CaseInv ref (s.attemptFailed e) := by
  have hknows : Knows .idle (onActivityFailure e.point) := by
    cases e.point <;> first | trivial | exact entails_idle _
  unfold CaseSystem.attemptFailed
  split
  · exact caseInv_fresh hready rfl hpoint
  · exact caseInv_proceed hready hknows trivial

/-- Whatever an attempt has come to, having kept to the protocol. -/
theorem caseInv_attempted (hready : ReadyHasNoActive ref s.db) {g : Phase} {p : Act Next}
    (hobeys : p.Obeys (StepKnowing ref e.point.phase) (Returned Knows) g)
    (hentails : g.Entails e.point.phase) (hg : g.HoldsIn ref s.db) :
    CaseInv ref (s.attempted e p) := by
  have hpoint := hentails ref s.db hg
  cases p with
  | done next => exact caseInv_proceed hready hobeys hg
  | fail failure => exact caseInv_attemptFailed hready hpoint
  | step write next handler =>
    refine ⟨hready, ?_⟩
    intro e' he'
    cases he'
    refine ⟨hpoint, ?_⟩
    intro p hp
    cases hp
    exact ⟨g, hobeys, hentails, hg⟩

theorem startPhase_holdsIn (hpoint : e.point.phase.HoldsIn ref s.db)
    (hstart : e.point = .evaluateConditions → s.db.activeConditions ref = []) :
    e.point.startPhase.HoldsIn ref s.db := by
  by_cases heval : e.point = .evaluateConditions
  · rw [heval]
    exact hstart heval
  · have hsame : e.point.startPhase = e.point.phase := by
      cases hp : e.point <;> first | rfl | exact absurd hp heval
    rw [hsame]
    exact hpoint

theorem CaseInv.map (h : CaseInv ref s) {f : Execution → Execution}
    (hf : ∀ e, e.HoldsIn ref s.db → (f e).HoldsIn ref s.db) :
    CaseInv ref { s with execution := s.execution.map f } := by
  refine ⟨h.ready, ?_⟩
  intro e' he'
  obtain ⟨e, he, rfl⟩ := Option.map_eq_some_iff.mp he'
  exact hf e (h.execution e he)

/-- The collection knows nothing, and neither does the evaluation it leads to. -/
theorem collected_holdsIn {db : Db} (h : e.HoldsIn ref db) (factType : EvidenceType) :
    (e.collected factType).HoldsIn ref db := by
  unfold Execution.collected
  split
  · rename_i pending hpoint
    split
    · exact ⟨trivial, fun p hp => by cases hp⟩
    · refine ⟨trivial, ?_⟩
      intro p hp
      obtain ⟨g, hobeys, -, hg⟩ := h.attempt p hp
      rw [hpoint] at hobeys
      exact ⟨g, hobeys, entails_idle g, hg⟩
  · exact h

/-- The invariant is kept by every step that meets the condition. -/
theorem caseInv_step (s : CaseSystem) (a : WorkflowLabel) (h : CaseInv ref s)
    (hsettled : EvaluatesSettled ref s a) : CaseInv ref (workflowStep deps ref s a) := by
  have hcase := workflowStep_case deps ref s a
  generalize workflowStep deps ref s a = s' at hcase ⊢
  cases hcase with
  | stays _ => exact h
  | started _ _ => exact caseInv_fresh h.ready rfl trivial
  | recovered _ _ _ => exact caseInv_fresh h.ready rfl trivial
  | cancelled _ _ => exact caseInv_fresh h.ready rfl trivial
  | closed e _ status => exact caseInv_close (s := s.abandon e) h.ready status
  | scheduled e he p hidle hactivity =>
    have hin := h.execution e he
    have hstart := startPhase_holdsIn hin.point (hsettled e he (by rw [hidle]; rfl))
    refine ⟨h.ready, ?_⟩
    intro e' he'
    cases he'
    refine ⟨hin.point, ?_⟩
    intro p' hp'
    cases hp'
    exact ⟨_, activity_obeys hactivity, startPhase_entails e.point, hstart⟩
  | moved e he p hp m =>
    obtain ⟨g, hobeys, hentails, hg⟩ := (h.execution e he).attempt p hp
    obtain ⟨g', hstep, hrest⟩ := hobeys.move (stepKnowing_refl _) s.db m
    obtain ⟨hg', hready⟩ := activityStep_keeps hstep.1 hg h.ready
    exact caseInv_attempted hready hrest (hstep.2 hentails) hg'
  | timedOut e he _ _ => exact caseInv_attemptFailed h.ready (h.execution e he).point
  | wentOn n m p hp => exact h.of_harmless (hsettled p hp) _
  | evidence fact =>
    let recorded := { fact with tenantId := ref.tenantId, caseId := ref.caseId }
    have hrows : (recordEvidence s.db ref recorded).caseRows = s.db.caseRows := rfl
    have hrecorded := h.of_harmless (harmless_of_caseRows hrows) s.abandoned
    exact hrecorded.map fun e he => collected_holdsIn he fact.factType
  | evidenceFailed _ _ _ _ _ => exact caseInv_fresh h.ready rfl trivial
  | resolutionSignalled payload => exact h.map fun e he => ⟨he.point, he.attempt⟩
  | resumeSignalled actorId => exact h.map fun e he => ⟨he.point, he.attempt⟩
  | resolved e he conditionId payload hpoint _ =>
    have hin := (h.execution e he).point
    rw [hpoint] at hin
    exact caseInv_fresh h.ready rfl hin
  | resumed _ _ _ => exact caseInv_fresh h.ready rfl trivial
  | escalated reason expectedCaseVersion =>
    exact h.of_harmless (escalateToReviewer_harmless s.db reason expectedCaseVersion) s.abandoned

end Workflow

/-- **A case that is ready has no active condition**, after every history of its workflow whose
evaluations begin without one. -/
theorem ready_has_no_active (deps : RuntimeDeps) (ref : CaseRef) (db : Db)
    (run : List WorkflowLabel) (hinit : ReadyHasNoActive ref db)
    (h : AllSteps (workflowStep deps ref) (EvaluatesSettled ref) { db } run) :
    ReadyHasNoActive ref (exec (workflowStep deps ref) { db } run).db := by
  have hinv : CaseInv ref { db } := ⟨hinit, fun _ he => by cases he⟩
  exact (exec_inv_of_allSteps caseInv_step hinv h).ready

/-! ## A case that is evaluated twice -/

/-- The arithmetic at the stated income of 5000: verified as 5000 it is met, as 6000 it is off by
20 percent. -/
def incomeDeps : RuntimeDeps where
  arith := {
    differencePercent := fun left right => some (if left = right then .zero else .scaled 2 1)
    toFixed2 := fun d => if d = some .zero then "0.00" else "20.00" }

/-- What the five evidence activities record, with the income as verified at a time. -/
def verifiedEvidence (monthlyIncome : JsDecimal) (observedAt : Instant) : List EvidenceFact :=
  [{ sampleFact 40 .INCOME (.obj [("monthlyIncome", .num monthlyIncome)]) with observedAt },
    sampleFact 41 .CREDIT (.obj []), sampleFact 42 .DOCUMENT (.obj []),
    sampleFact 43 .ASSET (.obj []), sampleFact 44 .IDENTITY (.obj [])]

/-- A worker takes up the activity, and `count` of its transactions commit. -/
def attempt (input : Nat → Input) (first count : Nat) : List WorkflowLabel :=
  .schedule :: (List.range' first count).map fun n => .move (.commit (input n))

/-- A workflow is started and collects its evidence. -/
def collection (runId : String) (first : Nat) (evidence : List EvidenceFact) :
    List WorkflowLabel :=
  .startWorkflow runId :: attempt sampleInput first 1 ++ evidence.map .evidence

/-- The communications service refuses every draft. -/
def draftBlocked (n : Nat) : Input :=
  { sampleInput n with draft := fun _ => .error (.other "no approved template") }

def sampleSystem (run : List WorkflowLabel) : CaseSystem :=
  exec (workflowStep incomeDeps sampleRef) { db := sampleDb .DRAFT [] } run

/-- The first evaluation times out, the second opens a condition while the first goes on, and the
condition is satisfied. -/
def satisfiedRun : List WorkflowLabel :=
  collection "run-1" 0 (verifiedEvidence (.scaled 6 3) 1786795000000)
    ++ attempt sampleInput 1 10 ++ .timeout :: attempt sampleInput 20 35
    ++ [.late 0 (.commit (sampleInput 60)),
      .resolveConditionSignal { actorId := "underwriter-1", resolution := .SATISFIED, reason := none },
      .wake]
    ++ attempt sampleInput 61 1 ++ attempt sampleInput 62 2

theorem ready_has_no_active_satisfiedRun :
    ReadyHasNoActive sampleRef (sampleSystem satisfiedRun).db
      ∧ (sampleSystem satisfiedRun).db.isReady sampleRef :=
  ⟨ready_has_no_active incomeDeps sampleRef (sampleDb .DRAFT []) satisfiedRun (by decide)
    (by decide +kernel), by decide +kernel⟩

/-- The draft for an opened condition is blocked and the run ends in manual review; a second run
verifies the income as stated. -/
def restartedRun : List WorkflowLabel :=
  collection "run-1" 0 (verifiedEvidence (.scaled 6 3) 1786795000000)
    ++ attempt draftBlocked 1 35 ++ attempt sampleInput 36 1
    ++ collection "run-2" 40 (verifiedEvidence (.scaled 5 3) 1786795100000)
    ++ attempt sampleInput 41 26

theorem restart_leaves_condition_open :
    ((sampleSystem restartedRun).db.activeConditions sampleRef).map (·.id) = [128]
      ∧ (sampleSystem restartedRun).db.isReady sampleRef
      ∧ ¬ ReadyHasNoActive sampleRef (sampleSystem restartedRun).db := by
  have hactive : ((sampleSystem restartedRun).db.activeConditions sampleRef).map (·.id) = [128] := by
    decide +kernel
  have hready : (sampleSystem restartedRun).db.isReady sampleRef := by decide +kernel
  refine ⟨hactive, hready, ?_⟩
  intro h
  rw [h hready] at hactive
  cases hactive

end MortgageAgent.Workflow
