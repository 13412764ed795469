import MortgageAgent.Workflow.Evaluation
import MortgageAgent.Workflow.System

/-!
# The workflows of many cases

A worker serves the workflows of every case over one store, and their transactions interleave. The
fleet is that store with one machine for each case; a step of the fleet is a step of one of the
machines, on the store the others have left.

* **`Fleet`** / **`fleetStep`** — the machines over one store.
* **`AllowsWorkflow`** — the relations on stores that all of a workflow's transactions stay within:
  one field for each of them.
* **`within_step`** / **`fleet_within`** — the rule for a step of one workflow, and for whole runs
  of the fleet.
-/

namespace MortgageAgent.Workflow

open Runs

structure Fleet where
  db : Db
  cases : List (CaseRef × CaseSystem) := []

/-- The `n`-th machine takes a step, on the store of the fleet. -/
def fleetStep (deps : RuntimeDeps) (f : Fleet) (a : Nat × WorkflowLabel) : Fleet :=
  match f.cases[a.1]? with
  | none => f
  | some (ref, s) =>
    let s' := workflowStep deps ref { s with db := f.db } a.2
    { db := s'.db, cases := f.cases.set a.1 (ref, s') }

/-- Nothing has been started yet. -/
def Fleet.idle (db : Db) (refs : List CaseRef) : Fleet where
  db := db
  cases := refs.map fun ref => (ref, { db })

/-- What every transaction of every workflow stays within. -/
class AllowsWorkflow (R : Db → Db → Prop) : Prop extends AllowsDecision R where
  trans : ∀ {db db' db''}, R db db' → R db' db'' → R db db''
  markCollectingEvidence : ∀ ref, (markCollectingEvidence ref).Keeps R
  markWaitingForReview : ∀ ref reason, (markWaitingForReview ref reason).Keeps R
  markManualReview : ∀ ref reason, (markManualReview ref reason).Keeps R
  markWorkflowCancelled : ∀ ref, (markWorkflowCancelled ref).Keeps R
  prepareWorkflowRecovery : ∀ ref recoveryOfRunId,
    (prepareWorkflowRecovery ref recoveryOfRunId).Keeps R
  resolveCondition : ∀ ref conditionId p, (resolveCondition ref conditionId p).Keeps R
  recordEvidence : ∀ db ref (fact : EvidenceFact),
    R db (recordEvidence db ref { fact with tenantId := ref.tenantId, caseId := ref.caseId })
  escalateToReviewer : ∀ db ref reason expectedCaseVersion,
    R db (escalateToReviewer db ref reason expectedCaseVersion)

/-- The attempt under way and those that go on beside it. -/
structure Within (R : Db → Db → Prop) (s : CaseSystem) : Prop where
  attempt : ∀ e, s.execution = some e → ∀ p, e.attempt = some p → p.Keeps R
  abandoned : ∀ p ∈ s.abandoned, p.Keeps R

section Machine

variable {R : Db → Db → Prop} {deps : RuntimeDeps} {ref : CaseRef} {s : CaseSystem} {e : Execution}

theorem activity_within [AllowsWorkflow R] {runId : String} {point : Point} {p : Act Next}
    (h : activityAt deps ref runId point = some p) : p.Keeps R := by
  cases point with
  | prepareWorkflowRecovery recoveryOfRunId =>
    cases h
    exact (AllowsWorkflow.prepareWorkflowRecovery ref _).bind fun _ => Proc.keeps_done _
  | markCollectingEvidence =>
    cases h
    exact (AllowsWorkflow.markCollectingEvidence ref).bind fun _ => Proc.keeps_done _
  | evaluateConditions =>
    cases h
    exact (evaluateConditions_keeps deps ref runId).bind fun _ => Proc.keeps_done _
  | markWaitingForReview reason =>
    cases h
    exact (AllowsWorkflow.markWaitingForReview ref reason).bind fun _ => Proc.keeps_done _
  | markManualReview reason =>
    cases h
    exact (AllowsWorkflow.markManualReview ref reason).bind fun _ => Proc.keeps_done _
  | resolveCondition conditionId resolution =>
    cases h
    exact (AllowsWorkflow.resolveCondition ref conditionId _).bind fun _ => Proc.keeps_done _
  | markReadyForUnderwriting =>
    cases h
    apply Proc.Keeps.bind _ fun _ => Proc.keeps_done _
    exact (finalizeReady_keeps ref none).bind fun _ => sendReadyForUnderwritingNotification_keeps
  | markWorkflowCancelled =>
    cases h
    exact (AllowsWorkflow.markWorkflowCancelled ref).bind fun _ => Proc.keeps_done _
  | fetchEvidence pending => cases h
  | awaitResume => cases h
  | awaitResolution conditionId => cases h

/-- The code has gone on to a point where nothing is under way yet. -/
theorem Within.fresh (h : Within R s) (hnone : e.attempt = none) : Within R (s.withExecution e) where
  attempt e' he' p hp := by
    cases he'
    rw [hnone] at hp
    cases hp
  abandoned := h.abandoned

theorem Within.close (h : Within R s) (status : CloseStatus) : Within R (s.close e status) where
  attempt e' he' := by cases he'
  abandoned := h.abandoned

theorem Within.proceed (h : Within R s) (next : Next) : Within R (s.proceed e next) := by
  cases next with
  | goto point => exact h.fresh rfl
  | close status => exact h.close status

theorem Within.attemptFailed (h : Within R s) : Within R (s.attemptFailed e) := by
  unfold CaseSystem.attemptFailed
  split
  · exact h.fresh rfl
  · exact h.proceed _

theorem Within.attempted (h : Within R s) {p : Act Next} (hp : p.Keeps R) :
    Within R (s.attempted e p) := by
  cases p with
  | done next => exact h.proceed next
  | fail failure => exact h.attemptFailed
  | step write next handler =>
    refine ⟨fun e' he' p' hp' => ?_, h.abandoned⟩
    cases he'
    cases hp'
    exact hp

theorem Within.abandon (h : Within R s) (he : s.execution = some e) : Within R (s.abandon e) := by
  refine ⟨h.attempt, fun p hp => ?_⟩
  rcases List.mem_append.mp hp with hp | hp
  · exact h.abandoned p hp
  · exact h.attempt e he p (Option.mem_toList.mp hp)

theorem Within.withDb (h : Within R s) (db : Db) : Within R { s with db } :=
  ⟨h.attempt, h.abandoned⟩

/-- The signal handlers and the collection change no attempt. -/
theorem Within.mapExecution (h : Within R s) (db : Db) {f : Execution → Execution}
    (hf : ∀ e p, (f e).attempt = some p → e.attempt = some p) :
    Within R { s with db, execution := s.execution.map f } := by
  refine ⟨fun e' he' p hp => ?_, h.abandoned⟩
  obtain ⟨e, he, rfl⟩ := Option.map_eq_some_iff.mp he'
  exact h.attempt e he p (hf e p hp)

/-- **One step of a workflow stays within `R`**, and so do the attempts it leaves. -/
theorem within_step [AllowsWorkflow R] (h : Within R s) (a : WorkflowLabel) :
    R s.db (workflowStep deps ref s a).db ∧ Within R (workflowStep deps ref s a) := by
  have hrefl : R s.db s.db := AllowsRun.refl s.db
  have hcase := workflowStep_case deps ref s a
  generalize workflowStep deps ref s a = s' at hcase ⊢
  cases hcase with
  | stays _ => exact ⟨hrefl, h⟩
  | started _ _ => exact ⟨hrefl, h.fresh rfl⟩
  | recovered _ _ _ => exact ⟨hrefl, h.fresh rfl⟩
  | cancelled e he => exact ⟨hrefl, (h.abandon he).fresh rfl⟩
  | closed e he status => exact ⟨hrefl, (h.abandon he).close status⟩
  | scheduled e he p _ hactivity =>
    refine ⟨hrefl, fun e' he' p' hp' => ?_, h.abandoned⟩
    cases he'
    cases hp'
    exact activity_within hactivity
  | moved e he p hp m =>
    have hmove := (h.attempt e he p hp).move AllowsRun.refl s.db m
    rw [attempted_db]
    exact ⟨hmove.1, (h.withDb _).attempted hmove.2⟩
  | timedOut e he p hp =>
    rw [attemptFailed_db]
    exact ⟨hrefl, (h.abandon he).attemptFailed⟩
  | wentOn n m p hp =>
    have hmove := (h.abandoned p (List.mem_of_getElem? hp)).move AllowsRun.refl s.db m
    refine ⟨hmove.1, h.attempt, fun q hq => ?_⟩
    rcases List.mem_or_eq_of_mem_set hq with hq | rfl
    · exact h.abandoned q hq
    · exact hmove.2
  | evidence fact =>
    exact ⟨AllowsWorkflow.recordEvidence s.db ref fact, h.mapExecution _ fun _ _ => collected_attempt⟩
  | evidenceFailed _ _ _ _ _ => exact ⟨hrefl, h.fresh rfl⟩
  | resolutionSignalled payload => exact ⟨hrefl, h.mapExecution _ fun _ _ hp => hp⟩
  | resumeSignalled actorId => exact ⟨hrefl, h.mapExecution _ fun _ _ hp => hp⟩
  | resolved _ _ _ _ _ _ => exact ⟨hrefl, h.fresh rfl⟩
  | resumed _ _ _ => exact ⟨hrefl, h.fresh rfl⟩
  | escalated reason expectedCaseVersion =>
    exact ⟨AllowsWorkflow.escalateToReviewer s.db ref _ _, h.withDb _⟩

end Machine

/-! ## The fleet -/

def FleetWithin (R : Db → Db → Prop) (f : Fleet) : Prop := ∀ c ∈ f.cases, Within R c.2

section Fleet

variable {R : Db → Db → Prop} [AllowsWorkflow R]

omit [AllowsWorkflow R] in
theorem fleetWithin_idle (db : Db) (refs : List CaseRef) : FleetWithin R (.idle db refs) := by
  intro c hc
  obtain ⟨ref, -, rfl⟩ := List.mem_map.mp hc
  exact ⟨fun e he => (by cases he), fun p hp => (by cases hp)⟩

/-- The next step of the fleet. -/
theorem fleetWithin_step (deps : RuntimeDeps) {f : Fleet} (h : FleetWithin R f)
    (a : Nat × WorkflowLabel) :
    R f.db (fleetStep deps f a).db ∧ FleetWithin R (fleetStep deps f a) := by
  unfold fleetStep
  split
  · exact ⟨AllowsRun.refl f.db, h⟩
  · next ref s hs =>
    have hwithin : Within R { s with db := f.db } :=
      (h _ (List.mem_of_getElem? hs)).withDb f.db
    have hstep : R f.db (workflowStep deps ref { s with db := f.db } a.2).db
        ∧ Within R (workflowStep deps ref { s with db := f.db } a.2) := within_step hwithin a.2
    refine ⟨hstep.1, fun c hc => ?_⟩
    rcases List.mem_or_eq_of_mem_set hc with hc | rfl
    · exact h c hc
    · exact hstep.2

/-- **Every run of the fleet stays within `R`.** -/
theorem fleet_within (deps : RuntimeDeps) (db : Db) (refs : List CaseRef)
    (run : List (Nat × WorkflowLabel)) :
    R db (exec (fleetStep deps) (.idle db refs) run).db := by
  have hinv : FleetWithin R (exec (fleetStep deps) (.idle db refs) run)
      ∧ R db (exec (fleetStep deps) (.idle db refs) run).db := by
    refine exec_inv (I := fun f => FleetWithin R f ∧ R db f.db) (fun f a hf => ?_)
      ⟨fleetWithin_idle db refs, AllowsRun.refl db⟩ run
    have hstep := fleetWithin_step deps hf.1 a
    exact ⟨hstep.2, AllowsWorkflow.trans hf.2 hstep.1⟩
  exact hinv.2

end Fleet

end MortgageAgent.Workflow
