import MortgageAgent.Lib.Run
import MortgageAgent.Workflow.Evaluation

/-!
# Resolving a condition more than once

Temporal executes `resolveCondition` at least once. Each execution is one transaction, which may
be lost, or commit and never be reported; then another execution follows. The activity writes the
new status, a transition and an event whatever the condition's status is, so every execution that
commits leaves a transition and an event of its own.

* **`resolveOnce`** — one execution.
* **`ResolvedOnce`** — one transition, from an active status to a settled one, and one event.
* **`exec_resolve`** — the records a run of executions leaves.
* **`resolved_once_iff`** — the records are those of one resolution exactly when one execution
  commits, on an active condition.
* **`retry_resolves_twice`** — a commit that was not reported, and the retry.
-/

namespace MortgageAgent.Workflow

open Runs

/-- One execution of the activity. -/
def resolveOnce (ref : CaseRef) (conditionId : Uuid) (p : ResolveConditionSignalPayload) (db : Db)
    (m : Proc.Move Input Failure) : Db :=
  ((resolveCondition ref conditionId p).move db m).1

/-- The condition's transitions that were not there before. -/
def transitionsSince (conditionId : Uuid) (before db : Db) : List ConditionTransition :=
  (db.transitions.drop before.transitions.length).filter fun t => t.conditionId = conditionId

def OutboxPayload.resolves (conditionId : Uuid) : OutboxPayload → Bool
  | .conditionSatisfied id _ _ | .conditionWaived id _ _ => id = conditionId
  | _ => false

/-- The condition's resolution events that were not there before. -/
def resolutionsSince (conditionId : Uuid) (before db : Db) : List OutboxEvent :=
  (db.outbox.drop before.outbox.length).filter fun e => e.payload.resolves conditionId

/-- The audit trail and the webhook consumers see one resolution. -/
structure ResolvedOnce (conditionId : Uuid) (before db : Db) : Prop where
  transition : ∃ t, transitionsSince conditionId before db = [t] ∧ t.fromStatus.active = true
    ∧ (t.toStatus = .SATISFIED ∨ t.toStatus = .WAIVED)
  event : (resolutionsSince conditionId before db).length = 1

/-! ## What executions leave behind -/

section

variable {ref : CaseRef} {conditionId : Uuid} {p : ResolveConditionSignalPayload}

/-- The transition an execution records. -/
def resolution (conditionId : Uuid) (p : ResolveConditionSignalPayload)
    (fromStatus : ConditionStatus) : ConditionTransition where
  conditionId := conditionId
  fromStatus := fromStatus
  toStatus := p.resolution.toStatus
  actorId := p.actorId
  reason := p.reason

/-- The transitions of `n` executions that commit: all but the first find the condition
settled. -/
def resolutions (conditionId : Uuid) (p : ResolveConditionSignalPayload)
    (fromStatus : ConditionStatus) : Nat → List ConditionTransition
  | 0 => []
  | n + 1 => resolution conditionId p fromStatus :: resolutions conditionId p p.resolution.toStatus n

def resolutionEvent (ref : CaseRef) (conditionId : Uuid) (p : ResolveConditionSignalPayload) :
    OutboxEvent where
  tenantId := ref.tenantId
  caseId := ref.caseId
  payload := resolvedEvent conditionId p

theorem conditionId_of_mem {fromStatus : ConditionStatus} {n : Nat} {t : ConditionTransition}
    (h : t ∈ resolutions conditionId p fromStatus n) : t.conditionId = conditionId := by
  induction n generalizing fromStatus with
  | zero => cases h
  | succ n ih =>
    rcases List.mem_cons.mp h with rfl | h
    · rfl
    · exact ih h

/-- An execution whose transaction is lost changes nothing. -/
theorem resolveOnce_lost {db : Db} {m : Proc.Move Input Failure} (h : m.commits = false) :
    resolveOnce ref conditionId p db m = db := by
  cases m with
  | commit i => cases h
  | lose e => rfl
  | unreported i e => cases h

theorem resolveOnce_none {db : Db} (h : db.conditions.find conditionId = none)
    (m : Proc.Move Input Failure) : resolveOnce ref conditionId p db m = db := by
  cases m <;>
    simp [resolveOnce, resolveCondition, transaction, Proc.tx, Proc.move, h]

/-- What the store is after an execution that commits. -/
structure Resolves (ref : CaseRef) (conditionId : Uuid) (p : ResolveConditionSignalPayload)
    (condition : LoanCondition) (db db' : Db) : Prop where
  found : ∃ c, db'.conditions.find conditionId = some c ∧ c.status = p.resolution.toStatus
  transitions : db'.transitions = db.transitions ++ [resolution conditionId p condition.status]
  outbox : db'.outbox = db.outbox ++ [resolutionEvent ref conditionId p]

theorem resolveOnce_some {db : Db} {condition : LoanCondition}
    (h : db.conditions.find conditionId = some condition) {m : Proc.Move Input Failure}
    (hm : m.commits = true) :
    Resolves ref conditionId p condition db (resolveOnce ref conditionId p db m) := by
  let resolved : LoanCondition :=
    { condition with status := p.resolution.toStatus, version := condition.version + 1 }
  obtain ⟨hmem, hid⟩ := db.conditions.find_eq_some_iff.mp h
  have hfound : (db.conditions.put resolved).find conditionId = some resolved := by
    have hput := db.conditions.mem_put (r := resolved) (x := resolved) ⟨condition, hmem, rfl⟩
    exact Table.find_eq_some_iff _ |>.mpr ⟨hput.mpr (Or.inl rfl), hid⟩
  have hdb : resolveOnce ref conditionId p db m
      = ({ db with
          conditions := db.conditions.put resolved
          transitions := db.transitions ++ [resolution conditionId p condition.status] }
        : Db).writeOutboxEvent ref (resolvedEvent conditionId p) := by
    cases m with
    | commit i =>
      simp [resolveOnce, resolveCondition, transaction, Proc.tx, Proc.move, h, resolution, resolved]
    | lose e => cases hm
    | unreported i e =>
      simp [resolveOnce, resolveCondition, transaction, Proc.tx, Proc.move, h, resolution, resolved]
  rw [hdb]
  exact ⟨⟨resolved, hfound, rfl⟩, rfl, rfl⟩

/-- How many executions commit. -/
def commitCount (executions : List (Proc.Move Input Failure)) : Nat :=
  (executions.filter Proc.Move.commits).length

/-- **The records of a run of executions.** -/
theorem exec_resolve {db : Db} {condition : LoanCondition}
    (h : db.conditions.find conditionId = some condition)
    (executions : List (Proc.Move Input Failure)) :
    let db' := exec (resolveOnce ref conditionId p) db executions
    db'.transitions
        = db.transitions ++ resolutions conditionId p condition.status (commitCount executions)
      ∧ db'.outbox = db.outbox
        ++ List.replicate (commitCount executions) (resolutionEvent ref conditionId p) := by
  induction executions generalizing db condition with
  | nil => exact ⟨(List.append_nil _).symm, (List.append_nil _).symm⟩
  | cons m executions ih =>
    dsimp only [exec_cons]
    cases hm : m.commits with
    | false =>
      have hcount : commitCount (m :: executions) = commitCount executions := by
        simp [commitCount, hm]
      rw [resolveOnce_lost hm, hcount]
      exact ih h
    | true =>
      have hcount : commitCount (m :: executions) = commitCount executions + 1 := by
        simp [commitCount, hm]
      have hresolves : Resolves ref conditionId p condition db _ := resolveOnce_some h hm
      obtain ⟨c, hc, hstatus⟩ := hresolves.found
      have hrest := ih hc
      rw [hresolves.transitions, hresolves.outbox, hstatus] at hrest
      rw [hcount, List.replicate_succ]
      refine ⟨hrest.1.trans ?_, hrest.2.trans ?_⟩
      · rw [List.append_assoc, List.singleton_append, resolutions]
      · rw [List.append_assoc, List.singleton_append]

theorem exec_resolve_none {db : Db} (h : db.conditions.find conditionId = none)
    (executions : List (Proc.Move Input Failure)) :
    exec (resolveOnce ref conditionId p) db executions = db := by
  induction executions with
  | nil => rfl
  | cons m executions ih =>
    rw [exec_cons, resolveOnce_none h]
    exact ih

theorem resolves_resolvedEvent : (resolvedEvent conditionId p).resolves conditionId = true := by
  unfold resolvedEvent
  cases p.resolution <;> simp [OutboxPayload.resolves]

theorem since_exec {db : Db} {condition : LoanCondition}
    (h : db.conditions.find conditionId = some condition)
    (executions : List (Proc.Move Input Failure)) :
    let db' := exec (resolveOnce ref conditionId p) db executions
    transitionsSince conditionId db db'
        = resolutions conditionId p condition.status (commitCount executions)
      ∧ (resolutionsSince conditionId db db').length = commitCount executions := by
  intro db'
  obtain ⟨htransitions, houtbox⟩ :
      db'.transitions
          = db.transitions ++ resolutions conditionId p condition.status (commitCount executions)
        ∧ db'.outbox = db.outbox
          ++ List.replicate (commitCount executions) (resolutionEvent ref conditionId p) :=
    exec_resolve h executions
  constructor
  · unfold transitionsSince
    rw [htransitions, List.drop_left, List.filter_eq_self]
    intro t ht
    exact decide_eq_true (conditionId_of_mem ht)
  · unfold resolutionsSince
    rw [houtbox, List.drop_left, List.filter_eq_self.mpr, List.length_replicate]
    intro e he
    rw [List.eq_of_mem_replicate he]
    exact resolves_resolvedEvent

end

/-- **One resolution is recorded exactly when one execution commits**, and finds the condition
active. -/
theorem resolved_once_iff (ref : CaseRef) (conditionId : Uuid) (p : ResolveConditionSignalPayload)
    (db : Db) (executions : List (Proc.Move Input Failure)) :
    ResolvedOnce conditionId db (exec (resolveOnce ref conditionId p) db executions)
      ↔ (db.conditions.find conditionId).any (·.status.active) = true
        ∧ commitCount executions = 1 := by
  cases hc : db.conditions.find conditionId with
  | none =>
    rw [exec_resolve_none hc]
    constructor
    · intro h
      obtain ⟨t, ht, -⟩ := h.transition
      simp [transitionsSince] at ht
    · rintro ⟨h, -⟩
      cases h
  | some condition =>
    let db' := exec (resolveOnce ref conditionId p) db executions
    obtain ⟨htransitions, hevents⟩ :
        transitionsSince conditionId db db'
            = resolutions conditionId p condition.status (commitCount executions)
          ∧ (resolutionsSince conditionId db db').length = commitCount executions :=
      since_exec hc executions
    constructor
    · intro h
      have hcount : commitCount executions = 1 := hevents.symm.trans h.event
      obtain ⟨t, ht, hactive, -⟩ := h.transition
      rw [htransitions, hcount] at ht
      cases ht
      exact ⟨hactive, hcount⟩
    · rintro ⟨hactive, hcount⟩
      rw [hcount] at htransitions hevents
      refine ⟨⟨_, htransitions, hactive, ?_⟩, hevents⟩
      unfold resolution
      cases p.resolution with
      | SATISFIED => exact Or.inl rfl
      | WAIVED => exact Or.inr rfl

/-! ## A commit that was not reported -/

def sampleCondition : LoanCondition where
  id := 50
  tenantId := 1
  caseId := 10
  code := "VERIFY_INCOME_DISCREPANCY"
  description := "20.00"
  status := .OPEN
  policySnapshotId := 30
  evaluationManifestId := none
  createdAt := 1786795000000

def openConditionDb : Db :=
  { sampleDb .CONDITIONS_OPEN sampleFacts with
    conditions := ⟨[sampleCondition], List.nodup_singleton _⟩ }

def satisfied : ResolveConditionSignalPayload where
  actorId := "underwriter-1"
  resolution := .SATISFIED
  reason := none

/-- The worker dies once the transaction has committed, and the activity is retried. -/
def retriedResolution : Db :=
  exec (resolveOnce sampleRef 50 satisfied) openConditionDb
    [.unreported (sampleInput 0) .stopped, .commit (sampleInput 1)]

theorem retry_resolves_twice :
    (transitionsSince 50 openConditionDb retriedResolution).map (·.fromStatus)
        = [.OPEN, .SATISFIED]
      ∧ (resolutionsSince 50 openConditionDb retriedResolution).length = 2
      ∧ ¬ ResolvedOnce 50 openConditionDb retriedResolution := by
  have hevents : (resolutionsSince 50 openConditionDb retriedResolution).length = 2 := by
    decide +kernel
  refine ⟨by decide +kernel, hevents, ?_⟩
  intro h
  have hone := h.event
  rw [hevents] at hone
  exact absurd hone (by decide)

end MortgageAgent.Workflow
