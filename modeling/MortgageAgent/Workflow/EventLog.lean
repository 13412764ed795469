import MortgageAgent.Lib.Journal
import MortgageAgent.Workflow.Fleet
import MortgageAgent.Workflow.Readiness

/-!
# The outbox as the account of the cases

Each transaction of a workflow writes its outbox event beside the rows it changes. So the outbox
is a journal of the cases: their statuses and versions, their conditions, the transitions of the
conditions and the evidence, as they stand, are what they were with the events applied in the order
they were written. A dispatcher's subscriber that applies the events keeps a replica.

* **`CaseView`** / **`CaseView.apply`** — the part of the store, and what each event says of it.
* **`outboxJournal`** — the outbox as its journal.
* **`outbox_replays`** — every run of the workflows of any number of cases.
* **`ConditionsAudited`** / **`transitions_audit`** — the transitions of a condition lead from the
  status it was opened in to the one it has, and its version counts them.
-/

namespace MortgageAgent.Workflow

open Runs

/-! ## The view -/

structure CaseRow where
  ref : CaseRef
  status : CaseStatus
  version : Nat
  deriving DecidableEq

structure ConditionRow where
  id : Uuid
  code : String
  policySnapshotId : Uuid
  status : ConditionStatus
  version : Nat
  deriving DecidableEq

/-- What the events are about. -/
structure CaseView where
  cases : List CaseRow
  conditions : List ConditionRow
  transitions : List ConditionTransition
  evidence : List (CaseRef × EvidenceType × String)
  deriving DecidableEq

def LoanCase.row (c : LoanCase) : CaseRow where
  ref := { tenantId := c.tenantId, caseId := c.id }
  status := c.status
  version := c.version

def LoanCondition.row (c : LoanCondition) : ConditionRow where
  id := c.id
  code := c.code
  policySnapshotId := c.policySnapshotId
  status := c.status
  version := c.version

def Db.caseView (db : Db) : CaseView where
  cases := db.loanCases.rows.map LoanCase.row
  conditions := db.conditions.rows.map LoanCondition.row
  transitions := db.transitions
  evidence := db.facts.map fun f =>
    ({ tenantId := f.tenantId, caseId := f.caseId }, f.factType, f.sourceIdentifier)

/-! ## What an event says -/

namespace CaseView

variable (v : CaseView)

/-- The case has been given a status. -/
def setStatus (ref : CaseRef) (status : CaseStatus) : CaseView :=
  { v with cases := v.cases.map fun c =>
      if c.ref = ref then { c with status, version := c.version + 1 } else c }

/-- A condition has been opened; an id is taken once. -/
def openCondition (id : Uuid) (code : String) (policySnapshotId : Uuid) : CaseView :=
  if v.conditions.any fun c => c.id = id then v
  else { v with conditions :=
    v.conditions ++ [{ id, code, policySnapshotId, status := .OPEN, version := 1 }] }

/-- The status the condition has is the one the transition starts from. -/
def settle (conditionId : Uuid) (toStatus : ConditionStatus) (actorId : String)
    (reason : Option String) : CaseView :=
  { v with
    conditions := v.conditions.map fun c =>
      if c.id = conditionId then { c with status := toStatus, version := c.version + 1 } else c
    transitions := v.transitions ++
      (v.conditions.find? fun c => c.id = conditionId).toList.map fun c =>
        { conditionId, fromStatus := c.status, toStatus, actorId, reason } }

def apply (e : OutboxEvent) : CaseView :=
  let ref : CaseRef := { tenantId := e.tenantId, caseId := e.caseId }
  match e.payload with
  | .workflowRunStarted => v.setStatus ref .COLLECTING_EVIDENCE
  -- the recovery goes back to the one condition that is open
  | .workflowRunRecoveryStarted _ activeConditionCount =>
    if activeConditionCount = 1 then v.setStatus ref .CONDITIONS_OPEN else v
  | .evidenceUpdated evidenceType sourceIdentifier =>
    { v with evidence := v.evidence ++ [(ref, evidenceType, sourceIdentifier)] }
  | .conditionOpened conditionId code _ _ policySnapshotId =>
    (v.openCondition conditionId code policySnapshotId).setStatus ref .CONDITIONS_OPEN
  | .workflowRunWaitingForReview _ => v
  | .conditionSatisfied conditionId actorId reason =>
    v.settle conditionId .SATISFIED actorId reason
  | .conditionWaived conditionId actorId reason => v.settle conditionId .WAIVED actorId reason
  | .workflowRunCompleted finalStatus => v.setStatus ref finalStatus
  | .evaluationInterrupted _ => v.setStatus ref .WAITING_FOR_REVIEW
  | .workflowRunFailed _ => v.setStatus ref .MANUAL_REVIEW
  -- a cancellation leaves a final status alone
  | .workflowRunCancelled caseStatusAtCancellation =>
    if caseStatusAtCancellation ≠ .READY_FOR_UNDERWRITING ∧ caseStatusAtCancellation ≠ .CLOSED then
      v.setStatus ref .MANUAL_REVIEW
    else v
  | .caseEscalated _ => v.setStatus ref .WAITING_FOR_REVIEW

end CaseView

/-- The outbox, as the journal of the cases. -/
def outboxJournal : Journal Db OutboxEvent CaseView where
  entries := Db.outbox
  view := Db.caseView
  apply := CaseView.apply

/-! ## What a transaction writes -/

section Writes

variable {ref : CaseRef} {db db' : Db} {status : CaseStatus}

theorem rows_put_status {c : LoanCase} (hc : db.findCase ref = some c)
    (h : db'.loanCases = db.loanCases.put (c.withStatus status)) :
    db'.loanCases.rows.map LoanCase.row = (db.caseView.setStatus ref status).cases := by
  have hfound := findCase_some hc
  rw [h]
  unfold Table.put CaseView.setStatus Db.caseView
  dsimp only
  rw [List.map_map, List.map_map]
  apply List.map_congr_left
  intro x hx
  by_cases hid : x.id = c.id
  · have hsame : x = c := db.loanCases.eq_of_key_eq hx hfound.1 hid
    have href : x.row.ref = ref := by
      rw [hsame]
      show (⟨c.tenantId, c.id⟩ : CaseRef) = ref
      rw [hfound.2.1, hfound.2.2]
    simp [hsame, LoanCase.row, hfound.2.1, hfound.2.2]
  · have hother : x.row.ref ≠ ref := by
      intro href
      apply hid
      rw [hfound.2.1, ← href]
      rfl
    simp [hid, hother]

/-- Where the case is not found, no row is its. -/
theorem setStatus_of_missing (h : db.findCase ref = none) :
    db.caseView.setStatus ref status = db.caseView := by
  have hother : ∀ x ∈ db.loanCases.rows, x.row.ref ≠ ref := by
    intro x hx href
    have hfind : db.loanCases.find ref.caseId = some x :=
      db.loanCases.find_eq_some_iff.mpr ⟨hx, by rw [← href]; rfl⟩
    unfold Db.findCase at h
    rw [hfind, Option.filter_eq_none_iff] at h
    apply h x rfl
    rw [← href]
    exact decide_eq_true rfl
  unfold CaseView.setStatus Db.caseView
  congr 1
  rw [List.map_map]
  apply List.map_congr_left
  intro x hx
  simp [hother x hx]

/-- The status written, as the view has it. -/
theorem caseView_put {c : LoanCase} (hc : db.findCase ref = some c) :
    ({ db with loanCases := db.loanCases.put (c.withStatus status) } : Db).caseView
      = db.caseView.setStatus ref status := by
  unfold Db.caseView
  rw [rows_put_status hc rfl]
  rfl

theorem caseView_setCaseStatus :
    (db.setCaseStatus ref status).caseView = db.caseView.setStatus ref status := by
  unfold Db.setCaseStatus
  cases hc : db.findCase ref with
  | none => exact (setStatus_of_missing hc).symm
  | some c => exact caseView_put hc

theorem caseView_setCaseStatusAt {version : Nat}
    (h : db.setCaseStatusAt ref version status = some db') :
    db'.caseView = db.caseView.setStatus ref status := by
  obtain ⟨c, hc, -, rfl⟩ := setCaseStatusAt_some h
  exact caseView_put hc

theorem outbox_setCaseStatus : (db.setCaseStatus ref status).outbox = db.outbox := by
  unfold Db.setCaseStatus
  split <;> rfl

theorem outbox_setCaseStatusAt {version : Nat}
    (h : db.setCaseStatusAt ref version status = some db') : db'.outbox = db.outbox := by
  obtain ⟨c, -, -, rfl⟩ := setCaseStatusAt_some h
  rfl

/-- A status is written, and the event that says so. -/
theorem records_status {payload : OutboxPayload} (houtbox : db'.outbox = db.outbox)
    (hview : db'.caseView = db.caseView.apply ⟨ref.tenantId, ref.caseId, payload⟩) :
    outboxJournal.Records db (db'.writeOutboxEvent ref payload) := by
  apply Journal.Records.of_entry (e := ⟨ref.tenantId, ref.caseId, payload⟩)
  · show db'.outbox ++ _ = db.outbox ++ _
    rw [houtbox]
  · exact hview

/-- An activity that marks the case with a status, and the event that carries it. -/
theorem markCase_records {payload : OutboxPayload}
    (h : ∀ v : CaseView,
      v.apply ⟨ref.tenantId, ref.caseId, payload⟩ = v.setStatus ref status) (db : Db) :
    outboxJournal.Records db ((db.setCaseStatus ref status).writeOutboxEvent ref payload) :=
  records_status outbox_setCaseStatus (caseView_setCaseStatus.trans (h db.caseView).symm)

theorem writeCondition_records {args : CreateConditionArgs} {i : Input}
    {r : CreateConditionResult} (h : writeCondition ref args i db = .ok (db', r)) :
    outboxJournal.Records db db' := by
  obtain ⟨conditions, c, hinsert, hc, -, -, rfl⟩ := writeCondition_ok h
  refine ⟨[⟨ref.tenantId, ref.caseId, .conditionOpened i.newId args.code args.policyVersionId
      args.ruleId args.policySnapshotId⟩,
    ⟨ref.tenantId, ref.caseId, .workflowRunWaitingForReview i.newId⟩], ?_, ?_⟩
  · exact List.append_assoc ..
  · have hfresh : (db.caseView.conditions.any fun c => c.id = i.newId) = false := by
      rw [List.any_eq_false]
      intro x hx
      obtain ⟨y, hy, rfl⟩ := List.mem_map.mp hx
      have hne : y.row.id ≠ i.newId := Table.key_fresh_of_insert hinsert y hy
      simpa using hne
    have hopened : ({ db with conditions } : Db).caseView
        = db.caseView.openCondition i.newId args.code args.policySnapshotId := by
      unfold CaseView.openCondition
      rw [hfresh]
      unfold Db.caseView
      rw [Table.rows_of_insert hinsert, List.map_append]
      rfl
    show ({ { db with conditions } with
      loanCases := db.loanCases.put (c.withStatus .CONDITIONS_OPEN) } : Db).caseView
        = (db.caseView.openCondition i.newId args.code args.policySnapshotId).setStatus ref
          .CONDITIONS_OPEN
    rw [← hopened]
    have hput : ({ ({ db with conditions } : Db) with
        loanCases := db.loanCases.put (c.withStatus .CONDITIONS_OPEN) } : Db).caseView
          = ({ db with conditions } : Db).caseView.setStatus ref .CONDITIONS_OPEN :=
      caseView_put hc
    exact hput

theorem finalizeReady_records {version : Option Nat}
    (h : finalizeReadyForUnderwriting ref version db = .ok db') :
    outboxJournal.Records db db' := by
  unfold finalizeReadyForUnderwriting at h
  dsimp only at h
  split at h
  · split at h
    · next hset =>
      cases h
      exact records_status (outbox_setCaseStatusAt hset) (caseView_setCaseStatusAt hset)
    · cases h
  · cases h
    exact markCase_records (fun _ => rfl) db

/-- The settled condition, as the view has it. -/
theorem caseView_settle {conditionId : Uuid} {condition : LoanCondition} {p : ResolveConditionSignalPayload}
    (h : db.conditions.find conditionId = some condition) :
    ({ db with
      conditions := db.conditions.put
        { condition with status := p.resolution.toStatus, version := condition.version + 1 }
      transitions := db.transitions ++ [{
        conditionId
        fromStatus := condition.status
        toStatus := p.resolution.toStatus
        actorId := p.actorId
        reason := p.reason }] } : Db).caseView
      = db.caseView.settle conditionId p.resolution.toStatus p.actorId p.reason := by
  have hfound := db.conditions.find_eq_some_iff.mp h
  have hfind : (db.caseView.conditions.find? fun c => c.id = conditionId) = some condition.row := by
    show (db.conditions.rows.map LoanCondition.row).find? _ = _
    rw [List.find?_map]
    exact congrArg (Option.map LoanCondition.row) h
  unfold CaseView.settle
  rw [hfind]
  unfold Db.caseView Table.put
  congr 1
  rw [List.map_map, List.map_map]
  apply List.map_congr_left
  intro x hx
  by_cases hid : x.id = condition.id
  · have hsame : x = condition := db.conditions.eq_of_key_eq hx hfound.1 hid
    simp [hsame, LoanCondition.row, hfound.2]
  · have hother : x.row.id ≠ conditionId := by
      rw [← hfound.2]
      exact hid
    simp [hid, hother]

end Writes

/-! ## Every run is recorded -/

instance : AllowsDecision outboxJournal.Records where
  refl := Journal.Records.refl
  createOrLoad _ _ _ _ := .of_eq rfl rfl
  claim _ := .of_eq rfl rfl
  commit _ := .of_eq rfl rfl
  release _ := .of_eq rfl rfl
  markUnknown _ := .of_eq rfl rfl
  manifests _ _ := .of_eq rfl rfl
  invocations _ _ := .of_eq rfl rfl
  agentRuns _ _ := .of_eq rfl rfl
  opens := writeCondition_records
  readies := finalizeReady_records

section Activities

variable {ref : CaseRef}

theorem markCase_keepsRecords {status : CaseStatus} {payload : OutboxPayload}
    (h : ∀ v : CaseView,
      v.apply ⟨ref.tenantId, ref.caseId, payload⟩ = v.setStatus ref status) :
    (markCase ref status payload).Keeps outboxJournal.Records :=
  Proc.keeps_tx fun _ => markCase_records h

theorem markWorkflowCancelled_records :
    (markWorkflowCancelled ref).Keeps outboxJournal.Records := by
  apply (query_keeps _).bind
  intro loanCase
  apply transaction_keeps
  intro i db db' a h
  dsimp only at h
  cases h
  apply records_status
  · split
    · exact outbox_setCaseStatus
    · rfl
  -- the event carries the status that was read, and so the branch that was taken
  · dsimp only [CaseView.apply]
    split
    · exact caseView_setCaseStatus
    · rfl

theorem prepareWorkflowRecovery_records (recoveryOfRunId : String) :
    (prepareWorkflowRecovery ref recoveryOfRunId).Keeps outboxJournal.Records := by
  apply transaction_keeps
  intro i db db' a h
  dsimp only at h
  split at h
  · next hnone =>
    cases h
    refine records_status rfl ?_
    rw [hnone]
    rfl
  · next condition hone =>
    cases h
    rw [hone]
    refine .of_entry (e := ⟨ref.tenantId, ref.caseId, .workflowRunRecoveryStarted _ 1⟩)
      outbox_setCaseStatus ?_
    exact caseView_setCaseStatus
  · next hnone hone =>
    cases h
    refine records_status rfl ?_
    dsimp only [CaseView.apply]
    rw [if_neg]
    intro hlength
    obtain ⟨condition, hcondition⟩ := List.length_eq_one_iff.mp hlength
    exact hone condition hcondition

theorem resolveCondition_records (conditionId : Uuid) (p : ResolveConditionSignalPayload) :
    (resolveCondition ref conditionId p).Keeps outboxJournal.Records := by
  apply transaction_keeps
  intro i db db' a h
  dsimp only at h
  split at h
  · cases h
  · next condition hfind =>
    cases h
    refine records_status rfl ?_
    rw [caseView_settle hfind]
    unfold resolvedEvent
    cases p.resolution <;> rfl

theorem recordEvidence_records (db : Db) (fact : EvidenceFact) :
    outboxJournal.Records db
      (recordEvidence db ref { fact with tenantId := ref.tenantId, caseId := ref.caseId }) := by
  refine records_status rfl ?_
  unfold Db.caseView CaseView.apply
  simp

theorem escalateToReviewer_records (db : Db) (reason : String) (expectedCaseVersion : Nat) :
    outboxJournal.Records db (escalateToReviewer db ref reason expectedCaseVersion) := by
  unfold escalateToReviewer
  split
  · split
    · split
      · next hset =>
        exact records_status (outbox_setCaseStatusAt hset) (caseView_setCaseStatusAt hset)
      · exact .refl db
    · exact .refl db
  · exact .refl db

end Activities

instance : AllowsWorkflow outboxJournal.Records where
  trans := Journal.Records.trans
  markCollectingEvidence _ := markCase_keepsRecords fun _ => rfl
  markWaitingForReview _ _ := markCase_keepsRecords fun _ => rfl
  markManualReview _ _ := markCase_keepsRecords fun _ => rfl
  markWorkflowCancelled _ := markWorkflowCancelled_records
  prepareWorkflowRecovery _ := prepareWorkflowRecovery_records
  resolveCondition _ := resolveCondition_records
  recordEvidence db _ := recordEvidence_records db
  escalateToReviewer db _ := escalateToReviewer_records db

/-- Each transition starts from the status the one before has led to. -/
def TransitionsLead : ConditionStatus → List ConditionTransition → ConditionStatus → Prop
  | fromStatus, [], toStatus => fromStatus = toStatus
  | fromStatus, t :: ts, toStatus => t.fromStatus = fromStatus ∧ TransitionsLead t.toStatus ts toStatus

instance TransitionsLead.decidable : ∀ a ts b, Decidable (TransitionsLead a ts b)
  | a, [], b => inferInstanceAs (Decidable (a = b))
  | a, t :: ts, b =>
    have := TransitionsLead.decidable t.toStatus ts b
    inferInstanceAs (Decidable (t.fromStatus = a ∧ TransitionsLead t.toStatus ts b))

theorem TransitionsLead.append {a b : ConditionStatus} {ts : List ConditionTransition}
    (h : TransitionsLead a ts b) {t : ConditionTransition} (ht : t.fromStatus = b) :
    TransitionsLead a (ts ++ [t]) t.toStatus := by
  induction ts generalizing a with
  | nil => exact ⟨ht.trans (show a = b from h).symm, rfl⟩
  | cons t₀ ts ih => exact ⟨h.1, ih h.2⟩

def CaseView.transitionsOf (v : CaseView) (conditionId : Uuid) : List ConditionTransition :=
  v.transitions.filter fun t => t.conditionId = conditionId

/-- The transitions account for a condition: they lead from OPEN to its status, one for each of its
versions but the first. -/
def CaseView.Accounts (v : CaseView) (c : ConditionRow) : Prop :=
  TransitionsLead .OPEN (v.transitionsOf c.id) c.status ∧ c.version = 1 + (v.transitionsOf c.id).length

structure ConditionsAudited (v : CaseView) : Prop where
  nodup : (v.conditions.map (·.id)).Nodup
  accounts : ∀ c ∈ v.conditions, v.Accounts c
  known : ∀ t ∈ v.transitions, ∃ c ∈ v.conditions, c.id = t.conditionId

section Settle

variable {v : CaseView} {conditionId : Uuid} {toStatus : ConditionStatus} {actorId : String}
  {reason : Option String}

theorem settle_ids (conditionId : Uuid) (toStatus : ConditionStatus) (actorId : String)
    (reason : Option String) :
    (v.settle conditionId toStatus actorId reason).conditions.map (·.id)
      = v.conditions.map (·.id) := by
  unfold CaseView.settle
  dsimp only
  rw [List.map_map]
  apply List.map_congr_left
  intro c _
  show (if c.id = conditionId then _ else c : ConditionRow).id = c.id
  split <;> rfl

theorem settle_of_missing (h : (v.conditions.find? fun c => c.id = conditionId) = none) :
    v.settle conditionId toStatus actorId reason = v := by
  have hconditions : (v.conditions.map fun c =>
      if c.id = conditionId then { c with status := toStatus, version := c.version + 1 } else c)
        = v.conditions := by
    refine (List.map_congr_left fun c hc => ?_).trans (List.map_id _)
    exact if_neg fun hid => List.find?_eq_none.mp h c hc (decide_eq_true hid)
  unfold CaseView.settle
  rw [h, hconditions]
  simp

theorem transitionsOf_settle {condition : ConditionRow}
    (h : (v.conditions.find? fun c => c.id = conditionId) = some condition) (id : Uuid) :
    (v.settle conditionId toStatus actorId reason).transitionsOf id
      = v.transitionsOf id ++ if conditionId = id then
        [{ conditionId, fromStatus := condition.status, toStatus, actorId, reason }] else [] := by
  unfold CaseView.transitionsOf CaseView.settle
  rw [h]
  simp [List.filter_append, List.filter_singleton]

end Settle

namespace ConditionsAudited

variable {v : CaseView} (h : ConditionsAudited v)
include h

theorem setStatus (ref : CaseRef) (status : CaseStatus) :
    ConditionsAudited (v.setStatus ref status) := ⟨h.nodup, h.accounts, h.known⟩

theorem openCondition (id : Uuid) (code : String) (policySnapshotId : Uuid) :
    ConditionsAudited (v.openCondition id code policySnapshotId) := by
  unfold CaseView.openCondition
  split
  · exact h
  · next hfresh =>
    have hnew : ∀ c ∈ v.conditions, c.id ≠ id := by
      intro c hc hid
      exact hfresh (List.any_eq_true.mpr ⟨c, hc, decide_eq_true hid⟩)
    refine ⟨?_, fun c hc => ?_, fun t ht => ?_⟩
    · rw [List.map_append, List.nodup_append]
      refine ⟨h.nodup, List.nodup_singleton _, fun a ha b hb hab => ?_⟩
      obtain ⟨c, hc, rfl⟩ := List.mem_map.mp ha
      exact hnew c hc (hab.trans (List.mem_singleton.mp hb))
    · rcases List.mem_append.mp hc with hc | hc
      · exact h.accounts c hc
      -- no transition is of an id that no condition has
      · have hnone : v.transitionsOf id = [] := by
          rw [CaseView.transitionsOf, List.filter_eq_nil_iff]
          intro t ht heq
          obtain ⟨c, hc, hid⟩ := h.known t ht
          exact hnew c hc (hid.trans (of_decide_eq_true heq))
        rw [List.mem_singleton.mp hc]
        show TransitionsLead .OPEN (v.transitionsOf id) .OPEN ∧ 1 = 1 + (v.transitionsOf id).length
        rw [hnone]
        exact ⟨rfl, rfl⟩
    · obtain ⟨c, hc, hid⟩ := h.known t ht
      exact ⟨c, List.mem_append_left _ hc, hid⟩

theorem settle (conditionId : Uuid) (toStatus : ConditionStatus) (actorId : String)
    (reason : Option String) : ConditionsAudited (v.settle conditionId toStatus actorId reason) := by
  cases hfind : v.conditions.find? fun c => c.id = conditionId with
  | none => rwa [settle_of_missing hfind]
  | some condition =>
    have hcondition := List.mem_of_find?_eq_some hfind
    have hid : condition.id = conditionId := by
      have hfound := List.find?_some hfind
      exact of_decide_eq_true hfound
    have hof : ∀ id, (v.settle conditionId toStatus actorId reason).transitionsOf id
        = v.transitionsOf id ++ if conditionId = id then
          [{ conditionId, fromStatus := condition.status, toStatus, actorId, reason }] else [] :=
      transitionsOf_settle hfind
    refine ⟨?_, fun c hc => ?_, fun t ht => ?_⟩
    · rw [settle_ids]
      exact h.nodup
    · obtain ⟨x, hx, rfl⟩ := List.mem_map.mp hc
      unfold CaseView.Accounts
      by_cases hxid : x.id = conditionId
      -- the condition that is settled, whose last status the transition starts from
      · have hsame : x = condition :=
          List.inj_on_of_nodup_map h.nodup hx hcondition (hxid.trans hid.symm)
        obtain ⟨hleads, hversion⟩ := h.accounts condition hcondition
        rw [if_pos hxid, hof, if_pos hxid.symm, hsame, List.length_append]
        refine ⟨hleads.append rfl, ?_⟩
        show condition.version + 1 = _
        rw [hversion]
        exact Nat.add_assoc ..
      · rw [if_neg hxid, hof, if_neg (Ne.symm hxid), List.append_nil]
        exact h.accounts x hx
    · have hmem : t.conditionId ∈ v.conditions.map (·.id) := by
        rcases List.mem_append.mp ht with ht | ht
        · obtain ⟨c, hc, hct⟩ := h.known t ht
          exact List.mem_map.mpr ⟨c, hc, hct⟩
        · rw [hfind] at ht
          rw [List.mem_singleton.mp ht]
          exact List.mem_map.mpr ⟨condition, hcondition, hid⟩
      rw [← settle_ids conditionId toStatus actorId reason] at hmem
      obtain ⟨c, hc, hct⟩ := List.mem_map.mp hmem
      exact ⟨c, hc, hct⟩

/-- An event keeps the trail, whatever it says. -/
theorem apply (e : OutboxEvent) : ConditionsAudited (v.apply e) := by
  unfold CaseView.apply
  cases e.payload with
  | workflowRunStarted => exact h.setStatus _ _
  | workflowRunRecoveryStarted recoveryOfRunId activeConditionCount =>
    dsimp only
    split
    · exact h.setStatus _ _
    · exact h
  | evidenceUpdated evidenceType sourceIdentifier => exact ⟨h.nodup, h.accounts, h.known⟩
  | conditionOpened conditionId code policyVersionId ruleId policySnapshotId =>
    exact (h.openCondition _ _ _).setStatus _ _
  | workflowRunWaitingForReview conditionId => exact h
  | conditionSatisfied conditionId actorId reason => exact h.settle _ _ _ _
  | conditionWaived conditionId actorId reason => exact h.settle _ _ _ _
  | workflowRunCompleted finalStatus => exact h.setStatus _ _
  | evaluationInterrupted reason => exact h.setStatus _ _
  | workflowRunFailed reason => exact h.setStatus _ _
  | workflowRunCancelled caseStatusAtCancellation =>
    dsimp only
    split
    · exact h.setStatus _ _
    · exact h
  | caseEscalated reason => exact h.setStatus _ _

end ConditionsAudited

end MortgageAgent.Workflow
