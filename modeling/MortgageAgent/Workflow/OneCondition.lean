import MortgageAgent.Workflow.Evaluation

/-!
# One condition per workflow run

Temporal executes `evaluateConditions` of a workflow run at least once: an execution may be
stopped anywhere, or see a store error anywhere, and another one follows with the same
`workflowRunId`; an execution that timed out may go on beside its successor. Here these
executions are the only writers of the case.

The duplicate that the reservation keys are meant to suppress is suppressed by the case version
alone: two executions that read the same version cannot both open a condition. But opening one
raises the version, so an execution that starts after that reads the new version, reserves under
new keys and opens another.

* **`one_condition`** — when no execution starts after one has opened a condition, at most one is
  opened, and an execution that returns a condition returns that one.
* **`reexecution_opens_again`** — an execution dies between opening its condition and committing
  the reservation for it, and the next one opens a second condition.
-/

namespace MortgageAgent.Workflow

open Runs

/-! ## Executions of one run -/

/-- The store, and the executions of the activity that are under way. -/
abbrev Executions := Pool Input Db Failure EvaluateConditionsResult

inductive ExecutionLabel where
  /-- Temporal executes the activity, whose first transaction reads the case -/
  | start (i : Input)
  | move (n : Nat) (m : Proc.Move Input Failure)

def executionStep (deps : RuntimeDeps) (ref : CaseRef) (workflowRunId : String) (s : Executions) :
    ExecutionLabel → Executions
  | .start i => s.spawn (evaluateConditions deps ref workflowRunId) i
  | .move n m => s.move n m

/-- The conditions that were not there before. -/
def openedSince (before db : Db) : List LoanCondition :=
  db.conditions.rows.filter fun c => (before.conditions.find c.id).isNone

/-- At most one condition was opened, and an execution that returned one returned that one. -/
def OneCondition (before : Db) (s : Executions) : Prop :=
  (openedSince before s.store).length ≤ 1
    ∧ ∀ r ∈ s.returned, ∀ id, r = .CONDITION_OPENED id →
      (openedSince before s.store).map (·.id) = [id]

/-- No execution starts after the run has opened a condition. -/
def StartsBeforeOpening (before : Db) (s : Executions) : ExecutionLabel → Prop
  | .start _ => openedSince before s.store = []
  | .move .. => True

instance (before : Db) (s : Executions) (a : ExecutionLabel) :
    Decidable (StartsBeforeOpening before s a) := by
  cases a <;> unfold StartsBeforeOpening <;> infer_instance

theorem openedSince_of_append {before db : Db} {new : List LoanCondition}
    (h : db.conditions.rows = before.conditions.rows ++ new) : openedSince before db = new := by
  have hnodup := db.conditions.nodup
  rw [h, List.map_append, List.nodup_append] at hnodup
  unfold openedSince
  rw [h, List.filter_append]
  have hold : before.conditions.rows.filter
      (fun c => (before.conditions.find c.id).isNone) = [] := by
    rw [List.filter_eq_nil_iff]
    intro c hc
    have hfind := before.conditions.find_eq_some_iff.mpr ⟨hc, rfl⟩
    simp [hfind]
  have hnew : new.filter (fun c => (before.conditions.find c.id).isNone) = new := by
    rw [List.filter_eq_self]
    intro c hc
    rw [Option.isNone_iff_eq_none, Table.find_eq_none_iff]
    intro x hx hid
    exact hnodup.2.2 x.id (List.mem_map_of_mem hx) c.id (List.mem_map_of_mem hc) hid
  rw [hold, hnew, List.nil_append]

/-! ## The invariant -/

section Invariant

variable {ref : CaseRef} {before : Db}

/-- The only change to the condition table is at most one condition at its end. -/
def AtMostOneOpened (before db : Db) : Prop :=
  db.conditions = before.conditions
    ∨ ∃ c, db.conditions.rows = before.conditions.rows ++ [c]

/-- The condition opened since is the one with this id. -/
def OpenedOne (before db : Db) (id : Uuid) : Prop :=
  ∃ c, db.conditions.rows = before.conditions.rows ++ [c] ∧ c.id = id

/-- What holds beside an execution: the version it read is not ahead of the case's, and behind it
once a condition was opened. -/
def Beside (ref : CaseRef) (before : Db) : Phase → Db → Prop
  | .reading v, db => ∃ c, db.findCase ref = some c ∧ v ≤ c.version
      ∧ (v < c.version ∨ db.conditions = before.conditions)
  | .opened id, db => OpenedOne before db id
  | .idle, _ | .clear, _ => True

def Answered (before : Db) (r : EvaluateConditionsResult) (db : Db) : Prop :=
  ∀ id, r = .CONDITION_OPENED id → OpenedOne before db id

theorem not_openedOne {db : Db} {id : Uuid} (h : db.conditions = before.conditions) :
    ¬ OpenedOne before db id := by
  rintro ⟨c, hc, -⟩
  have hlength := congrArg List.length hc
  rw [h] at hlength
  simp at hlength

theorem openedOne_congr {db db' : Db} {id : Uuid} (h : db'.conditions = db.conditions) :
    OpenedOne before db' id ↔ OpenedOne before db id := by
  unfold OpenedOne
  rw [h]

theorem beside_congr {db db' : Db} (h : db'.caseRows = db.caseRows) {f : Phase} :
    Beside ref before f db' ↔ Beside ref before f db := by
  have hcases : db'.findCase ref = db.findCase ref := findCase_congr (loanCases_of_caseRows h)
  have hconditions : db'.conditions = db.conditions := conditions_of_caseRows h
  cases f with
  | reading v => simp only [Beside, hcases, hconditions]
  | opened id => exact openedOne_congr hconditions
  | idle => exact Iff.rfl
  | clear => exact Iff.rfl

/-- An execution that may still write reads the case at the version it read, and that version is
the case's only while nothing was opened. -/
theorem conditions_of_beside {db : Db} {c : LoanCase} (hc : db.findCase ref = some c)
    (h : Beside ref before (.reading c.version) db) : db.conditions = before.conditions := by
  obtain ⟨c', hc', -, hlt | heq⟩ := h
  · rw [hc] at hc'
    cases hc'
    exact absurd hlt (Nat.lt_irrefl _)
  · exact heq

/-- A write to the case leaves every other execution behind its version. -/
theorem beside_of_write {db db' : Db} {c : LoanCase} {status : CaseStatus}
    (hc : db.findCase ref = some c)
    (hcases : db'.loanCases = db.loanCases.put (c.withStatus status)) {v : Nat}
    (h : Beside ref before (.reading v) db) : Beside ref before (.reading v) db' := by
  obtain ⟨c', hc', hle, -⟩ := h
  rw [hc] at hc'
  cases hc'
  refine ⟨c.withStatus status, findCase_put hc hcases, Nat.le_succ_of_le hle, Or.inl ?_⟩
  rw [LoanCase.withStatus_version]
  omega

theorem execution_stable :
    Pool.Stable (EvaluationStep ref) (Returned OpenedIn) (AtMostOneOpened before)
      (Beside ref before) (Answered before) where
  refl := evaluationStep_refl ref
  store := by
    intro g db db' g' hstep hI hC
    cases hstep with
    | quiet h =>
      unfold AtMostOneOpened
      rw [conditions_of_caseRows h]
      exact hI
    | opens hc hcases hinsert hopen =>
      right
      rw [Table.rows_of_insert hinsert, conditions_of_beside hc hC]
      exact ⟨_, rfl⟩
    | readies hc hcases hconditions =>
      left
      rw [hconditions]
      exact conditions_of_beside hc hC
  own := by
    intro g db db' g' hstep hI hC
    cases hstep with
    | quiet h => exact (beside_congr h).mpr hC
    | opens hc hcases hinsert hopen =>
      refine ⟨_, ?_, rfl⟩
      rw [Table.rows_of_insert hinsert, conditions_of_beside hc hC]
    | readies hc hcases hconditions => trivial
  other := by
    intro g db db' g' f hstep hI hC hf
    cases hstep with
    | quiet h => exact (beside_congr h).mpr hf
    | opens hc hcases hinsert hopen =>
      cases f with
      | reading v => exact beside_of_write hc hcases hf
      | opened id => exact absurd hf (not_openedOne (conditions_of_beside hc hC))
      | idle => trivial
      | clear => trivial
    | readies hc hcases hconditions =>
      cases f with
      | reading v => exact beside_of_write hc hcases hf
      | opened id => exact (openedOne_congr hconditions).mpr hf
      | idle => trivial
      | clear => trivial
  result := by
    intro g db db' g' r hstep hI hC hr id hid
    have hone : OpenedOne before db id := hr id hid
    cases hstep with
    | quiet h => exact (openedOne_congr (conditions_of_caseRows h)).mpr hone
    | opens hc hcases hinsert hopen =>
      exact absurd hone (not_openedOne (conditions_of_beside hc hC))
    | readies hc hcases hconditions => exact (openedOne_congr hconditions).mpr hone
  returns := by
    intro g db r hpost hI hC id hid
    rw [hpost id hid] at hC
    exact hC

end Invariant

/-! ## The law -/

/-- The invariant of the executions of a run. -/
abbrev ExecutionInv (ref : CaseRef) (before : Db) (s : Executions) : Prop :=
  s.Keeps (EvaluationStep ref) (Returned OpenedIn) (AtMostOneOpened before) (Beside ref before)
    (Answered before)

/-- The first transaction reads the case and nothing else. -/
theorem evaluateConditions_move (deps : RuntimeDeps) (ref : CaseRef) (workflowRunId : String)
    (db : Db) (i : Input) :
    (evaluateConditions deps ref workflowRunId).move db (.commit i)
      = (db, match db.findCase ref with
        | some c => evaluateCase deps ref workflowRunId c.version
        | none => .fail .entityNotFound) := by
  cases hc : db.findCase ref <;>
    simp [evaluateConditions, query, transaction, Proc.tx, Proc.bind, Proc.move,
      Db.findCaseOrFail, hc, Except.map]

theorem conditions_of_unopened {before db : Db} (hI : AtMostOneOpened before db)
    (h : openedSince before db = []) : db.conditions = before.conditions := by
  rcases hI with heq | ⟨c, hc⟩
  · exact heq
  · rw [openedSince_of_append hc] at h
    cases h

theorem executionInv_step {deps : RuntimeDeps} {ref : CaseRef} {workflowRunId : String}
    {before : Db} (s : Executions) (a : ExecutionLabel) (h : ExecutionInv ref before s)
    (hstart : StartsBeforeOpening before s a) :
    ExecutionInv ref before (executionStep deps ref workflowRunId s a) := by
  cases a with
  | move n m => exact h.move execution_stable n m
  | start i =>
    let p := evaluateConditions deps ref workflowRunId
    have hmove := evaluateConditions_move deps ref workflowRunId s.store i
    have hsame := conditions_of_unopened h.store hstart
    cases hc : s.store.findCase ref with
    | none =>
      -- the read found no case, and the execution ends
      rw [hc] at hmove
      have hw : EvaluationStep ref .clear s.store (p.move s.store (.commit i)).1 .clear := by
        rw [hmove]
        exact evaluationStep_refl ref _ _
      have hobeys : (p.move s.store (.commit i)).2.Obeys (EvaluationStep ref) (Returned OpenedIn)
          .clear := by
        rw [hmove]
        trivial
      exact h.spawn execution_stable hw trivial hobeys
    | some c =>
      rw [hc] at hmove
      have hw : EvaluationStep ref (.reading c.version) s.store (p.move s.store (.commit i)).1
          (.reading c.version) := by
        rw [hmove]
        exact evaluationStep_refl ref _ _
      have hobeys : (p.move s.store (.commit i)).2.Obeys (EvaluationStep ref) (Returned OpenedIn)
          (.reading c.version) := by
        rw [hmove]
        exact evaluateCase_obeys deps ref workflowRunId c.version
      exact h.spawn execution_stable hw ⟨c, hc, Nat.le_refl _, Or.inr hsame⟩ hobeys

theorem oneCondition_of_inv {ref : CaseRef} {before : Db} {s : Executions}
    (h : ExecutionInv ref before s) : OneCondition before s := by
  constructor
  · rcases h.store with heq | ⟨c, hc⟩
    · have hnil : s.store.conditions.rows = before.conditions.rows ++ [] := by
        rw [heq, List.append_nil]
      rw [openedSince_of_append hnil]
      exact Nat.zero_le 1
    · rw [openedSince_of_append hc]
      exact Nat.le_refl 1
  · intro r hr id hid
    obtain ⟨c, hc, hcid⟩ := h.returned r hr id hid
    rw [openedSince_of_append hc, List.map_singleton, hcid]

/-- **One condition per run**, in every run of executions none of which starts after a condition
was opened. -/
theorem one_condition (deps : RuntimeDeps) (ref : CaseRef) (workflowRunId : String) (db : Db)
    (run : List ExecutionLabel)
    (h : AllSteps (executionStep deps ref workflowRunId) (StartsBeforeOpening db)
      { store := db } run) :
    OneCondition db (exec (executionStep deps ref workflowRunId) { store := db } run) := by
  have hinit : ExecutionInv ref db { store := db } :=
    ⟨Or.inl rfl, fun _ hp => absurd hp (List.not_mem_nil), fun _ hr => absurd hr (List.not_mem_nil)⟩
  exact oneCondition_of_inv (exec_inv_of_allSteps executionInv_step hinit h)

/-- The first execution's next `count` transactions commit. -/
def commits (first count : Nat) : List ExecutionLabel :=
  (List.range' first count).map fun n => .move 0 (.commit (sampleInput n))

/-- The executions of `run-1` after a run of labels. -/
def sampleExecutions (run : List ExecutionLabel) : Executions :=
  exec (executionStep sampleDeps sampleRef "run-1") { store := collectedDb } run

/-- An execution dies having reserved for nothing but the completeness check; the next one opens
the condition and returns it. -/
def stoppedBeforeOpening : List ExecutionLabel :=
  .start (sampleInput 0) :: commits 1 9 ++ [.move 0 (.lose .stopped)]
    ++ .start (sampleInput 40) :: commits 41 33

theorem one_condition_stoppedBeforeOpening :
    OneCondition collectedDb (sampleExecutions stoppedBeforeOpening)
      ∧ (sampleExecutions stoppedBeforeOpening).returned = [.CONDITION_OPENED 166] :=
  ⟨one_condition sampleDeps sampleRef "run-1" collectedDb stoppedBeforeOpening
    (by decide +kernel), by decide +kernel⟩

/-- An execution dies after its condition was committed and before the reservation for it was;
the next one reads the raised version. -/
def stoppedAfterOpening : List ExecutionLabel :=
  .start (sampleInput 0) :: commits 1 27 ++ [.move 0 (.lose .stopped)]
    ++ .start (sampleInput 40) :: commits 41 34

theorem reexecution_opens_again :
    (openedSince collectedDb (sampleExecutions stoppedAfterOpening).store).map (·.id) = [127, 167]
      ∧ (sampleExecutions stoppedAfterOpening).returned = [.CONDITION_OPENED 167]
      ∧ ¬ OneCondition collectedDb (sampleExecutions stoppedAfterOpening) := by
  have hids : (openedSince collectedDb (sampleExecutions stoppedAfterOpening).store).map (·.id)
      = [127, 167] := by decide +kernel
  refine ⟨hids, by decide +kernel, ?_⟩
  rintro ⟨hone, -⟩
  have hlength := congrArg List.length hids
  rw [List.length_map] at hlength
  rw [hlength] at hone
  exact absurd hone (by decide)

end MortgageAgent.Workflow
