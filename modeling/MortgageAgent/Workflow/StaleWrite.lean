import MortgageAgent.Workflow.Decision

/-!
# A stale version, reported twice

`create_condition` can find that the case has moved on at two places: at its check, where it
answers STALE_CASE_VERSION, and at its conditional update, where it throws StaleCaseVersionError.
The node that called it throws StaleCaseVersionError for the answer, which leaves the graph and has
the activity retried. The exception does not get that far: `invokeTool` catches it like any other,
and the node routes the run to manual review.

* **`createRest`** — a run while `create_condition` is under way.
* **`WritesCase`** / **`ChecksCase`** — the run's next transaction is the tool's write, or its
  check.
* **`StaleThrows`** — a stale version makes the run throw.
* **`stale_thrown_iff`** — it does exactly in the runs in which the tool's write finds the version
  that its check found.
-/

namespace MortgageAgent.Workflow

open Proc (KeepsUntil)
open Runs

/-! ## A run while the tool is under way -/

/-- The settlement of a tool's reservation. -/
def settlement (ctx : RunContext) (reservationId : Uuid) : Budget.CommitInput where
  tenantId := ctx.ref.tenantId
  reservationId := reservationId
  actualCostMinorUnits := some (.int 0)

/-- A reserved tool with `body` to run for it, and the settlement of its reservation. -/
def executeAndSettle {α : Type} (ctx : RunContext) (st : AgentState)
    (reservation : Budget.AgentBudgetReservationReceipt) (body : Act (Except String α)) :
    Act (BudgetedToolResult α) := do
  let invocation ← body
  let committed ← commit (settlement ctx reservation.reservationId)
  return .ok (applyBudgetSnapshot (applyBudgetSnapshot st reservation.ledger) committed.ledger)
    invocation

/-- What is left of a budgeted tool once its step is reserved. -/
def executeReserved {α : Type} (ctx : RunContext) (st : AgentState)
    (reservation : Budget.AgentBudgetReservationReceipt) (body : Act (Except String α)) :
    Act (BudgetedToolResult α) :=
  onBudgetError (executeAndSettle ctx st reservation body) fun trigger =>
    return .refused st trigger

/-- What `openCondition` makes of the tool's result. -/
def afterCreate (ctx : RunContext) (version : MatchedVersion) (reason : String) :
    BudgetedToolResult CreateConditionResult → Act AgentRunResult
  | .refused st trigger => return .ended (.review st trigger)
  | .ok st invocation =>
    let next := recordInvocation st "create_condition" invocation
    match invocation with
    | .error e => return .ended (toolFailure next ("create_condition failed: " ++ e))
    | .ok .STALE_CASE_VERSION => .fail (.staleCaseVersion ctx.ref.caseId ctx.caseVersion)
    | .ok (.CREATED conditionId) => draftForCondition ctx next version reason conditionId

/-- The end of every run. -/
def persisted (ctx : RunContext) (result : AgentRunResult) : Act AgentRunResult := do
  persistAgentRun ctx result
  return result

/-- What a run that has reserved `create_condition` still has to do. -/
structure Opening where
  st : AgentState
  reservation : Budget.AgentBudgetReservationReceipt
  version : MatchedVersion
  reason : String

/-- The last node while `body` is what is left of `create_condition`. -/
def createNode (ctx : RunContext) (o : Opening) (body : Act (Except String CreateConditionResult)) :
    Act AgentRunResult :=
  (executeReserved ctx o.st o.reservation body).bind (afterCreate ctx o.version o.reason)

/-- A run in which `body` is what is left of `create_condition`. -/
def createRest (ctx : RunContext) (o : Opening) (body : Act (Except String CreateConditionResult)) :
    Act AgentRunResult :=
  (createNode ctx o body).bind (persisted ctx)

/-- The case and its conditions are as they were. -/
def SameRows (db db' : Db) : Prop := db'.caseRows = db.caseRows

instance : AllowsRun SameRows :=
  inferInstanceAs (AllowsRun fun db db' => db'.caseRows = db.caseRows)

/-- The run is about to check the case's version. -/
def Checking (ctx : RunContext) (p : Act AgentRunResult) : Prop :=
  ∃ o args, args.expectedCaseVersion = ctx.caseVersion
    ∧ p = createRest ctx o (invokeTool (createConditionTool ctx.ref args).execute)

/-- The run has checked the version and is about to write. -/
def Writing (ctx : RunContext) (p : Act AgentRunResult) : Prop :=
  ∃ o args, args.expectedCaseVersion = ctx.caseVersion
    ∧ p = createRest ctx o (invokeTool (transaction (writeCondition ctx.ref args)))

/-! ## Up to the tool -/

section UpToTheTool

variable {R : Db → Db → Prop} [AllowsRun R]

/-- A budgeted tool is like the run's own code until it executes. -/
theorem invokeBudgetedTool_until {α : Type} (ctx : RunContext) (st : AgentState)
    (tool : AgentTool α) :
    (invokeBudgetedTool ctx st tool).KeepsUntil R fun p =>
      ∃ reservation, p = executeReserved ctx st reservation (invokeTool tool.execute) := by
  apply (budgetExceeded_keeps st).bind_until
  intro exceeded
  cases exceeded with
  | some trigger => exact .done _
  | none =>
    have hbody : ((reserve (stepReservation ctx st tool.name)).bind fun reservation =>
        if reservation.replayed && tool.sideEffect ≠ .NONE then
          quarantine ctx (applyBudgetSnapshot st reservation.ledger) tool.name reservation
        else executeAndSettle ctx st reservation (invokeTool tool.execute)).KeepsUntil R
          fun p => ∃ reservation, p = executeAndSettle ctx st reservation
            (invokeTool tool.execute) := by
      apply (reserve_keeps _).bind_until
      intro reservation
      split
      · exact (quarantine_keeps ctx _ tool.name reservation).until
      · exact .reached ⟨reservation, rfl⟩
    apply hbody.rescue
    · rintro _ ⟨reservation, rfl⟩
      exact ⟨reservation, rfl⟩
    · intro e
      split
      · exact .done _
      · exact .fail _

theorem afterCreate_keeps (ctx : RunContext) (version : MatchedVersion) (reason : String)
    (r : BudgetedToolResult CreateConditionResult) :
    (afterCreate ctx version reason r).Keeps R := by
  cases r with
  | refused st trigger => exact Proc.keeps_done _
  | ok st invocation =>
    cases invocation with
    | error e => exact Proc.keeps_done _
    | ok result =>
      cases result with
      | STALE_CASE_VERSION => exact Proc.keeps_fail _
      | CREATED id => exact draftForCondition_keeps ..

/-- The last node is about to check the case's version. -/
def NodeChecking (ctx : RunContext) (p : Act AgentRunResult) : Prop :=
  ∃ o args, args.expectedCaseVersion = ctx.caseVersion
    ∧ p = createNode ctx o (invokeTool (createConditionTool ctx.ref args).execute)

theorem openCondition_until (ctx : RunContext) (st : AgentState)
    (evaluation : EvaluatePolicyResult) (version : MatchedVersion) (reason : String)
    (manifestId : Uuid) :
    (openCondition ctx st evaluation version reason manifestId).KeepsUntil R
      (NodeChecking ctx) := by
  apply KeepsUntil.bind (invokeBudgetedTool_until ctx st _)
  · rintro _ ⟨reservation, rfl⟩
    exact ⟨⟨st, reservation, version, reason⟩, _, rfl, rfl⟩
  · intro r
    exact (afterCreate_keeps ctx version reason r).until

theorem resolveOutcomeNode_until (deps : RuntimeDeps) (ctx : RunContext) (st : AgentState)
    (evaluation : EvaluatePolicyResult) :
    (resolveOutcomeNode deps ctx st evaluation).KeepsUntil R (NodeChecking ctx) := by
  apply (consumeBudgetedRuntimeStep_keeps ctx st _).bind_until
  intro stepped
  cases stepped with
  | error trigger => exact .done _
  | ok stepped =>
    dsimp only
    split
    · apply (assembleManifest_keeps ..).bind_until
      intro manifestId
      exact .done _
    · apply (query_keeps _).bind_until
      intro facts
      apply (assembleManifest_keeps ..).bind_until
      intro manifestId
      split
      · exact .done _
      · exact openCondition_until ..

omit [AllowsRun R] in
theorem edge_until {α : Type} {Q : Act AgentRunResult → Prop} {node : Act (Except NodeEnd α)}
    {next : α → Act AgentRunResult} (hnode : node.Keeps R)
    (hnext : ∀ a, (next a).KeepsUntil R Q) : (edge node next).KeepsUntil R Q := by
  apply hnode.bind_until
  intro r
  cases r with
  | error reached => exact .done _
  | ok a => exact hnext a

theorem graph_until (deps : RuntimeDeps) (ctx : RunContext) (st : AgentState) :
    (graph deps ctx st).KeepsUntil R (NodeChecking ctx) := by
  apply edge_until (Proc.keeps_done _)
  intro st
  apply edge_until (checkCompletenessNode_keeps ctx st)
  intro st
  apply edge_until (planNextActionNode_keeps deps ctx st)
  intro st
  apply edge_until (evaluatePolicyNode_keeps ctx st)
  intro r
  exact resolveOutcomeNode_until deps ctx r.1 r.2

theorem persisted_keeps (ctx : RunContext) (result : AgentRunResult) :
    (persisted ctx result).Keeps R :=
  (persistAgentRun_keeps ctx result).bind fun _ => Proc.keeps_done _

/-- **A run writes nothing of the case until `create_condition` checks its version.** -/
theorem runAgent_until (deps : RuntimeDeps) (ctx : RunContext) (budget : AgentRunBudget)
    (startedAt : Instant) :
    (runAgent deps ctx budget startedAt).KeepsUntil R (Checking ctx) := by
  apply (createOrLoad_keeps _).bind_until
  intro initialBudget
  apply KeepsUntil.bind (graph_until deps ctx _)
  · rintro _ ⟨o, args, hargs, rfl⟩
    exact ⟨o, args, hargs, rfl⟩
  · intro result
    exact (persisted_keeps ctx result).until

end UpToTheTool

/-! ## The tool's transactions -/

section Stages

variable (ctx : RunContext) (o : Opening)

/-- A transaction of the tool is one of the run. -/
theorem createRest_move {body : Act (Except String CreateConditionResult)} (h : body.running)
    (db : Db) (m : Proc.Move Input Failure) :
    (createRest ctx o body).move db m
      = ((body.move db m).1, createRest ctx o (body.move db m).2) := by
  cases body with
  | done a => exact h.elim
  | fail e => exact h.elim
  | step w k c => cases m <;> rfl

theorem createRest_keeps {body : Act (Except String CreateConditionResult)}
    (h : body.Keeps SameRows) : (createRest ctx o body).Keeps SameRows := by
  apply Proc.Keeps.bind
  · apply Proc.Keeps.bind
    · apply onBudgetError_keeps
      · apply h.bind
        intro invocation
        apply (commit_keeps _).bind
        intro committed
        exact Proc.keeps_done _
      · intro trigger
        exact Proc.keeps_done _
    · exact afterCreate_keeps ctx o.version o.reason
  · exact persisted_keeps ctx

theorem transaction_move {α : Type} (t : Input → Db → Except Failure (Db × α)) (db : Db)
    (i : Input) :
    (transaction t).move db (.commit i)
      = match t i db with
        | .ok (db', a) => (db', .done a)
        | .error e => (db, .fail e) := by
  cases h : t i db with
  | ok r => simp [transaction, Proc.tx, Proc.move, h]
  | error e => simp [transaction, Proc.tx, Proc.move, h]

theorem query_move {α : Type} (t : Db → Except Failure α) (db : Db) (i : Input) :
    (query t).move db (.commit i) = (db, .ofExcept (t db)) := by
  unfold query
  rw [transaction_move]
  cases t db <;> rfl

theorem invokeTool_move {α : Type} {execute : Act α} (h : execute.running) (db : Db)
    (m : Proc.Move Input Failure) :
    (invokeTool execute).move db m
      = ((execute.move db m).1, invokeTool (execute.move db m).2) := by
  cases execute with
  | done a => exact h.elim
  | fail e => exact h.elim
  | step w k c => cases m <;> rfl

/-- What the check finds. -/
theorem check_move (ref : CaseRef) (args : CreateConditionArgs) (db : Db) (i : Input) :
    (invokeTool (createConditionTool ref args).execute).move db (.commit i) = (db,
      match db.findCase ref with
      | none => .done (.error Failure.entityNotFound.message)
      | some c =>
        if c.version ≠ args.expectedCaseVersion then .done (.ok .STALE_CASE_VERSION)
        else invokeTool (transaction (writeCondition ref args))) := by
  have hexecute : (createConditionTool ref args).execute.move db (.commit i) = (db,
      (Proc.ofExcept (db.findCaseOrFail ref) : Act LoanCase).bind fun currentCase =>
        if currentCase.version ≠ args.expectedCaseVersion then .done .STALE_CASE_VERSION
        else transaction (writeCondition ref args)) := by
    show ((query fun db => db.findCaseOrFail ref).bind _).move db (.commit i) = _
    rw [Proc.bind_move, query_move]
    · rfl
    · trivial
  have hrunning : (createConditionTool ref args).execute.running := trivial
  rw [invokeTool_move hrunning, hexecute]
  unfold Db.findCaseOrFail
  cases db.findCase ref with
  | none => rfl
  | some c =>
    dsimp only [Proc.ofExcept, Proc.done_bind]
    split <;> rfl

theorem write_move (ref : CaseRef) (args : CreateConditionArgs) (db : Db) (i : Input) :
    (invokeTool (transaction (writeCondition ref args))).move db (.commit i)
      = match writeCondition ref args i db with
        | .ok (db', r) => (db', .done (.ok r))
        | .error e => (db, invokeTool (.fail e)) := by
  have hrunning : (transaction (writeCondition ref args)).running := trivial
  rw [invokeTool_move hrunning, transaction_move]
  cases writeCondition ref args i db <;> rfl

/-- The settlement of the tool's reservation, and what the run makes of the invocation then. -/
theorem settle_move (invocation : Except String CreateConditionResult) (db : Db) (i : Input) :
    ((createRest ctx o (.done invocation)).move db (.commit i)).2
      = match Budget.commit db.budget i.env (settlement ctx o.reservation.reservationId) with
        | .ok (_, committed) => (afterCreate ctx o.version o.reason (.ok (applyBudgetSnapshot
            (applyBudgetSnapshot o.st o.reservation.ledger) committed.ledger) invocation)).bind
              (persisted ctx)
        | .error (.agentBudgetError code message) => persisted ctx (.ended (.review o.st
            (classifyMandatoryReviewTrigger .BUDGET_OR_DEADLINE_EXHAUSTED
              (budgetCodeText code ++ ": " ++ message))))
        | .error e => .fail (.ofBudget e) := by
  unfold createRest createNode executeReserved executeAndSettle onBudgetError commit budgetCall
  simp only [Proc.bind_eq, Proc.done_bind]
  rw [Proc.bind_move, Proc.bind_move, Proc.rescue_move, Proc.bind_move, transaction_move]
  · cases Budget.commit db.budget i.env (settlement ctx o.reservation.reservationId) with
    | ok r => rfl
    | error e => cases e <;> rfl
  all_goals trivial

end Stages

/-! ## What the run owes -/

/-- A run, and the store it shares with everyone else. -/
structure AgentRacing where
  db : Db
  run : Act AgentRunResult

def agentStep (s : AgentRacing) : ContendedLabel → AgentRacing
  | .move m =>
    let (db, run) := s.run.move s.db m
    { db, run }
  | .other write => { s with db := write s.db }

/-- The run's next transaction can write the case or its conditions. -/
def WritesCase (p : Act AgentRunResult) : Prop :=
  ∃ i db, (p.move db (.commit i)).1.caseRows ≠ db.caseRows

/-- The run's next transaction can be followed by such a write. -/
def ChecksCase (p : Act AgentRunResult) : Prop :=
  ∃ i db, WritesCase (p.move db (.commit i)).2

/-- What `create_condition` is about to find, at its check or at its conditional update. -/
def FindsStale (ctx : RunContext) (s : AgentRacing) : Prop :=
  (ChecksCase s.run ∧ ∃ c, s.db.findCase ctx.ref = some c ∧ c.version ≠ ctx.caseVersion)
    ∨ (WritesCase s.run
      ∧ s.db.setCaseStatusAt ctx.ref ctx.caseVersion .CONDITIONS_OPEN = none)

/-- A result that is returned at all is a review for a refusal by the budget ledger. -/
def RefusedByLedger (r : Except Failure AgentRunResult) : Prop :=
  ∀ result, r = .ok result →
    ∃ trigger, result.trigger = some trigger ∧ trigger.category = .BUDGET_OR_DEADLINE_EXHAUSTED

/-- A run of which only a refused settlement can still make anything but StaleCaseVersionError. -/
def ThrowsStale (ctx : RunContext) (p : Act AgentRunResult) : Prop :=
  (∃ reservationId, ∀ db i,
    match Budget.commit db.budget i.env (settlement ctx reservationId) with
    | .ok _ => (p.move db (.commit i)).2 = .fail (.staleCaseVersion ctx.ref.caseId ctx.caseVersion)
    | .error (.agentBudgetError ..) => True
    | .error e => (p.move db (.commit i)).2 = .fail (.ofBudget e))
  ∧ p.Ends RefusedByLedger

/-- **The law**, of one step: when `create_condition` finds the version stale, the run throws. -/
def StaleThrows (ctx : RunContext) (s : AgentRacing) (a : ContendedLabel) : Prop :=
  ∀ i, a = .move (.commit i) → FindsStale ctx s → ThrowsStale ctx (agentStep s a).run

/-- The tool writes while the case has the version the run started from. -/
def VersionHolds (ctx : RunContext) (s : AgentRacing) (a : ContendedLabel) : Prop :=
  ∀ i, a = .move (.commit i) → WritesCase s.run →
    (s.db.findCase ctx.ref).map (·.version) = some ctx.caseVersion

/-! ## Where a run stands -/

section Inversion

variable {ctx : RunContext} {p : Act AgentRunResult}

/-- Up to the check, between check and write, or past the tool. -/
def ToolStage (ctx : RunContext) (p : Act AgentRunResult) : Prop :=
  p.KeepsUntil SameRows (Checking ctx) ∨ Writing ctx p ∨ p.Keeps SameRows

theorem not_writesCase_of_keeps (h : p.Keeps SameRows) : ¬WritesCase p := by
  rintro ⟨i, db, hne⟩
  exact hne (h.move (fun _ => rfl) db (.commit i)).1

theorem not_checksCase_of_keeps (h : p.Keeps SameRows) : ¬ChecksCase p := by
  rintro ⟨i, db, hwrites⟩
  exact not_writesCase_of_keeps (h.move (fun _ => rfl) db (.commit i)).2 hwrites

theorem invokeTool_fail_keeps (e : Failure) :
    (invokeTool (.fail e) : Act (Except String CreateConditionResult)).Keeps SameRows :=
  catch_keeps (Proc.keeps_fail e) fun _ => Proc.keeps_done _

/-- The check goes on to the write, or the tool has answered. -/
theorem Checking.move (h : Checking ctx p) (db : Db) (m : Proc.Move Input Failure) :
    (p.move db m).1 = db ∧ (Writing ctx (p.move db m).2 ∨ (p.move db m).2.Keeps SameRows) := by
  obtain ⟨o, args, hargs, rfl⟩ := h
  have hrunning : (invokeTool (createConditionTool ctx.ref args).execute).running := trivial
  rw [createRest_move ctx o hrunning]
  cases m with
  | commit i =>
    rw [check_move]
    refine ⟨rfl, ?_⟩
    cases db.findCase ctx.ref with
    | none => exact Or.inr (createRest_keeps ctx o (Proc.keeps_done _))
    | some c =>
      dsimp only
      split
      · exact Or.inr (createRest_keeps ctx o (Proc.keeps_done _))
      · exact Or.inl ⟨o, args, hargs, rfl⟩
  | lose e => exact ⟨rfl, Or.inr (createRest_keeps ctx o (invokeTool_fail_keeps e))⟩
  | unreported i e =>
    have hread : ((invokeTool (createConditionTool ctx.ref args).execute).move db (.commit i)).1
        = db := by rw [check_move]
    exact ⟨hread, Or.inr (createRest_keeps ctx o (invokeTool_fail_keeps e))⟩

/-- After its write the tool has answered. -/
theorem Writing.move (h : Writing ctx p) (db : Db) (m : Proc.Move Input Failure) :
    (p.move db m).2.Keeps SameRows := by
  obtain ⟨o, args, hargs, rfl⟩ := h
  have hrunning : (invokeTool (transaction (writeCondition ctx.ref args))).running := trivial
  rw [createRest_move ctx o hrunning]
  apply createRest_keeps
  cases m with
  | commit i =>
    rw [write_move]
    cases writeCondition ctx.ref args i db with
    | ok r => exact Proc.keeps_done _
    | error e => exact invokeTool_fail_keeps e
  | lose e => exact invokeTool_fail_keeps e
  | unreported i e => exact invokeTool_fail_keeps e

theorem toolStage_move (h : ToolStage ctx p) (db : Db) (m : Proc.Move Input Failure) :
    ToolStage ctx (p.move db m).2 := by
  rcases h with huntil | hwriting | hkeeps
  · by_cases hchecking : Checking ctx p
    · exact Or.inr (hchecking.move db m).2
    · exact Or.inl (huntil.move hchecking (fun _ => rfl) db m).2
  · exact Or.inr (Or.inr (hwriting.move db m))
  · exact Or.inr (Or.inr (hkeeps.move (fun _ => rfl) db m).2)

theorem not_writesCase_of_until (h : p.KeepsUntil SameRows (Checking ctx)) :
    ¬WritesCase p := by
  rintro ⟨i, db, hne⟩
  by_cases hchecking : Checking ctx p
  · exact hne (by rw [(hchecking.move db (.commit i)).1])
  · exact hne (h.move hchecking (fun _ => rfl) db (.commit i)).1

/-- The one transaction of a run that writes the case is the tool's write. -/
theorem writing_of_writesCase (h : ToolStage ctx p) (hwrites : WritesCase p) : Writing ctx p := by
  rcases h with huntil | hwriting | hkeeps
  · exact absurd hwrites (not_writesCase_of_until huntil)
  · exact hwriting
  · exact absurd hwrites (not_writesCase_of_keeps hkeeps)

/-- The transaction before it is the tool's check. -/
theorem checking_of_checksCase (h : ToolStage ctx p) (hchecks : ChecksCase p) :
    Checking ctx p := by
  rcases h with huntil | hwriting | hkeeps
  · by_contra hchecking
    obtain ⟨i, db, hwrites⟩ := hchecks
    exact not_writesCase_of_until (huntil.move hchecking (fun _ => rfl) db (.commit i)).2 hwrites
  · obtain ⟨i, db, hwrites⟩ := hchecks
    exact absurd hwrites (not_writesCase_of_keeps (hwriting.move db (.commit i)))
  · exact absurd hchecks (not_checksCase_of_keeps hkeeps)

end Inversion

/-! ## The two channels -/

section Channels

variable {ctx : RunContext}

/-- What the last node makes of a settled or refused tool. -/
def Settled (invocation : Except String CreateConditionResult) :
    Except Failure (BudgetedToolResult CreateConditionResult) → Prop
  | .ok (.ok _ r) => r = invocation
  | .ok (.refused _ trigger) => trigger.category = .BUDGET_OR_DEADLINE_EXHAUSTED
  | .error _ => True

theorem executeReserved_ends (ctx : RunContext) (o : Opening)
    (invocation : Except String CreateConditionResult) :
    (executeReserved ctx o.st o.reservation (.done invocation)).Ends (Settled invocation) := by
  have hbody : (executeAndSettle ctx o.st o.reservation (.done invocation)).Ends
      (Settled invocation) := by
    show ((commit _).bind _).Ends _
    exact (Proc.ends_trivial _).bind (fun _ _ => rfl) fun _ _ => trivial
  apply hbody.rescue
  · intro e _
    split
    · exact rfl
    · trivial
  · exact fun _ h => h

theorem persisted_ends (ctx : RunContext) {result : AgentRunResult}
    {post : Except Failure AgentRunResult → Prop} (h : post (.ok result))
    (he : ∀ e, post (.error e)) : (persisted ctx result).Ends post :=
  (Proc.ends_trivial _).bind (fun _ _ => h) fun e _ => he e

theorem refusedByLedger_error (e : Failure) : RefusedByLedger (.error e) := by
  intro result hresult
  cases hresult

/-- The answer STALE_CASE_VERSION makes the run throw. -/
theorem stale_answer_throws (o : Opening) :
    ThrowsStale ctx (createRest ctx o (.done (.ok .STALE_CASE_VERSION))) := by
  refine ⟨⟨o.reservation.reservationId, fun db i => ?_⟩, ?_⟩
  · rw [settle_move]
    cases Budget.commit db.budget i.env (settlement ctx o.reservation.reservationId) with
    | ok r => rfl
    | error e => cases e <;> trivial
  · have hnode : (createNode ctx o (.done (.ok .STALE_CASE_VERSION))).Ends RefusedByLedger := by
      apply (executeReserved_ends ctx o _).bind
      · intro r hr
        cases r with
        | refused st trigger =>
          intro result hresult
          cases hresult
          exact ⟨trigger, rfl, hr⟩
        | ok st invocation =>
          have hinvocation : invocation = .ok .STALE_CASE_VERSION := hr
          rw [hinvocation]
          exact refusedByLedger_error _
      · exact fun e _ => refusedByLedger_error e
    apply hnode.bind
    · intro result hresult
      exact persisted_ends ctx hresult refusedByLedger_error
    · exact fun e _ => refusedByLedger_error e

def acceptingLedger (tenantId : Uuid) : Budget.AgentBudgetLedger where
  id := 0
  tenantId := tenantId
  caseId := 0
  workflowRunId := ""
  stepLimit := 1
  tokenLimit := 0
  providerCallLimit := 0
  costLimitMinorUnits := 0
  currency := "USD"
  startedAt := 0
  deadlineAt := 1

def committedReservation (tenantId reservationId : Uuid) : Budget.AgentBudgetReservation where
  id := reservationId
  tenantId := tenantId
  ledgerId := 0
  idempotencyKey := ""
  units := ⟨1, 0, 0, 0⟩
  aggregateWindowStart := none
  status := .COMMITTED

/-- A budget whose ledger accepts the settlement. -/
def acceptingBudget (tenantId reservationId : Uuid) : Budget.Db where
  tenants := .empty
  ledgers := ⟨[acceptingLedger tenantId], List.nodup_singleton _⟩
  reservations := ⟨[committedReservation tenantId reservationId], List.nodup_singleton _⟩
  usage := .empty

theorem commit_acceptingBudget (ctx : RunContext) (reservationId : Uuid) (env : Budget.Env) :
    Budget.commit (acceptingBudget ctx.ref.tenantId reservationId) env
        (settlement ctx reservationId)
      = .ok (acceptingBudget ctx.ref.tenantId reservationId,
        Budget.receipt (committedReservation ctx.ref.tenantId reservationId)
          (acceptingLedger ctx.ref.tenantId) false env) := by
  have hledger : (acceptingBudget ctx.ref.tenantId reservationId).findLedger 0 ctx.ref.tenantId
      = some (acceptingLedger ctx.ref.tenantId) := by
    simp [Budget.Db.findLedger, acceptingBudget, Table.find, acceptingLedger]
  have hreservation : (acceptingBudget ctx.ref.tenantId reservationId).reservations.find
      reservationId = some (committedReservation ctx.ref.tenantId reservationId) := by
    simp [acceptingBudget, Table.find, committedReservation]
  have hcommit : Budget.commit (acceptingBudget ctx.ref.tenantId reservationId) env
      (settlement ctx reservationId) = Budget.resolveReservation
        (acceptingBudget ctx.ref.tenantId reservationId) ctx.ref.tenantId reservationId
        (Budget.commitAction (acceptingBudget ctx.ref.tenantId reservationId) env
          (settlement ctx reservationId) (some 0)) := rfl
  rw [hcommit]
  unfold Budget.resolveReservation
  simp only [hreservation, Option.filter_some]
  simp [committedReservation, hledger, Budget.commitAction, settlement]

/-- A failure of the tool, whatever it was, is for a reviewer. -/
theorem failure_not_thrown (o : Opening) (e : String) :
    ¬ThrowsStale ctx (createRest ctx o (.done (.error e))) := by
  rintro ⟨-, hends⟩
  let db : Db := { sampleDb .COLLECTING_EVIDENCE [] with
    budget := acceptingBudget ctx.ref.tenantId o.reservation.reservationId }
  have hnext := hends.move db (.commit (sampleInput 0))
  rw [settle_move, commit_acceptingBudget] at hnext
  have hresult := hnext.move db (.commit (sampleInput 0))
  obtain ⟨trigger, htrigger, hcategory⟩ := hresult _ rfl
  cases htrigger
  cases hcategory

/-- The conditional update affects a row exactly at the expected version. -/
theorem setCaseStatusAt_eq_none_iff {db : Db} {ref : CaseRef} {version : Nat}
    {status : CaseStatus} :
    db.setCaseStatusAt ref version status = none
      ↔ (db.findCase ref).map (·.version) ≠ some version := by
  unfold Db.setCaseStatusAt
  cases db.findCase ref with
  | none => simp
  | some c => by_cases hv : c.version = version <;> simp [hv]

/-- A write that affects no case throws, and the tool's wrapper makes that a failure. -/
theorem write_stale {ref : CaseRef} {args : CreateConditionArgs} {i : Input} {db : Db}
    (h : db.setCaseStatusAt ref args.expectedCaseVersion .CONDITIONS_OPEN = none) :
    ∃ e, ((invokeTool (transaction (writeCondition ref args))).move db (.commit i)).2
      = .done (.error e) := by
  rw [write_move]
  unfold writeCondition
  dsimp only
  cases db.conditions.insert (newCondition ref args i) with
  | none => exact ⟨_, rfl⟩
  | some conditions =>
    have hset : { db with conditions }.setCaseStatusAt ref args.expectedCaseVersion
        .CONDITIONS_OPEN = none := by
      rw [setCaseStatusAt_eq_none_iff] at h ⊢
      exact h
    dsimp only
    rw [hset]
    exact ⟨_, rfl⟩

variable {s : AgentRacing} {a : ContendedLabel}

theorem versionHolds_of_staleThrows (h : ToolStage ctx s.run) (hlaw : StaleThrows ctx s a) :
    VersionHolds ctx s a := by
  rintro i rfl hwrites
  by_contra hversion
  have hset : s.db.setCaseStatusAt ctx.ref ctx.caseVersion .CONDITIONS_OPEN = none :=
    setCaseStatusAt_eq_none_iff.mpr hversion
  have hthrows := hlaw i rfl (Or.inr ⟨hwrites, hset⟩)
  obtain ⟨o, args, hargs, hrun⟩ := writing_of_writesCase h hwrites
  have hrunning : (invokeTool (transaction (writeCondition ctx.ref args))).running := trivial
  rw [← hargs] at hset
  obtain ⟨e, he⟩ := write_stale (i := i) hset
  have hafter : (agentStep s (.move (.commit i))).run = createRest ctx o (.done (.error e)) := by
    show (s.run.move s.db (.commit i)).2 = _
    rw [hrun, createRest_move ctx o hrunning, he]
  rw [hafter] at hthrows
  exact failure_not_thrown o e hthrows

theorem staleThrows_of_versionHolds (h : ToolStage ctx s.run) (hversion : VersionHolds ctx s a) :
    StaleThrows ctx s a := by
  rintro i rfl (⟨hchecks, c, hc, hne⟩ | ⟨hwrites, hset⟩)
  · obtain ⟨o, args, hargs, hrun⟩ := checking_of_checksCase h hchecks
    have hrunning : (invokeTool (createConditionTool ctx.ref args).execute).running := trivial
    have hafter : (agentStep s (.move (.commit i))).run
        = createRest ctx o (.done (.ok .STALE_CASE_VERSION)) := by
      show (s.run.move s.db (.commit i)).2 = _
      rw [hrun, createRest_move ctx o hrunning, check_move, hc]
      simp [hargs, hne]
    rw [hafter]
    exact stale_answer_throws o
  · exact absurd (hversion i rfl hwrites) (setCaseStatusAt_eq_none_iff.mp hset)

end Channels

/-! ## The theorem -/

theorem toolStage_step (ctx : RunContext) (s : AgentRacing) (a : ContendedLabel)
    (h : ToolStage ctx s.run) : ToolStage ctx (agentStep s a).run := by
  cases a with
  | move m => exact toolStage_move h s.db m
  | other write => exact h

/-- **When a stale version is thrown.** Over every interleaving of a run with other writers, every
stale version that `create_condition` finds makes the run throw StaleCaseVersionError if and only
if each write of the tool meets the version that the run started from. -/
theorem stale_thrown_iff (deps : RuntimeDeps) (ctx : RunContext) (budget : AgentRunBudget)
    (startedAt : Instant) (db : Db) (run : List ContendedLabel) :
    AllSteps agentStep (StaleThrows ctx) ⟨db, runAgent deps ctx budget startedAt⟩ run
      ↔ AllSteps agentStep (VersionHolds ctx) ⟨db, runAgent deps ctx budget startedAt⟩ run := by
  have hstage : AllSteps agentStep (fun s _ => ToolStage ctx s.run)
      ⟨db, runAgent deps ctx budget startedAt⟩ run :=
    allSteps_of_inv (toolStage_step ctx) (fun _ _ h => h)
      (Or.inl (runAgent_until deps ctx budget startedAt)) run
  constructor
  · intro hlaw
    exact (hstage.and hlaw).imp fun s a h => versionHolds_of_staleThrows h.1 h.2
  · intro hversion
    exact (hstage.and hversion).imp fun s a h => staleThrows_of_versionHolds h.1 h.2

/-! ## A case that is escalated between check and write -/

def sampleBudget : AgentRunBudget where
  stepBudget := 10
  durationBudgetMs := 75000
  tokenBudget := 0

def sampleRacing : AgentRacing :=
  ⟨collectedDb, runAgent sampleDeps sampleContext sampleBudget 1786795200000⟩

/-- The run up to the tool's write, with the escalation that raises the case's version. -/
def escalatedBeforeWrite : List ContendedLabel :=
  executionCommits 0 23 ++ [.other fun db => escalateToReviewer db sampleRef "late documents" 1]

/-- The write finds the version changed: the run records a failed tool and ends in manual review. -/
theorem residual_race_reviewed :
    ¬AllSteps agentStep (StaleThrows sampleContext) sampleRacing
        (escalatedBeforeWrite ++ executionCommits 23 3)
      ∧ (exec agentStep sampleRacing (escalatedBeforeWrite ++ executionCommits 23 3)).db.agentRuns.map
          (fun r => (r.route, r.reviewReason))
        = [(.ROUTED_TO_MANUAL_REVIEW, some ("[TOOL_EXECUTION_FAILURE] create_condition failed: "
            ++ "case 10 version changed during the write (expected 1); re-evaluation required"))] := by
  refine ⟨?_, by decide +kernel⟩
  intro hlaw
  have hstage : ToolStage sampleContext (exec agentStep sampleRacing escalatedBeforeWrite).run :=
    exec_inv (toolStage_step sampleContext)
      (Or.inl (runAgent_until sampleDeps sampleContext sampleBudget 1786795200000)) _
  have hwrites : WritesCase (exec agentStep sampleRacing escalatedBeforeWrite).run :=
    ⟨sampleInput 23, collectedDb, by decide +kernel⟩
  have hversion := versionHolds_of_staleThrows hstage hlaw.of_append_right.1 (sampleInput 23) rfl
    hwrites
  revert hversion
  decide +kernel

end MortgageAgent.Workflow
