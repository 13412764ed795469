import MortgageAgent.Workflow.Activities

/-!
# What an evaluation writes

The contract of one `evaluateConditions` execution, whatever runs between its transactions and
wherever it is stopped. Having read the case at version `v`, it leaves the cases and the
conditions alone except for at most one write, made while the case still has version `v`: either
it opens one condition and sets the case to CONDITIONS_OPEN, or it sets the case to
READY_FOR_UNDERWRITING. It answers CONDITION_OPENED with an id only after having opened the
condition with that id.

* **`Phase`** / **`EvaluationStep`** — the protocol.
* **`AllowsRun`** — the relations on stores that all of a run's transactions but its decision stay
  within, with one lemma for each function of the run.
* **`evaluateCase_obeys`** — the contract.
-/

namespace MortgageAgent.Workflow

open Proc (Obeys)

/-- The part of the store the contract is about. -/
def Db.caseRows (db : Db) :
    Table LoanCase LoanCase.id × Table LoanCondition LoanCondition.id :=
  (db.loanCases, db.conditions)

theorem loanCases_of_caseRows {db db' : Db} (h : db'.caseRows = db.caseRows) :
    db'.loanCases = db.loanCases := congrArg Prod.fst h

theorem conditions_of_caseRows {db db' : Db} (h : db'.caseRows = db.caseRows) :
    db'.conditions = db.conditions := congrArg Prod.snd h

/-- Where an activity stands: it knows nothing of the case, it has read it at a version, it has
opened a condition, or it holds that the case has no active condition. -/
inductive Phase where
  | idle
  | reading (version : Nat)
  | opened (conditionId : Uuid)
  | clear
  deriving DecidableEq

/-- A condition as `create_condition` inserts it for the case. -/
structure LoanCondition.OpenFor (condition : LoanCondition) (ref : CaseRef) : Prop where
  tenantId : condition.tenantId = ref.tenantId
  caseId : condition.caseId = ref.caseId
  status : condition.status = .OPEN

/-- The transactions of an evaluation, with the phase each leads to. -/
inductive EvaluationStep (ref : CaseRef) : Phase → Db → Db → Phase → Prop where
  | quiet {g : Phase} {db db' : Db} (h : db'.caseRows = db.caseRows) : EvaluationStep ref g db db' g
  | opens {db db' : Db} {c : LoanCase} {condition : LoanCondition} (hc : db.findCase ref = some c)
      (hcases : db'.loanCases = db.loanCases.put (c.withStatus .CONDITIONS_OPEN))
      (hinsert : db.conditions.insert condition = some db'.conditions)
      (hopen : condition.OpenFor ref) :
      EvaluationStep ref (.reading c.version) db db' (.opened condition.id)
  | readies {db db' : Db} {c : LoanCase} (hc : db.findCase ref = some c)
      (hcases : db'.loanCases = db.loanCases.put (c.withStatus .READY_FOR_UNDERWRITING))
      (hconditions : db'.conditions = db.conditions) :
      EvaluationStep ref (.reading c.version) db db' .clear

theorem evaluationStep_refl (ref : CaseRef) (g : Phase) (db : Db) :
    EvaluationStep ref g db db g := .quiet rfl

/-- The case, its conditions and the outbox: what an evaluation's decision is written to. -/
def Db.decisionRows (db : Db) :
    (Table LoanCase LoanCase.id × Table LoanCondition LoanCondition.id) × List OutboxEvent :=
  (db.caseRows, db.outbox)

/-- A part of the store without the rows that a run writes on the way to its decision. -/
class DecisionView {τ : Type} (view : Db → τ) : Prop where
  budget : ∀ db budget, view { db with budget } = view db
  manifests : ∀ db manifests, view { db with manifests } = view db
  invocations : ∀ db invocations, view { db with invocations } = view db
  agentRuns : ∀ db agentRuns, view { db with agentRuns } = view db

instance : DecisionView Db.caseRows :=
  ⟨fun _ _ => rfl, fun _ _ => rfl, fun _ _ => rfl, fun _ _ => rfl⟩

instance : DecisionView Db.decisionRows :=
  ⟨fun _ _ => rfl, fun _ _ => rfl, fun _ _ => rfl, fun _ _ => rfl⟩

/-- What a run may do to the store on the way to its decision: the calls of the budget ledger, and
the rows of its own. -/
class AllowsRun (R : Db → Db → Prop) : Prop where
  refl : ∀ db, R db db
  createOrLoad : ∀ db env newId input,
    R db { db with budget := (Budget.createOrLoad db.budget env newId input).1 }
  claim : ∀ {db env newId input units budget receipt},
    Budget.reserveClaim db.budget env newId input units = .ok (budget, receipt) →
      R db { db with budget }
  commit : ∀ {db env input budget receipt},
    Budget.commit db.budget env input = .ok (budget, receipt) → R db { db with budget }
  release : ∀ {db env tenantId reservationId budget receipt},
    Budget.release db.budget env tenantId reservationId none = .ok (budget, receipt) →
      R db { db with budget }
  markUnknown : ∀ {db env tenantId reservationId budget receipt},
    Budget.markUnknown db.budget env tenantId reservationId = .ok (budget, receipt) →
      R db { db with budget }
  manifests : ∀ db manifests, R db { db with manifests }
  invocations : ∀ db invocations, R db { db with invocations }
  agentRuns : ∀ db agentRuns, R db { db with agentRuns }

instance {τ : Type} {view : Db → τ} [DecisionView view] :
    AllowsRun fun db db' => view db' = view db where
  refl _ := rfl
  createOrLoad db _ _ _ := DecisionView.budget db _
  claim _ := DecisionView.budget _ _
  commit _ := DecisionView.budget _ _
  release _ := DecisionView.budget _ _
  markUnknown _ := DecisionView.budget _ _
  manifests := DecisionView.manifests
  invocations := DecisionView.invocations
  agentRuns := DecisionView.agentRuns

/-! ## Transactions -/

section View

variable {R : Db → Db → Prop} [AllowsRun R]

theorem transaction_keeps {α : Type} {t : Input → Db → Except Failure (Db × α)}
    (h : ∀ i db db' a, t i db = .ok (db', a) → R db db') : (transaction t).Keeps R := by
  apply Proc.keeps_tx
  intro i db
  cases ht : t i db with
  | ok r => exact h i db r.1 r.2 ht
  | error e => exact AllowsRun.refl db

theorem query_keeps {α : Type} (t : Db → Except Failure α) : (query t).Keeps R := by
  apply transaction_keeps
  intro i db db' a h
  cases ht : t db with
  | ok b => rw [ht] at h; cases h; exact AllowsRun.refl db
  | error e => rw [ht] at h; cases h

/-- A service's answer. -/
theorem answer_keeps {α : Type} (f : Input → Except Failure α) :
    (Proc.tx fun i db => (db, f i) : Act α).Keeps R :=
  Proc.keeps_tx fun _ db => AllowsRun.refl db

theorem ask_keeps {α : Type} (f : Input → α) : (Proc.ask f : Act α).Keeps R :=
  Proc.keeps_tx fun _ db => AllowsRun.refl db

omit [AllowsRun R] in
theorem catch_keeps {α : Type} {p : Act α} {handler : Failure → Act α}
    (hp : p.Keeps R) (hh : ∀ e, (handler e).Keeps R) : (Act.catch p handler).Keeps R := by
  apply hp.rescue
  intro e
  cases e <;> first | exact Proc.keeps_fail _ | exact hh _

omit [AllowsRun R] in
theorem invokeTool_keeps {α : Type} {execute : Act α} (h : execute.Keeps R) :
    (invokeTool execute).Keeps R :=
  catch_keeps (h.bind fun _ => Proc.keeps_done _) fun _ => Proc.keeps_done _

/-! ## The budget ledger -/

omit [AllowsRun R] in
theorem onBudgetError_keeps {α : Type} {p : Act α} {handler : MandatoryReviewTrigger → Act α}
    (hp : p.Keeps R) (hh : ∀ t, (handler t).Keeps R) : (onBudgetError p handler).Keeps R := by
  apply hp.rescue
  intro e
  split
  · exact hh _
  · exact Proc.keeps_fail _

theorem budgetExceeded_keeps (st : AgentState) : (budgetExceeded st).Keeps R := by
  unfold budgetExceeded
  split
  · exact Proc.keeps_done _
  · apply (ask_keeps _).bind
    intro now
    split <;> exact Proc.keeps_done _

theorem budgetCall_keeps {α : Type}
    {t : Input → Budget.Db → Except Budget.BudgetFailure (Budget.Db × α)}
    (ht : ∀ i db budget a, t i db.budget = .ok (budget, a) → R db { db with budget }) :
    (budgetCall t).Keeps R := by
  apply transaction_keeps
  intro i db db' a h
  cases hcall : t i db.budget with
  | ok r => rw [hcall] at h; cases h; exact ht i db _ _ hcall
  | error e => rw [hcall] at h; cases h

/-- A call that only reads. -/
theorem budgetRead_keeps {α : Type} (t : Input → Budget.Db → Except Budget.BudgetFailure α) :
    (budgetCall fun i db => (t i db).map (db, ·)).Keeps R := by
  apply budgetCall_keeps
  intro i db budget a h
  cases hread : t i db.budget with
  | ok b => rw [hread] at h; cases h; exact AllowsRun.refl db
  | error e => rw [hread] at h; cases h

theorem createOrLoad_keeps (input : Budget.AgentBudgetLedgerInput) :
    (createOrLoad input).Keeps R :=
  Proc.keeps_tx fun _ db => AllowsRun.createOrLoad db _ _ _

theorem commit_keeps (input : Budget.CommitInput) : (commit input).Keeps R :=
  budgetCall_keeps fun _ _ _ _ h => AllowsRun.commit h

theorem release_keeps (tenantId reservationId : Uuid) : (release tenantId reservationId).Keeps R :=
  budgetCall_keeps fun _ _ _ _ h => AllowsRun.release h

theorem markUnknown_keeps (tenantId reservationId : Uuid) :
    (markUnknown tenantId reservationId).Keeps R :=
  budgetCall_keeps fun _ _ _ _ h => AllowsRun.markUnknown h

theorem reserve_keeps (input : Budget.ReserveInput) : (reserve input).Keeps R := by
  apply (Proc.keeps_ofExcept _).bind
  intro units
  apply (budgetRead_keeps _).bind
  intro found
  cases found with
  | some receipt => exact Proc.keeps_done _
  | none =>
    apply Proc.Keeps.rescue
    · exact budgetCall_keeps fun _ _ _ _ h => AllowsRun.claim h
    · intro e
      split
      · exact budgetRead_keeps _
      · exact Proc.keeps_fail _

theorem consumeBudgetedRuntimeStep_keeps (ctx : RunContext) (st : AgentState) (name : String) :
    (consumeBudgetedRuntimeStep ctx st name).Keeps R := by
  apply (budgetExceeded_keeps st).bind
  intro exceeded
  cases exceeded with
  | some trigger => exact Proc.keeps_done _
  | none =>
    apply onBudgetError_keeps
    · apply (reserve_keeps _).bind
      intro reservation
      apply (commit_keeps _).bind
      intro committed
      exact Proc.keeps_done _
    · intro trigger
      exact Proc.keeps_done _

end View

/-! ## Tools -/

section Tool

variable {α γ : Type} {R : Db → Db → Prop} {G : γ → Db → Db → γ → Prop} {Q : γ → α → Prop} {g : γ}

/-- Code that returned `a` did so in a phase that meets `Q · a`. -/
def Returned (Q : γ → α → Prop) : γ → Except Failure α → Prop
  | g, .ok a => Q g a
  | _, .error _ => True

def Invoked (Q : γ → α → Prop) : γ → Except String α → Prop
  | g, .ok a => Q g a
  | _, .error _ => True

def BudgetedReturned (Q : γ → α → Prop) : γ → BudgetedToolResult α → Prop
  | g, .ok _ invocation => Invoked Q g invocation
  | _, .refused .. => True

/-- The protocols that let the rest of the store change. -/
def LetsQuiet (G : γ → Db → Db → γ → Prop) : Prop :=
  ∀ g db db', db'.caseRows = db.caseRows → G g db db' g

/-- The protocols that let `R` happen in any phase. -/
def LetsRest (R : Db → Db → Prop) (G : γ → Db → Db → γ → Prop) : Prop :=
  ∀ g db db', R db db' → G g db db' g

/-- The rule for a transaction, which writes nothing when it throws. -/
theorem transaction_obeys {t : Input → Db → Except Failure (Db × α)}
    (hG : ∀ db, G g db db g)
    (ht : ∀ i db db' a, t i db = .ok (db', a) → ∃ g', G g db db' g' ∧ Q g' a) :
    (transaction t).Obeys G (Returned Q) g := by
  apply Proc.obeys_tx
  · intro i db
    cases h : t i db with
    | error e => exact ⟨g, hG db, trivial, fun _ => trivial⟩
    | ok r =>
      obtain ⟨g', hw, hQ⟩ := ht i db r.1 r.2 h
      exact ⟨g', hw, hQ, fun _ => trivial⟩
  · intro e
    trivial

theorem keeps_obeys {p : Act α} (hp : p.Keeps R) (hG : LetsRest R G) (g : γ) :
    p.Obeys G (fun f _ => f = g) g :=
  hp.obeys (hG g) fun _ => rfl

/-- After such code the phase is what it was, whatever the code returned or threw. -/
theorem keeps_bind_obeys {β : Type} {p : Act α} (hp : p.Keeps R) (hG : LetsRest R G)
    {f : α → Act β} {S : γ → β → Prop} (hf : ∀ a, (f a).Obeys G (Returned S) g) :
    (p.bind f).Obeys G (Returned S) g := by
  apply (keeps_obeys hp hG g).bind
  · rintro _ a rfl
    exact hf a
  · intro _ e _
    trivial

theorem invokeTool_obeys {execute : Act α} (h : execute.Obeys G (Returned Q) g) :
    (invokeTool execute).Obeys G (Returned (Invoked Q)) g := by
  have hbody : (execute.bind fun a => Proc.done (.ok a) : Act (Except String α)).Obeys G
      (Returned (Invoked Q)) g :=
    h.bind (fun _ _ hQ => hQ) (fun _ _ _ => trivial)
  apply hbody.rescue
  · intro g e _
    cases e <;> trivial
  · exact fun _ _ h => h

variable [AllowsRun R]

theorem quarantine_obeys (hG : LetsRest R G) (ctx : RunContext) (st : AgentState) (name : String)
    (reservation : Budget.AgentBudgetReservationReceipt) :
    (quarantine ctx st name reservation : Act (BudgetedToolResult α)).Obeys G
      (Returned (BudgetedReturned Q)) g := by
  unfold quarantine
  split
  · apply keeps_bind_obeys (markUnknown_keeps _ _) hG
    intro unknown
    trivial
  · trivial

theorem quarantine_keeps (ctx : RunContext) (st : AgentState) (name : String)
    (reservation : Budget.AgentBudgetReservationReceipt) :
    (quarantine ctx st name reservation : Act (BudgetedToolResult α)).Keeps R := by
  unfold quarantine
  split
  · apply (markUnknown_keeps _ _).bind
    intro unknown
    exact Proc.keeps_done _
  · exact Proc.keeps_done _

/-- A budgeted tool keeps to the protocol its execution keeps to. -/
theorem invokeBudgetedTool_obeys (hG : LetsRest R G) (ctx : RunContext) (st : AgentState)
    {tool : AgentTool α} (h : tool.execute.Obeys G (Returned Q) g) :
    (invokeBudgetedTool ctx st tool).Obeys G (Returned (BudgetedReturned Q)) g := by
  apply keeps_bind_obeys (budgetExceeded_keeps st) hG
  intro exceeded
  cases exceeded with
  | some trigger => trivial
  | none =>
    have hbody : (do
        let reservation ← reserve (stepReservation ctx st tool.name)
        let reservedState := applyBudgetSnapshot st reservation.ledger
        if reservation.replayed && tool.sideEffect ≠ .NONE then
          quarantine ctx reservedState tool.name reservation
        else
          let invocation ← invokeTool tool.execute
          let committed ← commit {
            tenantId := ctx.ref.tenantId
            reservationId := reservation.reservationId
            actualCostMinorUnits := some (.int 0) }
          return .ok (applyBudgetSnapshot reservedState committed.ledger) invocation :
        Act (BudgetedToolResult α)).Obeys G (Returned (BudgetedReturned Q)) g := by
      apply keeps_bind_obeys (reserve_keeps _) hG
      intro reservation
      dsimp only
      split
      · exact quarantine_obeys hG ctx _ tool.name reservation
      · apply (invokeTool_obeys h).bind
        · intro g invocation hinvocation
          exact keeps_bind_obeys (commit_keeps _) hG fun _ => hinvocation
        · intro _ e _
          trivial
    apply hbody.rescue
    · intro g e _
      split <;> trivial
    · exact fun _ _ h => h

theorem invokeBudgetedTool_keeps (ctx : RunContext) (st : AgentState) {tool : AgentTool α}
    (h : tool.execute.Keeps R) :
    (invokeBudgetedTool ctx st tool).Keeps R := by
  have hexecute : tool.execute.Obeys (fun (_ : Unit) s s' _ => R s s')
      (Returned fun _ _ => True) () := by
    apply h.imp (fun _ _ _ _ hw => hw)
    intro g r _
    cases r <;> trivial
  have hlets : LetsRest R fun (_ : Unit) s s' _ => R s s' := fun _ _ _ hw => hw
  exact (invokeBudgetedTool_obeys hlets ctx st hexecute).imp (fun _ _ _ _ hw => hw)
    fun _ _ _ => trivial

end Tool

/-! ## The nodes -/

section Nodes

variable {R : Db → Db → Prop} [AllowsRun R]

theorem checkCompletenessNode_keeps (ctx : RunContext) (st : AgentState) :
    (checkCompletenessNode ctx st).Keeps R := by
  have htool : (checkCaseCompletenessTool ctx.ref).execute.Keeps R := by
    dsimp only [checkCaseCompletenessTool]
    exact query_keeps _
  apply (invokeBudgetedTool_keeps ctx st htool).bind
  intro r
  cases r with
  | refused st trigger => exact Proc.keeps_done _
  | ok st invocation =>
    dsimp only
    split <;> exact Proc.keeps_done _

theorem persistPlannerInvocation_keeps (deps : RuntimeDeps) (ctx : RunContext)
    (planner : AgentPlannerPort) (result : AgentPlannerResult) (confidence : JsDecimal) :
    (persistPlannerInvocation deps ctx planner result confidence).Keeps R := by
  apply Proc.Keeps.rescue
  · apply transaction_keeps
    intro i db db' a h
    unfold insertInvocation at h
    split at h
    · cases h
    · split at h
      · cases h
      · cases h; exact AllowsRun.invocations db _
  · intro e
    split
    · apply (query_keeps _).bind
      intro found
      cases found <;> trivial
    · exact Proc.keeps_fail _

theorem plannerRecord_keeps (deps : RuntimeDeps) (ctx : RunContext) (planner : AgentPlannerPort)
    (record : Option AgentModelInvocation) :
    (plannerRecord deps ctx planner record).Keeps R := by
  cases record with
  | some record => exact Proc.keeps_done _
  | none =>
    apply (answer_keeps _).bind
    intro result
    apply (Proc.keeps_ofExcept _).bind
    intro confidence
    exact persistPlannerInvocation_keeps deps ctx planner result confidence

theorem plannerFailed_keeps (ctx : RunContext) (st : AgentState)
    (reservation : Budget.AgentBudgetReservationReceipt) (error : Failure) :
    (plannerFailed ctx st reservation error).Keeps R := by
  unfold plannerFailed
  split
  · apply (release_keeps _ _).bind
    intro released
    exact Proc.keeps_done _
  · exact Proc.keeps_done _

theorem planNextActionNode_keeps (deps : RuntimeDeps) (ctx : RunContext) (st : AgentState) :
    (planNextActionNode deps ctx st).Keeps R := by
  unfold planNextActionNode
  cases deps.agentPlanner with
  | none => exact Proc.keeps_done _
  | some planner =>
    have hreserve : (reservePlanner ctx st planner).Keeps R :=
      onBudgetError_keeps ((reserve_keeps _).bind fun _ => Proc.keeps_done _)
        fun _ => Proc.keeps_done _
    apply hreserve.bind
    intro reserved
    cases reserved with
    | error result => exact Proc.keeps_done _
    | ok reservation =>
      apply (query_keeps _).bind
      intro record
      apply catch_keeps
      · apply (plannerRecord_keeps deps ctx planner record).bind
        intro record
        dsimp only
        split
        · exact Proc.keeps_done _
        · exact (commit_keeps _).bind fun _ => Proc.keeps_done _
      · exact plannerFailed_keeps ctx st reservation

theorem evaluatePolicyNode_keeps (ctx : RunContext) (st : AgentState) :
    (evaluatePolicyNode ctx st).Keeps R := by
  apply (budgetExceeded_keeps st).bind
  intro exceeded
  cases exceeded with
  | some trigger => exact Proc.keeps_done _
  | none =>
    apply (query_keeps _).bind
    intro loanCase
    apply (invokeBudgetedTool_keeps ctx st (answer_keeps _)).bind
    intro r
    cases r with
    | refused st trigger => exact Proc.keeps_done _
    | ok st invocation =>
      cases invocation with
      | error e => exact Proc.keeps_done _
      | ok result =>
        dsimp only
        split <;> exact Proc.keeps_done _

theorem assembleManifest_keeps (ctx : RunContext) (st : AgentState)
    (evaluation : EvaluatePolicyResult) (evidence : List EvidenceFact) :
    (assembleManifest ctx st evaluation evidence).Keeps R := by
  apply transaction_keeps
  intro i db db' a h
  cases h
  exact AllowsRun.manifests db _

theorem draftForCondition_keeps (ctx : RunContext) (st : AgentState) (version : MatchedVersion)
    (reason : String) (conditionId : Uuid) :
    (draftForCondition ctx st version reason conditionId).Keeps R := by
  apply (invokeBudgetedTool_keeps ctx st (answer_keeps _)).bind
  intro r
  cases r with
  | refused st trigger => exact Proc.keeps_done _
  | ok st invocation => cases invocation <;> exact Proc.keeps_done _

theorem persistAgentRun_keeps (ctx : RunContext) (result : AgentRunResult) :
    (persistAgentRun ctx result).Keeps R := by
  apply transaction_keeps
  intro i db db' a h
  cases h
  exact AllowsRun.agentRuns db _

end Nodes

/-! ## Reviews -/

/-- The run has ended with a review. -/
def AgentRunResult.reviewed (result : AgentRunResult) : Prop :=
  result.route = .INTERRUPTED_FOR_REVIEW ∨ result.route = .ROUTED_TO_MANUAL_REVIEW

theorem reviewed_review (st : AgentState) (trigger : MandatoryReviewTrigger) :
    (AgentRunResult.ended (.review st trigger)).reviewed := by
  unfold AgentRunResult.reviewed AgentRunResult.route
  dsimp only
  cases trigger.category.route with
  | INTERRUPT_FOR_REVIEW => exact Or.inl rfl
  | ROUTE_TO_MANUAL_REVIEW => exact Or.inr rfl

/-! ## Opening a condition -/

section Evaluation

variable {ref : CaseRef}

/-- A transaction of an evaluation that decides nothing writes no event either. -/
def DecisionStep (ref : CaseRef) (g : Phase) (db db' : Db) (g' : Phase) : Prop :=
  EvaluationStep ref g db db' g' ∧ (g' = g → db'.outbox = db.outbox)

theorem decisionStep_refl (ref : CaseRef) (g : Phase) (db : Db) : DecisionStep ref g db db g :=
  ⟨evaluationStep_refl ref g db, fun _ => rfl⟩

theorem decisionStep_letsRest :
    LetsRest (fun db db' => db'.decisionRows = db.decisionRows) (DecisionStep ref) :=
  fun _ _ _ h => ⟨.quiet (congrArg Prod.fst h), fun _ => congrArg Prod.snd h⟩

theorem setCaseStatusAt_some {db db' : Db} {version : Nat} {status : CaseStatus}
    (h : db.setCaseStatusAt ref version status = some db') :
    ∃ c, db.findCase ref = some c ∧ c.version = version
      ∧ db' = { db with loanCases := db.loanCases.put (c.withStatus status) } := by
  unfold Db.setCaseStatusAt at h
  cases hc : db.findCase ref with
  | none => simp [hc] at h
  | some c =>
    rw [hc] at h
    by_cases hv : c.version = version
    · simp only [hv, if_true, Option.some.injEq] at h
      exact ⟨c, rfl, hv, h.symm⟩
    · simp [hv] at h

theorem findCase_some {db : Db} {c : LoanCase} (h : db.findCase ref = some c) :
    c ∈ db.loanCases.rows ∧ c.id = ref.caseId ∧ c.tenantId = ref.tenantId := by
  unfold Db.findCase at h
  rw [Option.filter_eq_some_iff] at h
  have hfind := (db.loanCases.find_eq_some_iff).mp h.1
  exact ⟨hfind.1, hfind.2, by simpa using h.2⟩

theorem findCaseOrFail_ok {db : Db} {c : LoanCase} (h : db.findCaseOrFail ref = .ok c) :
    db.findCase ref = some c := by
  unfold Db.findCaseOrFail at h
  split at h
  · cases h
    assumption
  · cases h

/-- The case a status was written to is found with it. -/
theorem findCase_put {db db' : Db} {c : LoanCase} {status : CaseStatus}
    (hc : db.findCase ref = some c) (h : db'.loanCases = db.loanCases.put (c.withStatus status)) :
    db'.findCase ref = some (c.withStatus status) := by
  obtain ⟨hmem, hid, htenant⟩ := findCase_some hc
  have hfind : db'.loanCases.find ref.caseId = some (c.withStatus status) := by
    rw [h, Table.find_eq_some_iff]
    have hput := db.loanCases.mem_put (r := c.withStatus status) (x := c.withStatus status)
      ⟨c, hmem, rfl⟩
    exact ⟨hput.mpr (Or.inl rfl), hid⟩
  unfold Db.findCase
  rw [hfind]
  exact Option.filter_eq_some_iff.mpr ⟨rfl, decide_eq_true htenant⟩

theorem findCase_congr {db db' : Db} (h : db'.loanCases = db.loanCases) :
    db'.findCase ref = db.findCase ref := by
  unfold Db.findCase
  rw [h]

/-- The writes of a `create_condition` that commits. -/
theorem writeCondition_ok {args : CreateConditionArgs} {i : Input} {db db' : Db}
    {r : CreateConditionResult} (h : writeCondition ref args i db = .ok (db', r)) :
    ∃ conditions c, db.conditions.insert (newCondition ref args i) = some conditions
      ∧ db.findCase ref = some c ∧ c.version = args.expectedCaseVersion ∧ r = .CREATED i.newId
      ∧ db' = ({ db with
          conditions
          loanCases := db.loanCases.put (c.withStatus .CONDITIONS_OPEN) }.writeOutboxEvent ref
            (.conditionOpened i.newId args.code args.policyVersionId args.ruleId
              args.policySnapshotId)).writeOutboxEvent ref
            (.workflowRunWaitingForReview i.newId) := by
  unfold writeCondition at h
  dsimp only at h
  cases hinsert : db.conditions.insert (newCondition ref args i) with
  | none => rw [hinsert] at h; cases h
  | some conditions =>
    rw [hinsert] at h
    dsimp only at h
    split at h
    · cases h
    · rename_i db₁ hset
      obtain ⟨c, hc, hv, rfl⟩ := setCaseStatusAt_some hset
      cases h
      exact ⟨conditions, c, rfl, hc, hv, rfl, rfl⟩

/-- The writes of `create_condition` are the one way to a new condition. -/
theorem writeCondition_step {args : CreateConditionArgs} {i : Input} {db db' : Db}
    {r : CreateConditionResult} (h : writeCondition ref args i db = .ok (db', r)) :
    ∃ id, r = .CREATED id
      ∧ DecisionStep ref (.reading args.expectedCaseVersion) db db' (.opened id) := by
  obtain ⟨conditions, c, hinsert, hc, hv, rfl, rfl⟩ := writeCondition_ok h
  refine ⟨(newCondition ref args i).id, rfl, ?_⟩
  rw [← hv]
  exact ⟨.opens hc rfl hinsert ⟨rfl, rfl, rfl⟩, fun h => by cases h⟩

/-- In the phase a `create_condition` returns in, the condition it names is open. -/
def CreatedIn (g : Phase) (r : CreateConditionResult) : Prop :=
  ∀ id, r = .CREATED id → g = .opened id

theorem createCondition_obeys (args : CreateConditionArgs) :
    (createConditionTool ref args).execute.Obeys (DecisionStep ref) (Returned CreatedIn)
      (.reading args.expectedCaseVersion) := by
  apply keeps_bind_obeys (query_keeps _) decisionStep_letsRest
  intro currentCase
  split
  · intro id h
    cases h
  · apply transaction_obeys (decisionStep_refl ref _)
    intro i db db' r hw
    obtain ⟨id, hid, hstep⟩ := writeCondition_step hw
    refine ⟨_, hstep, ?_⟩
    intro id' h
    rw [hid] at h
    cases h
    rfl

/-- What the graph's result says of the phase it ends in: a proposed condition is open, and no
proposal means that nothing was written. -/
def ProposedIn (v : Nat) : Phase → AgentRunResult → Prop
  | g, .proposedAction _ (some action) => g = .opened action.conditionId
  | g, .proposedAction _ none => g = .reading v
  | _, _ => True

theorem draftForCondition_obeys (ctx : RunContext) (st : AgentState) (version : MatchedVersion)
    (reason : String) (conditionId : Uuid) :
    (draftForCondition ctx st version reason conditionId).Obeys (DecisionStep ref)
      (Returned (ProposedIn ctx.caseVersion)) (.opened conditionId) := by
  apply keeps_bind_obeys (invokeBudgetedTool_keeps ctx st (answer_keeps _))
    decisionStep_letsRest
  intro r
  cases r with
  | refused st trigger => trivial
  | ok st invocation =>
    cases invocation with
    | error e => trivial
    | ok messageId => exact rfl

theorem openCondition_obeys (ctx : RunContext) (st : AgentState)
    (evaluation : EvaluatePolicyResult) (version : MatchedVersion) (reason : String)
    (manifestId : Uuid) :
    (openCondition ctx st evaluation version reason manifestId).Obeys (DecisionStep ctx.ref)
      (Returned (ProposedIn ctx.caseVersion)) (.reading ctx.caseVersion) := by
  apply (invokeBudgetedTool_obeys decisionStep_letsRest ctx st (createCondition_obeys _)).bind
  · intro g r hr
    cases r with
    | refused st trigger => trivial
    | ok st invocation =>
      cases invocation with
      | error e => trivial
      | ok result =>
        cases result with
        | STALE_CASE_VERSION => trivial
        | CREATED id =>
          have hg : g = .opened id := hr id rfl
          rw [hg]
          exact draftForCondition_obeys ctx _ version reason id
  · intro g e _
    trivial

theorem resolveOutcomeNode_obeys (deps : RuntimeDeps) (ctx : RunContext) (st : AgentState)
    (evaluation : EvaluatePolicyResult) :
    (resolveOutcomeNode deps ctx st evaluation).Obeys (DecisionStep ctx.ref)
      (Returned (ProposedIn ctx.caseVersion)) (.reading ctx.caseVersion) := by
  apply keeps_bind_obeys (consumeBudgetedRuntimeStep_keeps ctx st _) decisionStep_letsRest
  intro stepped
  cases stepped with
  | error trigger => trivial
  | ok stepped =>
    dsimp only
    split
    · apply keeps_bind_obeys (assembleManifest_keeps ..) decisionStep_letsRest
      intro manifestId
      exact rfl
    · apply keeps_bind_obeys (query_keeps _) decisionStep_letsRest
      intro facts
      apply keeps_bind_obeys (assembleManifest_keeps ..) decisionStep_letsRest
      intro manifestId
      split
      · exact rfl
      · exact openCondition_obeys ..

/-! ## The evaluation -/

theorem edge_obeys {α : Type} {v : Nat} {node : Act (Except NodeEnd α)}
    {next : α → Act AgentRunResult} (hnode : node.Quiet Db.decisionRows)
    (hnext : ∀ a, (next a).Obeys (DecisionStep ref) (Returned (ProposedIn v)) (.reading v)) :
    (edge node next).Obeys (DecisionStep ref) (Returned (ProposedIn v)) (.reading v) := by
  apply keeps_bind_obeys hnode decisionStep_letsRest
  intro r
  cases r with
  | error reached => trivial
  | ok a => exact hnext a

theorem graph_obeys (deps : RuntimeDeps) (ctx : RunContext) (st : AgentState) :
    (graph deps ctx st).Obeys (DecisionStep ctx.ref) (Returned (ProposedIn ctx.caseVersion))
      (.reading ctx.caseVersion) := by
  apply edge_obeys (Proc.keeps_done _)
  intro st
  apply edge_obeys (checkCompletenessNode_keeps ctx st)
  intro st
  apply edge_obeys (planNextActionNode_keeps deps ctx st)
  intro st
  apply edge_obeys (evaluatePolicyNode_keeps ctx st)
  intro r
  exact resolveOutcomeNode_obeys deps ctx r.1 r.2

theorem runAgent_obeys (deps : RuntimeDeps) (ctx : RunContext) (budget : AgentRunBudget)
    (startedAt : Instant) :
    (runAgent deps ctx budget startedAt).Obeys (DecisionStep ctx.ref)
      (Returned (ProposedIn ctx.caseVersion)) (.reading ctx.caseVersion) := by
  apply keeps_bind_obeys (createOrLoad_keeps _) decisionStep_letsRest
  intro initialBudget
  apply (graph_obeys deps ctx _).bind
  · intro g result hresult
    apply keeps_bind_obeys (persistAgentRun_keeps ctx result) decisionStep_letsRest
    intro persisted
    exact hresult
  · intro g e _
    trivial

theorem sendReadyForUnderwritingNotification_keeps {R : Db → Db → Prop} [AllowsRun R] :
    sendReadyForUnderwritingNotification.Keeps R := by
  have hinvoke : ∀ {α : Type} (f : Input → Except Failure α),
      (invokeTool (Proc.tx fun i db => (db, f i))).Keeps R := by
    intro α f
    exact invokeTool_keeps (answer_keeps f)
  apply catch_keeps
  · apply (ask_keeps _).bind
    intro approved
    split
    · apply (hinvoke _).bind
      intro drafted
      cases drafted with
      | error e => exact Proc.keeps_done _
      | ok messageId => exact (hinvoke _).bind fun _ => Proc.keeps_done _
    · exact Proc.keeps_done _
  · intro e
    exact Proc.keeps_done _

/-- The phase `finalizeReady` leads to, at every store it may find. -/
theorem finalizeReady_obeys (v : Nat) :
    (finalizeReady ref (some v)).Obeys (DecisionStep ref) (Returned fun _ _ => True)
      (.reading v) := by
  apply transaction_obeys (decisionStep_refl ref _)
  intro i db db' r h
  dsimp only [finalizeReadyForUnderwriting] at h
  cases hset : db.setCaseStatusAt ref v .READY_FOR_UNDERWRITING with
  | none => rw [hset] at h; cases h
  | some db₁ =>
    rw [hset] at h
    cases h
    obtain ⟨c, hc, hv, rfl⟩ := setCaseStatusAt_some hset
    refine ⟨.clear, ?_, trivial⟩
    rw [← hv]
    exact ⟨.readies hc rfl rfl, fun h => by cases h⟩

/-- An answer that names a condition comes from the phase in which that condition is open. -/
def OpenedIn (g : Phase) (r : EvaluateConditionsResult) : Prop :=
  ∀ id, r = .CONDITION_OPENED id → g = .opened id

theorem concludeEvaluation_obeys (ctx : RunContext) {g : Phase} {result : AgentRunResult}
    (h : ProposedIn ctx.caseVersion g result) :
    (concludeEvaluation ctx result).Obeys (DecisionStep ctx.ref) (Returned OpenedIn) g := by
  cases result with
  | proposedAction st action =>
    cases action with
    | some action =>
      intro id hid
      cases hid
      exact h
    | none =>
      have hg : g = .reading ctx.caseVersion := h
      rw [hg]
      apply (finalizeReady_obeys ctx.caseVersion).bind
      · intro g _ _
        apply keeps_bind_obeys sendReadyForUnderwritingNotification_keeps decisionStep_letsRest
        intro sent id hid
        cases hid
      · intro g e _
        trivial
  | ended reached =>
    cases reached with
    | awaitingInformation st =>
      intro id hid
      cases hid
    | review st trigger =>
      dsimp only [concludeEvaluation]
      cases trigger.category.route with
      | ROUTE_TO_MANUAL_REVIEW =>
        intro id hid
        cases hid
      | INTERRUPT_FOR_REVIEW =>
        intro id hid
        cases hid

/-- **An evaluation decides once**, on the version it read. -/
theorem evaluateCase_decides (deps : RuntimeDeps) (ref : CaseRef) (workflowRunId : String)
    (v : Nat) :
    (evaluateCase deps ref workflowRunId v).Obeys (DecisionStep ref) (Returned OpenedIn)
      (.reading v) := by
  apply keeps_bind_obeys (ask_keeps _) decisionStep_letsRest
  intro consentStatus
  apply keeps_bind_obeys (query_keeps _) decisionStep_letsRest
  intro tenant
  apply keeps_bind_obeys (ask_keeps _) decisionStep_letsRest
  intro now
  apply (runAgent_obeys deps { ref, caseVersion := v, workflowRunId, consentStatus } _ now).bind
  · intro g result hresult
    exact concludeEvaluation_obeys _ hresult
  · intro g e _
    trivial

/-- **The contract of an evaluation.** -/
theorem evaluateCase_obeys (deps : RuntimeDeps) (ref : CaseRef) (workflowRunId : String)
    (v : Nat) :
    (evaluateCase deps ref workflowRunId v).Obeys (EvaluationStep ref) (Returned OpenedIn)
      (.reading v) :=
  (evaluateCase_decides deps ref workflowRunId v).imp (fun _ _ _ _ hstep => hstep.1)
    fun _ _ h => h

end Evaluation

/-! ## Relations that allow the decision as well -/

/-- What every transaction of an evaluation stays within. -/
class AllowsDecision (R : Db → Db → Prop) : Prop extends AllowsRun R where
  opens : ∀ {ref args i db db' r}, writeCondition ref args i db = .ok (db', r) → R db db'
  readies : ∀ {ref version db db'},
    finalizeReadyForUnderwriting ref version db = .ok db' → R db db'

section Decision

variable {R : Db → Db → Prop} [AllowsDecision R]

theorem createCondition_keeps (ref : CaseRef) (args : CreateConditionArgs) :
    (createConditionTool ref args).execute.Keeps R := by
  apply (query_keeps _).bind
  intro currentCase
  split
  · exact Proc.keeps_done _
  · exact transaction_keeps fun _ _ _ _ h => AllowsDecision.opens h

theorem openCondition_keeps (ctx : RunContext) (st : AgentState)
    (evaluation : EvaluatePolicyResult) (version : MatchedVersion) (reason : String)
    (manifestId : Uuid) :
    (openCondition ctx st evaluation version reason manifestId).Keeps R := by
  apply (invokeBudgetedTool_keeps ctx st (createCondition_keeps _ _)).bind
  intro r
  cases r with
  | refused st trigger => exact Proc.keeps_done _
  | ok st invocation =>
    cases invocation with
    | error e => exact Proc.keeps_done _
    | ok result =>
      cases result with
      | STALE_CASE_VERSION => exact Proc.keeps_fail _
      | CREATED id => exact draftForCondition_keeps ctx _ version reason id

theorem resolveOutcomeNode_keeps (deps : RuntimeDeps) (ctx : RunContext) (st : AgentState)
    (evaluation : EvaluatePolicyResult) : (resolveOutcomeNode deps ctx st evaluation).Keeps R := by
  apply (consumeBudgetedRuntimeStep_keeps ctx st _).bind
  intro stepped
  cases stepped with
  | error trigger => exact Proc.keeps_done _
  | ok stepped =>
    dsimp only
    split
    · exact (assembleManifest_keeps ..).bind fun _ => Proc.keeps_done _
    · apply (query_keeps _).bind
      intro facts
      apply (assembleManifest_keeps ..).bind
      intro manifestId
      split
      · exact Proc.keeps_done _
      · exact openCondition_keeps ..

omit [AllowsDecision R] in
theorem edge_keeps {α : Type} {node : Act (Except NodeEnd α)} {next : α → Act AgentRunResult}
    (hnode : node.Keeps R) (hnext : ∀ a, (next a).Keeps R) : (edge node next).Keeps R := by
  apply hnode.bind
  intro r
  cases r with
  | error reached => exact Proc.keeps_done _
  | ok a => exact hnext a

theorem runAgent_keeps (deps : RuntimeDeps) (ctx : RunContext) (budget : AgentRunBudget)
    (startedAt : Instant) : (runAgent deps ctx budget startedAt).Keeps R := by
  apply (createOrLoad_keeps _).bind
  intro initialBudget
  apply Proc.Keeps.bind
  · apply edge_keeps (Proc.keeps_done _)
    intro st
    apply edge_keeps (checkCompletenessNode_keeps ctx st)
    intro st
    apply edge_keeps (planNextActionNode_keeps deps ctx st)
    intro st
    apply edge_keeps (evaluatePolicyNode_keeps ctx st)
    intro r
    exact resolveOutcomeNode_keeps deps ctx r.1 r.2
  · intro result
    exact (persistAgentRun_keeps ctx result).bind fun _ => Proc.keeps_done _

theorem finalizeReady_keeps (ref : CaseRef) (expectedCaseVersion : Option Nat) :
    (finalizeReady ref expectedCaseVersion).Keeps R := by
  apply transaction_keeps
  intro i db db' a h
  cases hready : finalizeReadyForUnderwriting ref expectedCaseVersion db with
  | error e => rw [hready] at h; cases h
  | ok db₁ =>
    rw [hready] at h
    cases h
    exact AllowsDecision.readies hready

theorem concludeEvaluation_keeps (ctx : RunContext) (result : AgentRunResult) :
    (concludeEvaluation ctx result).Keeps R := by
  cases result with
  | proposedAction st action =>
    cases action with
    | some action => exact Proc.keeps_done _
    | none =>
      apply (finalizeReady_keeps _ _).bind
      intro readied
      exact sendReadyForUnderwritingNotification_keeps.bind fun _ => Proc.keeps_done _
  | ended reached =>
    cases reached with
    | awaitingInformation st => exact Proc.keeps_done _
    | review st trigger =>
      dsimp only [concludeEvaluation]
      cases trigger.category.route <;> exact Proc.keeps_done _

theorem evaluateConditions_keeps (deps : RuntimeDeps) (ref : CaseRef) (workflowRunId : String) :
    (evaluateConditions deps ref workflowRunId).Keeps R := by
  apply (query_keeps _).bind
  intro loanCase
  apply (ask_keeps _).bind
  intro consentStatus
  apply (query_keeps _).bind
  intro tenant
  apply (ask_keeps _).bind
  intro now
  apply (runAgent_keeps deps _ _ now).bind
  intro result
  exact concludeEvaluation_keeps _ result

end Decision

/-! ## A case with an income discrepancy -/

/-- Verified income more than ten percent off the stated one asks for a condition. -/
def discrepancyRule : Policy.PolicyRuleDocument where
  id := "income-discrepancy"
  version := "1.0.0"
  applicability := {
    jurisdictions := ["US-CA"]
    product := "CONVENTIONAL_MORTGAGE"
    lifecycleEvents := ["UNDERWRITING_REVIEW"]
    effectiveFrom := "2026-01-01T00:00:00Z"
    transitionRule := none }
  when := {
    left := "application.monthly_income"
    right := "evidence.verified_monthly_income"
    greaterThan := .scaled 1 1 }
  outcome := { condition := "VERIFY_INCOME_DISCREPANCY", route := "BORROWER_REMEDIATION" }

def discrepancyVersion : MatchedVersion where
  policyVersionId := 20
  ruleId := "income-discrepancy"
  version := "1.0.0"
  rule := discrepancyRule

def resolvedTo (versions : List MatchedVersion) : EvaluatePolicyResult where
  status := .RESOLVED
  policySnapshotId := 30
  policyBindingId := some 31
  observedPolicyDependencyDigest := some "9f86d081884c7d65"
  matchedVersions := versions
  unresolvedReasons := []

/-- The input of the `n`-th transaction: noon, the next id, and services that answer. -/
def sampleInput (n : Nat) : Input where
  env := { dbNow := 1786795200000, processNow := 1786795200000 }
  newId := 100 + n
  evaluatePolicy := fun _ => .ok (resolvedTo [discrepancyVersion])
  draft := fun _ => .ok (500 + n)

/-- The arithmetic at the sample's facts: 6000 verified against 5000 stated is 20 percent. -/
def sampleDeps : RuntimeDeps where
  arith := {
    differencePercent := fun _ _ => some (.scaled 2 1)
    toFixed2 := fun _ => "20.00" }

def sampleRef : CaseRef := { tenantId := 1, caseId := 10 }

def sampleFact (id : Uuid) (factType : EvidenceType) (value : Json) : EvidenceFact where
  id := id
  tenantId := 1
  caseId := 10
  factType := factType
  sourceIdentifier := "plaid-simulator"
  value := value
  observedAt := 1786795000000

def sampleFacts : List EvidenceFact :=
  [sampleFact 40 .INCOME (.obj [("monthlyIncome", .num (.scaled 6 3))]),
    sampleFact 41 .CREDIT (.obj []), sampleFact 42 .DOCUMENT (.obj [])]

def sampleCase (status : CaseStatus) : LoanCase where
  id := 10
  tenantId := 1
  statedMonthlyIncome := .scaled 5 3
  loanType := .CONVENTIONAL
  jurisdictionCode := "US-CA"
  status := status
  createdAt := 1786790000000

def sampleDb (status : CaseStatus) (facts : List EvidenceFact) : Db where
  tenants := ⟨[{ id := 1 }], by decide⟩
  loanCases := ⟨[sampleCase status], List.nodup_singleton _⟩
  conditions := .empty
  facts := facts
  budget := { tenants := .empty, ledgers := .empty, reservations := .empty, usage := .empty }

/-- A case whose evidence is collected. -/
def collectedDb : Db := sampleDb .COLLECTING_EVIDENCE sampleFacts

def sampleContext : RunContext where
  ref := sampleRef
  caseVersion := 1
  workflowRunId := "run-1"
  consentStatus := .VALID

end MortgageAgent.Workflow
