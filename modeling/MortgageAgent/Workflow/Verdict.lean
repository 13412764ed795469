import MortgageAgent.Lib.Rely
import MortgageAgent.Workflow.Evaluation

/-!
# What a run decides

What a run decides is settled before it starts: by the consent, the evidence, the answer of the
policy catalogue and the case. A run can stop short of that decision, for want of budget, because
a tool failed or because its planner asked for it, and then it ends with a review; it cannot come
to another one.

* **`Verdict`** / **`verdict`** — the decision, as a function of what it is made from.
* **`amid`** — a run among others that leave the case and its evidence alone.
* **`Concluded`** — a run has ended as the verdict says, or was stopped.
* **`runAgent_concludes`** — every run does, with whatever planner.
* **`evaluateConditions_ready`** — an evaluation answers READY only where the verdict is clear.
-/

namespace MortgageAgent.Workflow

open Proc (OnReturn onReturn_bind onReturn_trivial)

/-! ## The verdict -/

/-- A condition as the event of its opening tells it. -/
structure OpenedCondition where
  code : String
  policyVersionId : Uuid
  ruleId : String
  deriving DecidableEq

/-- The conditions opened so far. -/
def Db.conditionsOpened (db : Db) : List OpenedCondition :=
  db.outbox.filterMap fun event =>
    match event.payload with
    | .conditionOpened _ code policyVersionId ruleId _ => some { code, policyVersionId, ruleId }
    | _ => none

/-- The required facts the case has not got. -/
def Db.missingFactTypes (db : Db) (ref : CaseRef) : List EvidenceType :=
  REQUIRED_FACT_TYPES.filter fun t => t ∉ (db.factsOf ref).map (·.factType)

inductive Verdict where
  | consentInvalid
  | incomplete
  /-- there is no case, or no answer of the policy catalogue -/
  | undecided
  | ambiguous
  | clear
  | opens (condition : OpenedCondition)
  deriving DecidableEq

/-- What the policy catalogue's answer comes to. -/
def policyVerdict (arith : Policy.FactArithmetic) (loanCase : LoanCase)
    (latestIncomeFact : Option EvidenceFact) (evaluation : EvaluatePolicyResult) : Verdict :=
  if evaluation.status = .REVIEW_REQUIRED then .ambiguous
  else
    match firstMatch arith (factContext loanCase latestIncomeFact) evaluation.matchedVersions with
    | none => .clear
    | some (version, _) => .opens {
        code := version.rule.outcome.condition
        policyVersionId := version.policyVersionId
        ruleId := version.ruleId }

/-- What is to be decided of the case, from its consent, its evidence and the policy catalogue's
answers. -/
def verdict (arith : Policy.FactArithmetic)
    (policy : EvaluatePolicyArgs → Except Failure EvaluatePolicyResult) (ref : CaseRef)
    (consentStatus : ConsentStatus) (db : Db) : Verdict :=
  if consentStatus ≠ .VALID then .consentInvalid
  else if db.missingFactTypes ref ≠ [] then .incomplete
  else
    match db.findCase ref with
    | none => .undecided
    | some loanCase =>
      match policy (evaluatePolicyArgs loanCase) with
      | .error _ => .undecided
      | .ok evaluation => policyVerdict arith loanCase (db.latestIncomeFact ref) evaluation

/-- The way a run ends that comes to the verdict. -/
def Verdict.route : Verdict → Option AgentRunRoute
  | .consentInvalid => some .ROUTED_TO_MANUAL_REVIEW
  | .incomplete => some .AWAITING_INFORMATION
  | .undecided => none
  | .ambiguous => some .INTERRUPTED_FOR_REVIEW
  | .clear | .opens _ => some .PROPOSED_ACTION

def Verdict.opened : Verdict → Option OpenedCondition
  | .opens condition => some condition
  | _ => none

/-- The run has ended as the verdict on the store it started from says. -/
structure Verdict.Meets (v : Verdict) (before : Db) (result : AgentRunResult) (db : Db) :
    Prop where
  route : v.route = some result.route
  code : result.action.map (·.code) = v.opened.map (·.code)
  opened : db.conditionsOpened = before.conditionsOpened ++ v.opened.toList

/-- Why a run without a planner may stop short of its verdict. -/
def operationalStops : List MandatoryReviewCategory :=
  [.BUDGET_OR_DEADLINE_EXHAUSTED, .TOOL_EXECUTION_FAILURE]

/-- Why a run may stop short of its verdict. -/
def stops (deps : RuntimeDeps) : List MandatoryReviewCategory :=
  match deps.agentPlanner with
  | none => operationalStops
  | some _ => operationalStops ++ [.MODEL_OUTPUT_INVALID, .MODEL_UNCERTAINTY]

/-- The run has ended with a review of one of these categories. -/
def AgentRunResult.StoppedBy (categories : List MandatoryReviewCategory)
    (result : AgentRunResult) : Prop :=
  ∃ trigger ∈ result.trigger, trigger.category ∈ categories

/-- The run has come to its verdict, or was stopped. -/
def Concluded (categories : List MandatoryReviewCategory) (v : Verdict) (before : Db)
    (result : AgentRunResult) (db : Db) : Prop :=
  result.StoppedBy categories ∨ v.Meets before result db

theorem stoppedBy_review {categories : List MandatoryReviewCategory}
    {trigger : MandatoryReviewTrigger} (st : AgentState) (h : trigger.category ∈ categories) :
    (AgentRunResult.ended (.review st trigger)).StoppedBy categories :=
  ⟨trigger, rfl, h⟩

theorem AgentRunResult.StoppedBy.reviewed {categories : List MandatoryReviewCategory}
    {result : AgentRunResult} (h : result.StoppedBy categories) : result.reviewed := by
  obtain ⟨trigger, htrigger, -⟩ := h
  cases result with
  | proposedAction st action => cases htrigger
  | ended reached =>
    cases reached with
    | awaitingInformation st => cases htrigger
    | review st trigger' => exact reviewed_review st trigger'

theorem budgetReview_operational (detail : String) :
    (classifyMandatoryReviewTrigger .BUDGET_OR_DEADLINE_EXHAUSTED detail).category
      ∈ operationalStops := List.mem_cons_self

theorem toolReview_operational (detail : String) :
    (classifyMandatoryReviewTrigger .TOOL_EXECUTION_FAILURE detail).category
      ∈ operationalStops := List.mem_cons_of_mem _ List.mem_cons_self

theorem operationalStops_sub (deps : RuntimeDeps) {category : MandatoryReviewCategory}
    (h : category ∈ operationalStops) : category ∈ stops deps := by
  unfold stops
  split
  · exact h
  · exact List.mem_append_left _ h

/-- Two runs have ended the same way, with the same condition if any. -/
structure SameDecision (result : AgentRunResult) (db : Db) (result' : AgentRunResult) (db' : Db) :
    Prop where
  route : result.route = result'.route
  code : result.action.map (·.code) = result'.action.map (·.code)
  opened : db.conditionsOpened = db'.conditionsOpened

/-- A verdict leaves one way to end. -/
theorem Verdict.Meets.same {v : Verdict} {before db db' : Db} {result result' : AgentRunResult}
    (h : v.Meets before result db) (h' : v.Meets before result' db') :
    SameDecision result db result' db' where
  route := Option.some.inj (h.route.symm.trans h'.route)
  code := h.code.trans h'.code.symm
  opened := h.opened.trans h'.opened.symm

/-- Nothing speaks against the case: the consent is valid, the evidence complete, the policy
resolved, and none of the resolved rules matches. -/
def FoundClear (arith : Policy.FactArithmetic)
    (policy : EvaluatePolicyArgs → Except Failure EvaluatePolicyResult) (ref : CaseRef)
    (consentStatus : ConsentStatus) (db : Db) : Prop :=
  consentStatus = .VALID ∧ db.missingFactTypes ref = []
    ∧ ∃ loanCase evaluation, db.findCase ref = some loanCase
      ∧ policy (evaluatePolicyArgs loanCase) = .ok evaluation ∧ evaluation.status = .RESOLVED
      ∧ ∀ version ∈ evaluation.matchedVersions,
        (Policy.evaluatePolicyRule arith version.rule
          (factContext loanCase (db.latestIncomeFact ref))).matched = false

theorem firstMatch_none {arith : Policy.FactArithmetic} {context : Policy.PolicyFactContext}
    {versions : List MatchedVersion} (h : firstMatch arith context versions = none) :
    ∀ version ∈ versions,
      (Policy.evaluatePolicyRule arith version.rule context).matched = false := by
  intro version hversion
  unfold firstMatch at h
  rw [Option.map_eq_none_iff, List.find?_eq_none] at h
  have hnot := h _ (List.mem_map_of_mem hversion)
  exact Bool.eq_false_iff.mpr hnot

theorem verdict_clear {arith : Policy.FactArithmetic}
    {policy : EvaluatePolicyArgs → Except Failure EvaluatePolicyResult} {ref : CaseRef}
    {consentStatus : ConsentStatus} {db : Db}
    (h : verdict arith policy ref consentStatus db = .clear) :
    FoundClear arith policy ref consentStatus db := by
  unfold verdict at h
  split at h
  · cases h
  · rename_i hconsent
    split at h
    · cases h
    · rename_i hcomplete
      split at h
      · cases h
      · rename_i loanCase hcase
        split at h
        · cases h
        · rename_i evaluation hanswer
          unfold policyVerdict at h
          split at h
          · cases h
          · rename_i hstatus
            have hresolved : evaluation.status = .RESOLVED := by
              cases hs : evaluation.status with
              | RESOLVED => rfl
              | REVIEW_REQUIRED => exact absurd hs hstatus
            split at h
            · rename_i hnone
              exact ⟨not_not.mp hconsent, not_not.mp hcomplete, loanCase, evaluation, hcase,
                hanswer, hresolved, firstMatch_none hnone⟩
            · cases h

/-! ## A run among others -/

/-- The case, its evidence and what has been written of it. -/
def Db.caseData (db : Db) :
    ((Table LoanCase LoanCase.id × Table LoanCondition LoanCondition.id) × List OutboxEvent)
      × List EvidenceFact :=
  (db.decisionRows, db.facts)

instance : DecisionView Db.caseData :=
  ⟨fun _ _ => rfl, fun _ _ => rfl, fun _ _ => rfl, fun _ _ => rfl⟩

/-- The case's data are still those of an earlier store. -/
def SameCase (before db : Db) : Prop := db.caseData = before.caseData

/-- A fact that others leave true. -/
def Untouched (K : Db → Prop) : Prop := ∀ db db', SameCase db db' → K db → K db'

/-- A run among others that leave the case's data alone, whose inputs are as given. -/
def amid (given : Input → Prop) : Setting Input Db Failure where
  others := SameCase
  meets i _ _ := given i
  reports _ := True
  others_refl _ := rfl
  others_trans h h' := h'.trans h

theorem sameCase_untouched (before : Db) : Untouched (SameCase before) :=
  fun _ _ h hs => h.trans hs

section SameCase

variable {before db : Db} (h : SameCase before db) (ref : CaseRef)

include h

theorem SameCase.findCase : db.findCase ref = before.findCase ref :=
  findCase_congr (congrArg (·.1.1.1) h)

theorem SameCase.factsOf : db.factsOf ref = before.factsOf ref := by
  have hfacts : db.facts = before.facts := congrArg (·.2) h
  unfold Db.factsOf
  rw [hfacts]

theorem SameCase.missingFactTypes : db.missingFactTypes ref = before.missingFactTypes ref := by
  unfold Db.missingFactTypes
  rw [h.factsOf]

theorem SameCase.latestIncomeFact : db.latestIncomeFact ref = before.latestIncomeFact ref := by
  unfold Db.latestIncomeFact
  rw [h.factsOf]

theorem SameCase.conditionsOpened : db.conditionsOpened = before.conditionsOpened := by
  have houtbox : db.outbox = before.outbox := congrArg (·.1.2) h
  unfold Db.conditionsOpened
  rw [houtbox]

end SameCase

section Run

variable {given : Input → Prop} {s : Db}

/-- The frame rule at a run's setting. -/
theorem quiet_onReturn {α : Type} {p : Act α} {K : Db → Prop} (hp : p.Keeps SameCase)
    (hK : Untouched K) (hs : K s) : p.Assures (amid given) (OnReturn fun _ => K) s :=
  Proc.Keeps.onReturn hp hK hs

instance : AllowsRun SameCase :=
  inferInstanceAs (AllowsRun fun db db' => db'.caseData = db.caseData)

/-! ## Tools -/

theorem budgetExceeded_ends (st : AgentState) :
    (budgetExceeded st).Ends fun r => ∀ trigger, r = .ok (some trigger) →
      trigger.category ∈ operationalStops := by
  unfold budgetExceeded
  split
  · intro trigger h
    cases h
    exact budgetReview_operational _
  · apply (Proc.ends_trivial _).bind
    · intro now _
      split
      · intro trigger h
        cases h
        exact budgetReview_operational _
      · intro trigger h
        cases h
    · intro e _ trigger h
      cases h

theorem budgetExceeded_stops {K : Db → Prop} (st : AgentState) (hK : Untouched K) (hs : K s) :
    (budgetExceeded st).Assures (amid given) (OnReturn fun exceeded db =>
      K db ∧ ∀ trigger, exceeded = some trigger → trigger.category ∈ operationalStops) s := by
  have hkeeps : (budgetExceeded st).Keeps SameCase := budgetExceeded_keeps st
  have hends := Proc.Keeps.assures_ends (S := amid given) hkeeps (budgetExceeded_ends st) hK hs
  apply hends.imp
  intro r db hr
  cases r with
  | error e => trivial
  | ok exceeded =>
    refine ⟨hr.2, ?_⟩
    intro trigger htrigger
    exact hr.1 trigger (congrArg Except.ok htrigger)

/-- A refusal by the ledger stops the run. -/
theorem onBudgetError_stops {α : Type} {p : Act α} {handler : MandatoryReviewTrigger → Act α}
    {Q : α → Db → Prop} (hp : p.Assures (amid given) (OnReturn Q) s)
    (hh : ∀ trigger db, trigger.category ∈ operationalStops →
      (handler trigger).Assures (amid given) (OnReturn Q) db) :
    (onBudgetError p handler).Assures (amid given) (OnReturn Q) s := by
  apply hp.rescue
  · intro e db _
    cases e with
    | agentBudgetError code message =>
      apply hh
      exact budgetReview_operational _
    | _ => trivial
  · exact fun _ _ hQ => hQ

/-- What a budgeted tool returns to the node that called it. -/
def BudgetedTo {α : Type} (Q : α → Db → Prop) : BudgetedToolResult α → Db → Prop
  | .ok _ (.ok a), db => Q a db
  | .ok _ (.error _), _ => True
  | .refused _ trigger, _ => trigger.category ∈ operationalStops

/-- What an invocation of a tool returns. -/
def InvokedTo {α : Type} (Q : α → Db → Prop) : Except String α → Db → Prop
  | .ok a, db => Q a db
  | .error _, _ => True

theorem invokeTool_tells {α : Type} {execute : Act α} {Q : α → Db → Prop}
    (h : execute.Assures (amid given) (OnReturn Q) s) :
    (invokeTool execute).Assures (amid given) (OnReturn (InvokedTo Q)) s := by
  have hbody : (execute.bind fun a => Proc.done (.ok a) : Act (Except String α)).Assures
      (amid given) (OnReturn (InvokedTo Q)) s :=
    onReturn_bind h fun _ _ hQ => hQ
  apply hbody.rescue
  · intro e db _
    cases e <;> trivial
  · exact fun _ _ hQ => hQ

theorem invokedTo_untouched {α : Type} {Q : α → Db → Prop} (hQ : ∀ a, Untouched (Q a))
    (invocation : Except String α) : Untouched (InvokedTo Q invocation) := by
  cases invocation with
  | ok a => exact hQ a
  | error e => exact fun _ _ _ h => h

theorem quarantine_stops {α : Type} (ctx : RunContext) (st : AgentState) (name : String)
    (reservation : Budget.AgentBudgetReservationReceipt) (Q : α → Db → Prop) :
    (quarantine ctx st name reservation : Act (BudgetedToolResult α)).Assures (amid given)
      (OnReturn (BudgetedTo Q)) s := by
  unfold quarantine
  split
  · apply onReturn_bind (Q := fun _ _ => True) (Proc.assures_trivial onReturn_trivial _)
    intro unknown db _
    exact toolReview_operational _
  · exact toolReview_operational _

/-- **A budgeted tool** says what its execution says, or stops the run. -/
theorem invokeBudgetedTool_tells {α : Type} (ctx : RunContext) (st : AgentState)
    {tool : AgentTool α} {K : Db → Prop} {Q : α → Db → Prop} (hK : Untouched K)
    (hQ : ∀ a, Untouched (Q a)) (hs : K s)
    (htool : ∀ db, K db → tool.execute.Assures (amid given) (OnReturn Q) db) :
    (invokeBudgetedTool ctx st tool).Assures (amid given) (OnReturn (BudgetedTo Q)) s := by
  apply onReturn_bind (budgetExceeded_stops st hK hs)
  rintro exceeded db ⟨hdb, hexceeded⟩
  cases exceeded with
  | some trigger => exact hexceeded trigger rfl
  | none =>
    apply onBudgetError_stops
    · apply onReturn_bind (quiet_onReturn (reserve_keeps _) hK hdb)
      intro reservation db hdb
      dsimp only
      split
      · exact quarantine_stops ctx _ tool.name reservation Q
      · apply onReturn_bind (invokeTool_tells (htool db hdb))
        intro invocation db hinvocation
        apply onReturn_bind (quiet_onReturn (commit_keeps _) (invokedTo_untouched hQ invocation)
          hinvocation)
        intro committed db hinvocation
        cases invocation with
        | ok a => exact hinvocation
        | error e => trivial
    · intro trigger db htrigger
      exact htrigger

theorem consumeBudgetedRuntimeStep_ends (ctx : RunContext) (st : AgentState) (name : String) :
    (consumeBudgetedRuntimeStep ctx st name).Ends fun r => ∀ trigger, r = .ok (.error trigger) →
      trigger.category ∈ operationalStops := by
  apply (budgetExceeded_ends st).bind
  · intro exceeded hexceeded
    cases exceeded with
    | some trigger =>
      intro trigger' h
      cases h
      exact hexceeded trigger rfl
    | none =>
      have hbody : (do
          let reservation ← reserve (stepReservation ctx st ("runtime-" ++ name))
          let committed ← commit {
            tenantId := ctx.ref.tenantId
            reservationId := reservation.reservationId }
          return .ok (applyBudgetSnapshot st committed.ledger) :
            Act (Except MandatoryReviewTrigger AgentState)).Ends fun r =>
          ∀ trigger, r ≠ .ok (.error trigger) := by
        apply (Proc.ends_trivial _).bind
        · intro reservation _
          apply (Proc.ends_trivial _).bind
          · intro committed _ trigger h
            cases h
          · intro e _ trigger h
            cases h
        · intro e _ trigger h
          cases h
      apply hbody.rescue
      · intro e _
        cases e with
        | agentBudgetError code message =>
          intro trigger h
          cases h
          exact budgetReview_operational _
        | _ =>
          intro trigger h
          cases h
      · intro a ha trigger h
        exact absurd h (ha trigger)
  · intro e _ trigger h
    cases h

/-- A transaction, which returns only when it has written. -/
theorem transaction_tells {α : Type} {t : Input → Db → Except Failure (Db × α)} {K : Db → Prop}
    {Q : α → Db → Prop} (hK : Untouched K) (hs : K s)
    (ht : ∀ i db db' a, K db → t i db = .ok (db', a) → Q a db') :
    (transaction t).Assures (amid given) (OnReturn Q) s := by
  apply Proc.onReturn_tx
  intro db i a hothers _ ha
  have hdb : K db := hK s db hothers hs
  cases h : t i db with
  | error e =>
    simp only [h] at ha
    cases ha
  | ok r =>
    simp only [h] at ha ⊢
    cases ha
    exact ht i db _ _ hdb h

theorem query_tells {α : Type} {t : Db → Except Failure α} {K : Db → Prop} {Q : α → Db → Prop}
    (hK : Untouched K) (hs : K s) (ht : ∀ db a, K db → t db = .ok a → Q a db) :
    (query t).Assures (amid given) (OnReturn Q) s := by
  apply transaction_tells hK hs
  intro i db db' a hdb h
  cases hread : t db with
  | error e =>
    rw [hread] at h
    cases h
  | ok b =>
    rw [hread] at h
    cases h
    exact ht _ _ hdb hread

/-! ## The nodes -/

/-- What a node leaves: the case's data as they were and something known, or a run that has
ended. -/
def NodeConcluded {α : Type} (categories : List MandatoryReviewCategory) (v : Verdict) (before : Db)
    (Q : α → Prop) : Except NodeEnd α → Db → Prop
  | .ok a, db => SameCase before db ∧ Q a
  | .error reached, db => Concluded categories v before (.ended reached) db

/-- A node that ends the run at a verdict has opened nothing. -/
theorem meets_ended {v : Verdict} {before db : Db} {reached : NodeEnd}
    (hroute : v.route = some (AgentRunResult.ended reached).route) (hopened : v.opened = none)
    (hsame : SameCase before db) : v.Meets before (.ended reached) db where
  route := hroute
  code := by rw [hopened]; rfl
  opened := by
    rw [hopened, hsame.conditionsOpened]
    exact (List.append_nil _).symm

theorem concluded_untouched (categories : List MandatoryReviewCategory) (v : Verdict) (before : Db)
    (result : AgentRunResult) : Untouched (Concluded categories v before result) := by
  intro db db' hsame h
  rcases h with hstopped | hmeets
  · exact .inl hstopped
  · refine .inr ⟨hmeets.route, hmeets.code, ?_⟩
    rw [hsame.conditionsOpened, hmeets.opened]

theorem toolFailure_stopped {deps : RuntimeDeps} (st : AgentState) (detail : String) :
    (AgentRunResult.ended (toolFailure st detail)).StoppedBy (stops deps) := by
  apply stoppedBy_review
  apply operationalStops_sub
  exact toolReview_operational detail

variable {before : Db} {deps : RuntimeDeps} {ctx : RunContext}
  {policy : EvaluatePolicyArgs → Except Failure EvaluatePolicyResult}

/-- What is to be decided in the run. -/
def runVerdict (deps : RuntimeDeps) (ctx : RunContext)
    (policy : EvaluatePolicyArgs → Except Failure EvaluatePolicyResult) (before : Db) : Verdict :=
  verdict deps.arith policy ctx.ref ctx.consentStatus before

theorem verifyConsentNode_concludes (st : AgentState) (hs : SameCase before s) :
    NodeConcluded (stops deps) (runVerdict deps ctx policy before) before
      (fun _ => ctx.consentStatus = .VALID) (verifyConsentNode ctx st) s := by
  unfold verifyConsentNode
  split
  · rename_i hconsent
    have hverdict : runVerdict deps ctx policy before = .consentInvalid := if_pos hconsent
    right
    apply meets_ended _ _ hs
    · rw [hverdict]
      rfl
    · rw [hverdict]
      rfl
  · rename_i hconsent
    exact ⟨hs, not_not.mp hconsent⟩

theorem checkCompletenessNode_concludes (st : AgentState) (hconsent : ctx.consentStatus = .VALID)
    (hs : SameCase before s) :
    (checkCompletenessNode ctx st).Assures (amid given)
      (OnReturn (NodeConcluded (stops deps) (runVerdict deps ctx policy before) before
        fun _ => before.missingFactTypes ctx.ref = [])) s := by
  have htool : ∀ db, SameCase before db → (checkCaseCompletenessTool ctx.ref).execute.Assures
      (amid given) (OnReturn fun missing db =>
        SameCase before db ∧ missing = before.missingFactTypes ctx.ref) db := by
    intro db hdb
    dsimp only [checkCaseCompletenessTool]
    apply query_tells (sameCase_untouched before) hdb
    intro db missing hdb hmissing
    cases hmissing
    exact ⟨hdb, hdb.missingFactTypes ctx.ref⟩
  apply onReturn_bind (invokeBudgetedTool_tells ctx st (sameCase_untouched before)
    (fun missing db db' hsame h => ⟨hsame.trans h.1, h.2⟩) hs htool)
  intro r db hr
  cases r with
  | refused st trigger => exact .inl (stoppedBy_review st (operationalStops_sub deps hr))
  | ok st invocation =>
    cases invocation with
    | error e =>
      exact .inl (toolFailure_stopped _ _)
    | ok missing =>
      obtain ⟨hdb, hmissing⟩ := hr
      cases missing with
      | nil => exact ⟨hdb, hmissing.symm⟩
      | cons t rest =>
        have hincomplete : before.missingFactTypes ctx.ref ≠ [] := by
          rw [← hmissing]
          exact List.cons_ne_nil t rest
        have hverdict : runVerdict deps ctx policy before = .incomplete := by
          unfold runVerdict verdict
          rw [if_neg (not_not.mpr hconsent), if_pos hincomplete]
        right
        apply meets_ended _ _ hdb
        · rw [hverdict]
          rfl
        · rw [hverdict]
          rfl

/-- The planner's node ends a run only by stopping it. -/
def PlanEnds (deps : RuntimeDeps) {α : Type} (r : Except Failure (Except NodeEnd α)) : Prop :=
  ∀ reached, r = .ok (.error reached) →
    (AgentRunResult.ended reached).StoppedBy (stops deps)

theorem planEnds_throws (deps : RuntimeDeps) {α : Type} (e : Failure) :
    PlanEnds deps (.error e : Except Failure (Except NodeEnd α)) := by
  intro reached h
  cases h

theorem planEnds_goesOn (deps : RuntimeDeps) {α : Type} (a : α) :
    PlanEnds deps (.ok (.ok a) : Except Failure (Except NodeEnd α)) := by
  intro reached h
  cases h

theorem planEnds_review {α : Type} {trigger : MandatoryReviewTrigger} (st : AgentState)
    (h : trigger.category ∈ stops deps) :
    PlanEnds deps (.ok (.error (.review st trigger)) : Except Failure (Except NodeEnd α)) := by
  intro reached hreached
  cases hreached
  exact stoppedBy_review st h

theorem reservePlanner_ends (st : AgentState) (planner : AgentPlannerPort) :
    (reservePlanner ctx st planner).Ends (PlanEnds deps) := by
  have hbody : (do return .ok (← reserve (plannerReservation ctx st planner)) :
      Act (Except NodeEnd Budget.AgentBudgetReservationReceipt)).Ends (PlanEnds deps) := by
    apply (Proc.ends_trivial _).bind
    · exact fun reservation _ => planEnds_goesOn deps reservation
    · exact fun e _ => planEnds_throws deps e
  apply hbody.rescue
  · intro e _
    cases e with
    | agentBudgetError code message =>
      exact planEnds_review st (operationalStops_sub deps (budgetReview_operational _))
    | _ => exact planEnds_throws deps _
  · exact fun _ h => h

theorem stops_planned {planner : AgentPlannerPort} (hplanner : deps.agentPlanner = some planner) :
    stops deps = operationalStops ++ [.MODEL_OUTPUT_INVALID, .MODEL_UNCERTAINTY] := by
  unfold stops
  rw [hplanner]

theorem plannedState_ends (planner : AgentPlannerPort) (hplanner : deps.agentPlanner = some planner)
    (st : AgentState) (record : AgentModelInvocation) :
    PlanEnds deps (.ok (plannedState planner st record)) := by
  have hstop : MandatoryReviewCategory.MODEL_UNCERTAINTY ∈ stops deps := by
    rw [stops_planned hplanner]
    decide
  unfold plannedState
  dsimp only
  split
  · exact planEnds_review _ hstop
  · split
    · exact planEnds_review _ hstop
    · exact planEnds_goesOn deps _

theorem plannerFailed_ends {planner : AgentPlannerPort}
    (hplanner : deps.agentPlanner = some planner) (st : AgentState)
    (reservation : Budget.AgentBudgetReservationReceipt) (error : Failure) :
    (plannerFailed ctx st reservation error).Ends (PlanEnds deps) := by
  have hstop : plannerErrorCategory error ∈ stops deps := by
    rw [stops_planned hplanner]
    unfold plannerErrorCategory
    split <;> decide
  unfold plannerFailed
  split
  · apply (Proc.ends_trivial _).bind
    · exact fun released _ => planEnds_review _ hstop
    · exact fun e _ => planEnds_throws deps e
  · exact planEnds_review _ hstop

theorem planNextActionNode_ends (st : AgentState) :
    (planNextActionNode deps ctx st).Ends (PlanEnds deps) := by
  unfold planNextActionNode
  cases hplanner : deps.agentPlanner with
  | none => exact planEnds_goesOn deps st
  | some planner =>
    apply (reservePlanner_ends st planner).bind
    · intro reserved hreserved
      cases reserved with
      | error reached =>
        intro reached' h
        cases h
        exact hreserved reached rfl
      | ok reservation =>
        apply (Proc.ends_trivial _).bind
        · intro record _
          have hbody : (do
              let record ← plannerRecord deps ctx planner record
              let committed ←
                if reservation.status = .COMMITTED then pure reservation
                else commit {
                  tenantId := ctx.ref.tenantId
                  reservationId := reservation.reservationId }
              return plannedState planner (applyBudgetSnapshot st committed.ledger) record :
                Act (Except NodeEnd AgentState)).Ends (PlanEnds deps) := by
            apply (Proc.ends_trivial _).bind
            · intro record _
              dsimp only
              split
              · exact plannedState_ends planner hplanner _ record
              · apply (Proc.ends_trivial _).bind
                · exact fun committed _ => plannedState_ends planner hplanner _ record
                · exact fun e _ => planEnds_throws deps e
            · exact fun e _ => planEnds_throws deps e
          apply hbody.rescue
          · intro e _
            cases e with
            | stopped => exact planEnds_throws deps _
            | _ => exact plannerFailed_ends hplanner st reservation _
          · exact fun _ h => h
        · exact fun e _ => planEnds_throws deps e
    · exact fun e _ => planEnds_throws deps e

/-- **The planner** leaves the case's data and what is known of them alone, or stops the run. -/
theorem planNextActionNode_concludes {v : Verdict} {Q : Prop} (st : AgentState) (hQ : Q)
    (hs : SameCase before s) :
    (planNextActionNode deps ctx st).Assures (amid given)
      (OnReturn (NodeConcluded (stops deps) v before fun _ => Q)) s := by
  have hkeeps : (planNextActionNode deps ctx st).Keeps SameCase :=
    planNextActionNode_keeps deps ctx st
  have hends := Proc.Keeps.assures_ends (S := amid given) hkeeps (planNextActionNode_ends st)
    (sameCase_untouched before) hs
  apply hends.imp
  rintro r db ⟨hr, hdb⟩
  cases r with
  | error e => trivial
  | ok node =>
    cases node with
    | ok st => exact ⟨hdb, hQ⟩
    | error reached => exact .inl (hr reached rfl)

/-- What the run knows once the policy catalogue has answered. -/
def PolicyResolved (ctx : RunContext)
    (policy : EvaluatePolicyArgs → Except Failure EvaluatePolicyResult) (before : Db)
    (evaluation : EvaluatePolicyResult) : Prop :=
  ∃ loanCase, before.findCase ctx.ref = some loanCase
    ∧ policy (evaluatePolicyArgs loanCase) = .ok evaluation ∧ evaluation.status ≠ .REVIEW_REQUIRED

theorem verdict_answered {loanCase : LoanCase} {evaluation : EvaluatePolicyResult}
    (hconsent : ctx.consentStatus = .VALID) (hcomplete : before.missingFactTypes ctx.ref = [])
    (hcase : before.findCase ctx.ref = some loanCase)
    (hanswer : policy (evaluatePolicyArgs loanCase) = .ok evaluation) :
    runVerdict deps ctx policy before
      = policyVerdict deps.arith loanCase (before.latestIncomeFact ctx.ref) evaluation := by
  unfold runVerdict verdict
  rw [if_neg (not_not.mpr hconsent), if_neg (not_not.mpr hcomplete), hcase]
  dsimp only
  rw [hanswer]

theorem evaluatePolicyNode_concludes (hpolicy : ∀ i, given i → i.evaluatePolicy = policy)
    (st : AgentState) (hconsent : ctx.consentStatus = .VALID)
    (hcomplete : before.missingFactTypes ctx.ref = []) (hs : SameCase before s) :
    (evaluatePolicyNode ctx st).Assures (amid given)
      (OnReturn (NodeConcluded (stops deps) (runVerdict deps ctx policy before) before
        fun r => PolicyResolved ctx policy before r.2)) s := by
  apply onReturn_bind (budgetExceeded_stops st (sameCase_untouched before) hs)
  rintro exceeded db ⟨hdb, hexceeded⟩
  cases exceeded with
  | some trigger =>
    exact .inl (stoppedBy_review st (operationalStops_sub deps (hexceeded trigger rfl)))
  | none =>
    have hread : (query fun db => db.findCaseOrFail ctx.ref).Assures (amid given)
        (OnReturn fun loanCase db =>
          SameCase before db ∧ before.findCase ctx.ref = some loanCase) db := by
      apply query_tells (sameCase_untouched before) hdb
      intro db loanCase hdb hcase
      refine ⟨hdb, ?_⟩
      rw [← hdb.findCase]
      exact findCaseOrFail_ok hcase
    apply onReturn_bind hread
    rintro loanCase db ⟨hdb, hcase⟩
    have htool : ∀ db, SameCase before db →
        (evaluatePolicyTool (evaluatePolicyArgs loanCase)).execute.Assures (amid given)
          (OnReturn fun evaluation db => SameCase before db
            ∧ policy (evaluatePolicyArgs loanCase) = .ok evaluation) db := by
      intro db hdb
      apply Proc.onReturn_tx
      intro db' i evaluation hothers hgiven hanswer
      refine ⟨hothers.trans hdb, ?_⟩
      rw [← hpolicy i hgiven]
      exact hanswer
    apply onReturn_bind (invokeBudgetedTool_tells ctx st (sameCase_untouched before)
      (fun _ _ _ hsame h => ⟨hsame.trans h.1, h.2⟩) hdb htool)
    intro r db hr
    cases r with
    | refused st trigger => exact .inl (stoppedBy_review st (operationalStops_sub deps hr))
    | ok st invocation =>
      cases invocation with
      | error e => exact .inl (toolFailure_stopped _ _)
      | ok evaluation =>
        obtain ⟨hdb, hanswer⟩ := hr
        dsimp only
        split
        · rename_i hstatus
          have hverdict : runVerdict deps ctx policy before = .ambiguous := by
            rw [verdict_answered hconsent hcomplete hcase hanswer]
            exact if_pos hstatus
          right
          apply meets_ended _ _ hdb
          · rw [hverdict]
            rfl
          · rw [hverdict]
            rfl
        · rename_i hstatus
          exact ⟨hdb, loanCase, hcase, hanswer, hstatus⟩

/-! ## The decision -/

/-- The condition of a matched version. -/
def conditionOf (version : MatchedVersion) : OpenedCondition where
  code := version.rule.outcome.condition
  policyVersionId := version.policyVersionId
  ruleId := version.ruleId

theorem opened_untouched (before : Db) (condition : OpenedCondition) :
    Untouched fun db => db.conditionsOpened = before.conditionsOpened ++ [condition] :=
  fun _ _ hsame h => hsame.conditionsOpened.trans h

theorem draftForCondition_concludes (st : AgentState) (version : MatchedVersion) (reason : String)
    (conditionId : Uuid)
    (hverdict : runVerdict deps ctx policy before = .opens (conditionOf version))
    (hs : s.conditionsOpened = before.conditionsOpened ++ [conditionOf version]) :
    (draftForCondition ctx st version reason conditionId).Assures (amid given)
      (OnReturn (Concluded (stops deps) (runVerdict deps ctx policy before) before)) s := by
  have huntouched := opened_untouched before (conditionOf version)
  apply onReturn_bind (invokeBudgetedTool_tells ctx st huntouched (fun _ => huntouched) hs
    fun db hdb => quiet_onReturn (answer_keeps _) huntouched hdb)
  intro r db hr
  cases r with
  | refused st trigger => exact .inl (stoppedBy_review st (operationalStops_sub deps hr))
  | ok st invocation =>
    cases invocation with
    | error e => exact .inl (toolFailure_stopped _ _)
    | ok messageId =>
      right
      rw [hverdict]
      exact ⟨rfl, rfl, hr⟩

theorem writeCondition_opens {ref : CaseRef} {args : CreateConditionArgs} {i : Input} {db db' : Db}
    {r : CreateConditionResult} (h : writeCondition ref args i db = .ok (db', r)) :
    db'.conditionsOpened = db.conditionsOpened ++ [{
      code := args.code, policyVersionId := args.policyVersionId, ruleId := args.ruleId }] := by
  obtain ⟨conditions, c, -, -, -, -, rfl⟩ := writeCondition_ok h
  simp [Db.conditionsOpened, Db.writeOutboxEvent]

theorem openCondition_concludes (st : AgentState) (evaluation : EvaluatePolicyResult)
    (version : MatchedVersion) (reason : String) (manifestId : Uuid)
    (hverdict : runVerdict deps ctx policy before = .opens (conditionOf version))
    (hs : SameCase before s) :
    (openCondition ctx st evaluation version reason manifestId).Assures (amid given)
      (OnReturn (Concluded (stops deps) (runVerdict deps ctx policy before) before)) s := by
  have huntouched := opened_untouched before (conditionOf version)
  have hcreated : ∀ result : CreateConditionResult, Untouched fun db => ∀ id,
      result = .CREATED id →
        db.conditionsOpened = before.conditionsOpened ++ [conditionOf version] :=
    fun _ db db' hsame h id hid => huntouched db db' hsame (h id hid)
  apply onReturn_bind (invokeBudgetedTool_tells ctx st (sameCase_untouched before) hcreated hs ?_)
  · intro r db hr
    cases r with
    | refused st trigger => exact .inl (stoppedBy_review st (operationalStops_sub deps hr))
    | ok st invocation =>
      cases invocation with
      | error e => exact .inl (toolFailure_stopped _ _)
      | ok result =>
        cases result with
        | STALE_CASE_VERSION => trivial
        | CREATED id => exact draftForCondition_concludes _ version reason id hverdict (hr id rfl)
  · intro db hdb
    apply onReturn_bind (quiet_onReturn (query_keeps _) (sameCase_untouched before) hdb)
    intro currentCase db hdb
    split
    · intro id hid
      cases hid
    · apply transaction_tells (sameCase_untouched before) hdb
      intro i db db' result hdb hwrite id _
      rw [writeCondition_opens hwrite, hdb.conditionsOpened]
      rfl

theorem meets_clear {st : AgentState} {db : Db} (hsame : SameCase before db) :
    Verdict.clear.Meets before (.proposedAction st none) db where
  route := rfl
  code := rfl
  opened := by
    rw [hsame.conditionsOpened]
    exact (List.append_nil _).symm

theorem firstMatch_nil (arith : Policy.FactArithmetic) (context : Policy.PolicyFactContext) :
    firstMatch arith context [] = none := rfl

theorem resolveOutcomeNode_concludes (st : AgentState) {evaluation : EvaluatePolicyResult}
    (hconsent : ctx.consentStatus = .VALID) (hcomplete : before.missingFactTypes ctx.ref = [])
    (hresolved : PolicyResolved ctx policy before evaluation) (hs : SameCase before s) :
    (resolveOutcomeNode deps ctx st evaluation).Assures (amid given)
      (OnReturn (Concluded (stops deps) (runVerdict deps ctx policy before) before)) s := by
  obtain ⟨loanCase, hcase, hanswer, hstatus⟩ := hresolved
  have hverdict : runVerdict deps ctx policy before
      = match firstMatch deps.arith (factContext loanCase (before.latestIncomeFact ctx.ref))
          evaluation.matchedVersions with
        | none => .clear
        | some (version, _) => .opens (conditionOf version) := by
    rw [verdict_answered hconsent hcomplete hcase hanswer]
    exact if_neg hstatus
  have hkeeps : (consumeBudgetedRuntimeStep ctx st "resolve-outcome").Keeps SameCase :=
    consumeBudgetedRuntimeStep_keeps ctx st _
  have hends := Proc.Keeps.assures_ends (S := amid given) hkeeps
    (consumeBudgetedRuntimeStep_ends ctx st _) (sameCase_untouched before) hs
  apply hends.bind
  · rintro stepped db ⟨hstepped, hdb⟩
    cases stepped with
    | error trigger =>
      exact .inl (stoppedBy_review st (operationalStops_sub deps (hstepped trigger rfl)))
    | ok stepped =>
      dsimp only
      split
      · rename_i hnone
        rw [hnone, firstMatch_nil] at hverdict
        apply onReturn_bind (quiet_onReturn (assembleManifest_keeps ..) (sameCase_untouched before)
          hdb)
        intro manifestId db hdb
        right
        rw [hverdict]
        exact meets_clear hdb
      · have hread : (query fun db => do
            return (← db.findCaseOrFail ctx.ref, db.latestIncomeFact ctx.ref) :
              Act (LoanCase × Option EvidenceFact)).Assures (amid given) (OnReturn fun facts db =>
                SameCase before db ∧ facts = (loanCase, before.latestIncomeFact ctx.ref)) db := by
          apply query_tells (sameCase_untouched before) hdb
          intro db facts hdb hfacts
          obtain ⟨found, hfound, hfacts⟩ := ok_of_bind_ok hfacts
          have hsome := findCaseOrFail_ok hfound
          rw [hdb.findCase, hcase] at hsome
          cases hsome
          cases hfacts
          rw [hdb.latestIncomeFact]
          exact ⟨hdb, rfl⟩
        apply onReturn_bind hread
        rintro facts db ⟨hdb, rfl⟩
        apply onReturn_bind (quiet_onReturn (assembleManifest_keeps ..) (sameCase_untouched before)
          hdb)
        intro manifestId db hdb
        dsimp only
        split
        · rename_i hmatch
          rw [hmatch] at hverdict
          right
          rw [hverdict]
          exact meets_clear hdb
        · rename_i hmatch
          rw [hmatch] at hverdict
          exact openCondition_concludes stepped evaluation _ _ manifestId hverdict hdb
  · exact fun _ _ _ => trivial

theorem edge_concludes {α : Type} {v : Verdict} {Q : α → Prop} {node : Act (Except NodeEnd α)}
    {next : α → Act AgentRunResult}
    (hnode : node.Assures (amid given) (OnReturn (NodeConcluded (stops deps) v before Q)) s)
    (hnext : ∀ a db, SameCase before db → Q a →
      (next a).Assures (amid given) (OnReturn (Concluded (stops deps) v before)) db) :
    (edge node next).Assures (amid given) (OnReturn (Concluded (stops deps) v before)) s := by
  apply onReturn_bind hnode
  intro r db hr
  cases r with
  | ok a => exact hnext a db hr.1 hr.2
  | error reached => exact hr

theorem graph_concludes (hpolicy : ∀ i, given i → i.evaluatePolicy = policy) (st : AgentState)
    (hs : SameCase before s) :
    (graph deps ctx st).Assures (amid given)
      (OnReturn (Concluded (stops deps) (runVerdict deps ctx policy before) before)) s := by
  have hnode : (pure (verifyConsentNode ctx st) : Act (Except NodeEnd AgentState)).Assures
      (amid given) (OnReturn (NodeConcluded (stops deps) (runVerdict deps ctx policy before) before
        fun _ => ctx.consentStatus = .VALID)) s := verifyConsentNode_concludes st hs
  apply edge_concludes hnode
  intro st db hdb hconsent
  apply edge_concludes (checkCompletenessNode_concludes st hconsent hdb)
  intro st db hdb hcomplete
  apply edge_concludes (planNextActionNode_concludes st trivial hdb)
  intro st db hdb _
  apply edge_concludes (evaluatePolicyNode_concludes hpolicy st hconsent hcomplete hdb)
  rintro ⟨st, evaluation⟩ db hdb hresolved
  exact resolveOutcomeNode_concludes st hconsent hcomplete hresolved hdb

/-- **Every run** comes to the verdict on the store it started from, or is stopped. -/
theorem runAgent_concludes (hpolicy : ∀ i, given i → i.evaluatePolicy = policy)
    (budget : AgentRunBudget) (startedAt : Instant) (hs : SameCase before s) :
    (runAgent deps ctx budget startedAt).Assures (amid given)
      (OnReturn (Concluded (stops deps) (runVerdict deps ctx policy before) before)) s := by
  apply onReturn_bind (quiet_onReturn (createOrLoad_keeps _) (sameCase_untouched before) hs)
  intro initialBudget db hdb
  apply onReturn_bind (graph_concludes hpolicy _ hdb)
  intro result db hresult
  apply onReturn_bind (quiet_onReturn (persistAgentRun_keeps ctx result)
    (concluded_untouched _ _ _ result) hresult)
  intro persisted db hresult
  exact hresult

/-- The activity answers READY for a case that is found clear. -/
theorem concludeEvaluation_ready {result : AgentRunResult}
    (h : Concluded (stops deps) (runVerdict deps ctx policy before) before result s) :
    (concludeEvaluation ctx result).Assures (amid given) (OnReturn fun answer _ =>
      answer = .READY → runVerdict deps ctx policy before = .clear) s := by
  cases result with
  | proposedAction st action =>
    cases action with
    | some action =>
      intro hready
      cases hready
    | none =>
      have hclear : runVerdict deps ctx policy before = .clear := by
        rcases h with ⟨trigger, htrigger, -⟩ | hmeets
        · cases htrigger
        · have hroute := hmeets.route
          have hcode := hmeets.code
          revert hroute hcode
          cases runVerdict deps ctx policy before with
          | clear => exact fun _ _ => rfl
          | opens condition => exact fun _ hcode => (by cases hcode)
          | _ => exact fun hroute _ => (by cases hroute)
      apply onReturn_bind (Q := fun _ _ => True) (Proc.assures_trivial onReturn_trivial _)
      intro readied db _
      apply onReturn_bind (Q := fun _ _ => True) (Proc.assures_trivial onReturn_trivial _)
      intro sent db _ _
      exact hclear
  | ended reached =>
    cases reached with
    | awaitingInformation st =>
      intro hready
      cases hready
    | review st trigger =>
      dsimp only [concludeEvaluation]
      cases trigger.category.route with
      | ROUTE_TO_MANUAL_REVIEW =>
        intro hready
        cases hready
      | INTERRUPT_FOR_REVIEW =>
        intro hready
        cases hready

theorem evaluateConditions_ready {consent : ConsentStatus}
    (hpolicy : ∀ i, given i → i.evaluatePolicy = policy)
    (hconsent : ∀ i, given i → i.consent = consent) (ref : CaseRef) (workflowRunId : String)
    (hs : SameCase before s) :
    (evaluateConditions deps ref workflowRunId).Assures (amid given) (OnReturn fun answer _ =>
      answer = .READY → verdict deps.arith policy ref consent before = .clear) s := by
  apply onReturn_bind (quiet_onReturn (query_keeps _) (sameCase_untouched before) hs)
  intro loanCase db hdb
  have hask : (Proc.ask fun i => i.consent : Act ConsentStatus).Assures (amid given)
      (OnReturn fun consentStatus db => SameCase before db ∧ consentStatus = consent) db := by
    apply Proc.onReturn_tx
    intro db' i consentStatus hothers hgiven hanswer
    cases hanswer
    exact ⟨hothers.trans hdb, hconsent i hgiven⟩
  apply onReturn_bind hask
  rintro consentStatus db ⟨hdb, rfl⟩
  apply onReturn_bind (quiet_onReturn (query_keeps _) (sameCase_untouched before) hdb)
  intro tenant db hdb
  apply onReturn_bind (quiet_onReturn (ask_keeps _) (sameCase_untouched before) hdb)
  intro now db hdb
  apply onReturn_bind (runAgent_concludes hpolicy _ now hdb)
  intro result db hresult
  exact concludeEvaluation_ready hresult

end Run

end MortgageAgent.Workflow
