import MortgageAgent.Policy.Evaluation
import MortgageAgent.Workflow.Planner

/-!
# Versions whose rule matches

A resolved evaluation lists the versions that apply, in the resolver's row order where it was
refreshed and in the order of their ids where it was read from a snapshot. The runtime evaluates
every rule, and opens the condition of the first that matches.

* **`askedFor`** — the conditions that the rules that match ask for.
* **`OpensJust`** — a run has opened those and no other.
* **`opens_all_iff`** — it does, whatever the order of the versions, exactly if they ask for no two
  conditions; and exactly then the order does not decide what is opened.
-/

namespace MortgageAgent.Workflow

open Proc (Reaches)

/-- A version of a resolution, as `evaluate_policy` returns it. -/
def matchedVersion (v : Policy.ResolvedPolicyVersionRef) : MatchedVersion where
  policyVersionId := v.policyVersionId
  ruleId := v.ruleId
  version := v.version
  rule := v.rule

/-- The conditions that the rules that match the facts ask for. -/
def askedFor (arith : Policy.FactArithmetic) (facts : Policy.PolicyFactContext)
    (versions : List MatchedVersion) : List OpenedCondition :=
  (versions.filter fun v => (Policy.evaluatePolicyRule arith v.rule facts).matched).map conditionOf

/-- Since `before`, the conditions asked for have been opened, and no others. -/
def OpensJust (asked : List OpenedCondition) (before db : Db) : Prop :=
  ∃ opened, db.conditionsOpened = before.conditionsOpened ++ opened ∧ ∀ c, c ∈ opened ↔ c ∈ asked

def AtMostOne (asked : List OpenedCondition) : Prop := ∀ c ∈ asked, ∀ c' ∈ asked, c = c'

instance (asked : List OpenedCondition) : Decidable (AtMostOne asked) :=
  inferInstanceAs (Decidable (∀ c ∈ asked, ∀ c' ∈ asked, c = c'))

/-- The same evaluation, its versions in another order. -/
def EvaluatePolicyResult.listed (answer : EvaluatePolicyResult) (versions : List MatchedVersion) :
    EvaluatePolicyResult :=
  { answer with matchedVersions := versions }

/-! ## The first that matches -/

variable {arith : Policy.FactArithmetic} {facts : Policy.PolicyFactContext}

theorem firstMatch_conditionOf (versions : List MatchedVersion) :
    (firstMatch arith facts versions).map (fun p => conditionOf p.1)
      = (askedFor arith facts versions).head? := by
  rw [firstMatch, askedFor, List.head?_map, List.head?_filter, List.find?_map, Option.map_map,
    Option.map_map]
  rfl

theorem askedFor_perm {versions versions' : List MatchedVersion} (h : versions.Perm versions') :
    (askedFor arith facts versions).Perm (askedFor arith facts versions') :=
  (h.filter _).map _

/-- The first of a list is all there is in it exactly if no two of its members differ. -/
theorem mem_head?_iff {l l' : List OpenedCondition} (h : l'.Perm l) :
    (∀ c, c ∈ l'.head?.toList ↔ c ∈ l) ↔ AtMostOne l := by
  cases l' with
  | nil =>
    obtain rfl := h.nil_eq
    simp [AtMostOne]
  | cons c cs =>
    have hc : c ∈ l := h.mem_iff.mp (List.mem_cons_self ..)
    simp only [List.head?_cons, Option.toList_some, List.mem_singleton]
    constructor
    · intro hall a ha b hb
      exact ((hall a).mpr ha).trans ((hall b).mpr hb).symm
    · intro hone a
      exact ⟨fun heq => heq ▸ hc, fun ha => hone a ha c hc⟩

/-- Every order has one first condition exactly if no two are asked for. -/
theorem head?_perm_iff (versions : List MatchedVersion) :
    (∀ versions', versions'.Perm versions →
        (askedFor arith facts versions').head? = (askedFor arith facts versions).head?)
      ↔ AtMostOne (askedFor arith facts versions) := by
  constructor
  · intro hsame
    -- a version that matches can be listed first
    have hfirst : ∀ c ∈ askedFor arith facts versions,
        (askedFor arith facts versions).head? = some c := by
      intro c hc
      obtain ⟨v, hv, rfl⟩ := List.mem_map.mp hc
      obtain ⟨hmem, hmatch⟩ := List.mem_filter.mp hv
      rw [← hsame (v :: versions.erase v) (List.perm_cons_erase hmem).symm, askedFor,
        List.filter_cons, if_pos hmatch, List.map_cons, List.head?_cons]
    intro c hc c' hc'
    exact Option.some.inj ((hfirst c hc).symm.trans (hfirst c' hc'))
  · intro hone versions' hperm
    have hasked : (askedFor arith facts versions').Perm (askedFor arith facts versions) :=
      askedFor_perm hperm
    cases hhead : (askedFor arith facts versions').head? with
    | none =>
      rw [List.head?_eq_none_iff] at hhead
      rw [hhead] at hasked
      rw [← hasked.nil_eq]
      rfl
    | some c =>
      have hc := hasked.mem_iff.mp (List.mem_of_mem_head? hhead)
      cases hhead' : (askedFor arith facts versions).head? with
      | none =>
        rw [List.head?_eq_none_iff] at hhead'
        rw [hhead'] at hc
        cases hc
      | some c' => rw [hone c hc c' (List.mem_of_mem_head? hhead')]

/-! ## Runs -/

theorem policyVerdict_opened {loanCase : LoanCase} {latestIncomeFact : Option EvidenceFact}
    {evaluation : EvaluatePolicyResult} (hresolved : evaluation.status = .RESOLVED) :
    (policyVerdict arith loanCase latestIncomeFact evaluation).opened
      = (askedFor arith (factContext loanCase latestIncomeFact)
          evaluation.matchedVersions).head? := by
  rw [← firstMatch_conditionOf, policyVerdict, if_neg (by rw [hresolved]; decide)]
  cases firstMatch arith (factContext loanCase latestIncomeFact) evaluation.matchedVersions with
  | none => rfl
  | some found => rfl

/-- A verdict that a run ends by proposing an action is the policy's. -/
theorem verdict_of_proposed {policy : EvaluatePolicyArgs → Except Failure EvaluatePolicyResult}
    {ref : CaseRef} {consentStatus : ConsentStatus} {db : Db} {loanCase : LoanCase}
    {evaluation : EvaluatePolicyResult} (hcase : db.findCase ref = some loanCase)
    (hanswer : policy (evaluatePolicyArgs loanCase) = .ok evaluation)
    (hroute : (verdict arith policy ref consentStatus db).route = some .PROPOSED_ACTION) :
    verdict arith policy ref consentStatus db
      = policyVerdict arith loanCase (db.latestIncomeFact ref) evaluation := by
  unfold verdict at hroute ⊢
  split at hroute
  · cases hroute
  · rename_i hconsent
    rw [if_neg hconsent]
    split at hroute
    · cases hroute
    · rename_i hcomplete
      rw [if_neg hcomplete, hcase]
      dsimp only
      rw [hanswer]

/-- A run on the evaluation has returned the result and left the store `s`. -/
def RunsTo (deps : RuntimeDeps) (ctx : RunContext) (db : Db) (answer : EvaluatePolicyResult)
    (result : AgentRunResult) (s : Db) : Prop :=
  ∃ budget startedAt, Reaches (amid (Catalogued fun _ => .ok answer))
    (runAgent deps ctx budget startedAt) db (.done result) s

/-- A run that proposes an action has opened the first condition asked for, if any is. -/
theorem RunsTo.opened {deps : RuntimeDeps} {ctx : RunContext} {db s : Db}
    {answer : EvaluatePolicyResult} {result : AgentRunResult} {loanCase : LoanCase}
    (h : RunsTo deps ctx db answer result s) (hcase : db.findCase ctx.ref = some loanCase)
    (hresolved : answer.status = .RESOLVED) (hproposed : result.route = .PROPOSED_ACTION) :
    s.conditionsOpened = db.conditionsOpened
      ++ (askedFor deps.arith (factContext loanCase (db.latestIncomeFact ctx.ref))
          answer.matchedVersions).head?.toList := by
  obtain ⟨budget, startedAt, hrun⟩ := h
  rcases runAgent_returns (fun _ h => h) hrun with hstopped | hmeets
  · have hreviewed := hstopped.reviewed
    unfold AgentRunResult.reviewed at hreviewed
    rw [hproposed] at hreviewed
    exact absurd hreviewed (by decide)
  · have hroute := hmeets.route
    rw [hproposed] at hroute
    have hverdict := verdict_of_proposed hcase rfl hroute
    have hopened := hmeets.opened
    rw [show runVerdict deps ctx (fun _ => .ok answer) db = _ from hverdict,
      policyVerdict_opened hresolved] at hopened
    exact hopened

/-- **The conditions of all rules that match** are opened, in every run that proposes an action and
whatever the order the versions are listed in, exactly if the rules ask for no two of them; and
exactly then the order does not decide which is opened. -/
theorem opens_all_iff (deps : RuntimeDeps) (ctx : RunContext) (db : Db) (loanCase : LoanCase)
    (answer : EvaluatePolicyResult) (hcase : db.findCase ctx.ref = some loanCase)
    (hresolved : answer.status = .RESOLVED) :
    (∀ versions result s, versions.Perm answer.matchedVersions →
      RunsTo deps ctx db (answer.listed versions) result s → result.route = .PROPOSED_ACTION →
      (OpensJust (askedFor deps.arith (factContext loanCase (db.latestIncomeFact ctx.ref))
          answer.matchedVersions) db s
        ↔ AtMostOne (askedFor deps.arith (factContext loanCase (db.latestIncomeFact ctx.ref))
          answer.matchedVersions)))
    ∧ ((∀ versions, versions.Perm answer.matchedVersions →
        (policyVerdict deps.arith loanCase (db.latestIncomeFact ctx.ref)
            (answer.listed versions)).opened
          = (policyVerdict deps.arith loanCase (db.latestIncomeFact ctx.ref) answer).opened)
      ↔ AtMostOne (askedFor deps.arith (factContext loanCase (db.latestIncomeFact ctx.ref))
          answer.matchedVersions)) := by
  constructor
  · intro versions result s hperm hrun hproposed
    have hopened := hrun.opened hcase hresolved hproposed
    rw [← mem_head?_iff (askedFor_perm hperm)]
    constructor
    · rintro ⟨opened, hopened', hall⟩
      rw [hopened] at hopened'
      rw [← List.append_cancel_left hopened'] at hall
      exact hall
    · intro hall
      exact ⟨_, hopened, hall⟩
  · rw [← head?_perm_iff]
    have hopened (versions : List MatchedVersion) : (policyVerdict deps.arith loanCase
        (db.latestIncomeFact ctx.ref) (answer.listed versions)).opened = _ :=
      policyVerdict_opened hresolved
    refine forall_congr' fun versions => imp_congr_right fun _ => ?_
    have hanswer := hopened answer.matchedVersions
    rw [show answer.listed answer.matchedVersions = answer from rfl] at hanswer
    rw [hopened versions, hanswer]
    exact Iff.rfl

/-! ## A case with two rules -/

/-- The same comparison, for another condition. -/
def employmentVersion : Policy.ResolvedPolicyVersionRef where
  policyVersionId := 21
  ruleId := "employment-discrepancy"
  version := "1.0.0"
  rule := { discrepancyRule with
    id := "employment-discrepancy"
    outcome := { condition := "VERIFY_EMPLOYMENT", route := "BORROWER_REMEDIATION" } }
  effectiveFrom := 0
  effectiveTo := none

def incomeVersion : Policy.ResolvedPolicyVersionRef where
  policyVersionId := 20
  ruleId := "income-discrepancy"
  version := "1.0.0"
  rule := discrepancyRule
  effectiveFrom := 0
  effectiveTo := none

/-- What has become of a run on these versions, its transactions committed. -/
def ranOn (versions : List Policy.ResolvedPolicyVersionRef) : Db × Act AgentRunResult :=
  (sampleRun sampleDeps).commits collectedDb
    (plannedInputs (versions.map matchedVersion) 50 40)

theorem ranOn_runsTo {versions : List Policy.ResolvedPolicyVersionRef} {result : AgentRunResult}
    (h : (ranOn versions).2.returned = some result) :
    RunsTo sampleDeps sampleContext collectedDb (resolvedTo (versions.map matchedVersion)) result
      (ranOn versions).1 :=
  ⟨_, _, Proc.reaches_returned h fun i hi _ _ => (plannedInputs_given i hi).1⟩

theorem opens_all_iff_income :
    ∃ result, (ranOn [incomeVersion]).2.returned = some result
      ∧ OpensJust [conditionOf (matchedVersion incomeVersion)] collectedDb
          (ranOn [incomeVersion]).1 := by
  have hroute : (ranOn [incomeVersion]).2.returned.map (·.route) = some .PROPOSED_ACTION := by
    decide +kernel
  obtain ⟨result, hresult, hproposed⟩ := Option.map_eq_some_iff.mp hroute
  refine ⟨result, hresult, ?_⟩
  exact ((opens_all_iff sampleDeps sampleContext collectedDb (sampleCase .COLLECTING_EVIDENCE)
    (resolvedTo [matchedVersion incomeVersion]) (by decide +kernel) rfl).1 _ result _ (.refl _)
    (ranOn_runsTo hresult) hproposed).mpr (by decide +kernel)

/-- The versions in the order of the resolver's rows. -/
def twoRules : Policy.PolicyResolutionResult where
  status := .RESOLVED
  versions := [employmentVersion, incomeVersion]
  unresolvedReasons := []

/-- Of two rules that match, one condition is opened: the employment's where the evaluation was
refreshed, the income's where it was read from the snapshot. -/
theorem second_match_dropped :
    ∃ result result', RunsTo sampleDeps sampleContext collectedDb
        (resolvedTo (twoRules.versions.map matchedVersion)) result (ranOn twoRules.versions).1
      ∧ RunsTo sampleDeps sampleContext collectedDb
        (resolvedTo ((Policy.snapshotVersions twoRules).map matchedVersion)) result'
        (ranOn (Policy.snapshotVersions twoRules)).1
      ∧ result.route = .PROPOSED_ACTION ∧ result'.route = .PROPOSED_ACTION
      ∧ ¬ OpensJust [conditionOf (matchedVersion employmentVersion),
          conditionOf (matchedVersion incomeVersion)] collectedDb (ranOn twoRules.versions).1
      ∧ (ranOn twoRules.versions).1.conditionsOpened
        ≠ (ranOn (Policy.snapshotVersions twoRules)).1.conditionsOpened := by
  have hroute : (ranOn twoRules.versions).2.returned.map (·.route)
      = some .PROPOSED_ACTION := by decide +kernel
  have hroute' : (ranOn (Policy.snapshotVersions twoRules)).2.returned.map (·.route)
      = some .PROPOSED_ACTION := by decide +kernel
  obtain ⟨result, hresult, hproposed⟩ := Option.map_eq_some_iff.mp hroute
  obtain ⟨result', hresult', hproposed'⟩ := Option.map_eq_some_iff.mp hroute'
  have hrun := ranOn_runsTo hresult
  have hrun' := ranOn_runsTo hresult'
  have hcase : collectedDb.findCase sampleContext.ref = some (sampleCase .COLLECTING_EVIDENCE) := by
    decide +kernel
  have hone : (ranOn twoRules.versions).1.conditionsOpened
      = collectedDb.conditionsOpened ++ [conditionOf (matchedVersion employmentVersion)] :=
    hrun.opened hcase rfl hproposed
  have hone' : (ranOn (Policy.snapshotVersions twoRules)).1.conditionsOpened
      = collectedDb.conditionsOpened ++ [conditionOf (matchedVersion incomeVersion)] :=
    hrun'.opened hcase rfl hproposed'
  refine ⟨result, result', hrun, hrun', hproposed, hproposed', ?_, ?_⟩
  swap
  · rw [hone, hone']
    intro heq
    exact absurd (List.append_cancel_left heq) (by decide +kernel)
  rintro ⟨opened, hopened, hall⟩
  rw [hone] at hopened
  rw [← List.append_cancel_left hopened] at hall
  have hincome := (hall (conditionOf (matchedVersion incomeVersion))).mpr
    (List.mem_cons_of_mem _ (List.mem_singleton_self _))
  revert hincome
  decide +kernel

end MortgageAgent.Workflow
