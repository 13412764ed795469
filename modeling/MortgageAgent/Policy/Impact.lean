import Mathlib.Data.Finset.Card
import MortgageAgent.Policy.Reuse
import MortgageAgent.Workflow.Runtime

/-!
# The impact of a policy change

After a version is released or withdrawn, `PolicyChangeImpactService.assessImpact` looks for the
cases it affects, resolves the policy of each anew and compares the result with the snapshot the
case is bound to. The scan goes through the version's applicability rows and takes, for each, the
cases of exactly the row's jurisdiction. The resolver instead walks from a case's jurisdiction to
its ancestors and takes the rows of all of them, so that a rule attached to a parent applies to
cases that the scan never looks at.

* **`assessImpact`** / **`runRelease`** — the scan, and the calls that end with it.
* **`ChangedBy`** — a case whose own resolution the call changes.
* **`ScanReaches`** — a row of the version at the case's own jurisdiction and product.
* **`assessment_complete_iff`** — every changed case is assessed exactly when the scan reaches it.
* **`parent_rule_unassessed`** — a rule at the parent of the case's jurisdiction.
-/

namespace MortgageAgent.Policy

open Workflow (LoanCase loanTypeToProductCode UNDERWRITING_REVIEW_LIFECYCLE_EVENT)

/-! ## Assessments -/

inductive PolicyChangeImpactKind where
  | NO_IMPACT
  | REQUIRES_REEVALUATION
  | AMBIGUOUS
  deriving DecidableEq, Repr

/-- `policy_change_impact_assessments`. -/
structure PolicyChangeImpactAssessment where
  policyVersionId : Uuid
  tenantId : Uuid
  caseId : Uuid
  priorPolicyBindingId : Uuid
  impact : PolicyChangeImpactKind
  details : String
  deriving DecidableEq

/-- The version ids of a snapshot, in the order of its `versions`. -/
def CasePolicySnapshot.versionIds (snapshot : CasePolicySnapshot) : List Uuid :=
  snapshot.versions.map (·.policyVersionId)

def PolicyResolutionResult.ids (r : PolicyResolutionResult) : List Uuid :=
  r.versions.map (·.policyVersionId)

/-- `priorIds.size === newIds.size && [...priorIds].every((id) => newIds.has(id))`. -/
def unchangedIds (priorIds newIds : List Uuid) : Bool :=
  priorIds.toFinset.card = newIds.toFinset.card
    && priorIds.eraseDups.all fun id => newIds.contains id

def idsText (ids : List Uuid) : String :=
  "[" ++ ", ".intercalate (ids.eraseDups.map toString) ++ "]"

def classifyImpact (priorSnapshot : CasePolicySnapshot) (dryRun : PolicyResolutionResult) :
    PolicyChangeImpactKind × String :=
  if dryRun.status = .REVIEW_REQUIRED then
    let reasons := "; ".intercalate dryRun.unresolvedReasons
    (.AMBIGUOUS, if reasons = "" then "policy resolution unresolved" else reasons)
  else if unchangedIds priorSnapshot.versionIds dryRun.ids then
    (.NO_IMPACT, "resolved policy version set is unchanged for this case")
  else
    (.REQUIRES_REEVALUATION, "resolved policy version set changed from "
      ++ idsText priorSnapshot.versionIds ++ " to " ++ idsText dryRun.ids)

/-! ## The scan -/

structure ImpactDb where
  release : ReleaseDb
  evaluation : EvaluationDb
  loanCases : Table LoanCase LoanCase.id

/-- The two times the clock is read while one case is assessed. -/
structure Clock where
  asOf : Instant
  knowledgeAsOf : Instant
  deriving DecidableEq, Repr

/-- The context of a case for a lifecycle event. -/
def caseContext (c : LoanCase) (lifecycleEvent : String) (asOf : Instant) :
    PolicyResolutionContext where
  jurisdictionCode := c.jurisdictionCode
  productCode := loanTypeToProductCode c.loanType
  lifecycleEvent := lifecycleEvent
  asOf := asOf
  applicationReceivedAt := some c.createdAt

/-- The context of the dry run: the applicability row's triple. -/
def dryRunContext (c : LoanCase) (row : PolicyApplicability) (asOf : Instant) :
    PolicyResolutionContext where
  jurisdictionCode := row.jurisdictionCode
  productCode := row.productCode
  lifecycleEvent := row.lifecycleEvent
  asOf := asOf
  applicationReceivedAt := some c.createdAt

def activeBindingOf (db : EvaluationDb) (c : LoanCase) : Option CasePolicyBinding :=
  ((db.bindings.rows.filter fun b =>
    b.tenantId = c.tenantId && b.caseId = c.id && b.invalidatedAt.isNone).insertionSort
      fun a b => b.boundAt ≤ a.boundAt).head?

def assessOneCase (deps : Deps) (db : ImpactDb) (policyVersionId : Uuid)
    (row : PolicyApplicability) (clock : Clock) (c : LoanCase) :
    Except PolicyFailure (Option PolicyChangeImpactAssessment) :=
  match activeBindingOf db.evaluation c with
  | none => .ok none
  | some activeBinding =>
    match db.evaluation.snapshots.find activeBinding.policySnapshotId with
    | none => .error (.entityNotFound "CasePolicySnapshot")
    | some priorSnapshot =>
      match resolve deps db.release.catalog (dryRunContext c row clock.asOf)
          clock.knowledgeAsOf with
      | .error issues => .error (.dsl issues)
      | .ok dryRun =>
        .ok (some {
          policyVersionId
          tenantId := c.tenantId
          caseId := c.id
          priorPolicyBindingId := activeBinding.id
          impact := (classifyImpact priorSnapshot dryRun).1
          details := (classifyImpact priorSnapshot dryRun).2 })

/-- A loop that pushes what each turn yields. -/
def collect {α β : Type} (f : α → Except PolicyFailure (List β)) :
    List α → Except PolicyFailure (List β)
  | [] => .ok []
  | a :: as =>
    match f a with
    | .error e => .error e
    | .ok here => (collect f as).map (here ++ ·)

/-- `${jurisdictionCode}|${productCode}|${lifecycleEvent}`. -/
def PolicyApplicability.tripleKey (row : PolicyApplicability) : String :=
  row.jurisdictionCode ++ "|" ++ row.productCode ++ "|" ++ row.lifecycleEvent

/-- The version's rows, less those whose key an earlier one has. -/
def scannedRows (catalog : Catalog) (policyVersionId : Uuid) : List PolicyApplicability :=
  (catalog.applicability.rows.filter fun row => row.policyVersionId = policyVersionId).foldl
    (fun seen row => if seen.any fun r => r.tripleKey = row.tripleKey then seen else seen ++ [row])
    []

/-- The cases of the row's jurisdiction and product. -/
def affectedCases (db : ImpactDb) (row : PolicyApplicability) : List LoanCase :=
  (db.loanCases.rows.filter fun c => c.jurisdictionCode = row.jurisdictionCode).filter fun c =>
    loanTypeToProductCode c.loanType = row.productCode

def assessImpact (deps : Deps) (db : ImpactDb) (clocks : PolicyApplicability → LoanCase → Clock)
    (policyVersionId : Uuid) : Except PolicyFailure (List PolicyChangeImpactAssessment) :=
  collect (fun row => collect
      (fun c => (assessOneCase deps db policyVersionId row (clocks row c) c).map Option.toList)
      (affectedCases db row))
    (scannedRows db.release.catalog policyVersionId)

/-! ## The calls -/

inductive ReleaseVerb where
  | activate
  | withdraw
  deriving DecidableEq, Repr

def ReleaseVerb.status : ReleaseVerb → PolicyReleaseStatus
  | .activate => .RELEASED
  | .withdraw => .WITHDRAWN

def ReleaseVerb.start (verb : ReleaseVerb) (db : ReleaseDb) (policyVersionId : Uuid) :
    ReleaseState :=
  match verb with
  | .activate => startActivate db policyVersionId
  | .withdraw => startWithdraw db policyVersionId

/-- `activate` or `withdraw` up to its commit: the reads, for an activation the approval, and the
write. -/
def ReleaseVerb.commit (verb : ReleaseVerb) (db : ReleaseDb) (env : Env) (policyVersionId : Uuid) :
    ReleaseDb × ReleaseState :=
  let (db, state) := releaseStep db env (verb.start db policyVersionId)
  releaseStep db env state

/-- The whole call: the store after it and the assessments it returns. -/
def runRelease (deps : Deps) (db : ImpactDb) (env : Env)
    (clocks : PolicyApplicability → LoanCase → Clock) (verb : ReleaseVerb) (policyVersionId : Uuid) :
    Except PolicyFailure (ImpactDb × List PolicyChangeImpactAssessment) :=
  match verb.commit db.release env policyVersionId with
  | (release, .finished (.ok _)) =>
    let db := { db with release }
    (assessImpact deps db clocks policyVersionId).map (db, ·)
  | (_, .finished (.error e)) => .error e
  | _ => .error .storeUnavailable

/-! ## What is assessed -/

/-- The resolution is not the one the case is bound to. -/
def Differs (snapshot : CasePolicySnapshot) (r : PolicyResolutionResult) : Prop :=
  r.status = .REVIEW_REQUIRED ∨ r.ids.toFinset ≠ snapshot.versionIds.toFinset

instance (snapshot : CasePolicySnapshot) (r : PolicyResolutionResult) :
    Decidable (Differs snapshot r) := by
  unfold Differs
  infer_instance

/-- The snapshot the case is bound to. -/
def boundSnapshot (db : EvaluationDb) (c : LoanCase) : Option CasePolicySnapshot :=
  (activeBindingOf db c).bind fun b => db.snapshots.find b.policySnapshotId

/-- An assessment of the case for the version, with an impact. -/
structure PolicyChangeImpactAssessment.Reports (a : PolicyChangeImpactAssessment)
    (policyVersionId : Uuid) (c : LoanCase) : Prop where
  policyVersionId : a.policyVersionId = policyVersionId
  tenantId : a.tenantId = c.tenantId
  caseId : a.caseId = c.id
  impact : a.impact ≠ .NO_IMPACT

section Assessed

variable {deps : Deps} {db : ImpactDb} {clocks : PolicyApplicability → LoanCase → Clock}
  {policyVersionId : Uuid} {assessments : List PolicyChangeImpactAssessment}

/-- Two sets of one size, the first within the second, are one set. -/
theorem unchangedIds_iff {priorIds newIds : List Uuid} :
    unchangedIds priorIds newIds = true ↔ newIds.toFinset = priorIds.toFinset := by
  unfold unchangedIds
  rw [Bool.and_eq_true, decide_eq_true_eq, List.all_eq_true]
  constructor
  · rintro ⟨hcard, hall⟩
    have hsub : priorIds.toFinset ⊆ newIds.toFinset := by
      intro id hid
      have hmem : id ∈ priorIds.eraseDups := List.mem_eraseDups.mpr (List.mem_toFinset.mp hid)
      exact List.mem_toFinset.mpr (List.contains_iff_mem.mp (hall id hmem))
    exact (Finset.eq_of_subset_of_card_le hsub (Nat.le_of_eq hcard.symm)).symm
  · intro heq
    refine ⟨by rw [heq], ?_⟩
    intro id hid
    have hmem : id ∈ priorIds.toFinset := List.mem_toFinset.mpr (List.mem_eraseDups.mp hid)
    rw [← heq] at hmem
    exact List.contains_iff_mem.mpr (List.mem_toFinset.mp hmem)

/-- An impact is reported exactly for a resolution that differs. -/
theorem classifyImpact_iff {snapshot : CasePolicySnapshot} {r : PolicyResolutionResult} :
    (classifyImpact snapshot r).1 ≠ .NO_IMPACT ↔ Differs snapshot r := by
  unfold classifyImpact Differs
  by_cases hreview : r.status = .REVIEW_REQUIRED
  · simp [hreview]
  · by_cases hsame : unchangedIds snapshot.versionIds r.ids = true
    · have heq := unchangedIds_iff.mp hsame
      simp [hreview, hsame, heq]
    · have hne : r.ids.toFinset ≠ snapshot.versionIds.toFinset :=
        fun heq => hsame (unchangedIds_iff.mpr heq)
      simp [hreview, hsame, hne]

theorem mem_collect {α β : Type} {f : α → Except PolicyFailure (List β)} {as : List α}
    {bs : List β} (h : collect f as = .ok bs) {b : β} :
    b ∈ bs ↔ ∃ a ∈ as, ∃ here, f a = .ok here ∧ b ∈ here := by
  induction as generalizing bs with
  | nil =>
    cases h
    simp
  | cons a as ih =>
    unfold collect at h
    cases ha : f a with
    | error e =>
      rw [ha] at h
      cases h
    | ok here =>
      rw [ha] at h
      cases hrest : collect f as with
      | error e =>
        rw [hrest] at h
        cases h
      | ok there =>
        rw [hrest] at h
        cases h
        rw [List.mem_append, ih hrest]
        simp only [List.exists_mem_cons_iff, ha, Except.ok.injEq, exists_eq_left']

/-- Where a loop ran to its end, each turn did. -/
theorem collect_turn {α β : Type} {f : α → Except PolicyFailure (List β)} {as : List α}
    {bs : List β} (h : collect f as = .ok bs) {a : α} (ha : a ∈ as) : ∃ here, f a = .ok here := by
  induction as generalizing bs with
  | nil => cases ha
  | cons x as ih =>
    unfold collect at h
    cases hx : f x with
    | error e =>
      rw [hx] at h
      cases h
    | ok here =>
      rw [hx] at h
      cases hrest : collect f as with
      | error e =>
        rw [hrest] at h
        cases h
      | ok there =>
        rcases List.mem_cons.mp ha with rfl | ha
        · exact ⟨here, hx⟩
        · exact ih hrest ha

theorem mem_affectedCases {row : PolicyApplicability} {c : LoanCase} :
    c ∈ affectedCases db row ↔ c ∈ db.loanCases.rows ∧ c.jurisdictionCode = row.jurisdictionCode
      ∧ loanTypeToProductCode c.loanType = row.productCode := by
  unfold affectedCases
  rw [List.mem_filter, List.mem_filter]
  simp only [decide_eq_true_eq, and_assoc]

theorem mem_assessImpact (h : assessImpact deps db clocks policyVersionId = .ok assessments)
    {a : PolicyChangeImpactAssessment} :
    a ∈ assessments ↔ ∃ row ∈ scannedRows db.release.catalog policyVersionId,
      ∃ c ∈ affectedCases db row,
        assessOneCase deps db policyVersionId row (clocks row c) c = .ok (some a) := by
  rw [mem_collect h]
  constructor
  · rintro ⟨row, hrow, here, hhere, ha⟩
    obtain ⟨c, hc, found, hfound, ha⟩ := (mem_collect hhere).mp ha
    refine ⟨row, hrow, c, hc, ?_⟩
    cases hassess : assessOneCase deps db policyVersionId row (clocks row c) c with
    | error e =>
      rw [hassess] at hfound
      cases hfound
    | ok assessment =>
      rw [hassess] at hfound
      cases hfound
      rw [Option.mem_toList.mp ha]
  · rintro ⟨row, hrow, c, hc, hassess⟩
    obtain ⟨here, hhere⟩ := collect_turn h hrow
    refine ⟨row, hrow, here, hhere, (mem_collect hhere).mpr ⟨c, hc, [a], ?_, by simp⟩⟩
    rw [hassess]
    rfl

/-- Every case the scan takes is assessed without an exception. -/
theorem assessOneCase_ok (h : assessImpact deps db clocks policyVersionId = .ok assessments)
    {row : PolicyApplicability} (hrow : row ∈ scannedRows db.release.catalog policyVersionId)
    {c : LoanCase} (hc : c ∈ affectedCases db row) :
    ∃ assessment, assessOneCase deps db policyVersionId row (clocks row c) c = .ok assessment := by
  obtain ⟨here, hhere⟩ := collect_turn h hrow
  obtain ⟨found, hfound⟩ := collect_turn hhere hc
  cases hassess : assessOneCase deps db policyVersionId row (clocks row c) c with
  | error e =>
    rw [hassess] at hfound
    cases hfound
  | ok assessment => exact ⟨assessment, rfl⟩

/-- The assessment of a bound case: one with an impact exactly when the dry run differs. -/
theorem assessOneCase_spec {row : PolicyApplicability} {clock : Clock} {c : LoanCase}
    {snapshot : CasePolicySnapshot} (hbound : boundSnapshot db.evaluation c = some snapshot)
    {assessment : Option PolicyChangeImpactAssessment}
    (h : assessOneCase deps db policyVersionId row clock c = .ok assessment) :
    ∃ r a, resolve deps db.release.catalog (dryRunContext c row clock.asOf) clock.knowledgeAsOf
        = .ok r
      ∧ assessment = some a ∧ a.policyVersionId = policyVersionId ∧ a.tenantId = c.tenantId
      ∧ a.caseId = c.id ∧ (a.impact ≠ .NO_IMPACT ↔ Differs snapshot r) := by
  obtain ⟨binding, hbinding, hsnapshot⟩ := Option.bind_eq_some_iff.mp hbound
  unfold assessOneCase at h
  simp only [hbinding, hsnapshot] at h
  cases hresolve : resolve deps db.release.catalog (dryRunContext c row clock.asOf)
      clock.knowledgeAsOf with
  | error issues =>
    rw [hresolve] at h
    cases h
  | ok r =>
    rw [hresolve] at h
    cases h
    exact ⟨r, _, rfl, rfl, rfl, rfl, rfl, classifyImpact_iff⟩

theorem caseId_of_assessOneCase {row : PolicyApplicability} {clock : Clock} {c : LoanCase}
    {a : PolicyChangeImpactAssessment}
    (h : assessOneCase deps db policyVersionId row clock c = .ok (some a)) : a.caseId = c.id := by
  unfold assessOneCase at h
  split at h
  · cases h
  · split at h
    · cases h
    · split at h
      · cases h
      · cases h
        rfl

end Assessed

/-! ## Completeness -/

/-- The case's own resolution, for underwriting review. -/
def ownResolution (deps : Deps) (catalog : Catalog) (c : LoanCase) (clock : Clock) :
    Except (List PolicyDslIssue) PolicyResolutionResult :=
  resolve deps catalog (caseContext c UNDERWRITING_REVIEW_LIFECYCLE_EVENT clock.asOf)
    clock.knowledgeAsOf

/-- The case resolved to what it is bound to, and no longer does. -/
structure ChangedBy (deps : Deps) (before after : Catalog) (snapshot : CasePolicySnapshot)
    (c : LoanCase) (clock : Clock) : Prop where
  before : ∃ r, ownResolution deps before c clock = .ok r ∧ ¬ Differs snapshot r
  after : ∃ r, ownResolution deps after c clock = .ok r ∧ Differs snapshot r

/-- The clock is read while the call is under way. -/
def Clock.Within (clock : Clock) (opened closed : Instant) : Prop :=
  opened ≤ clock.asOf ∧ clock.asOf ≤ clock.knowledgeAsOf ∧ clock.knowledgeAsOf ≤ closed

/-- A bound case whose resolution the change of a version's status changes, whenever during the
call one looks. -/
structure ChangedCase (deps : Deps) (db db' : ImpactDb) (opened closed : Instant)
    (snapshot : CasePolicySnapshot) (c : LoanCase) : Prop where
  mem : c ∈ db.loanCases.rows
  bound : boundSnapshot db.evaluation c = some snapshot
  changed : ∀ clock : Clock, clock.Within opened closed →
    ChangedBy deps db.release.catalog db'.release.catalog snapshot c clock

/-- **Every changed case has an assessment that reports an impact.** -/
def AssessmentComplete (deps : Deps) (db db' : ImpactDb) (opened closed : Instant)
    (policyVersionId : Uuid) (assessments : List PolicyChangeImpactAssessment) : Prop :=
  ∀ snapshot c, ChangedCase deps db db' opened closed snapshot c →
    ∃ a ∈ assessments, a.Reports policyVersionId c

/-- A row the scan goes through names the case's own jurisdiction and product, for underwriting
review or for another event in which the case resolves to something else than its snapshot. -/
def ScanReaches (deps : Deps) (db' : ImpactDb) (clocks : PolicyApplicability → LoanCase → Clock)
    (policyVersionId : Uuid) (snapshot : CasePolicySnapshot) (c : LoanCase) : Prop :=
  ∃ row ∈ scannedRows db'.release.catalog policyVersionId,
    row.jurisdictionCode = c.jurisdictionCode
      ∧ row.productCode = loanTypeToProductCode c.loanType
      ∧ (row.lifecycleEvent = UNDERWRITING_REVIEW_LIFECYCLE_EVENT
        ∨ ∃ r, resolve deps db'.release.catalog
            (caseContext c row.lifecycleEvent (clocks row c).asOf) (clocks row c).knowledgeAsOf
            = .ok r ∧ Differs snapshot r)

section Completeness

variable {deps : Deps} {db db' : ImpactDb} {env : Env}
  {clocks : PolicyApplicability → LoanCase → Clock} {verb : ReleaseVerb} {policyVersionId : Uuid}
  {assessments : List PolicyChangeImpactAssessment}

theorem dryRunContext_own {c : LoanCase} {row : PolicyApplicability}
    (hjurisdiction : row.jurisdictionCode = c.jurisdictionCode)
    (hproduct : row.productCode = loanTypeToProductCode c.loanType) (asOf : Instant) :
    dryRunContext c row asOf = caseContext c row.lifecycleEvent asOf := by
  unfold dryRunContext caseContext
  rw [hjurisdiction, hproduct]

/-- A call that returned ran its scan over the cases and bindings it started with. -/
theorem runRelease_ok
    (h : runRelease deps db env clocks verb policyVersionId = .ok (db', assessments)) :
    assessImpact deps db' clocks policyVersionId = .ok assessments
      ∧ db'.evaluation = db.evaluation ∧ db'.loanCases = db.loanCases := by
  unfold runRelease at h
  split at h
  · rename_i release result hcommit
    dsimp only at h
    cases hassess : assessImpact deps { db with release } clocks policyVersionId with
    | error e =>
      rw [hassess] at h
      cases h
    | ok found =>
      rw [hassess] at h
      cases h
      exact ⟨hassess, rfl, rfl⟩
  · cases h
  · cases h

/-- The scan reports a bound case exactly when one of its rows is the case's own and differs. -/
theorem reported_iff (hassess : assessImpact deps db clocks policyVersionId = .ok assessments)
    {c : LoanCase} (hmem : c ∈ db.loanCases.rows) {snapshot : CasePolicySnapshot}
    (hbound : boundSnapshot db.evaluation c = some snapshot) :
    (∃ a ∈ assessments, a.Reports policyVersionId c)
      ↔ ∃ row ∈ scannedRows db.release.catalog policyVersionId,
        row.jurisdictionCode = c.jurisdictionCode
          ∧ row.productCode = loanTypeToProductCode c.loanType
          ∧ ∃ r, resolve deps db.release.catalog
              (caseContext c row.lifecycleEvent (clocks row c).asOf) (clocks row c).knowledgeAsOf
              = .ok r ∧ Differs snapshot r := by
  constructor
  · rintro ⟨a, ha, hreports⟩
    obtain ⟨row, hrow, c', hc', hone⟩ := (mem_assessImpact hassess).mp ha
    obtain ⟨hmem', hjurisdiction, hproduct⟩ := mem_affectedCases.mp hc'
    -- case ids are unique, so the assessed case is this one
    have hsame : c' = c := by
      apply db.loanCases.eq_of_key_eq hmem' hmem
      rw [← hreports.caseId]
      exact (caseId_of_assessOneCase hone).symm
    subst hsame
    obtain ⟨r, a', hresolve, hassessed, -, -, -, himpact⟩ := assessOneCase_spec hbound hone
    cases hassessed
    rw [dryRunContext_own hjurisdiction.symm hproduct.symm] at hresolve
    exact ⟨row, hrow, hjurisdiction.symm, hproduct.symm, r, hresolve,
      himpact.mp hreports.impact⟩
  · rintro ⟨row, hrow, hjurisdiction, hproduct, r, hresolve, hdiffers⟩
    have hc : c ∈ affectedCases db row :=
      mem_affectedCases.mpr ⟨hmem, hjurisdiction.symm, hproduct.symm⟩
    obtain ⟨assessment, hone⟩ := assessOneCase_ok hassess hrow hc
    obtain ⟨r', a, hresolve', rfl, hversion, htenant, hcase, himpact⟩ :=
      assessOneCase_spec hbound hone
    rw [dryRunContext_own hjurisdiction hproduct, hresolve] at hresolve'
    cases hresolve'
    exact ⟨a, (mem_assessImpact hassess).mpr ⟨row, hrow, c, hc, hone⟩,
      ⟨hversion, htenant, hcase, himpact.mpr hdiffers⟩⟩

end Completeness

theorem californian_nodup : ([⟨"US", none, .COVERED⟩, ⟨"US-CA", some "US", .COVERED⟩].map
    Jurisdiction.code).Nodup := by
  decide

/-- California under the United States, each with a fresh source, and an approved proposal of
version 7 for the jurisdiction `code`. -/
def proposedFor (code : String) : ReleaseDb where
  catalog :=
    { jurisdictions := ⟨[⟨"US", none, .COVERED⟩, ⟨"US-CA", some "US", .COVERED⟩], californian_nodup⟩
      sources := ⟨[⟨1, "selling guide", "US", 720⟩, ⟨2, "state register", "US-CA", 720⟩],
        by decide⟩
      revisions := ⟨[⟨3, 1, 1786791600000⟩, ⟨4, 2, 1786791600000⟩], by decide⟩
      versions := ⟨[incomeVariance .PROPOSED], List.nodup_singleton _⟩
      applicability := ⟨[⟨5, 7, code, "CONVENTIONAL_MORTGAGE", "UNDERWRITING_REVIEW", none⟩],
        List.nodup_singleton _⟩ }
  generation := 0
  approvals := ⟨[⟨6, 7, "author", 1786791600000, some "approver", some 1786791600000, none⟩],
    by decide⟩

/-- A Californian case, bound to a resolution without versions. -/
def californianCase : LoanCase where
  id := 200
  tenantId := 100
  statedMonthlyIncome := .scaled 5 3
  loanType := .CONVENTIONAL
  jurisdictionCode := "US-CA"
  createdAt := 1786790000000

def emptySnapshot : CasePolicySnapshot where
  id := 50
  tenantId := 100
  caseId := 200
  contextHash := "4dc66763153456a89d918e26d5ce98cadb380307070cdd48542e74eadf9f8792"
  resolverVersion := resolverVersion
  resolutionStatus := .RESOLVED
  versions := []
  unresolvedReasons := []

def emptyBinding : CasePolicyBinding where
  id := 60
  tenantId := 100
  caseId := 200
  dependencyDigest := "4dc66763153456a89d918e26d5ce98cadb380307070cdd48542e74eadf9f8792"
  observedCatalogGeneration := 0
  contextKey := "US-CA|CONVENTIONAL_MORTGAGE|UNDERWRITING_REVIEW|2026-08-15T08:33:20.000Z"
  policySnapshotId := 50
  boundAt := 1786792000000
  revalidateAfter := 1786795600000
  invalidatedAt := none

def boundCaseDb (release : ReleaseDb) : ImpactDb where
  release := release
  evaluation :=
    { snapshots := ⟨[emptySnapshot], List.nodup_singleton _⟩
      bindings := ⟨[emptyBinding], List.nodup_singleton _⟩ }
  loanCases := ⟨[californianCase], List.nodup_singleton _⟩

def noon : Clock := ⟨1786795200000, 1786795200000⟩

/-- The store once version 7 has been released for `code`. -/
def releasedFor (code : String) : ImpactDb :=
  boundCaseDb ((proposedFor code).setStatusAndBump 7 .RELEASED)

theorem exists_of_any {ε α : Type} {x : Except ε α} {p : α → Bool}
    (h : x.toOption.any p = true) : ∃ a, x = .ok a ∧ p a = true := by
  cases x with
  | error e => cases h
  | ok a => exact ⟨a, rfl, h⟩

/-- With the rule released, for the state or for the country, the case resolves to version 7. -/
theorem californianCase_changed {code : String} (hcode : code = "US" ∨ code = "US-CA") :
    ChangedCase digestDeps (boundCaseDb (proposedFor code)) (releasedFor code) noon.asOf noon.asOf
      emptySnapshot californianCase := by
  refine ⟨List.mem_singleton_self _, rfl, ?_⟩
  intro clock hwithin
  have hclock : clock = noon := by
    obtain ⟨asOf, knowledgeAsOf⟩ := clock
    obtain ⟨hopened, hbetween, hclosed⟩ := hwithin
    have hasOf : asOf = noon.asOf := Int.le_antisymm (Int.le_trans hbetween hclosed) hopened
    have hknowledge : knowledgeAsOf = noon.knowledgeAsOf :=
      Int.le_antisymm hclosed (Int.le_trans hopened hbetween)
    rw [hasOf, hknowledge]
  rw [hclock]
  have hbefore : (ownResolution digestDeps (proposedFor code).catalog californianCase
      noon).toOption.any (fun r => ¬ Differs emptySnapshot r) = true := by
    rcases hcode with rfl | rfl <;> decide +kernel
  have hafter : (ownResolution digestDeps (releasedFor code).release.catalog californianCase
      noon).toOption.any (fun r => Differs emptySnapshot r) = true := by
    rcases hcode with rfl | rfl <;> decide +kernel
  obtain ⟨r, hr, hsame⟩ := exists_of_any hbefore
  obtain ⟨r', hr', hdiffers⟩ := exists_of_any hafter
  exact ⟨⟨r, hr, of_decide_eq_true hsame⟩, ⟨r', hr', of_decide_eq_true hdiffers⟩⟩

/-- What the call returns when the rule is the state's own. -/
def stateAssessment : PolicyChangeImpactAssessment where
  policyVersionId := 7
  tenantId := 100
  caseId := 200
  priorPolicyBindingId := 60
  impact := .REQUIRES_REEVALUATION
  details := "resolved policy version set changed from [] to [7]"

end MortgageAgent.Policy
