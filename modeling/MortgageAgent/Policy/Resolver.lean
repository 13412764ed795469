import Mathlib.Data.List.Perm.Subperm
import MortgageAgent.Lib.Table
import MortgageAgent.Policy.Rule

/-!
# The applicability resolver

`PolicyApplicabilityResolverService.resolve` selects the released policy versions that apply to
a context, or says why it cannot. It walks the jurisdiction's ancestry, holds every declared
source to its freshness objective, and reads each applicability row at the instant its
transition rule selects. Whatever is unknown, stale, unsupported or overlapping is a reason to
review, and a result with a reason carries no versions.

* **`Catalog`** — the rows the resolver reads.
* **`loadCoveredAncestry`**, **`validateSourceFreshness`**, **`classifyRow`** — its parts.
* **`resolve`** — the resolver at one instant of knowledge.
-/

namespace MortgageAgent.Policy

/-! ## Rows -/

inductive JurisdictionCoverageStatus where
  | COVERED
  | PARTIAL
  | NOT_COVERED
  deriving DecidableEq, Repr

/-- `jurisdictions`. -/
structure Jurisdiction where
  code : String
  parentCode : Option String
  coverageStatus : JurisdictionCoverageStatus
  deriving DecidableEq, Repr

/-- `policy_sources`. -/
structure PolicySource where
  id : Uuid
  name : String
  jurisdictionCode : String
  freshnessObjectiveHours : Int
  deriving DecidableEq, Repr

/-- `policy_source_revisions`. -/
structure PolicySourceRevision where
  id : Uuid
  policySourceId : Uuid
  recordedAt : Instant
  deriving DecidableEq, Repr

inductive PolicyReleaseStatus where
  | DRAFT
  | PROPOSED
  | RELEASED
  | SUPERSEDED
  | WITHDRAWN
  | CORRECTED
  deriving DecidableEq, Repr

def PolicyReleaseStatus.text : PolicyReleaseStatus → String
  | .DRAFT => "DRAFT"
  | .PROPOSED => "PROPOSED"
  | .RELEASED => "RELEASED"
  | .SUPERSEDED => "SUPERSEDED"
  | .WITHDRAWN => "WITHDRAWN"
  | .CORRECTED => "CORRECTED"

/-- `policy_versions`. -/
structure PolicyVersion where
  id : Uuid
  ruleId : String
  version : String
  dsl : Json
  effectiveFrom : Instant
  effectiveTo : Option Instant
  releaseStatus : PolicyReleaseStatus

/-- `policy_applicability`. -/
structure PolicyApplicability where
  id : Uuid
  policyVersionId : Uuid
  jurisdictionCode : String
  productCode : String
  lifecycleEvent : String
  transitionRule : Option String
  deriving DecidableEq, Repr

/-- The policy catalog, shared by every tenant. -/
structure Catalog where
  jurisdictions : Table Jurisdiction Jurisdiction.code
  sources : Table PolicySource PolicySource.id
  revisions : Table PolicySourceRevision PolicySourceRevision.id
  versions : Table PolicyVersion PolicyVersion.id
  applicability : Table PolicyApplicability PolicyApplicability.id

structure PolicyResolutionContext where
  jurisdictionCode : String
  productCode : String
  lifecycleEvent : String
  asOf : Instant
  applicationReceivedAt : Option Instant
  deriving DecidableEq, Repr

structure ResolvedPolicyVersionRef where
  policyVersionId : Uuid
  ruleId : String
  version : String
  rule : PolicyRuleDocument
  effectiveFrom : Instant
  effectiveTo : Option Instant
  deriving DecidableEq

inductive PolicyResolutionStatus where
  | RESOLVED
  | REVIEW_REQUIRED
  deriving DecidableEq, Repr

def PolicyResolutionStatus.text : PolicyResolutionStatus → String
  | .RESOLVED => "RESOLVED"
  | .REVIEW_REQUIRED => "REVIEW_REQUIRED"

structure PolicyResolutionResult where
  status : PolicyResolutionStatus
  versions : List ResolvedPolicyVersionRef
  unresolvedReasons : List String
  /-- the earliest source-freshness or scheduled policy boundary -/
  revalidateAfter : Option Instant := none
  deriving DecidableEq

/-! ## Ancestry -/

/-- The chain of parents of `nextCode`, all known and covered, or the reason why not. A blank
code ends the chain as a missing one does. Each turn visits a new row, so a walk that may take
as many turns as there are rows never runs out of them (`loadCoveredAncestry_turns`). -/
def loadCoveredAncestry (catalog : Catalog) : (turns : Nat) → (visited : List String) →
    (nextCode : Option String) → Except String (List Jurisdiction)
  | _, _, none => .ok []
  | turns, visited, some code =>
    if code = "" then .ok []
    else if visited.contains code then
      .error ("jurisdiction ancestry contains a cycle at \"" ++ code ++ "\"")
    else
      match catalog.jurisdictions.find code with
      | none => .error ("jurisdiction ancestry references unknown code \"" ++ code ++ "\"")
      | some jurisdiction =>
        if jurisdiction.coverageStatus ≠ .COVERED then
          .error ("jurisdiction \"" ++ code ++ "\" does not have reviewed COVERED status")
        else
          -- not reached from the start: each turn before this one took another row.
          match turns with
          | 0 => .error ("jurisdiction ancestry contains a cycle at \"" ++ code ++ "\"")
          | turns + 1 =>
            match loadCoveredAncestry catalog turns (code :: visited) jurisdiction.parentCode with
            | .error reason => .error reason
            | .ok ancestry => .ok (jurisdiction :: ancestry)

/-! ### Turns -/

/-- The codes a walk has visited: rows of the catalog, each once. -/
structure Visited (catalog : Catalog) (visited : List String) : Prop where
  nodup : visited.Nodup
  known : visited ⊆ catalog.jurisdictions.rows.map Jurisdiction.code

theorem Visited.cons {catalog : Catalog} {visited : List String} {jurisdiction : Jurisdiction}
    (h : Visited catalog visited) (hmem : jurisdiction ∈ catalog.jurisdictions.rows)
    (hnew : jurisdiction.code ∉ visited) : Visited catalog (jurisdiction.code :: visited) :=
  ⟨List.nodup_cons.mpr ⟨hnew, h.nodup⟩, List.cons_subset.mpr ⟨List.mem_map_of_mem hmem, h.known⟩⟩

theorem Visited.length_le {catalog : Catalog} {visited : List String}
    (h : Visited catalog visited) : visited.length ≤ catalog.jurisdictions.rows.length := by
  have hlength := (h.nodup.subperm h.known).length_le
  rwa [List.length_map] at hlength

/-- With a turn for every row not yet visited, one more makes no difference. -/
theorem loadCoveredAncestry_succ {catalog : Catalog} {turns : Nat} {visited : List String}
    (hvisited : Visited catalog visited)
    (hturns : catalog.jurisdictions.rows.length ≤ turns + visited.length)
    (nextCode : Option String) :
    loadCoveredAncestry catalog (turns + 1) visited nextCode
      = loadCoveredAncestry catalog turns visited nextCode := by
  -- on the turns: each one visits a row, so the bound holds for what is left
  induction turns generalizing visited nextCode with
  | zero =>
    cases nextCode with
    | none => rfl
    | some code =>
      simp only [loadCoveredAncestry]
      split
      · rfl
      · split
        · rfl
        · next hnew =>
          split
          · rfl
          · next jurisdiction hfind =>
            -- every row has been visited, so no row that is found is new
            obtain ⟨hmem, rfl⟩ := catalog.jurisdictions.find_eq_some_iff.mp hfind
            have hlength := (hvisited.cons hmem (by simpa using hnew)).length_le
            rw [List.length_cons] at hlength
            omega
  | succ turns ih =>
    cases nextCode with
    | none => rfl
    | some code =>
      rw [loadCoveredAncestry, loadCoveredAncestry]
      split
      · rfl
      · split
        · rfl
        · next hnew =>
          split
          · rfl
          · next jurisdiction hfind =>
            obtain ⟨hmem, rfl⟩ := catalog.jurisdictions.find_eq_some_iff.mp hfind
            have hvisited' := hvisited.cons hmem (by simpa using hnew)
            dsimp only
            rw [ih hvisited' (by rw [List.length_cons]; omega)]

/-- **Turns never run out.** The walk with more turns than there are rows is the walk with as
many. -/
theorem loadCoveredAncestry_turns (catalog : Catalog) {turns : Nat}
    (h : catalog.jurisdictions.rows.length ≤ turns) (nextCode : Option String) :
    loadCoveredAncestry catalog turns [] nextCode
      = loadCoveredAncestry catalog catalog.jurisdictions.rows.length [] nextCode := by
  have hvisited : Visited catalog [] := ⟨List.nodup_nil, List.nil_subset _⟩
  induction turns, h using Nat.le_induction with
  | base => rfl
  | succ turns hle ih =>
    rw [loadCoveredAncestry_succ hvisited (by simpa using hle), ih]

/-! ## Source freshness -/

def hourMs : Int := 60 * 60 * 1000

/-- The newest revision of each source comes first, as `ORDER BY "recordedAt" DESC` lists them. -/
def newestRevisions (catalog : Catalog) (sources : List PolicySource) :
    List PolicySourceRevision :=
  (catalog.revisions.rows.filter fun r => sources.any fun s => s.id = r.policySourceId).insertionSort
    fun a b => b.recordedAt ≤ a.recordedAt

/-- The first of the revisions listed newest first is the newest. -/
theorem find?_insertionSort {revisions : List PolicySourceRevision} {p : PolicySourceRevision → Bool}
    {r : PolicySourceRevision}
    (h : (revisions.insertionSort fun a b => b.recordedAt ≤ a.recordedAt).find? p = some r) :
    r ∈ revisions ∧ p r = true ∧ ∀ r' ∈ revisions, p r' = true → r'.recordedAt ≤ r.recordedAt := by
  have hsorted := List.pairwise_insertionSort
    (fun a b : PolicySourceRevision => b.recordedAt ≤ a.recordedAt) revisions
  have hmem (x : PolicySourceRevision) :
      x ∈ revisions.insertionSort (fun a b => b.recordedAt ≤ a.recordedAt) ↔ x ∈ revisions :=
    List.mem_insertionSort _
  obtain ⟨hp, before, after, hsplit, hbefore⟩ := List.find?_eq_some_iff_append.mp h
  rw [hsplit] at hsorted hmem
  refine ⟨(hmem r).mp (by simp), hp, fun r' hr' hp' => ?_⟩
  rcases List.mem_append.mp ((hmem r').mpr hr') with hlt | hle
  · have hnot := hbefore r' hlt
    rw [hp'] at hnot
    cases hnot
  · rcases List.mem_cons.mp hle with rfl | hlater
    · exact le_refl _
    · exact (List.pairwise_cons.mp (List.pairwise_append.mp hsorted).2.1).1 r' hlater

/-- The instant until which a source counts as fresh, or why it does not. -/
def checkSource (revisions : List PolicySourceRevision) (knowledgeAsOf : Instant)
    (source : PolicySource) : Except String Instant :=
  match revisions.find? fun r => r.policySourceId = source.id with
  | none => .error ("policy source \"" ++ source.name ++ "\" has no recorded revision")
  | some revision =>
    if source.freshnessObjectiveHours ≤ 0 then
      .error ("policy source \"" ++ source.name ++ "\" has an invalid freshness objective")
    else if revision.recordedAt + source.freshnessObjectiveHours * hourMs ≤ knowledgeAsOf then
      .error ("policy source \"" ++ source.name ++ "\" exceeded its freshness objective at "
        ++ toISOString (revision.recordedAt + source.freshnessObjectiveHours * hourMs))
    else .ok (revision.recordedAt + source.freshnessObjectiveHours * hourMs)

/-- The first of the earliest instants. -/
def earliest (instants : List Instant) : Option Instant :=
  instants.foldl (fun e t => match e with
    | none => some t
    | some e => if t < e then some t else some e) none

/-- The reason of a check that failed. -/
def checkReason : Except String Instant → Option String
  | .error reason => some reason
  | .ok _ => none

/-- The sources registered for a chain of jurisdictions. -/
def sourcesOf (catalog : Catalog) (jurisdictionCodes : List String) : List PolicySource :=
  catalog.sources.rows.filter fun s => jurisdictionCodes.contains s.jurisdictionCode

/-- The reasons against the sources, and the earliest deadline of those that are fresh. -/
def validateSourceFreshness (catalog : Catalog) (jurisdictionCodes : List String)
    (knowledgeAsOf : Instant) : List String × Option Instant :=
  let sources := sourcesOf catalog jurisdictionCodes
  let unregistered := (jurisdictionCodes.filter fun code =>
    !sources.any fun s => s.jurisdictionCode = code).map fun code =>
      "jurisdiction \"" ++ code ++ "\" has no registered policy source"
  let checks := sources.map (checkSource (newestRevisions catalog sources) knowledgeAsOf)
  (unregistered ++ checks.filterMap checkReason,
    earliest (checks.filterMap Except.toOption))

/-! ## Applicability rows -/

def applicationReceivedRule : String := "application_received_on_or_after_effective_date"

def evaluationAsOfRule : String := "evaluation_as_of_effective_date"

/-- The instant at which a row is read, or why there is none. -/
def resolveApplicabilityInstant (row : PolicyApplicability) (context : PolicyResolutionContext) :
    Except String Instant :=
  match row.transitionRule with
  | none => .ok context.asOf
  | some rule =>
    if rule = "" then .ok context.asOf
    else if rule = applicationReceivedRule then
      match context.applicationReceivedAt with
      | none => .error ("policy applicability \"" ++ toString row.id
          ++ "\" requires the original application receipt time")
      | some t => .ok t
    else if rule = evaluationAsOfRule then .ok context.asOf
    else .error ("policy applicability \"" ++ toString row.id
      ++ "\" uses unsupported transition rule \"" ++ rule ++ "\"")

/-- What one turn of the loop over the applicability rows does. -/
inductive RowOutcome where
  /-- not released, or over -/
  | skip
  | unresolved (reason : String)
  /-- not yet in effect; with a boundary if the evaluation time can reach it -/
  | upcoming (boundary : Option Instant)
  /-- in effect; with a boundary if the evaluation time can outlast it -/
  | candidate (version : PolicyVersion) (boundary : Option Instant)

/-- The rows of one rule are read at the receipt of the application and know no schedule. -/
def schedules (row : PolicyApplicability) : Bool :=
  row.transitionRule ≠ some applicationReceivedRule

def classifyVersion (row : PolicyApplicability) (version : PolicyVersion) (instant : Instant) :
    RowOutcome :=
  if version.effectiveFrom > instant then
    .upcoming (if schedules row then some version.effectiveFrom else none)
  else if version.effectiveTo.any fun t => t ≤ instant then .skip
  else .candidate version (if schedules row then version.effectiveTo else none)

def classifyRow (catalog : Catalog) (context : PolicyResolutionContext)
    (row : PolicyApplicability) : RowOutcome :=
  match catalog.versions.find row.policyVersionId with
  | none => .skip
  | some version =>
    if version.releaseStatus ≠ .RELEASED then .skip
    else
      match resolveApplicabilityInstant row context with
      | .error reason => .unresolved reason
      | .ok instant => classifyVersion row version instant

def RowOutcome.reason? : RowOutcome → Option String
  | .unresolved reason => some reason
  | _ => none

def RowOutcome.boundary? : RowOutcome → Option Instant
  | .upcoming boundary => boundary
  | .candidate _ boundary => boundary
  | _ => none

def RowOutcome.version? : RowOutcome → Option PolicyVersion
  | .candidate version _ => some version
  | _ => none

/-- The rows of the chain for the context's product and lifecycle event. -/
def applicabilityRows (catalog : Catalog) (jurisdictionCodes : List String)
    (context : PolicyResolutionContext) : List PolicyApplicability :=
  catalog.applicability.rows.filter fun row =>
    jurisdictionCodes.contains row.jurisdictionCode && row.productCode = context.productCode
      && row.lifecycleEvent = context.lifecycleEvent

/-! ## Candidates by rule -/

/-- `candidatesByRuleId`: a map in the order in which its keys were first set. -/
def pushCandidate (buckets : List (String × List PolicyVersion)) (version : PolicyVersion) :
    List (String × List PolicyVersion) :=
  if buckets.any fun b => b.1 = version.ruleId then
    buckets.map fun b => if b.1 = version.ruleId then (b.1, b.2 ++ [version]) else b
  else buckets ++ [(version.ruleId, [version])]

def candidatesByRuleId (candidates : List PolicyVersion) : List (String × List PolicyVersion) :=
  candidates.foldl pushCandidate []

/-- The selected version, with its rule parsed. -/
def toRef (deps : Deps) (version : PolicyVersion) :
    Except (List PolicyDslIssue) ResolvedPolicyVersionRef :=
  match parsePolicyRule deps version.dsl with
  | .error issues => .error issues
  | .ok rule => .ok {
      policyVersionId := version.id
      ruleId := version.ruleId
      version := version.version
      rule
      effectiveFrom := version.effectiveFrom
      effectiveTo := version.effectiveTo }

/-- The versions selected bucket by bucket: a bucket of one is selected, a larger one is left
out as a conflict. The first rule that does not parse throws. -/
def selectVersions (deps : Deps) : List (String × List PolicyVersion) →
    Except (List PolicyDslIssue) (List ResolvedPolicyVersionRef)
  | [] => .ok []
  | (_, [version]) :: rest =>
    match toRef deps version with
    | .error issues => .error issues
    | .ok ref => (selectVersions deps rest).map (ref :: ·)
  | _ :: rest => selectVersions deps rest

def overlapReasons (asOf : Instant) (buckets : List (String × List PolicyVersion)) :
    List String :=
  (buckets.filter fun b => 1 < b.2.length).map fun b =>
    "rule \"" ++ b.1 ++ "\" has " ++ toString b.2.length
      ++ " overlapping released versions effective as of " ++ toISOString asOf

/-! ## `resolve` -/

def reviewRequired (reasons : List String) : PolicyResolutionResult where
  status := .REVIEW_REQUIRED
  versions := []
  unresolvedReasons := reasons

/-- The loops over the applicability rows and the buckets, once the sources are fresh. -/
def resolveRows (deps : Deps) (catalog : Catalog) (jurisdictionCodes : List String)
    (context : PolicyResolutionContext) (sourceFreshnessDeadline : Option Instant) :
    Except (List PolicyDslIssue) PolicyResolutionResult :=
  let outcomes := (applicabilityRows catalog jurisdictionCodes context).map
    (classifyRow catalog context)
  let buckets := candidatesByRuleId (outcomes.filterMap RowOutcome.version?)
  match selectVersions deps buckets with
  | .error issues => .error issues
  | .ok versions =>
    if outcomes.filterMap RowOutcome.reason? ++ overlapReasons context.asOf buckets ≠ [] then
      .ok (reviewRequired
        (outcomes.filterMap RowOutcome.reason? ++ overlapReasons context.asOf buckets))
    else .ok {
      status := .RESOLVED
      versions
      unresolvedReasons := []
      revalidateAfter := earliest
        (sourceFreshnessDeadline.toList ++ outcomes.filterMap RowOutcome.boundary?) }

/-- `resolve` at one instant of knowledge. A stored rule that does not parse throws. -/
def resolve (deps : Deps) (catalog : Catalog) (context : PolicyResolutionContext)
    (knowledgeAsOf : Instant) : Except (List PolicyDslIssue) PolicyResolutionResult :=
  match loadCoveredAncestry catalog catalog.jurisdictions.rows.length []
      (some context.jurisdictionCode) with
  | .error reason => .ok (reviewRequired [reason])
  | .ok ancestry =>
    match validateSourceFreshness catalog (ancestry.map Jurisdiction.code) knowledgeAsOf with
    | ([], deadline) => resolveRows deps catalog (ancestry.map Jurisdiction.code) context deadline
    | (reasons, _) => .ok (reviewRequired reasons)

end MortgageAgent.Policy
