import MortgageAgent.Policy.Release

/-!
# Evaluating a case's policy

`PolicyEvaluationService.evaluate` answers from the case's active binding when it may, and
otherwise resolves and binds anew. It is a chain of short transactions: a state is the point
before the next one, with the locals that are live there.

* **`CasePolicySnapshot`** / **`CasePolicyBinding`** — a resolution as it is stored, and the one
  that a case is bound to.
* **`digestJson`** — what a dependency digest covers.
* **`EvaluationState`** / **`evaluationStep`** — the chain, in the order of the code.
* **`Event`** — the history: what was resolved, stored, reused, returned, and each recovery that
  threw. No step reads it.
-/

namespace MortgageAgent.Policy

def resolverVersion : String := "2.0.0"

def maxValidationIntervalMs : Int := 60 * 60 * 1000

/-! ## Snapshots and bindings -/

/-- One entry of a snapshot's `versions`; the ISO texts are kept as the instants they denote. -/
abbrev SnapshotVersion := ResolvedPolicyVersionRef

/-- `case_policy_snapshots`. -/
structure CasePolicySnapshot where
  id : Uuid
  tenantId : Uuid
  caseId : Uuid
  contextHash : String
  resolverVersion : String
  resolutionStatus : PolicyResolutionStatus
  versions : List SnapshotVersion
  unresolvedReasons : List String
  deriving DecidableEq

/-- `case_policy_bindings`. -/
structure CasePolicyBinding where
  id : Uuid
  tenantId : Uuid
  caseId : Uuid
  dependencyDigest : String
  observedCatalogGeneration : Nat
  contextKey : String
  policySnapshotId : Uuid
  boundAt : Instant
  revalidateAfter : Instant
  invalidatedAt : Option Instant
  deriving DecidableEq, Repr

structure EvaluationDb where
  snapshots : Table CasePolicySnapshot CasePolicySnapshot.id
  bindings : Table CasePolicyBinding CasePolicyBinding.id

/-- The versions by id; `localeCompare` orders uuid texts as the uuids are ordered. -/
def snapshotVersions (resolution : PolicyResolutionResult) : List SnapshotVersion :=
  resolution.versions.insertionSort fun a b => a.policyVersionId ≤ b.policyVersionId

def contextKey (context : PolicyResolutionContext) : String :=
  context.jurisdictionCode ++ "|" ++ context.productCode ++ "|" ++ context.lifecycleEvent ++ "|"
    ++ match context.applicationReceivedAt with
      | some t => toISOString t
      | none => "UNSPECIFIED"

def nextRevalidationDeadline (validatedAt : Instant) (resolution : PolicyResolutionResult) :
    Instant :=
  match resolution.revalidateAfter with
  | some t =>
    if t < validatedAt + maxValidationIntervalMs then t else validatedAt + maxValidationIntervalMs
  | none => validatedAt + maxValidationIntervalMs

def reconstructResolution (snapshot : CasePolicySnapshot) : PolicyResolutionResult where
  status := snapshot.resolutionStatus
  versions := snapshot.versions
  unresolvedReasons := snapshot.unresolvedReasons

def ResolvedPolicyVersionRef.toJson (v : ResolvedPolicyVersionRef) : Json :=
  .obj [("policyVersionId", .str (toString v.policyVersionId)), ("ruleId", .str v.ruleId),
    ("version", .str v.version), ("rule", v.rule.toJson),
    ("effectiveFrom", .str (toISOString v.effectiveFrom)),
    ("effectiveTo", match v.effectiveTo with
      | some t => .str (toISOString t)
      | none => .null)]

/-- What the digest of a resolution covers. -/
def digestJson (resolution : PolicyResolutionResult) : Json :=
  .obj [("status", .str resolution.status.text),
    ("unresolvedReasons",
      .arr ((resolution.unresolvedReasons.insertionSort Json.keyLe).map .str)),
    ("versions", .arr ((snapshotVersions resolution).map ResolvedPolicyVersionRef.toJson))]

/-- The text that is hashed. No key of it is an array index, so sorting is all that
`canonicalize` does to the order of the keys. -/
def digestText (resolution : PolicyResolutionResult) : String := (digestJson resolution).canonical

def computeDigest (deps : Deps) (resolution : PolicyResolutionResult) : String :=
  deps.sha256 (digestText resolution)

/-! ## States -/

structure EvaluateCall where
  tenantId : Uuid
  caseId : Uuid
  context : PolicyResolutionContext
  deriving DecidableEq, Repr

inductive PolicyEvaluationOutcome where
  | REUSED
  | REFRESHED
  | REVIEW_REQUIRED
  deriving DecidableEq, Repr

structure PolicyEvaluationResult where
  outcome : PolicyEvaluationOutcome
  resolution : PolicyResolutionResult
  snapshot : CasePolicySnapshot
  binding : Option CasePolicyBinding
  deriving DecidableEq

/-- Where an `evaluate` call stands; `generation` is `currentGeneration`. -/
inductive EvaluationState where
  | idle
  | readBinding (call : EvaluateCall) (generation : Nat)
  | readSnapshot (call : EvaluateCall) (generation : Nat) (now : Instant)
      (binding : CasePolicyBinding)
  | resolve (call : EvaluateCall) (generation : Nat) (now : Instant)
      (existing : Option (CasePolicyBinding × CasePolicySnapshot))
  | persistReview (call : EvaluateCall) (generation : Nat) (resolution : PolicyResolutionResult)
  | invalidateActive (call : EvaluateCall) (generation : Nat)
      (resolution : PolicyResolutionResult) (snapshot : CasePolicySnapshot)
  | refresh (call : EvaluateCall) (generation : Nat) (now : Instant)
      (binding : CasePolicyBinding) (snapshot : CasePolicySnapshot)
      (resolution : PolicyResolutionResult)
  | persistSnapshot (call : EvaluateCall) (generation : Nat) (now : Instant)
      (existing : Option CasePolicyBinding) (resolution : PolicyResolutionResult)
  | invalidateExisting (call : EvaluateCall) (generation : Nat) (now : Instant)
      (binding : CasePolicyBinding) (resolution : PolicyResolutionResult)
      (snapshot : CasePolicySnapshot)
  | insertBinding (call : EvaluateCall) (generation : Nat) (now : Instant)
      (resolution : PolicyResolutionResult) (snapshot : CasePolicySnapshot)
  | recoverBinding (call : EvaluateCall) (generation : Nat)
  | recoverSnapshot (call : EvaluateCall) (generation : Nat) (winningBinding : CasePolicyBinding)
  | finished (result : Except PolicyFailure PolicyEvaluationResult)

inductive Event where
  | resolved (call : Nat) (context : PolicyResolutionContext) (knowledgeAsOf : Instant)
      (catalog : Catalog) (generation : Nat) (resolution : PolicyResolutionResult)
  /-- a resolution was bound: a binding inserted, or refreshed in place -/
  | stored (call : Nat) (now : Instant) (binding : CasePolicyBinding)
  /-- the fast path was taken -/
  | reused (call : Nat) (context : PolicyResolutionContext) (now : Instant) (catalog : Catalog)
      (binding : CasePolicyBinding) (snapshot : CasePolicySnapshot)
  /-- a call returned; `generation` was current when it started -/
  | returned (call : Nat) (context : PolicyResolutionContext) (generation : Nat)
      (result : PolicyEvaluationResult)
  /-- the recovery from a unique violation found no row -/
  | recoveryThrew (call : Nat)

/-! ## Decisions -/

/-- Whether the case's active binding answers without a call of the resolver. -/
def fastPath (context : PolicyResolutionContext) (generation : Nat) (now : Instant)
    (binding : CasePolicyBinding) (snapshot : CasePolicySnapshot) : Bool :=
  snapshot.resolverVersion = resolverVersion && binding.contextKey = contextKey context
    && binding.observedCatalogGeneration = generation && now < binding.revalidateAfter

/-- Whether what was resolved is what the binding already stands for. -/
def refreshesInPlace (deps : Deps) (context : PolicyResolutionContext)
    (resolution : PolicyResolutionResult) (binding : CasePolicyBinding)
    (snapshot : CasePolicySnapshot) : Bool :=
  snapshot.resolverVersion = resolverVersion && binding.contextKey = contextKey context
    && binding.dependencyDigest = computeDigest deps resolution

/-- After the resolver: review, refresh the existing binding, or bind anew. -/
def afterResolve (deps : Deps) (call : EvaluateCall) (generation : Nat) (now : Instant)
    (existing : Option (CasePolicyBinding × CasePolicySnapshot))
    (resolution : PolicyResolutionResult) : EvaluationState :=
  if resolution.status = .REVIEW_REQUIRED then .persistReview call generation resolution
  else
    match existing with
    | some (binding, snapshot) =>
      if refreshesInPlace deps call.context resolution binding snapshot then
        .refresh call generation now binding snapshot resolution
      else .persistSnapshot call generation now (some binding) resolution
    | none => .persistSnapshot call generation now none resolution

def newSnapshot (deps : Deps) (env : Env) (call : EvaluateCall)
    (resolution : PolicyResolutionResult) : CasePolicySnapshot where
  id := env.newId
  tenantId := call.tenantId
  caseId := call.caseId
  contextHash := computeDigest deps resolution
  resolverVersion := resolverVersion
  resolutionStatus := resolution.status
  versions := snapshotVersions resolution
  unresolvedReasons := resolution.unresolvedReasons

def newBinding (deps : Deps) (env : Env) (call : EvaluateCall) (generation : Nat) (now : Instant)
    (resolution : PolicyResolutionResult) (snapshot : CasePolicySnapshot) :
    CasePolicyBinding where
  id := env.newId
  tenantId := call.tenantId
  caseId := call.caseId
  dependencyDigest := computeDigest deps resolution
  observedCatalogGeneration := generation
  contextKey := contextKey call.context
  policySnapshotId := snapshot.id
  boundAt := env.dbNow
  revalidateAfter := nextRevalidationDeadline now resolution
  invalidatedAt := none

def CasePolicyBinding.refreshed (b : CasePolicyBinding) (generation : Nat)
    (revalidateAfter : Instant) : CasePolicyBinding :=
  { b with observedCatalogGeneration := generation, revalidateAfter }

def CasePolicyBinding.invalidated (b : CasePolicyBinding) (t : Instant) : CasePolicyBinding :=
  { b with invalidatedAt := some t }

/-- The binding is an active one of this case. -/
def EvaluateCall.activeBinding (call : EvaluateCall) (b : CasePolicyBinding) : Bool :=
  b.tenantId = call.tenantId && b.caseId = call.caseId && b.invalidatedAt.isNone

/-- The newest active binding of the case. -/
def findActiveBinding (db : EvaluationDb) (call : EvaluateCall) : Option CasePolicyBinding :=
  ((db.bindings.rows.filter call.activeBinding).insertionSort
    fun a b => b.boundAt ≤ a.boundAt).head?

/-- A snapshot of the call's tenant. -/
def findSnapshot (db : EvaluationDb) (call : EvaluateCall) (id : Uuid) :
    Option CasePolicySnapshot :=
  (db.snapshots.find id).filter fun s => s.tenantId = call.tenantId

/-- `UPDATE case_policy_bindings SET … WHERE …`. -/
def EvaluationDb.updateBindings (db : EvaluationDb) (p : CasePolicyBinding → Bool)
    (f : CasePolicyBinding → CasePolicyBinding) (hf : ∀ b, (f b).id = b.id) : EvaluationDb :=
  let bindings := db.bindings.mapRows (fun b => if p b then f b else b)
    (fun b => by split <;> simp [hf])
  { db with bindings }

/-- The insert under `IDX_case_policy_bindings_one_active`. -/
def insertBinding (db : EvaluationDb) (b : CasePolicyBinding) : Option EvaluationDb :=
  if db.bindings.rows.any fun x =>
      x.tenantId = b.tenantId && x.caseId = b.caseId && x.invalidatedAt.isNone then none
  else (db.bindings.insert b).map fun bindings => { db with bindings }

/-! ## The steps -/

/-- The database, the next state and the events of a step. -/
structure EvaluationMove where
  db : EvaluationDb
  state : EvaluationState
  events : List Event := []

/-- A call returns. -/
def returns (db : EvaluationDb) (c : Nat) (call : EvaluateCall) (generation : Nat)
    (result : PolicyEvaluationResult) (events : List Event := []) : EvaluationMove where
  db := db
  state := .finished (.ok result)
  events := events ++ [.returned c call.context generation result]

def evaluationThrows (db : EvaluationDb) (e : PolicyFailure) (events : List Event := []) :
    EvaluationMove where
  db := db
  state := .finished (.error e)
  events := events

/-- The next transaction of call `c`. The resolver reads the catalog in one step: what
activations and withdrawals change, the release statuses, it reads in one query. -/
def evaluationStep (deps : Deps) (catalog : Catalog) (generation : Nat) (db : EvaluationDb)
    (env : Env) (c : Nat) : EvaluationState → EvaluationMove
  | .readBinding call g =>
    match findActiveBinding db call with
    | none => ⟨db, .resolve call g env.processNow none, []⟩
    | some binding => ⟨db, .readSnapshot call g env.processNow binding, []⟩
  | .readSnapshot call g now binding =>
    match findSnapshot db call binding.policySnapshotId with
    | none => evaluationThrows db (.entityNotFound "CasePolicySnapshot")
    | some snapshot =>
      -- the clock was read before the queries, and the generation when the call started.
      if fastPath call.context g now binding snapshot then
        returns db c call g
          { outcome := .REUSED
            resolution := reconstructResolution snapshot
            snapshot := snapshot
            binding := some binding }
          [.reused c call.context now catalog binding snapshot]
      else ⟨db, .resolve call g now (some (binding, snapshot)), []⟩
  | .resolve call g now existing =>
    match Policy.resolve deps catalog call.context env.processNow with
    | .error issues => evaluationThrows db (.dsl issues)
    | .ok resolution =>
      ⟨db, afterResolve deps call g now existing resolution,
        [.resolved c call.context env.processNow catalog generation resolution]⟩
  | .persistReview call g resolution =>
    match db.snapshots.insert (newSnapshot deps env call resolution) with
    | none => evaluationThrows db (.database .uniqueViolation)
    | some snapshots =>
      ⟨{ db with snapshots },
        .invalidateActive call g resolution (newSnapshot deps env call resolution), []⟩
  -- every active binding of the case, whatever its context.
  | .invalidateActive call g resolution snapshot =>
    returns
      (db.updateBindings call.activeBinding (·.invalidated env.processNow) (fun _ => rfl)) c call g
      { outcome := .REVIEW_REQUIRED, resolution, snapshot, binding := none }
  | .refresh call g now binding snapshot resolution =>
    returns
      (db.updateBindings (fun b => b.id = binding.id)
        (·.refreshed g (nextRevalidationDeadline now resolution)) (fun _ => rfl)) c call g
      { outcome := .REUSED
        resolution := resolution
        snapshot := snapshot
        binding := some (binding.refreshed g (nextRevalidationDeadline now resolution)) }
      [.stored c now (binding.refreshed g (nextRevalidationDeadline now resolution))]
  | .persistSnapshot call g now existing resolution =>
    match db.snapshots.insert (newSnapshot deps env call resolution) with
    | none => evaluationThrows db (.database .uniqueViolation)
    | some snapshots =>
      match existing with
      | some binding =>
        ⟨{ db with snapshots },
          .invalidateExisting call g now binding resolution
            (newSnapshot deps env call resolution), []⟩
      | none =>
        ⟨{ db with snapshots },
          .insertBinding call g now resolution (newSnapshot deps env call resolution), []⟩
  -- by id alone: the binding may have been invalidated, or refreshed, since it was read.
  | .invalidateExisting call g now binding resolution snapshot =>
    ⟨db.updateBindings (fun b => b.id = binding.id) (·.invalidated now) (fun _ => rfl),
      .insertBinding call g now resolution snapshot, []⟩
  | .insertBinding call g now resolution snapshot =>
    match Policy.insertBinding db (newBinding deps env call g now resolution snapshot) with
    -- another call holds the case's one active binding.
    | none => ⟨db, .recoverBinding call g, []⟩
    | some db' =>
      returns db' c call g
        { outcome := .REFRESHED
          resolution := resolution
          snapshot := snapshot
          binding := some (newBinding deps env call g now resolution snapshot) }
        [.stored c now (newBinding deps env call g now resolution snapshot)]
  | .recoverBinding call g =>
    match findActiveBinding db call with
    | none => evaluationThrows db (.entityNotFound "CasePolicyBinding") [.recoveryThrew c]
    | some winningBinding => ⟨db, .recoverSnapshot call g winningBinding, []⟩
  | .recoverSnapshot call g winningBinding =>
    match findSnapshot db call winningBinding.policySnapshotId with
    | none => evaluationThrows db (.entityNotFound "CasePolicySnapshot") [.recoveryThrew c]
    -- returned as it is: neither its context nor its generation is compared with the call's.
    | some winningSnapshot =>
      returns db c call g
        { outcome := .REUSED
          resolution := reconstructResolution winningSnapshot
          snapshot := winningSnapshot
          binding := some winningBinding }
  -- nothing to do: not started, or over
  | state => ⟨db, state, []⟩

end MortgageAgent.Policy
