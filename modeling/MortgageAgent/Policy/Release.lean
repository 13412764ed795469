import MortgageAgent.Policy.Resolver

/-!
# Releasing a policy version

`PolicyTransitionApprovalService.propose` and `approve`, `PolicyActivationService.activate` and
`withdraw`. Each call reads the rows it decides on, and writes later, by id and whatever the row
has become in between. A state is the point before the next transaction of a call.

* **`ReleaseDb`** — the catalog, its generation counter and the approvals.
* **`ReleaseState`** — where a call stands.
* **`startPropose`**, **`startApprove`**, **`startActivate`**, **`startWithdraw`** — the reads.
* **`releaseStep`** — every later transaction.
-/

namespace MortgageAgent.Policy

/-- `policy_transition_approvals`. -/
structure PolicyTransitionApproval where
  id : Uuid
  policyVersionId : Uuid
  proposedBy : String
  proposedAt : Instant
  approvedBy : Option String
  approvedAt : Option Instant
  notes : Option String
  deriving DecidableEq, Repr

/-- What a policy service throws. -/
inductive PolicyFailure where
  | badRequest (message : String)
  /-- `findOneByOrFail` found nothing -/
  | entityNotFound (entity : String)
  /-- `PolicyDslValidationError` -/
  | dsl (issues : List PolicyDslIssue)
  | database (error : PgError)
  /-- the connection or the commit failed; the transaction is rolled back -/
  | storeUnavailable
  deriving DecidableEq, Repr

/-- The clocks one transaction runs under, and the primary key of a row it inserts. -/
structure Env where
  dbNow : Instant
  processNow : Instant
  newId : Uuid
  deriving DecidableEq, Repr

structure ReleaseDb where
  catalog : Catalog
  /-- the one row of `policy_catalog_generation` -/
  generation : Nat
  approvals : Table PolicyTransitionApproval PolicyTransitionApproval.id

/-- What a call returns. -/
inductive ReleaseResult where
  | approval (approval : PolicyTransitionApproval)
  | activation (policyVersionId : Uuid) (generation : Nat)
  deriving DecidableEq, Repr

inductive ReleaseState where
  | idle
  | proposeWrite (policyVersionId : Uuid) (proposedBy : String) (notes : Option String)
  | proposeSave (policyVersionId : Uuid) (proposedBy : String) (notes : Option String)
  | approveWrite (approvalId : Uuid) (approvedBy : String)
  | approveRead (approvalId : Uuid)
  | activateCheck (policyVersionId : Uuid)
  | activateWrite (policyVersionId : Uuid)
  | withdrawWrite (policyVersionId : Uuid)
  | finished (result : Except PolicyFailure ReleaseResult)

def versionText (policyVersionId : Uuid) : String := "policy version " ++ toString policyVersionId

/-! ## The reads -/

def startPropose (db : ReleaseDb) (policyVersionId : Uuid) (proposedBy : String)
    (notes : Option String) : ReleaseState :=
  match db.catalog.versions.find policyVersionId with
  | none => .finished (.error (.entityNotFound "PolicyVersion"))
  | some version =>
    if version.releaseStatus ≠ .DRAFT then
      .finished (.error (.badRequest (versionText policyVersionId
        ++ " cannot be proposed for release from status " ++ version.releaseStatus.text)))
    else .proposeWrite policyVersionId proposedBy notes

/-- The newest first, as `ORDER BY "proposedAt" DESC` lists them. -/
def newestApprovals (db : ReleaseDb) (policyVersionId : Uuid) : List PolicyTransitionApproval :=
  (db.approvals.rows.filter fun a => a.policyVersionId = policyVersionId).insertionSort
    fun a b => b.proposedAt ≤ a.proposedAt

def startApprove (db : ReleaseDb) (policyVersionId : Uuid) (approvedBy : String) :
    ReleaseState :=
  match (newestApprovals db policyVersionId).find? fun a => a.approvedAt = none with
  | none => .finished (.error (.badRequest (versionText policyVersionId
      ++ " has no pending transition proposal to approve")))
  | some pending =>
    if pending.proposedBy = approvedBy then
      .finished (.error (.badRequest
        "self-approval is not permitted: the approver must differ from the proposer"))
    else .approveWrite pending.id approvedBy

def startActivate (db : ReleaseDb) (policyVersionId : Uuid) : ReleaseState :=
  match db.catalog.versions.find policyVersionId with
  | none => .finished (.error (.entityNotFound "PolicyVersion"))
  | some version =>
    if version.releaseStatus ≠ .DRAFT ∧ version.releaseStatus ≠ .PROPOSED then
      .finished (.error (.badRequest (versionText policyVersionId
        ++ " cannot be activated from status " ++ version.releaseStatus.text)))
    else .activateCheck policyVersionId

def startWithdraw (db : ReleaseDb) (policyVersionId : Uuid) : ReleaseState :=
  match db.catalog.versions.find policyVersionId with
  | none => .finished (.error (.entityNotFound "PolicyVersion"))
  | some version =>
    if version.releaseStatus ≠ .RELEASED then
      .finished (.error (.badRequest (versionText policyVersionId
        ++ " cannot be withdrawn from status " ++ version.releaseStatus.text)))
    else .withdrawWrite policyVersionId

/-- The newest proposal of the version has been approved. -/
def hasApprovedTransition (db : ReleaseDb) (policyVersionId : Uuid) : Bool :=
  (newestApprovals db policyVersionId).head?.any fun a =>
    a.approvedAt.isSome && a.approvedBy.isSome

/-! ## The writes -/

def PolicyVersion.withStatus (v : PolicyVersion) (status : PolicyReleaseStatus) : PolicyVersion :=
  { v with releaseStatus := status }

/-- `UPDATE policy_versions SET "releaseStatus" = … WHERE id = …`. -/
def Catalog.setStatus (catalog : Catalog) (policyVersionId : Uuid)
    (status : PolicyReleaseStatus) : Catalog :=
  let versions := catalog.versions.mapRows
    (fun v => if v.id = policyVersionId then v.withStatus status else v)
    (fun v => by split <;> rfl)
  { catalog with versions }

def ReleaseDb.setStatus (db : ReleaseDb) (policyVersionId : Uuid)
    (status : PolicyReleaseStatus) : ReleaseDb :=
  { db with catalog := db.catalog.setStatus policyVersionId status }

def bumpCatalogGeneration (db : ReleaseDb) : ReleaseDb :=
  { db with generation := db.generation + 1 }

def newApproval (env : Env) (policyVersionId : Uuid) (proposedBy : String)
    (notes : Option String) : PolicyTransitionApproval where
  id := env.newId
  policyVersionId := policyVersionId
  proposedBy := proposedBy
  proposedAt := env.dbNow
  approvedBy := none
  approvedAt := none
  notes := notes

def ReleaseDb.approve (db : ReleaseDb) (approvalId : Uuid) (approvedBy : String)
    (approvedAt : Instant) : ReleaseDb :=
  let approvals := db.approvals.mapRows
    (fun a => if a.id = approvalId then
      { a with approvedBy := some approvedBy, approvedAt := some approvedAt } else a)
    (fun a => by split <;> rfl)
  { db with approvals }

/-- The status of a version and the generation, in one transaction. -/
def ReleaseDb.setStatusAndBump (db : ReleaseDb) (policyVersionId : Uuid)
    (status : PolicyReleaseStatus) : ReleaseDb :=
  bumpCatalogGeneration (db.setStatus policyVersionId status)

/-- The next transaction of a call. -/
def releaseStep (db : ReleaseDb) (env : Env) : ReleaseState → ReleaseDb × ReleaseState
  | .proposeWrite policyVersionId proposedBy notes =>
    (db.setStatus policyVersionId .PROPOSED, .proposeSave policyVersionId proposedBy notes)
  | .proposeSave policyVersionId proposedBy notes =>
    match db.approvals.insert (newApproval env policyVersionId proposedBy notes) with
    | none => (db, .finished (.error (.database .uniqueViolation)))
    | some approvals =>
      ({ db with approvals },
        .finished (.ok (.approval (newApproval env policyVersionId proposedBy notes))))
  | .approveWrite approvalId approvedBy =>
    (db.approve approvalId approvedBy env.processNow, .approveRead approvalId)
  | .approveRead approvalId =>
    match db.approvals.find approvalId with
    | none => (db, .finished (.error (.entityNotFound "PolicyTransitionApproval")))
    | some approval => (db, .finished (.ok (.approval approval)))
  | .activateCheck policyVersionId =>
    if hasApprovedTransition db policyVersionId then (db, .activateWrite policyVersionId)
    else (db, .finished (.error (.badRequest (versionText policyVersionId
      ++ " has no independently-approved transition proposal — call "
      ++ "PolicyTransitionApprovalService.propose()/approve() first"))))
  | .activateWrite policyVersionId =>
    (db.setStatusAndBump policyVersionId .RELEASED,
      .finished (.ok (.activation policyVersionId (db.generation + 1))))
  | .withdrawWrite policyVersionId =>
    (db.setStatusAndBump policyVersionId .WITHDRAWN,
      .finished (.ok (.activation policyVersionId (db.generation + 1))))
  | state => (db, state)

end MortgageAgent.Policy
