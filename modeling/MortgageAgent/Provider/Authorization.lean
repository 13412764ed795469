import MortgageAgent.Provider.Types

/-!
# What authorizes a dispatch

The reads and writes of the services a dispatch consults before it submits: the kill switch,
the promotion chain's activation, consent, permissible purpose and the authorization grant.
Each function is one transaction, or the part of one that a single query makes. `revalidate`
is not one transaction: it reads the grant, then each consent record it names in a transaction
of its own, so it is written as `revalidateGrant` and `revalidateConsent`.
-/

namespace MortgageAgent.Provider

/-! ## Kill switch and activation -/

/-- `isActive`: no row for a tuple means active. -/
def isActive (db : Db) (providerId : String) (capability : ProviderCapability)
    (mode : ProviderMode) : Bool :=
  match db.adapterStatus.find (providerId, capability, mode) with
  | none => true
  | some row => row.state = .ACTIVE

/-- `isActivated`: no row means not activated. -/
def isActivated (db : Db) (providerId : String) (capability : ProviderCapability)
    (mode : ProviderMode) : Bool :=
  match db.activations.find (providerId, capability, mode) with
  | none => false
  | some row => row.state = .ACTIVE

/-- Writes a keyed row, whether or not its key has one. -/
def upsert {ρ κ : Type} {key : ρ → κ} [DecidableEq κ] (t : Table ρ key) (r : ρ) : Table ρ key :=
  (t.insert r).getD (t.put r)

/-! ## Consent -/

/-- The newest record first, as `ORDER BY "grantedAt" DESC` lists them. -/
def newestConsents (db : Db) (tenantId caseId : Uuid) : List ConsentRecord :=
  (db.consents.rows.filter fun c => c.tenantId = tenantId && c.caseId = caseId).insertionSort
    fun a b => b.grantedAt ≤ a.grantedAt

def mostRecentRecord (db : Db) (tenantId caseId : Uuid) : Option ConsentRecord :=
  (newestConsents db tenantId caseId).head?

/-- The record has not been revoked and has not expired. -/
def ConsentRecord.inForce (c : ConsentRecord) (now : Instant) : Bool :=
  c.revokedAt.isNone && !c.expiresAt.any fun t => t ≤ now

/-- The record authorizes the purpose and every data class. -/
def ConsentRecord.covers (c : ConsentRecord) (purpose : String) (dataClasses : List String) :
    Bool :=
  c.permittedPurposes.contains purpose
    && dataClasses.all fun d => c.permittedDataClasses.contains d

def activeRecordForPurpose (db : Db) (now : Instant) (tenantId caseId : Uuid) (purpose : String)
    (dataClasses : List String) : Option ConsentRecord :=
  (mostRecentRecord db tenantId caseId).filter fun c =>
    c.inForce now && c.covers purpose dataClasses

def isRecordValid (db : Db) (now : Instant) (recordId tenantId caseId : Uuid) (purpose : String)
    (dataClasses : List String) : Bool :=
  match db.consents.find recordId with
  | none => false
  | some c =>
    c.inForce now && c.tenantId = tenantId && c.caseId = caseId && c.covers purpose dataClasses

/-! ## Permissible purpose -/

structure PermissiblePurposeContext where
  tenantId : Uuid
  caseId : Uuid
  borrowerSubjectId : String
  capability : ProviderCapability
  purposeCode : String
  permittedDataClasses : List String
  mode : ProviderMode
  deriving DecidableEq, Repr

def DispatchProviderRequestParams.purposeContext (p : DispatchProviderRequestParams) :
    PermissiblePurposeContext where
  tenantId := p.tenantId
  caseId := p.caseId
  borrowerSubjectId := p.borrowerSubjectId
  capability := p.capability
  purposeCode := p.purposeCode
  permittedDataClasses := p.permittedDataClasses
  mode := p.mode

/-- The five-minute decision for a simulator consumer report. -/
def issueSynthetic (db : Db) (env : Env) (context : PermissiblePurposeContext) :
    Except ProviderFailure (Db × Uuid) :=
  if context.mode ≠ .SIMULATOR ∨ context.capability ≠ .CREDIT then
    .error (.adapter (.other "synthetic permissible-purpose decisions are simulator-credit only"))
  else
    match db.decisions.insert {
        id := env.newId
        tenantId := context.tenantId
        caseId := context.caseId
        borrowerSubjectId := context.borrowerSubjectId
        capability := context.capability
        purposeCode := context.purposeCode
        permittedDataClasses := context.permittedDataClasses
        decision := .AUTHORIZED
        basisCode := "SYNTHETIC_MORTGAGE_APPLICATION"
        decidedBy := "simulator-purpose-policy"
        syntheticOnly := true
        expiresAt := env.processNow + 5 * 60000 } with
    | some decisions => .ok ({ db with decisions }, env.newId)
    | none => .error (.database .uniqueViolation)

theorem issueSynthetic_ok {db db' : Db} {env : Env} {context : PermissiblePurposeContext}
    {id : Uuid} (h : issueSynthetic db env context = .ok (db', id)) :
    ∃ decision decisions, db.decisions.insert decision = some decisions
      ∧ db' = { db with decisions } := by
  unfold issueSynthetic at h
  split at h
  · cases h
  · split at h
    · next decisions hinsert =>
      cases h
      exact ⟨_, decisions, hinsert, rfl⟩
    · cases h

/-- `validate`: `none` is valid, `some` the reason why not. -/
def validatePurpose (db : Db) (now : Instant) (decisionId : Uuid)
    (context : PermissiblePurposeContext) : Option String :=
  match db.decisions.find decisionId with
  | none => some "decision not found"
  | some decision =>
    if decision.tenantId ≠ context.tenantId ∨ decision.caseId ≠ context.caseId
        ∨ decision.borrowerSubjectId ≠ context.borrowerSubjectId
        ∨ decision.capability ≠ context.capability
        ∨ decision.purposeCode ≠ context.purposeCode
        ∨ ¬ context.permittedDataClasses.all (decision.permittedDataClasses.contains ·) then
      some "decision scope does not match this request"
    else if decision.decision ≠ .AUTHORIZED then some "decision is not authorized"
    else if decision.revokedAt.isSome ∨ decision.expiresAt ≤ now then
      some "decision is revoked or expired"
    else if decision.syntheticOnly ∧ context.mode ≠ .SIMULATOR then
      some "synthetic decision cannot authorize a live provider mode"
    else none

/-! ## Grants -/

def defaultGrantTtlMs : Int := 5 * 60 * 1000

/-- The grant a dispatch asks for: it names the one consent record it read. -/
def newGrant (env : Env) (p : DispatchProviderRequestParams) (providerId : String)
    (consentRecordId : Uuid) (decisionId : Option Uuid) : ProviderAuthorizationGrant where
  id := env.newId
  tenantId := p.tenantId
  caseId := p.caseId
  borrowerSubjectId := p.borrowerSubjectId
  providerId := providerId
  capability := p.capability
  purposeCode := p.purposeCode
  permittedDataClasses := p.permittedDataClasses
  permittedFields := p.permittedFields
  consentRecordIds := [consentRecordId]
  permissiblePurposeDecisionId := decisionId
  expiresAt := env.processNow + defaultGrantTtlMs

/-- `issue`. -/
def issueGrant (db : Db) (env : Env) (p : DispatchProviderRequestParams) (providerId : String)
    (consentRecordId : Uuid) (decisionId : Option Uuid) :
    Except ProviderFailure (Db × ProviderAuthorizationGrant) :=
  match db.grants.insert (newGrant env p providerId consentRecordId decisionId) with
  | some grants => .ok ({ db with grants }, newGrant env p providerId consentRecordId decisionId)
  | none => .error (.database .uniqueViolation)

theorem issueGrant_ok {db db' : Db} {env : Env} {p : DispatchProviderRequestParams}
    {providerId : String} {consentRecordId : Uuid} {decisionId : Option Uuid}
    {grant : ProviderAuthorizationGrant}
    (h : issueGrant db env p providerId consentRecordId decisionId = .ok (db', grant)) :
    grant = newGrant env p providerId consentRecordId decisionId
      ∧ ∃ grants, db.grants.insert grant = some grants ∧ db' = { db with grants } := by
  unfold issueGrant at h
  split at h
  · next grants hinsert =>
    cases h
    exact ⟨rfl, grants, hinsert, rfl⟩
  · cases h

/-- The row under the new id is the grant just issued. -/
theorem issueGrant_found {db db' : Db} {env : Env} {p : DispatchProviderRequestParams}
    {providerId : String} {consentRecordId : Uuid} {decisionId : Option Uuid}
    {grant : ProviderAuthorizationGrant}
    (h : issueGrant db env p providerId consentRecordId decisionId = .ok (db', grant)) :
    db'.grants.find grant.id = some grant := by
  obtain ⟨-, grants, hinsert, rfl⟩ := issueGrant_ok h
  rw [Table.find_insert hinsert]
  exact if_pos rfl

/-- The first part of `revalidate`: the grant itself. -/
def revalidateGrant (db : Db) (now : Instant) (grantId tenantId caseId : Uuid)
    (providerId : String) (capability : ProviderCapability) :
    Except String ProviderAuthorizationGrant :=
  let grantText := "authorization grant " ++ toString grantId
  match db.grants.find grantId with
  | none => .error (grantText ++ " not found")
  | some grant =>
    if grant.tenantId ≠ tenantId ∨ grant.caseId ≠ caseId ∨ grant.providerId ≠ providerId
        ∨ grant.capability ≠ capability then
      .error (grantText ++ " does not match this request's tenant/case/provider/capability")
    else
      match grant.revokedAt with
      | some t => .error (grantText ++ " was revoked at " ++ toISOString t)
      | none =>
        if grant.expiresAt ≤ now then
          .error (grantText ++ " expired at " ++ toISOString grant.expiresAt)
        else if grant.consentRecordIds.isEmpty then
          .error (grantText ++ " has no purpose-bound consent record")
        else .ok grant

/-- One turn of `revalidate`'s loop over the grant's consent records. -/
def revalidateConsent (db : Db) (now : Instant) (grant : ProviderAuthorizationGrant)
    (consentRecordId : Uuid) : Except String Unit :=
  if isRecordValid db now consentRecordId grant.tenantId grant.caseId grant.purposeCode
      grant.permittedDataClasses then .ok ()
  else
    .error ("authorization grant " ++ toString grant.id ++ " references consent record "
      ++ toString consentRecordId ++ ", which is no longer granted and unrevoked")

end MortgageAgent.Provider
