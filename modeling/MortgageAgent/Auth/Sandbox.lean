import MortgageAgent.Lib.Run
import MortgageAgent.Auth.Identity
import MortgageAgent.Auth.Request
import MortgageAgent.Cases.CreateCase

/-!
# The guest sandbox

Every visit of the public sandbox gets a tenant of its own, with one case and its consent, and an
opaque session that expires. Cleanup goes by the session rows: the tenant of an expired session is
purged, and deleting the tenant deletes its sessions with it.

* **`resolve`** — the session of a request; **`seedCase`** — a case and its consent.
* **`create`**, **`getSession`**, **`authenticate`**, **`logout`**, **`createAdditionalCase`**,
  **`purgeExpiredSessions`** — the calls.
* **`System`** / **`Label`** / **`step`** — one call after the other, with the tenants that `create`
  made on record.
-/

namespace MortgageAgent.Auth.Sandbox

open Cases (LoanCase LoanCases ConsentRecord numeric14_2)

/-! ## Rows -/

/-- `guest_sandbox_sessions`. -/
structure GuestSandboxSession where
  id : Uuid
  sessionTokenHash : String
  csrfTokenHash : String
  tenantId : Uuid
  actorId : Uuid
  expiresAt : Instant
  lastUsedAt : Instant
  deriving DecidableEq, Repr

abbrev GuestSandboxSessions := Table GuestSandboxSession GuestSandboxSession.id

structure Db where
  tenants : Table Tenant Tenant.id
  /-- the codes of `jurisdictions` -/
  jurisdictions : List String
  loanCases : LoanCases
  consents : Table ConsentRecord ConsentRecord.id
  sessions : GuestSandboxSessions

def GUEST_SANDBOX_COOKIE : String := "meridian_guest_sandbox"

def GUEST_SANDBOX_CSRF_COOKIE : String := "meridian_guest_sandbox_csrf"

structure Deps where
  sha256 : String → List UInt8
  /-- `GUEST_SANDBOX_TTL_SECONDS` -/
  ttlSeconds : Int := 3600

/-- The clock, what a call draws at random, and the tenants whose purge fails. -/
structure Env where
  now : Instant
  tenantId : Uuid
  caseId : Uuid
  consentId : Uuid
  sessionId : Uuid
  actorId : Uuid
  /-- the texts of `randomUUID()` in the tenant's name, the idempotency key and the borrower -/
  newText : String
  sessionToken : String
  csrfToken : String
  purgeFails : Uuid → Bool

structure CreateGuestSandboxSessionDto where
  requestedAmount : Option JsDecimal := none
  statedMonthlyIncome : Option JsDecimal := none

structure GuestSandboxSummary where
  authenticated : Bool
  tenantId : Option Uuid := none
  actorId : Option Uuid := none
  csrfToken : Option String := none
  expiresAt : Option String := none
  caseId : Option Uuid := none

structure AuthContext where
  tenantId : Uuid
  actorId : Uuid
  role : ApiClientRole

/-! ## Deleting a tenant -/

def deleteCases (loanCases : LoanCases) (tenantId : Uuid) : LoanCases where
  table := loanCases.table.filter fun c => c.tenantId ≠ tenantId
  unique := loanCases.unique.sublist (List.Sublist.map LoanCase.key List.filter_sublist)

/-- `purgeTenantData`, as far as these tables go: cases and consents of the tenant, and then the
tenant itself, which takes its sessions with it (`ON DELETE CASCADE`). -/
def purgeTenantData (db : Db) (tenantId : Uuid) : Db :=
  { db with
    loanCases := deleteCases db.loanCases tenantId
    consents := db.consents.filter fun c => c.tenantId ≠ tenantId
    tenants := db.tenants.filter fun t => t.id ≠ tenantId
    sessions := db.sessions.filter fun s => s.tenantId ≠ tenantId }

/-- `sessionRepository.delete({ id })`. -/
def deleteSession (db : Db) (id : Uuid) : Db :=
  { db with sessions := db.sessions.filter fun s => s.id ≠ id }

/-- The loop over the expired sessions; a purge that fails ends it. -/
def purgeSessions (env : Env) : List GuestSandboxSession → Db → (purged : Nat) →
    Db × Except Failure Nat
  | [], db, purged => (db, .ok purged)
  | session :: rest, db, purged =>
    if env.purgeFails session.tenantId then (db, .error .unavailable)
    else
      purgeSessions env rest (deleteSession (purgeTenantData db session.tenantId) session.id)
        (purged + 1)

def purgeExpiredSessions (env : Env) (db : Db) : Db × Except Failure Nat :=
  purgeSessions env (db.sessions.rows.filter fun s => s.expiresAt < env.now) db 0

/-! ## Creating -/

/-- The case that a scenario asks for; the default does not agree with the simulated income. -/
def seededCase (env : Env) (tenantId : Uuid) (scenario : CreateGuestSandboxSessionDto) :
    Except PgError LoanCase := do
  let requestedAmount ← numeric14_2 (scenario.requestedAmount.getD (.scaled 425 3))
  let statedMonthlyIncome ← numeric14_2 (scenario.statedMonthlyIncome.getD (.scaled 1 0))
  return {
    id := env.caseId
    tenantId
    idempotencyKey := "portfolio-sandbox-" ++ env.newText
    borrowerId := "synthetic-borrower-" ++ String.ofList (env.newText.toList.take 8)
    requestedAmount
    loanType := .CONVENTIONAL
    statedMonthlyIncome
    jurisdictionCode := "US-CA"
    status := .DRAFT }

def seededConsent (env : Env) (tenantId caseId : Uuid) : ConsentRecord where
  id := env.consentId
  tenantId
  caseId
  purpose := "UNDERWRITING_EVIDENCE"
  scope := "INCOME,CREDIT,DOCUMENT,ASSET,IDENTITY"
  permittedPurposes := ["UNDERWRITING_EVIDENCE"]
  permittedDataClasses := ["INCOME", "CREDIT", "DOCUMENT", "ASSET", "IDENTITY"]
  grantedAt := env.now

/-- A case and its consent, through the transaction of the caller. -/
def seedCase (db : Db) (env : Env) (tenantId : Uuid) (scenario : CreateGuestSandboxSessionDto) :
    Except PgError (Db × LoanCase) := do
  let loanCase ← seededCase env tenantId scenario
  if (db.tenants.find tenantId).isSome && db.jurisdictions.contains loanCase.jurisdictionCode then
    match db.loanCases.insert loanCase, db.consents.insert (seededConsent env tenantId loanCase.id) with
    | some loanCases, some consents => .ok ({ db with loanCases, consents }, loanCase)
    | _, _ => .error .uniqueViolation
  else .error .foreignKeyViolation

def newSession (deps : Deps) (env : Env) (tenantId : Uuid) : GuestSandboxSession where
  id := env.sessionId
  sessionTokenHash := hash deps.sha256 env.sessionToken
  csrfTokenHash := hash deps.sha256 env.csrfToken
  tenantId
  actorId := env.actorId
  expiresAt := env.now + deps.ttlSeconds * 1000
  lastUsedAt := env.now

/-- `save` of a new session; `UQ_guest_sandbox_sessions_token_hash` stands. -/
def insertSession (db : Db) (session : GuestSandboxSession) : Except PgError Db :=
  if db.sessions.rows.any fun s => s.sessionTokenHash = session.sessionTokenHash then
    .error .uniqueViolation
  else
    match db.sessions.insert session with
    | none => .error .uniqueViolation
    | some sessions => .ok { db with sessions }

/-- Tenant, case, consent and session, in one transaction. -/
def createTenant (deps : Deps) (db : Db) (env : Env) (scenario : CreateGuestSandboxSessionDto) :
    Except PgError (Db × LoanCase) :=
  match db.tenants.insert
    { id := env.tenantId
      name := "Portfolio sandbox " ++ String.ofList (env.newText.toList.take 8) } with
  | none => .error .uniqueViolation
  | some tenants => do
    let (db, loanCase) ← seedCase { db with tenants } env env.tenantId scenario
    let db ← insertSession db (newSession deps env env.tenantId)
    return (db, loanCase)

/-- The store after the call, whatever came of it. -/
def create (deps : Deps) (db : Db) (env : Env) (scenario : CreateGuestSandboxSessionDto) :
    Db × Except Failure GuestSandboxSummary :=
  match purgeExpiredSessions env db with
  | (db, .error e) => (db, .error e)
  | (db, .ok _) =>
    match createTenant deps db env scenario with
    | .error e => (db, .error (.database e))
    | .ok (db, loanCase) =>
      (db, .ok
        { authenticated := true
          tenantId := some env.tenantId
          actorId := some env.actorId
          csrfToken := some env.csrfToken
          expiresAt := some (toISOString (env.now + deps.ttlSeconds * 1000))
          caseId := some loanCase.id })

/-! ## Sessions -/

def findBySessionTokenHash (db : Db) (sessionTokenHash : String) : Option GuestSandboxSession :=
  db.sessions.rows.find? fun s => s.sessionTokenHash = sessionTokenHash

/-- The session of the cookie, unless it has expired. -/
def liveSession (deps : Deps) (db : Db) (now : Instant) (request : Request) :
    Except Failure GuestSandboxSession :=
  match request.presentCookie GUEST_SANDBOX_COOKIE with
  | none => .error unauthorized
  | some rawToken =>
    match findBySessionTokenHash db (hash deps.sha256 rawToken) with
    | none => .error unauthorized
    | some session => if session.expiresAt ≤ now then .error unauthorized else .ok session

/-- The CSRF cookie, if it is the session's. -/
def matchingCsrf (deps : Deps) (request : Request) (session : GuestSandboxSession) : Option String :=
  (request.presentCookie GUEST_SANDBOX_CSRF_COOKIE).filter
    fun csrfToken => hash deps.sha256 csrfToken = session.csrfTokenHash

/-- The store, the session and its CSRF token. Where no CSRF is required, a token that does not
match is replaced, and the session saved over its row. -/
def resolve (deps : Deps) (db : Db) (env : Env) (request : Request) (requireCsrf : Bool) :
    Except Failure (Db × GuestSandboxSession × String) := do
  let session ← liveSession deps db env.now request
  match matchingCsrf deps request session with
  | some csrfToken =>
    if requireCsrf then
      assertCsrf deps.sha256 request csrfToken session.csrfTokenHash
    return (db, session, csrfToken)
  | none =>
    if requireCsrf then .error unauthorized
    else
      let session := { session with csrfTokenHash := hash deps.sha256 env.csrfToken }
      return ({ db with sessions := db.sessions.put session }, session, env.csrfToken)

def getSession (deps : Deps) (db : Db) (env : Env) (request : Request) :
    Db × Except Failure GuestSandboxSummary :=
  match resolve deps db env request false with
  | .ok (db, session, csrfToken) =>
    (db, .ok
      { authenticated := true
        tenantId := some session.tenantId
        actorId := some session.actorId
        csrfToken := some csrfToken
        expiresAt := some (toISOString session.expiresAt) })
  | .error (.unauthorized _) => (db, .ok { authenticated := false })
  | .error e => (db, .error e)

def authenticate (deps : Deps) (db : Db) (env : Env) (request : Request) (requireCsrf : Bool) :
    Db × Except Failure AuthContext :=
  match resolve deps db env request requireCsrf with
  | .error e => (db, .error e)
  | .ok (db, session, _) =>
    (db, .ok { tenantId := session.tenantId, actorId := session.actorId, role := .REVIEWER })

def logout (deps : Deps) (db : Db) (env : Env) (request : Request) : Db × Except Failure Unit :=
  match resolve deps db env request true with
  | .error e => (db, .error e)
  | .ok (db, session, _) => (deleteSession db session.id, .ok ())

def createAdditionalCase (deps : Deps) (db : Db) (env : Env) (request : Request)
    (scenario : CreateGuestSandboxSessionDto) : Db × Except Failure Uuid :=
  match authenticate deps db env request true with
  | (db, .error e) => (db, .error e)
  | (db, .ok context) =>
    match seedCase db env context.tenantId scenario with
    | .error e => (db, .error (.database e))
    | .ok (db, loanCase) => (db, .ok loanCase.id)

/-! ## One call after the other -/

structure System where
  db : Db
  /-- the tenants that `create` has made so far -/
  sandboxTenants : List Uuid

inductive Label where
  | create (env : Env) (scenario : CreateGuestSandboxSessionDto)
  | getSession (env : Env) (request : Request)
  | authenticate (env : Env) (request : Request) (requireCsrf : Bool)
  | logout (env : Env) (request : Request)
  | createAdditionalCase (env : Env) (request : Request) (scenario : CreateGuestSandboxSessionDto)
  | purgeExpiredSessions (env : Env)

def step (deps : Deps) (s : System) : Label → System
  | .create env scenario =>
    match create deps s.db env scenario with
    | (db, .ok _) => { db, sandboxTenants := s.sandboxTenants ++ [env.tenantId] }
    | (db, .error _) => { s with db }
  | .getSession env request => { s with db := (getSession deps s.db env request).1 }
  | .authenticate env request requireCsrf =>
    { s with db := (authenticate deps s.db env request requireCsrf).1 }
  | .logout env request => { s with db := (logout deps s.db env request).1 }
  | .createAdditionalCase env request scenario =>
    { s with db := (createAdditionalCase deps s.db env request scenario).1 }
  | .purgeExpiredSessions env => { s with db := (purgeExpiredSessions env s.db).1 }

/-- No sandbox yet, beside any tenants, cases and consents. -/
def System.init (tenants : Table Tenant Tenant.id) (jurisdictions : List String)
    (loanCases : LoanCases) (consents : Table ConsentRecord ConsentRecord.id) : System where
  db := { tenants, jurisdictions, loanCases, consents, sessions := .empty }
  sandboxTenants := []

end MortgageAgent.Auth.Sandbox
