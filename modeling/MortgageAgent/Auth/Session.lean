import MortgageAgent.Lib.Run
import MortgageAgent.Lib.Table
import MortgageAgent.Auth.Identity
import MortgageAgent.Auth.Request
import MortgageAgent.Auth.SessionCipher

/-!
# Sessions of the operations console

`authenticateCookie` reads the session of a cookie, checks and rotates the CSRF token, calls the
identity provider, reads the user, and at the end saves the whole entity if anything about it
changed. `logout` reads the session, deletes its row by id, and asks the provider for the address
to go to. No transaction holds the parts of a call together.

* **`beginAuthentication`**, **`verifyTokens`**, **`identify`**, **`save`** — the parts of
  `authenticateCookie`; **`beginLogout`** of `logout`.
* **`System`** / **`Label`** / **`step`** — any number of calls in any order, over users that anyone
  may change.
-/

namespace MortgageAgent.Auth

open Provider (Gcm)

/-! ## Rows -/

/-- `oidc_sessions`. -/
structure OidcSession where
  id : Uuid
  sessionTokenHash : String
  csrfTokenHash : String
  userId : Uuid
  encryptedTokenBundle : String
  accessExpiresAt : Instant
  expiresAt : Instant
  lastUsedAt : Instant
  deriving DecidableEq, Repr

abbrev OidcSessions := Table OidcSession OidcSession.id

abbrev Users := Table User User.id

/-- `expires_in` and `refresh_expires_in` are in seconds. -/
structure OidcTokenResponse where
  access_token : String
  expires_in : Int
  refresh_token : Option String := none
  refresh_expires_in : Option Int := none
  id_token : Option String := none
  deriving DecidableEq, Repr

def OIDC_SESSION_COOKIE : String := "meridian_session"

def OIDC_CSRF_COOKIE : String := "meridian_csrf"

def REFRESH_SKEW_MS : Int := 30000

def LAST_USED_WRITE_INTERVAL_MS : Int := 300000

structure Deps where
  gcm : Gcm
  keys : SessionKeys
  sha256 : String → List UInt8

def Deps.hash (deps : Deps) (value : String) : String := Auth.hash deps.sha256 value

/-- What one step takes from outside: the clock, the random draws, and the identity provider. -/
structure Env where
  now : Instant
  /-- `randomToken()` -/
  newToken : String
  /-- `randomBytes(12)` -/
  iv : List UInt8
  refresh : String → Except Failure OidcTokenResponse
  verify : String → Except Failure OidcClaims
  buildLogoutUrl : Option String → Except Failure (Option String)

def findBySessionTokenHash (sessions : OidcSessions) (sessionTokenHash : String) :
    Option OidcSession :=
  sessions.rows.find? fun r => r.sessionTokenHash = sessionTokenHash

/-! ## `authenticateCookie` -/

structure AuthCall where
  request : Request
  requireCsrf : Bool

/-- The local variables of a call that has opened its token bundle. -/
structure Work where
  session : OidcSession
  now : Instant
  csrfToken : String
  bundle : TokenBundle
  sessionChanged : Bool

structure OidcSessionIdentity where
  claims : OidcClaims
  user : User
  csrfToken : String
  deriving DecidableEq, Repr

/-- The CSRF token with the session it belongs to; one that does not match is replaced. -/
def rotateCsrf (deps : Deps) (env : Env) (call : AuthCall) (session : OidcSession) :
    Except Failure (OidcSession × String × Bool) :=
  match (call.request.presentCookie OIDC_CSRF_COOKIE).filter
    fun csrfToken => deps.hash csrfToken = session.csrfTokenHash with
  | some csrfToken => .ok (session, csrfToken, false)
  | none =>
    if call.requireCsrf then .error unauthorized
    else .ok ({ session with csrfTokenHash := deps.hash env.newToken }, env.newToken, true)

/-- Everything between the expiry check and the first call to the provider. -/
def beginAuthentication (deps : Deps) (env : Env) (call : AuthCall) (session : OidcSession) :
    Except Failure Work := do
  let (session, csrfToken, sessionChanged) ← rotateCsrf deps env call session
  if call.requireCsrf then
    assertCsrf deps.sha256 call.request csrfToken session.csrfTokenHash
  match decrypt deps.gcm deps.keys session.encryptedTokenBundle session.sessionTokenHash with
  | none => .error unauthorized
  | some bundle => .ok { session, now := env.now, csrfToken, bundle, sessionChanged }

def mergeRefreshedBundle (previous : TokenBundle) (refreshed : OidcTokenResponse) : TokenBundle where
  accessToken := refreshed.access_token
  refreshToken := refreshed.refresh_token <|> previous.refreshToken
  idToken := refreshed.id_token <|> previous.idToken

/-- The access token is about to expire. -/
def Work.refreshDue (work : Work) : Bool :=
  work.session.accessExpiresAt ≤ work.now + REFRESH_SKEW_MS

/-- The session with the refreshed tokens; its own expiry is only ever brought forward. -/
def Work.refreshed (work : Work) (refreshed : OidcTokenResponse) (encryptedTokenBundle : String) :
    Work :=
  { work with
    bundle := mergeRefreshedBundle work.bundle refreshed
    session :=
      { work.session with
        encryptedTokenBundle
        accessExpiresAt := work.now + refreshed.expires_in * 1000
        expiresAt :=
          match refreshed.refresh_expires_in with
          | none => work.session.expiresAt
          | some seconds => min work.session.expiresAt (work.now + seconds * 1000) }
    sessionChanged := true }

/-- The calls to the identity provider. -/
def verifyTokens (deps : Deps) (env : Env) (work : Work) : Except Failure (Work × OidcClaims) :=
  if work.refreshDue then
    match work.bundle.refreshToken.filter (· ≠ "") with
    | none => .error unauthorized
    | some refreshToken => do
      let refreshed ← env.refresh refreshToken
      let claims ← env.verify refreshed.access_token
      match encrypt deps.gcm deps.keys env.iv (mergeRefreshedBundle work.bundle refreshed)
        work.session.sessionTokenHash with
      | none => .error (.error "OIDC session encryption key unavailable")
      | some encryptedTokenBundle => .ok (work.refreshed refreshed encryptedTokenBundle, claims)
  else do
    let claims ← env.verify work.bundle.accessToken
    return (work, claims)

/-- The note of the last use, at most every five minutes. -/
def Work.touched (work : Work) : Work :=
  if work.now - work.session.lastUsedAt ≥ LAST_USED_WRITE_INTERVAL_MS ∨ work.refreshDue then
    { work with session := { work.session with lastUsedAt := work.now }, sessionChanged := true }
  else work

/-- The user behind the claims. -/
def identify (users : Users) (work : Work) (claims : OidcClaims) : Except Failure (Work × User) :=
  match users.find work.session.userId with
  | none => .error unauthorized
  | some user => if user.subject ≠ claims.sub then .error unauthorized else .ok (work.touched, user)

/-- `sessionRepository.save(session)`: a row with the id is overwritten, and without one the
entity is inserted; `UQ_oidc_sessions_token_hash` stands. -/
def save (sessions : OidcSessions) (session : OidcSession) : Except PgError OidcSessions :=
  if sessions.rows.any
      fun r => r.id ≠ session.id && r.sessionTokenHash = session.sessionTokenHash then
    .error .uniqueViolation
  else
    match sessions.insert session with
    | some sessions => .ok sessions
    | none => .ok (sessions.put session)

/-- `sessionRepository.delete({ id })`. -/
def deleteById (sessions : OidcSessions) (id : Uuid) : OidcSessions :=
  sessions.filter fun r => r.id ≠ id

/-! ## `logout` -/

/-- The checks of a logout that has found its session. -/
def beginLogout (deps : Deps) (request : Request) (session : OidcSession) :
    Except Failure TokenBundle :=
  match request.presentCookie OIDC_CSRF_COOKIE with
  | none => .error unauthorized
  | some csrfToken => do
    assertCsrf deps.sha256 request csrfToken session.csrfTokenHash
    match decrypt deps.gcm deps.keys session.encryptedTokenBundle session.sessionTokenHash with
    | none => .error unauthorized
    | some bundle => .ok bundle

/-! ## Calls in any order -/

inductive AuthState where
  | idle
  /-- the row as it was read; the clock and the CSRF token come next -/
  | loaded (call : AuthCall) (session : OidcSession)
  /-- about to call the provider -/
  | opened (call : AuthCall) (work : Work)
  /-- about to read the user -/
  | verified (call : AuthCall) (work : Work) (claims : OidcClaims)
  /-- about to save the session, if it changed -/
  | identified (call : AuthCall) (work : Work) (claims : OidcClaims) (user : User)
  | finished (call : AuthCall) (result : Except Failure OidcSessionIdentity)

inductive LogoutState where
  | idle
  | loaded (request : Request) (session : OidcSession)
  /-- the row is deleted; the address comes next -/
  | deleted (request : Request) (bundle : TokenBundle)
  | finished (request : Request) (result : Except Failure (Option String))

structure System where
  sessions : OidcSessions
  users : Users
  auths : Nat → AuthState
  logouts : Nat → LogoutState

inductive Label where
  | startAuth (c : Nat) (call : AuthCall)
  | auth (c : Nat) (env : Env)
  /-- a query of an `authenticateCookie` fails, or its process dies -/
  | authFails (c : Nat)
  | startLogout (l : Nat) (request : Request)
  | logout (l : Nat) (env : Env)
  | logoutFails (l : Nat)
  | setUsers (users : Users)

def System.setAuth (s : System) (c : Nat) (state : AuthState) : System :=
  { s with auths := Function.update s.auths c state }

def System.setLogout (s : System) (l : Nat) (state : LogoutState) : System :=
  { s with logouts := Function.update s.logouts l state }

theorem setAuth_auths (s : System) (c : Nat) (state : AuthState) (c' : Nat) :
    (s.setAuth c state).auths c' = if c' = c then state else s.auths c' :=
  Function.update_apply ..

theorem setLogout_logouts (s : System) (l : Nat) (state : LogoutState) (l' : Nat) :
    (s.setLogout l state).logouts l' = if l' = l then state else s.logouts l' :=
  Function.update_apply ..

def System.startAuth (deps : Deps) (s : System) (c : Nat) (call : AuthCall) : System :=
  match (call.request.presentCookie OIDC_SESSION_COOKIE).bind
    fun rawSessionToken => findBySessionTokenHash s.sessions (deps.hash rawSessionToken) with
  | none => s.setAuth c (.finished call (.error unauthorized))
  | some session => s.setAuth c (.loaded call session)

/-- The next step of an `authenticateCookie`. -/
def System.auth (deps : Deps) (s : System) (c : Nat) (env : Env) : System :=
  match s.auths c with
  | .loaded call session =>
    if session.expiresAt ≤ env.now then
      { s with sessions := deleteById s.sessions session.id }.setAuth c
        (.finished call (.error unauthorized))
    else
      match beginAuthentication deps env call session with
      | .error e => s.setAuth c (.finished call (.error e))
      | .ok work => s.setAuth c (.opened call work)
  | .opened call work =>
    match verifyTokens deps env work with
    | .error e => s.setAuth c (.finished call (.error e))
    | .ok (work, claims) => s.setAuth c (.verified call work claims)
  | .verified call work claims =>
    match identify s.users work claims with
    | .error e => s.setAuth c (.finished call (.error e))
    | .ok (work, user) => s.setAuth c (.identified call work claims user)
  | .identified call work claims user =>
    let identity := { claims, user, csrfToken := work.csrfToken }
    if work.sessionChanged then
      match save s.sessions work.session with
      | .error e => s.setAuth c (.finished call (.error (.database e)))
      | .ok sessions => { s with sessions }.setAuth c (.finished call (.ok identity))
    else s.setAuth c (.finished call (.ok identity))
  | _ => s

def System.startLogout (deps : Deps) (s : System) (l : Nat) (request : Request) : System :=
  match (request.presentCookie OIDC_SESSION_COOKIE).bind
    fun rawSessionToken => findBySessionTokenHash s.sessions (deps.hash rawSessionToken) with
  | none => s.setLogout l (.finished request (.ok none))
  | some session => s.setLogout l (.loaded request session)

/-- The next step of a `logout`. -/
def System.logout (deps : Deps) (s : System) (l : Nat) (env : Env) : System :=
  match s.logouts l with
  | .loaded request session =>
    match beginLogout deps request session with
    | .error e => s.setLogout l (.finished request (.error e))
    | .ok bundle =>
      { s with sessions := deleteById s.sessions session.id }.setLogout l
        (.deleted request bundle)
  | .deleted request bundle =>
    s.setLogout l (.finished request (env.buildLogoutUrl bundle.idToken))
  | _ => s

def step (deps : Deps) (s : System) : Label → System
  | .startAuth c call =>
    match s.auths c with
    | .idle => s.startAuth deps c call
    | _ => s
  | .auth c env => s.auth deps c env
  | .authFails c =>
    match s.auths c with
    | .loaded call _ | .opened call _ | .verified call _ _ | .identified call _ _ _ =>
      s.setAuth c (.finished call (.error .unavailable))
    | _ => s
  | .startLogout l request =>
    match s.logouts l with
    | .idle => s.startLogout deps l request
    | _ => s
  | .logout l env => s.logout deps l env
  | .logoutFails l =>
    match s.logouts l with
    | .loaded request _ | .deleted request _ =>
      s.setLogout l (.finished request (.error .unavailable))
    | _ => s
  | .setUsers users => { s with users }

/-- No call yet, over any sessions and users. -/
def System.init (sessions : OidcSessions) (users : Users) : System where
  sessions
  users
  auths := fun _ => .idle
  logouts := fun _ => .idle

end MortgageAgent.Auth
