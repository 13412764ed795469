import MortgageAgent.Auth.LogoutFinal
import MortgageAgent.Auth.ReturnPath

/-!
# What a session stands on

`completeLogin` is the one place that makes a session: it checks the state of the callback against
the cookie of `beginLogin`, exchanges the code, finds the user, and stores a row that lives for as
long as the provider says, but no longer than `OIDC_SESSION_MAX_AGE_SECONDS`. From then on
authentications refresh the row, each from the copy it has read.

* **`LoginSystem`** / **`loginStep`** — logins, authentications and logouts in any order.
* **`Grant`** — what a login has granted, kept as a history beside the rows.
* **`Aged`** — what an authentication may do to the session it has read.
* **`authentication_stands`** — an authentication that succeeds goes back to a login of the same
  user, and is younger than the cap.
-/

namespace MortgageAgent.Auth

open Runs

/-! ## `completeLogin` -/

def LOGIN_STATE_COOKIE : String := "meridian_login_state"

def LOGIN_VERIFIER_COOKIE : String := "meridian_login_verifier"

def LOGIN_RETURN_COOKIE : String := "meridian_login_return"

/-- The callback of the provider: the request with the `code` and the `state` of its query. -/
structure LoginCall where
  request : Request
  code : String
  state : String

/-- What one step of a login takes from outside. -/
structure LoginEnv where
  now : Instant
  /-- the id that the database gives the row -/
  newId : Uuid
  /-- the two draws of `randomToken()` -/
  newSessionToken : String
  newCsrfToken : String
  /-- `randomBytes(12)` -/
  iv : List UInt8
  exchangeAuthorizationCode : (code codeVerifier : String) → Except Failure OidcTokenResponse
  verify : String → Except Failure OidcClaims
  verifyIdToken : String → Except Failure OidcClaims
  resolveUser : OidcClaims → Option OidcClaims → Except Failure (Option User)
  /-- `new URL(returnTo, consoleOrigin).toString()` -/
  consoleUrl : String → Except Failure String

/-- The check of the state; the result is the verifier. -/
def checkState (call : LoginCall) : Except Failure String :=
  match call.request.presentCookie LOGIN_STATE_COOKIE,
    call.request.presentCookie LOGIN_VERIFIER_COOKIE with
  | some expectedState, some verifier =>
    if call.state = expectedState then .ok verifier
    else .error (.unauthorized "OIDC login state is invalid")
  | _, _ => .error (.unauthorized "OIDC login state is invalid")

/-- The claims of the access token, and of the id token where there is one. -/
def verifyLogin (env : LoginEnv) (tokens : OidcTokenResponse) :
    Except Failure (OidcClaims × Option OidcClaims) := do
  let claims ← env.verify tokens.access_token
  match tokens.id_token.filter (· ≠ "") with
  | none => return (claims, none)
  | some idToken =>
    let identityClaims ← env.verifyIdToken idToken
    return (claims, some identityClaims)

/-- In seconds; a provider need not say how long its refresh token lives. -/
def providerLifetime (sessionMaxAgeSeconds : Int) (tokens : OidcTokenResponse) : Int :=
  match tokens.refresh_token.filter (· ≠ "") with
  | some _ => tokens.refresh_expires_in.getD sessionMaxAgeSeconds
  | none => tokens.expires_in

/-- What a login has drawn for its session. -/
structure SessionDraft where
  tokens : OidcTokenResponse
  user : User
  now : Instant
  sessionToken : String
  csrfToken : String

/-- The row of a login; `none` is the `Error` of a missing key. -/
def SessionDraft.session (deps : Deps) (sessionMaxAgeSeconds : Int) (env : LoginEnv)
    (draft : SessionDraft) : Option OidcSession :=
  let sessionTokenHash := deps.hash draft.sessionToken
  let bundle : TokenBundle :=
    { accessToken := draft.tokens.access_token
      refreshToken := draft.tokens.refresh_token
      idToken := draft.tokens.id_token }
  (encrypt deps.gcm deps.keys env.iv bundle sessionTokenHash).map fun encryptedTokenBundle =>
    { id := env.newId
      sessionTokenHash
      csrfTokenHash := deps.hash draft.csrfToken
      userId := draft.user.id
      encryptedTokenBundle
      accessExpiresAt := draft.now + draft.tokens.expires_in * 1000
      expiresAt := draft.now
        + min (providerLifetime sessionMaxAgeSeconds draft.tokens) sessionMaxAgeSeconds * 1000
      lastUsedAt := draft.now }

/-- `sessionRepository.save(sessionRepository.create(...))`: an entity without an id is inserted. -/
def insertSession (sessions : OidcSessions) (users : Users) (session : OidcSession) :
    Except PgError OidcSessions :=
  if sessions.rows.any fun r => r.sessionTokenHash = session.sessionTokenHash then
    .error .uniqueViolation
  else if (users.find session.userId).isNone then .error .foreignKeyViolation
  else
    match sessions.insert session with
    | none => .error .uniqueViolation
    | some sessions => .ok sessions

/-- `sessionRepository.delete({ expiresAt: LessThan(now) })`. -/
def deleteExpired (sessions : OidcSessions) (now : Instant) : OidcSessions :=
  sessions.filter fun r => !decide (r.expiresAt < now)

/-! ## Logins beside the authentications -/

inductive LoginState where
  | idle
  /-- about to exchange the code -/
  | checked (call : LoginCall) (verifier : String)
  /-- about to verify the tokens -/
  | exchanged (call : LoginCall) (tokens : OidcTokenResponse)
  /-- about to find the user, or to provision one -/
  | verified (call : LoginCall) (tokens : OidcTokenResponse) (claims : OidcClaims)
      (identityClaims : Option OidcClaims)
  /-- the clock and the tokens come next, and the delete of what has expired -/
  | resolved (call : LoginCall) (tokens : OidcTokenResponse) (user : User)
  /-- about to encrypt the bundle and to store the session -/
  | drafted (call : LoginCall) (draft : SessionDraft)
  /-- the session is stored and its cookies are set; the address comes next -/
  | stored (call : LoginCall)
  | finished (call : LoginCall) (result : Except Failure String)

def LoginState.call : LoginState → Option LoginCall
  | .idle => none
  | .checked call _ | .exchanged call _ | .verified call _ _ _ | .resolved call _ _
  | .drafted call _ | .stored call | .finished call _ => some call

/-- A session that a login has made: of which user, when, and by which login. -/
structure Grant where
  sessionTokenHash : String
  userId : Uuid
  grantedAt : Instant
  login : Nat
  deriving DecidableEq, Repr

/-- The last three fields are history, and no step reads them. -/
structure LoginSystem where
  base : System
  logins : Nat → LoginState
  grants : List Grant
  /-- the CSRF tokens that were sent out, each with the hash of its session's token -/
  issued : List (String × String)
  /-- the clock as an authentication has read it -/
  readAt : Nat → Instant

inductive LoginLabel where
  | base (a : Label)
  | startLogin (l : Nat) (call : LoginCall)
  | login (l : Nat) (env : LoginEnv)
  /-- a query of a `completeLogin` fails, or its process dies -/
  | loginFails (l : Nat)

def LoginSystem.setLogin (s : LoginSystem) (l : Nat) (state : LoginState) : LoginSystem :=
  { s with logins := Function.update s.logins l state }

theorem setLogin_logins (s : LoginSystem) (l : Nat) (state : LoginState) (l' : Nat) :
    (s.setLogin l state).logins l' = if l' = l then state else s.logins l' :=
  Function.update_apply ..

def LoginSystem.startLogin (s : LoginSystem) (l : Nat) (call : LoginCall) : LoginSystem :=
  match checkState call with
  | .error e => s.setLogin l (.finished call (.error e))
  | .ok verifier => s.setLogin l (.checked call verifier)

/-- The insert of a session, with what it grants. -/
def LoginSystem.store (deps : Deps) (sessionMaxAgeSeconds : Int) (s : LoginSystem) (l : Nat)
    (env : LoginEnv) (call : LoginCall) (draft : SessionDraft) : LoginSystem :=
  match draft.session deps sessionMaxAgeSeconds env with
  | none =>
    s.setLogin l (.finished call (.error (.error "OIDC session encryption key unavailable")))
  | some session =>
    match insertSession s.base.sessions s.base.users session with
    | .error e => s.setLogin l (.finished call (.error (.database e)))
    | .ok sessions =>
      { s with
        base := { s.base with sessions }
        grants :=
          { sessionTokenHash := session.sessionTokenHash
            userId := draft.user.id
            grantedAt := draft.now
            login := l } :: s.grants
        issued := (session.sessionTokenHash, draft.csrfToken) :: s.issued }.setLogin l
          (.stored call)

/-- The next step of a `completeLogin`. -/
def LoginSystem.login (deps : Deps) (sessionMaxAgeSeconds : Int) (s : LoginSystem) (l : Nat)
    (env : LoginEnv) : LoginSystem :=
  match s.logins l with
  | .checked call verifier =>
    match env.exchangeAuthorizationCode call.code verifier with
    | .error e => s.setLogin l (.finished call (.error e))
    | .ok tokens => s.setLogin l (.exchanged call tokens)
  | .exchanged call tokens =>
    match verifyLogin env tokens with
    | .error e => s.setLogin l (.finished call (.error e))
    | .ok (claims, identityClaims) => s.setLogin l (.verified call tokens claims identityClaims)
  | .verified call tokens claims identityClaims =>
    match env.resolveUser claims identityClaims with
    | .error e => s.setLogin l (.finished call (.error e))
    | .ok none => s.setLogin l (.finished call (.error unauthorized))
    | .ok (some user) => s.setLogin l (.resolved call tokens user)
  | .resolved call tokens user =>
    { s with
      base := { s.base with sessions := deleteExpired s.base.sessions env.now } }.setLogin l
        (.drafted call
          { tokens
            user
            now := env.now
            sessionToken := env.newSessionToken
            csrfToken := env.newCsrfToken })
  | .drafted call draft => s.store deps sessionMaxAgeSeconds l env call draft
  | .stored call =>
    s.setLogin l (.finished call (env.consoleUrl
      (ReturnPath.validateReturnPath ((call.request.cookie LOGIN_RETURN_COOKIE).getD "/"))))
  | _ => s

/-- The CSRF token that an authentication sends out in its next step. -/
def issuedBy (deps : Deps) (s : System) : Label → List (String × String)
  | .auth c env =>
    match s.auths c with
    | .loaded call session =>
      if session.expiresAt ≤ env.now then []
      else
        match rotateCsrf deps env call session with
        | .ok (_, csrfToken, true) => [(session.sessionTokenHash, csrfToken)]
        | _ => []
    | _ => []
  | _ => []

/-- The clock that an authentication reads in its next step. -/
def clockAfter (s : System) (readAt : Nat → Instant) (a : Label) (c' : Nat) : Instant :=
  match a with
  | .auth c env =>
    match s.auths c with
    | .loaded _ _ => if c' = c then env.now else readAt c'
    | _ => readAt c'
  | _ => readAt c'

def loginStep (deps : Deps) (sessionMaxAgeSeconds : Int) (s : LoginSystem) :
    LoginLabel → LoginSystem
  | .base a =>
    { s with
      base := step deps s.base a
      issued := issuedBy deps s.base a ++ s.issued
      readAt := clockAfter s.base s.readAt a }
  | .startLogin l call =>
    match s.logins l with
    | .idle => s.startLogin l call
    | _ => s
  | .login l env => s.login deps sessionMaxAgeSeconds l env
  | .loginFails l =>
    match s.logins l with
    | .checked call _ | .exchanged call _ | .verified call _ _ _ | .resolved call _ _
    | .drafted call _ | .stored call => s.setLogin l (.finished call (.error .unavailable))
    | _ => s

/-- No session and no call yet. -/
def LoginSystem.init (users : Users) : LoginSystem where
  base := .init .empty users
  logins := fun _ => .idle
  grants := []
  issued := []
  readAt := fun _ => 0

/-! ## What an authentication does to its session -/

/-- The session later on: nothing but its tokens, its last use and its expiry have changed, and the
expiry only forward. -/
structure Aged (x y : OidcSession) : Prop where
  sessionTokenHash : x.sessionTokenHash = y.sessionTokenHash
  userId : x.userId = y.userId
  csrfTokenHash : x.csrfTokenHash = y.csrfTokenHash
  expiresAt : x.expiresAt ≤ y.expiresAt

theorem Aged.refl (x : OidcSession) : Aged x x := ⟨rfl, rfl, rfl, Int.le_refl _⟩

theorem refreshed_aged (work : Work) (refreshed : OidcTokenResponse) (text : String) :
    Aged (work.refreshed refreshed text).session work.session where
  sessionTokenHash := rfl
  userId := rfl
  csrfTokenHash := rfl
  expiresAt := by
    simp only [Work.refreshed]
    split
    · exact Int.le_refl _
    · exact Int.min_le_left ..

theorem verifyTokens_aged {deps : Deps} {env : Env} {work work' : Work} {claims : OidcClaims}
    (h : verifyTokens deps env work = .ok (work', claims)) : Aged work'.session work.session := by
  unfold verifyTokens at h
  split at h
  · split at h
    · cases h
    · next refreshToken _ =>
      obtain ⟨refreshed, hrefresh, h⟩ := ok_of_bind_ok h
      obtain ⟨verified, hverify, h⟩ := ok_of_bind_ok h
      split at h
      · cases h
      · next text _ =>
        cases h
        exact refreshed_aged work refreshed text
  · obtain ⟨verified, hverify, h⟩ := ok_of_bind_ok h
    cases h
    exact .refl work.session

theorem touched_aged (work : Work) : Aged work.touched.session work.session := by
  unfold Work.touched
  split
  · exact ⟨rfl, rfl, rfl, Int.le_refl _⟩
  · exact .refl work.session

/-- The user is the one of the session, and has the subject of the claims. -/
structure Identified (work work' : Work) (claims : OidcClaims) (user : User) : Prop where
  aged : Aged work'.session work.session
  id : user.id = work.session.userId
  subject : user.subject = claims.sub

theorem identify_ok {users : Users} {work work' : Work} {claims : OidcClaims} {user : User}
    (h : identify users work claims = .ok (work', user)) : Identified work work' claims user := by
  unfold identify at h
  split at h
  · cases h
  · next found hfind =>
    split at h
    · cases h
    · next hsubject =>
      cases h
      have hid : user.id = work.session.userId := (users.find_eq_some_iff.mp hfind).2
      exact ⟨touched_aged work, hid, not_not.mp hsubject⟩

/-- The header has the hash that the session expects. -/
def HeaderMatches (deps : Deps) (request : Request) (session : OidcSession) : Prop :=
  ∃ header, request.csrfHeader = some header ∧ deps.hash header = session.csrfTokenHash

theorem assertCsrf_ok {deps : Deps} {request : Request} {cookieToken : String}
    {session : OidcSession}
    (h : assertCsrf deps.sha256 request cookieToken session.csrfTokenHash = .ok ()) :
    HeaderMatches deps request session := by
  unfold assertCsrf at h
  split at h
  · cases h
  · next header hheader =>
    split at h
    · cases h
    · next hsame =>
      have hhash : deps.hash header = session.csrfTokenHash := not_not.mp (not_or.mp hsame).2
      exact ⟨header, hheader, hhash⟩

/-- A call that has opened its session: the CSRF token is the one the session had, or one that was
drawn and sent out, and a call that must show it has. -/
structure Opened (deps : Deps) (env : Env) (call : AuthCall) (session : OidcSession) (work : Work) :
    Prop where
  sessionTokenHash : work.session.sessionTokenHash = session.sessionTokenHash
  userId : work.session.userId = session.userId
  expiresAt : work.session.expiresAt = session.expiresAt
  csrf : work.session.csrfTokenHash = session.csrfTokenHash
    ∨ rotateCsrf deps env call session = .ok (work.session, env.newToken, true)
      ∧ work.session.csrfTokenHash = deps.hash env.newToken
  header : call.requireCsrf = true → HeaderMatches deps call.request work.session

theorem beginAuthentication_opened {deps : Deps} {env : Env} {call : AuthCall}
    {session : OidcSession} {work : Work}
    (h : beginAuthentication deps env call session = .ok work) :
    Opened deps env call session work := by
  unfold beginAuthentication at h
  obtain ⟨⟨rotated, csrfToken, changed⟩, hrotate, h⟩ := ok_of_bind_ok h
  dsimp only at h
  -- what comes after the rotation keeps the session, and has checked the header
  have hkept : work.session = rotated ∧
      (call.requireCsrf = true → HeaderMatches deps call.request rotated) := by
    cases hbundle : decrypt deps.gcm deps.keys rotated.encryptedTokenBundle
        rotated.sessionTokenHash with
    | none =>
      rw [hbundle] at h
      split at h
      · obtain ⟨u, hassert, h⟩ := ok_of_bind_ok h
        cases h
      · cases h
    | some bundle =>
      rw [hbundle] at h
      split at h
      · obtain ⟨u, hassert, h⟩ := ok_of_bind_ok h
        cases h
        exact ⟨rfl, fun _ => assertCsrf_ok hassert⟩
      · next hrequire =>
        cases h
        exact ⟨rfl, fun htrue => absurd htrue hrequire⟩
  obtain ⟨hsession, hheader⟩ := hkept
  rw [← hsession] at hrotate hheader
  have hwas := hrotate
  unfold rotateCsrf at hrotate
  split at hrotate
  · cases hrotate
    exact ⟨rfl, rfl, rfl, Or.inl rfl, hheader⟩
  · split at hrotate
    · cases hrotate
    · have hrotated := (Prod.mk.inj (Except.ok.inj hrotate)).1
      have hdrawn := (Prod.mk.inj (Except.ok.inj hrotate)).2
      cases hdrawn
      refine ⟨?_, ?_, ?_, Or.inr ⟨hwas, ?_⟩, hheader⟩ <;> rw [← hrotated]

/-! ## What a session goes back to -/

/-- The end of the cap that a login has granted. -/
def Grant.until (sessionMaxAgeSeconds : Int) (g : Grant) : Instant :=
  g.grantedAt + sessionMaxAgeSeconds * 1000

/-- The session is one that the login has granted, and does not outlive the cap. -/
structure Grant.Covers (sessionMaxAgeSeconds : Int) (g : Grant) (x : OidcSession) : Prop where
  sessionTokenHash : x.sessionTokenHash = g.sessionTokenHash
  userId : x.userId = g.userId
  expiresAt : x.expiresAt ≤ g.until sessionMaxAgeSeconds

theorem Grant.Covers.aged {sessionMaxAgeSeconds : Int} {g : Grant} {x y : OidcSession}
    (h : g.Covers sessionMaxAgeSeconds y) (haged : Aged x y) :
    g.Covers sessionMaxAgeSeconds x where
  sessionTokenHash := haged.sessionTokenHash.trans h.sessionTokenHash
  userId := haged.userId.trans h.userId
  expiresAt := Int.le_trans haged.expiresAt h.expiresAt

/-- The hash is that of a CSRF token that was sent out for the session. -/
def SentOut (deps : Deps) (issued : List (String × String)) (x : OidcSession) : Prop :=
  ∃ token, (x.sessionTokenHash, token) ∈ issued ∧ deps.hash token = x.csrfTokenHash

theorem SentOut.aged {deps : Deps} {issued : List (String × String)} {x y : OidcSession}
    (h : SentOut deps issued y) (haged : Aged x y) : SentOut deps issued x := by
  obtain ⟨token, hissued, hhash⟩ := h
  refine ⟨token, ?_, ?_⟩
  · rw [haged.sessionTokenHash]
    exact hissued
  · rw [haged.csrfTokenHash]
    exact hhash

/-- The session cookie of the request names the session. -/
def CookieOf (deps : Deps) (request : Request) (sessionTokenHash : String) : Prop :=
  ∃ raw, request.presentCookie OIDC_SESSION_COOKIE = some raw ∧ deps.hash raw = sessionTokenHash

/-- What stands when an authentication has succeeded: its cookie is that of a session that a login
granted to its user, and it read the clock before the cap of that login. One that must be protected
against forgery has sent the hash of a CSRF token of that session. -/
structure Stands (deps : Deps) (sessionMaxAgeSeconds : Int) (s : LoginSystem) (c : Nat)
    (call : AuthCall) (identity : OidcSessionIdentity) (g : Grant) : Prop where
  granted : g ∈ s.grants
  cookie : CookieOf deps call.request g.sessionTokenHash
  user : identity.user.id = g.userId
  subject : identity.user.subject = identity.claims.sub
  inTime : s.readAt c < g.until sessionMaxAgeSeconds
  csrf : call.requireCsrf = true → ∃ header token, call.request.csrfHeader = some header
    ∧ (g.sessionTokenHash, token) ∈ s.issued ∧ deps.hash header = deps.hash token

/-- A session that a call holds after it has opened it. -/
structure Held (deps : Deps) (sessionMaxAgeSeconds : Int) (s : LoginSystem) (c : Nat)
    (call : AuthCall) (x : OidcSession) : Prop where
  cookie : CookieOf deps call.request x.sessionTokenHash
  granted : ∃ g ∈ s.grants, g.Covers sessionMaxAgeSeconds x
    ∧ s.readAt c < g.until sessionMaxAgeSeconds
  sentOut : SentOut deps s.issued x
  header : call.requireCsrf = true → HeaderMatches deps call.request x

/-- A session that is stored, or was when it was read. -/
structure Backed (deps : Deps) (sessionMaxAgeSeconds : Int) (s : LoginSystem) (x : OidcSession) :
    Prop where
  granted : ∃ g ∈ s.grants, g.Covers sessionMaxAgeSeconds x
  sentOut : SentOut deps s.issued x

def AuthState.Sound (deps : Deps) (sessionMaxAgeSeconds : Int) (s : LoginSystem) (c : Nat) :
    AuthState → Prop
  | .idle => True
  | .loaded call session =>
    CookieOf deps call.request session.sessionTokenHash
      ∧ Backed deps sessionMaxAgeSeconds s session
  | .opened call work => Held deps sessionMaxAgeSeconds s c call work.session
  | .verified call work _ => Held deps sessionMaxAgeSeconds s c call work.session
  | .identified call work claims user =>
    Held deps sessionMaxAgeSeconds s c call work.session
      ∧ user.id = work.session.userId ∧ user.subject = claims.sub
  | .finished _ (.error _) => True
  | .finished call (.ok identity) => ∃ g, Stands deps sessionMaxAgeSeconds s c call identity g

/-- The callback carries the state that `beginLogin` put in the cookie. -/
def LoginCall.Checked (call : LoginCall) : Prop :=
  call.request.presentCookie LOGIN_STATE_COOKIE = some call.state

def LoginState.underWay : LoginState → Bool
  | .idle | .finished _ _ => false
  | _ => true

structure LoginInv (deps : Deps) (sessionMaxAgeSeconds : Int) (s : LoginSystem) : Prop where
  rows : ∀ r ∈ s.base.sessions.rows, Backed deps sessionMaxAgeSeconds s r
  auths : ∀ c, (s.base.auths c).Sound deps sessionMaxAgeSeconds s c
  checked : ∀ l call, (s.logins l).underWay = true → (s.logins l).call = some call → call.Checked
  grants : ∀ g ∈ s.grants, ∃ call, (s.logins g.login).call = some call ∧ call.Checked

section Grow

variable {deps : Deps} {sessionMaxAgeSeconds : Int} {s s' : LoginSystem}

/-- The histories have grown, if they have changed. -/
structure Grown (s s' : LoginSystem) : Prop where
  grants : ∀ g ∈ s.grants, g ∈ s'.grants
  issued : ∀ p ∈ s.issued, p ∈ s'.issued

theorem Grown.of_eq (hgrants : s'.grants = s.grants) (hissued : s'.issued = s.issued) :
    Grown s s' where
  grants := fun _ hg => hgrants ▸ hg
  issued := fun _ hp => hissued ▸ hp

theorem SentOut.grow {x : OidcSession} (h : SentOut deps s.issued x) (hgrown : Grown s s') :
    SentOut deps s'.issued x := by
  obtain ⟨token, hissued, hhash⟩ := h
  exact ⟨token, hgrown.issued _ hissued, hhash⟩

theorem Backed.grow {x : OidcSession} (h : Backed deps sessionMaxAgeSeconds s x)
    (hgrown : Grown s s') : Backed deps sessionMaxAgeSeconds s' x := by
  obtain ⟨g, hg, hcovers⟩ := h.granted
  exact ⟨⟨g, hgrown.grants g hg, hcovers⟩, h.sentOut.grow hgrown⟩

theorem Held.grow {c : Nat} {call : AuthCall} {x : OidcSession}
    (h : Held deps sessionMaxAgeSeconds s c call x) (hgrown : Grown s s')
    (hread : s'.readAt c = s.readAt c) : Held deps sessionMaxAgeSeconds s' c call x where
  cookie := h.cookie
  granted := by
    obtain ⟨g, hg, hcovers, htime⟩ := h.granted
    exact ⟨g, hgrown.grants g hg, hcovers, hread ▸ htime⟩
  sentOut := h.sentOut.grow hgrown
  header := h.header

theorem Held.aged {c : Nat} {call : AuthCall} {x y : OidcSession}
    (h : Held deps sessionMaxAgeSeconds s c call y) (haged : Aged x y) :
    Held deps sessionMaxAgeSeconds s c call x where
  cookie := by
    rw [haged.sessionTokenHash]
    exact h.cookie
  granted := by
    obtain ⟨g, hg, hcovers, htime⟩ := h.granted
    exact ⟨g, hg, hcovers.aged haged, htime⟩
  sentOut := h.sentOut.aged haged
  header := by
    intro hrequire
    obtain ⟨header, hheader, hhash⟩ := h.header hrequire
    exact ⟨header, hheader, hhash.trans haged.csrfTokenHash.symm⟩

theorem Held.backed {c : Nat} {call : AuthCall} {x : OidcSession}
    (h : Held deps sessionMaxAgeSeconds s c call x) : Backed deps sessionMaxAgeSeconds s x := by
  obtain ⟨g, hg, hcovers, htime⟩ := h.granted
  exact ⟨⟨g, hg, hcovers⟩, h.sentOut⟩

theorem Stands.grow {c : Nat} {call : AuthCall} {identity : OidcSessionIdentity} {g : Grant}
    (h : Stands deps sessionMaxAgeSeconds s c call identity g) (hgrown : Grown s s')
    (hread : s'.readAt c = s.readAt c) :
    Stands deps sessionMaxAgeSeconds s' c call identity g where
  granted := hgrown.grants g h.granted
  cookie := h.cookie
  user := h.user
  subject := h.subject
  inTime := hread ▸ h.inTime
  csrf := by
    intro hrequire
    obtain ⟨header, token, hheader, hissued, hhash⟩ := h.csrf hrequire
    exact ⟨header, token, hheader, hgrown.issued _ hissued, hhash⟩

theorem AuthState.Sound.grow {c : Nat} {state : AuthState}
    (h : state.Sound deps sessionMaxAgeSeconds s c) (hgrown : Grown s s')
    (hread : s'.readAt c = s.readAt c) : state.Sound deps sessionMaxAgeSeconds s' c := by
  cases state with
  | idle => trivial
  | loaded call session => exact ⟨h.1, h.2.grow hgrown⟩
  | opened call work => exact Held.grow h hgrown hread
  | verified call work claims => exact Held.grow h hgrown hread
  | identified call work claims user => exact ⟨h.1.grow hgrown hread, h.2⟩
  | finished call result =>
    cases result with
    | error e => trivial
    | ok identity =>
      obtain ⟨g, hstands⟩ := h
      exact ⟨g, hstands.grow hgrown hread⟩

/-- What an authentication that holds its session returns stands on the grant of the session. -/
theorem Held.stands {c : Nat} {call : AuthCall} {x : OidcSession} {identity : OidcSessionIdentity}
    (h : Held deps sessionMaxAgeSeconds s c call x) (huser : identity.user.id = x.userId)
    (hsubject : identity.user.subject = identity.claims.sub) :
    ∃ g, Stands deps sessionMaxAgeSeconds s c call identity g := by
  obtain ⟨g, hg, hcovers, htime⟩ := h.granted
  refine ⟨g, hg, ?_, huser.trans hcovers.userId, hsubject, htime, ?_⟩
  · rw [← hcovers.sessionTokenHash]
    exact h.cookie
  · intro hrequire
    obtain ⟨header, hheader, hhash⟩ := h.header hrequire
    obtain ⟨token, hissued, htoken⟩ := h.sentOut
    refine ⟨header, token, hheader, ?_, hhash.trans htoken.symm⟩
    rw [← hcovers.sessionTokenHash]
    exact hissued

end Grow

/-! ## Steps of the authentications -/

section Base

variable {deps : Deps} {sessionMaxAgeSeconds : Int}

/-- A row after a step was there before, or an authentication that has found its user saves it. -/
theorem rows_of_step {s : System} {a : Label} {r : OidcSession}
    (hr : r ∈ (step deps s a).sessions.rows) :
    r ∈ s.sessions.rows ∨ ∃ c call work claims user,
      s.auths c = .identified call work claims user ∧ work.session = r := by
  cases a with
  | startAuth c call =>
    simp only [step, System.startAuth] at hr
    split at hr
    · split at hr <;> exact Or.inl hr
    · exact Or.inl hr
  | auth c env =>
    simp only [step, System.auth] at hr
    split at hr
    · split at hr
      · exact Or.inl (List.mem_of_mem_filter hr)
      · split at hr <;> exact Or.inl hr
    · split at hr <;> exact Or.inl hr
    · split at hr <;> exact Or.inl hr
    · next call work claims user hc =>
      split at hr
      · split at hr
        · exact Or.inl hr
        · next hsave =>
          rcases save_ok hsave r hr with hsaved | hold
          · exact Or.inr ⟨c, call, work, claims, user, hc, hsaved.symm⟩
          · exact Or.inl hold
      · exact Or.inl hr
    · exact Or.inl hr
  | authFails c =>
    simp only [step] at hr
    split at hr <;> exact Or.inl hr
  | startLogout l request =>
    simp only [step, System.startLogout] at hr
    split at hr
    · split at hr <;> exact Or.inl hr
    · exact Or.inl hr
  | logout l env =>
    simp only [step, System.logout] at hr
    split at hr
    · split at hr
      · exact Or.inl hr
      · exact Or.inl (List.mem_of_mem_filter hr)
    · exact Or.inl hr
    · exact Or.inl hr
  | logoutFails l =>
    simp only [step] at hr
    split at hr <;> exact Or.inl hr
  | setUsers users => exact Or.inl hr

variable {s : LoginSystem}

theorem grown_base (a : Label) : Grown s (loginStep deps sessionMaxAgeSeconds s (.base a)) where
  grants := fun _ hg => hg
  issued := fun _ hp => List.mem_append_right _ hp

theorem clockAfter_of_ne {a : Label} {c : Nat} (ha : a.authOf ≠ some c) :
    clockAfter s.base s.readAt a c = s.readAt c := by
  cases a with
  | auth c' env =>
    have hc : c ≠ c' := fun hc => ha (congrArg some hc.symm)
    unfold clockAfter
    dsimp only
    split
    · exact if_neg hc
    · rfl
  | _ => rfl

/-- A call that opens its session holds it: it has read the clock before the session expires. -/
theorem Opened.held {c : Nat} {env : Env} {call : AuthCall} {session : OidcSession} {work : Work}
    (hopened : Opened deps env call session work) (hc : s.base.auths c = .loaded call session)
    (hcookie : CookieOf deps call.request session.sessionTokenHash)
    (hbacked : Backed deps sessionMaxAgeSeconds s session) (halive : env.now < session.expiresAt) :
    Held deps sessionMaxAgeSeconds (loginStep deps sessionMaxAgeSeconds s (.base (.auth c env))) c
      call work.session where
  cookie := by
    rw [hopened.sessionTokenHash]
    exact hcookie
  granted := by
    obtain ⟨g, hg, hcovers⟩ := hbacked.granted
    have hread : clockAfter s.base s.readAt (.auth c env) c = env.now := by
      simp only [clockAfter, hc, if_pos]
    refine ⟨g, hg, ⟨?_, ?_, ?_⟩, ?_⟩
    · exact hopened.sessionTokenHash.trans hcovers.sessionTokenHash
    · exact hopened.userId.trans hcovers.userId
    · rw [hopened.expiresAt]
      exact hcovers.expiresAt
    · show clockAfter s.base s.readAt (.auth c env) c < g.until sessionMaxAgeSeconds
      rw [hread]
      exact Int.lt_of_lt_of_le halive hcovers.expiresAt
  sentOut := by
    rcases hopened.csrf with hsame | ⟨hrotated, hdrawn⟩
    · obtain ⟨token, hissued, hhash⟩ := hbacked.sentOut
      refine ⟨token, List.mem_append_right _ ?_, hhash.trans hsame.symm⟩
      rw [hopened.sessionTokenHash]
      exact hissued
    · refine ⟨env.newToken, List.mem_append_left _ ?_, hdrawn.symm⟩
      have hexpiry : ¬ session.expiresAt ≤ env.now := Int.not_le.mpr halive
      rw [hopened.sessionTokenHash]
      simp only [issuedBy, hc, if_neg hexpiry, hrotated, List.mem_singleton]
  header := hopened.header

theorem auth_sound (h : LoginInv deps sessionMaxAgeSeconds s) (c : Nat) (env : Env) :
    ((s.base.auth deps c env).auths c).Sound deps sessionMaxAgeSeconds
      (loginStep deps sessionMaxAgeSeconds s (.base (.auth c env))) c := by
  have hsound := h.auths c
  have hgrown : Grown s (loginStep deps sessionMaxAgeSeconds s (.base (.auth c env))) :=
    grown_base _
  -- only a call that has just loaded its session reads the clock
  have hread (hloaded : ∀ call session, s.base.auths c ≠ .loaded call session) :
      (loginStep deps sessionMaxAgeSeconds s (.base (.auth c env))).readAt c = s.readAt c := by
    show clockAfter s.base s.readAt (.auth c env) c = s.readAt c
    unfold clockAfter
    dsimp only
    split
    · next call session hc => exact absurd hc (hloaded call session)
    · rfl
  unfold System.auth
  split
  · next call session hc =>
    rw [hc] at hsound
    split
    · rw [setAuth_auths, if_pos rfl]
      trivial
    · next hexpiry =>
      split
      · rw [setAuth_auths, if_pos rfl]
        trivial
      · next work hbegin =>
        rw [setAuth_auths, if_pos rfl]
        have hopened := beginAuthentication_opened hbegin
        exact hopened.held hc hsound.1 hsound.2 (Int.not_le.mp hexpiry)
  · next call work hc =>
    have hheld : Held deps sessionMaxAgeSeconds s c call work.session := by rwa [hc] at hsound
    split
    · rw [setAuth_auths, if_pos rfl]
      trivial
    · next work' claims hverify =>
      rw [setAuth_auths, if_pos rfl]
      exact (hheld.grow hgrown (hread (by simp [hc]))).aged (verifyTokens_aged hverify)
  · next call work claims hc =>
    have hheld : Held deps sessionMaxAgeSeconds s c call work.session := by rwa [hc] at hsound
    split
    · rw [setAuth_auths, if_pos rfl]
      trivial
    · next work' user hidentify =>
      have hidentified := identify_ok hidentify
      rw [setAuth_auths, if_pos rfl]
      refine ⟨(hheld.grow hgrown (hread (by simp [hc]))).aged hidentified.aged, ?_,
        hidentified.subject⟩
      exact hidentified.id.trans hidentified.aged.userId.symm
  · next call work claims user hc =>
    rw [hc] at hsound
    have hheld := hsound.1.grow hgrown (hread (by simp [hc]))
    have hstands : ∃ g, Stands deps sessionMaxAgeSeconds
        (loginStep deps sessionMaxAgeSeconds s (.base (.auth c env))) c call
        { claims, user, csrfToken := work.csrfToken } g :=
      hheld.stands hsound.2.1 hsound.2.2
    dsimp only
    split
    · split
      · rw [setAuth_auths, if_pos rfl]
        trivial
      · rw [setAuth_auths, if_pos rfl]
        exact hstands
    · rw [setAuth_auths, if_pos rfl]
      exact hstands
  · next hloaded hopened hverified hidentified =>
    exact hsound.grow hgrown (hread hloaded)

theorem startAuth_sound (h : LoginInv deps sessionMaxAgeSeconds s) (c : Nat) (call : AuthCall) :
    ((step deps s.base (.startAuth c call)).auths c).Sound deps sessionMaxAgeSeconds s c := by
  simp only [step]
  split
  · unfold System.startAuth
    split
    · rw [setAuth_auths, if_pos rfl]
      trivial
    · next session hfind =>
      rw [setAuth_auths, if_pos rfl]
      have hfound := find_cookie hfind
      obtain ⟨raw, hraw, hhash⟩ := hfound.cookie
      exact ⟨⟨raw, hraw, hhash.symm⟩, h.rows session hfound.row⟩
  · exact h.auths c

theorem authFails_sound (h : LoginInv deps sessionMaxAgeSeconds s) (c : Nat) :
    ((step deps s.base (.authFails c)).auths c).Sound deps sessionMaxAgeSeconds s c := by
  simp only [step]
  split
  case h_5 => exact h.auths c
  all_goals
    rw [setAuth_auths, if_pos rfl]
    trivial

theorem LoginInv.base (h : LoginInv deps sessionMaxAgeSeconds s) (a : Label) :
    LoginInv deps sessionMaxAgeSeconds (loginStep deps sessionMaxAgeSeconds s (.base a)) where
  rows := by
    intro r hr
    rcases rows_of_step hr with hold | ⟨c, call, work, claims, user, hc, rfl⟩
    · exact (h.rows r hold).grow (grown_base a)
    · have hsound := h.auths c
      rw [hc] at hsound
      exact hsound.1.backed.grow (grown_base a)
  auths := by
    intro c
    show ((step deps s.base a).auths c).Sound deps sessionMaxAgeSeconds _ c
    by_cases ha : a.authOf = some c
    · cases a with
      | startAuth c' call =>
        cases ha
        exact (startAuth_sound h c call).grow (grown_base _) rfl
      | auth c' env =>
        cases ha
        exact auth_sound h c env
      | authFails c' =>
        cases ha
        exact (authFails_sound h c).grow (grown_base _) rfl
      | startLogout l request => cases ha
      | logout l env => cases ha
      | logoutFails l => cases ha
      | setUsers users => cases ha
    · rw [step_auths_of_ne ha]
      exact (h.auths c).grow (grown_base a) (clockAfter_of_ne ha)
  checked := h.checked
  grants := h.grants

end Base

/-! ## Steps of the logins -/

section Logins

variable {deps : Deps} {sessionMaxAgeSeconds : Int} {s : LoginSystem}

theorem checkState_ok {call : LoginCall} {verifier : String}
    (h : checkState call = .ok verifier) : call.Checked := by
  unfold checkState at h
  split at h
  · next expectedState verifier' hstate hverifier =>
    split at h
    · next hsame => exact hstate.trans (congrArg some hsame.symm)
    · cases h
  · cases h

theorem insertSession_ok {sessions sessions' : OidcSessions} {users : Users}
    {session : OidcSession} (h : insertSession sessions users session = .ok sessions') :
    sessions'.rows = sessions.rows ++ [session] := by
  unfold insertSession at h
  split at h
  · cases h
  · split at h
    · cases h
    · split at h
      · cases h
      · next hinsert =>
        cases h
        exact Table.rows_of_insert hinsert

/-- The row of a login is covered by what the login grants. -/
theorem session_covers {env : LoginEnv} {draft : SessionDraft} {session : OidcSession}
    (h : draft.session deps sessionMaxAgeSeconds env = some session) (l : Nat) :
    ({ sessionTokenHash := session.sessionTokenHash
       userId := draft.user.id
       grantedAt := draft.now
       login := l } : Grant).Covers sessionMaxAgeSeconds session
      ∧ deps.hash draft.csrfToken = session.csrfTokenHash := by
  obtain ⟨text, hencrypt, rfl⟩ := Option.map_eq_some_iff.mp h
  refine ⟨⟨rfl, rfl, ?_⟩, rfl⟩
  have hcap : min (providerLifetime sessionMaxAgeSeconds draft.tokens) sessionMaxAgeSeconds
      ≤ sessionMaxAgeSeconds := Int.min_le_right ..
  show draft.now
      + min (providerLifetime sessionMaxAgeSeconds draft.tokens) sessionMaxAgeSeconds * 1000
    ≤ draft.now + sessionMaxAgeSeconds * 1000
  exact Int.add_le_add_left (Int.mul_le_mul_of_nonneg_right hcap (by decide)) _

/-- A login moves on with its call, over the rows and grants as they are. -/
theorem LoginInv.setLogin (h : LoginInv deps sessionMaxAgeSeconds s) {l : Nat} {state : LoginState}
    (hchecked : ∀ call, state.underWay = true → state.call = some call → call.Checked)
    (hcall : ∀ call, (s.logins l).call = some call → state.call = some call) :
    LoginInv deps sessionMaxAgeSeconds (s.setLogin l state) where
  rows := fun r hr => (h.rows r hr).grow (.of_eq rfl rfl)
  auths := fun c => (h.auths c).grow (.of_eq rfl rfl) rfl
  checked := by
    intro l' call hunder hl'
    rw [setLogin_logins] at hunder hl'
    by_cases hl : l' = l
    · rw [if_pos hl] at hunder hl'
      exact hchecked call hunder hl'
    · rw [if_neg hl] at hunder hl'
      exact h.checked l' call hunder hl'
  grants := by
    intro g hg
    obtain ⟨call, hl', hstate⟩ := h.grants g hg
    refine ⟨call, ?_, hstate⟩
    rw [setLogin_logins]
    by_cases hl : g.login = l
    · rw [if_pos hl]
      exact hcall call (hl ▸ hl')
    · rw [if_neg hl]
      exact hl'

/-- A login that is under way goes on with its own call. -/
theorem LoginInv.next (h : LoginInv deps sessionMaxAgeSeconds s) {l : Nat} {state : LoginState}
    (hunder : (s.logins l).underWay = true) (hsame : state.call = (s.logins l).call) :
    LoginInv deps sessionMaxAgeSeconds (s.setLogin l state) := by
  refine h.setLogin (fun call _ hcall => ?_) (fun call hcall => hsame.trans hcall)
  exact h.checked l call hunder (hsame.symm.trans hcall)

theorem LoginInv.deleteExpired (h : LoginInv deps sessionMaxAgeSeconds s) (now : Instant) :
    LoginInv deps sessionMaxAgeSeconds
      { s with base := { s.base with sessions := deleteExpired s.base.sessions now } } where
  rows := fun r hr => (h.rows r (List.mem_of_mem_filter hr)).grow (.of_eq rfl rfl)
  auths := fun c => (h.auths c).grow (.of_eq rfl rfl) rfl
  checked := h.checked
  grants := h.grants

/-- A login stores its session, and what it grants covers the row. -/
theorem LoginInv.granted (h : LoginInv deps sessionMaxAgeSeconds s) {l : Nat} {call : LoginCall}
    {draft : SessionDraft} {env : LoginEnv} {session : OidcSession} {sessions : OidcSessions}
    (hl : s.logins l = .drafted call draft)
    (hsession : draft.session deps sessionMaxAgeSeconds env = some session)
    (hinsert : insertSession s.base.sessions s.base.users session = .ok sessions) :
    LoginInv deps sessionMaxAgeSeconds
      { s with
        base := { s.base with sessions }
        grants :=
          { sessionTokenHash := session.sessionTokenHash
            userId := draft.user.id
            grantedAt := draft.now
            login := l } :: s.grants
        issued := (session.sessionTokenHash, draft.csrfToken) :: s.issued } := by
  have hcovers := session_covers hsession l
  refine ⟨?_, ?_, h.checked, ?_⟩
  · intro r hr
    rw [insertSession_ok hinsert] at hr
    rcases List.mem_append.mp hr with hold | hnew
    · exact (h.rows r hold).grow
        ⟨fun _ hg => List.mem_cons_of_mem _ hg, fun _ hp => List.mem_cons_of_mem _ hp⟩
    · rw [List.mem_singleton.mp hnew]
      exact ⟨⟨_, List.mem_cons_self .., hcovers.1⟩, _, List.mem_cons_self .., hcovers.2⟩
  · intro c
    exact (h.auths c).grow
      ⟨fun _ hg => List.mem_cons_of_mem _ hg, fun _ hp => List.mem_cons_of_mem _ hp⟩ rfl
  · intro g hg
    rcases List.mem_cons.mp hg with rfl | hold
    · have hcall : (s.logins l).call = some call := by
        rw [hl]
        rfl
      exact ⟨call, hcall, h.checked l call (by rw [hl]; rfl) hcall⟩
    · exact h.grants g hold

theorem LoginInv.store (h : LoginInv deps sessionMaxAgeSeconds s) {l : Nat} {call : LoginCall}
    {draft : SessionDraft} (env : LoginEnv) (hl : s.logins l = .drafted call draft) :
    LoginInv deps sessionMaxAgeSeconds (s.store deps sessionMaxAgeSeconds l env call draft) := by
  have hunder : (s.logins l).underWay = true := by
    rw [hl]
    rfl
  have hcall : (s.logins l).call = some call := by
    rw [hl]
    rfl
  unfold LoginSystem.store
  split
  · exact h.next hunder hcall.symm
  · next session hsession =>
    split
    · exact h.next hunder hcall.symm
    · next sessions hinsert =>
      exact (h.granted hl hsession hinsert).next hunder hcall.symm

theorem LoginInv.login (h : LoginInv deps sessionMaxAgeSeconds s) (l : Nat) (env : LoginEnv) :
    LoginInv deps sessionMaxAgeSeconds (s.login deps sessionMaxAgeSeconds l env) := by
  have hnext {call : LoginCall} {state : LoginState} (hunder : (s.logins l).underWay = true)
      (hcall : (s.logins l).call = some call) (hstate : state.call = some call) :
      LoginInv deps sessionMaxAgeSeconds (s.setLogin l state) :=
    h.next hunder (hstate.trans hcall.symm)
  unfold LoginSystem.login
  split
  · next call verifier hl =>
    split <;> exact hnext (by rw [hl]; rfl) (by rw [hl]; rfl) rfl
  · next call tokens hl =>
    split <;> exact hnext (by rw [hl]; rfl) (by rw [hl]; rfl) rfl
  · next call tokens claims identityClaims hl =>
    split <;> exact hnext (by rw [hl]; rfl) (by rw [hl]; rfl) rfl
  · next call tokens user hl =>
    refine (h.deleteExpired env.now).next ?_ ?_
    · show (s.logins l).underWay = true
      rw [hl]
      rfl
    · show some call = (s.logins l).call
      rw [hl]
      rfl
  · next call draft hl => exact h.store env hl
  · next call hl => exact hnext (by rw [hl]; rfl) (by rw [hl]; rfl) rfl
  · exact h

theorem loginInv_step (h : LoginInv deps sessionMaxAgeSeconds s) (a : LoginLabel) :
    LoginInv deps sessionMaxAgeSeconds (loginStep deps sessionMaxAgeSeconds s a) := by
  cases a with
  | base a => exact h.base a
  | startLogin l call =>
    simp only [loginStep]
    split
    · next hidle =>
      have hfirst {state : LoginState}
          (hchecked : ∀ call, state.underWay = true → state.call = some call → call.Checked) :
          LoginInv deps sessionMaxAgeSeconds (s.setLogin l state) := by
        refine h.setLogin hchecked fun call hcall => ?_
        rw [hidle] at hcall
        cases hcall
      unfold LoginSystem.startLogin
      split
      · exact hfirst nofun
      · next verifier hcheck =>
        refine hfirst fun call' _ hcall => ?_
        cases hcall
        exact checkState_ok hcheck
    · exact h
  | login l env => exact h.login l env
  | loginFails l =>
    simp only [loginStep]
    split
    case h_7 => exact h
    all_goals
      next hl => exact h.next (by rw [hl]; rfl) (by rw [hl]; rfl)

end Logins

theorem loginInv_init (deps : Deps) (sessionMaxAgeSeconds : Int) (users : Users) :
    LoginInv deps sessionMaxAgeSeconds (.init users) where
  rows := by
    intro r hr
    cases hr
  auths := fun _ => trivial
  checked := by
    intro l call hunder hcall
    cases hunder
  grants := by
    intro g hg
    cases hg

/-- **Every authentication stands on a login.** Whatever logins, authentications, refreshes, logouts
and changes of users there were, in any order: one that has succeeded showed the cookie of a session
that a login of the same user made, with a state that matched its own cookie, and it read the clock
before `OIDC_SESSION_MAX_AGE_SECONDS` from that login were over. -/
theorem authentication_stands (deps : Deps) (sessionMaxAgeSeconds : Int) (users : Users)
    (run : List LoginLabel) (c : Nat) (call : AuthCall) (identity : OidcSessionIdentity)
    (hfinished : (exec (loginStep deps sessionMaxAgeSeconds) (.init users) run).base.auths c
      = .finished call (.ok identity)) :
    ∃ g, Stands deps sessionMaxAgeSeconds
        (exec (loginStep deps sessionMaxAgeSeconds) (.init users) run) c call identity g
      ∧ ∃ login, ((exec (loginStep deps sessionMaxAgeSeconds) (.init users) run).logins
          g.login).call = some login ∧ login.Checked := by
  have hinv : LoginInv deps sessionMaxAgeSeconds
      (exec (loginStep deps sessionMaxAgeSeconds) (.init users) run) :=
    exec_inv (I := LoginInv deps sessionMaxAgeSeconds) (fun _ a h => loginInv_step h a)
      (loginInv_init deps sessionMaxAgeSeconds users) run
  have hsound := hinv.auths c
  rw [hfinished] at hsound
  obtain ⟨g, hstands⟩ := hsound
  exact ⟨g, hstands, hinv.grants g hstands.granted⟩

def sampleLoginEnv : LoginEnv where
  now := 1000000
  newId := 7
  newSessionToken := "token"
  newCsrfToken := "csrf-1"
  iv := [9]
  exchangeAuthorizationCode := fun _ _ => .ok { access_token := "access", expires_in := 300 }
  verify := fun _ => .ok { sub := "anna" }
  verifyIdToken := fun _ => .error unauthorized
  resolveUser := fun _ _ => .ok (some { id := 3, subject := "anna", email := "anna@example.org" })
  consoleUrl := fun returnTo => .ok ("http://localhost:5173" ++ returnTo)

def callback : LoginCall where
  request :=
    { cookie := fun name =>
        if name = LOGIN_STATE_COOKIE then some "state-1"
        else if name = LOGIN_VERIFIER_COOKIE then some "verifier-1"
        else none
      csrfHeader := none }
  code := "code-1"
  state := "state-1"

/-- A request that must show its CSRF token, and does. -/
def formPost : AuthCall where
  request := requestWith (some "csrf-1")
  requireCsrf := true

/-- Anna signs in, and posts a form. -/
def signInAndPost : List LoginLabel :=
  .startLogin 0 callback :: List.replicate 6 (.login 0 sampleLoginEnv)
    ++ .base (.startAuth 0 formPost) :: List.replicate 4 (.base (.auth 0 sampleEnv))

def AuthState.identity : AuthState → Option (Bool × OidcSessionIdentity)
  | .finished call (.ok identity) => some (call.requireCsrf, identity)
  | _ => none

theorem authentication_stands_signInAndPost :
    ∃ call g, call.requireCsrf = true ∧
      Stands sampleDeps 28800 (exec (loginStep sampleDeps 28800) (.init sampleUsers) signInAndPost)
        0 call
        { claims := { sub := "anna" }
          user := { id := 3, subject := "anna", email := "anna@example.org" }
          csrfToken := "csrf-1" } g := by
  have hidentity : ((exec (loginStep sampleDeps 28800) (.init sampleUsers)
      signInAndPost).base.auths 0).identity
      = some (true, { claims := { sub := "anna" }
                      user := { id := 3, subject := "anna", email := "anna@example.org" }
                      csrfToken := "csrf-1" }) := by decide +kernel
  cases hstate : (exec (loginStep sampleDeps 28800) (.init sampleUsers) signInAndPost).base.auths 0
  case finished call result =>
    rw [hstate] at hidentity
    cases result with
    | error e => cases hidentity
    | ok identity =>
      obtain ⟨hrequire, hsame⟩ := Prod.mk.inj (Option.some.inj hidentity)
      subst hsame
      obtain ⟨g, hstands, hlogin⟩ :=
        authentication_stands sampleDeps 28800 sampleUsers signInAndPost 0 call _ hstate
      exact ⟨call, g, hrequire, hstands⟩
  all_goals
    rw [hstate] at hidentity
    cases hidentity

end MortgageAgent.Auth
