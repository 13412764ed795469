import MortgageAgent.Auth.Session

/-!
# Logout is final

A logout deletes the row of its session. An authentication that read the row before still holds
the whole entity, and its save inserts the row again.

* **`LogoutIsFinal`** — once a logout has returned and no authentication is under way, no later
  one with its session token succeeds.
* **`SavesFindRow`** — the condition: every save finds the row of its session.
* **`Known`** — what is stored or under way is a session that was there at the start.
* **`logout_is_final`** — over every run whose steps meet the condition.
* **`save_after_logout_revives`** — a save that follows the delete.
-/

namespace MortgageAgent.Auth

open Runs

/-! ## The promise and its condition -/

def AuthState.underWay : AuthState → Bool
  | .idle | .finished _ _ => false
  | _ => true

def AuthState.call : AuthState → Option AuthCall
  | .idle => none
  | .loaded call _ | .opened call _ | .verified call _ _ | .identified call _ _ _
  | .finished call _ => some call

def AuthState.succeeded : AuthState → Option AuthCall
  | .finished call (.ok _) => some call
  | _ => none

def LogoutState.returned : LogoutState → Option Request
  | .finished request (.ok _) => some request
  | _ => none

/-- Where a logout has returned and no authentication is under way at the end of `before`, none
that starts in `after` with the session token of the logout succeeds. -/
def LogoutIsFinal (deps : Deps) (start : System) (before after : List Label) : Prop :=
  let s := exec (step deps) start before
  ∀ l request, (s.logouts l).returned = some request →
    (∀ c, (s.auths c).underWay = false) →
    ∀ c call, (s.auths c).call = none →
      ((exec (step deps) s after).auths c).succeeded = some call →
      call.request.presentCookie OIDC_SESSION_COOKIE ≠ request.presentCookie OIDC_SESSION_COOKIE

/-- The entity that the call saves next. -/
def AuthState.saved : AuthState → Option OidcSession
  | .identified _ work _ _ => if work.sessionChanged then some work.session else none
  | _ => none

/-- A save finds the row that its session was read from. -/
def SavesFindRow (s : System) : Label → Prop
  | .auth c _ => ∀ session ∈ (s.auths c).saved, (s.sessions.find session.id).isSome
  | _ => True

instance (s : System) : (a : Label) → Decidable (SavesFindRow s a)
  | .auth c _ =>
    inferInstanceAs (Decidable (∀ session ∈ (s.auths c).saved,
      (s.sessions.find session.id).isSome))
  | .startAuth .. | .authFails _ | .startLogout .. | .logout .. | .logoutFails _ | .setUsers _ =>
    isTrue trivial

/-! ## Sessions keep their id and their token -/

/-- The entity that a call holds. -/
def AuthState.session : AuthState → Option OidcSession
  | .loaded _ session => some session
  | .opened _ work | .verified _ work _ | .identified _ work _ _ => some work.session
  | .idle | .finished _ _ => none

def LogoutState.session : LogoutState → Option OidcSession
  | .loaded _ session => some session
  | _ => none

/-- The same session, however its other columns have changed. -/
def SameSession (x y : OidcSession) : Prop :=
  x.id = y.id ∧ x.sessionTokenHash = y.sessionTokenHash

theorem beginAuthentication_same {deps : Deps} {env : Env} {call : AuthCall} {session : OidcSession}
    {work : Work} (h : beginAuthentication deps env call session = .ok work) :
    SameSession work.session session := by
  unfold beginAuthentication at h
  obtain ⟨⟨rotated, csrfToken, changed⟩, hrotate, h⟩ := ok_of_bind_ok h
  have hsame : SameSession rotated session := by
    unfold rotateCsrf at hrotate
    split at hrotate
    · cases hrotate
      exact ⟨rfl, rfl⟩
    · split at hrotate
      · cases hrotate
      · cases hrotate
        exact ⟨rfl, rfl⟩
  dsimp only at h
  cases hbundle : decrypt deps.gcm deps.keys rotated.encryptedTokenBundle
      rotated.sessionTokenHash with
  | none =>
    rw [hbundle] at h
    split at h
    · obtain ⟨-, -, h⟩ := ok_of_bind_ok h
      cases h
    · cases h
  | some bundle =>
    rw [hbundle] at h
    split at h
    · obtain ⟨-, -, h⟩ := ok_of_bind_ok h
      cases h
      exact hsame
    · cases h
      exact hsame

theorem verifyTokens_same {deps : Deps} {env : Env} {work work' : Work} {claims : OidcClaims}
    (h : verifyTokens deps env work = .ok (work', claims)) :
    SameSession work'.session work.session := by
  unfold verifyTokens at h
  split at h
  · split at h
    · cases h
    · obtain ⟨refreshed, -, h⟩ := ok_of_bind_ok h
      obtain ⟨verified, -, h⟩ := ok_of_bind_ok h
      split at h
      · cases h
      · cases h
        exact ⟨rfl, rfl⟩
  · obtain ⟨verified, -, h⟩ := ok_of_bind_ok h
    cases h
    exact ⟨rfl, rfl⟩

theorem identify_same {users : Users} {work work' : Work} {claims : OidcClaims} {user : User}
    (h : identify users work claims = .ok (work', user)) :
    SameSession work'.session work.session := by
  unfold identify at h
  split at h
  · cases h
  · split at h
    · cases h
    · cases h
      unfold Work.touched
      split <;> exact ⟨rfl, rfl⟩

/-- A save that finds its row writes it, and leaves the others. -/
theorem save_ok {sessions sessions' : OidcSessions} {session : OidcSession}
    (h : save sessions session = .ok sessions') :
    ∀ r ∈ sessions'.rows, r = session ∨ r ∈ sessions.rows := by
  unfold save at h
  split at h
  · cases h
  split at h
  · next hinsert =>
    cases h
    intro r hr
    rw [Table.rows_of_insert hinsert] at hr
    rcases List.mem_append.mp hr with hr | hr
    · exact Or.inr hr
    · exact Or.inl (List.mem_singleton.mp hr)
  · cases h
    intro r hr
    obtain ⟨x, hx, rfl⟩ := List.mem_map.mp hr
    split
    · exact Or.inl rfl
    · exact Or.inr hx

theorem findBySessionTokenHash_eq_some {sessions : OidcSessions} {hash : String}
    {session : OidcSession} (h : findBySessionTokenHash sessions hash = some session) :
    session ∈ sessions.rows ∧ session.sessionTokenHash = hash :=
  ⟨List.mem_of_find?_eq_some h, by simpa using List.find?_some h⟩

/-! ## What a step can do -/

/-- The session of the cookie is a row. -/
structure FoundBy (deps : Deps) (sessions : OidcSessions) (request : Request)
    (session : OidcSession) : Prop where
  row : session ∈ sessions.rows
  cookie : ∃ raw, request.presentCookie OIDC_SESSION_COOKIE = some raw
    ∧ session.sessionTokenHash = deps.hash raw

/-- No row has the session token of the cookie. -/
def SignedOut (deps : Deps) (sessions : OidcSessions) (request : Request) : Prop :=
  ∀ raw, request.presentCookie OIDC_SESSION_COOKIE = some raw →
    ∀ r ∈ sessions.rows, r.sessionTokenHash ≠ deps.hash raw

inductive AuthMoved (deps : Deps) (s : System) : AuthState → AuthState → Prop where
  | kept (state : AuthState) : AuthMoved deps s state state
  | refused (call : AuthCall) : AuthMoved deps s .idle (.finished call (.error unauthorized))
  | found {call : AuthCall} {session : OidcSession}
      (hfound : FoundBy deps s.sessions call.request session) :
      AuthMoved deps s .idle (.loaded call session)
  | on {state state' : AuthState} (hunder : state.underWay = true) (hcall : state'.call = state.call)
      (hsession : ∀ x, state'.session = some x → ∃ y, state.session = some y ∧ SameSession x y) :
      AuthMoved deps s state state'

inductive LogoutMoved (deps : Deps) (s s' : System) : LogoutState → LogoutState → Prop where
  | kept (state : LogoutState) : LogoutMoved deps s s' state state
  | absent {request : Request} (hout : SignedOut deps s.sessions request) :
      LogoutMoved deps s s' .idle (.finished request (.ok none))
  | found {request : Request} {session : OidcSession}
      (hfound : FoundBy deps s.sessions request session) :
      LogoutMoved deps s s' .idle (.loaded request session)
  | deleted {request : Request} {session : OidcSession} {bundle : TokenBundle}
      (hgone : ∀ r ∈ s'.sessions.rows, r.id ≠ session.id) :
      LogoutMoved deps s s' (.loaded request session) (.deleted request bundle)
  | answered {request : Request} {bundle : TokenBundle} (result : Except Failure (Option String)) :
      LogoutMoved deps s s' (.deleted request bundle) (.finished request result)
  | failed {request : Request} {session : OidcSession} (e : Failure) :
      LogoutMoved deps s s' (.loaded request session) (.finished request (.error e))

/-- Rows stay, go, or are written back by a save that finds its row. -/
structure Moved (deps : Deps) (s s' : System) : Prop where
  rows : ∀ r ∈ s'.sessions.rows, r ∈ s.sessions.rows
    ∨ (∃ c, (s.auths c).session = some r) ∧ (s.sessions.find r.id).isSome
  auths : ∀ c, AuthMoved deps s (s.auths c) (s'.auths c)
  logouts : ∀ l, LogoutMoved deps s s' (s.logouts l) (s'.logouts l)

theorem find_cookie {deps : Deps} {sessions : OidcSessions} {request : Request}
    {session : OidcSession}
    (h : (request.presentCookie OIDC_SESSION_COOKIE).bind
      (fun raw => findBySessionTokenHash sessions (deps.hash raw)) = some session) :
    FoundBy deps sessions request session := by
  obtain ⟨raw, hcookie, hfind⟩ := Option.bind_eq_some_iff.mp h
  obtain ⟨hrow, hhash⟩ := findBySessionTokenHash_eq_some hfind
  exact ⟨hrow, raw, hcookie, hhash⟩

theorem signedOut_of_find_none {deps : Deps} {sessions : OidcSessions} {request : Request}
    (h : (request.presentCookie OIDC_SESSION_COOKIE).bind
      (fun raw => findBySessionTokenHash sessions (deps.hash raw)) = none) :
    SignedOut deps sessions request := by
  intro raw hcookie r hr hhash
  rw [hcookie, Option.bind_some, findBySessionTokenHash, List.find?_eq_none] at h
  exact h r hr (by simpa using hhash)

section Steps

variable {deps : Deps} {s : System}

theorem Moved.refl (deps : Deps) (s : System) : Moved deps s s where
  rows := fun _ hr => Or.inl hr
  auths := fun _ => .kept _
  logouts := fun _ => .kept _

/-- An authentication moves, over rows that are its own business. -/
theorem moved_auth (sessions' : OidcSessions) {c : Nat} {state : AuthState}
    (hrows : ∀ r ∈ sessions'.rows, r ∈ s.sessions.rows
      ∨ (∃ c, (s.auths c).session = some r) ∧ (s.sessions.find r.id).isSome)
    (hstate : AuthMoved deps s (s.auths c) state) :
    Moved deps s ({ s with sessions := sessions' }.setAuth c state) where
  rows := hrows
  auths := by
    intro c'
    rw [setAuth_auths]
    split
    · next hc =>
      rw [hc]
      exact hstate
    · exact .kept _
  logouts := fun _ => .kept _

theorem moved_logout (sessions' : OidcSessions) {l : Nat} {state : LogoutState}
    (hrows : ∀ r ∈ sessions'.rows, r ∈ s.sessions.rows)
    (hstate : LogoutMoved deps s ({ s with sessions := sessions' }.setLogout l state)
      (s.logouts l) state) :
    Moved deps s ({ s with sessions := sessions' }.setLogout l state) where
  rows := fun r hr => Or.inl (hrows r hr)
  auths := fun _ => .kept _
  logouts := by
    intro l'
    rw [setLogout_logouts]
    split
    · next hl =>
      rw [hl]
      exact hstate
    · exact .kept _

theorem moved_authStep {c : Nat} {env : Env} (hsaves : SavesFindRow s (.auth c env)) :
    Moved deps s (s.auth deps c env) := by
  -- an authentication that moves on over the rows as they are
  have hmoved {state : AuthState} (hstate : AuthMoved deps s (s.auths c) state) :
      Moved deps s (s.setAuth c state) :=
    moved_auth s.sessions (fun _ hr => Or.inl hr) hstate
  unfold System.auth
  split
  · next call session hc =>
    have hfinished (e : Failure) : AuthMoved deps s (s.auths c) (.finished call (.error e)) := by
      rw [hc]
      exact .on rfl rfl nofun
    split
    · refine moved_auth _ (fun r hr => Or.inl (List.mem_of_mem_filter hr)) (hfinished _)
    · split
      · exact hmoved (hfinished _)
      · next work hbegin =>
        refine hmoved ?_
        rw [hc]
        refine .on rfl rfl ?_
        rintro x ⟨⟩
        exact ⟨session, rfl, beginAuthentication_same hbegin⟩
  · next call work hc =>
    split
    · refine hmoved ?_
      rw [hc]
      exact .on rfl rfl nofun
    · next work' claims hverify =>
      refine hmoved ?_
      rw [hc]
      refine .on rfl rfl ?_
      rintro x ⟨⟩
      exact ⟨work.session, rfl, verifyTokens_same hverify⟩
  · next call work claims hc =>
    split
    · refine hmoved ?_
      rw [hc]
      exact .on rfl rfl nofun
    · next work' user hidentify =>
      refine hmoved ?_
      rw [hc]
      refine .on rfl rfl ?_
      rintro x ⟨⟩
      exact ⟨work.session, rfl, identify_same hidentify⟩
  · next call work claims user hc =>
    have hfinished (result : Except Failure OidcSessionIdentity) :
        AuthMoved deps s (s.auths c) (.finished call result) := by
      rw [hc]
      exact .on rfl rfl nofun
    dsimp only
    split
    · next hchanged =>
      split
      · exact hmoved (hfinished _)
      · next sessions' hsave =>
        refine moved_auth _ (fun r hr => ?_) (hfinished _)
        rcases save_ok hsave r hr with rfl | hr
        · refine Or.inr ⟨⟨c, by rw [hc]; rfl⟩, hsaves work.session ?_⟩
          rw [hc, AuthState.saved, if_pos hchanged]
          rfl
        · exact Or.inl hr
    · exact hmoved (hfinished _)
  · exact .refl deps s

theorem moved_logoutStep {l : Nat} {env : Env} : Moved deps s (s.logout deps l env) := by
  have hmoved {state : LogoutState}
      (hstate : LogoutMoved deps s (s.setLogout l state) (s.logouts l) state) :
      Moved deps s (s.setLogout l state) :=
    moved_logout s.sessions (fun _ hr => hr) hstate
  unfold System.logout
  split
  · next request session hl =>
    split
    · refine hmoved ?_
      rw [hl]
      exact .failed _
    · refine moved_logout _ (fun r hr => List.mem_of_mem_filter hr) ?_
      rw [hl]
      refine .deleted fun r hr => ?_
      simpa using List.of_mem_filter hr
  · next request bundle hl =>
    refine hmoved ?_
    rw [hl]
    exact .answered _
  · exact .refl deps s

theorem step_moved (deps : Deps) {s : System} {a : Label} (hsaves : SavesFindRow s a) : Moved deps s (step deps s a) := by
  cases a with
  | startAuth c call =>
    simp only [Auth.step]
    split
    · next hidle =>
      unfold System.startAuth
      split
      · refine moved_auth s.sessions (fun _ hr => Or.inl hr) ?_
        rw [hidle]
        exact .refused call
      · next session hfind =>
        refine moved_auth s.sessions (fun _ hr => Or.inl hr) ?_
        rw [hidle]
        exact .found (find_cookie hfind)
    · exact .refl deps s
  | auth c env => exact moved_authStep hsaves
  | authFails c =>
    have hfails (call : AuthCall) (hunder : (s.auths c).underWay = true)
        (hcall : (s.auths c).call = some call) :
        Moved deps s (s.setAuth c (.finished call (.error .unavailable))) :=
      moved_auth s.sessions (fun _ hr => Or.inl hr) (.on hunder hcall.symm nofun)
    simp only [Auth.step]
    split
    · next call session hc => exact hfails call (by rw [hc]; rfl) (by rw [hc]; rfl)
    · next call work hc => exact hfails call (by rw [hc]; rfl) (by rw [hc]; rfl)
    · next call work claims hc => exact hfails call (by rw [hc]; rfl) (by rw [hc]; rfl)
    · next call work claims user hc => exact hfails call (by rw [hc]; rfl) (by rw [hc]; rfl)
    · exact .refl deps s
  | startLogout l request =>
    simp only [Auth.step]
    split
    · next hidle =>
      unfold System.startLogout
      split
      · next hfind =>
        refine moved_logout s.sessions (fun _ hr => hr) ?_
        rw [hidle]
        exact .absent (signedOut_of_find_none hfind)
      · next session hfind =>
        refine moved_logout s.sessions (fun _ hr => hr) ?_
        rw [hidle]
        exact .found (find_cookie hfind)
    · exact .refl deps s
  | logout l env => exact moved_logoutStep
  | logoutFails l =>
    simp only [Auth.step]
    split
    · next request session hl =>
      refine moved_logout s.sessions (fun _ hr => hr) ?_
      rw [hl]
      exact .failed _
    · next request bundle hl =>
      refine moved_logout s.sessions (fun _ hr => hr) ?_
      rw [hl]
      exact .answered _
    · exact .refl deps s
  | setUsers users => exact ⟨fun _ hr => Or.inl hr, fun _ => .kept _, fun _ => .kept _⟩

end Steps

/-! ## Sessions that were there at the start -/

/-- One of the sessions of the start. -/
def KnownSession (start : OidcSessions) (x : OidcSession) : Prop :=
  ∃ r ∈ start.rows, SameSession x r

theorem KnownSession.of_same {start : OidcSessions} {x y : OidcSession}
    (h : KnownSession start x) (hsame : SameSession y x) : KnownSession start y := by
  obtain ⟨r, hr, hid, hhash⟩ := h
  exact ⟨r, hr, hsame.1.trans hid, hsame.2.trans hhash⟩

/-- A known session is told by its id. -/
theorem KnownSession.hash_eq {start : OidcSessions} {x y : OidcSession} (hx : KnownSession start x)
    (hy : KnownSession start y) (hid : x.id = y.id) : x.sessionTokenHash = y.sessionTokenHash := by
  obtain ⟨r, hr, hxid, hxhash⟩ := hx
  obtain ⟨r', hr', hyid, hyhash⟩ := hy
  have hrows : r = r' := start.eq_of_key_eq hr hr' (hxid.symm.trans (hid.trans hyid))
  rw [hxhash, hyhash, hrows]

/-- A known session is told by its session token. -/
theorem KnownSession.id_eq {start : OidcSessions}
    (hunique : (start.rows.map OidcSession.sessionTokenHash).Nodup) {x y : OidcSession}
    (hx : KnownSession start x) (hy : KnownSession start y)
    (hhash : x.sessionTokenHash = y.sessionTokenHash) : x.id = y.id := by
  obtain ⟨r, hr, hxid, hxhash⟩ := hx
  obtain ⟨r', hr', hyid, hyhash⟩ := hy
  have hrows : r = r' :=
    List.inj_on_of_nodup_map hunique hr hr' (hxhash.symm.trans (hhash.trans hyhash))
  rw [hxid, hyid, hrows]

/-- What is stored or under way was there at the start, and a logout that is past its delete has
signed its cookie out. -/
structure LogoutInv (deps : Deps) (start : OidcSessions) (s : System) : Prop where
  rows : ∀ r ∈ s.sessions.rows, KnownSession start r
  auths : ∀ c x, (s.auths c).session = some x → KnownSession start x
  loaded : ∀ l request session, s.logouts l = .loaded request session →
    KnownSession start session ∧ ∃ raw, request.presentCookie OIDC_SESSION_COOKIE = some raw
      ∧ session.sessionTokenHash = deps.hash raw
  deleted : ∀ l request bundle, s.logouts l = .deleted request bundle →
    SignedOut deps s.sessions request
  returned : ∀ l request, (s.logouts l).returned = some request →
    SignedOut deps s.sessions request

section Invariant

variable {deps : Deps} {start : OidcSessions} {s s' : System}

/-- No step brings back a session token that no row has. -/
theorem LogoutInv.signedOut (h : LogoutInv deps start s) (hmoved : Moved deps s s')
    {request : Request} (hout : SignedOut deps s.sessions request) :
    SignedOut deps s'.sessions request := by
  intro raw hcookie r hr hhash
  rcases hmoved.rows r hr with hold | ⟨⟨c, hsession⟩, hfind⟩
  · exact hout raw hcookie r hold hhash
  · obtain ⟨row, hrow⟩ := Option.isSome_iff_exists.mp hfind
    obtain ⟨hmem, hid⟩ := s.sessions.find_eq_some_iff.mp hrow
    have hsame := (h.rows row hmem).hash_eq (h.auths c r hsession) hid
    exact hout raw hcookie row hmem (hsame.trans hhash)

theorem LogoutInv.moved (h : LogoutInv deps start s) (hmoved : Moved deps s s')
    (hunique : (start.rows.map OidcSession.sessionTokenHash).Nodup) : LogoutInv deps start s' := by
  have hrows : ∀ r ∈ s'.sessions.rows, KnownSession start r := by
    intro r hr
    rcases hmoved.rows r hr with hold | ⟨⟨c, hsession⟩, -⟩
    · exact h.rows r hold
    · exact h.auths c r hsession
  refine ⟨hrows, ?_, ?_, ?_, ?_⟩
  · intro c x hx
    have hauth := hmoved.auths c
    generalize hstate : s.auths c = state at hauth
    generalize hstate' : s'.auths c = state' at hauth hx
    cases hauth with
    | kept => exact h.auths c x (by rw [hstate, hx])
    | refused call => cases hx
    | found hfound =>
      cases hx
      exact h.rows x hfound.row
    | on hunder hcall hsession =>
      obtain ⟨y, hy, hsame⟩ := hsession x hx
      exact (h.auths c y (by rw [hstate, hy])).of_same hsame
  · intro l request session hl
    have hlogout := hmoved.logouts l
    rw [hl] at hlogout
    generalize hstate : s.logouts l = state at hlogout
    cases hlogout with
    | kept => exact h.loaded l request session hstate
    | found hfound => exact ⟨h.rows session hfound.row, hfound.cookie⟩
  · intro l request bundle hl
    have hlogout := hmoved.logouts l
    rw [hl] at hlogout
    generalize hstate : s.logouts l = state at hlogout
    cases hlogout with
    | kept => exact h.signedOut hmoved (h.deleted l request bundle hstate)
    | deleted hgone =>
      obtain ⟨hknown, raw, hcookie, hhash⟩ := h.loaded l request _ hstate
      intro raw' hcookie' r hr hr'
      obtain rfl : raw = raw' := Option.some.inj (hcookie.symm.trans hcookie')
      exact hgone r hr ((hrows r hr).id_eq hunique hknown (hr'.trans hhash.symm))
  · intro l request hl
    have hlogout := hmoved.logouts l
    generalize hstate : s.logouts l = state at hlogout
    generalize hstate' : s'.logouts l = state' at hlogout hl
    cases hlogout with
    | kept => exact h.signedOut hmoved (h.returned l request (by rw [hstate, hl]))
    | absent hout =>
      cases hl
      exact h.signedOut hmoved hout
    | answered result =>
      cases result with
      | error e => cases hl
      | ok url =>
        cases hl
        exact h.signedOut hmoved (h.deleted l request _ hstate)
    | found hfound => cases hl
    | deleted hgone => cases hl
    | failed e => cases hl

theorem logoutInv_init (deps : Deps) (start : OidcSessions) (users : Users) :
    LogoutInv deps start (.init start users) where
  rows := fun r hr => ⟨r, hr, rfl, rfl⟩
  auths := by
    intro c x hx
    cases hx
  loaded := by
    intro l request session hl
    cases hl
  deleted := by
    intro l request bundle hl
    cases hl
  returned := by
    intro l request hl
    cases hl

/-- A call with a cookie that is signed out is refused at its first read. -/
def Refused (request : Request) (s : System) (c : Nat) : Prop :=
  ∀ call, (s.auths c).call = some call →
    call.request.presentCookie OIDC_SESSION_COOKIE
      = request.presentCookie OIDC_SESSION_COOKIE →
    s.auths c = .finished call (.error unauthorized)

theorem Refused.moved {request : Request} {c : Nat} (h : Refused request s c)
    (hmoved : Moved deps s s') (hout : SignedOut deps s.sessions request) :
    Refused request s' c := by
  intro call hcall hcookie
  have hauth := hmoved.auths c
  generalize hstate : s.auths c = state at hauth
  generalize hstate' : s'.auths c = state' at hauth hcall
  cases hauth with
  | kept =>
    rw [← hstate]
    exact h call (by rw [hstate, hcall]) hcookie
  | refused call' =>
    cases hcall
    rfl
  | found hfound =>
    cases hcall
    obtain ⟨raw, hraw, hhash⟩ := hfound.cookie
    exact absurd hhash (hout raw (hcookie.symm.trans hraw) _ hfound.row)
  | on hunder hcall' hsession =>
    have hwas := h call (by rw [hstate, ← hcall', hcall]) hcookie
    rw [hstate] at hwas
    rw [hwas] at hunder
    cases hunder

end Invariant

/-- **Logout is final** in every interleaving in which each save finds the row of its session:
once a logout has returned, no authentication that starts later with its session token
succeeds. -/
theorem logout_is_final (deps : Deps) (sessions : OidcSessions)
    (hunique : (sessions.rows.map OidcSession.sessionTokenHash).Nodup) (users : Users)
    (before after : List Label)
    (hsaves : AllSteps (step deps) SavesFindRow (.init sessions users) (before ++ after)) :
    LogoutIsFinal deps (.init sessions users) before after := by
  intro l request hl _ c call hidle hsucceeded hcookie
  have hinv : LogoutInv deps sessions (exec (step deps) (.init sessions users) before) :=
    exec_inv_of_allSteps (fun _ _ h hs => h.moved (step_moved deps hs) hunique)
      (logoutInv_init deps sessions users) hsaves.of_append_left
  have hafter := hsaves.of_append_right
  generalize exec (step deps) (.init sessions users) before = s
    at hinv hafter hl hidle hsucceeded
  have hstart : Refused request s c := by
    intro call hcall
    rw [hidle] at hcall
    cases hcall
  have hend := exec_inv_of_allSteps
    (I := fun s => LogoutInv deps sessions s ∧ SignedOut deps s.sessions request
      ∧ Refused request s c)
    (fun s a h hs => by
      have hmoved := step_moved deps hs
      exact ⟨h.1.moved hmoved hunique, h.1.signedOut hmoved h.2.1, h.2.2.moved hmoved h.2.1⟩)
    ⟨hinv, hinv.returned l request hl, hstart⟩ hafter
  generalize hstate : (exec (step deps) s after).auths c = state at hsucceeded
  have hcall : state.call = some call := by
    cases state with
    | finished call' result =>
      cases result with
      | error e => cases hsucceeded
      | ok identity => exact hsucceeded
    | idle => cases hsucceeded
    | loaded call' session => cases hsucceeded
    | opened call' work => cases hsucceeded
    | verified call' work claims => cases hsucceeded
    | identified call' work claims user => cases hsucceeded
  have hrefused := hend.2.2 call (by rw [hstate, hcall]) hcookie
  rw [← hstate, hrefused] at hsucceeded
  cases hsucceeded

/-! ### A save that follows the delete -/

/-- The authentication that a step is of. -/
def Label.authOf : Label → Option Nat
  | .startAuth c _ | .auth c _ | .authFails c => some c
  | _ => none

/-- An authentication moves by its own steps alone. -/
theorem step_auths_of_ne {deps : Deps} {s : System} {a : Label} {c : Nat} (ha : a.authOf ≠ some c) :
    (step deps s a).auths c = s.auths c := by
  have hset {c' : Nat} (hc : some c' ≠ some c) (s : System) (state : AuthState) :
      (s.setAuth c' state).auths c = s.auths c := by
    rw [setAuth_auths, if_neg]
    rintro rfl
    exact hc rfl
  cases a with
  | startAuth c' call =>
    simp only [step, System.startAuth]
    split
    · split <;> exact hset ha _ _
    · rfl
  | auth c' env =>
    simp only [step, System.auth]
    split
    · split
      · exact hset ha _ _
      · split <;> exact hset ha _ _
    · split <;> exact hset ha _ _
    · split <;> exact hset ha _ _
    · split
      · split <;> exact hset ha _ _
      · exact hset ha _ _
    · rfl
  | authFails c' =>
    simp only [step]
    split <;> first | exact hset ha _ _ | rfl
  | startLogout l request =>
    simp only [step, System.startLogout]
    split
    · split <;> rfl
    · rfl
  | logout l env =>
    simp only [step, System.logout]
    split
    · split <;> rfl
    · rfl
    · rfl
  | logoutFails l =>
    simp only [step]
    split <;> rfl
  | setUsers users => rfl

theorem exec_auths_of_forall_ne {deps : Deps} {s : System} {run : List Label} {c : Nat}
    (h : ∀ a ∈ run, a.authOf ≠ some c) : (exec (step deps) s run).auths c = s.auths c := by
  induction run generalizing s with
  | nil => rfl
  | cons a run ih =>
    rw [exec_cons, ih fun b hb => h b (List.mem_cons_of_mem a hb)]
    exact step_auths_of_ne (h a (List.mem_cons_self ..))

/-- A cipher that writes the plaintext, with a tag. -/
def plainGcm : Provider.Gcm where
  encipher := fun _ _ _ plaintext => (plaintext, [1])
  decipher := fun _ _ _ ciphertext tag => if tag = [1] then some ciphertext else none

def sampleDeps : Deps where
  gcm := plainGcm
  keys := { currentEncryptionKeyId := "k1", encryptionKeys := [("k1", [1])] }
  sha256 := Bytes.utf8

def sampleEnv : Env where
  now := 1000000
  newToken := "csrf-2"
  iv := [9]
  refresh := fun _ => .error .unavailable
  verify := fun _ => .ok { sub := "anna" }
  buildLogoutUrl := fun _ => .ok none

def sampleBundle : TokenBundle where
  accessToken := "access"
  refreshToken := none
  idToken := none

def sampleSession : OidcSession where
  id := 7
  sessionTokenHash := sampleDeps.hash "token"
  csrfTokenHash := sampleDeps.hash "csrf-1"
  userId := 3
  encryptedTokenBundle :=
    (encrypt plainGcm sampleDeps.keys [9] sampleBundle (sampleDeps.hash "token")).getD ""
  accessExpiresAt := 4600000
  expiresAt := 9000000
  lastUsedAt := 900000

def sampleSessions : OidcSessions := ⟨[sampleSession], by simp⟩

def sampleUsers : Users := ⟨[{ id := 3, subject := "anna", email := "anna@example.org" }], by simp⟩

/-- A request with the session cookie, and the given CSRF token in cookie and header. -/
def requestWith (csrf : Option String) : Request where
  cookie := fun name =>
    if name = OIDC_SESSION_COOKIE then some "token"
    else if name = OIDC_CSRF_COOKIE then csrf
    else none
  csrfHeader := csrf

/-- A page load without a CSRF cookie gets a new one. -/
def pageLoad : AuthCall where
  request := requestWith none
  requireCsrf := false

def signOut : List Label :=
  [.startLogout 0 (requestWith (some "csrf-1")), .logout 0 sampleEnv, .logout 0 sampleEnv]

theorem sampleSessions_unique :
    (sampleSessions.rows.map OidcSession.sessionTokenHash).Nodup := by decide +kernel

theorem logout_is_final_signOut :
    LogoutIsFinal sampleDeps (.init sampleSessions sampleUsers)
      ([.startAuth 0 pageLoad, .auth 0 sampleEnv, .auth 0 sampleEnv] ++ signOut
        ++ [.authFails 0])
      [.startAuth 1 pageLoad, .auth 1 sampleEnv] :=
  logout_is_final sampleDeps sampleSessions sampleSessions_unique sampleUsers _ _
    (by decide +kernel)

/-- The page load has read its session before the logout, and saves it afterwards. -/
def lateSave : List Label :=
  [.startAuth 0 pageLoad, .auth 0 sampleEnv, .auth 0 sampleEnv, .auth 0 sampleEnv] ++ signOut
    ++ [.auth 0 sampleEnv]

/-- **The page load saves the session that the logout deleted**, and the next one succeeds. -/
theorem save_after_logout_revives :
    ¬ ∀ (deps : Deps) (sessions : OidcSessions),
      (sessions.rows.map OidcSession.sessionTokenHash).Nodup →
      ∀ (users : Users) (before after : List Label),
        LogoutIsFinal deps (.init sessions users) before after := by
  intro h
  have hfinal := h sampleDeps sampleSessions sampleSessions_unique sampleUsers lateSave
    [.startAuth 1 pageLoad, .auth 1 sampleEnv, .auth 1 sampleEnv, .auth 1 sampleEnv,
      .auth 1 sampleEnv]
  dsimp only [LogoutIsFinal] at hfinal
  have hreturned : ((exec (step sampleDeps) (.init sampleSessions sampleUsers) lateSave).logouts
      0).returned.bind (·.presentCookie OIDC_SESSION_COOKIE) = some "token" := by decide +kernel
  obtain ⟨request, hrequest, hsignedOut⟩ := Option.bind_eq_some_iff.mp hreturned
  have hsettled : ∀ c, ((exec (step sampleDeps) (.init sampleSessions sampleUsers)
      lateSave).auths c).underWay = false := by
    intro c
    by_cases hc : c = 0
    · rw [hc]
      decide +kernel
    · rw [exec_auths_of_forall_ne]
      · rfl
      · simp [lateSave, signOut, Label.authOf, Ne.symm hc]
  have hidle : ((exec (step sampleDeps) (.init sampleSessions sampleUsers) lateSave).auths
      1).call = none := by
    rw [exec_auths_of_forall_ne]
    · rfl
    · simp [lateSave, signOut, Label.authOf]
  have hrevived : ((exec (step sampleDeps) (exec (step sampleDeps)
      (.init sampleSessions sampleUsers) lateSave) [.startAuth 1 pageLoad, .auth 1 sampleEnv,
        .auth 1 sampleEnv, .auth 1 sampleEnv, .auth 1 sampleEnv]).auths 1).succeeded.bind
      (·.request.presentCookie OIDC_SESSION_COOKIE) = some "token" := by decide +kernel
  obtain ⟨call, hcall, hcookie⟩ := Option.bind_eq_some_iff.mp hrevived
  exact hfinal 0 request hrequest hsettled 1 call hidle hcall (hcookie.trans hsignedOut.symm)

end MortgageAgent.Auth
