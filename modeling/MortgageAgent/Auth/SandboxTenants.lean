import MortgageAgent.Auth.Sandbox

/-!
# Sandbox tenants are found by their sessions

Cleanup sees a tenant only through a session row, so a tenant that holds data has to have one. A
logout deletes the row and leaves the tenant.

* **`TenantsReferenced`** — every sandbox tenant that holds data has a session row.
* **`Cleared`** — what a round of purges leaves.
* **`SandboxInv`** — one session for a tenant, and the tenant is there.
* **`tenants_referenced_iff`** — the promise holds all along exactly in the runs in which no logout
  is admitted.
* **`logout_loses_tenant`** — a visit that ends with a logout.
-/

namespace MortgageAgent.Auth.Sandbox

open Runs
open Cases (LoanCases ConsentRecord)

/-! ## The promise and its condition -/

/-- The tenant has not been purged. -/
def HoldsData (db : Db) (tenantId : Uuid) : Prop :=
  (∃ t ∈ db.tenants.rows, t.id = tenantId)
    ∨ (∃ c ∈ db.loanCases.table.rows, c.tenantId = tenantId)
    ∨ ∃ c ∈ db.consents.rows, c.tenantId = tenantId

def Referenced (db : Db) (tenantId : Uuid) : Prop :=
  ∃ session ∈ db.sessions.rows, session.tenantId = tenantId

def TenantsReferenced (s : System) : Prop :=
  ∀ tenantId ∈ s.sandboxTenants, HoldsData s.db tenantId → Referenced s.db tenantId

/-- The request has the cookie of a live session, and its CSRF token in cookie and header. -/
def Admitted (deps : Deps) (db : Db) (now : Instant) (request : Request) : Prop :=
  ∃ session csrfToken, liveSession deps db now request = .ok session
    ∧ matchingCsrf deps request session = some csrfToken ∧ request.csrfHeader = some csrfToken

/-- No logout is admitted. -/
def NoLogout (deps : Deps) (s : System) : Label → Prop
  | .logout env request => ¬ Admitted deps s.db env.now request
  | _ => True

/-! ## What the calls write -/

theorem liveSession_mem {deps : Deps} {db : Db} {now : Instant} {request : Request}
    {session : GuestSandboxSession} (h : liveSession deps db now request = .ok session) :
    session ∈ db.sessions.rows := by
  unfold liveSession at h
  split at h
  · cases h
  split at h
  · cases h
  next found hfind =>
  split at h
  · cases h
  · cases h
    exact List.mem_of_find?_eq_some hfind

theorem assertCsrf_eq_ok {sha256 : String → List UInt8} {request : Request}
    {cookieToken expectedHash : String} :
    assertCsrf sha256 request cookieToken expectedHash = .ok ()
      ↔ request.csrfHeader = some cookieToken ∧ hash sha256 cookieToken = expectedHash := by
  unfold assertCsrf
  split
  · next hnone => simp [hnone]
  · next header hsome =>
    rw [hsome]
    split
    · next hbad =>
      constructor
      · intro h
        cases h
      · rintro ⟨hheader, hhash⟩
        cases hheader
        rcases hbad with hbad | hbad
        · exact absurd rfl hbad
        · exact absurd hhash hbad
    · next hgood =>
      rw [not_or, not_not, not_not] at hgood
      obtain ⟨rfl, hhash⟩ := hgood
      exact ⟨fun _ => ⟨rfl, hhash⟩, fun _ => rfl⟩

/-- Where CSRF is required, `resolve` admits the requests of `Admitted` and writes nothing. -/
theorem resolve_true (deps : Deps) (db : Db) (env : Env) (request : Request) :
    (∃ session csrfToken, session ∈ db.sessions.rows
        ∧ Admitted deps db env.now request
        ∧ resolve deps db env request true = .ok (db, session, csrfToken))
      ∨ (¬ Admitted deps db env.now request
        ∧ ∃ e, resolve deps db env request true = .error e) := by
  unfold resolve
  cases hlive : liveSession deps db env.now request with
  | error e =>
    refine Or.inr ⟨?_, e, rfl⟩
    rintro ⟨session, csrfToken, hok, -⟩
    rw [hlive] at hok
    cases hok
  | ok session =>
    simp only [Except.bind, bind]
    cases hcsrf : matchingCsrf deps request session with
    | none =>
      refine Or.inr ⟨?_, unauthorized, rfl⟩
      rintro ⟨session', csrfToken, hok, hmatching, -⟩
      rw [hlive] at hok
      cases hok
      rw [hcsrf] at hmatching
      cases hmatching
    | some csrfToken =>
      have hhash : hash deps.sha256 csrfToken = session.csrfTokenHash := by
        simpa using (Option.filter_eq_some_iff.mp hcsrf).2
      simp only [if_true]
      cases hassert : assertCsrf deps.sha256 request csrfToken session.csrfTokenHash with
      | ok u =>
        refine Or.inl ⟨session, csrfToken, liveSession_mem hlive, ?_, rfl⟩
        exact ⟨session, csrfToken, hlive, hcsrf, (assertCsrf_eq_ok.mp hassert).1⟩
      | error e =>
        refine Or.inr ⟨?_, e, rfl⟩
        rintro ⟨session', csrfToken', hok, hmatching, hheader⟩
        rw [hlive] at hok
        cases hok
        rw [hcsrf] at hmatching
        cases hmatching
        rw [assertCsrf_eq_ok.mpr ⟨hheader, hhash⟩] at hassert
        cases hassert

/-- The same rows, up to columns of the sessions that are not the tenant. -/
structure SameTenants (db db' : Db) : Prop where
  tenants : db'.tenants = db.tenants
  loanCases : db'.loanCases = db.loanCases
  consents : db'.consents = db.consents
  sessions : db'.sessions.rows.map (·.tenantId) = db.sessions.rows.map (·.tenantId)

theorem SameTenants.refl (db : Db) : SameTenants db db := ⟨rfl, rfl, rfl, rfl⟩

/-- Where no CSRF is required, `resolve` may save the session with a new CSRF token. -/
theorem resolve_false {deps : Deps} {db db' : Db} {env : Env} {request : Request}
    {session : GuestSandboxSession} {csrfToken : String}
    (h : resolve deps db env request false = .ok (db', session, csrfToken)) :
    SameTenants db db' := by
  unfold resolve at h
  obtain ⟨found, hlive, h⟩ := ok_of_bind_ok h
  split at h
  · cases h
    exact .refl db
  · cases h
    refine ⟨rfl, rfl, rfl, ?_⟩
    show (db.sessions.put _).rows.map _ = _
    simp only [Table.put, List.map_map]
    refine List.map_congr_left fun r hr => ?_
    by_cases hid : r.id = found.id
    · have hrow : r = found := db.sessions.eq_of_key_eq hr (liveSession_mem hlive) hid
      simp [hrow]
    · simp [hid]

/-- The rows that are left when the data of the tenants of `purged` is gone. -/
structure Cleared (db db' : Db) (purged : List Uuid) : Prop where
  tenants : db'.tenants.rows = db.tenants.rows.filter fun t => t.id ∉ purged
  loanCases : db'.loanCases.table.rows = db.loanCases.table.rows.filter fun c => c.tenantId ∉ purged
  consents : db'.consents.rows = db.consents.rows.filter fun c => c.tenantId ∉ purged
  sessions : db'.sessions.rows = db.sessions.rows.filter fun s => s.tenantId ∉ purged

theorem Cleared.nil (db : Db) : Cleared db db [] := by
  constructor <;> simp

theorem cleared_purgeTenantData (db : Db) (tenantId : Uuid) :
    Cleared db (purgeTenantData db tenantId) [tenantId] := by
  constructor <;> simp [purgeTenantData, deleteCases, Table.filter]

/-- Two rounds of deletions are one. -/
theorem filter_not_mem_append {ρ : Type} (rows : List ρ) (f : ρ → Uuid) (first rest : List Uuid) :
    (rows.filter fun r => f r ∉ first).filter (fun r => f r ∉ rest)
      = rows.filter fun r => f r ∉ first ++ rest := by
  rw [List.filter_filter]
  refine List.filter_congr fun r _ => ?_
  simp [Bool.and_comm]

theorem Cleared.trans {db db' db'' : Db} {first rest : List Uuid} (h : Cleared db db' first)
    (h' : Cleared db' db'' rest) : Cleared db db'' (first ++ rest) where
  tenants := by rw [h'.tenants, h.tenants, filter_not_mem_append]
  loanCases := by rw [h'.loanCases, h.loanCases, filter_not_mem_append]
  consents := by rw [h'.consents, h.consents, filter_not_mem_append]
  sessions := by rw [h'.sessions, h.sessions, filter_not_mem_append]

theorem Cleared.referenced {db db' : Db} {purged : List Uuid} (h : Cleared db db' purged)
    {tenantId : Uuid} (href : HoldsData db tenantId → Referenced db tenantId)
    (hdata : HoldsData db' tenantId) : Referenced db' tenantId := by
  have hkept : HoldsData db tenantId ∧ tenantId ∉ purged := by
    rcases hdata with ⟨t, ht, rfl⟩ | ⟨c, hc, rfl⟩ | ⟨c, hc, rfl⟩
    · rw [h.tenants, List.mem_filter] at ht
      exact ⟨Or.inl ⟨t, ht.1, rfl⟩, by simpa using ht.2⟩
    · rw [h.loanCases, List.mem_filter] at hc
      exact ⟨Or.inr (Or.inl ⟨c, hc.1, rfl⟩), by simpa using hc.2⟩
    · rw [h.consents, List.mem_filter] at hc
      exact ⟨Or.inr (Or.inr ⟨c, hc.1, rfl⟩), by simpa using hc.2⟩
  obtain ⟨session, hmem, hsession⟩ := href hkept.1
  refine ⟨session, ?_, hsession⟩
  rw [h.sessions, List.mem_filter, hsession]
  exact ⟨hmem, by simpa using hkept.2⟩

/-- The purge has already taken the row that is deleted after it. -/
theorem deleteSession_purgeTenantData {db : Db} {session : GuestSandboxSession}
    (h : ∀ s ∈ db.sessions.rows, s.id = session.id → s = session) :
    deleteSession (purgeTenantData db session.tenantId) session.id
      = purgeTenantData db session.tenantId := by
  have hrows : (purgeTenantData db session.tenantId).sessions.filter (fun s => s.id ≠ session.id)
      = (purgeTenantData db session.tenantId).sessions := by
    refine Table.ext (List.filter_eq_self.mpr fun s hs => ?_)
    obtain ⟨hmem, htenant⟩ := List.mem_filter.mp hs
    have hne : s.id ≠ session.id := by
      intro hid
      rw [h s hmem hid] at htenant
      simp at htenant
    simpa using hne
  rw [deleteSession, hrows]

/-- The tenants of the sessions before the first whose purge fails. -/
def swept (env : Env) (expired : List GuestSandboxSession) : List Uuid :=
  (expired.takeWhile fun s => !env.purgeFails s.tenantId).map (·.tenantId)

/-- The loop clears the tenants of the sessions it gets through. -/
theorem purgeSessions_cleared {env : Env} {expired : List GuestSandboxSession} {db : Db} {n : Nat}
    (h : ∀ x ∈ expired, ∀ s ∈ db.sessions.rows, s.id = x.id → s = x) :
    Cleared db (purgeSessions env expired db n).1 (swept env expired) := by
  induction expired generalizing db n with
  | nil => exact .nil db
  | cons session rest ih =>
    unfold purgeSessions
    split
    · next hfails =>
      have hnone : swept env (session :: rest) = [] := by simp [swept, hfails]
      rw [hnone]
      exact .nil db
    · next hworks =>
      have hfirst : swept env (session :: rest) = [session.tenantId] ++ swept env rest := by
        simp [swept, hworks]
      rw [deleteSession_purgeTenantData (h session (List.mem_cons_self ..)), hfirst]
      have hcleared := cleared_purgeTenantData db session.tenantId
      have hrest : ∀ x ∈ rest, ∀ s ∈ (purgeTenantData db session.tenantId).sessions.rows,
          s.id = x.id → s = x := by
        intro x hx s hs
        exact h x (List.mem_cons_of_mem _ hx) s (List.mem_of_mem_filter hs)
      exact hcleared.trans (ih hrest)

def expiredSessions (env : Env) (db : Db) : List GuestSandboxSession :=
  db.sessions.rows.filter fun s => s.expiresAt < env.now

theorem purgeExpiredSessions_cleared (env : Env) (db : Db) :
    Cleared db (purgeExpiredSessions env db).1 (swept env (expiredSessions env db)) := by
  refine purgeSessions_cleared fun x hx s hs hid => ?_
  exact db.sessions.eq_of_key_eq hs (List.mem_of_mem_filter hx) hid

/-- A case and a consent for a tenant that is there. -/
structure Seeded (db db' : Db) (tenantId : Uuid) : Prop where
  tenants : db'.tenants = db.tenants
  sessions : db'.sessions = db.sessions
  data : ∀ t, HoldsData db' t → t = tenantId ∨ HoldsData db t

theorem seedCase_ok {db db' : Db} {env : Env} {tenantId : Uuid}
    {scenario : CreateGuestSandboxSessionDto} {loanCase : Cases.LoanCase}
    (h : seedCase db env tenantId scenario = .ok (db', loanCase)) : Seeded db db' tenantId := by
  unfold seedCase at h
  obtain ⟨seeded, hseeded, h⟩ := ok_of_bind_ok h
  have htenant : seeded.tenantId = tenantId := by
    unfold seededCase at hseeded
    obtain ⟨_, -, hseeded⟩ := ok_of_bind_ok hseeded
    obtain ⟨_, -, hseeded⟩ := ok_of_bind_ok hseeded
    cases hseeded
    rfl
  split at h
  · split at h
    · next loanCases consents hcases hconsents =>
      cases h
      refine ⟨rfl, rfl, ?_⟩
      rintro t (hrow | ⟨c, hc, rfl⟩ | ⟨c, hc, rfl⟩)
      · exact Or.inr (Or.inl hrow)
      · rw [(LoanCases.rows_of_insert hcases).1, List.mem_append] at hc
        rcases hc with hc | hc
        · exact Or.inr (Or.inr (Or.inl ⟨c, hc, rfl⟩))
        · rw [List.mem_singleton.mp hc]
          exact Or.inl htenant
      · rw [Table.rows_of_insert hconsents, List.mem_append] at hc
        rcases hc with hc | hc
        · exact Or.inr (Or.inr (Or.inr ⟨c, hc, rfl⟩))
        · rw [List.mem_singleton.mp hc]
          exact Or.inl rfl
    · cases h
  · cases h

/-- A tenant that was not there, with its session. -/
structure Created (db db' : Db) (tenantId : Uuid) : Prop where
  fresh : ∀ t ∈ db.tenants.rows, t.id ≠ tenantId
  tenants : ∃ t, t.id = tenantId ∧ db'.tenants.rows = db.tenants.rows ++ [t]
  sessions : ∃ session, session.tenantId = tenantId ∧ db'.sessions.rows = db.sessions.rows ++ [session]
  data : ∀ t, HoldsData db' t → t = tenantId ∨ HoldsData db t

theorem createTenant_ok {deps : Deps} {db db' : Db} {env : Env}
    {scenario : CreateGuestSandboxSessionDto} {loanCase : Cases.LoanCase}
    (h : createTenant deps db env scenario = .ok (db', loanCase)) : Created db db' env.tenantId := by
  unfold createTenant at h
  split at h
  · cases h
  next tenants htenants =>
  obtain ⟨⟨seededDb, seeded⟩, hseed, h⟩ := ok_of_bind_ok h
  obtain ⟨withSession, hinsert, h⟩ := ok_of_bind_ok h
  cases h
  have hseeded := seedCase_ok hseed
  unfold insertSession at hinsert
  split at hinsert
  · cases hinsert
  split at hinsert
  · cases hinsert
  next sessions hsessions =>
  cases hinsert
  refine ⟨Table.key_fresh_of_insert htenants, ?_, ?_, ?_⟩
  · have hrows := Table.rows_of_insert htenants
    refine ⟨_, ?_, (congrArg Table.rows hseeded.tenants).trans hrows⟩
    rfl
  · refine ⟨newSession deps env env.tenantId, rfl, ?_⟩
    show sessions.rows = _
    rw [Table.rows_of_insert hsessions, hseeded.sessions]
  · intro t hdata
    rcases hseeded.data t hdata with hsame | ⟨row, hrow, hid⟩ | hrest
    · exact Or.inl hsame
    · have hmem : row ∈ tenants.rows := hrow
      rw [Table.rows_of_insert htenants, List.mem_append] at hmem
      rcases hmem with hold | hnew
      · exact Or.inr (Or.inl ⟨row, hold, hid⟩)
      · rw [List.mem_singleton.mp hnew] at hid
        exact Or.inl hid.symm
    · exact Or.inr (Or.inr hrest)

/-! ## The invariants -/

/-- A session is the only one of its tenant, and the tenant is there. -/
structure SandboxInv (s : System) : Prop where
  tenant : ∀ session ∈ s.db.sessions.rows,
    session.tenantId ∈ s.sandboxTenants ∧ ∃ t ∈ s.db.tenants.rows, t.id = session.tenantId
  alone : (s.db.sessions.rows.map (·.tenantId)).Nodup

section Steps

variable {deps : Deps} {s : System}

theorem SandboxInv.cleared (h : SandboxInv s) {db : Db} {purged : List Uuid}
    (hcleared : Cleared s.db db purged) : SandboxInv { s with db } where
  tenant := by
    intro session hsession
    have hmem : session ∈ db.sessions.rows := hsession
    rw [hcleared.sessions, List.mem_filter] at hmem
    obtain ⟨hmade, t, ht, hid⟩ := h.tenant session hmem.1
    refine ⟨hmade, t, ?_, hid⟩
    show t ∈ db.tenants.rows
    rw [hcleared.tenants, List.mem_filter, hid]
    exact ⟨ht, hmem.2⟩
  alone := by
    show (db.sessions.rows.map _).Nodup
    rw [hcleared.sessions]
    exact h.alone.sublist (List.Sublist.map _ List.filter_sublist)

theorem SandboxInv.same (h : SandboxInv s) {db : Db} (hsame : SameTenants s.db db) :
    SandboxInv { s with db } where
  tenant := by
    intro session hsession
    have hmap : session.tenantId ∈ db.sessions.rows.map (·.tenantId) := List.mem_map_of_mem hsession
    rw [hsame.sessions] at hmap
    obtain ⟨old, hold, htenant⟩ := List.mem_map.mp hmap
    obtain ⟨hmade, t, ht, hid⟩ := h.tenant old hold
    refine ⟨htenant ▸ hmade, t, ?_, hid.trans htenant⟩
    show t ∈ db.tenants.rows
    rw [hsame.tenants]
    exact ht
  alone := by
    show (db.sessions.rows.map _).Nodup
    rw [hsame.sessions]
    exact h.alone

theorem SandboxInv.created (h : SandboxInv s) {db : Db} {tenantId : Uuid}
    (hcreated : Created s.db db tenantId) :
    SandboxInv { db, sandboxTenants := s.sandboxTenants ++ [tenantId] } := by
  obtain ⟨t, ht, htenants⟩ := hcreated.tenants
  obtain ⟨new, hnew, hsessions⟩ := hcreated.sessions
  constructor
  · intro session hsession
    have hmem : session ∈ db.sessions.rows := hsession
    rw [hsessions, List.mem_append] at hmem
    show session.tenantId ∈ s.sandboxTenants ++ [tenantId]
      ∧ ∃ t ∈ db.tenants.rows, t.id = session.tenantId
    rw [htenants]
    rcases hmem with hold | hlast
    · obtain ⟨hmade, t', ht', hid⟩ := h.tenant session hold
      exact ⟨List.mem_append_left _ hmade, t', List.mem_append_left _ ht', hid⟩
    · rw [List.mem_singleton.mp hlast, hnew]
      exact ⟨by simp, t, by simp, ht⟩
  · show (db.sessions.rows.map _).Nodup
    rw [hsessions, List.map_append, List.nodup_append]
    refine ⟨h.alone, by simp, ?_⟩
    rintro a ha b hb rfl
    obtain ⟨session, hsession, rfl⟩ := List.mem_map.mp ha
    obtain ⟨-, t', ht', hid⟩ := h.tenant session hsession
    have hsame : session.tenantId = tenantId := by simpa [hnew] using hb
    exact hcreated.fresh t' ht' (hid.trans hsame)

theorem SandboxInv.seeded (h : SandboxInv s) {db : Db} {tenantId : Uuid}
    (hseeded : Seeded s.db db tenantId) : SandboxInv { s with db } where
  tenant := by
    intro session hsession
    have hmem : session ∈ db.sessions.rows := hsession
    rw [hseeded.sessions] at hmem
    show _ ∧ ∃ t ∈ db.tenants.rows, t.id = session.tenantId
    rw [hseeded.tenants]
    exact h.tenant session hmem
  alone := by
    show (db.sessions.rows.map _).Nodup
    rw [hseeded.sessions]
    exact h.alone

theorem SandboxInv.signedOut (h : SandboxInv s) (id : Uuid) :
    SandboxInv { s with db := deleteSession s.db id } where
  tenant := fun session hsession => h.tenant session (List.mem_of_mem_filter hsession)
  alone := h.alone.sublist (List.Sublist.map _ List.filter_sublist)

/-- The calls write in five ways; a logout that is not admitted writes nothing. -/
theorem step_ways (deps : Deps) (s : System) (a : Label) :
    (∃ db, step deps s a = { s with db } ∧ SameTenants s.db db)
      ∨ (∃ db purged, step deps s a = { s with db } ∧ Cleared s.db db purged)
      ∨ (∃ db purged db' tenantId, Cleared s.db db purged ∧ Created db db' tenantId
        ∧ step deps s a = { db := db', sandboxTenants := s.sandboxTenants ++ [tenantId] })
      ∨ (∃ db session, session ∈ s.db.sessions.rows ∧ Seeded s.db db session.tenantId
        ∧ step deps s a = { s with db })
      ∨ ∃ session, session ∈ s.db.sessions.rows ∧ ¬ NoLogout deps s a
        ∧ step deps s a = { s with db := deleteSession s.db session.id } := by
  cases a with
  | create env scenario =>
    have hcleared := purgeExpiredSessions_cleared env s.db
    simp only [step, create]
    generalize swept env (expiredSessions env s.db) = purged at hcleared
    generalize purgeExpiredSessions env s.db = result at hcleared
    obtain ⟨db, outcome⟩ := result
    cases outcome with
    | error e => exact Or.inr (Or.inl ⟨db, purged, rfl, hcleared⟩)
    | ok n =>
      cases hcreate : createTenant deps db env scenario with
      | error e =>
        refine Or.inr (Or.inl ⟨db, purged, ?_, hcleared⟩)
        simp only [hcreate]
      | ok made =>
        refine Or.inr (Or.inr (Or.inl ⟨db, purged, made.1, env.tenantId, hcleared,
          createTenant_ok hcreate, ?_⟩))
        simp only [hcreate]
  | getSession env request =>
    refine Or.inl ⟨_, rfl, ?_⟩
    unfold getSession
    split
    · next hresolve => exact resolve_false hresolve
    · exact .refl _
    · exact .refl _
  | authenticate env request requireCsrf =>
    refine Or.inl ⟨_, rfl, ?_⟩
    unfold authenticate
    split
    · exact .refl _
    · next hresolve =>
      cases requireCsrf with
      | false => exact resolve_false hresolve
      | true =>
        rcases resolve_true deps s.db env request with
          ⟨session, csrfToken, -, -, hok⟩ | ⟨-, e, herror⟩
        · rw [hok] at hresolve
          cases hresolve
          exact .refl _
        · rw [herror] at hresolve
          cases hresolve
  | logout env request =>
    simp only [step, logout]
    rcases resolve_true deps s.db env request with
      ⟨session, csrfToken, hmem, hadmitted, hok⟩ | ⟨-, e, herror⟩
    · rw [hok]
      exact Or.inr (Or.inr (Or.inr (Or.inr ⟨session, hmem, fun hno => hno hadmitted, rfl⟩)))
    · rw [herror]
      exact Or.inl ⟨s.db, rfl, .refl _⟩
  | createAdditionalCase env request scenario =>
    simp only [step, createAdditionalCase, authenticate]
    rcases resolve_true deps s.db env request with
      ⟨session, csrfToken, hmem, -, hok⟩ | ⟨-, e, herror⟩
    · rw [hok]
      simp only
      cases hseed : seedCase s.db env session.tenantId scenario with
      | error e => exact Or.inl ⟨s.db, rfl, .refl _⟩
      | ok made =>
        exact Or.inr (Or.inr (Or.inr (Or.inl ⟨made.1, session, hmem, seedCase_ok hseed, rfl⟩)))
    · rw [herror]
      exact Or.inl ⟨s.db, rfl, .refl _⟩
  | purgeExpiredSessions env =>
    exact Or.inr (Or.inl ⟨_, _, rfl, purgeExpiredSessions_cleared env s.db⟩)

theorem SandboxInv.step (h : SandboxInv s) (a : Label) : SandboxInv (step deps s a) := by
  rcases step_ways deps s a with ⟨db, heq, hsame⟩ | ⟨db, purged, heq, hcleared⟩ |
    ⟨db, purged, db', tenantId, hcleared, hcreated, heq⟩ | ⟨db, session, hmem, hseeded, heq⟩ |
    ⟨session, hmem, -, heq⟩
  · rw [heq]
    exact h.same hsame
  · rw [heq]
    exact h.cleared hcleared
  · rw [heq]
    exact (h.cleared hcleared).created hcreated
  · rw [heq]
    exact h.seeded hseeded
  · rw [heq]
    exact h.signedOut session.id

/-- Every step but an admitted logout keeps the tenants within reach of the cleanup. -/
theorem tenantsReferenced_step (h : TenantsReferenced s) {a : Label} (hno : NoLogout deps s a) :
    TenantsReferenced (step deps s a) := by
  rcases step_ways deps s a with ⟨db, heq, hsame⟩ | ⟨db, purged, heq, hcleared⟩ |
    ⟨db, purged, db', tenantId, hcleared, hcreated, heq⟩ | ⟨db, session, hmem, hseeded, heq⟩ |
    ⟨session, hmem, hlogout, heq⟩
  · rw [heq]
    intro t ht hdata
    have hdata' : HoldsData s.db t := by
      simpa only [HoldsData, hsame.tenants, hsame.loanCases, hsame.consents] using hdata
    obtain ⟨session, hsession, htenant⟩ := h t ht hdata'
    have hmap : t ∈ db.sessions.rows.map (·.tenantId) := by
      rw [hsame.sessions, ← htenant]
      exact List.mem_map_of_mem hsession
    exact List.mem_map.mp hmap
  · rw [heq]
    intro t ht
    exact hcleared.referenced (h t ht)
  · rw [heq]
    intro t ht hdata
    obtain ⟨new, hnew, hsessions⟩ := hcreated.sessions
    show ∃ session ∈ db'.sessions.rows, session.tenantId = t
    rw [hsessions]
    rcases List.mem_append.mp ht with hold | hlast
    · rcases hcreated.data t hdata with rfl | hdata
      · exact ⟨new, by simp, hnew⟩
      · obtain ⟨session, hsession, htenant⟩ := hcleared.referenced (h t hold) hdata
        exact ⟨session, List.mem_append_left _ hsession, htenant⟩
    · rw [List.mem_singleton.mp hlast]
      exact ⟨new, by simp, hnew⟩
  · rw [heq]
    intro t ht hdata
    show ∃ session ∈ db.sessions.rows, session.tenantId = t
    rw [hseeded.sessions]
    rcases hseeded.data t hdata with rfl | hdata
    · exact ⟨session, hmem, rfl⟩
    · exact h t ht hdata
  · exact absurd hno hlogout

/-- **An admitted logout loses its tenant.** -/
theorem not_tenantsReferenced_of_logout (h : SandboxInv s) {a : Label}
    (hlogout : ¬ NoLogout deps s a) : ¬ TenantsReferenced (step deps s a) := by
  cases a with
  | logout env request =>
    intro href
    have hadmitted : Admitted deps s.db env.now request := not_not.mp hlogout
    rcases resolve_true deps s.db env request with
      ⟨session, csrfToken, hmem, -, hok⟩ | ⟨hnot, -⟩
    · have hstep : Sandbox.step deps s (.logout env request)
          = { s with db := deleteSession s.db session.id } := by
        simp only [Sandbox.step, logout, hok]
      rw [hstep] at href
      obtain ⟨hmade, hrow⟩ := h.tenant session hmem
      obtain ⟨other, hother, htenant⟩ := href session.tenantId hmade (Or.inl hrow)
      obtain ⟨hold, hid⟩ := List.mem_filter.mp hother
      have hsame : other = session := List.inj_on_of_nodup_map h.alone hold hmem htenant
      rw [hsame] at hid
      simp at hid
    · exact hnot hadmitted
  | _ => exact absurd trivial hlogout

end Steps

theorem sandboxInv_init (tenants : Table Tenant Tenant.id) (jurisdictions : List String)
    (loanCases : LoanCases) (consents : Table ConsentRecord ConsentRecord.id) :
    SandboxInv (.init tenants jurisdictions loanCases consents) where
  tenant := by
    intro session hsession
    cases hsession
  alone := List.nodup_nil

/-- **Cleanup reaches every sandbox tenant** throughout a run exactly if no logout of the run is
admitted: then, and only then, every sandbox tenant that holds data has a session row after every
part of the run. -/
theorem tenants_referenced_iff (deps : Deps) (tenants : Table Tenant Tenant.id)
    (jurisdictions : List String) (loanCases : LoanCases)
    (consents : Table ConsentRecord ConsentRecord.id) (run : List Label) :
    (∀ before after, run = before ++ after → TenantsReferenced
        (exec (step deps) (.init tenants jurisdictions loanCases consents) before))
      ↔ AllSteps (step deps) (NoLogout deps) (.init tenants jurisdictions loanCases consents) run := by
  constructor
  · intro h
    by_contra hnot
    obtain ⟨before, a, after, rfl, hlogout⟩ := exists_step_of_not_allSteps hnot
    have hinv : SandboxInv (exec (step deps) (.init tenants jurisdictions loanCases consents) before) :=
      exec_inv (fun _ a h => h.step a) (sandboxInv_init ..) before
    refine not_tenantsReferenced_of_logout hinv hlogout ?_
    have href := h (before ++ [a]) after (by simp)
    rwa [exec_append] at href
  · rintro hno before after rfl
    have hinit : TenantsReferenced (.init tenants jurisdictions loanCases consents) := by
      intro t ht
      cases ht
    exact exec_inv_of_allSteps (G := NoLogout deps) (fun _ _ h hs => tenantsReferenced_step h hs)
      hinit hno.of_append_left

/-! ### A visit that ends with a logout -/

def sampleDeps : Deps where
  sha256 := Bytes.utf8

def sampleEnv (now : Instant) : Env where
  now
  tenantId := 1
  caseId := 2
  consentId := 3
  sessionId := 4
  actorId := 5
  newText := "0d6c1c62"
  sessionToken := "session"
  csrfToken := "csrf"
  purgeFails := fun _ => false

def visitor : Request where
  cookie := fun name =>
    if name = GUEST_SANDBOX_COOKIE then some "session"
    else if name = GUEST_SANDBOX_CSRF_COOKIE then some "csrf"
    else none
  csrfHeader := some "csrf"

/-- **The tenant stays, and no session leads to it.** -/
theorem logout_loses_tenant :
    ¬ ∀ (deps : Deps) (tenants : Table Tenant Tenant.id) (jurisdictions : List String)
      (loanCases : LoanCases) (consents : Table ConsentRecord ConsentRecord.id) (run : List Label),
      TenantsReferenced (exec (step deps) (.init tenants jurisdictions loanCases consents) run) := by
  intro h
  have href := h sampleDeps .empty ["US-CA"] ⟨.empty, List.nodup_nil⟩ .empty
    [.create (sampleEnv 0) {}, .logout (sampleEnv 1000) visitor]
  have hmade : 1 ∈ (exec (step sampleDeps) (.init .empty ["US-CA"] ⟨.empty, List.nodup_nil⟩ .empty)
      [.create (sampleEnv 0) {}, .logout (sampleEnv 1000) visitor]).sandboxTenants := by
    decide +kernel
  have htenant : ((exec (step sampleDeps)
      (.init .empty ["US-CA"] ⟨.empty, List.nodup_nil⟩ .empty)
      [.create (sampleEnv 0) {}, .logout (sampleEnv 1000) visitor]).db.tenants.rows.any
        fun t => t.id = 1) = true := by decide +kernel
  have hsessions : (exec (step sampleDeps) (.init .empty ["US-CA"] ⟨.empty, List.nodup_nil⟩ .empty)
      [.create (sampleEnv 0) {}, .logout (sampleEnv 1000) visitor]).db.sessions.rows = [] := by
    decide +kernel
  obtain ⟨t, ht, hid⟩ := List.any_eq_true.mp htenant
  obtain ⟨session, hsession, -⟩ := href 1 hmade (Or.inl ⟨t, ht, of_decide_eq_true hid⟩)
  rw [hsessions] at hsession
  cases hsession

end MortgageAgent.Auth.Sandbox
