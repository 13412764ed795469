import Mathlib.Data.List.TakeWhile
import MortgageAgent.Auth.SandboxTenants

/-!
# One failing purge and the rest of the sweep

Each expired tenant is meant to be purged as a unit of its own. The loop has no place that catches,
so that the first purge that fails ends the sweep, and with it the `create` that began with one.

* **`SweepsOthers`** / **`CreateSurvives`** — what a failing purge must leave alone.
* **`sweepsOthers_iff`** — which sessions a sweep gets to.
* **`independent_iff`** — the units are independent exactly where none of them fails.
* **`exec_blocked`** — a tenant that never goes ends every sweep and every visit.
-/

namespace MortgageAgent.Auth.Sandbox

open Runs
open Cases (LoanCases ConsentRecord)

/-! ## The promise -/

/-- Every expired session whose own purge works is gone after the sweep, with its tenant's data. -/
def SweepsOthers (env : Env) (db : Db) : Prop :=
  ∀ s ∈ expiredSessions env db, env.purgeFails s.tenantId = false →
    (∀ r ∈ (purgeExpiredSessions env db).1.sessions.rows, r.id ≠ s.id)
      ∧ ¬ HoldsData (purgeExpiredSessions env db).1 s.tenantId

/-- Where `create` fails, it is its own transaction that does, on what the sweep has left. -/
def CreateSurvives (deps : Deps) (env : Env) (db : Db) (scenario : CreateGuestSandboxSessionDto) :
    Prop :=
  ∀ failure, (create deps db env scenario).2 = .error failure →
    ∃ e, failure = .database e
      ∧ createTenant deps (purgeExpiredSessions env db).1 env scenario = .error e

/-! ## The loop -/

variable {deps : Deps} {env : Env} {db : Db}

theorem purgeSessions_outcome (env : Env) (expired : List GuestSandboxSession) (db : Db) (n : Nat) :
    (purgeSessions env expired db n).2 =
      if expired.any fun s => env.purgeFails s.tenantId then .error .unavailable
      else .ok (n + expired.length) := by
  induction expired generalizing db n with
  | nil => rfl
  | cons session rest ih =>
    unfold purgeSessions
    by_cases hfails : env.purgeFails session.tenantId = true
    · simp [hfails]
    · rw [if_neg hfails, ih, List.any_cons, Bool.eq_false_of_not_eq_true hfails, Bool.false_or,
        List.length_cons, Nat.add_assoc, Nat.add_comm 1]

/-- The whole sweep fails where one purge does. -/
theorem purgeExpiredSessions_outcome (env : Env) (db : Db) :
    (purgeExpiredSessions env db).2 =
      if (expiredSessions env db).any fun s => env.purgeFails s.tenantId then .error .unavailable
      else .ok (expiredSessions env db).length := by
  have houtcome := purgeSessions_outcome env (expiredSessions env db) db 0
  rwa [Nat.zero_add] at houtcome

theorem Cleared.not_holdsData {db' : Db} {purged : List Uuid} (h : Cleared db db' purged)
    {tenantId : Uuid} (hpurged : tenantId ∈ purged) : ¬ HoldsData db' tenantId := by
  rintro (⟨t, ht, rfl⟩ | ⟨c, hc, rfl⟩ | ⟨c, hc, rfl⟩)
  · rw [h.tenants, List.mem_filter] at ht
    exact of_decide_eq_true ht.2 hpurged
  · rw [h.loanCases, List.mem_filter] at hc
    exact of_decide_eq_true hc.2 hpurged
  · rw [h.consents, List.mem_filter] at hc
    exact of_decide_eq_true hc.2 hpurged

/-- A sweep gets to the tenants before the first failing one, and to no other. -/
theorem sweepsOthers_iff :
    SweepsOthers env db ↔ ∀ s ∈ expiredSessions env db, env.purgeFails s.tenantId = false →
      s.tenantId ∈ swept env (expiredSessions env db) := by
  have hcleared := purgeExpiredSessions_cleared env db
  constructor
  · intro h s hs hworks
    by_contra hleft
    have hrow : s ∈ (purgeExpiredSessions env db).1.sessions.rows := by
      rw [hcleared.sessions, List.mem_filter]
      exact ⟨List.mem_of_mem_filter hs, decide_eq_true hleft⟩
    exact (h s hs hworks).1 s hrow rfl
  · intro h s hs hworks
    have hswept := h s hs hworks
    refine ⟨?_, hcleared.not_holdsData hswept⟩
    intro r hr hid
    rw [hcleared.sessions, List.mem_filter] at hr
    have hsame : r = s := db.sessions.eq_of_key_eq hr.1 (List.mem_of_mem_filter hs) hid
    exact of_decide_eq_true hr.2 (hsame ▸ hswept)

theorem create_of_error {failure : Failure} (scenario : CreateGuestSandboxSessionDto)
    (h : (purgeExpiredSessions env db).2 = .error failure) :
    create deps db env scenario = ((purgeExpiredSessions env db).1, .error failure) := by
  rw [create]
  generalize purgeExpiredSessions env db = sweep at h
  obtain ⟨db', outcome⟩ := sweep
  obtain rfl : outcome = .error failure := h
  rfl

theorem create_of_ok {n : Nat} (scenario : CreateGuestSandboxSessionDto)
    (h : (purgeExpiredSessions env db).2 = .ok n) {failure : Failure}
    (hfails : (create deps db env scenario).2 = .error failure) :
    ∃ e, failure = .database e
      ∧ createTenant deps (purgeExpiredSessions env db).1 env scenario = .error e := by
  rw [create] at hfails
  generalize purgeExpiredSessions env db = sweep at h hfails
  obtain ⟨db', outcome⟩ := sweep
  obtain rfl : outcome = .ok n := h
  cases hcreate : createTenant deps db' env scenario with
  | error e =>
    simp only [hcreate, Except.error.injEq] at hfails
    exact ⟨e, hfails.symm, rfl⟩
  | ok made => simp only [hcreate, reduceCtorEq] at hfails

theorem createSurvives_iff (scenario : CreateGuestSandboxSessionDto) :
    CreateSurvives deps env db scenario ↔
      ∀ s ∈ expiredSessions env db, env.purgeFails s.tenantId = false := by
  constructor
  · intro hsurvives s hs
    by_contra hfails
    have hany : (expiredSessions env db).any (fun s => env.purgeFails s.tenantId) = true :=
      List.any_eq_true.mpr ⟨s, hs, Bool.eq_true_of_not_eq_false hfails⟩
    have herror := purgeExpiredSessions_outcome env db
    rw [if_pos hany] at herror
    obtain ⟨e, he, -⟩ := hsurvives .unavailable (by rw [create_of_error scenario herror])
    cases he
  · intro hworks failure hfails
    have hok := purgeExpiredSessions_outcome env db
    rw [if_neg (by simpa using hworks)] at hok
    exact create_of_ok scenario hok hfails

/-- **Purges are independent exactly where none fails**, for any rows, in any order, and any
scenario of the visitor. -/
theorem independent_iff (deps : Deps) (env : Env) (db : Db)
    (scenario : CreateGuestSandboxSessionDto) :
    SweepsOthers env db ∧ CreateSurvives deps env db scenario ↔
      ∀ s ∈ expiredSessions env db, env.purgeFails s.tenantId = false := by
  constructor
  · intro h
    exact (createSurvives_iff scenario).mp h.2
  · intro h
    refine ⟨sweepsOthers_iff.mpr fun s hs _ => ?_, (createSurvives_iff scenario).mpr h⟩
    have hall : (expiredSessions env db).takeWhile (fun s => !env.purgeFails s.tenantId)
        = expiredSessions env db :=
      List.takeWhile_eq_self_iff.mpr fun s hs => by rw [h s hs]; rfl
    rw [swept, hall]
    exact List.mem_map_of_mem hs

/-! ## A tenant that never goes -/

/-- A sweep or a visit after the session has expired, in which its purge fails. -/
def FailsOn (session : GuestSandboxSession) : Label → Prop
  | .purgeExpiredSessions env | .create env _ =>
    session.expiresAt < env.now ∧ env.purgeFails session.tenantId = true
  | _ => False

theorem purgeExpiredSessions_blocked {session : GuestSandboxSession}
    (hfirst : db.sessions.rows.head? = some session) (hexpired : session.expiresAt < env.now)
    (hfails : env.purgeFails session.tenantId = true) :
    purgeExpiredSessions env db = (db, .error .unavailable) := by
  obtain ⟨rest, hrows⟩ := List.head?_eq_some_iff.mp hfirst
  have hkept : db.sessions.rows.filter (fun s => s.expiresAt < env.now) =
      session :: rest.filter (fun s => s.expiresAt < env.now) := by
    rw [hrows]
    exact List.filter_cons_of_pos (decide_eq_true hexpired)
  rw [purgeExpiredSessions, hkept, purgeSessions, if_pos hfails]

theorem step_blocked {s : System} {session : GuestSandboxSession} {a : Label}
    (hfirst : s.db.sessions.rows.head? = some session) (h : FailsOn session a) :
    step deps s a = s := by
  cases a with
  | purgeExpiredSessions env => rw [step, purgeExpiredSessions_blocked hfirst h.1 h.2]
  | create env scenario =>
    have hsweep := purgeExpiredSessions_blocked hfirst h.1 h.2
    simp only [step, create, hsweep]
  | getSession | authenticate | logout | createAdditionalCase => exact h.elim

/-- While the first purge fails, no sweep removes anything and no visitor gets a sandbox. -/
theorem exec_blocked {s : System} {session : GuestSandboxSession} {run : List Label}
    (hfirst : s.db.sessions.rows.head? = some session) (h : ∀ a ∈ run, FailsOn session a) :
    exec (step deps) s run = s := by
  induction run with
  | nil => rfl
  | cons a rest ih =>
    rw [exec_cons, step_blocked hfirst (h a (List.mem_cons_self ..))]
    exact ih fun b hb => h b (List.mem_cons_of_mem _ hb)

/-! ### Two expired sessions -/

def leftSession (n : Nat) : GuestSandboxSession where
  id := n
  sessionTokenHash := "session-" ++ toString n
  csrfTokenHash := "csrf-" ++ toString n
  tenantId := n
  actorId := n
  expiresAt := 0
  lastUsedAt := 0

def leftDb : Db where
  tenants := .empty
  jurisdictions := ["US-CA"]
  loanCases := .empty
  consents := .empty
  sessions := ⟨[leftSession 21, leftSession 22], by decide⟩

/-- The first fails, the second stays, and so does the visitor's call. -/
theorem first_failure_ends_sweep :
    ¬ SweepsOthers { sampleEnv 1000 with purgeFails := (· = 21) } leftDb
      ∧ ¬ CreateSurvives sampleDeps { sampleEnv 1000 with purgeFails := (· = 21) } leftDb {} := by
  constructor
  · intro h
    exact (h (leftSession 22) (by decide) (by decide)).1 (leftSession 22) (by decide) rfl
  · intro h
    obtain ⟨e, he, -⟩ := h .unavailable rfl
    cases he

end MortgageAgent.Auth.Sandbox
