import Mathlib.Data.List.Count
import MortgageAgent.Cases.CreateCase

/-!
# A case is created once

A call returns the case it has inserted, or the one it finds under its key. The unique constraint
lets one insertion through, and its event commits with it; the consent follows in a transaction
that only the inserting call ever sends.

* **`ReturnsCreated`** — a call that has returned left one case, one event and one consent.
* **`FindsGranted`** — a call that finds its case there finds it with its consent.
* **`CreateInv`** — events and consents per case; the calls that have still to grant.
* **`created_once_iff`** — in every run the one holds exactly when the other does.
* **`retry_returns_without_consent`** — a retry after a crash between the two transactions.
-/

namespace MortgageAgent.Cases

open Runs
open Outbox

/-! ## The promise and its condition -/

def announces (c : LoanCase) (e : OutboxEvent) : Bool :=
  e.tenantId = c.tenantId && e.caseId = c.id && e.eventType = loanCaseCreated

def ConsentRecord.grants (r : ConsentRecord) (c : LoanCase) : Bool :=
  r.tenantId = c.tenantId && r.caseId = c.id && r.revokedAt.isNone

def CasesDb.eventCount (db : CasesDb) (c : LoanCase) : Nat :=
  db.outbox.rows.countP (announces c)

def CasesDb.consentCount (db : CasesDb) (c : LoanCase) : Nat :=
  db.consents.rows.countP fun r => r.grants c

/-- What one uninterrupted call leaves: one case under the key, one event and one consent. -/
def CasesDb.Created (db : CasesDb) (call : CreateCaseCall) (loanCase : LoanCase) : Prop :=
  (db.loanCases.table.rows.filter fun c => c.key = (call.tenantId, call.idempotencyKey))
      = [loanCase]
    ∧ db.eventCount loanCase = 1 ∧ db.consentCount loanCase = 1

/-- Every call that has returned left what an uninterrupted one leaves. -/
def ReturnsCreated (s : CreateSystem) : Prop :=
  ∀ c call loanCase, s.calls c = .returned call loanCase → s.db.Created call loanCase

/-- The call is about to look its case up. -/
def CreateCaseState.looksUp : CreateCaseState → Option CreateCaseCall
  | .findExisting call | .recover call => some call
  | _ => none

/-- A call that finds its case there finds it with its consent: the call that inserted the case
has also committed the grant. -/
def FindsGranted (s : CreateSystem) (a : CreateLabel) : Prop :=
  ∀ c env call, a = .run c env → (s.calls c).looksUp = some call →
    ∀ loanCase, s.db.loanCases.findByKey call.tenantId call.idempotencyKey = some loanCase →
      s.db.consentCount loanCase ≠ 0

/-! ## Counting events and consents -/

/-- The tables count right: one event for a case, at most one consent, and neither without a
case. -/
structure CasesDb.Sound (db : CasesDb) : Prop where
  events : ∀ c ∈ db.loanCases.table.rows, db.eventCount c = 1
  consents : ∀ c ∈ db.loanCases.table.rows, db.consentCount c ≤ 1
  eventRefs : ∀ e ∈ db.outbox.rows, ∃ c ∈ db.loanCases.table.rows, c.id = e.caseId
  consentRefs : ∀ r ∈ db.consents.rows, ∃ c ∈ db.loanCases.table.rows, c.id = r.caseId

section Writes

variable {signer : Signer} {db db' : CasesDb} {env : Env} {call : CreateCaseCall}
  {created c : LoanCase}

theorem Inserted.eventCount_old (h : Inserted signer db db' env call created)
    (hc : c ∈ db.loanCases.table.rows) : db'.eventCount c = db.eventCount c := by
  have hother : announces c ((call.createdEvent created.id).event signer env.eventId) = false := by
    simp [announces, OutboxEventInput.event, CreateCaseCall.createdEvent, Ne.symm (h.freshId c hc)]
  simp [CasesDb.eventCount, h.outbox, List.countP_append, hother]

theorem Inserted.eventCount_new (h : Inserted signer db db' env call created) (hdb : db.Sound) :
    db'.eventCount created = 1 := by
  have hold : db.outbox.rows.countP (announces created) = 0 := by
    rw [List.countP_eq_zero]
    intro e he hannounces
    obtain ⟨c, hc, hid⟩ := hdb.eventRefs e he
    simp only [announces, Bool.and_eq_true, decide_eq_true_eq] at hannounces
    exact h.freshId c hc (hid.trans hannounces.1.2)
  have htenant : created.tenantId = call.tenantId := congrArg Prod.fst h.key
  have hnew : announces created ((call.createdEvent created.id).event signer env.eventId) = true := by
    simp [announces, OutboxEventInput.event, CreateCaseCall.createdEvent, htenant]
  simp [CasesDb.eventCount, h.outbox, List.countP_append, hold, hnew]

theorem Inserted.consentCount (h : Inserted signer db db' env call created) :
    db'.consentCount c = db.consentCount c := by
  rw [CasesDb.consentCount, CasesDb.consentCount, h.consents]

theorem Inserted.consentCount_new (h : Inserted signer db db' env call created) (hdb : db.Sound) :
    db'.consentCount created = 0 := by
  rw [h.consentCount, CasesDb.consentCount, List.countP_eq_zero]
  intro r hr hgrants
  obtain ⟨c, hc, hid⟩ := hdb.consentRefs r hr
  simp only [ConsentRecord.grants, Bool.and_eq_true, decide_eq_true_eq] at hgrants
  exact h.freshId c hc (hid.trans hgrants.1.2)

theorem Inserted.sound (h : Inserted signer db db' env call created) (hdb : db.Sound) : db'.Sound where
  events := by
    intro c hc
    rw [h.cases] at hc
    rcases List.mem_append.mp hc with hc | hc
    · rw [h.eventCount_old hc]
      exact hdb.events c hc
    · rw [List.mem_singleton.mp hc]
      exact h.eventCount_new hdb
  consents := by
    intro c hc
    rw [h.cases] at hc
    rcases List.mem_append.mp hc with hc | hc
    · rw [h.consentCount]
      exact hdb.consents c hc
    · rw [List.mem_singleton.mp hc, h.consentCount_new hdb]
      exact Nat.zero_le 1
  eventRefs := by
    intro e he
    rw [h.cases]
    rw [h.outbox] at he
    rcases List.mem_append.mp he with he | he
    · obtain ⟨c, hc, hid⟩ := hdb.eventRefs e he
      exact ⟨c, List.mem_append_left _ hc, hid⟩
    · rw [List.mem_singleton.mp he]
      exact ⟨created, List.mem_append_right _ (List.mem_singleton.mpr rfl), rfl⟩
  consentRefs := by
    intro r hr
    rw [h.cases]
    rw [h.consents] at hr
    obtain ⟨c, hc, hid⟩ := hdb.consentRefs r hr
    exact ⟨c, List.mem_append_left _ hc, hid⟩

/-- What a call has left is left alone by the insertion of another case. -/
theorem Inserted.keeps (h : Inserted signer db db' env call created) {call' : CreateCaseCall}
    (hc : db.Created call' c) : db'.Created call' c := by
  obtain ⟨hone, hevent, hconsent⟩ := hc
  have hmem : c ∈ db.loanCases.table.rows ∧ c.key = (call'.tenantId, call'.idempotencyKey) := by
    have hin := List.mem_singleton.mpr (rfl : c = c)
    rw [← hone, List.mem_filter] at hin
    simpa using hin
  have hother : created.key ≠ (call'.tenantId, call'.idempotencyKey) := by
    rw [← hmem.2]
    exact (h.freshKey c hmem.1).symm
  refine ⟨?_, ?_, ?_⟩
  · rw [h.cases, List.filter_append, hone]
    simp [hother]
  · rw [h.eventCount_old hmem.1]
    exact hevent
  · rw [h.consentCount]
    exact hconsent

/-- The transaction that grants the consent of a case. -/
structure Granted (db db' : CasesDb) (env : Env) (tenantId caseId : Uuid) : Prop where
  cases : db'.loanCases = db.loanCases
  outbox : db'.outbox = db.outbox
  consents : db'.consents.rows = db.consents.rows ++ [defaultConsent env tenantId caseId]

theorem grantForCase_ok {tenantId caseId : Uuid}
    (h : grantForCase db env tenantId caseId = .ok db') : Granted db db' env tenantId caseId := by
  unfold grantForCase at h
  split at h
  · cases h
  next consents hinsert =>
  cases h
  exact ⟨rfl, rfl, Table.rows_of_insert hinsert⟩

theorem Granted.eventCount {tenantId caseId : Uuid} (h : Granted db db' env tenantId caseId) :
    db'.eventCount c = db.eventCount c := by
  rw [CasesDb.eventCount, CasesDb.eventCount, h.outbox]

theorem Granted.consentCount {tenantId caseId : Uuid} (h : Granted db db' env tenantId caseId) :
    db'.consentCount c
      = db.consentCount c + if c.tenantId = tenantId ∧ c.id = caseId then 1 else 0 := by
  have hlast : (defaultConsent env tenantId caseId).grants c = true
      ↔ c.tenantId = tenantId ∧ c.id = caseId := by
    constructor
    · intro hgrants
      rw [ConsentRecord.grants, Bool.and_eq_true, Bool.and_eq_true] at hgrants
      obtain ⟨⟨htenant, hid⟩, -⟩ := hgrants
      exact ⟨(of_decide_eq_true htenant).symm, (of_decide_eq_true hid).symm⟩
    · rintro ⟨rfl, rfl⟩
      simp [ConsentRecord.grants, defaultConsent]
  simp only [CasesDb.consentCount, h.consents, List.countP_append, List.countP_singleton, hlast]

theorem Granted.sound (h : Granted db db' env c.tenantId c.id) (hdb : db.Sound)
    (hc : c ∈ db.loanCases.table.rows) (hnone : db.consentCount c = 0) : db'.Sound where
  events := by
    intro x hx
    rw [h.cases] at hx
    rw [h.eventCount]
    exact hdb.events x hx
  consents := by
    intro x hx
    rw [h.cases] at hx
    rw [h.consentCount]
    split
    · next hsame =>
      obtain rfl : x = c := db.loanCases.table.eq_of_key_eq hx hc hsame.2
      omega
    · exact hdb.consents x hx
  eventRefs := by
    rw [h.outbox, h.cases]
    exact hdb.eventRefs
  consentRefs := by
    intro r hr
    rw [h.cases]
    rw [h.consents] at hr
    rcases List.mem_append.mp hr with hr | hr
    · exact hdb.consentRefs r hr
    · rw [List.mem_singleton.mp hr]
      exact ⟨c, hc, rfl⟩

/-- What another call has left is left alone: its case has its consent already. -/
theorem Granted.keeps (h : Granted db db' env c.tenantId c.id) (hnone : db.consentCount c = 0)
    {call' : CreateCaseCall} {x : LoanCase} (hx : db.Created call' x) : db'.Created call' x := by
  obtain ⟨hone, hevent, hconsent⟩ := hx
  refine ⟨?_, ?_, ?_⟩
  · rw [h.cases]
    exact hone
  · rw [h.eventCount]
    exact hevent
  · have hother : ¬ (x.tenantId = c.tenantId ∧ x.id = c.id) := by
      rintro ⟨htenant, hid⟩
      have hsame : db.consentCount x = db.consentCount c := by
        simp only [CasesDb.consentCount, ConsentRecord.grants, htenant, hid]
      rw [hsame, hnone] at hconsent
      cases hconsent
    rw [h.consentCount, if_neg hother]
    exact hconsent

end Writes

/-! ## The invariant of a run -/

structure CreateInv (s : CreateSystem) : Prop where
  db : s.db.Sound
  /-- a call that has still to grant is for a case of its key, and the case has no consent -/
  granting : ∀ k call c, s.calls k = .grant call c → c ∈ s.db.loanCases.table.rows
    ∧ c.key = (call.tenantId, call.idempotencyKey) ∧ s.db.consentCount c = 0
  granter : ∀ k k' call call' c, s.calls k = .grant call c → s.calls k' = .grant call' c → k = k'
  returned : ReturnsCreated s

theorem createInv_init (tenants : List Uuid) (jurisdictions : List String) :
    CreateInv (.init tenants jurisdictions) where
  db := by
    constructor
    all_goals
      intro x hx
      cases hx
  granting := by
    intro k call c hk
    cases hk
  granter := by
    intro k k' call call' c hk
    cases hk
  returned := by
    intro k call c hk
    cases hk

section Steps

variable {signer : Signer} {s : CreateSystem} {k : Nat} {env : Env}

theorem setCall_calls (s : CreateSystem) (k k' : Nat) (state : CreateCaseState) :
    (s.setCall k state).calls k' = if k' = k then state else s.calls k' := by
  simp only [CreateSystem.setCall, Function.update_apply]

/-- A call that writes nothing and moves to where it has nothing to grant. -/
theorem CreateInv.moved (h : CreateInv s) {state : CreateCaseState}
    (hgrant : ∀ call c, state ≠ .grant call c)
    (hreturned : ∀ call c, state = .returned call c → s.db.Created call c) :
    CreateInv (s.setCall k state) where
  db := h.db
  granting := by
    intro k' call c hk'
    rw [setCall_calls] at hk'
    split at hk'
    · exact absurd hk' (hgrant call c)
    · exact h.granting k' call c hk'
  granter := by
    intro k₁ k₂ call₁ call₂ c h₁ h₂
    rw [setCall_calls] at h₁ h₂
    split at h₁
    · exact absurd h₁ (hgrant call₁ c)
    split at h₂
    · exact absurd h₂ (hgrant call₂ c)
    exact h.granter k₁ k₂ call₁ call₂ c h₁ h₂
  returned := by
    intro k' call c hk'
    rw [setCall_calls] at hk'
    split at hk'
    · exact hreturned call c hk'
    · exact h.returned k' call c hk'

/-- The transaction that inserts a case commits; the call goes on to grant, or never learns. -/
theorem CreateInv.inserted (h : CreateInv s) {db' : CasesDb} {call : CreateCaseCall}
    {created : LoanCase} (hinserted : Inserted signer s.db db' env call created)
    {state : CreateCaseState}
    (hstate : state = .grant call created ∨ ∃ failure, state = .threw failure) :
    CreateInv ({ s with db := db' }.setCall k state) where
  db := hinserted.sound h.db
  granting := by
    intro k' call' c hk'
    rw [setCall_calls] at hk'
    show c ∈ db'.loanCases.table.rows ∧ _ ∧ db'.consentCount c = 0
    split at hk'
    · rcases hstate with rfl | ⟨failure, rfl⟩
      · cases hk'
        refine ⟨?_, hinserted.key, hinserted.consentCount_new h.db⟩
        rw [hinserted.cases]
        exact List.mem_append_right _ (List.mem_singleton.mpr rfl)
      · cases hk'
    · obtain ⟨hc, hkey, hnone⟩ := h.granting k' call' c hk'
      refine ⟨?_, hkey, ?_⟩
      · rw [hinserted.cases]
        exact List.mem_append_left _ hc
      · rw [hinserted.consentCount]
        exact hnone
  granter := by
    -- a case that another call has still to grant for was there before
    have hother : ∀ k' call' c, s.calls k' = .grant call' c → ∀ call'', state ≠ .grant call'' c := by
      intro k' call' c hk' call'' hnew
      rcases hstate with rfl | ⟨failure, rfl⟩
      · cases hnew
        obtain ⟨hc, -, -⟩ := h.granting k' call' created hk'
        exact hinserted.freshId created hc rfl
      · cases hnew
    intro k₁ k₂ call₁ call₂ c h₁ h₂
    rw [setCall_calls] at h₁ h₂
    split at h₁
    · next hk₁ =>
      split at h₂
      · next hk₂ => exact hk₁.trans hk₂.symm
      · exact absurd h₁ (hother k₂ call₂ c h₂ call₁)
    · split at h₂
      · exact absurd h₂ (hother k₁ call₁ c h₁ call₂)
      · exact h.granter k₁ k₂ call₁ call₂ c h₁ h₂
  returned := by
    intro k' call' c hk'
    rw [setCall_calls] at hk'
    split at hk'
    · rcases hstate with rfl | ⟨failure, rfl⟩ <;> cases hk'
    · exact hinserted.keeps (h.returned k' call' c hk')

/-- The transaction that grants a consent commits. -/
theorem CreateInv.granted (h : CreateInv s) {db' : CasesDb} {call : CreateCaseCall}
    {c : LoanCase} (hk : s.calls k = .grant call c)
    (hgranted : Granted s.db db' env call.tenantId c.id) {state : CreateCaseState}
    (hstate : state = .returned call c ∨ ∃ failure, state = .threw failure) :
    CreateInv ({ s with db := db' }.setCall k state) := by
  obtain ⟨hc, hkey, hnone⟩ := h.granting k call c hk
  have htenant : c.tenantId = call.tenantId := congrArg Prod.fst hkey
  rw [← htenant] at hgranted
  have hgrant : ∀ call' x, state ≠ .grant call' x := by
    rintro call' x rfl
    rcases hstate with hstate | ⟨failure, hstate⟩ <;> cases hstate
  refine ⟨hgranted.sound h.db hc hnone, ?_, ?_, ?_⟩
  · intro k' call' x hk'
    rw [setCall_calls] at hk'
    split at hk'
    · exact absurd hk' (hgrant call' x)
    next hne =>
    obtain ⟨hx, hxkey, hxnone⟩ := h.granting k' call' x hk'
    refine ⟨?_, hxkey, ?_⟩
    · show x ∈ db'.loanCases.table.rows
      rw [hgranted.cases]
      exact hx
    · show db'.consentCount x = 0
      -- no other call has still to grant for this case
      have hother : ¬ (x.tenantId = c.tenantId ∧ x.id = c.id) := by
        rintro ⟨-, hid⟩
        obtain rfl : x = c := s.db.loanCases.table.eq_of_key_eq hx hc hid
        exact hne (h.granter k' k call' call x hk' hk)
      rw [hgranted.consentCount, if_neg hother]
      exact hxnone
  · intro k₁ k₂ call₁ call₂ x h₁ h₂
    rw [setCall_calls] at h₁ h₂
    split at h₁
    · exact absurd h₁ (hgrant call₁ x)
    split at h₂
    · exact absurd h₂ (hgrant call₂ x)
    exact h.granter k₁ k₂ call₁ call₂ x h₁ h₂
  · intro k' call' x hk'
    rw [setCall_calls] at hk'
    split at hk'
    · rcases hstate with rfl | ⟨failure, rfl⟩
      · cases hk'
        refine ⟨?_, ?_, ?_⟩
        · show db'.loanCases.table.rows.filter _ = _
          rw [hgranted.cases, ← hkey]
          exact List.filter_eq_singleton_of_nodup_map s.db.loanCases.unique hc
        · show db'.eventCount c = 1
          rw [hgranted.eventCount]
          exact h.db.events c hc
        · show db'.consentCount c = 1
          rw [hgranted.consentCount, if_pos ⟨rfl, rfl⟩, hnone]
      · cases hk'
    · exact hgranted.keeps hnone (h.returned k' call' x hk')

/-- A call that finds its case there, with its consent, has all that a call leaves. -/
theorem CreateInv.found (h : CreateInv s) {call : CreateCaseCall} {c : LoanCase}
    (hfind : s.db.loanCases.findByKey call.tenantId call.idempotencyKey = some c)
    (hgranted : s.db.consentCount c ≠ 0) : s.db.Created call c := by
  have hmem : c ∈ s.db.loanCases.table.rows := List.mem_of_find?_eq_some hfind
  have hle := h.db.consents c hmem
  exact ⟨LoanCases.findByKey_eq_some hfind, h.db.events c hmem, by omega⟩

theorem cutOff_eq (state : CreateCaseState) (failure : CreateCaseFailure) :
    state.cutOff failure = state ∨ state.cutOff failure = .threw failure := by
  unfold CreateCaseState.cutOff
  split
  · exact Or.inr rfl
  · exact Or.inl rfl

/-- A call that is cut off writes nothing more. -/
theorem CreateInv.cutOff (h : CreateInv s) (failure : CreateCaseFailure) :
    CreateInv (s.setCall k ((s.calls k).cutOff failure)) := by
  rcases cutOff_eq (s.calls k) failure with hsame | hthrew
  · have hput : s.setCall k (s.calls k) = s := by
      simp only [CreateSystem.setCall, Function.update_eq_self]
    rw [hsame, hput]
    exact h
  · rw [hthrew]
    exact h.moved (by intro call c hstate; cases hstate) (by intro call c hstate; cases hstate)

/-- What the next transaction of a call does. -/
inductive CreateCase (signer : Signer) (db : CasesDb) (env : Env) (state : CreateCaseState) :
    CasesDb × CreateCaseState → Prop where
  | moved (next : CreateCaseState) (hgrant : ∀ call c, next ≠ .grant call c)
      (hreturned : ∀ call c, next ≠ .returned call c) : CreateCase signer db env state (db, next)
  | found (call : CreateCaseCall) (c : LoanCase) (hlooks : state.looksUp = some call)
      (hfind : db.loanCases.findByKey call.tenantId call.idempotencyKey = some c) :
      CreateCase signer db env state (db, .returned call c)
  | inserted (db' : CasesDb) (call : CreateCaseCall) (created : LoanCase)
      (hstate : state = .create call) (hinserted : Inserted signer db db' env call created) :
      CreateCase signer db env state (db', .grant call created)
  | granted (db' : CasesDb) (call : CreateCaseCall) (c : LoanCase)
      (hstate : state = .grant call c) (hgranted : Granted db db' env call.tenantId c.id) :
      CreateCase signer db env state (db', .returned call c)
  | ended (hended : state.running = false) : CreateCase signer db env state (db, state)

theorem caught_ne (call : CreateCaseCall) (error : PgError) :
    (∀ call' c, caught call error ≠ .grant call' c)
      ∧ ∀ call' c, caught call error ≠ .returned call' c := by
  unfold caught
  split
  · constructor <;> (intro call' c h; cases h)
  · constructor <;> (intro call' c h; cases h)

theorem createCaseStep_case (signer : Signer) (db : CasesDb) (env : Env) (state : CreateCaseState) :
    CreateCase signer db env state (createCaseStep signer db env state) := by
  have hfree {next : CreateCaseState} (hgrant : ∀ call c, next ≠ .grant call c)
      (hreturned : ∀ call c, next ≠ .returned call c) :
      CreateCase signer db env state (db, next) := .moved next hgrant hreturned
  cases state with
  | idle => exact .ended rfl
  | returned call c => exact .ended rfl
  | threw failure => exact .ended rfl
  | findTenant call =>
    simp only [createCaseStep]
    split
    all_goals exact hfree (by intro _ _ h; cases h) (by intro _ _ h; cases h)
  | findJurisdiction call =>
    simp only [createCaseStep]
    split
    all_goals exact hfree (by intro _ _ h; cases h) (by intro _ _ h; cases h)
  | findExisting call =>
    simp only [createCaseStep]
    split
    · next existing hfind => exact .found call existing rfl hfind
    · exact hfree (by intro _ _ h; cases h) (by intro _ _ h; cases h)
  | create call =>
    simp only [createCaseStep]
    split
    · next db' created hinsert => exact .inserted db' call created rfl (insertCase_ok hinsert)
    · next e _ => exact hfree (caught_ne call e).1 (caught_ne call e).2
  | grant call c =>
    simp only [createCaseStep]
    split
    · next db' hgrant => exact .granted db' call c rfl (grantForCase_ok hgrant)
    · next e _ => exact hfree (caught_ne call e).1 (caught_ne call e).2
  | recover call =>
    simp only [createCaseStep]
    split
    · next c hfind => exact .found call c rfl hfind
    · exact hfree (by intro _ _ h; cases h) (by intro _ _ h; cases h)

/-- **One step**, when a call that finds its case finds it with its consent. -/
theorem CreateInv.step (h : CreateInv s) {a : CreateLabel} (hfinds : FindsGranted s a) :
    CreateInv (createStep signer s a) := by
  cases a with
  | start k call =>
    simp only [createStep]
    split
    · exact h.moved (by intro call c hstate; cases hstate) (by intro call c hstate; cases hstate)
    · exact h
  | run k env =>
    simp only [createStep]
    have hcase := createCaseStep_case signer s.db env (s.calls k)
    generalize createCaseStep signer s.db env (s.calls k) = move at hcase ⊢
    cases hcase with
    | moved next hgrant hreturned =>
      exact h.moved hgrant fun call c hstate => absurd hstate (hreturned call c)
    | found call c hlooks hfind =>
      refine h.moved (by intro call c hstate; cases hstate) fun call' c' hstate => ?_
      cases hstate
      exact h.found hfind (hfinds k env call rfl hlooks c hfind)
    | inserted db' call created hstate hinserted => exact h.inserted hinserted (Or.inl rfl)
    | granted db' call c hstate hgranted => exact h.granted hstate hgranted (Or.inl rfl)
    | ended hended =>
      have hput : s.setCall k (s.calls k) = s := by
        simp only [CreateSystem.setCall, Function.update_eq_self]
      show CreateInv (s.setCall k (s.calls k))
      rw [hput]
      exact h
  | lost k => exact h.cutOff .unavailable
  | unreported k env =>
    simp only [createStep]
    have hcase := createCaseStep_case signer s.db env (s.calls k)
    generalize createCaseStep signer s.db env (s.calls k) = move at hcase ⊢
    cases hcase with
    | moved next hgrant hreturned => exact h.cutOff .unavailable
    | found call c hlooks hfind => exact h.cutOff .unavailable
    | inserted db' call created hstate hinserted =>
      rw [hstate]
      exact h.inserted hinserted (Or.inr ⟨.unavailable, rfl⟩)
    | granted db' call c hstate hgranted =>
      have hcut : (s.calls k).cutOff .unavailable = .threw .unavailable := by
        rw [hstate]
        rfl
      rw [hcut]
      exact h.granted hstate hgranted (Or.inr ⟨.unavailable, rfl⟩)
    | ended hended => exact h.cutOff .unavailable
  | crash k => exact h.cutOff .stopped

/-- A call that finds its case returns it, and the state is as it was. -/
theorem findsGranted_of_returnsCreated {a : CreateLabel}
    (h : ReturnsCreated (createStep signer s a)) : FindsGranted s a := by
  rintro k env call rfl hlooks c hfind hnone
  have hstep : createCaseStep signer s.db env (s.calls k) = (s.db, .returned call c) := by
    revert hlooks
    cases s.calls k with
    | findExisting call' =>
      rintro ⟨⟩
      simp only [createCaseStep, hfind]
    | recover call' =>
      rintro ⟨⟩
      simp only [createCaseStep, hfind]
    | _ =>
      intro hlooks
      cases hlooks
  have hcreated := h k call c (by simp only [createStep, hstep, setCall_calls, if_true])
  obtain ⟨-, -, hone⟩ := hcreated
  have hsame : (createStep signer s (.run k env)).db = s.db := by
    simp only [createStep, hstep, CreateSystem.setCall]
  rw [hsame, hnone] at hone
  cases hone

end Steps

/-- **Created once.** In every run of any number of calls, with transactions rolled back or
unreported and processes dying anywhere, every call that returns leaves one case, one event and
one consent exactly when every call that finds its case finds it with its consent. -/
theorem created_once_iff (signer : Signer) (tenants : List Uuid) (jurisdictions : List String)
    (run : List CreateLabel) :
    AllSteps (createStep signer) (fun s a => ReturnsCreated (createStep signer s a))
        (.init tenants jurisdictions) run
      ↔ AllSteps (createStep signer) FindsGranted (.init tenants jurisdictions) run := by
  constructor
  · exact AllSteps.imp fun s a h => findsGranted_of_returnsCreated h
  · intro hfinds
    refine allSteps_of_inv_of_allSteps (I := CreateInv) (fun s a h hf => h.step hf)
      (fun s a h hf => (h.step hf).returned) (createInv_init tenants jurisdictions) hfinds

/-! ### A retry after a crash -/

def sampleSigner : Signer where
  hmacSha256 := fun _ _ => []

def sampleCall : CreateCaseCall where
  idempotencyKey := "application-1"
  tenantId := 1
  dto :=
    { borrowerId := "borrower-1"
      requestedAmount := .scaled 25 4
      loanType := .CONVENTIONAL
      statedMonthlyIncome := .scaled 5 3
      jurisdictionCode := "US-CA" }

def sampleEnv (n : Nat) : Env where
  now := 0
  caseId := n
  eventId := n + 1
  consentId := n + 2

/-- The process dies between the two transactions; the client calls again with the same key. -/
def retryAfterCrash : List CreateLabel :=
  [.start 0 sampleCall, .run 0 (sampleEnv 10), .run 0 (sampleEnv 10), .run 0 (sampleEnv 10),
    .run 0 (sampleEnv 10), .crash 0,
    .start 1 sampleCall, .run 1 (sampleEnv 20), .run 1 (sampleEnv 20), .run 1 (sampleEnv 20)]

/-- **The retry returns a case without a consent.** -/
theorem retry_returns_without_consent :
    ¬ ∀ (signer : Signer) (tenants : List Uuid) (jurisdictions : List String) (run : List CreateLabel),
      AllSteps (createStep signer) (fun s a => ReturnsCreated (createStep signer s a))
        (.init tenants jurisdictions) run := by
  intro h
  obtain ⟨-, -, -, -, -, -, -, -, -, hretry, -⟩ := h sampleSigner [1] ["US-CA"] retryAfterCrash
  obtain ⟨-, -, hconsent⟩ := hretry 1 sampleCall _ rfl
  revert hconsent
  decide

end MortgageAgent.Cases
