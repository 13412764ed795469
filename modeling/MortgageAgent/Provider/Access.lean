import MortgageAgent.Provider.Simulation

/-!
# Who changes the rows that authorize a dispatch

A dispatch is let through by rows of five tables: the kill switch, the activations, the consents,
the permissible-purpose decisions and the grants. A step of the platform writes few of them, and
this module says which, once:

* **`SameAccess`** — none of the five tables has moved.
* **`dispatchStep_access`** — a dispatch only ever *adds* to them: one synthetic decision, or one
  grant, under an id that was free.
* **`step_sameAccess`** — every other step leaves them alone, except the operators' and the
  borrower's own labels (`Label.touchesAccess`).
* **`newestConsents_put`** — the one update in place: what the revocation of a consent does to the
  order in which the records are listed.
* **`System.Granted`** — along every run, the grant a dispatch refers to is the one it issued
  itself, for its own request and the one consent record it had read.
-/

namespace MortgageAgent.Provider

open Runs

/-- The five tables are as they were. -/
structure SameAccess (db db' : Db) : Prop where
  grants : db'.grants = db.grants
  consents : db'.consents = db.consents
  decisions : db'.decisions = db.decisions
  adapterStatus : db'.adapterStatus = db.adapterStatus
  activations : db'.activations = db.activations

theorem SameAccess.refl (db : Db) : SameAccess db db := ⟨rfl, rfl, rfl, rfl, rfl⟩

/-- What one transaction of a dispatch does to the five tables. -/
inductive DispatchAccess (db db' : Db) : DispatchState → Prop where
  | same {state : DispatchState} (h : SameAccess db db') : DispatchAccess db db' state
  | decided {state : DispatchState} (decision : PermissiblePurposeDecision)
      (hinsert : db.decisions.insert decision = some db'.decisions)
      (hgrants : db'.grants = db.grants) (hconsents : db'.consents = db.consents)
      (hstatus : db'.adapterStatus = db.adapterStatus)
      (hactivations : db'.activations = db.activations) : DispatchAccess db db' state
  | granted {p : DispatchProviderRequestParams} {adapter : ProviderAdapter}
      {consentRecordId : Uuid} {decisionId : Option Uuid} (env : Env)
      (hinsert : db.grants.insert (newGrant env p adapter.providerId consentRecordId decisionId)
        = some db'.grants)
      (hconsents : db'.consents = db.consents) (hdecisions : db'.decisions = db.decisions)
      (hstatus : db'.adapterStatus = db.adapterStatus)
      (hactivations : db'.activations = db.activations) :
      DispatchAccess db db' (.issueGrant p adapter consentRecordId decisionId)

/-! ## The transactions of a dispatch -/

theorem transition_access {db db' : Db} {env : Env} {tenantId id : Uuid}
    {source : List ProviderOperationIntentStatus} {state : ProviderOperationIntentStatus}
    {values : PayloadValues}
    (h : transition db env tenantId id source state values = .ok db') : SameAccess db db' := by
  obtain ⟨i, -, -, -, -, rfl⟩ := transition_ok h
  exact ⟨rfl, rfl, rfl, rfl, rfl⟩

theorem issueSynthetic_access {db db' : Db} {env : Env} {context : PermissiblePurposeContext}
    {id : Uuid} {state : DispatchState} (h : issueSynthetic db env context = .ok (db', id)) :
    DispatchAccess db db' state := by
  obtain ⟨decision, decisions, hinsert, rfl⟩ := issueSynthetic_ok h
  exact .decided decision hinsert rfl rfl rfl rfl

theorem issueGrant_access {db db' : Db} {env : Env} {p : DispatchProviderRequestParams}
    {adapter : ProviderAdapter} {consentRecordId : Uuid} {decisionId : Option Uuid}
    {grant : ProviderAuthorizationGrant}
    (h : issueGrant db env p adapter.providerId consentRecordId decisionId = .ok (db', grant)) :
    DispatchAccess db db' (.issueGrant p adapter consentRecordId decisionId) := by
  obtain ⟨rfl, grants, hinsert, rfl⟩ := issueGrant_ok h
  exact .granted env hinsert rfl rfl rfl rfl

/-- **A dispatch only adds.** -/
theorem dispatchStep_access (deps : Deps) (db : Db) (env : Env) (state : DispatchState) :
    DispatchAccess db (dispatchStep deps db env state).db state := by
  have hcase := dispatchStep_case deps db env state
  generalize dispatchStep deps db env state = move at hcase ⊢
  cases hcase with
  | purposeIssued _ _ _ _ _ hissue => exact issueSynthetic_access hissue
  | grantIssued _ _ _ _ _ _ hissue => exact issueGrant_access hissue
  | inserted _ _ _ _ _ _ hinsert =>
    obtain ⟨-, -, -, -, -, intents, -, rfl⟩ := prepareInsert_ok hinsert
    exact .same ⟨rfl, rfl, rfl, rfl, rfl⟩
  | refreshed _ _ _ grantId existing =>
    obtain ⟨intents, hrefresh, -⟩ := prepareRefresh_effect db env existing grantId
    rw [hrefresh]
    exact .same ⟨rfl, rfl, rfl, rfl, rfl⟩
  -- the transitions write the intent and nothing else.
  | authorizationFailed _ _ _ hmark => exact .same (transition_access hmark)
  | dispatched _ _ _ _ _ hmark => exact .same (transition_access hmark)
  | succeeded _ _ _ _ hmark => exact .same (transition_access hmark)
  | failed _ _ _ _ hmark => exact .same (transition_access hmark)
  | lost _ _ _ hmark => exact .same (transition_access hmark)
  -- the others only read.
  | _ => exact .same (.refl db)

/-! ## Everybody else -/

/-- The labels that may write one of the five tables. -/
def Label.touchesAccess : Label → Bool
  | .dispatch _ _ | .grantConsent _ | .revokeConsent _ _ _ _ | .decidePurpose _
  | .setAdapterStatus _ | .setActivation _ => true
  | _ => false

theorem resolveFinish_access {deps : Deps} {db db' : Db} {env : Env} {tenantId : Uuid}
    {task : DataDispositionTask} {action : DataDispositionResolutionAction} {actorId : String}
    (h : resolveFinish deps db env tenantId task action actorId = .ok db') :
    SameAccess db db' := by
  obtain ⟨row, -, hfinished⟩ := finished_of_resolveFinish h
  cases hfinished <;> exact ⟨rfl, rfl, rfl, rfl, rfl⟩

theorem placeHold_access {db db' : Db} {hold : LegalHold} (h : placeHold db hold = .ok db') :
    SameAccess db db' := by
  obtain ⟨holds, -, rfl⟩ := placeHold_ok h
  exact ⟨rfl, rfl, rfl, rfl, rfl⟩

theorem releaseHold_access {db db' : Db} {env : Env} {tenantId legalHoldId : Uuid}
    {releasedBy : String} (h : releaseHold db env tenantId legalHoldId releasedBy = .ok db') :
    SameAccess db db' := by
  obtain ⟨hold, -, rfl⟩ := releaseHold_ok h
  exact ⟨rfl, rfl, rfl, rfl, rfl⟩

theorem resolveManually_access {db db' : Db} {env : Env} {tenantId id : Uuid}
    {outcome : ManualOutcome} {resolvedBy resolutionNote : String}
    (h : resolveManually db env tenantId id outcome resolvedBy resolutionNote = .ok db') :
    SameAccess db db' := by
  obtain ⟨i, -, -, i', -, -, -, rfl⟩ := resolveManually_ok h
  exact ⟨rfl, rfl, rfl, rfl, rfl⟩

/-- **Sweeps, resolutions, dispositions, holds, crashes and failures touch none of them.** -/
theorem step_sameAccess {deps : Deps} {s : System} {a : Label} (h : a.touchesAccess = false) :
    SameAccess s.db (step deps s a).db := by
  have hwrites := step_writes deps s a
  generalize (step deps s a).db = db' at hwrites ⊢
  cases hwrites with
  | nothing => exact .refl s.db
  | sweep hmark => exact transition_access hmark
  | resolveManually hresolve => exact resolveManually_access hresolve
  | resolve hfinish => exact resolveFinish_access hfinish
  | placeHold hplace => exact placeHold_access hplace
  | releaseHold hrelease => exact releaseHold_access hrelease
  | recordEvidence fact => exact ⟨rfl, rfl, rfl, rfl, rfl⟩
  -- the others are the labels that touch them
  | _ => cases h

/-! ## Keyed writes -/

theorem mem_upsert {ρ κ : Type} {key : ρ → κ} [DecidableEq κ] {t : Table ρ key} {r x : ρ} :
    x ∈ (upsert t r).rows ↔ x = r ∨ (x ∈ t.rows ∧ key x ≠ key r) := by
  unfold upsert
  cases hinsert : t.insert r with
  | some t' =>
    -- the key was free, so no row of the table has it
    have hfree := Table.key_fresh_of_insert hinsert
    rw [Option.getD_some, Table.rows_of_insert hinsert, List.mem_append, List.mem_singleton]
    constructor
    · rintro (hx | rfl)
      · exact Or.inr ⟨hx, hfree x hx⟩
      · exact Or.inl rfl
    · rintro (rfl | ⟨hx, -⟩)
      · exact Or.inr rfl
      · exact Or.inl hx
  | none =>
    have htaken : key r ∈ t.rows.map key := by
      by_contra hfree
      rw [Table.insert, dif_neg hfree] at hinsert
      cases hinsert
    rw [Option.getD_none]
    exact t.mem_put (by simpa using htaken)

theorem find_upsert_of_ne {ρ κ : Type} {key : ρ → κ} [DecidableEq κ] {t : Table ρ key} {r : ρ}
    {k : κ} (hk : k ≠ key r) : (upsert t r).find k = t.find k := by
  ext x
  rw [Table.find_eq_some_iff, Table.find_eq_some_iff, mem_upsert]
  constructor
  · rintro ⟨rfl | ⟨hx, -⟩, rfl⟩
    · exact absurd rfl hk
    · exact ⟨hx, rfl⟩
  · rintro ⟨hx, rfl⟩
    exact ⟨Or.inr ⟨hx, hk⟩, rfl⟩

/-! ## Consents -/

theorem mem_newestConsents {db : Db} {tenantId caseId : Uuid} {c : ConsentRecord} :
    c ∈ newestConsents db tenantId caseId
      ↔ c ∈ db.consents.rows ∧ c.tenantId = tenantId ∧ c.caseId = caseId := by
  simp [newestConsents]

/-- A record written over one of the same case and the same instant keeps its place in the
listing. -/
theorem newestConsents_put {db db' : Db} {active revoked : ConsentRecord}
    (hdb' : db'.consents = db.consents.put revoked) (hactive : active ∈ db.consents.rows)
    (hid : revoked.id = active.id) (htenant : revoked.tenantId = active.tenantId)
    (hcase : revoked.caseId = active.caseId) (hgranted : revoked.grantedAt = active.grantedAt)
    (tenantId caseId : Uuid) :
    newestConsents db' tenantId caseId
      = (newestConsents db tenantId caseId).map
          fun c => if c.id = revoked.id then revoked else c := by
  -- the row with the new row's id is `active`, so the rewrite keeps case and instant of each row
  have hsame : ∀ c ∈ db.consents.rows, c.id = revoked.id → c = active := fun c hc hcid =>
    db.consents.eq_of_key_eq hc hactive (hcid.trans hid)
  have hrows : db'.consents.rows
      = db.consents.rows.map fun c => if c.id = revoked.id then revoked else c := by
    rw [hdb']
    rfl
  have hfilter : db'.consents.rows.filter (fun c => c.tenantId = tenantId && c.caseId = caseId)
      = (db.consents.rows.filter fun c => c.tenantId = tenantId && c.caseId = caseId).map
          fun c => if c.id = revoked.id then revoked else c := by
    rw [hrows, List.filter_map]
    congr 1
    refine List.filter_congr fun c hc => ?_
    by_cases hcid : c.id = revoked.id
    · have hc' : c = active := hsame c hc hcid
      simp [hc', hid, htenant, hcase]
    · simp [hcid]
  rw [newestConsents, newestConsents, hfilter]
  symm
  apply List.map_insertionSort
  intro a ha b hb
  have hgrantedAt : ∀ c ∈ db.consents.rows,
      (if c.id = revoked.id then revoked else c).grantedAt = c.grantedAt := by
    intro c hc
    split
    · next hcid => rw [hsame c hc hcid, hgranted]
    · rfl
  rw [hgrantedAt a (List.mem_of_mem_filter ha), hgrantedAt b (List.mem_of_mem_filter hb)]

/-! ## The grant of a dispatch -/

/-- The request of the dispatch, as long as it still has checks or a submission ahead. -/
def DispatchState.request : DispatchState → Option DispatchProviderRequestParams
  | .killSwitch p _ | .activation p _ | .consent p _ | .issuePurpose p _ _
  | .validatePurpose p _ _ _ | .issueGrant p _ _ _ | .prepareRead p _ _ _
  | .prepareInsert p _ _ _ | .prepareRefresh p _ _ _ _ | .revalidateGrant p _ _ _ _
  | .revalidateConsent p _ _ _ _ _ | .revalidatePurpose p _ _ _ _ | .markDispatched p _ _ _
  | .submit p _ _ _ | .awaiting p _ _ _ => some p
  | _ => none

/-- The grant was issued by a dispatch of this request. -/
def IssuedFor (p : DispatchProviderRequestParams) (adapter : ProviderAdapter)
    (grant : ProviderAuthorizationGrant) : Prop :=
  ∃ env consentRecordId decisionId,
    grant = newGrant env p adapter.providerId consentRecordId decisionId

/-- The id is that of a stored grant, issued by a dispatch of this request. -/
def GrantStored (db : Db) (p : DispatchProviderRequestParams) (adapter : ProviderAdapter)
    (grantId : Uuid) : Prop :=
  ∃ grant, db.grants.find grantId = some grant ∧ IssuedFor p adapter grant

/-- What is known of the grant at each point of a dispatch. -/
def DispatchState.Granted (db : Db) : DispatchState → Prop
  | .prepareRead p adapter _ grantId => GrantStored db p adapter grantId
  | .prepareInsert p adapter _ grantId => GrantStored db p adapter grantId
  | .prepareRefresh p adapter _ grantId _ => GrantStored db p adapter grantId
  | .revalidateGrant p adapter _ grantId _ => GrantStored db p adapter grantId
  | .revalidateConsent p adapter _ _ grant remaining =>
    IssuedFor p adapter grant ∧ (remaining = [] ∨ remaining = grant.consentRecordIds)
  | .revalidatePurpose p adapter _ _ grant => IssuedFor p adapter grant
  | .markDispatched p adapter _ grant => IssuedFor p adapter grant
  | .submit p adapter _ grant => IssuedFor p adapter grant
  | .awaiting p adapter _ grant => IssuedFor p adapter grant
  | _ => True

def System.Granted (s : System) : Prop :=
  ∀ d, (s.dispatches d).Granted s.db

/-- Grants are never written over. -/
theorem grants_find_of_access {db db' : Db} {state : DispatchState}
    (h : DispatchAccess db db' state) {grantId : Uuid} {grant : ProviderAuthorizationGrant}
    (hfind : db.grants.find grantId = some grant) : db'.grants.find grantId = some grant := by
  cases h with
  | same hsame => rwa [hsame.grants]
  | decided decision hinsert hgrants hconsents hstatus hactivations => rwa [hgrants]
  | granted env hinsert hconsents hdecisions hstatus hactivations =>
    obtain ⟨hmem, hid⟩ := db.grants.find_eq_some_iff.mp hfind
    rw [Table.find_eq_some_iff, Table.rows_of_insert hinsert]
    exact ⟨List.mem_append_left _ hmem, hid⟩

theorem step_grants_find {deps : Deps} {s : System} {a : Label} {grantId : Uuid}
    {grant : ProviderAuthorizationGrant} (h : s.db.grants.find grantId = some grant) :
    (step deps s a).db.grants.find grantId = some grant := by
  cases htouch : a.touchesAccess with
  | false => rwa [(step_sameAccess htouch).grants]
  | true =>
    cases a with
    | dispatch d env => exact grants_find_of_access (dispatchStep_access deps s.db env _) h
    | grantConsent record =>
      simp only [step, System.tryDb, grantForCase]
      cases s.db.consents.insert record <;> exact h
    | revokeConsent env tenantId caseId reason =>
      simp only [step, System.tryDb]
      cases hrevoke : revokeConsent s.db env tenantId caseId reason with
      | error e => exact h
      | ok db' =>
        obtain ⟨active, tasks, -, -, rfl⟩ := revokeConsent_ok hrevoke
        exact h
    | decidePurpose decision => exact h
    | setAdapterStatus status => exact h
    | setActivation activation => exact h
    | _ => cases htouch

theorem GrantStored.kept {db db' : Db} {p : DispatchProviderRequestParams}
    {adapter : ProviderAdapter} {grantId : Uuid} (h : GrantStored db p adapter grantId)
    (hgrants : ∀ id grant, db.grants.find id = some grant → db'.grants.find id = some grant) :
    GrantStored db' p adapter grantId := by
  obtain ⟨grant, hfind, hissued⟩ := h
  exact ⟨grant, hgrants grantId grant hfind, hissued⟩

theorem DispatchState.Granted.kept {db db' : Db} {state : DispatchState} (h : state.Granted db)
    (hgrants : ∀ id grant, db.grants.find id = some grant → db'.grants.find id = some grant) :
    state.Granted db' := by
  cases state with
  | prepareRead p adapter decisionId grantId => exact GrantStored.kept h hgrants
  | prepareInsert p adapter decisionId grantId => exact GrantStored.kept h hgrants
  | prepareRefresh p adapter decisionId grantId existing => exact GrantStored.kept h hgrants
  | revalidateGrant p adapter decisionId grantId intent => exact GrantStored.kept h hgrants
  | _ => exact h

theorem afterPrepare_granted {deps : Deps} {db : Db} {p : DispatchProviderRequestParams}
    {adapter : ProviderAdapter} {decisionId : Option Uuid} {grantId : Uuid}
    {entity : ProviderOperationIntent} (h : GrantStored db p adapter grantId) :
    (afterPrepare deps p adapter decisionId grantId entity).Granted db := by
  rcases afterPrepare_cases deps p adapter decisionId grantId entity with
    ⟨result, hresult⟩ | ⟨intent, -, -, -, hintent⟩
  · rw [hresult]; trivial
  · rw [hintent]; exact h

theorem afterConsent_granted (db : Db) (p : DispatchProviderRequestParams)
    (adapter : ProviderAdapter) (consentRecordId : Uuid) :
    (afterConsent p adapter consentRecordId).Granted db := by
  unfold afterConsent
  split
  · split
    · trivial
    · split <;> trivial
  · trivial

/-- The grant that `revalidate` reads back is the stored one. -/
theorem revalidateGrant_ok {db : Db} {now : Instant} {grantId tenantId caseId : Uuid}
    {providerId : String} {capability : ProviderCapability} {grant : ProviderAuthorizationGrant}
    (h : revalidateGrant db now grantId tenantId caseId providerId capability = .ok grant) :
    db.grants.find grantId = some grant ∧ grant.consentRecordIds ≠ [] := by
  unfold revalidateGrant at h
  dsimp only at h
  split at h
  · cases h
  next stored hstored =>
  split at h
  · cases h
  split at h
  · cases h
  split at h
  · cases h
  split at h
  · cases h
  next hnonempty =>
  cases h
  exact ⟨hstored, by simpa using hnonempty⟩

theorem dispatchStep_granted {deps : Deps} {db : Db} {env : Env} {state : DispatchState}
    (h : state.Granted db) :
    (dispatchStep deps db env state).state.Granted (dispatchStep deps db env state).db := by
  have hkept : state.Granted (dispatchStep deps db env state).db :=
    h.kept fun id grant => grants_find_of_access (dispatchStep_access deps db env state)
  have hcase := dispatchStep_case deps db env state
  generalize dispatchStep deps db env state = move at hcase hkept ⊢
  cases hcase with
  | waits _ _ => exact hkept
  | consented p adapter record _ => exact afterConsent_granted _ _ _ _
  | grantIssued p adapter consentRecordId decisionId db' grant hissue =>
    exact ⟨grant, issueGrant_found hissue, env, consentRecordId, decisionId,
      (issueGrant_ok hissue).1⟩
  | readsNoIntent _ _ _ _ _ => exact hkept
  | readsPrepared _ _ _ _ _ _ => exact hkept
  | readsOther _ _ _ _ _ _ => exact afterPrepare_granted hkept
  | inserted _ _ _ _ _ _ _ => exact afterPrepare_granted hkept
  | refreshed _ _ _ _ _ => exact afterPrepare_granted hkept
  | grantValid p adapter decisionId grantId intent grant hgrant =>
    obtain ⟨stored, hstored, hissued⟩ := h
    obtain ⟨hfind, -⟩ := revalidateGrant_ok hgrant
    obtain rfl : stored = grant := Option.some.inj (hstored.symm.trans hfind)
    exact ⟨hissued, Or.inr rfl⟩
  | consentValid p adapter decisionId intent grant consentRecordId remaining _ =>
    -- a dispatch's grant names one record, so nothing is left after it
    obtain ⟨⟨env', record, decision, rfl⟩, hremaining⟩ := h
    have hpinned : consentRecordId = record ∧ remaining = [] := by
      simpa [newGrant] using hremaining
    exact ⟨⟨env', record, decision, rfl⟩, Or.inl hpinned.2⟩
  | consentsDone _ _ _ _ _ => exact h.1
  | consentsDoneNoPurpose _ _ _ _ => exact h.1
  | purposeStillValid _ _ _ _ _ _ => exact h
  | dispatched _ _ _ _ _ _ => exact h
  | submitted _ _ _ _ => exact h
  -- no grant, or no grant any more
  | _ => trivial

theorem dispatchStart_granted (deps : Deps) (db : Db) (p : DispatchProviderRequestParams) :
    (dispatchStart deps p).Granted db := by
  unfold dispatchStart
  split
  · trivial
  · split <;> trivial

theorem dispatchReturn_granted {db : Db} {env : Env} {outcome : SubmitOutcome}
    {state : DispatchState} (h : state.Granted db) :
    (dispatchReturn env outcome state).1.Granted db := by
  cases state with
  | awaiting p adapter intent grant =>
    cases outcome with
    | receipt receipt => simp only [dispatchReturn]; split <;> trivial
    | threw e => trivial
  | _ => exact h

theorem dispatchStoreFails_granted {db : Db} {state : DispatchState} (h : state.Granted db) :
    (dispatchStoreFails state).Granted db := by
  cases state with
  | submit p adapter intent grant => exact h
  | awaiting p adapter intent grant => exact h
  | _ => trivial

theorem granted_setDispatch {s : System} (h : s.Granted) {db : Db} {log : List Event} {d : Nat}
    {state : DispatchState}
    (hgrants : ∀ id grant, s.db.grants.find id = some grant → db.grants.find id = some grant)
    (hstate : state.Granted db) : ({ s with db, log }.setDispatch d state).Granted := by
  intro d'
  simp only [System.setDispatch, Function.update_apply]
  split
  · exact hstate
  · exact (h d').kept hgrants

theorem System.Granted.step {deps : Deps} {s : System} (h : s.Granted) (a : Label) :
    (step deps s a).Granted := by
  have hother (ha : a.ofDispatch = none) : (Provider.step deps s a).Granted := by
    intro d
    rw [(step_frame ha).1]
    exact (h d).kept fun id grant => step_grants_find
  cases a with
  | startDispatch d p =>
    simp only [Provider.step]
    split
    · exact granted_setDispatch h (fun _ _ => id) (dispatchStart_granted deps _ p)
    · exact h
  | dispatch d env =>
    exact granted_setDispatch h
      (fun id grant => grants_find_of_access (dispatchStep_access deps s.db env _))
      (dispatchStep_granted (h d))
  | submitReturns d env outcome =>
    exact granted_setDispatch h (fun _ _ => id) (dispatchReturn_granted (h d))
  | storeFails d =>
    exact granted_setDispatch h (fun _ _ => id) (dispatchStoreFails_granted (h d))
  | crash d => exact granted_setDispatch h (fun _ _ => id) trivial
  | _ => exact hother rfl

/-- **Every dispatch works under its own grant.** -/
theorem granted_exec (deps : Deps) (db : Db) (run : List Label) :
    (exec (step deps) (System.init db) run).Granted := by
  have hinit : (System.init db).Granted := fun _ => trivial
  exact exec_inv (fun _ a h => h.step a) hinit run

end MortgageAgent.Provider
