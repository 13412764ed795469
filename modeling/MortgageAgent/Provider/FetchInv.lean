import MortgageAgent.Provider.Fetch

/-!
# What a fetch knows of its case

A dispatch works for the case of its request from end to end: the consent it pins, the grant it
issues, the row it prepares and, in the end, the finding it returns belong to that case.

* **`Grows`**, **`step_grows`** — consents keep their case, rows their identity, grants their
  contents.
* **`DispatchState.FetchOk`** — what is known at each point of the dispatch of a fetch.
* **`fetchOk_dispatchStep`**, **`fetchOk_step`** — the dispatch keeps it.
-/

namespace MortgageAgent.Provider

open Runs

/-! ## Facts that stay -/

/-- The id is that of a consent of the case. -/
def ConsentOf (db : Db) (tenantId caseId id : Uuid) : Prop :=
  ∃ record, db.consents.find id = some record ∧ record.tenantId = tenantId
    ∧ record.caseId = caseId

theorem ConsentOf.case_eq {db : Db} {tenantId caseId tenantId' caseId' id : Uuid}
    (h : ConsentOf db tenantId caseId id) (h' : ConsentOf db tenantId' caseId' id) :
    tenantId = tenantId' ∧ caseId = caseId' := by
  obtain ⟨record, hfind, rfl, rfl⟩ := h
  obtain ⟨record', hfind', rfl, rfl⟩ := h'
  obtain rfl : record = record' := Option.some.inj (hfind.symm.trans hfind')
  exact ⟨rfl, rfl⟩

/-- The id is that of an intent of the case of the request. -/
def IntentOf (db : Db) (p : DispatchProviderRequestParams) (id : Uuid) : Prop :=
  ∃ i ∈ db.intents.rows, i.id = id ∧ i.tenantId = p.tenantId ∧ i.caseId = p.caseId

/-- The id is that of a grant under consents of the case of the request. -/
def GrantOf (db : Db) (p : DispatchProviderRequestParams) (grantId : Uuid) : Prop :=
  ∃ grant, db.grants.find grantId = some grant
    ∧ ∀ c ∈ grant.consentRecordIds, ConsentOf db p.tenantId p.caseId c

structure Grows (db db' : Db) : Prop where
  consents : ∀ tenantId caseId id, ConsentOf db tenantId caseId id →
    ConsentOf db' tenantId caseId id
  intents : ∀ i ∈ db.intents.rows, ∃ i' ∈ db'.intents.rows, SameIdentity i i'
  grants : ∀ id grant, db.grants.find id = some grant → db'.grants.find id = some grant

/-- None of the three tables has moved. -/
theorem Grows.of_eq {db db' : Db} (hconsents : db'.consents = db.consents)
    (hintents : db'.intents = db.intents) (hgrants : db'.grants = db.grants) : Grows db db' where
  consents := by
    rintro tenantId caseId id ⟨record, hfind, hcase⟩
    exact ⟨record, hconsents ▸ hfind, hcase⟩
  intents := fun i hi => ⟨i, hintents ▸ hi, .refl i⟩
  grants := fun id grant hfind => hgrants ▸ hfind

theorem Grows.intentOf {db db' : Db} (h : Grows db db') {p : DispatchProviderRequestParams}
    {id : Uuid} (hof : IntentOf db p id) : IntentOf db' p id := by
  obtain ⟨i, hi, hid, htenant, hcase⟩ := hof
  obtain ⟨i', hi', hsame⟩ := h.intents i hi
  exact ⟨i', hi', hsame.id.trans hid, hsame.tenantId.trans htenant, hsame.caseId.trans hcase⟩

theorem Grows.grantOf {db db' : Db} (h : Grows db db') {p : DispatchProviderRequestParams}
    {grantId : Uuid} (hof : GrantOf db p grantId) : GrantOf db' p grantId := by
  obtain ⟨grant, hfind, hconsents⟩ := hof
  exact ⟨grant, h.grants grantId grant hfind, fun c hc => h.consents _ _ c (hconsents c hc)⟩

theorem find_revoked (db : Db) (active : ConsentRecord) (env : Env) (reason : Option String)
    (id : Uuid) : (db.consents.put (active.revoked env reason)).find id
      = if id = active.id then (db.consents.find id).map fun _ => active.revoked env reason
        else db.consents.find id :=
  Table.find_put _ _ _

/-- A record is revoked in place. -/
theorem consentOf_put {db db' : Db} {active : ConsentRecord} {env : Env} {reason : Option String}
    (hactive : ConsentOf db active.tenantId active.caseId active.id)
    (hdb' : db'.consents = db.consents.put (active.revoked env reason))
    {tenantId caseId id : Uuid} (h : ConsentOf db tenantId caseId id) :
    ConsentOf db' tenantId caseId id := by
  by_cases hid : id = active.id
  · subst hid
    obtain ⟨rfl, rfl⟩ := hactive.case_eq h
    obtain ⟨record, hfind, -⟩ := hactive
    refine ⟨active.revoked env reason, ?_, rfl, rfl⟩
    rw [hdb', find_revoked, if_pos rfl, hfind]
    rfl
  · obtain ⟨record, hfind, hcase⟩ := h
    refine ⟨record, ?_, hcase⟩
    rw [hdb', find_revoked, if_neg hid]
    exact hfind

theorem isRevoked_put {db db' : Db} {active : ConsentRecord} {env : Env} {reason : Option String}
    (hdb' : db'.consents = db.consents.put (active.revoked env reason)) {id : Uuid}
    (h : IsRevoked db id) : IsRevoked db' id := by
  obtain ⟨record, hfind, hrevoked⟩ := h
  by_cases hid : id = active.id
  · refine ⟨active.revoked env reason, ?_, rfl⟩
    rw [hdb', find_revoked, if_pos hid, hfind]
    rfl
  · refine ⟨record, ?_, hrevoked⟩
    rw [hdb', find_revoked, if_neg hid]
    exact hfind

/-- **Every step of the platform grows.** -/
theorem step_grows (deps : Deps) (s : System) (a : Label) : Grows s.db (step deps s a).db where
  intents := by
    intro i hi
    obtain ⟨i', hi', hstep⟩ := (step_intentEffect deps s a).kept hi
    exact ⟨i', hi', hstep.same⟩
  grants := fun id grant => step_grants_find
  consents := by
    intro tenantId caseId id h
    have hcopy (heq : (step deps s a).db.consents = s.db.consents) :
        ConsentOf (step deps s a).db tenantId caseId id := by
      obtain ⟨record, hfind, hcase⟩ := h
      exact ⟨record, heq ▸ hfind, hcase⟩
    cases htouch : a.touchesConsents with
    | false => exact hcopy (step_consents htouch)
    | true =>
      cases a with
      | grantConsent granted =>
        simp only [step, System.tryDb, grantForCase]
        cases hinsert : s.db.consents.insert granted with
        | none => exact h
        | some consents =>
          obtain ⟨record, hfind, hcase⟩ := h
          obtain ⟨hmem, hid⟩ := s.db.consents.find_eq_some_iff.mp hfind
          refine ⟨record, ?_, hcase⟩
          rw [Table.find_eq_some_iff, Table.rows_of_insert hinsert]
          exact ⟨List.mem_append_left _ hmem, hid⟩
      | revokeConsent env tenantId' caseId' reason =>
        simp only [step, System.tryDb]
        cases hrevoke : revokeConsent s.db env tenantId' caseId' reason with
        | error e => exact h
        | ok db' =>
          obtain ⟨active, tasks, hactive, -, rfl⟩ := revokeConsent_ok hrevoke
          obtain ⟨hmem, -, -⟩ := mem_newestConsents.mp (List.mem_of_find?_eq_some hactive)
          have hfound : s.db.consents.find active.id = some active :=
            s.db.consents.find_eq_some_iff.mpr ⟨hmem, rfl⟩
          exact consentOf_put ⟨active, hfound, rfl, rfl⟩ rfl h
      | _ => cases htouch

/-! ## The dispatch of a fetch -/

/-- What is known at each point of a dispatch for the request `p`, when its finding is obtained
under the consents `under`. -/
def DispatchState.FetchOk (db : Db) (p : DispatchProviderRequestParams) (under : List Uuid) :
    DispatchState → Prop
  | .killSwitch q _ => q = p
  | .activation q _ => q = p
  | .consent q _ => q = p
  | .issuePurpose q _ c => q = p ∧ ConsentOf db p.tenantId p.caseId c
  | .validatePurpose q _ c _ => q = p ∧ ConsentOf db p.tenantId p.caseId c
  | .issueGrant q _ c _ => q = p ∧ ConsentOf db p.tenantId p.caseId c
  | .prepareRead q _ _ grantId => q = p ∧ GrantOf db p grantId
  | .prepareInsert q _ _ grantId => q = p ∧ GrantOf db p grantId
  | .prepareRefresh q _ _ grantId existing =>
    q = p ∧ GrantOf db p grantId ∧ IntentOf db p existing.id ∧ existing.state = .PREPARED
  | .revalidateGrant q _ _ grantId intent =>
    q = p ∧ GrantOf db p grantId ∧ IntentOf db p intent.id
  | .revalidateConsent q _ _ intent grant _ =>
    q = p ∧ IntentOf db p intent.id ∧ under = grant.consentRecordIds
      ∧ ∀ c ∈ under, ConsentOf db p.tenantId p.caseId c
  | .revalidatePurpose q _ _ intent grant =>
    q = p ∧ IntentOf db p intent.id ∧ under = grant.consentRecordIds
      ∧ ∀ c ∈ under, ConsentOf db p.tenantId p.caseId c
  | .markDispatched q _ intent grant =>
    q = p ∧ IntentOf db p intent.id ∧ under = grant.consentRecordIds
      ∧ ∀ c ∈ under, ConsentOf db p.tenantId p.caseId c
  | .submit q _ intent grant =>
    q = p ∧ IntentOf db p intent.id ∧ under = grant.consentRecordIds
      ∧ ∀ c ∈ under, ConsentOf db p.tenantId p.caseId c
  | .awaiting q _ intent grant =>
    q = p ∧ IntentOf db p intent.id ∧ under = grant.consentRecordIds
      ∧ ∀ c ∈ under, ConsentOf db p.tenantId p.caseId c
  | .markSucceeded intent _ _ =>
    IntentOf db p intent.id ∧ ∀ c ∈ under, ConsentOf db p.tenantId p.caseId c
  | .record intent _ _ =>
    IntentOf db p intent.id ∧ ∀ c ∈ under, ConsentOf db p.tenantId p.caseId c
  | .finished (.ok _) => ∀ c ∈ under, ConsentOf db p.tenantId p.caseId c
  | _ => True

/-- What is known stays known. -/
theorem DispatchState.FetchOk.grows {db db' : Db} {p : DispatchProviderRequestParams}
    {under : List Uuid} {state : DispatchState} (h : state.FetchOk db p under)
    (hgrows : Grows db db') : state.FetchOk db' p under := by
  have hunder (hall : ∀ c ∈ under, ConsentOf db p.tenantId p.caseId c) :
      ∀ c ∈ under, ConsentOf db' p.tenantId p.caseId c :=
    fun c hc => hgrows.consents _ _ c (hall c hc)
  cases state with
  | issuePurpose q adapter c => exact ⟨h.1, hgrows.consents _ _ c h.2⟩
  | validatePurpose q adapter c d => exact ⟨h.1, hgrows.consents _ _ c h.2⟩
  | issueGrant q adapter c d => exact ⟨h.1, hgrows.consents _ _ c h.2⟩
  | prepareRead q adapter d g => exact ⟨h.1, hgrows.grantOf h.2⟩
  | prepareInsert q adapter d g => exact ⟨h.1, hgrows.grantOf h.2⟩
  | prepareRefresh q adapter d g existing =>
    exact ⟨h.1, hgrows.grantOf h.2.1, hgrows.intentOf h.2.2.1, h.2.2.2⟩
  | revalidateGrant q adapter d g intent =>
    exact ⟨h.1, hgrows.grantOf h.2.1, hgrows.intentOf h.2.2⟩
  | revalidateConsent q adapter d intent grant remaining =>
    exact ⟨h.1, hgrows.intentOf h.2.1, h.2.2.1, hunder h.2.2.2⟩
  | revalidatePurpose q adapter d intent grant =>
    exact ⟨h.1, hgrows.intentOf h.2.1, h.2.2.1, hunder h.2.2.2⟩
  | markDispatched q adapter intent grant =>
    exact ⟨h.1, hgrows.intentOf h.2.1, h.2.2.1, hunder h.2.2.2⟩
  | submit q adapter intent grant =>
    exact ⟨h.1, hgrows.intentOf h.2.1, h.2.2.1, hunder h.2.2.2⟩
  | awaiting q adapter intent grant =>
    exact ⟨h.1, hgrows.intentOf h.2.1, h.2.2.1, hunder h.2.2.2⟩
  | markSucceeded intent receipt finding => exact ⟨hgrows.intentOf h.1, hunder h.2⟩
  | record intent plan failure => exact ⟨hgrows.intentOf h.1, hunder h.2⟩
  | finished result =>
    cases result with
    | ok finding => exact hunder h
    | error e => trivial
  | _ => exact h

/-- A dispatch that has been cleared: its row and its consents are of its case. -/
theorem DispatchState.FetchOk.of_cleared {db : Db} {p : DispatchProviderRequestParams}
    {under : List Uuid} {state : DispatchState} (h : state.FetchOk db p under) {id : Uuid}
    (hcleared : state.cleared = some id) :
    IntentOf db p id ∧ ∀ c ∈ under, ConsentOf db p.tenantId p.caseId c := by
  cases state with
  | revalidateConsent q adapter d intent grant remaining =>
    cases remaining with
    | nil =>
      cases hcleared
      exact ⟨h.2.1, h.2.2.2⟩
    | cons c rest => cases hcleared
  | revalidatePurpose q adapter d intent grant =>
    cases hcleared
    exact ⟨h.2.1, h.2.2.2⟩
  | markDispatched q adapter intent grant =>
    cases hcleared
    exact ⟨h.2.1, h.2.2.2⟩
  | submit q adapter intent grant =>
    cases hcleared
    exact ⟨h.2.1, h.2.2.2⟩
  | awaiting q adapter intent grant =>
    cases hcleared
    exact ⟨h.2.1, h.2.2.2⟩
  | markSucceeded intent receipt finding =>
    cases hcleared
    exact h
  | record intent plan failure =>
    cases hcleared
    exact h
  | _ => cases hcleared

/-! ## One transaction of the dispatch -/

theorem fetchOk_dispatchStart (deps : Deps) (db : Db) (p : DispatchProviderRequestParams)
    (under : List Uuid) : (dispatchStart deps p).FetchOk db p under := by
  unfold dispatchStart
  split
  · trivial
  · split
    · trivial
    · rfl

theorem activeRecord_consentOf {db : Db} {now : Instant} {tenantId caseId : Uuid}
    {purpose : String} {dataClasses : List String} {record : ConsentRecord}
    (h : activeRecordForPurpose db now tenantId caseId purpose dataClasses = some record) :
    ConsentOf db tenantId caseId record.id := by
  obtain ⟨hnewest, -⟩ := Option.filter_eq_some_iff.mp h
  obtain ⟨tail, hlist⟩ := List.head?_eq_some_iff.mp hnewest
  have hmem : record ∈ newestConsents db tenantId caseId := hlist ▸ List.mem_cons_self ..
  obtain ⟨hrow, htenant, hcase⟩ := mem_newestConsents.mp hmem
  exact ⟨record, db.consents.find_eq_some_iff.mpr ⟨hrow, rfl⟩, htenant, hcase⟩

theorem fetchOk_afterConsent {db : Db} {p : DispatchProviderRequestParams}
    {adapter : ProviderAdapter} {c : Uuid} {under : List Uuid}
    (h : ConsentOf db p.tenantId p.caseId c) : (afterConsent p adapter c).FetchOk db p under := by
  unfold afterConsent
  split
  · split
    · exact ⟨rfl, h⟩
    · split
      · exact ⟨rfl, h⟩
      · trivial
  · exact ⟨rfl, h⟩

/-- A row that `prepare` goes on with is one of the request's case. -/
theorem prepareRead_ofCase {deps : Deps} {db : Db} {p : DispatchProviderRequestParams}
    {adapter : ProviderAdapter} {grantId : Uuid} {existing : ProviderOperationIntent}
    (h : prepareRead deps db (.ofParams p adapter grantId) = .ok (.refresh existing)
      ∨ prepareRead deps db (.ofParams p adapter grantId) = .ok (.reuse existing)) :
    db.findByKey (PrepareIntentInput.ofParams p adapter grantId).key = some existing
      ∧ existing ∈ db.intents.rows ∧ existing.tenantId = p.tenantId
      ∧ existing.caseId = p.caseId := by
  obtain ⟨hmem, hkey, -⟩ := prepareRead_found h
  have htenant : existing.tenantId = p.tenantId := congrArg OperationKey.tenantId hkey
  unfold prepareRead at h
  cases hfind : db.findByKey (PrepareIntentInput.ofParams p adapter grantId).key with
  | none => simp [hfind] at h
  | some row =>
    simp only [hfind, prepareReuse] at h
    split at h
    · simp at h
    next hmatches =>
    have hrow : row = existing := by
      split at h <;> simpa using h
    subst hrow
    refine ⟨rfl, hmem, htenant, ?_⟩
    by_contra hcase
    exact hmatches (Or.inl hcase)

theorem prepareInsert_ofCase {deps : Deps} {db db' : Db} {env : Env}
    {p : DispatchProviderRequestParams} {adapter : ProviderAdapter} {grantId : Uuid}
    {intent : ProviderOperationIntent}
    (h : prepareInsert deps db env (.ofParams p adapter grantId) = .ok (db', intent)) :
    intent.tenantId = p.tenantId ∧ intent.caseId = p.caseId := by
  unfold prepareInsert at h
  split at h
  · cases h
  · split at h
    · cases h
      exact ⟨rfl, rfl⟩
    · cases h

/-- A finding is replayed only from a row that stores one. -/
theorem afterPrepare_finding {deps : Deps} {p : DispatchProviderRequestParams}
    {adapter : ProviderAdapter} {decisionId : Option Uuid} {grantId : Uuid}
    {entity : ProviderOperationIntent} {finding : Json}
    (h : afterPrepare deps p adapter decisionId grantId entity = .finished (.ok finding)) :
    entity.state = .SUCCEEDED ∧ ¬ entity.bare := by
  unfold afterPrepare at h
  split at h
  · cases h
  next intent hintent =>
  obtain ⟨-, -, hstate⟩ := toIntentValue_ok hintent
  split at h
  · next hsucceeded =>
    refine ⟨hstate.symm.trans hsucceeded, fun hbare => ?_⟩
    split at h
    · cases h
    next stored hstored =>
    -- an empty column is decrypted to nothing
    unfold toIntentValue at hintent
    rw [hbare.1, hbare.2] at hintent
    cases hintent
    cases hstored
  · split at h <;> cases h

/-- After `prepare`, with a row of the request's case. -/
theorem fetchOk_afterPrepare {deps : Deps} {db : Db} {p : DispatchProviderRequestParams}
    {adapter : ProviderAdapter} {decisionId : Option Uuid} {grantId : Uuid}
    {entity : ProviderOperationIntent} {under : List Uuid} (hgrant : GrantOf db p grantId)
    (hintent : IntentOf db p entity.id)
    (hreplay : entity.state = .SUCCEEDED → ¬ entity.bare →
      ∀ c ∈ under, ConsentOf db p.tenantId p.caseId c) :
    (afterPrepare deps p adapter decisionId grantId entity).FetchOk db p under := by
  rcases afterPrepare_cases deps p adapter decisionId grantId entity with
    ⟨result, hresult⟩ | ⟨intent, hid, -, -, hgoes⟩
  · rw [hresult]
    cases result with
    | ok finding =>
      obtain ⟨hstate, hbare⟩ := afterPrepare_finding hresult
      exact hreplay hstate hbare
    | error e => trivial
  · rw [hgoes]
    exact ⟨rfl, hgrant, hid ▸ hintent⟩

theorem pins_grantOf {db : Db} {p : DispatchProviderRequestParams} {adapter : ProviderAdapter}
    {decisionId : Option Uuid} {grantId : Uuid} (h : GrantOf db p grantId) :
    ∀ c ∈ (DispatchState.prepareRead p adapter decisionId grantId).pins db,
      ConsentOf db p.tenantId p.caseId c := by
  obtain ⟨grant, hfind, hconsents⟩ := h
  intro c hc
  simp only [DispatchState.pins, hfind] at hc
  exact hconsents c hc

/-- **One transaction of the dispatch of a fetch**, with the consents behind its finding, when
every stored payload was obtained under consents of its own case. -/
theorem fetchOk_dispatchStep {deps : Deps} {s : FetchSystem} {env : Env}
    {p : DispatchProviderRequestParams} {under : List Uuid} {state : DispatchState}
    (h : state.FetchOk s.platform.db p under)
    (hpayloads : ∀ i ∈ s.platform.db.intents.rows, ¬ i.bare →
      ∀ c ∈ s.payloadUnder i.id, ConsentOf s.platform.db i.tenantId i.caseId c)
    (hgrows : Grows s.platform.db (dispatchStep deps s.platform.db env state).db) :
    (dispatchStep deps s.platform.db env state).state.FetchOk
      (dispatchStep deps s.platform.db env state).db p
      (s.consentsBehind under state (dispatchStep deps s.platform.db env state).state) := by
  have hkept := h.grows hgrows
  have hcase := dispatchStep_case deps s.platform.db env state
  generalize dispatchStep deps s.platform.db env state = move at hcase hkept hgrows ⊢
  cases hcase with
  | waits state hwaits =>
    cases state with
    | awaiting q adapter intent grant =>
      obtain ⟨rfl, hintent, rfl, hconsents⟩ := h
      exact ⟨rfl, hintent, rfl, hconsents⟩
    | idle => trivial
    | finished result => exact h
    | crashed => trivial
    | _ => cases hwaits
  | switchedOn _ _ _ _ => exact h
  | simulated _ _ _ _ => exact h
  | activated _ _ _ => exact h
  | consented q adapter record hrecord =>
    obtain rfl : q = p := h
    exact fetchOk_afterConsent (activeRecord_consentOf hrecord)
  | purposeIssued _ _ _ _ _ _ => exact hkept
  | purposeValid _ _ _ _ _ => exact h
  | grantIssued q adapter c d db' grant hissue =>
    -- the new grant names the pinned consent
    obtain ⟨rfl, hc⟩ := h
    refine ⟨rfl, grant, issueGrant_found hissue, fun c' hc' => ?_⟩
    rw [(issueGrant_ok hissue).1] at hc'
    obtain rfl := List.mem_singleton.mp hc'
    exact hgrows.consents _ _ c' hc
  | readsNoIntent _ _ _ _ _ => exact h
  | readsPrepared q adapter d g existing hread =>
    obtain ⟨rfl, hgrant⟩ := h
    obtain ⟨-, hmem, htenant, hcase⟩ := prepareRead_ofCase (Or.inl hread)
    obtain ⟨-, -, hprepared⟩ := prepareRead_found (Or.inl hread)
    exact ⟨rfl, hgrant, ⟨existing, hmem, rfl, htenant, hcase⟩, hprepared.mp hread⟩
  | readsOther q adapter d g existing hread =>
    obtain ⟨rfl, hgrant⟩ := h
    obtain ⟨hfind, hmem, htenant, hcase⟩ := prepareRead_ofCase (Or.inr hread)
    refine fetchOk_afterPrepare hgrant ⟨existing, hmem, rfl, htenant, hcase⟩ ?_
    intro hstate hbare c hc
    have hnone : (afterPrepare deps q adapter d g existing).grant = none := by
      rcases afterPrepare_cases deps q adapter d g existing with
        ⟨result, hresult⟩ | ⟨intent, -, -, hprepared, -⟩
      · rw [hresult]
        rfl
      · rw [hstate] at hprepared
        cases hprepared
    simp only [FetchSystem.consentsBehind, hnone, hfind, List.mem_append] at hc
    rcases hc with hc | hc
    · have hof := hpayloads existing hmem hbare c hc
      rwa [htenant, hcase] at hof
    · exact pins_grantOf hgrant c hc
  | inserted q adapter d g db' intent hinsert =>
    obtain ⟨rfl, hgrant⟩ := h
    have hparts : intent.tenantId = q.tenantId ∧ intent.caseId = q.caseId :=
      prepareInsert_ofCase hinsert
    obtain ⟨hstate, -, -, -, -, intents, hrows, rfl⟩ := prepareInsert_ok hinsert
    refine fetchOk_afterPrepare (hgrows.grantOf hgrant) ⟨intent, ?_, rfl, hparts⟩ ?_
    · rw [Table.rows_of_insert hrows]
      exact List.mem_append_right _ (List.mem_singleton_self _)
    · intro hsucceeded
      rw [hstate] at hsucceeded
      cases hsucceeded
  | refreshed q adapter d g existing =>
    obtain ⟨rfl, hgrant, hintent, hprepared⟩ := h
    refine fetchOk_afterPrepare (hgrows.grantOf hgrant) (hgrows.intentOf hintent) ?_
    intro hsucceeded
    have hstate : existing.state = .SUCCEEDED := hsucceeded
    rw [hprepared] at hstate
    cases hstate
  | grantValid q adapter d g intent grant hvalid =>
    obtain ⟨rfl, ⟨stored, hstored, hconsents⟩, hintent⟩ := h
    obtain ⟨hfind, -⟩ := revalidateGrant_ok hvalid
    obtain rfl : stored = grant := Option.some.inj (hstored.symm.trans hfind)
    exact ⟨rfl, hintent, rfl, hconsents⟩
  -- from here on the consents behind the finding are those of the grant
  | consentValid _ _ _ _ _ _ _ _ =>
    obtain ⟨rfl, hintent, rfl, hconsents⟩ := h
    exact ⟨rfl, hintent, rfl, hconsents⟩
  | consentsDone _ _ _ _ _ =>
    obtain ⟨rfl, hintent, rfl, hconsents⟩ := h
    exact ⟨rfl, hintent, rfl, hconsents⟩
  | consentsDoneNoPurpose _ _ _ _ =>
    obtain ⟨rfl, hintent, rfl, hconsents⟩ := h
    exact ⟨rfl, hintent, rfl, hconsents⟩
  | purposeStillValid _ _ _ _ _ _ =>
    obtain ⟨rfl, hintent, rfl, hconsents⟩ := h
    exact ⟨rfl, hintent, rfl, hconsents⟩
  | dispatched _ _ _ _ _ _ =>
    obtain ⟨rfl, -, rfl, -⟩ := h
    exact ⟨rfl, hkept.2.1, rfl, hkept.2.2.2⟩
  | submitted _ _ _ _ =>
    obtain ⟨rfl, hintent, rfl, hconsents⟩ := h
    exact ⟨rfl, hintent, rfl, hconsents⟩
  | successLost _ _ _ _ _ => exact h
  | succeeded _ _ _ _ _ => exact hkept.2
  -- the dispatch has ended without a finding, or is about to
  | _ => trivial

theorem fetchOk_dispatchReturn {db : Db} {env : Env} {outcome : SubmitOutcome}
    {p : DispatchProviderRequestParams} {under : List Uuid} {state : DispatchState}
    (h : state.FetchOk db p under) : (dispatchReturn env outcome state).1.FetchOk db p under := by
  cases state with
  | awaiting q adapter intent grant =>
    cases outcome with
    | receipt receipt =>
      simp only [dispatchReturn]
      split <;> exact ⟨h.2.1, h.2.2.2⟩
    | threw e => exact ⟨h.2.1, h.2.2.2⟩
  | _ => exact h

theorem fetchOk_dispatchStoreFails {db : Db} {p : DispatchProviderRequestParams}
    {under : List Uuid} {state : DispatchState} (h : state.FetchOk db p under) :
    (dispatchStoreFails state).FetchOk db p under := by
  cases state with
  | markSucceeded intent receipt finding => exact h
  | submit q adapter intent grant => exact h
  | awaiting q adapter intent grant => exact h
  | finished result => exact h
  | _ => trivial

end MortgageAgent.Provider
