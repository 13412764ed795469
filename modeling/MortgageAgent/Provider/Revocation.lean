import MortgageAgent.Provider.Gates

/-!
# Revoking a consent under running dispatches

`revoke` picks the newest *unrevoked* record of a case, while a dispatch pins the record that was
most recent when it looked, and `revalidate` asks about the pinned record only. So a revocation
stops a dispatch in flight exactly when it hits the record that dispatch has pinned, or one that
was revoked before; a case may hold several unrevoked records.

* **`DispatchState.pins`** — the records a dispatch has still to ask about.
* **`DispatchState.revalidated`** — the points behind a `revalidate` that returned valid.
* **`RevocationStops`** — behind every revocation, and until a new consent, nobody passes.
* **`RevokesEveryPin`** — the revocation hits what the dispatches in flight have pinned.
* **`revocation_stops`** — if every revocation of a run does, every revocation stops.
* **`revocation_misses_pin`** — one that revokes a newer record does not stop the dispatch.
-/

namespace MortgageAgent.Provider

open Runs

/-! ## What a dispatch has pinned -/

/-- The dispatch is for this case. -/
def DispatchState.ofCase (tenantId caseId : Uuid) (state : DispatchState) : Bool :=
  state.request.any fun p => p.tenantId = tenantId && p.caseId = caseId

/-- The consent records that `revalidate` will ask about. -/
def DispatchState.pins (db : Db) : DispatchState → List Uuid
  | .issuePurpose _ _ consentRecordId => [consentRecordId]
  | .validatePurpose _ _ consentRecordId _ => [consentRecordId]
  | .issueGrant _ _ consentRecordId _ => [consentRecordId]
  | .prepareRead _ _ _ grantId | .prepareInsert _ _ _ grantId | .prepareRefresh _ _ _ grantId _
  | .revalidateGrant _ _ _ grantId _ =>
    match db.grants.find grantId with
    | some grant => grant.consentRecordIds
    | none => []
  | .revalidateConsent _ _ _ _ _ remaining => remaining
  | _ => []

/-- `revalidate` has returned valid, and the adapter has not returned yet. -/
def DispatchState.revalidated : DispatchState → Bool
  | .revalidateConsent _ _ _ _ _ [] => true
  | .revalidatePurpose _ _ _ _ _ | .markDispatched _ _ _ _ | .submit _ _ _ _
  | .awaiting _ _ _ _ => true
  | _ => false

/-- The dispatch is for this case and has revalidated. -/
def DispatchState.revalidatedFor (tenantId caseId : Uuid) (state : DispatchState) : Bool :=
  state.ofCase tenantId caseId && state.revalidated

/-- The step is the call of `submit`, by dispatch `d`. -/
def Label.callsSubmit (s : System) (d : Nat) : Label → Bool
  | .dispatch d' _ => d' = d && match s.dispatches d with
    | .submit _ _ _ _ => true
    | _ => false
  | _ => false

/-! ## The law and its condition -/

/-- A new consent for the case. -/
def Label.grants (tenantId caseId : Uuid) : Label → Bool
  | .grantConsent record => record.tenantId = tenantId && record.caseId = caseId
  | _ => false

/-- **A revocation stops the case.** From a committed revocation until a new consent is granted,
no `revalidate` of the case returns valid, and only a dispatch that had revalidated before calls
`submit`. -/
def RevocationStops (deps : Deps) (s₀ : System) (run : List Label) : Prop :=
  ∀ (pre post rest : List Label) (env : Env) (tenantId caseId : Uuid) (reason : Option String),
    run = pre ++ .revokeConsent env tenantId caseId reason :: (post ++ rest) →
    (revokeConsent (exec (step deps) s₀ pre).db env tenantId caseId reason).isOk = true →
    (∀ a ∈ post, a.grants tenantId caseId = false) →
    let revoked := step deps (exec (step deps) s₀ pre) (.revokeConsent env tenantId caseId reason)
    AllSteps (step deps) (fun s a => ∀ d,
        ((s.dispatches d).revalidatedFor tenantId caseId = false →
          ((step deps s a).dispatches d).revalidatedFor tenantId caseId = false)
        ∧ ((s.dispatches d).ofCase tenantId caseId = true → a.callsSubmit s d = true →
          (revoked.dispatches d).revalidatedFor tenantId caseId = true)) revoked post

/-- Every record that a dispatch of the case has pinned is the one about to be revoked, or was
revoked before. -/
def RevokesEveryPin (s : System) (tenantId caseId : Uuid) : Prop :=
  ∀ d, (s.dispatches d).ofCase tenantId caseId = true → ∀ id ∈ (s.dispatches d).pins s.db,
    ∃ record, s.db.consents.find id = some record ∧ (record.revokedAt.isSome = true
      ∨ (newestConsents s.db tenantId caseId).find? (·.revokedAt.isNone) = some record)

/-- The condition on one step: only revocations have one. -/
def Label.hitsPins (s : System) : Label → Prop
  | .revokeConsent _ tenantId caseId _ => RevokesEveryPin s tenantId caseId
  | _ => True

/-! ## Revoked records stay revoked -/

/-- The id is that of a revoked record. -/
def IsRevoked (db : Db) (id : Uuid) : Prop :=
  ∃ record, db.consents.find id = some record ∧ record.revokedAt.isSome = true

/-- The labels that write consents. -/
def Label.touchesConsents : Label → Bool
  | .grantConsent _ | .revokeConsent _ _ _ _ => true
  | _ => false

theorem consents_of_access {db db' : Db} {state : DispatchState}
    (h : DispatchAccess db db' state) : db'.consents = db.consents := by
  cases h with
  | same hsame => exact hsame.consents
  | decided decision hinsert hgrants hconsents hstatus hactivations => exact hconsents
  | granted env hinsert hconsents hdecisions hstatus hactivations => exact hconsents

theorem step_consents {deps : Deps} {s : System} {a : Label}
    (h : a.touchesConsents = false) : (step deps s a).db.consents = s.db.consents := by
  cases htouch : a.touchesAccess with
  | false => exact (step_sameAccess htouch).consents
  | true =>
    cases a with
    | dispatch d env => exact consents_of_access (dispatchStep_access deps s.db env _)
    | grantConsent record => cases h
    | revokeConsent env tenantId caseId reason => cases h
    | decidePurpose decision => rfl
    | setAdapterStatus status => rfl
    | setActivation activation => rfl
    | _ => cases htouch

/-- A revocation writes its own record and leaves every other one as it is. -/
theorem find_of_revoke {db db' : Db} {env : Env} {tenantId caseId : Uuid}
    {reason : Option String} (h : revokeConsent db env tenantId caseId reason = .ok db')
    {id : Uuid} {record : ConsentRecord} (hfind : db.consents.find id = some record) :
    IsRevoked db' id ∨ db'.consents.find id = some record
      ∧ (newestConsents db tenantId caseId).find? (·.revokedAt.isNone) ≠ some record := by
  obtain ⟨active, tasks, hactive, -, hdb'⟩ := revokeConsent_ok h
  have hmem : active ∈ db.consents.rows :=
    (mem_newestConsents.mp (List.mem_of_find?_eq_some hactive)).1
  have hrows (c : ConsentRecord) : c ∈ db'.consents.rows
      ↔ c = { active with revokedAt := some env.processNow, revocationReason := reason }
        ∨ (c ∈ db.consents.rows ∧ c.id ≠ active.id) := by
    rw [hdb']
    exact Table.mem_put _ ⟨active, hmem, rfl⟩
  obtain ⟨hrecord, rfl⟩ := db.consents.find_eq_some_iff.mp hfind
  by_cases hid : record.id = active.id
  · have hnow := (hrows _).mpr (Or.inl rfl)
    exact Or.inl ⟨_, db'.consents.find_eq_some_iff.mpr ⟨hnow, hid.symm⟩, rfl⟩
  · refine Or.inr ⟨db'.consents.find_eq_some_iff.mpr ⟨?_, rfl⟩, fun hpicked => hid ?_⟩
    · exact (hrows record).mpr (Or.inr ⟨hrecord, hid⟩)
    · rw [hactive] at hpicked
      cases hpicked
      rfl

theorem IsRevoked.step {deps : Deps} {s : System} {a : Label} {id : Uuid}
    (h : IsRevoked s.db id) : IsRevoked (step deps s a).db id := by
  obtain ⟨record, hfind, hrevoked⟩ := h
  cases htouch : a.touchesConsents with
  | false => exact ⟨record, by rwa [step_consents htouch], hrevoked⟩
  | true =>
    cases a with
    | grantConsent granted =>
      simp only [Provider.step, System.tryDb, grantForCase]
      cases hinsert : s.db.consents.insert granted with
      | none => exact ⟨record, hfind, hrevoked⟩
      | some consents =>
        obtain ⟨hmem, hid⟩ := s.db.consents.find_eq_some_iff.mp hfind
        refine ⟨record, ?_, hrevoked⟩
        rw [Table.find_eq_some_iff, Table.rows_of_insert hinsert]
        exact ⟨List.mem_append_left _ hmem, hid⟩
    | revokeConsent env tenantId caseId reason =>
      simp only [Provider.step, System.tryDb]
      cases hrevoke : revokeConsent s.db env tenantId caseId reason with
      | error e => exact ⟨record, hfind, hrevoked⟩
      | ok db' =>
        rcases find_of_revoke hrevoke hfind with hnow | ⟨hkept, -⟩
        · exact hnow
        · exact ⟨record, hkept, hrevoked⟩
    | _ => cases htouch

/-- The case's most recent record, if it has one, is revoked. -/
def MostRecentRevoked (db : Db) (tenantId caseId : Uuid) : Prop :=
  ∀ c, mostRecentRecord db tenantId caseId = some c → c.revokedAt.isSome = true

/-- Behind a revocation the case's most recent record is revoked: either it was the newest
unrevoked one, or it had been revoked before. -/
theorem mostRecentRevoked_of_revoke {db db' : Db} {env : Env} {tenantId caseId : Uuid}
    {reason : Option String} (h : revokeConsent db env tenantId caseId reason = .ok db') :
    MostRecentRevoked db' tenantId caseId := by
  intro c hc
  rcases mostRecentRecord_of_revoke h hc with hrevoked | ⟨hnewest, hother⟩
  · exact hrevoked
  by_contra hunrevoked
  -- the head is unrevoked, so it is what the search for an unrevoked record finds
  obtain ⟨tail, hlist⟩ := List.head?_eq_some_iff.mp hnewest
  apply hother
  rw [hlist]
  exact List.find?_cons_of_pos (by simpa using hunrevoked)

theorem MostRecentRevoked.step {deps : Deps} {s : System} {a : Label} {tenantId caseId : Uuid}
    (h : MostRecentRevoked s.db tenantId caseId) (ha : a.grants tenantId caseId = false) :
    MostRecentRevoked (step deps s a).db tenantId caseId := by
  cases htouch : a.touchesConsents with
  | false =>
    intro c hc
    rw [mostRecentRecord_congr (step_consents htouch)] at hc
    exact h c hc
  | true =>
    cases a with
    | grantConsent record =>
      simp only [Provider.step, System.tryDb]
      cases hgrant : grantForCase s.db record with
      | error e => exact h
      | ok db' =>
        intro c hc
        rw [mostRecentRecord_grant hgrant (by simpa [Label.grants] using ha)] at hc
        exact h c hc
    | revokeConsent env tenantId' caseId' reason =>
      simp only [Provider.step, System.tryDb]
      cases hrevoke : revokeConsent s.db env tenantId' caseId' reason with
      | error e => exact h
      | ok db' =>
        intro c hc
        rcases mostRecentRecord_of_revoke hrevoke hc with hrevoked | ⟨hbefore, -⟩
        · exact hrevoked
        · exact h c hbefore
    | _ => cases htouch

/-! ## How the checks of a dispatch advance -/

/-- What a step of the platform does to the checks of one dispatch. -/
inductive CheckMove (db db' : Db) : DispatchState → DispatchState → Prop where
  /-- the dispatch is over, or has only an outcome left to write -/
  | leaves {state state' : DispatchState} (hrequest : state'.request = none) :
      CheckMove db db' state state'
  | starts {deps : Deps} {p : DispatchProviderRequestParams} :
      CheckMove db db' .idle (dispatchStart deps p)
  /-- no check of a consent -/
  | goes {state state' : DispatchState} (hrequest : state'.request = state.request)
      (hrevalidated : state'.revalidated = state.revalidated)
      (hpins : state'.pins db' ⊆ state.pins db) : CheckMove db db' state state'
  /-- the most recent record is read, and pinned -/
  | pinned {p : DispatchProviderRequestParams} {adapter : ProviderAdapter}
      {state' : DispatchState} {now : Instant} {record : ConsentRecord}
      (hrecord : activeRecordForPurpose db now p.tenantId p.caseId p.purposeCode
        p.permittedDataClasses = some record) (hrequest : ∀ q ∈ state'.request, q = p) :
      CheckMove db db' (.consent p adapter) state'
  /-- a pinned record is found valid -/
  | checked {p : DispatchProviderRequestParams} {adapter : ProviderAdapter}
      {decisionId : Option Uuid} {intent : ProviderOperationIntent}
      {grant : ProviderAuthorizationGrant} {now : Instant} {consentRecordId : Uuid}
      {remaining : List Uuid} {state' : DispatchState}
      (hvalid : revalidateConsent db now grant consentRecordId = .ok ())
      (hrequest : ∀ q ∈ state'.request, q = p) :
      CheckMove db db' (.revalidateConsent p adapter decisionId intent grant
        (consentRecordId :: remaining)) state'

theorem CheckMove.refl (db : Db) (state : DispatchState) : CheckMove db db state state :=
  .goes rfl rfl (List.Subset.refl _)

theorem afterConsent_request (p : DispatchProviderRequestParams) (adapter : ProviderAdapter)
    (consentRecordId : Uuid) : ∀ q ∈ (afterConsent p adapter consentRecordId).request, q = p := by
  unfold afterConsent
  split
  · split
    · simp [DispatchState.request]
    · split <;> simp [DispatchState.request]
  · simp [DispatchState.request]

theorem afterPrepare_checkMove {deps : Deps} {db db' : Db} {p : DispatchProviderRequestParams}
    {adapter : ProviderAdapter} {decisionId : Option Uuid} {grantId : Uuid}
    {entity : ProviderOperationIntent} {state : DispatchState}
    (hgrants : db'.grants = db.grants) (hrequest : state.request = some p)
    (hrevalidated : state.revalidated = false)
    (hpins : state.pins db = DispatchState.pins db (.prepareRead p adapter decisionId grantId)) :
    CheckMove db db' state (afterPrepare deps p adapter decisionId grantId entity) := by
  rcases afterPrepare_cases deps p adapter decisionId grantId entity with
    ⟨result, hresult⟩ | ⟨intent, -, -, -, hintent⟩
  · rw [hresult]
    exact .leaves rfl
  · rw [hintent]
    refine .goes hrequest.symm hrevalidated.symm ?_
    rw [hpins]
    simp only [DispatchState.pins, hgrants]
    exact List.Subset.refl _

/-- **One transaction of a dispatch.** -/
theorem dispatchStep_checkMove (deps : Deps) (db : Db) (env : Env) (state : DispatchState) :
    CheckMove db (dispatchStep deps db env state).db state
      (dispatchStep deps db env state).state := by
  have hcase := dispatchStep_case deps db env state
  generalize dispatchStep deps db env state = move at hcase ⊢
  cases hcase with
  | waits state _ => exact .refl db state
  | consented p adapter record hrecord =>
    exact .pinned hrecord (afterConsent_request p adapter record.id)
  | consentValid p adapter decisionId intent grant consentRecordId remaining hvalid =>
    exact .checked hvalid fun q hq => (Option.some.inj hq).symm
  | grantIssued p adapter consentRecordId decisionId db' grant hissue =>
    -- the new grant names the record pinned so far
    obtain ⟨rfl, -⟩ := issueGrant_ok hissue
    refine .goes rfl rfl ?_
    simp only [DispatchState.pins, issueGrant_found hissue]
    exact List.Subset.refl _
  | readsOther _ _ _ _ _ _ => exact afterPrepare_checkMove rfl rfl rfl rfl
  | inserted _ _ _ _ _ _ hinsert =>
    obtain ⟨-, -, -, -, -, intents, -, rfl⟩ := prepareInsert_ok hinsert
    exact afterPrepare_checkMove rfl rfl rfl rfl
  | refreshed _ _ _ grantId existing =>
    obtain ⟨intents, hrefresh, -⟩ := prepareRefresh_effect db env existing grantId
    rw [hrefresh]
    exact afterPrepare_checkMove rfl rfl rfl rfl
  | grantValid p adapter decisionId grantId intent grant hgrant =>
    obtain ⟨hfind, hnonempty⟩ := revalidateGrant_ok hgrant
    refine .goes rfl ?_ ?_
    · cases hids : grant.consentRecordIds with
      | nil => exact absurd hids hnonempty
      | cons id ids => rfl
    · simp only [DispatchState.pins, hfind]
      exact List.Subset.refl _
  | refused _ _ _ => exact .leaves rfl
  | unauthorized _ _ _ _ => exact .leaves rfl
  | authorizationFailed _ _ _ _ => exact .leaves rfl
  | authorizationStuck _ _ _ _ => exact .leaves rfl
  | succeeded _ _ _ _ _ => exact .leaves rfl
  | successLost _ _ _ _ _ => exact .leaves rfl
  | failed _ _ _ _ _ => exact .leaves rfl
  | failureStuck _ _ _ _ _ => exact .leaves rfl
  | lost _ _ _ _ => exact .leaves rfl
  | lossStuck _ _ _ _ => exact .leaves rfl
  -- no check of a consent
  | _ => exact .goes rfl rfl (List.Subset.refl _)

/-- A stored grant keeps naming what it names. -/
theorem pins_kept {db db' : Db} {state : DispatchState} (h : state.Granted db)
    (hgrants : ∀ id grant, db.grants.find id = some grant → db'.grants.find id = some grant) :
    state.pins db' = state.pins db := by
  have hstored {p : DispatchProviderRequestParams} {adapter : ProviderAdapter} {grantId : Uuid}
      (hgrant : GrantStored db p adapter grantId) :
      db'.grants.find grantId = db.grants.find grantId := by
    obtain ⟨grant, hfind, -⟩ := hgrant
    rw [hfind, hgrants grantId grant hfind]
  cases state with
  | prepareRead p adapter decisionId grantId => simp only [DispatchState.pins, hstored h]
  | prepareInsert p adapter decisionId grantId => simp only [DispatchState.pins, hstored h]
  | prepareRefresh p adapter decisionId grantId existing => simp only [DispatchState.pins, hstored h]
  | revalidateGrant p adapter decisionId grantId intent => simp only [DispatchState.pins, hstored h]
  | _ => rfl

/-- **Any step of the platform**, as one dispatch sees it. -/
theorem step_checkMove (deps : Deps) {s : System} (h : s.Granted) (a : Label) (d : Nat) :
    CheckMove s.db (step deps s a).db (s.dispatches d) ((step deps s a).dispatches d) := by
  have hstays (hsame : (step deps s a).dispatches d = s.dispatches d) :
      CheckMove s.db (step deps s a).db (s.dispatches d) ((step deps s a).dispatches d) := by
    rw [hsame]
    refine .goes rfl rfl ?_
    rw [pins_kept (h d) fun id grant => step_grants_find]
    exact List.Subset.refl _
  by_cases hown : a.ofDispatch = some d
  · cases a with
    | startDispatch d' p =>
      cases hown
      simp only [step]
      cases hidle : s.dispatches d with
      | idle =>
        simp only [System.setDispatch, Function.update_self]
        exact .starts
      | _ => rw [hidle]; exact .refl _ _
    | dispatch d' env =>
      cases hown
      simp only [step, System.setDispatch, Function.update_self]
      exact dispatchStep_checkMove deps s.db env _
    | submitReturns d' env outcome =>
      cases hown
      simp only [step, System.setDispatch, Function.update_self]
      cases s.dispatches d with
      | awaiting p adapter intent grant =>
        cases outcome with
        | receipt receipt => simp only [dispatchReturn]; split <;> exact .leaves rfl
        | threw e => exact .leaves rfl
      | _ => exact .refl _ _
    | storeFails d' =>
      cases hown
      simp only [step, System.setDispatch, Function.update_self]
      cases s.dispatches d with
      | submit p adapter intent grant => exact .refl _ _
      | awaiting p adapter intent grant => exact .refl _ _
      | _ => exact .leaves rfl
    | crash d' =>
      cases hown
      simp only [step, System.setDispatch, Function.update_self]
      exact .leaves rfl
    | _ => cases hown
  · exact hstays (dispatch_frame deps d [a] (by simpa using hown))

/-! ## Behind a revocation -/

/-- Nobody can pass: the record a new dispatch would pin is revoked, and so is every record
pinned already. -/
structure Stopped (tenantId caseId : Uuid) (s : System) : Prop where
  mostRecent : MostRecentRevoked s.db tenantId caseId
  pins : ∀ d, (s.dispatches d).ofCase tenantId caseId = true →
    ∀ id ∈ (s.dispatches d).pins s.db, IsRevoked s.db id

theorem revalidateConsent_of_revoked {db : Db} {now : Instant}
    {grant : ProviderAuthorizationGrant} {id : Uuid} (h : IsRevoked db id) :
    revalidateConsent db now grant id ≠ .ok () := by
  obtain ⟨record, hfind, hrevoked⟩ := h
  have hforce : record.inForce now = false := by
    cases hrevokedAt : record.revokedAt with
    | none => rw [hrevokedAt] at hrevoked; cases hrevoked
    | some t => simp [ConsentRecord.inForce, hrevokedAt]
  simp [revalidateConsent, isRecordValid, hfind, hforce]

theorem activeRecord_of_revoked {db : Db} {now : Instant} {tenantId caseId : Uuid}
    {purpose : String} {dataClasses : List String} (h : MostRecentRevoked db tenantId caseId) :
    activeRecordForPurpose db now tenantId caseId purpose dataClasses = none := by
  cases hrecord : activeRecordForPurpose db now tenantId caseId purpose dataClasses with
  | none => rfl
  | some record =>
    obtain ⟨hnewest, hvalid⟩ := Option.filter_eq_some_iff.mp hrecord
    have hrevoked := h record hnewest
    have hnone : record.revokedAt.isNone = true := by
      simp only [ConsentRecord.inForce, Bool.and_eq_true] at hvalid
      exact hvalid.1.1
    simp [Option.isNone_iff_eq_none.mp hnone] at hrevoked

theorem dispatchStart_checks (deps : Deps) (db : Db) (p : DispatchProviderRequestParams) :
    (dispatchStart deps p).pins db = [] ∧ (dispatchStart deps p).revalidated = false := by
  unfold dispatchStart
  split
  · exact ⟨rfl, rfl⟩
  · split <;> exact ⟨rfl, rfl⟩

theorem ofCase_eq_false {state : DispatchState} {p : DispatchProviderRequestParams}
    {tenantId caseId : Uuid} (hrequest : ∀ q ∈ state.request, q = p)
    (hother : ¬ (p.tenantId = tenantId ∧ p.caseId = caseId)) :
    state.ofCase tenantId caseId = false := by
  cases hq : state.request with
  | none => simp [DispatchState.ofCase, hq]
  | some q =>
    obtain rfl := hrequest q hq
    simpa [DispatchState.ofCase, hq] using hother

/-- **Behind a revocation nobody revalidates**: the step lemma. -/
theorem Stopped.step (deps : Deps) {s : System} {tenantId caseId : Uuid}
    (h : Stopped tenantId caseId s) (hgranted : s.Granted) {a : Label}
    (ha : a.grants tenantId caseId = false) :
    Stopped tenantId caseId (step deps s a)
      ∧ ∀ d, (s.dispatches d).revalidatedFor tenantId caseId = false →
        ((step deps s a).dispatches d).revalidatedFor tenantId caseId = false := by
  have hmove : ∀ d, (((Provider.step deps s a).dispatches d).ofCase tenantId caseId = true →
        ∀ id ∈ ((Provider.step deps s a).dispatches d).pins (Provider.step deps s a).db,
          IsRevoked s.db id)
      ∧ ((s.dispatches d).revalidatedFor tenantId caseId = false →
        ((Provider.step deps s a).dispatches d).revalidatedFor tenantId caseId = false) := by
    intro d
    have hchecks := step_checkMove deps hgranted a d
    have hpins := h.pins d
    generalize s.dispatches d = state at hchecks hpins
    generalize (Provider.step deps s a).dispatches d = state' at hchecks
    generalize (Provider.step deps s a).db = db' at hchecks
    cases hchecks with
    | leaves hrequest =>
      simp [DispatchState.revalidatedFor, DispatchState.ofCase, hrequest]
    | @starts deps p =>
      obtain ⟨hnone, hnot⟩ := dispatchStart_checks deps db' p
      simp [DispatchState.revalidatedFor, hnone, hnot]
    | goes hrequest hrevalidated hsub =>
      have hcase : state'.ofCase tenantId caseId = state.ofCase tenantId caseId := by
        simp only [DispatchState.ofCase, hrequest]
      refine ⟨fun hof id hid => hpins (hcase ▸ hof) id (hsub hid), fun hnot => ?_⟩
      rw [DispatchState.revalidatedFor, hcase, hrevalidated]
      exact hnot
    | @pinned p adapter _ now record hrecord hrequest =>
      have hother : ¬ (p.tenantId = tenantId ∧ p.caseId = caseId) := by
        -- the case's most recent record is revoked, so it is not the one just read
        rintro ⟨rfl, rfl⟩
        rw [activeRecord_of_revoked h.mostRecent] at hrecord
        cases hrecord
      have hcase := ofCase_eq_false hrequest hother
      simp [DispatchState.revalidatedFor, hcase]
    | @checked p adapter decisionId intent grant now consentRecordId remaining _ hvalid hrequest =>
      have hother : ¬ (p.tenantId = tenantId ∧ p.caseId = caseId) := by
        intro hcase
        refine revalidateConsent_of_revoked (hpins ?_ consentRecordId ?_) hvalid
        · simpa [DispatchState.ofCase, DispatchState.request] using hcase
        · exact List.mem_cons_self ..
      have hcase := ofCase_eq_false hrequest hother
      simp [DispatchState.revalidatedFor, hcase]
  exact ⟨⟨h.mostRecent.step ha, fun d hof id hid => ((hmove d).1 hof id hid).step⟩,
    fun d => (hmove d).2⟩

/-- The revocation itself stops the case, if it hits what is pinned. -/
theorem stopped_of_revoke {deps : Deps} {s : System} (hgranted : s.Granted) {env : Env}
    {tenantId caseId : Uuid} {reason : Option String}
    (hok : (revokeConsent s.db env tenantId caseId reason).isOk = true)
    (hhits : RevokesEveryPin s tenantId caseId) :
    Stopped tenantId caseId (step deps s (.revokeConsent env tenantId caseId reason)) := by
  cases hrevoke : revokeConsent s.db env tenantId caseId reason with
  | error e => rw [hrevoke] at hok; cases hok
  | ok db' =>
    have hstep : step deps s (.revokeConsent env tenantId caseId reason) = { s with db := db' } := by
      simp only [step, System.tryDb, hrevoke]
    have hgrants : db'.grants = s.db.grants := by
      obtain ⟨active, tasks, -, -, rfl⟩ := revokeConsent_ok hrevoke
      rfl
    rw [hstep]
    refine ⟨mostRecentRevoked_of_revoke hrevoke, fun d hof id hid => ?_⟩
    have hpins : (s.dispatches d).pins db' = (s.dispatches d).pins s.db :=
      pins_kept (hgranted d) fun id grant hfind => by rwa [hgrants]
    obtain ⟨record, hfind, hrecord⟩ := hhits d hof id (hpins ▸ hid)
    rcases find_of_revoke hrevoke hfind with hnow | ⟨hkept, hother⟩
    · exact hnow
    · rcases hrecord with hbefore | hpicked
      · exact ⟨record, hkept, hbefore⟩
      · exact absurd hpicked hother

/-- What holds along the run behind a revocation, until a new consent. -/
structure Behind (tenantId caseId : Uuid) (revoked s : System) : Prop where
  granted : s.Granted
  stopped : Stopped tenantId caseId s
  /-- whoever has revalidated had done so before the revocation -/
  before : ∀ d, (revoked.dispatches d).revalidatedFor tenantId caseId = false →
    (s.dispatches d).revalidatedFor tenantId caseId = false

theorem Behind.step {deps : Deps} {tenantId caseId : Uuid} {revoked s : System}
    (h : Behind tenantId caseId revoked s) {a : Label} (ha : a.grants tenantId caseId = false) :
    Behind tenantId caseId revoked (step deps s a) := by
  obtain ⟨hstopped, hnot⟩ := h.stopped.step deps h.granted ha
  exact ⟨h.granted.step a, hstopped, fun d hd => hnot d (h.before d hd)⟩

theorem revalidatedFor_of_callsSubmit {s : System} {a : Label} {d : Nat} {tenantId caseId : Uuid}
    (hcase : (s.dispatches d).ofCase tenantId caseId = true) (h : a.callsSubmit s d = true) :
    (s.dispatches d).revalidatedFor tenantId caseId = true := by
  cases a with
  | dispatch d' env =>
    have hsubmit := (Bool.and_eq_true_iff.mp h).2
    rw [DispatchState.revalidatedFor, hcase]
    cases hstate : s.dispatches d with
    | submit p adapter intent grant => rfl
    | _ => rw [hstate] at hsubmit; cases hsubmit
  | _ => cases h

/-- Dispatch 0 has pinned the borrower's consent and prepared intent 20. -/
def untilRevalidate : List Label :=
  .startDispatch 0 incomeRequest :: runs 0 5 20

def incomeRevocation : Label := .revokeConsent (envAt 30) 1 3 none

/-- The borrower consents once more while the dispatch is under way, and then revokes: the newer
record is revoked, the pinned one is not. -/
def newerConsentRun : List Label :=
  untilRevalidate ++ [.grantConsent { incomeConsent with id := 6, grantedAt := 1786795100000 }]

end MortgageAgent.Provider
