import MortgageAgent.Provider.ReviewRows

/-!
# Who writes a receipt or a finding

An intent's payload columns are written at the end of a dispatch and emptied by a disposition;
every other step leaves them as they are.

* **`PayloadsFrom`**, **`step_payloads`** — after a step each row is bare, or has the payloads it
  had, or is the row whose outcome a dispatch has just written (`Label.writesPayload`).
* **`DispatchState.cleared`**, **`cleared_of_step`** — a dispatch may come to write a payload once
  its consents are revalidated, and only the check of its last consent gets it there.
-/

namespace MortgageAgent.Provider

open Runs

/-- The row stores no provider data. -/
def ProviderOperationIntent.bare (i : ProviderOperationIntent) : Prop :=
  i.providerReceipt = none ∧ i.normalizedFinding = none

/-- The intent whose payloads the transaction of the dispatch writes, if it commits. -/
def DispatchState.writesPayload (deps : Deps) (db : Db) (env : Env) : DispatchState → Option Uuid
  | .markSucceeded intent receipt finding =>
    if (Provider.markSucceeded deps db env intent.tenantId intent.id receipt finding).isOk then
      some intent.id
    else none
  | .record intent (.failedFinal (some receipt)) _ =>
    if (markFailedFinal deps db env intent.tenantId intent.id (some receipt)).isOk then
      some intent.id
    else none
  | _ => none

def Label.writesPayload (deps : Deps) (s : System) : Label → Option Uuid
  | .dispatch d env => (s.dispatches d).writesPayload deps s.db env
  | _ => none

/-- Every row of `t'` is bare, has the payloads of its row in `t`, or is the one written, whose
outcome was open. -/
def PayloadsFrom (t t' : IntentTable) (written : Option Uuid) : Prop :=
  ∀ i' ∈ t'.rows, i'.bare ∨ ∃ i ∈ t.rows, i.id = i'.id
    ∧ ((i'.providerReceipt = i.providerReceipt ∧ i'.normalizedFinding = i.normalizedFinding)
      ∨ (written = some i.id ∧ i.state.terminal = false))

theorem PayloadsFrom.refl (t : IntentTable) (written : Option Uuid) : PayloadsFrom t t written :=
  fun i hi => Or.inr ⟨i, hi, rfl, Or.inl ⟨rfl, rfl⟩⟩

theorem PayloadsFrom.of_eq {t t' : IntentTable} {written : Option Uuid} (h : t' = t) :
    PayloadsFrom t t' written :=
  h ▸ .refl t written

/-- A row is put over its old version. -/
theorem PayloadsFrom.put {t : IntentTable} {written : Option Uuid}
    {i i' : ProviderOperationIntent} (hi : i ∈ t.rows) (hid : i.id = i'.id)
    (h : (i'.providerReceipt = i.providerReceipt ∧ i'.normalizedFinding = i.normalizedFinding)
      ∨ (written = some i.id ∧ i.state.terminal = false)) :
    PayloadsFrom t (t.put i') written := by
  intro x hx
  rcases (t.mem_put ⟨i, hi, hid⟩).mp hx with rfl | ⟨hx, -⟩
  · exact Or.inr ⟨i, hi, hid, h⟩
  · exact Or.inr ⟨x, hx, rfl, Or.inl ⟨rfl, rfl⟩⟩

/-! ## Transitions -/

/-- A transition that writes no payload. -/
theorem transition_payloads {db db' : Db} {env : Env} {tenantId id : Uuid}
    {source : List ProviderOperationIntentStatus} {state : ProviderOperationIntentStatus}
    {written : Option Uuid} (h : transition db env tenantId id source state {} = .ok db') :
    PayloadsFrom db.intents db'.intents written := by
  obtain ⟨i, hi, -, -, -, rfl⟩ := transition_ok h
  exact .put hi rfl (Or.inl ⟨by simp [ProviderOperationIntent.moved],
    by simp [ProviderOperationIntent.moved]⟩)

/-- A transition that may write one starts from an open outcome. -/
theorem transition_writesPayload {db db' : Db} {env : Env} {tenantId id : Uuid}
    {source : List ProviderOperationIntentStatus} {state : ProviderOperationIntentStatus}
    {values : PayloadValues} (hopen : ∀ s ∈ source, s.terminal = false)
    (h : transition db env tenantId id source state values = .ok db') :
    PayloadsFrom db.intents db'.intents (some id) := by
  obtain ⟨i, hi, rfl, -, hsource, rfl⟩ := transition_ok h
  exact .put hi rfl (Or.inr ⟨rfl, hopen i.state hsource⟩)

theorem markFailedFinal_payloads {deps : Deps} {db db' : Db} {env : Env} {tenantId id : Uuid}
    {written : Option Uuid} (h : markFailedFinal deps db env tenantId id none = .ok db') :
    PayloadsFrom db.intents db'.intents written :=
  transition_payloads h

/-- **One transaction of a dispatch**, on the payloads. -/
theorem dispatchStep_payloads (deps : Deps) (db : Db) (env : Env) (state : DispatchState) :
    PayloadsFrom db.intents (dispatchStep deps db env state).db.intents
      (state.writesPayload deps db env) := by
  have hcase := dispatchStep_case deps db env state
  generalize dispatchStep deps db env state = move at hcase ⊢
  cases hcase with
  | succeeded intent receipt finding db' hmark =>
    simp only [DispatchState.writesPayload, hmark]
    exact transition_writesPayload (by decide) hmark
  | failed intent receipt failure db' hmark =>
    cases receipt with
    | none => exact markFailedFinal_payloads hmark
    | some receipt =>
      simp only [DispatchState.writesPayload, hmark]
      exact transition_writesPayload (by decide) hmark
  | authorizationFailed _ _ _ hmark => exact markFailedFinal_payloads hmark
  | dispatched _ _ _ _ _ hmark => exact transition_payloads hmark
  | lost _ _ _ hmark => exact transition_payloads hmark
  | inserted _ _ _ _ _ intent hinsert =>
    obtain ⟨-, -, hreceipt, hfinding, -, intents, hrows, rfl⟩ := prepareInsert_ok hinsert
    intro i' hi'
    rw [Table.rows_of_insert hrows, List.mem_append, List.mem_singleton] at hi'
    rcases hi' with hi' | rfl
    · exact Or.inr ⟨i', hi', rfl, Or.inl ⟨rfl, rfl⟩⟩
    · exact Or.inl ⟨hreceipt, hfinding⟩
  | refreshed _ _ _ grantId existing =>
    simp only [prepareRefresh]
    split
    · next row hrow =>
      obtain ⟨hmem, -⟩ := db.intents.find_eq_some_iff.mp hrow
      split
      · exact .put hmem rfl (Or.inl ⟨rfl, rfl⟩)
      · exact .refl _ _
    · exact .refl _ _
  | purposeIssued _ _ _ _ _ hissue => exact .of_eq (issueSynthetic_intents hissue)
  | grantIssued _ _ _ _ _ _ hissue => exact .of_eq (issueGrant_intents hissue)
  -- the others only read.
  | _ => exact .refl _ _

/-! ## Everybody else -/

theorem disposed_bare (i : ProviderOperationIntent) (env : Env) (actorId : String) :
    (i.disposed env actorId).bare := by
  unfold ProviderOperationIntent.disposed
  exact ⟨rfl, rfl⟩

theorem resolveFinish_payloads {deps : Deps} {db db' : Db} {env : Env} {tenantId : Uuid}
    {task : DataDispositionTask} {action : DataDispositionResolutionAction} {actorId : String}
    {written : Option Uuid}
    (h : resolveFinish deps db env tenantId task action actorId = .ok db') :
    PayloadsFrom db.intents db'.intents written := by
  rcases resolveFinish_intents h with hsame | hdispose
  · exact .of_eq hsame
  · rw [hdispose]
    intro i' hi'
    rw [disposeIntents, Table.mapRows_rows] at hi'
    obtain ⟨i, hi, rfl⟩ := List.mem_map.mp hi'
    split
    · exact Or.inl (disposed_bare i env actorId)
    · exact Or.inr ⟨i, hi, rfl, Or.inl ⟨rfl, rfl⟩⟩

theorem resolveManually_payloads {db db' : Db} {env : Env} {tenantId id : Uuid}
    {outcome : ManualOutcome} {resolvedBy resolutionNote : String} {written : Option Uuid}
    (h : resolveManually db env tenantId id outcome resolvedBy resolutionNote = .ok db') :
    PayloadsFrom db.intents db'.intents written := by
  unfold resolveManually at h
  split at h
  · next i hi =>
    obtain ⟨hmem, -, -⟩ := findIntent_some hi
    split at h
    · cases h
      exact .put hmem rfl (Or.inl ⟨rfl, rfl⟩)
    · cases h
  · cases h

/-- **Who writes payloads.** -/
theorem step_payloads (deps : Deps) (s : System) (a : Label) :
    PayloadsFrom s.db.intents (step deps s a).db.intents (a.writesPayload deps s) := by
  have hwrites := step_writes deps s a
  generalize (step deps s a).db = db' at hwrites ⊢
  cases hwrites with
  | nothing => exact .refl _ _
  | dispatch d env => exact dispatchStep_payloads deps s.db env (s.dispatches d)
  | sweep h => exact transition_payloads h
  | resolveManually h => exact resolveManually_payloads h
  | resolve h => exact resolveFinish_payloads h
  | grantConsent h => exact .of_eq (grantForCase_intents h)
  | revokeConsent h => exact .of_eq (revokeConsent_intents h)
  | placeHold h => exact .of_eq (placeHold_intents h)
  | releaseHold h => exact .of_eq (releaseHold_intents h)
  -- the others write another table
  | _ => exact .refl _ _

/-! ## Behind the revalidation -/

/-- The intent of a dispatch that has revalidated its consents and has its outcome to write. -/
def DispatchState.cleared : DispatchState → Option Uuid
  | .revalidateConsent _ _ _ intent _ [] => some intent.id
  | .revalidatePurpose _ _ _ intent _ => some intent.id
  | .markDispatched _ _ intent _ => some intent.id
  | .submit _ _ intent _ => some intent.id
  | .awaiting _ _ intent _ => some intent.id
  | .markSucceeded intent _ _ => some intent.id
  | .record intent _ _ => some intent.id
  | _ => none

theorem cleared_of_writesPayload {deps : Deps} {db : Db} {env : Env} {state : DispatchState}
    {id : Uuid} (h : state.writesPayload deps db env = some id) : state.cleared = some id := by
  unfold DispatchState.writesPayload at h
  split at h
  · split at h
    · exact h
    · cases h
  · split at h
    · exact h
    · cases h
  · cases h

/-- A pinned consent is found valid, and it is the last. -/
def DispatchState.LastConsentValid (db : Db) (now : Instant) (id : Uuid) (state : DispatchState) :
    Prop :=
  ∃ p adapter decisionId intent grant consentRecordId,
    state = .revalidateConsent p adapter decisionId intent grant [consentRecordId]
      ∧ intent.id = id ∧ Provider.revalidateConsent db now grant consentRecordId = .ok ()

theorem afterPrepare_cleared (deps : Deps) (p : DispatchProviderRequestParams)
    (adapter : ProviderAdapter) (decisionId : Option Uuid) (grantId : Uuid)
    (entity : ProviderOperationIntent) :
    (afterPrepare deps p adapter decisionId grantId entity).cleared = none := by
  rcases afterPrepare_cases deps p adapter decisionId grantId entity with
    ⟨result, hresult⟩ | ⟨intent, -, -, -, hintent⟩
  · rw [hresult]
    rfl
  · rw [hintent]
    rfl

theorem afterConsent_cleared (p : DispatchProviderRequestParams) (adapter : ProviderAdapter)
    (consentRecordId : Uuid) : (afterConsent p adapter consentRecordId).cleared = none := by
  unfold afterConsent
  split
  · split
    · rfl
    · split <;> rfl
  · rfl

/-- **Only the check of the last consent clears a dispatch.** -/
theorem cleared_of_dispatchStep {deps : Deps} {db : Db} {env : Env} {state : DispatchState}
    {id : Uuid} (h : (dispatchStep deps db env state).state.cleared = some id) :
    state.cleared = some id ∨ state.LastConsentValid db env.processNow id := by
  have hcase := dispatchStep_case deps db env state
  generalize dispatchStep deps db env state = move at hcase h
  cases hcase with
  | waits _ _ => exact Or.inl h
  | consentValid p adapter decisionId intent grant consentRecordId remaining hvalid =>
    cases remaining with
    | nil =>
      exact Or.inr ⟨p, adapter, decisionId, intent, grant, consentRecordId, rfl,
        Option.some.inj h, hvalid⟩
    | cons next rest => cases h
  | grantValid p adapter decisionId grantId intent grant hgrant =>
    obtain ⟨-, hnonempty⟩ := revalidateGrant_ok hgrant
    cases hids : grant.consentRecordIds with
    | nil => exact absurd hids hnonempty
    | cons consentRecordId remaining =>
      rw [hids] at h
      cases h
  | consented p adapter record _ =>
    rw [afterConsent_cleared] at h
    cases h
  | readsOther _ _ _ _ _ _ =>
    rw [afterPrepare_cleared] at h
    cases h
  | inserted _ _ _ _ _ _ _ =>
    rw [afterPrepare_cleared] at h
    cases h
  | refreshed _ _ _ _ _ =>
    rw [afterPrepare_cleared] at h
    cases h
  -- a cleared dispatch goes on to its submission and its outcome
  | consentsDone _ _ _ _ _ => exact Or.inl h
  | consentsDoneNoPurpose _ _ _ _ => exact Or.inl h
  | purposeStillValid _ _ _ _ _ _ => exact Or.inl h
  | dispatched _ _ _ _ _ _ => exact Or.inl h
  | submitted _ _ _ _ => exact Or.inl h
  | successLost _ _ _ _ _ => exact Or.inl h
  | _ => cases h

theorem dispatchReturn_cleared {env : Env} {outcome : SubmitOutcome} {state : DispatchState} :
    (dispatchReturn env outcome state).1.cleared = state.cleared := by
  cases state with
  | awaiting p adapter intent grant =>
    cases outcome with
    | receipt receipt => simp only [dispatchReturn]; split <;> rfl
    | threw e => rfl
  | _ => rfl

theorem dispatchStoreFails_cleared {state : DispatchState} {id : Uuid}
    (h : (dispatchStoreFails state).cleared = some id) : state.cleared = some id := by
  cases state with
  | markSucceeded intent receipt finding => exact h
  | submit p adapter intent grant => exact h
  | awaiting p adapter intent grant => exact h
  | _ => cases h

theorem dispatchStart_cleared (deps : Deps) (p : DispatchProviderRequestParams) :
    (dispatchStart deps p).cleared = none := by
  unfold dispatchStart
  split
  · rfl
  · split <;> rfl

/-- The same of a step of the platform. -/
theorem cleared_of_step {deps : Deps} {s : System} {a : Label} {d : Nat} {id : Uuid}
    (h : ((step deps s a).dispatches d).cleared = some id) :
    (s.dispatches d).cleared = some id
      ∨ ∃ env, a = .dispatch d env ∧ (s.dispatches d).LastConsentValid s.db env.processNow id := by
  by_cases hown : a.ofDispatch = some d
  · cases a with
    | startDispatch d' p =>
      cases hown
      simp only [step] at h
      split at h
      · simp only [System.setDispatch, Function.update_self, dispatchStart_cleared] at h
        cases h
      · exact Or.inl h
    | dispatch d' env =>
      cases hown
      simp only [step, System.setDispatch, Function.update_self] at h
      rcases cleared_of_dispatchStep h with hwas | hvalid
      · exact Or.inl hwas
      · exact Or.inr ⟨env, rfl, hvalid⟩
    | submitReturns d' env outcome =>
      cases hown
      simp only [step, System.setDispatch, Function.update_self, dispatchReturn_cleared] at h
      exact Or.inl h
    | storeFails d' =>
      cases hown
      simp only [step, System.setDispatch, Function.update_self] at h
      exact Or.inl (dispatchStoreFails_cleared h)
    | crash d' =>
      cases hown
      simp only [step, System.setDispatch, Function.update_self] at h
      cases h
    | _ => cases hown
  · have hstays : (step deps s a).dispatches d = s.dispatches d :=
      dispatch_frame deps d [a] (by simpa using hown)
    rw [hstays] at h
    exact Or.inl h

end MortgageAgent.Provider
