import MortgageAgent.Provider.Dispatch

/-!
# What a statement of a dispatch can do

`dispatchStep` has one branch for each statement of `dispatch` and each way it can end. The
invariants over a dispatch are all proved by cases over these branches, so they are listed once.

* **`DispatchCase`** — the branches, each with what its guard has found.
* **`dispatchStep_case`** — every step is one of them.

Two kinds of branches are alike for every caller and stand as one case each: a check that ends the
dispatch before it has submitted (`DispatchState.refusable`), and a check that fails while an
intent is held, which has the intent failed first (`DispatchState.revalidates?`).
-/

namespace MortgageAgent.Provider

/-- The statements that can end the dispatch at once. -/
def DispatchState.refusable : DispatchState → Bool
  | .killSwitch _ _ | .activation _ _ | .consent _ _ | .issuePurpose _ _ _
  | .validatePurpose _ _ _ _ | .issueGrant _ _ _ _ | .prepareRead _ _ _ _
  | .prepareInsert _ _ _ _ | .markDispatched _ _ _ _ => true
  | _ => false

/-- The intent that is held while its authorization is checked again. -/
def DispatchState.revalidates? : DispatchState → Option ProviderOperationIntent
  | .revalidateGrant _ _ _ _ intent | .revalidateConsent _ _ _ intent _ _
  | .revalidatePurpose _ _ _ intent _ => some intent
  | _ => none

/-- There is nothing to do: not started, waiting for the adapter, or over. -/
def DispatchState.waits : DispatchState → Bool
  | .idle | .awaiting _ _ _ _ | .finished _ | .crashed => true
  | _ => false

inductive DispatchCase (deps : Deps) (db : Db) (env : Env) : DispatchState → DispatchMove → Prop
  | waits (state : DispatchState) (hwaits : state.waits = true) :
    DispatchCase deps db env state ⟨db, state, []⟩
  | refused (state : DispatchState) (e : ProviderFailure) (hrefusable : state.refusable = true) :
    DispatchCase deps db env state ⟨db, .finished (.error e), []⟩
  | switchedOn (p : DispatchProviderRequestParams) (adapter : ProviderAdapter)
      (hactive : isActive db adapter.providerId p.capability p.mode = true)
      (hmode : p.mode ≠ .SIMULATOR) :
    DispatchCase deps db env (.killSwitch p adapter) ⟨db, .activation p adapter, []⟩
  | simulated (p : DispatchProviderRequestParams) (adapter : ProviderAdapter)
      (hactive : isActive db adapter.providerId p.capability p.mode = true)
      (hmode : p.mode = .SIMULATOR) :
    DispatchCase deps db env (.killSwitch p adapter) ⟨db, .consent p adapter, []⟩
  | activated (p : DispatchProviderRequestParams) (adapter : ProviderAdapter)
      (hactivated : isActivated db adapter.providerId p.capability p.mode = true) :
    DispatchCase deps db env (.activation p adapter) ⟨db, .consent p adapter, []⟩
  | consented (p : DispatchProviderRequestParams) (adapter : ProviderAdapter)
      (record : ConsentRecord)
      (hrecord : activeRecordForPurpose db env.processNow p.tenantId p.caseId p.purposeCode
        p.permittedDataClasses = some record) :
    DispatchCase deps db env (.consent p adapter) ⟨db, afterConsent p adapter record.id, []⟩
  | purposeIssued (p : DispatchProviderRequestParams) (adapter : ProviderAdapter)
      (consentRecordId : Uuid) (db' : Db) (decisionId : Uuid)
      (hissue : issueSynthetic db env p.purposeContext = .ok (db', decisionId)) :
    DispatchCase deps db env (.issuePurpose p adapter consentRecordId)
      ⟨db', .validatePurpose p adapter consentRecordId decisionId, []⟩
  | purposeValid (p : DispatchProviderRequestParams) (adapter : ProviderAdapter)
      (consentRecordId decisionId : Uuid)
      (hvalid : validatePurpose db env.processNow decisionId p.purposeContext = none) :
    DispatchCase deps db env (.validatePurpose p adapter consentRecordId decisionId)
      ⟨db, .issueGrant p adapter consentRecordId (some decisionId), []⟩
  | grantIssued (p : DispatchProviderRequestParams) (adapter : ProviderAdapter)
      (consentRecordId : Uuid) (decisionId : Option Uuid) (db' : Db)
      (grant : ProviderAuthorizationGrant)
      (hissue : issueGrant db env p adapter.providerId consentRecordId decisionId
        = .ok (db', grant)) :
    DispatchCase deps db env (.issueGrant p adapter consentRecordId decisionId)
      ⟨db', .prepareRead p adapter decisionId grant.id, []⟩
  | readsNoIntent (p : DispatchProviderRequestParams) (adapter : ProviderAdapter)
      (decisionId : Option Uuid) (grantId : Uuid)
      (hread : prepareRead deps db (.ofParams p adapter grantId) = .ok .insert) :
    DispatchCase deps db env (.prepareRead p adapter decisionId grantId)
      ⟨db, .prepareInsert p adapter decisionId grantId, []⟩
  | readsPrepared (p : DispatchProviderRequestParams) (adapter : ProviderAdapter)
      (decisionId : Option Uuid) (grantId : Uuid) (existing : ProviderOperationIntent)
      (hread : prepareRead deps db (.ofParams p adapter grantId) = .ok (.refresh existing)) :
    DispatchCase deps db env (.prepareRead p adapter decisionId grantId)
      ⟨db, .prepareRefresh p adapter decisionId grantId existing, []⟩
  | readsOther (p : DispatchProviderRequestParams) (adapter : ProviderAdapter)
      (decisionId : Option Uuid) (grantId : Uuid) (existing : ProviderOperationIntent)
      (hread : prepareRead deps db (.ofParams p adapter grantId) = .ok (.reuse existing)) :
    DispatchCase deps db env (.prepareRead p adapter decisionId grantId)
      ⟨db, afterPrepare deps p adapter decisionId grantId existing, []⟩
  | inserted (p : DispatchProviderRequestParams) (adapter : ProviderAdapter)
      (decisionId : Option Uuid) (grantId : Uuid) (db' : Db) (intent : ProviderOperationIntent)
      (hinsert : prepareInsert deps db env (.ofParams p adapter grantId) = .ok (db', intent)) :
    DispatchCase deps db env (.prepareInsert p adapter decisionId grantId)
      ⟨db', afterPrepare deps p adapter decisionId grantId intent, []⟩
  | refreshed (p : DispatchProviderRequestParams) (adapter : ProviderAdapter)
      (decisionId : Option Uuid) (grantId : Uuid) (existing : ProviderOperationIntent) :
    DispatchCase deps db env (.prepareRefresh p adapter decisionId grantId existing)
      ⟨prepareRefresh db env existing grantId, afterPrepare deps p adapter decisionId grantId
        (existing.withGrant grantId existing.updatedAt), []⟩
  | unauthorized (state : DispatchState) (intent : ProviderOperationIntent)
      (failure : ProviderFailure) (hstate : state.revalidates? = some intent) :
    DispatchCase deps db env state ⟨db, .failAuthorization intent failure, []⟩
  | grantValid (p : DispatchProviderRequestParams) (adapter : ProviderAdapter)
      (decisionId : Option Uuid) (grantId : Uuid) (intent : ProviderOperationIntent)
      (grant : ProviderAuthorizationGrant)
      (hgrant : revalidateGrant db env.processNow grantId p.tenantId p.caseId adapter.providerId
        p.capability = .ok grant) :
    DispatchCase deps db env (.revalidateGrant p adapter decisionId grantId intent)
      ⟨db, .revalidateConsent p adapter decisionId intent grant grant.consentRecordIds, []⟩
  | consentValid (p : DispatchProviderRequestParams) (adapter : ProviderAdapter)
      (decisionId : Option Uuid) (intent : ProviderOperationIntent)
      (grant : ProviderAuthorizationGrant) (consentRecordId : Uuid) (remaining : List Uuid)
      (hvalid : revalidateConsent db env.processNow grant consentRecordId = .ok ()) :
    DispatchCase deps db env
      (.revalidateConsent p adapter decisionId intent grant (consentRecordId :: remaining))
      ⟨db, .revalidateConsent p adapter decisionId intent grant remaining, []⟩
  | consentsDone (p : DispatchProviderRequestParams) (adapter : ProviderAdapter)
      (decisionId : Uuid) (intent : ProviderOperationIntent) (grant : ProviderAuthorizationGrant) :
    DispatchCase deps db env (.revalidateConsent p adapter (some decisionId) intent grant [])
      ⟨db, .revalidatePurpose p adapter decisionId intent grant, []⟩
  | consentsDoneNoPurpose (p : DispatchProviderRequestParams) (adapter : ProviderAdapter)
      (intent : ProviderOperationIntent) (grant : ProviderAuthorizationGrant) :
    DispatchCase deps db env (.revalidateConsent p adapter none intent grant [])
      ⟨db, .markDispatched p adapter intent grant, []⟩
  | purposeStillValid (p : DispatchProviderRequestParams) (adapter : ProviderAdapter)
      (decisionId : Uuid) (intent : ProviderOperationIntent) (grant : ProviderAuthorizationGrant)
      (hvalid : validatePurpose db env.processNow decisionId p.purposeContext = none) :
    DispatchCase deps db env (.revalidatePurpose p adapter decisionId intent grant)
      ⟨db, .markDispatched p adapter intent grant, []⟩
  | authorizationFailed (intent : ProviderOperationIntent) (failure : ProviderFailure) (db' : Db)
      (hmark : markFailedFinal deps db env intent.tenantId intent.id none = .ok db') :
    DispatchCase deps db env (.failAuthorization intent failure)
      ⟨db', .finished (.error failure), [.failedFinal intent.id]⟩
  | authorizationStuck (intent : ProviderOperationIntent) (failure e : ProviderFailure)
      (hmark : markFailedFinal deps db env intent.tenantId intent.id none = .error e) :
    DispatchCase deps db env (.failAuthorization intent failure) ⟨db, .finished (.error e), []⟩
  | dispatched (p : DispatchProviderRequestParams) (adapter : ProviderAdapter)
      (intent : ProviderOperationIntent) (grant : ProviderAuthorizationGrant) (db' : Db)
      (hmark : markDispatched db env intent.tenantId intent.id = .ok db') :
    DispatchCase deps db env (.markDispatched p adapter intent grant)
      ⟨db', .submit p adapter intent grant, []⟩
  | submitted (p : DispatchProviderRequestParams) (adapter : ProviderAdapter)
      (intent : ProviderOperationIntent) (grant : ProviderAuthorizationGrant) :
    DispatchCase deps db env (.submit p adapter intent grant)
      ⟨db, .awaiting p adapter intent grant, [.submitted intent.id (p.operationKey adapter)]⟩
  | succeeded (intent : ProviderOperationIntent) (receipt : SynchronousProviderReceipt)
      (finding : Json) (db' : Db)
      (hmark : markSucceeded deps db env intent.tenantId intent.id receipt finding = .ok db') :
    DispatchCase deps db env (.markSucceeded intent receipt finding)
      ⟨db', .finished (.ok finding), []⟩
  | successLost (intent : ProviderOperationIntent) (receipt : SynchronousProviderReceipt)
      (finding : Json) (e : ProviderFailure)
      (hmark : markSucceeded deps db env intent.tenantId intent.id receipt finding = .error e) :
    DispatchCase deps db env (.markSucceeded intent receipt finding)
      ⟨db, .record intent (.failedFinal (some receipt)) e, []⟩
  | failed (intent : ProviderOperationIntent) (receipt : Option SynchronousProviderReceipt)
      (failure : ProviderFailure) (db' : Db)
      (hmark : markFailedFinal deps db env intent.tenantId intent.id receipt = .ok db') :
    DispatchCase deps db env (.record intent (.failedFinal receipt) failure)
      ⟨db', .finished (.error failure), [.failedFinal intent.id]⟩
  | failureStuck (intent : ProviderOperationIntent) (receipt : Option SynchronousProviderReceipt)
      (failure e : ProviderFailure)
      (hmark : markFailedFinal deps db env intent.tenantId intent.id receipt = .error e) :
    DispatchCase deps db env (.record intent (.failedFinal receipt) failure)
      ⟨db, .finished (.error e), []⟩
  | lost (intent : ProviderOperationIntent) (failure : ProviderFailure) (db' : Db)
      (hmark : markOutcomeUnknown db env intent.tenantId intent.id = .ok db') :
    DispatchCase deps db env (.record intent .outcomeUnknown failure)
      ⟨db', .finished (.error failure), []⟩
  | lossStuck (intent : ProviderOperationIntent) (failure e : ProviderFailure)
      (hmark : markOutcomeUnknown db env intent.tenantId intent.id = .error e) :
    DispatchCase deps db env (.record intent .outcomeUnknown failure)
      ⟨db, .finished (.error e), []⟩

/-- **Every step of a dispatch is one of the cases.** -/
theorem dispatchStep_case (deps : Deps) (db : Db) (env : Env) (state : DispatchState) :
    DispatchCase deps db env state (dispatchStep deps db env state) := by
  cases state with
  | idle => exact .waits _ rfl
  | awaiting p adapter intent grant => exact .waits _ rfl
  | finished result => exact .waits _ rfl
  | crashed => exact .waits _ rfl
  | killSwitch p adapter =>
    simp only [dispatchStep]
    split
    · exact .refused _ _ rfl
    · next hactive =>
      have hactive : isActive db adapter.providerId p.capability p.mode = true := by
        simpa using hactive
      split
      · next hmode => exact .switchedOn p adapter hactive hmode
      · next hmode => exact .simulated p adapter hactive (not_not.mp hmode)
  | activation p adapter =>
    simp only [dispatchStep]
    split
    · next hactivated => exact .activated p adapter hactivated
    · exact .refused _ _ rfl
  | consent p adapter =>
    simp only [dispatchStep]
    split
    · exact .refused _ _ rfl
    · next record hrecord => exact .consented p adapter record hrecord
  | issuePurpose p adapter consentRecordId =>
    simp only [dispatchStep]
    split
    · exact .refused _ _ rfl
    · next hissue => exact .purposeIssued p adapter consentRecordId _ _ hissue
  | validatePurpose p adapter consentRecordId decisionId =>
    simp only [dispatchStep]
    split
    · exact .refused _ _ rfl
    · next hvalid => exact .purposeValid p adapter consentRecordId decisionId hvalid
  | issueGrant p adapter consentRecordId decisionId =>
    simp only [dispatchStep]
    split
    · exact .refused _ _ rfl
    · next hissue => exact .grantIssued p adapter consentRecordId decisionId _ _ hissue
  | prepareRead p adapter decisionId grantId =>
    simp only [dispatchStep]
    split
    · exact .refused _ _ rfl
    · next hread => exact .readsNoIntent p adapter decisionId grantId hread
    · next existing hread => exact .readsPrepared p adapter decisionId grantId existing hread
    · next existing hread => exact .readsOther p adapter decisionId grantId existing hread
  | prepareInsert p adapter decisionId grantId =>
    simp only [dispatchStep]
    split
    · exact .refused _ _ rfl
    · next hinsert => exact .inserted p adapter decisionId grantId _ _ hinsert
  | prepareRefresh p adapter decisionId grantId existing =>
    exact .refreshed p adapter decisionId grantId existing
  | revalidateGrant p adapter decisionId grantId intent =>
    simp only [dispatchStep]
    split
    · exact .unauthorized _ intent _ rfl
    · next grant hgrant => exact .grantValid p adapter decisionId grantId intent grant hgrant
  | revalidateConsent p adapter decisionId intent grant remaining =>
    cases remaining with
    | nil =>
      cases decisionId with
      | some decisionId => exact .consentsDone p adapter decisionId intent grant
      | none => exact .consentsDoneNoPurpose p adapter intent grant
    | cons consentRecordId remaining =>
      simp only [dispatchStep]
      split
      · exact .unauthorized _ intent _ rfl
      · next hvalid => exact .consentValid p adapter decisionId intent grant _ _ hvalid
  | revalidatePurpose p adapter decisionId intent grant =>
    simp only [dispatchStep]
    split
    · exact .unauthorized _ intent _ rfl
    · next hvalid => exact .purposeStillValid p adapter decisionId intent grant hvalid
  | failAuthorization intent failure =>
    simp only [dispatchStep]
    split
    · next hmark => exact .authorizationStuck intent failure _ hmark
    · next hmark => exact .authorizationFailed intent failure _ hmark
  | markDispatched p adapter intent grant =>
    simp only [dispatchStep]
    split
    · exact .refused _ _ rfl
    · next hmark => exact .dispatched p adapter intent grant _ hmark
  | submit p adapter intent grant => exact .submitted p adapter intent grant
  | markSucceeded intent receipt finding =>
    simp only [dispatchStep]
    split
    · next hmark => exact .successLost intent receipt finding _ hmark
    · next hmark => exact .succeeded intent receipt finding _ hmark
  | record intent plan failure =>
    cases plan with
    | failedFinal receipt =>
      simp only [dispatchStep]
      split
      · next hmark => exact .failureStuck intent receipt failure _ hmark
      · next hmark => exact .failed intent receipt failure _ hmark
    | outcomeUnknown =>
      simp only [dispatchStep]
      split
      · next hmark => exact .lossStuck intent failure _ hmark
      · next hmark => exact .lost intent failure _ hmark

end MortgageAgent.Provider
