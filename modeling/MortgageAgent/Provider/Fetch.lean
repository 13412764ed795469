import MortgageAgent.Provider.Payloads

/-!
# Fetching evidence while a consent is revoked

A fetch activity dispatches its request and then, in a transaction of its own, records the finding
it got back as evidence; in between the finding is only in its memory. A revocation is one
transaction at `READ COMMITTED`, so what it reads is what was committed when the statement ran:
it is cut here into its statements. Other labels are the platform's.

* **`FetchSystem`** / **`FetchLabel`** / **`fetchStep`** — the platform, the fetches, the
  revocations, and the history: under which consents every finding, payload and evidence record
  was obtained. No step reads the history.
* **`revoke_at_once`** — the statements of a revocation, one after the other, are `revokeConsent`.
* **`Erased`** — a review resolved by erasing has left nothing obtained under its consent.
* **`SnapshotComplete`** — the steps after which a review names all that it has to.
-/

namespace MortgageAgent.Provider

open Runs

/-- Where a `revoke` stands. The revoked record is written first, and seen by nobody else before
the commit. -/
inductive RevokeState where
  | idle
  | readEvidence (active : ConsentRecord) (reason : Option String)
  | readIntents (active : ConsentRecord) (reason : Option String) (evidenceFactIds : List Uuid)
  | commit (active : ConsentRecord) (reason : Option String)
      (evidenceFactIds providerIntentIds : List Uuid)

structure FetchSystem where
  platform : System
  /-- the request of each dispatch that a fetch has started -/
  requests : Nat → Option DispatchProviderRequestParams
  /-- the fetches that have recorded their finding -/
  recorded : Nat → Bool
  revokes : Nat → RevokeState
  /-- history: the consents the finding of a dispatch is obtained under -/
  under : Nat → List Uuid
  /-- history: the same of an intent's payloads, which are written once -/
  payloadUnder : Uuid → List Uuid
  /-- history: the same of an evidence record -/
  evidenceUnder : Uuid → List Uuid

inductive FetchLabel where
  | platform (a : Label)
  | recordEvidence (d : Nat) (env : Env)
  | startRevoke (r : Nat) (tenantId caseId : Uuid) (reason : Option String)
  | revoke (r : Nat) (env : Env)
  /-- the transaction of a `revoke` fails, or its process dies -/
  | revokeFails (r : Nat)

/-! ## Revocation, statement by statement -/

def caseEvidence (db : Db) (tenantId caseId : Uuid) : List Uuid :=
  (db.evidence.rows.filter fun e => e.tenantId = tenantId && e.caseId = caseId).map (·.id)

def caseIntents (db : Db) (tenantId caseId : Uuid) : List Uuid :=
  (db.intents.rows.filter fun i => i.tenantId = tenantId && i.caseId = caseId).map (·.id)

/-- `retentionReview` over the ids read. -/
def reviewOf (env : Env) (active : ConsentRecord)
    (evidenceFactIds providerIntentIds : List Uuid) : DataDispositionTask where
  id := env.newId
  tenantId := active.tenantId
  caseId := active.caseId
  reason := "Consent " ++ toString active.id ++ " was revoked for case "
    ++ toString active.caseId ++ "; " ++ toString evidenceFactIds.length
    ++ " evidence record(s) and " ++ toString providerIntentIds.length
    ++ " provider result(s) require retention review."
  triggeringConsentRecordId := some active.id
  affectedEvidenceFactIds := evidenceFactIds
  affectedProviderIntentIds := providerIntentIds

def ConsentRecord.revoked (c : ConsentRecord) (env : Env) (reason : Option String) :
    ConsentRecord :=
  { c with revokedAt := some env.processNow, revocationReason := reason }

def FetchSystem.setRevoke (s : FetchSystem) (r : Nat) (state : RevokeState) : FetchSystem :=
  { s with revokes := Function.update s.revokes r state }

def FetchSystem.startRevoke (s : FetchSystem) (r : Nat) (tenantId caseId : Uuid)
    (reason : Option String) : FetchSystem :=
  match s.revokes r with
  | .idle =>
    match (newestConsents s.platform.db tenantId caseId).find? fun c => c.revokedAt.isNone with
    | none => s
    | some active => s.setRevoke r (.readEvidence active reason)
  | _ => s

def FetchSystem.revoke (s : FetchSystem) (r : Nat) (env : Env) : FetchSystem :=
  let db := s.platform.db
  match s.revokes r with
  | .readEvidence active reason =>
    s.setRevoke r (.readIntents active reason (caseEvidence db active.tenantId active.caseId))
  | .readIntents active reason evidenceFactIds =>
    s.setRevoke r
      (.commit active reason evidenceFactIds (caseIntents db active.tenantId active.caseId))
  | .commit active reason evidenceFactIds providerIntentIds =>
    match db.tasks.insert (reviewOf env active evidenceFactIds providerIntentIds) with
    | none => s.setRevoke r .idle
    | some tasks =>
      let consents := db.consents.put (active.revoked env reason)
      { s with platform.db := { db with consents, tasks } }.setRevoke r .idle
  | .idle => s

/-! ## Fetches -/

/-- The grant a dispatch has in hand. -/
def DispatchState.grant : DispatchState → Option ProviderAuthorizationGrant
  | .revalidateConsent _ _ _ _ grant _ => some grant
  | .revalidatePurpose _ _ _ _ grant => some grant
  | .markDispatched _ _ _ grant => some grant
  | .submit _ _ _ grant => some grant
  | .awaiting _ _ _ grant => some grant
  | _ => none

/-- What a transaction that takes a dispatch from `before` to `after` says of the consents behind
its finding: those of the grant it submits under, or, where it may replay a stored finding, those
that one was obtained under and the one it has pinned itself. -/
def FetchSystem.consentsBehind (s : FetchSystem) (under : List Uuid)
    (before after : DispatchState) : List Uuid :=
  match after.grant with
  | some grant => grant.consentRecordIds
  | none =>
    match before with
    | .prepareRead p adapter _ grantId =>
      match s.platform.db.findByKey (PrepareIntentInput.ofParams p adapter grantId).key with
      | some existing => s.payloadUnder existing.id ++ before.pins s.platform.db
      | none => under
    | _ => under

/-- A step of the platform, and what it adds to the history. -/
def FetchSystem.step (deps : Deps) (s : FetchSystem) (a : Label) : FetchSystem :=
  let s' := { s with platform := Provider.step deps s.platform a }
  match a with
  | .startDispatch d p =>
    match s.platform.dispatches d with
    | .idle => { s' with requests := Function.update s.requests d (some p) }
    | _ => s'
  | .dispatch d env =>
    let under := Function.update s.under d
      (s.consentsBehind (s.under d) (s.platform.dispatches d) (s'.platform.dispatches d))
    match (s.platform.dispatches d).writesPayload deps s.platform.db env with
    | some id =>
      { s' with under, payloadUnder := Function.update s.payloadUnder id (s.under d) }
    | none => { s' with under }
  | _ => s'

/-- The evidence transaction of a fetch whose dispatch has returned. -/
def FetchSystem.recordEvidence (s : FetchSystem) (d : Nat) (env : Env) : FetchSystem :=
  match s.requests d, s.platform.dispatches d with
  | some p, .finished (.ok finding) =>
    if s.recorded d then s
    else
      let fact : EvidenceFact :=
        { id := env.newId, tenantId := p.tenantId, caseId := p.caseId, value := finding }
      match s.platform.db.evidence.insert fact with
      | none => { s with recorded := Function.update s.recorded d true }
      | some evidence =>
        { s with
          platform.db.evidence := evidence
          recorded := Function.update s.recorded d true
          evidenceUnder := Function.update s.evidenceUnder fact.id (s.under d) }
  | _, _ => s

def fetchStep (deps : Deps) (s : FetchSystem) : FetchLabel → FetchSystem
  -- a revocation runs in its statements, and evidence is recorded by fetches.
  | .platform (.revokeConsent _ _ _ _) | .platform (.recordEvidence _) => s
  | .platform a => s.step deps a
  | .recordEvidence d env => s.recordEvidence d env
  | .startRevoke r tenantId caseId reason => s.startRevoke r tenantId caseId reason
  | .revoke r env => s.revoke r env
  | .revokeFails r => s.setRevoke r .idle

/-- No intent, no evidence, no review and no process; the other rows are whatever they are. -/
def FetchSystem.init (db : Db) : FetchSystem where
  platform := .init { db with evidence := .empty, tasks := .empty }
  requests := fun _ => none
  recorded := fun _ => false
  revokes := fun _ => .idle
  under := fun _ => []
  payloadUnder := fun _ => []
  evidenceUnder := fun _ => []

/-- **A revocation that nothing comes between** is the platform's `revokeConsent`. -/
theorem revoke_at_once (deps : Deps) (s : FetchSystem) (r : Nat) (env : Env)
    (tenantId caseId : Uuid) (reason : Option String) (hidle : s.revokes r = .idle) :
    (exec (fetchStep deps) s
        [.startRevoke r tenantId caseId reason, .revoke r env, .revoke r env, .revoke r env]).platform
      = step deps s.platform (.revokeConsent env tenantId caseId reason) := by
  simp only [exec_cons, exec_nil, fetchStep, FetchSystem.startRevoke, hidle, Provider.step,
    revokeConsent]
  cases hactive : (newestConsents s.platform.db tenantId caseId).find?
      fun c => c.revokedAt.isNone with
  | none =>
    simp only [FetchSystem.revoke, hidle]
    rfl
  | some active =>
    obtain ⟨-, rfl, rfl⟩ := mem_newestConsents.mp (List.mem_of_find?_eq_some hactive)
    have hreview : reviewOf env active
        (caseEvidence s.platform.db active.tenantId active.caseId)
        (caseIntents s.platform.db active.tenantId active.caseId)
        = retentionReview s.platform.db env active.tenantId active.caseId active.id := rfl
    simp only [FetchSystem.revoke, FetchSystem.setRevoke, Function.update_self, hreview]
    cases s.platform.db.tasks.insert
      (retentionReview s.platform.db env active.tenantId active.caseId active.id) <;> rfl

/-! ## The promise and its condition -/

/-- The review ended in `DELETED` or `ANONYMIZED`. -/
def DataDispositionTask.erased (t : DataDispositionTask) : Bool :=
  t.resolutionOutcome = some .DELETED || t.resolutionOutcome = some .ANONYMIZED

/-- **Erased reviews have erased.** Nothing that was obtained under the consent of a review that
ended in `DELETED` or `ANONYMIZED` is stored: no evidence with a value, no receipt, no finding. -/
def Erased (s : FetchSystem) : Prop :=
  ∀ t ∈ s.platform.db.tasks.rows, t.erased = true →
    ∀ c, t.triggeringConsentRecordId = some c →
      (∀ e ∈ s.platform.db.evidence.rows, c ∈ s.evidenceUnder e.id → e.value = .obj [])
      ∧ ∀ i ∈ s.platform.db.intents.rows, c ∈ s.payloadUnder i.id → i.bare

/-- The consent is being revoked by a transaction that has read the case's evidence. -/
def RevokeState.hasReadEvidence (c : Uuid) : RevokeState → Prop
  | .readIntents active _ _ => active.id = c
  | .commit active _ _ _ => active.id = c
  | _ => False

/-- The consent is being revoked by a transaction that has read the case's intents without this
one. -/
def RevokeState.hasMissedIntent (c intentId : Uuid) : RevokeState → Prop
  | .commit active _ _ providerIntentIds => active.id = c ∧ intentId ∉ providerIntentIds
  | _ => False

/-- **The condition on one step.** A fetch records its finding before any consent behind it is
revoked, and before a revocation under way has read the evidence; a dispatch passes its last
consent check before a revocation under way has read the intents without its own. -/
def SnapshotComplete (s : FetchSystem) : FetchLabel → Prop
  | .recordEvidence d _ =>
    ∀ finding, s.platform.dispatches d = .finished (.ok finding) → ∀ c ∈ s.under d,
      ¬ IsRevoked s.platform.db c ∧ ∀ r, ¬ (s.revokes r).hasReadEvidence c
  | .platform (.dispatch d env) =>
    ∀ p adapter decisionId intent grant c,
      s.platform.dispatches d = .revalidateConsent p adapter decisionId intent grant [c] →
      revalidateConsent s.platform.db env.processNow grant c = .ok () →
      ∀ r, ¬ (s.revokes r).hasMissedIntent c intent.id
  | _ => True

end MortgageAgent.Provider
