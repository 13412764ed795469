import MortgageAgent.Provider.DispatchCases
import MortgageAgent.Provider.System
import Mathlib.Logic.Relation

/-!
# The life of an operation intent

Four components write an intent row through different code: `prepare`, the compare-and-swap
helper behind the `mark*` methods, manual resolution and the disposition's bulk update. One
relation says what any of them may do to a row.

* **`StateEdge`** — the edges of the intent's state machine.
* **`IntentStep`** — one row before and after: identity fixed, state on an edge or unchanged,
  the grant moved only under `PREPARED`.
* **`IntentEffect`** — what one step does to the table: nothing, one new `PREPARED` row, or
  `IntentStep` on rows that stay.
* **`intent_lifecycle`** — hence along every run.
-/

namespace MortgageAgent.Provider

open Runs

/-! ## The state machine -/

abbrev IntentTable := Table ProviderOperationIntent ProviderOperationIntent.id

inductive StateEdge : ProviderOperationIntentStatus → ProviderOperationIntentStatus → Prop where
  | dispatch : StateEdge .PREPARED .DISPATCHED
  | refuse : StateEdge .PREPARED .FAILED_FINAL
  | withdraw : StateEdge .PREPARED .CANCELLED
  | succeed : StateEdge .DISPATCHED .SUCCEEDED
  | fail : StateEdge .DISPATCHED .FAILED_FINAL
  | lose : StateEdge .DISPATCHED .OUTCOME_UNKNOWN
  | flag : StateEdge .OUTCOME_UNKNOWN .RECONCILING
  | settleUnknown (o : ManualOutcome) : StateEdge .OUTCOME_UNKNOWN o.status
  | settleReconciling (o : ManualOutcome) : StateEdge .RECONCILING o.status

/-- `SUCCEEDED`, `FAILED_FINAL` and `CANCELLED`. -/
def ProviderOperationIntentStatus.terminal (s : ProviderOperationIntentStatus) : Bool :=
  s = .SUCCEEDED || s = .FAILED_FINAL || s = .CANCELLED

theorem StateEdge.not_terminal {a b : ProviderOperationIntentStatus} (h : StateEdge a b) :
    a.terminal = false := by
  cases h <;> rfl

/-- Nothing leads back to `PREPARED`. -/
theorem StateEdge.ne_prepared {a b : ProviderOperationIntentStatus} (h : StateEdge a b) :
    b ≠ .PREPARED := by
  cases h with
  | settleUnknown o => cases o <;> nofun
  | settleReconciling o => cases o <;> nofun
  | _ => nofun

/-- The columns that never change. -/
structure SameIdentity (i i' : ProviderOperationIntent) : Prop where
  id : i'.id = i.id
  tenantId : i'.tenantId = i.tenantId
  caseId : i'.caseId = i.caseId
  providerId : i'.providerId = i.providerId
  capability : i'.capability = i.capability
  logicalOperationKey : i'.logicalOperationKey = i.logicalOperationKey
  requestFingerprint : i'.requestFingerprint = i.requestFingerprint
  idempotencyKey : i'.idempotencyKey = i.idempotencyKey

theorem SameIdentity.refl (i : ProviderOperationIntent) : SameIdentity i i :=
  ⟨rfl, rfl, rfl, rfl, rfl, rfl, rfl, rfl⟩

theorem SameIdentity.trans {i j k : ProviderOperationIntent} (h : SameIdentity i j)
    (h' : SameIdentity j k) : SameIdentity i k :=
  ⟨h'.id.trans h.id, h'.tenantId.trans h.tenantId, h'.caseId.trans h.caseId,
    h'.providerId.trans h.providerId, h'.capability.trans h.capability,
    h'.logicalOperationKey.trans h.logicalOperationKey,
    h'.requestFingerprint.trans h.requestFingerprint, h'.idempotencyKey.trans h.idempotencyKey⟩

theorem SameIdentity.key_eq {i i' : ProviderOperationIntent} (h : SameIdentity i i') :
    i'.key = i.key := by
  simp [ProviderOperationIntent.key, h.tenantId, h.providerId, h.capability,
    h.logicalOperationKey]

/-- One row before and after a step. -/
structure IntentStep (i i' : ProviderOperationIntent) : Prop where
  same : SameIdentity i i'
  state : i'.state = i.state ∨ StateEdge i.state i'.state
  grant : i'.authorizationGrantId = i.authorizationGrantId ∨ i.state = .PREPARED

theorem IntentStep.refl (i : ProviderOperationIntent) : IntentStep i i :=
  ⟨.refl i, Or.inl rfl, Or.inl rfl⟩

/-! ## What a step does to the table -/

inductive IntentEffect (t t' : IntentTable) : Prop where
  | same (h : t' = t)
  | inserted (i : ProviderOperationIntent) (hstate : i.state = .PREPARED)
      (hkey : ∀ x ∈ t.rows, x.key ≠ i.key) (h : t.insert i = some t')
  | updated (i i' : ProviderOperationIntent) (hi : i ∈ t.rows) (hstep : IntentStep i i')
      (h : t' = t.put i')
  | mapped (f : ProviderOperationIntent → ProviderOperationIntent)
      (hf : ∀ i, (f i).id = i.id) (hstep : ∀ i, IntentStep i (f i)) (h : t' = t.mapRows f hf)

theorem findIntent_some {db : Db} {tenantId id : Uuid} {i : ProviderOperationIntent}
    (h : db.findIntent tenantId id = some i) :
    i ∈ db.intents.rows ∧ i.id = id ∧ i.tenantId = tenantId := by
  obtain ⟨hfind, htenant⟩ := Option.filter_eq_some_iff.mp h
  obtain ⟨hmem, hid⟩ := db.intents.find_eq_some_iff.mp hfind
  exact ⟨hmem, hid, by simpa using htenant⟩

/-- **The compare-and-swap.** A transition that returns found the row in one of the source
states and moved it. -/
theorem transition_ok {db db' : Db} {env : Env} {tenantId id : Uuid}
    {source : List ProviderOperationIntentStatus} {state : ProviderOperationIntentStatus}
    {values : PayloadValues}
    (h : transition db env tenantId id source state values = .ok db') :
    ∃ i ∈ db.intents.rows, i.id = id ∧ i.tenantId = tenantId ∧ i.state ∈ source
      ∧ db' = { db with intents := db.intents.put (i.moved env state values) } := by
  unfold transition at h
  split at h
  · next i hi =>
    obtain ⟨hmem, hid, htenant⟩ := findIntent_some hi
    split at h
    · next hsource =>
      cases h
      exact ⟨i, hmem, hid, htenant, by simpa using hsource, rfl⟩
    · cases h
  · cases h

/-- A transition along the edges of its source states. -/
theorem transition_effect {db db' : Db} {env : Env} {tenantId id : Uuid}
    {source : List ProviderOperationIntentStatus} {state : ProviderOperationIntentStatus}
    {values : PayloadValues} (hedge : ∀ s ∈ source, StateEdge s state)
    (h : transition db env tenantId id source state values = .ok db') :
    IntentEffect db.intents db'.intents := by
  obtain ⟨i, hi, -, -, hsource, rfl⟩ := transition_ok h
  exact .updated i (i.moved env state values) hi
    ⟨⟨rfl, rfl, rfl, rfl, rfl, rfl, rfl, rfl⟩, Or.inr (hedge _ hsource), Or.inl rfl⟩ rfl

theorem markDispatched_effect {db db' : Db} {env : Env} {tenantId id : Uuid}
    (h : markDispatched db env tenantId id = .ok db') : IntentEffect db.intents db'.intents :=
  transition_effect (by simpa using StateEdge.dispatch) h

theorem markSucceeded_effect {deps : Deps} {db db' : Db} {env : Env} {tenantId id : Uuid}
    {receipt : SynchronousProviderReceipt} {finding : Json}
    (h : markSucceeded deps db env tenantId id receipt finding = .ok db') :
    IntentEffect db.intents db'.intents :=
  transition_effect (by simpa using StateEdge.succeed) h

theorem markFailedFinal_effect {deps : Deps} {db db' : Db} {env : Env} {tenantId id : Uuid}
    {receipt : Option SynchronousProviderReceipt}
    (h : markFailedFinal deps db env tenantId id receipt = .ok db') :
    IntentEffect db.intents db'.intents :=
  transition_effect (by simpa using ⟨StateEdge.refuse, StateEdge.fail⟩) h

theorem markOutcomeUnknown_effect {db db' : Db} {env : Env} {tenantId id : Uuid}
    (h : markOutcomeUnknown db env tenantId id = .ok db') :
    IntentEffect db.intents db'.intents :=
  transition_effect (by simpa using StateEdge.lose) h

theorem markReconciling_effect {db db' : Db} {env : Env} {tenantId id : Uuid}
    (h : markReconciling db env tenantId id = .ok db') : IntentEffect db.intents db'.intents :=
  transition_effect (by simpa using StateEdge.flag) h

theorem resolveManually_ok {db db' : Db} {env : Env} {tenantId id : Uuid}
    {outcome : ManualOutcome} {resolvedBy resolutionNote : String}
    (h : resolveManually db env tenantId id outcome resolvedBy resolutionNote = .ok db') :
    ∃ i ∈ db.intents.rows, (i.state = .OUTCOME_UNKNOWN ∨ i.state = .RECONCILING)
      ∧ ∃ i', SameIdentity i i' ∧ i'.state = outcome.status
        ∧ i'.authorizationGrantId = i.authorizationGrantId
        ∧ db' = { db with intents := db.intents.put i' } := by
  unfold resolveManually at h
  split at h
  · next i hi =>
    obtain ⟨hmem, -, -⟩ := findIntent_some hi
    split at h
    · next hstate =>
      cases h
      exact ⟨i, hmem, hstate, i.resolved env outcome resolvedBy resolutionNote,
        ⟨rfl, rfl, rfl, rfl, rfl, rfl, rfl, rfl⟩, rfl, rfl, rfl⟩
    · cases h
  · cases h

theorem resolveManually_effect {db db' : Db} {env : Env} {tenantId id : Uuid}
    {outcome : ManualOutcome} {resolvedBy resolutionNote : String}
    (h : resolveManually db env tenantId id outcome resolvedBy resolutionNote = .ok db') :
    IntentEffect db.intents db'.intents := by
  obtain ⟨i, hi, hstate, i', hsame, hstate', hgrant, rfl⟩ := resolveManually_ok h
  refine .updated i i' hi ⟨hsame, Or.inr ?_, Or.inl hgrant⟩ rfl
  rw [hstate']
  rcases hstate with hstate | hstate <;> rw [hstate]
  · exact .settleUnknown outcome
  · exact .settleReconciling outcome

theorem findByKey_none {db : Db} {key : OperationKey} (h : db.findByKey key = none) :
    ∀ x ∈ db.intents.rows, x.key ≠ key := by
  simpa [Db.findByKey] using h

theorem findByKey_some {db : Db} {key : OperationKey} {i : ProviderOperationIntent}
    (h : db.findByKey key = some i) : i ∈ db.intents.rows ∧ i.key = key :=
  ⟨List.mem_of_find?_eq_some h, by simpa using List.find?_some h⟩

/-- The insert of `prepare` adds one `PREPARED` row under a free key. -/
theorem prepareInsert_ok {deps : Deps} {db db' : Db} {env : Env} {input : PrepareIntentInput}
    {i : ProviderOperationIntent} (h : prepareInsert deps db env input = .ok (db', i)) :
    i.state = .PREPARED ∧ i.key = input.key ∧ i.providerReceipt = none
      ∧ i.normalizedFinding = none ∧ (∀ x ∈ db.intents.rows, x.key ≠ i.key)
      ∧ ∃ intents, db.intents.insert i = some intents ∧ db' = { db with intents } := by
  unfold prepareInsert at h
  split at h
  · cases h
  · next hkey =>
    split at h
    · next intents hinsert =>
      cases h
      refine ⟨rfl, rfl, rfl, rfl, ?_, intents, hinsert, rfl⟩
      exact findByKey_none (Option.not_isSome_iff_eq_none.mp hkey)
    · cases h

/-- The refresh of `prepare` moves the grant of a row that is still `PREPARED`. -/
theorem prepareRefresh_effect (db : Db) (env : Env) (existing : ProviderOperationIntent)
    (grantId : Uuid) :
    ∃ t, prepareRefresh db env existing grantId = { db with intents := t }
      ∧ (t = db.intents ∨ ∃ i i', i ∈ db.intents.rows ∧ i'.state = i.state
        ∧ IntentStep i i' ∧ t = db.intents.put i') := by
  -- the update matches on the id and on `PREPARED`; otherwise it touches no row.
  unfold prepareRefresh
  split
  · next row hrow =>
    split
    · next hstate =>
      obtain ⟨hmem, -⟩ := db.intents.find_eq_some_iff.mp hrow
      exact ⟨_, rfl, Or.inr ⟨row, row.withGrant grantId env.dbNow, hmem, rfl,
        ⟨⟨rfl, rfl, rfl, rfl, rfl, rfl, rfl, rfl⟩, Or.inl rfl, Or.inr hstate⟩, rfl⟩⟩
    · exact ⟨db.intents, rfl, Or.inl rfl⟩
  · exact ⟨db.intents, rfl, Or.inl rfl⟩

theorem issueSynthetic_intents {db db' : Db} {env : Env} {context : PermissiblePurposeContext}
    {id : Uuid} (h : issueSynthetic db env context = .ok (db', id)) :
    db'.intents = db.intents := by
  obtain ⟨_, decisions, -, rfl⟩ := issueSynthetic_ok h
  rfl

theorem issueGrant_intents {db db' : Db} {env : Env} {p : DispatchProviderRequestParams}
    {providerId : String} {consentRecordId : Uuid} {decisionId : Option Uuid}
    {grant : ProviderAuthorizationGrant}
    (h : issueGrant db env p providerId consentRecordId decisionId = .ok (db', grant)) :
    db'.intents = db.intents := by
  obtain ⟨-, grants, -, rfl⟩ := issueGrant_ok h
  rfl

/-- One transaction of a dispatch, on the intents. -/
theorem dispatchStep_effect (deps : Deps) (db : Db) (env : Env) (state : DispatchState) :
    IntentEffect db.intents (dispatchStep deps db env state).db.intents := by
  have hcase := dispatchStep_case deps db env state
  generalize dispatchStep deps db env state = move at hcase ⊢
  cases hcase with
  | purposeIssued _ _ _ _ _ hissue => exact .same (issueSynthetic_intents hissue)
  | grantIssued _ _ _ _ _ _ hissue => exact .same (issueGrant_intents hissue)
  | inserted _ _ _ _ _ intent hinsert =>
    obtain ⟨hstate, -, -, -, hfree, intents, hrows, rfl⟩ := prepareInsert_ok hinsert
    exact .inserted intent hstate hfree hrows
  | refreshed _ _ _ grantId existing =>
    obtain ⟨t, ht, hsame | ⟨i, i', hi, -, hstep, hput⟩⟩ :=
      prepareRefresh_effect db env existing grantId
    · rw [ht]
      exact .same hsame
    · rw [ht]
      exact .updated i i' hi hstep hput
  | authorizationFailed _ _ _ hmark => exact markFailedFinal_effect hmark
  | dispatched _ _ _ _ _ hmark => exact markDispatched_effect hmark
  | succeeded _ _ _ _ hmark => exact markSucceeded_effect hmark
  | failed _ _ _ _ hmark => exact markFailedFinal_effect hmark
  | lost _ _ _ hmark => exact markOutcomeUnknown_effect hmark
  -- the others only read.
  | _ => exact .same rfl

/-- Cancelling and scrubbing one intent is a step of its life. -/
theorem disposed_step (i : ProviderOperationIntent) (env : Env) (actorId : String) :
    IntentStep i (i.disposed env actorId) := by
  unfold ProviderOperationIntent.disposed
  split
  · next hstate =>
    exact ⟨⟨rfl, rfl, rfl, rfl, rfl, rfl, rfl, rfl⟩,
      Or.inr (by rw [hstate]; exact .withdraw), Or.inl rfl⟩
  · exact ⟨⟨rfl, rfl, rfl, rfl, rfl, rfl, rfl, rfl⟩, Or.inl rfl, Or.inl rfl⟩

theorem resolveFinish_intents {deps : Deps} {db db' : Db} {env : Env} {tenantId : Uuid}
    {task : DataDispositionTask} {action : DataDispositionResolutionAction} {actorId : String}
    (h : resolveFinish deps db env tenantId task action actorId = .ok db') :
    db'.intents = db.intents ∨ db'.intents = disposeIntents db env tenantId task actorId := by
  obtain ⟨row, -, hfinished⟩ := finished_of_resolveFinish h
  cases hfinished with
  | retained => exact Or.inl rfl
  | deleted => exact Or.inr rfl
  | anonymized => exact Or.inr rfl

theorem resolveFinish_effect {deps : Deps} {db db' : Db} {env : Env} {tenantId : Uuid}
    {task : DataDispositionTask} {action : DataDispositionResolutionAction} {actorId : String}
    (h : resolveFinish deps db env tenantId task action actorId = .ok db') :
    IntentEffect db.intents db'.intents := by
  rcases resolveFinish_intents h with h | h
  · exact .same h
  · rw [h]
    -- the scrubbing update runs over every row and leaves those the task does not name.
    refine .mapped _ _ (fun i => ?_) rfl
    split
    · exact disposed_step i env actorId
    · exact .refl i

/-! ## The system's step -/

theorem revokeConsent_intents {db db' : Db} {env : Env} {tenantId caseId : Uuid}
    {reason : Option String} (h : revokeConsent db env tenantId caseId reason = .ok db') :
    db'.intents = db.intents := by
  obtain ⟨active, tasks, -, -, rfl⟩ := revokeConsent_ok h
  rfl

theorem grantForCase_intents {db db' : Db} {record : ConsentRecord}
    (h : grantForCase db record = .ok db') : db'.intents = db.intents := by
  obtain ⟨consents, -, rfl⟩ := grantForCase_ok h
  rfl

theorem placeHold_intents {db db' : Db} {hold : LegalHold} (h : placeHold db hold = .ok db') :
    db'.intents = db.intents := by
  obtain ⟨holds, -, rfl⟩ := placeHold_ok h
  rfl

theorem releaseHold_intents {db db' : Db} {env : Env} {tenantId legalHoldId : Uuid}
    {releasedBy : String} (h : releaseHold db env tenantId legalHoldId releasedBy = .ok db') :
    db'.intents = db.intents := by
  obtain ⟨hold, -, rfl⟩ := releaseHold_ok h
  rfl

/-- **Every step has such an effect.** -/
theorem step_intentEffect (deps : Deps) (s : System) (a : Label) :
    IntentEffect s.db.intents (step deps s a).db.intents := by
  have hwrites := step_writes deps s a
  generalize (step deps s a).db = db' at hwrites ⊢
  cases hwrites with
  | nothing => exact .same rfl
  | dispatch d env => exact dispatchStep_effect deps s.db env (s.dispatches d)
  | sweep h => exact markReconciling_effect h
  | resolveManually h => exact resolveManually_effect h
  | resolve h => exact resolveFinish_effect h
  | grantConsent h => exact .same (grantForCase_intents h)
  | revokeConsent h => exact .same (revokeConsent_intents h)
  | placeHold h => exact .same (placeHold_intents h)
  | releaseHold h => exact .same (releaseHold_intents h)
  -- the others write another table
  | _ => exact .same rfl

/-! ## The laws along a run -/

/-- The transaction on intents that a step runs, with what it returned. -/
def intentTransaction (deps : Deps) (s : System) : Label → Option (Except ProviderFailure Db)
  | .dispatch d env =>
    match s.dispatches d with
    | .prepareInsert p adapter _ grantId =>
      some ((prepareInsert deps s.db env (.ofParams p adapter grantId)).map Prod.fst)
    | .failAuthorization intent _ =>
      some (markFailedFinal deps s.db env intent.tenantId intent.id none)
    | .markDispatched _ _ intent _ => some (markDispatched s.db env intent.tenantId intent.id)
    | .markSucceeded intent receipt finding =>
      some (markSucceeded deps s.db env intent.tenantId intent.id receipt finding)
    | .record intent (.failedFinal receipt) _ =>
      some (markFailedFinal deps s.db env intent.tenantId intent.id receipt)
    | .record intent .outcomeUnknown _ =>
      some (markOutcomeUnknown s.db env intent.tenantId intent.id)
    | _ => none
  | .sweep w env =>
    match s.sweeps w with
    | (tenantId, id) :: _ => some (markReconciling s.db env tenantId id)
    | [] => none
  | .resolveManually env tenantId id outcome resolvedBy resolutionNote =>
    some (resolveManually s.db env tenantId id outcome resolvedBy resolutionNote)
  | .resolve w env =>
    match s.resolves w with
    | .finish tenantId task action actorId =>
      some (resolveFinish deps s.db env tenantId task action actorId)
    | _ => none
  | _ => none

/-- What the next step does to the intents. -/
structure IntentLaw (deps : Deps) (s : System) (a : Label) : Prop where
  /-- every row stays, and moves as `IntentStep` allows -/
  kept : ∀ i ∈ s.db.intents.rows, ∃ i' ∈ (step deps s a).db.intents.rows, IntentStep i i'
  /-- a row that was not there before is `PREPARED` -/
  fresh : ∀ i' ∈ (step deps s a).db.intents.rows,
    (∃ i ∈ s.db.intents.rows, i.id = i'.id) ∨ i'.state = .PREPARED
  /-- a transaction that throws leaves every row as it was -/
  thrown : ∀ e, intentTransaction deps s a = some (.error e) → (step deps s a).db = s.db

theorem IntentEffect.kept {t t' : IntentTable} (h : IntentEffect t t')
    {i : ProviderOperationIntent} (hi : i ∈ t.rows) : ∃ i' ∈ t'.rows, IntentStep i i' := by
  cases h with
  | same h => exact ⟨i, h ▸ hi, .refl i⟩
  | inserted x _ _ h =>
    exact ⟨i, Table.rows_of_insert h ▸ List.mem_append_left _ hi, .refl i⟩
  | updated x x' hx hstep h =>
    subst h
    -- ids are unique, so the row with the updated id is the row that was updated.
    by_cases hid : i.id = x'.id
    · obtain rfl := t.eq_of_key_eq hi hx (hid.trans hstep.same.id)
      exact ⟨x', (t.mem_put ⟨i, hi, hid⟩).mpr (Or.inl rfl), hstep⟩
    · exact ⟨i, (t.mem_put ⟨x, hx, hstep.same.id.symm⟩).mpr (Or.inr ⟨hi, hid⟩), .refl i⟩
  | mapped f hf hstep h =>
    subst h
    exact ⟨f i, List.mem_map_of_mem hi, hstep i⟩

theorem IntentEffect.fresh {t t' : IntentTable} (h : IntentEffect t t')
    {i' : ProviderOperationIntent} (hi' : i' ∈ t'.rows) :
    (∃ i ∈ t.rows, IntentStep i i')
      ∨ (i'.state = .PREPARED ∧ ∀ x ∈ t.rows, x.key ≠ i'.key ∧ x.id ≠ i'.id) := by
  cases h with
  | same h => exact Or.inl ⟨i', h ▸ hi', .refl i'⟩
  | inserted x hstate hkey h =>
    rw [Table.rows_of_insert h, List.mem_append, List.mem_singleton] at hi'
    rcases hi' with hi' | rfl
    · exact Or.inl ⟨i', hi', .refl i'⟩
    · exact Or.inr ⟨hstate, fun y hy => ⟨hkey y hy, Table.key_fresh_of_insert h y hy⟩⟩
  | updated x x' hx hstep h =>
    subst h
    rcases (t.mem_put ⟨x, hx, hstep.same.id.symm⟩).mp hi' with rfl | ⟨hi', -⟩
    · exact Or.inl ⟨x, hx, hstep⟩
    · exact Or.inl ⟨i', hi', .refl i'⟩
  | mapped f hf hstep h =>
    subst h
    obtain ⟨x, hx, rfl⟩ := List.mem_map.mp hi'
    exact Or.inl ⟨x, hx, hstep x⟩

theorem step_eq_of_thrown {deps : Deps} {s : System} {a : Label} {e : ProviderFailure}
    (h : intentTransaction deps s a = some (.error e)) : (step deps s a).db = s.db := by
  cases a with
  | dispatch d env =>
    simp only [intentTransaction] at h
    simp only [step, System.setDispatch]
    split at h
    · -- `prepareInsert` returns the new row too, so its error sits under a `map`.
      next p adapter decisionId grantId hstate =>
      cases hx : prepareInsert deps s.db env (.ofParams p adapter grantId) with
      | error e' => simp [hstate, dispatchStep, hx]
      | ok r => rw [hx] at h; cases h
    · next hstate => simp [hstate, dispatchStep, Option.some.inj h]
    · next hstate => simp [hstate, dispatchStep, Option.some.inj h]
    · next hstate => simp [hstate, dispatchStep, Option.some.inj h]
    · next hstate => simp [hstate, dispatchStep, Option.some.inj h]
    · next hstate => simp [hstate, dispatchStep, Option.some.inj h]
    · cases h
  | sweep w env =>
    simp only [intentTransaction] at h
    split at h
    · next tenantId id rest hw =>
      simp [step, System.sweep, hw, Option.some.inj h, System.tryDb]
    · cases h
  | resolveManually env tenantId id outcome resolvedBy resolutionNote =>
    simp only [intentTransaction, Option.some.injEq] at h
    simp [step, h, System.tryDb]
  | resolve w env =>
    simp only [intentTransaction] at h
    split at h
    · next tenantId task action actorId hw =>
      simp [step, System.resolve, hw, Option.some.inj h, System.setResolve]
    · cases h
  | _ => cases h

theorem intentLaw (deps : Deps) (s : System) (a : Label) : IntentLaw deps s a where
  kept := fun _ hi => (step_intentEffect deps s a).kept hi
  fresh := fun i' hi' => by
    rcases (step_intentEffect deps s a).fresh hi' with ⟨i, hi, hstep⟩ | ⟨hstate, -⟩
    · exact Or.inl ⟨i, hi, hstep.same.id.symm⟩
    · exact Or.inr hstate
  thrown := fun _ h => step_eq_of_thrown h

/-- One row at two points of a run. -/
structure IntentEvolves (i i' : ProviderOperationIntent) : Prop where
  same : SameIdentity i i'
  path : Relation.ReflTransGen StateEdge i.state i'.state
  terminal : i.state.terminal = true → i'.state = i.state
  grant : i.state ≠ .PREPARED → i'.authorizationGrantId = i.authorizationGrantId

theorem IntentEvolves.refl (i : ProviderOperationIntent) : IntentEvolves i i :=
  ⟨.refl i, .refl, fun _ => rfl, fun _ => rfl⟩

theorem IntentStep.evolves {i j k : ProviderOperationIntent} (h : IntentStep i j)
    (h' : IntentEvolves j k) : IntentEvolves i k := by
  refine ⟨h.same.trans h'.same, ?_, fun hterminal => ?_, fun hprepared => ?_⟩
  · rcases h.state with hsame | hedge
    · exact hsame ▸ h'.path
    · exact .head hedge h'.path
  · rcases h.state with hsame | hedge
    · exact (h'.terminal (hsame ▸ hterminal)).trans hsame
    · exact absurd hterminal (by simp [hedge.not_terminal])
  · -- a row that has left `PREPARED` never comes back, and only there does a grant change.
    have hj : j.state ≠ .PREPARED := by
      rcases h.state with hsame | hedge
      · rwa [hsame]
      · exact hedge.ne_prepared
    rcases h.grant with hgrant | hstate
    · exact (h'.grant hj).trans hgrant
    · exact absurd hstate hprepared

/-- Every row of a state is still there after any run from it. -/
theorem intent_evolves (deps : Deps) (run : List Label) {s : System}
    {i : ProviderOperationIntent} (hi : i ∈ s.db.intents.rows) :
    ∃ i' ∈ (exec (step deps) s run).db.intents.rows, IntentEvolves i i' := by
  -- on the run from the front: the row is carried through the first step, then through the rest.
  induction run generalizing s i with
  | nil => exact ⟨i, hi, .refl i⟩
  | cons a run ih =>
    obtain ⟨j, hj, hstep⟩ := (step_intentEffect deps s a).kept hi
    obtain ⟨k, hk, hevolves⟩ := ih hj
    exact ⟨k, hk, hstep.evolves hevolves⟩

/-- **The life of an intent.** Along every interleaving, each step moves every intent row along
an edge of the state machine or leaves its state, keeps its identity columns, changes its grant
only while it is `PREPARED`, and changes nothing when its transaction throws; new rows are
`PREPARED`. Hence between any two points of the run a row keeps its identity, its state follows
a path of edges, a terminal state stays, and a grant stays once the row has left `PREPARED`. -/
theorem intent_lifecycle (deps : Deps) (db : Db) (run : List Label) :
    AllSteps (step deps) (IntentLaw deps) (System.init db) run
      ∧ ∀ before after, run = before ++ after →
        ∀ i ∈ (exec (step deps) (System.init db) before).db.intents.rows,
          ∃ i' ∈ (exec (step deps) (System.init db) run).db.intents.rows, IntentEvolves i i' := by
  constructor
  · -- no invariant is needed: one step obeys the law from any state at all.
    exact allSteps_of_inv (I := fun _ => True) (fun _ _ _ => trivial)
      (fun s a _ => intentLaw deps s a) trivial run
  · rintro before after rfl i hi
    rw [exec_append]
    exact intent_evolves deps after hi

end MortgageAgent.Provider
