import MortgageAgent.Provider.Coverage
import MortgageAgent.Provider.Provenance

/-!
# How old evidence can be when it is stamped

A dispatch that submits checks the age of the receipt it gets; one that replays a stored finding
checks nothing, and the evidence it leads to is stamped like new.

* **`Recording.WithinTransport`**, **`Provenance`** — what is promised of what is recorded.
* **`ReplaysRecent`** — the condition on one step.
* **`ProvenanceInv`**, **`provenanceInv_step`** — every finding is what an accepted receipt held.
* **`provenance_iff`** — the promise holds after a run just where every step meets the condition.
* **`recorded_values`** — a recorded value is what its receipt normalizes to.
* **`replay_stamped_new`** — a day-old receipt behind evidence observed now.
-/

namespace MortgageAgent.Provider

open Runs

/-! ## The promise and its condition -/

/-- The fact was observed no later than the transport age after its receipt, and the time its
execution took from the dispatch. -/
def Recording.WithinTransport (r : Recording) : Prop :=
  ∃ source receiptAt, r.source = some source ∧ source.receipt.observedAt = some receiptAt
    ∧ r.fact.observedAt - receiptAt
      ≤ maxTransportAgeMs + (r.recordedAt - r.execution.dispatchedAt)

def Provenance (s : ProvenanceSystem) : Prop := ∀ r ∈ s.recordings, r.WithinTransport

/-- The receipt was no older than the transport age at that instant. -/
def SynchronousProviderReceipt.RecentAt (receipt : SynchronousProviderReceipt) (t : Instant) :
    Prop :=
  ∀ receiptAt ∈ receipt.observedAt, t - receiptAt ≤ maxTransportAgeMs

instance (receipt : SynchronousProviderReceipt) (t : Instant) : Decidable (receipt.RecentAt t) :=
  inferInstanceAs (Decidable (∀ receiptAt ∈ receipt.observedAt, t - receiptAt ≤ maxTransportAgeMs))

/-- **The condition on one step.** Where an execution records a finding that it has replayed, the
receipt of the finding was no older than the transport age when the execution dispatched. -/
def ReplaysRecent (s : ProvenanceSystem) : ProvenanceLabel → Prop
  | .fetch (.recordEvidence d env) =>
    ∀ r ∈ s.newRecording (s.timed (.recordEvidence d env)), ∀ source ∈ r.source,
      source.replayed = true → source.receipt.RecentAt r.execution.dispatchedAt
  | _ => True

instance (s : ProvenanceSystem) : (a : ProvenanceLabel) → Decidable (ReplaysRecent s a)
  | .fetch (.recordEvidence d env) =>
    inferInstanceAs (Decidable (∀ r ∈ s.newRecording (s.timed (.recordEvidence d env)),
      ∀ source ∈ r.source, source.replayed = true →
        source.receipt.RecentAt r.execution.dispatchedAt))
  | .elapse _ _ => isTrue trivial
  | .startFetch _ _ _ _ _ => isTrue trivial
  | .fetch (.platform _) => isTrue trivial
  | .fetch (.startRevoke _ _ _ _) => isTrue trivial
  | .fetch (.revoke _ _) => isTrue trivial
  | .fetch (.revokeFails _) => isTrue trivial

/-! ## Who stores a finding -/

/-- A step that stores no finding leaves those that there are. -/
theorem finding_kept {deps : Deps} {s : System} {a : Label}
    (hother : ∀ d env intent receipt finding, a = .dispatch d env →
      s.dispatches d ≠ .markSucceeded intent receipt finding)
    {i' : ProviderOperationIntent} (hi' : i' ∈ (step deps s a).db.intents.rows) {v : Json}
    (hv : i'.normalizedFinding = some v) :
    ∃ i ∈ s.db.intents.rows, i.id = i'.id ∧ i.normalizedFinding = some v := by
  rcases step_payloads deps s a i' hi' with hbare | ⟨i, hi, hid, ⟨-, hsame⟩ | ⟨hwritten, -⟩⟩
  · rw [hbare.2] at hv
    cases hv
  · exact ⟨i, hi, hid, hsame ▸ hv⟩
  cases a with
  | dispatch d env =>
    simp only [Label.writesPayload] at hwritten
    unfold DispatchState.writesPayload at hwritten
    split at hwritten
    · next intent receipt finding hstate => exact absurd hstate (hother d env _ _ _ rfl)
    · next intent receipt failure hstate =>
      -- a failure is recorded with its receipt and no finding
      have hrows : (step deps s (.dispatch d env)).db
          = (dispatchStep deps s.db env (s.dispatches d)).db := rfl
      rw [hrows, hstate, dispatchStep] at hi'
      cases hmark : markFailedFinal deps s.db env intent.tenantId intent.id (some receipt) with
      | error e =>
        rw [hmark] at hwritten
        cases hwritten
      | ok db' =>
        rw [hmark] at hi'
        obtain ⟨x, hx, -, -, -, rfl⟩ := transition_ok hmark
        rcases (s.db.intents.mem_put (r := x.moved env .FAILED_FINAL _) ⟨x, hx, rfl⟩).mp hi' with
          rfl | ⟨hold, -⟩
        · exact ⟨x, hx, rfl, hv⟩
        · exact ⟨i', hold, rfl, hv⟩
    · cases hwritten
  | _ => cases hwritten

/-- A success is recorded: the row stores the finding, and the other rows are as they were. -/
theorem finding_of_markSucceeded {deps : Deps} {db db' : Db} {env : Env} {tenantId id : Uuid}
    {receipt : SynchronousProviderReceipt} {finding : Json}
    (hmark : markSucceeded deps db env tenantId id receipt finding = .ok db')
    {i' : ProviderOperationIntent} (hi' : i' ∈ db'.intents.rows) {v : Json}
    (hv : i'.normalizedFinding = some v) :
    (i'.id = id ∧ v = deps.encrypt (env.iv + 1) finding (findingAad tenantId id))
      ∨ (i'.id ≠ id ∧ i' ∈ db.intents.rows) := by
  obtain ⟨x, hx, rfl, -, -, rfl⟩ := transition_ok hmark
  rcases (db.intents.mem_put (r := x.moved env .SUCCEEDED _) ⟨x, hx, rfl⟩).mp hi' with
    rfl | ⟨hold, hne⟩
  · exact Or.inl ⟨rfl, (Option.some.inj hv).symm⟩
  · exact Or.inr ⟨hne, hold⟩

/-! ## What a receipt yields -/

/-- The value is what the platform once accepted of the receipt, cut to permitted fields. -/
def SynchronousProviderReceipt.Yields (receipt : SynchronousProviderReceipt) (value : Json) :
    Prop :=
  ∃ adapter p now finding permittedFields, acceptReceipt adapter p receipt now = .ok finding
    ∧ value = filterToPermittedFields finding permittedFields

/-- What the cipher opens is what it has sealed. -/
def Deps.OpensSealed (deps : Deps) : Prop :=
  ∀ iv value aad aad' opened, deps.decrypt (deps.encrypt iv value aad) aad' = .ok opened →
    opened = value

theorem acceptReceipt_fresh {adapter : ProviderAdapter} {p : DispatchProviderRequestParams}
    {receipt : SynchronousProviderReceipt} {now : Instant} {finding : Json}
    (h : acceptReceipt adapter p receipt now = .ok finding) :
    freshObservedAt receipt.observedAt now = true := by
  unfold acceptReceipt at h
  cases hnormalize : adapter.normalize receipt.payload p.tenantId p.caseId with
  | error e =>
    rw [hnormalize] at h
    cases h
  | ok normalized =>
    rw [hnormalize] at h
    have hvalidate : validateProviderFinding p.capability normalized receipt.observedAt now
        = .ok finding := h
    unfold validateProviderFinding at hvalidate
    split at hvalidate
    · cases hvalidate
    · next hfresh => simpa using hfresh

theorem SynchronousProviderReceipt.Yields.observedAt {receipt : SynchronousProviderReceipt}
    {value : Json} (h : receipt.Yields value) : ∃ t, receipt.observedAt = some t := by
  obtain ⟨adapter, p, now, finding, permittedFields, haccept, -⟩ := h
  have hfresh := acceptReceipt_fresh haccept
  cases hobserved : receipt.observedAt with
  | none =>
    rw [hobserved] at hfresh
    cases hfresh
  | some t => exact ⟨t, rfl⟩

/-- A receipt that is accepted is recent, then and at any earlier instant. -/
theorem recentAt_of_accept {adapter : ProviderAdapter} {p : DispatchProviderRequestParams}
    {receipt : SynchronousProviderReceipt} {t now : Instant} {finding : Json}
    (h : acceptReceipt adapter p receipt now = .ok finding) (hle : t ≤ now) :
    receipt.RecentAt t := by
  intro receiptAt hreceipt
  have hfresh := acceptReceipt_fresh h
  rw [Option.mem_def.mp hreceipt, freshObservedAt, Option.any_some, Bool.and_eq_true,
    decide_eq_true_eq, decide_eq_true_eq] at hfresh
  exact le_trans (Int.sub_le_sub_right hle receiptAt) hfresh.2

/-! ## What a dispatch knows of its finding -/

/-- Where a finding came from: a receipt yielded it, or what was sealed when it was stored; if the
dispatch has submitted itself, the receipt was recent when its execution began. -/
def FindingSource.Explains (deps : Deps) (source : FindingSource) (e : Option Execution)
    (finding : Json) : Prop :=
  (∃ value, source.receipt.Yields value ∧ (deps.OpensSealed → finding = value))
    ∧ (source.replayed = false → ∀ execution ∈ e, source.receipt.RecentAt execution.dispatchedAt)

def DispatchState.Sourced (deps : Deps) (e : Option Execution) (source : Option FindingSource) :
    DispatchState → Prop
  | .prepareRefresh _ _ _ _ existing => existing.state = .PREPARED
  | .markSucceeded _ receipt finding =>
    source = some { receipt, replayed := false } ∧ receipt.Yields finding
      ∧ ∀ execution ∈ e, receipt.RecentAt execution.dispatchedAt
  | .finished (.ok finding) => ∃ origin, source = some origin ∧ origin.Explains deps e finding
  | _ => True

/-- Every stored finding is what the receipt on record for it yielded, sealed. -/
def ProvenanceSystem.StoredFindings (s : ProvenanceSystem) (deps : Deps) : Prop :=
  ∀ i ∈ s.db.intents.rows, ∀ v, i.normalizedFinding = some v →
    ∃ receipt value iv aad, s.stored i.id = some receipt ∧ receipt.Yields value
      ∧ v = deps.encrypt iv value aad

/-- What is replayed is the decrypted finding of the row. -/
theorem afterPrepare_replays {deps : Deps} {p : DispatchProviderRequestParams}
    {adapter : ProviderAdapter} {decisionId : Option Uuid} {grantId : Uuid}
    {entity : ProviderOperationIntent} {finding : Json}
    (h : afterPrepare deps p adapter decisionId grantId entity = .finished (.ok finding)) :
    ∃ v, entity.normalizedFinding = some v
      ∧ deps.decrypt v (findingAad entity.tenantId entity.id) = .ok finding := by
  unfold afterPrepare at h
  split at h
  · cases h
  next intent hintent =>
  split at h
  · split at h
    · cases h
    next stored hstored =>
    cases h
    unfold toIntentValue at hintent
    cases hr : entity.providerReceipt.mapM fun v =>
        deps.decrypt v (receiptAad entity.tenantId entity.id) with
    | error e =>
      rw [hr] at hintent
      cases hintent
    | ok receipt =>
      cases hv : entity.normalizedFinding with
      | none =>
        rw [hr, hv] at hintent
        cases hintent
        cases hstored
      | some v =>
        refine ⟨v, rfl, ?_⟩
        cases hopen : deps.decrypt v (findingAad entity.tenantId entity.id) with
        | error e =>
          rw [hr, hv, Option.mapM_some, hopen] at hintent
          cases hintent
        | ok opened =>
          rw [hr, hv, Option.mapM_some, hopen] at hintent
          cases hintent
          cases hstored
          rfl
  · split at h <;> cases h

theorem sourced_afterPrepare {deps : Deps} {p : DispatchProviderRequestParams}
    {adapter : ProviderAdapter} {decisionId : Option Uuid} {grantId : Uuid}
    {entity : ProviderOperationIntent} {e : Option Execution} {source : Option FindingSource}
    (h : ∀ finding, entity.state = .SUCCEEDED →
      afterPrepare deps p adapter decisionId grantId entity = .finished (.ok finding) →
      ∃ origin, source = some origin ∧ origin.Explains deps e finding) :
    (afterPrepare deps p adapter decisionId grantId entity).Sourced deps e source := by
  rcases afterPrepare_cases deps p adapter decisionId grantId entity with
    ⟨result, hresult⟩ | ⟨intent, -, -, -, hgoes⟩
  · rw [hresult]
    cases result with
    | error failure => trivial
    | ok finding => exact h finding (afterPrepare_finding hresult).1 hresult
  · rw [hgoes]
    trivial

theorem sourced_afterConsent {deps : Deps} {p : DispatchProviderRequestParams}
    {adapter : ProviderAdapter} {consentRecordId : Uuid} {e : Option Execution}
    {source : Option FindingSource} :
    (afterConsent p adapter consentRecordId).Sourced deps e source := by
  unfold afterConsent
  split
  · split
    · trivial
    · split <;> trivial
  · trivial

theorem sourced_dispatchStart {deps : Deps} {p : DispatchProviderRequestParams}
    {e : Option Execution} {source : Option FindingSource} :
    (dispatchStart deps p).Sourced deps e source := by
  unfold dispatchStart
  split
  · trivial
  · split <;> trivial

section Steps

variable {deps : Deps} {s : ProvenanceSystem} {d : Nat}

/-- A dispatch that reads no settled row keeps the source of its finding. -/
theorem nextSource_dispatch (env : Env) (h : s.reads deps d = none) :
    s.nextSource deps (.platform (.dispatch d env)) d = s.source d := by
  rw [ProvenanceSystem.nextSource, h]

/-- **One transaction of a dispatch.** -/
theorem sourced_dispatchStep {env : Env}
    (h : (s.dispatch d).Sourced deps (s.executions d) (s.source d))
    (hstored : s.StoredFindings deps) :
    (dispatchStep deps s.db env (s.dispatch d)).state.Sourced deps (s.executions d)
      (s.nextSource deps (.platform (.dispatch d env)) d) := by
  have hkept (hreads : ∀ p adapter decisionId grantId,
      s.dispatch d ≠ .prepareRead p adapter decisionId grantId) :
      s.nextSource deps (.platform (.dispatch d env)) d = s.source d := by
    refine nextSource_dispatch env ?_
    unfold ProvenanceSystem.reads
    split
    · next hstate => exact absurd hstate (hreads _ _ _ _)
    · rfl
  have hcase := dispatchStep_case deps s.db env (s.dispatch d)
  generalize dispatchStep deps s.db env (s.dispatch d) = move at hcase ⊢
  generalize hstate : s.dispatch d = state at hcase h hkept
  cases hcase with
  | waits state hwaits =>
    rw [hkept]
    · exact h
    · rintro p adapter decisionId grantId rfl
      cases hwaits
  | consented _ _ _ _ => exact sourced_afterConsent
  | readsPrepared p adapter decisionId grantId existing hread =>
    exact (prepareRead_found (Or.inl hread)).2.2.mp hread
  | readsOther p adapter decisionId grantId existing hread =>
    refine sourced_afterPrepare fun finding hsucceeded hreplayed => ?_
    have hmem : existing ∈ s.db.intents.rows := (prepareRead_found (Or.inr hread)).1
    obtain ⟨v, hv, hopen⟩ := afterPrepare_replays hreplayed
    obtain ⟨receipt, value, iv, aad, hreceipt, hyields, rfl⟩ := hstored existing hmem v hv
    have hreads : s.reads deps d = some existing := by
      rw [ProvenanceSystem.reads, hstate]
      dsimp only
      rw [hread]
    refine ⟨{ receipt, replayed := true }, ?_, ⟨value, hyields, fun hopens => ?_⟩, nofun⟩
    · rw [ProvenanceSystem.nextSource, hreads]
      dsimp only
      rw [Function.update_self, hreceipt]
      rfl
    · exact hopens iv value aad _ finding hopen
  | inserted p adapter decisionId grantId db' intent hinsert =>
    refine sourced_afterPrepare fun finding hsucceeded _ => ?_
    have hprepared : intent.state = .PREPARED := (prepareInsert_ok hinsert).1
    rw [hprepared] at hsucceeded
    cases hsucceeded
  | refreshed p adapter decisionId grantId existing =>
    refine sourced_afterPrepare fun finding hsucceeded _ => ?_
    have hprepared : existing.state = .PREPARED := h
    have hstate' : existing.state = .SUCCEEDED := hsucceeded
    rw [hprepared] at hstate'
    cases hstate'
  | succeeded intent receipt finding db' hmark =>
    have hsame := hkept fun _ _ _ _ heq => by cases heq
    obtain ⟨hsource, hyields, hrecent⟩ := h
    rw [hsame]
    exact ⟨_, hsource, ⟨finding, hyields, fun _ => rfl⟩, fun _ => hrecent⟩
  -- the others neither have a finding nor end with one
  | _ => trivial

/-- **The return of a submission**, at the time of the process. -/
theorem sourced_dispatchReturn {env : Env} {outcome : SubmitOutcome}
    (h : (s.dispatch d).Sourced deps (s.executions d) (s.source d))
    (hstarted : ∀ e ∈ s.executions d, e.dispatchedAt ≤ env.processNow) :
    (dispatchReturn env outcome (s.dispatch d)).1.Sourced deps (s.executions d)
      (s.nextSource deps (.platform (.submitReturns d env outcome)) d) := by
  cases hstate : s.dispatch d with
  | awaiting p adapter intent grant =>
    cases outcome with
    | threw e => trivial
    | receipt receipt =>
      rw [ProvenanceSystem.nextSource, hstate]
      dsimp only
      rw [Function.update_self, dispatchReturn]
      split
      · next finding haccept =>
        refine ⟨rfl, ⟨adapter, p, env.processNow, finding, grant.permittedFields, haccept, rfl⟩, ?_⟩
        exact fun e he => recentAt_of_accept haccept (hstarted e he)
      · trivial
  | _ =>
    have hsame : s.nextSource deps (.platform (.submitReturns d env outcome)) d = s.source d := by
      cases outcome with
      | threw e => rfl
      | receipt receipt => rw [ProvenanceSystem.nextSource, hstate]
    rw [hstate] at h
    rw [hsame]
    exact h

theorem sourced_dispatchStoreFails {state : DispatchState} {e : Option Execution}
    {source : Option FindingSource} (h : state.Sourced deps e source) :
    (dispatchStoreFails state).Sourced deps e source := by
  cases state with
  | finished result => exact h
  | _ => trivial

theorem nextSource_frame {b : Label} (h : b.ofDispatch ≠ some d) :
    s.nextSource deps (.platform b) d = s.source d := by
  cases b with
  | dispatch d' env =>
    have hne : d ≠ d' := fun heq => h (heq ▸ rfl)
    cases hreads : s.reads deps d' with
    | none => rw [ProvenanceSystem.nextSource, hreads]
    | some existing =>
      rw [ProvenanceSystem.nextSource, hreads]
      exact Function.update_of_ne hne _ _
  | submitReturns d' env outcome =>
    have hne : d ≠ d' := fun heq => h (heq ▸ rfl)
    cases outcome with
    | threw e => rfl
    | receipt receipt =>
      cases hstate : s.dispatch d' with
      | awaiting p adapter intent grant =>
        rw [ProvenanceSystem.nextSource, hstate]
        exact Function.update_of_ne hne _ _
      | _ => rw [ProvenanceSystem.nextSource, hstate]
  | _ => rfl

/-- **One step of the platform**, for one dispatch. -/
theorem sourced_step {b : Label} (hstart : ∀ d p, b ≠ .startDispatch d p)
    (h : (s.dispatch d).Sourced deps (s.executions d) (s.source d)) (hstored : s.StoredFindings deps)
    (hstarted : ∀ env outcome, b = .submitReturns d env outcome →
      ∀ e ∈ s.executions d, e.dispatchedAt ≤ env.processNow) :
    ((step deps s.fetches.platform b).dispatches d).Sourced deps (s.executions d)
      (s.nextSource deps (.platform b) d) := by
  by_cases hown : b.ofDispatch = some d
  · cases b with
    | startDispatch d' p => exact absurd rfl (hstart d' p)
    | dispatch d' env =>
      obtain rfl : d' = d := Option.some.inj hown
      simp only [step, System.setDispatch, Function.update_self]
      exact sourced_dispatchStep h hstored
    | submitReturns d' env outcome =>
      obtain rfl : d' = d := Option.some.inj hown
      simp only [step, System.setDispatch, Function.update_self]
      exact sourced_dispatchReturn h (hstarted env outcome rfl)
    | storeFails d' =>
      obtain rfl : d' = d := Option.some.inj hown
      simp only [step, System.setDispatch, Function.update_self]
      exact sourced_dispatchStoreFails h
    | crash d' =>
      obtain rfl : d' = d := Option.some.inj hown
      simp only [step, System.setDispatch, Function.update_self]
      trivial
    | _ => cases hown
  · have hstays : (step deps s.fetches.platform b).dispatches d = s.dispatch d :=
      dispatch_frame deps d [b] (by simpa using hown)
    rw [hstays, nextSource_frame hown]
    exact h

/-- What is stored, after a step of the platform. -/
theorem storedFindings_step {b : Label}
    (hsourced : ∀ d, (s.dispatch d).Sourced deps (s.executions d) (s.source d))
    (hstored : s.StoredFindings deps) :
    ∀ i' ∈ (step deps s.fetches.platform b).db.intents.rows, ∀ v, i'.normalizedFinding = some v →
      ∃ receipt value iv aad, s.nextStored deps (.platform b) i'.id = some receipt
        ∧ receipt.Yields value ∧ v = deps.encrypt iv value aad := by
  intro i' hi' v hv
  have hkept (hother : ∀ d env intent receipt finding, b = .dispatch d env →
      s.dispatch d ≠ .markSucceeded intent receipt finding)
      (hnext : s.nextStored deps (.platform b) = s.stored) :
      ∃ receipt value iv aad, s.nextStored deps (.platform b) i'.id = some receipt
        ∧ receipt.Yields value ∧ v = deps.encrypt iv value aad := by
    obtain ⟨i, hi, hid, hfinding⟩ := finding_kept hother hi' hv
    rw [hnext, ← hid]
    exact hstored i hi v hfinding
  cases b with
  | dispatch d env =>
    have hsource := hsourced d
    cases hstate : s.dispatch d with
    | markSucceeded intent receipt finding =>
      rw [hstate] at hsource
      have hrows : (step deps s.fetches.platform (.dispatch d env)).db
          = (dispatchStep deps s.db env (s.dispatch d)).db := rfl
      rw [hrows, hstate, dispatchStep] at hi'
      rw [ProvenanceSystem.nextStored, hstate]
      dsimp only
      cases hmark : markSucceeded deps s.db env intent.tenantId intent.id receipt finding with
      | error e =>
        rw [hmark] at hi'
        exact hstored i' hi' v hv
      | ok db' =>
        rw [hmark] at hi'
        have hok : (Except.ok db' : Except ProviderFailure Db).isOk = true := rfl
        rw [if_pos hok]
        rcases finding_of_markSucceeded hmark hi' hv with ⟨hid, rfl⟩ | ⟨hne, hold⟩
        · rw [hid, Function.update_self]
          exact ⟨receipt, finding, _, _, rfl, hsource.2.1, rfl⟩
        · rw [Function.update_of_ne hne]
          exact hstored i' hold v hv
    | _ =>
      refine hkept (fun d' env' intent receipt finding heq hmarks => ?_) ?_
      · cases heq
        rw [hstate] at hmarks
        cases hmarks
      · rw [ProvenanceSystem.nextStored, hstate]
  | _ =>
    refine hkept (fun d env intent receipt finding heq => ?_) rfl
    cases heq

end Steps

/-! ## The invariant -/

/-- What a recording says of its value. -/
def Recording.Traced (deps : Deps) (r : Recording) : Prop :=
  ∃ source value, r.source = some source ∧ source.receipt.Yields value
    ∧ (deps.OpensSealed → r.fact.value = value)

structure ProvenanceInv (deps : Deps) (s : ProvenanceSystem) : Prop where
  requests : ∀ d, s.fetches.requests d = (s.executions d).map Execution.params
  started : ∀ d, ∀ e ∈ s.executions d, e.dispatchedAt ≤ s.clock d
  sourced : ∀ d, (s.dispatch d).Sourced deps (s.executions d) (s.source d)
  stored : s.StoredFindings deps
  recordings : ∀ r ∈ s.recordings, r.Traced deps

theorem provenanceInv_init (deps : Deps) (db : Db) (clock : Nat → Instant) :
    ProvenanceInv deps (.init db clock) where
  requests := fun _ => rfl
  started := fun _ _ he => by cases he
  sourced := fun _ => trivial
  stored := fun _ hi => absurd hi List.not_mem_nil
  recordings := fun _ hr => absurd hr List.not_mem_nil

section Invariant

variable {deps : Deps} {s : ProvenanceSystem}

/-- The step moves no dispatch, writes no intent and starts nothing. -/
def SameDispatches (s s' : FetchSystem) : Prop :=
  s'.platform.dispatches = s.platform.dispatches ∧ s'.platform.db.intents = s.platform.db.intents
    ∧ s'.requests = s.requests

theorem sameDispatches_recordEvidence (s : FetchSystem) (d : Nat) (env : Env) :
    SameDispatches s (s.recordEvidence d env) := by
  unfold FetchSystem.recordEvidence
  split
  · split
    · exact ⟨rfl, rfl, rfl⟩
    · dsimp only
      split <;> exact ⟨rfl, rfl, rfl⟩
  · exact ⟨rfl, rfl, rfl⟩

theorem sameDispatches_startRevoke (s : FetchSystem) (r : Nat) (tenantId caseId : Uuid)
    (reason : Option String) : SameDispatches s (s.startRevoke r tenantId caseId reason) := by
  unfold FetchSystem.startRevoke
  split
  · split <;> exact ⟨rfl, rfl, rfl⟩
  · exact ⟨rfl, rfl, rfl⟩

theorem sameDispatches_revoke (s : FetchSystem) (r : Nat) (env : Env) :
    SameDispatches s (s.revoke r env) := by
  unfold FetchSystem.revoke
  dsimp only
  split
  · exact ⟨rfl, rfl, rfl⟩
  · exact ⟨rfl, rfl, rfl⟩
  · split <;> exact ⟨rfl, rfl, rfl⟩
  · exact ⟨rfl, rfl, rfl⟩

/-- A label of the fetches is a step of the platform, or leaves the dispatches, the intents and
their history as they are. -/
theorem fetch_cases (deps : Deps) (s : ProvenanceSystem) (a : FetchLabel) :
    (∃ b, a = .platform b ∧ fetchStep deps s.fetches a = s.fetches.step deps b)
      ∨ (SameDispatches s.fetches (fetchStep deps s.fetches a)
        ∧ s.nextSource deps a = s.source ∧ s.nextStored deps a = s.stored) := by
  cases a with
  | platform b =>
    cases b with
    | revokeConsent env tenantId caseId reason => exact Or.inr ⟨⟨rfl, rfl, rfl⟩, rfl, rfl⟩
    | recordEvidence fact => exact Or.inr ⟨⟨rfl, rfl, rfl⟩, rfl, rfl⟩
    | _ => exact Or.inl ⟨_, rfl, rfl⟩
  | recordEvidence d env =>
    exact Or.inr ⟨sameDispatches_recordEvidence s.fetches d env, rfl, rfl⟩
  | startRevoke r tenantId caseId reason =>
    exact Or.inr ⟨sameDispatches_startRevoke s.fetches r tenantId caseId reason, rfl, rfl⟩
  | revoke r env => exact Or.inr ⟨sameDispatches_revoke s.fetches r env, rfl, rfl⟩
  | revokeFails r => exact Or.inr ⟨⟨rfl, rfl, rfl⟩, rfl, rfl⟩

theorem newRecording_inv {a : FetchLabel} {r : Recording} (h : s.newRecording a = some r) :
    ∃ d env e finding, a = .recordEvidence d env ∧ s.executions d = some e
      ∧ s.dispatch d = .finished (.ok finding)
      ∧ r = { fact := e.recordEvidence finding env, execution := e, recordedAt := s.clock d,
              source := s.source d } := by
  cases a with
  | recordEvidence d env =>
    obtain ⟨⟨e, fact⟩, hfact, rfl⟩ := Option.map_eq_some_iff.mp h
    obtain ⟨e', finding, he, hfinished, heq⟩ := recordedFact_inv hfact
    cases heq
    exact ⟨d, env, e, finding, rfl, he, hfinished, rfl⟩
  | _ => cases h

/-- What an execution records is what it knows of its finding. -/
theorem ProvenanceInv.newRecording (h : ProvenanceInv deps s) {a : FetchLabel} {r : Recording}
    (hr : s.newRecording a = some r) :
    ∃ source, r.source = some source ∧ source.Explains deps r.execution r.fact.value := by
  obtain ⟨d, env, e, finding, -, he, hfinished, rfl⟩ := newRecording_inv hr
  have hsourced := h.sourced d
  rw [hfinished, he] at hsourced
  exact hsourced

/-- **A step of the fetches.** -/
theorem ProvenanceInv.step (h : ProvenanceInv deps s) {a : FetchLabel}
    (hstart : ∀ d p, a ≠ .platform (.startDispatch d p))
    (hnow : ∀ d env outcome, a = .platform (.submitReturns d env outcome) →
      env.processNow = s.clock d) : ProvenanceInv deps (s.step deps a) where
  started := h.started
  requests := by
    intro d
    show (fetchStep deps s.fetches a).requests d = _
    rcases fetch_cases deps s a with ⟨b, rfl, hstep⟩ | ⟨⟨-, -, hrequests⟩, -⟩
    · rw [hstep, fetch_step_requests fun p heq => hstart d p (heq ▸ rfl)]
      exact h.requests d
    · rw [hrequests]
      exact h.requests d
  sourced := by
    intro d
    show ((fetchStep deps s.fetches a).platform.dispatches d).Sourced deps (s.executions d)
      (s.nextSource deps a d)
    rcases fetch_cases deps s a with ⟨b, rfl, hstep⟩ | ⟨⟨hdispatches, -⟩, hsource, -⟩
    · rw [hstep, fetch_step_platform]
      refine sourced_step (fun d' p heq => hstart d' p (heq ▸ rfl)) (h.sourced d) h.stored ?_
      intro env outcome heq e he
      rw [hnow d env outcome (congrArg FetchLabel.platform heq)]
      exact h.started d e he
    · rw [hdispatches, hsource]
      exact h.sourced d
  stored := by
    rcases fetch_cases deps s a with ⟨b, rfl, hstep⟩ | ⟨⟨-, hintents, -⟩, -, hstored⟩
    · show ∀ i ∈ (fetchStep deps s.fetches (.platform b)).platform.db.intents.rows, _
      rw [hstep, fetch_step_platform]
      exact storedFindings_step h.sourced h.stored
    · show ∀ i ∈ (fetchStep deps s.fetches a).platform.db.intents.rows, _
      rw [hintents]
      show ∀ i ∈ s.db.intents.rows, ∀ v, i.normalizedFinding = some v →
        ∃ receipt value iv aad, s.nextStored deps a i.id = some receipt ∧ _
      rw [hstored]
      exact h.stored
  recordings := by
    intro r hr
    rcases List.mem_append.mp hr with hr | hr
    · exact h.recordings r hr
    · obtain ⟨source, hsource, ⟨value, hyields, hvalue⟩, -⟩ :=
        h.newRecording (Option.mem_toList.mp hr)
      exact ⟨source, value, hsource, hyields, hvalue⟩

/-! ## Every step -/

theorem timed_now {a : FetchLabel} {d : Nat} {env : Env} {outcome : SubmitOutcome}
    (h : s.timed a = .platform (.submitReturns d env outcome)) : env.processNow = s.clock d := by
  cases a with
  | platform b =>
    cases b with
    | submitReturns d' env' outcome' =>
      cases h
      rfl
    | _ => cases h
  | _ => cases h

theorem timed_startDispatch {a : FetchLabel} {d : Nat} {p : DispatchProviderRequestParams}
    (h : s.timed a = .platform (.startDispatch d p)) : a = .platform (.startDispatch d p) := by
  cases a with
  | platform b =>
    cases b with
    | startDispatch d' p' => exact h
    | _ => cases h
  | _ => cases h

/-- A label of the fetches does nothing, or is a step at the time of the process. -/
theorem provenanceStep_fetch (deps : Deps) (s : ProvenanceSystem) (a : FetchLabel) :
    (∃ d p, a = .platform (.startDispatch d p)) ∧ provenanceStep deps s (.fetch a) = s
      ∨ (∀ d p, s.timed a ≠ .platform (.startDispatch d p))
        ∧ provenanceStep deps s (.fetch a) = s.step deps (s.timed a) := by
  by_cases hstart : ∃ d p, a = .platform (.startDispatch d p)
  · obtain ⟨d, p, rfl⟩ := hstart
    exact Or.inl ⟨⟨d, p, rfl⟩, rfl⟩
  · refine Or.inr ⟨fun d p heq => hstart ⟨d, p, timed_startDispatch heq⟩, ?_⟩
    unfold provenanceStep
    split
    · next heq => cases heq
    · next heq => cases heq
    · next heq =>
      cases heq
      exact (hstart ⟨_, _, rfl⟩).elim
    · next heq =>
      cases heq
      rfl

theorem ProvenanceInv.startFetch (h : ProvenanceInv deps s) (d : Nat) (e : Execution)
    (hnow : e.dispatchedAt = s.clock d) : ProvenanceInv deps (s.startFetch deps d e) := by
  unfold ProvenanceSystem.startFetch
  split
  · next hidle =>
    have hmoved : Provider.step deps s.fetches.platform (.startDispatch d e.params)
        = s.fetches.platform.setDispatch d (dispatchStart deps e.params) := by
      have hidle' : s.fetches.platform.dispatches d = .idle := hidle
      rw [Provider.step, hidle']
    have hplatform : (fetchStep deps s.fetches (.platform (.startDispatch d e.params))).platform
        = s.fetches.platform.setDispatch d (dispatchStart deps e.params) := by
      rw [← hmoved]
      exact fetch_step_platform _
    refine ⟨fun d' => ?_, fun d' e' he' => ?_, fun d' => ?_, ?_, h.recordings⟩
    · dsimp only
      by_cases hd : d' = d
      · subst hd
        have hidle' : s.fetches.platform.dispatches d' = .idle := hidle
        rw [Function.update_self]
        simp only [fetchStep, FetchSystem.step, hidle', Function.update_self]
        rfl
      · rw [Function.update_of_ne hd, ← h.requests d']
        exact fetch_step_requests fun p heq => by cases heq; exact hd rfl
    · dsimp only at he'
      by_cases hd : d' = d
      · subst hd
        rw [Function.update_self] at he'
        cases he'
        exact le_of_eq hnow
      · rw [Function.update_of_ne hd] at he'
        exact h.started d' e' he'
    · rw [ProvenanceSystem.dispatch, hplatform]
      by_cases hd : d' = d
      · subst hd
        simp only [System.setDispatch, Function.update_self]
        exact sourced_dispatchStart
      · simp only [System.setDispatch, Function.update_of_ne hd]
        exact h.sourced d'
    · intro i hi
      rw [ProvenanceSystem.db, hplatform] at hi
      exact h.stored i hi
  · exact h

/-- **The invariant is kept.** -/
theorem provenanceInv_step (h : ProvenanceInv deps s) (a : ProvenanceLabel) :
    ProvenanceInv deps (provenanceStep deps s a) := by
  cases a with
  | elapse d ms =>
    refine ⟨h.requests, fun d' e he => ?_, h.sourced, h.stored, h.recordings⟩
    have hbefore : e.dispatchedAt ≤ s.clock d' := h.started d' e he
    show e.dispatchedAt ≤ Function.update s.clock d (s.clock d + (ms : Int)) d'
    by_cases hd : d' = d
    · subst hd
      rw [Function.update_self]
      exact le_trans hbefore (Int.le_add_of_nonneg_right (Int.natCast_nonneg ms))
    · rw [Function.update_of_ne hd]
      exact hbefore
  | startFetch d activity tenantId caseId borrowerId => exact h.startFetch d _ rfl
  | fetch a =>
    rcases provenanceStep_fetch deps s a with ⟨-, hsame⟩ | ⟨hstart, hstep⟩
    · rw [hsame]
      exact h
    · rw [hstep]
      exact h.step hstart fun d env outcome heq => timed_now heq

/-- Evidence stamped when it is recorded is within the transport age just where its receipt was
recent when its execution dispatched. -/
theorem Recording.withinTransport_iff {r : Recording} {source : FindingSource} {t : Instant}
    (hsource : r.source = some source) (hreceipt : source.receipt.observedAt = some t)
    (hstamp : r.fact.observedAt = r.recordedAt) :
    r.WithinTransport ↔ source.receipt.RecentAt r.execution.dispatchedAt := by
  have hbound : r.WithinTransport
      ↔ r.fact.observedAt - t ≤ maxTransportAgeMs + (r.recordedAt - r.execution.dispatchedAt) := by
    constructor
    · rintro ⟨source', t', hsource', hreceipt', hle⟩
      cases hsource.symm.trans hsource'
      cases hreceipt.symm.trans hreceipt'
      exact hle
    · exact fun hle => ⟨source, t, hsource, hreceipt, hle⟩
  have hrecent : source.receipt.RecentAt r.execution.dispatchedAt
      ↔ r.execution.dispatchedAt - t ≤ maxTransportAgeMs := by
    simp [SynchronousProviderReceipt.RecentAt, hreceipt]
  have hcancel (recordedAt dispatchedAt bound : Int) :
      recordedAt - t ≤ bound + (recordedAt - dispatchedAt) ↔ dispatchedAt - (t : Int) ≤ bound := by
    omega
  rw [hbound, hrecent, hstamp]
  exact hcancel r.recordedAt r.execution.dispatchedAt maxTransportAgeMs

/-- **What a step records is within the transport age just where the step meets the condition.** -/
theorem ProvenanceInv.within_iff (h : ProvenanceInv deps s) {d : Nat} {env : Env} {r : Recording}
    (hr : s.newRecording (s.timed (.recordEvidence d env)) = some r) :
    r.WithinTransport ↔ ReplaysRecent s (.fetch (.recordEvidence d env)) := by
  obtain ⟨source, hsource, ⟨value, hyields, -⟩, hown⟩ := h.newRecording hr
  obtain ⟨t, hreceipt⟩ := hyields.observedAt
  have hstamp : r.fact.observedAt = r.recordedAt := by
    obtain ⟨d', env', e, finding, heq, -, -, rfl⟩ := newRecording_inv hr
    cases heq
    rfl
  rw [Recording.withinTransport_iff hsource hreceipt hstamp]
  constructor
  · intro hrecent r' hr' source' hsource' _
    cases hr.symm.trans hr'
    cases hsource.symm.trans hsource'
    exact hrecent
  · intro hcondition
    cases hreplayed : source.replayed with
    | true => exact hcondition r hr source hsource hreplayed
    | false => exact hown hreplayed r.execution rfl

/-- **One step.** -/
theorem provenance_step_iff (h : ProvenanceInv deps s) (a : ProvenanceLabel) :
    Provenance (provenanceStep deps s a) ↔ Provenance s ∧ ReplaysRecent s a := by
  cases a with
  | elapse d ms => exact (and_iff_left trivial).symm
  | startFetch d activity tenantId caseId borrowerId =>
    have hsame : (provenanceStep deps s
        (.startFetch d activity tenantId caseId borrowerId)).recordings = s.recordings := by
      simp only [provenanceStep, ProvenanceSystem.startFetch]
      split <;> rfl
    rw [Provenance, hsame]
    exact (and_iff_left trivial).symm
  | fetch a =>
    rcases provenanceStep_fetch deps s a with ⟨⟨d, p, rfl⟩, hsame⟩ | ⟨-, hstep⟩
    · rw [hsame]
      exact (and_iff_left trivial).symm
    rw [hstep]
    have hrecordings : (s.step deps (s.timed a)).recordings
        = s.recordings ++ (s.newRecording (s.timed a)).toList := rfl
    rw [Provenance, hrecordings, List.forall_mem_append]
    refine and_congr_right' ?_
    cases a with
    | recordEvidence d env =>
      cases hr : s.newRecording (s.timed (.recordEvidence d env)) with
      | none => simp [ReplaysRecent, hr]
      | some r => simpa using h.within_iff hr
    | platform b =>
      have hnone : s.newRecording (s.timed (.platform b)) = none := by cases b <;> rfl
      simp [ReplaysRecent, hnone]
    | _ => simp [ReplaysRecent, ProvenanceSystem.timed, ProvenanceSystem.newRecording]

end Invariant

/-- **Provenance.** After any run of evidence fetches, every fact that was recorded was observed
within the transport age of its receipt, and the time its execution took, just where every replayed
finding that was recorded had a receipt no older than the transport age when its execution
dispatched. -/
theorem provenance_iff (deps : Deps) (db : Db) (clock : Nat → Instant)
    (run : List ProvenanceLabel) :
    Provenance (exec (provenanceStep deps) (.init db clock) run)
      ↔ AllSteps (provenanceStep deps) ReplaysRecent (.init db clock) run := by
  rw [exec_iff_allSteps (I := ProvenanceInv deps) (fun _ a h => provenanceInv_step h a)
    (fun _ a h => provenance_step_iff h a) (provenanceInv_init deps db clock)]
  exact and_iff_right fun _ hr => absurd hr List.not_mem_nil

/-! ### One income report, fetched and fetched again -/

/-- One case, whose borrower has consented to the collection of evidence. -/
def collectingDb : Db :=
  { consentedDb with
    consents :=
      ⟨[{ incomeConsent with permittedPurposes := ["UNDERWRITING_EVIDENCE"] }], by decide⟩ }

/-- Execution 0 submits its request, and gets its receipt at once. -/
def fetchesIncome : List ProvenanceLabel :=
  .startFetch 0 .fetchIncomeEvidence 1 3 "borrower-1"
    :: (runs 0 10 20 ++ [Label.submitReturns 0 (envAt 20) (.receipt incomeReceipt),
      Label.dispatch 0 (envAt 20)]).map fun a => .fetch (.platform a)

/-- Execution 1 finds the stored result, and records it. -/
def replaysIncome : List ProvenanceLabel :=
  .startFetch 1 .fetchIncomeEvidence 1 3 "borrower-1"
    :: (runs 1 4 21).map (fun a => .fetch (.platform a))
    ++ [.fetch (.recordEvidence 1 (envAt 41))]

/-- The process of execution 1 is so much later than that of execution 0. -/
def laterBy (ms : Int) (d : Nat) : Instant :=
  if d = 0 then 1786795200000 else 1786795200000 + ms

/-- Execution 0 dies with its finding, and is tried again after two minutes. -/
def retriedRun : List ProvenanceLabel :=
  fetchesIncome ++ .fetch (.platform (.crash 0)) :: replaysIncome

theorem provenance_iff_retriedRun :
    Provenance (exec (provenanceStep incomeDeps) (.init collectingDb (laterBy 120000)) retriedRun)
      ∧ (exec (provenanceStep incomeDeps) (.init collectingDb (laterBy 120000))
        retriedRun).recordings.map (fun r => (r.fact.id, r.fact.observedAt))
          = [(41, 1786795320000)] :=
  ⟨(provenance_iff incomeDeps collectingDb (laterBy 120000) retriedRun).mpr (by decide),
    by decide⟩

/-- Execution 0 records what it has fetched; a day later a new run of the workflow does so. -/
def refetchedRun : List ProvenanceLabel :=
  fetchesIncome ++ .fetch (.recordEvidence 0 (envAt 40)) :: replaysIncome

/-- **A replayed finding is stamped like new.** The second fact holds the income of a day ago, and
says it was observed now. -/
theorem replay_stamped_new :
    ¬ ∀ (deps : Deps) (db : Db) (clock : Nat → Instant) (run : List ProvenanceLabel),
      Provenance (exec (provenanceStep deps) (.init db clock) run) := by
  intro h
  have hpromise := h incomeDeps collectingDb (laterBy 86400000) refetchedRun
  have hstale : ∃ r ∈ (exec (provenanceStep incomeDeps) (.init collectingDb (laterBy 86400000))
      refetchedRun).recordings, ∃ source ∈ r.source,
        source.receipt.observedAt = some 1786795200000 ∧ r.fact.observedAt = r.recordedAt
          ∧ ¬ source.receipt.RecentAt r.execution.dispatchedAt := by decide
  obtain ⟨r, hr, source, hsource, hreceipt, hstamp, hold⟩ := hstale
  exact hold ((Recording.withinTransport_iff hsource hreceipt hstamp).mp (hpromise r hr))

/-- **Recorded values.** Under a cipher that opens only what it has sealed, every fact that was
recorded has the value that its receipt yielded. -/
theorem recorded_values {deps : Deps} (hopens : deps.OpensSealed) (db : Db)
    (clock : Nat → Instant) (run : List ProvenanceLabel) :
    ∀ r ∈ (exec (provenanceStep deps) (.init db clock) run).recordings,
      ∃ source, r.source = some source ∧ source.receipt.Yields r.fact.value := by
  have hinv : ProvenanceInv deps (exec (provenanceStep deps) (.init db clock) run) :=
    exec_inv (I := ProvenanceInv deps) (fun _ a h => provenanceInv_step h a)
      (provenanceInv_init deps db clock) run
  intro r hr
  obtain ⟨source, value, hsource, hyields, hvalue⟩ := hinv.recordings r hr
  exact ⟨source, hsource, hvalue hopens ▸ hyields⟩

end MortgageAgent.Provider
