import MortgageAgent.Provider.Coverage

/-!
# What a resolved review has erased

A review that ended in `DELETED` or `ANONYMIZED` has erased what was obtained under its consent,
if nothing of the kind comes after the reading of the revocation.

* **`Beside`** — a step of a fetch or of a revocation moves no dispatch.
* **`Recorded.inv`**, **`FetchInv.commitRevoke`** — recording a finding, and committing a
  revocation, keep what the reviews cover.
* **`reviews_erase`** — in every run whose steps meet `SnapshotComplete`, erased reviews have
  erased.
* **`late_evidence_stays`** — a finding recorded behind the deletion stays.
-/

namespace MortgageAgent.Provider

open Runs

/-! ## A step beside the dispatches -/

/-- Dispatches, resolutions, intents and grants are as they were, and consents keep their case. -/
structure Beside (s s' : FetchSystem) : Prop where
  dispatches : s'.platform.dispatches = s.platform.dispatches
  resolves : s'.platform.resolves = s.platform.resolves
  intents : s'.platform.db.intents = s.platform.db.intents
  grants : s'.platform.db.grants = s.platform.db.grants
  consents : ∀ tenantId caseId id, ConsentOf s.platform.db tenantId caseId id →
    ConsentOf s'.platform.db tenantId caseId id
  requests : s'.requests = s.requests
  under : s'.under = s.under
  payloadUnder : s'.payloadUnder = s.payloadUnder

section Beside

variable {s s' : FetchSystem}

theorem Beside.grows (hb : Beside s s') : Grows s.platform.db s'.platform.db where
  consents := hb.consents
  intents := fun i hi => ⟨i, hb.intents ▸ hi, .refl i⟩
  grants := fun _ _ hfind => hb.grants ▸ hfind

theorem Beside.granted (hb : Beside s s') (h : FetchInv s) : s'.platform.Granted := by
  intro d
  rw [hb.dispatches]
  exact (h.granted d).kept hb.grows.grants

theorem Beside.fetches (hb : Beside s s') (h : FetchInv s) (d : Nat) : s'.FetchKnown d := by
  unfold FetchSystem.FetchKnown
  rw [hb.dispatches, hb.requests, hb.under]
  rcases h.fetches d with hrest | ⟨p, hp, hok⟩
  · exact Or.inl hrest
  · exact Or.inr ⟨p, hp, hok.grows hb.grows⟩

theorem Beside.payloads (hb : Beside s s') (h : FetchInv s) :
    ∀ i ∈ s'.platform.db.intents.rows, ¬ i.bare → ∀ c ∈ s'.payloadUnder i.id,
      ConsentOf s'.platform.db i.tenantId i.caseId c := by
  rw [hb.intents, hb.payloadUnder]
  intro i hi hbare c hc
  exact hb.consents _ _ c (h.payloads i hi hbare c hc)

theorem CoversIntents.beside {tenantId c : Uuid} {ids : List Uuid}
    (h : CoversIntents s tenantId c ids) (hb : Beside s s') : CoversIntents s' tenantId c ids where
  stored := by
    rw [hb.intents, hb.payloadUnder]
    exact h.stored
  cleared := by
    rw [hb.dispatches, hb.under]
    exact h.cleared
  rows := by
    rw [hb.intents]
    exact h.rows

/-- What is known of a revocation survives a step that adds no evidence under its consent. -/
theorem RevokeState.Covers.beside {state : RevokeState} (h : state.Covers s) (hb : Beside s s')
    (hevidence : ∀ c ids, state.hasReadEvidence c → CoversEvidence s c ids →
      CoversEvidence s' c ids) : state.Covers s' := by
  cases state with
  | idle => trivial
  | readEvidence active reason => exact hb.consents _ _ _ h
  | readIntents active reason evidenceFactIds =>
    exact ⟨hb.consents _ _ _ h.1, hevidence active.id _ rfl h.2⟩
  | commit active reason evidenceFactIds providerIntentIds =>
    exact ⟨hb.consents _ _ _ h.1, hevidence active.id _ rfl h.2.1, h.2.2.beside hb⟩

end Beside

/-! ## Evidence is recorded -/

/-- What a fetch that records its finding changes. -/
structure Recorded (s s' : FetchSystem) (d : Nat) (fact : EvidenceFact) : Prop extends
    Beside s s' where
  tasks : s'.platform.db.tasks = s.platform.db.tasks
  sameConsents : s'.platform.db.consents = s.platform.db.consents
  revokes : s'.revokes = s.revokes
  fresh : ∀ e ∈ s.platform.db.evidence.rows, e.id ≠ fact.id
  evidence : s'.platform.db.evidence.rows = s.platform.db.evidence.rows ++ [fact]
  evidenceUnder : s'.evidenceUnder = Function.update s.evidenceUnder fact.id (s.under d)

section Recorded

variable {s s' : FetchSystem} {d : Nat} {fact : EvidenceFact}

/-- An evidence record of the new state, with the consents it was obtained under. -/
theorem Recorded.mem (hr : Recorded s s' d fact) {e : EvidenceFact} {c : Uuid}
    (he : e ∈ s'.platform.db.evidence.rows) (hc : c ∈ s'.evidenceUnder e.id) :
    (e ∈ s.platform.db.evidence.rows ∧ c ∈ s.evidenceUnder e.id) ∨ (e = fact ∧ c ∈ s.under d) := by
  rw [hr.evidence, List.mem_append, List.mem_singleton] at he
  rw [hr.evidenceUnder, Function.update_apply] at hc
  rcases he with he | rfl
  · rw [if_neg (hr.fresh e he)] at hc
    exact Or.inl ⟨he, hc⟩
  · rw [if_pos rfl] at hc
    exact Or.inr ⟨rfl, hc⟩

theorem Recorded.coversEvidence (hr : Recorded s s' d fact) {c : Uuid} {ids : List Uuid}
    (hother : c ∉ s.under d) (h : CoversEvidence s c ids) : CoversEvidence s' c ids := by
  intro e he hc
  rcases hr.mem he hc with ⟨hwas, hc'⟩ | ⟨-, hc'⟩
  · exact h e hwas hc'
  · exact absurd hc' hother

/-- **A finding is recorded** under consents that nobody has revoked, and whose revocations have
not read the evidence yet. -/
theorem Recorded.inv (hr : Recorded s s' d fact) (h : FetchInv s)
    (hcase : ∀ c ∈ s.under d, ConsentOf s.platform.db fact.tenantId fact.caseId c)
    (hsnapshot : ∀ c ∈ s.under d,
      ¬ IsRevoked s.platform.db c ∧ ∀ r, ¬ (s.revokes r).hasReadEvidence c) : FetchInv s' where
  granted := hr.granted h
  fetches := hr.fetches h
  payloads := hr.payloads h
  evidence := by
    intro e he c hc
    rcases hr.mem he hc with ⟨hwas, hc'⟩ | ⟨rfl, hc'⟩
    · exact hr.consents _ _ c (h.evidence e hwas c hc')
    · exact hr.consents _ _ c (hcase c hc')
  revokes := by
    rw [hr.revokes]
    intro r
    refine (h.revokes r).beside hr.toBeside fun c ids hread hcovers => ?_
    exact hr.coversEvidence (fun hc => (hsnapshot c hc).2 r hread) hcovers
  reviews := by
    rw [hr.tasks]
    intro t ht c hc
    obtain ⟨hrevoked, hevidence, hintents⟩ := h.reviews t ht c hc
    refine ⟨?_, hr.coversEvidence (fun hin => (hsnapshot c hin).1 hrevoked) hevidence,
      hintents.beside hr.toBeside⟩
    unfold IsRevoked
    rw [hr.sameConsents]
    exact hrevoked
  settled := by
    rw [hr.tasks]
    intro t ht herased c hc
    have hsettled : ReviewSettled s t c := h.settled t ht herased c hc
    constructor
    · intro e he hin
      rcases hr.mem he hin with ⟨hwas, hin'⟩ | ⟨-, hin'⟩
      · exact hsettled.evidence e hwas hin'
      · exact absurd (h.reviews t ht c hc).revoked (hsnapshot c hin').1
    · rw [hr.intents]
      exact hsettled.intents
  copies := by
    rw [hr.resolves]
    intro w
    have hcopies := h.copies w
    revert hcopies
    cases s.platform.resolves w <;>
      simp only [ResolveState.Copies, CopyOf, hr.tasks] <;> exact id

end Recorded

/-- A step that changes neither rows nor history but who is where beside the dispatches. -/
theorem FetchInv.setRecorded {s : FetchSystem} (h : FetchInv s) (recorded : Nat → Bool) :
    FetchInv { s with recorded } where
  granted := h.granted
  fetches := h.fetches
  payloads := h.payloads
  evidence := h.evidence
  revokes := fun r => (h.revokes r).beside
    ⟨rfl, rfl, rfl, rfl, fun _ _ _ => id, rfl, rfl, rfl⟩ fun _ _ _ => id
  reviews := fun t ht c hc => by
    obtain ⟨hrevoked, hevidence, hintents⟩ := h.reviews t ht c hc
    exact ⟨hrevoked, hevidence, ⟨hintents.stored, hintents.cleared, hintents.rows⟩⟩
  settled := fun t ht herased c hc => by
    obtain ⟨hevidence, hintents⟩ := h.settled t ht herased c hc
    exact ⟨hevidence, hintents⟩
  copies := h.copies

theorem FetchInv.recordEvidence {s : FetchSystem} (h : FetchInv s) {d : Nat} {env : Env}
    (hsnapshot : SnapshotComplete s (.recordEvidence d env)) :
    FetchInv (s.recordEvidence d env) := by
  unfold FetchSystem.recordEvidence
  split
  · next p finding hp hfinished =>
    split
    · exact h
    dsimp only
    split
    · exact h.setRecorded _
    next evidence hinsert =>
    have hrecorded : Recorded s
        { s with
          platform.db.evidence := evidence
          recorded := Function.update s.recorded d true
          evidenceUnder := Function.update s.evidenceUnder env.newId (s.under d) } d
        { id := env.newId, tenantId := p.tenantId, caseId := p.caseId, value := finding } :=
      { dispatches := rfl
        resolves := rfl
        intents := rfl
        grants := rfl
        consents := fun _ _ _ => id
        requests := rfl
        under := rfl
        payloadUnder := rfl
        tasks := rfl
        sameConsents := rfl
        revokes := rfl
        fresh := Table.key_fresh_of_insert hinsert
        evidence := Table.rows_of_insert hinsert
        evidenceUnder := rfl }
    refine hrecorded.inv h (fun c hc => ?_) (hsnapshot finding hfinished)
    -- the finding was obtained under consents of the case of the request
    have hrunning : s.platform.dispatches d ≠ .idle ∧ s.platform.dispatches d ≠ .crashed := by
      rw [hfinished]
      exact ⟨nofun, nofun⟩
    obtain ⟨q, hq, hok⟩ := h.of_running hrunning.1 hrunning.2
    rw [hp] at hq
    obtain rfl := Option.some.inj hq
    rw [hfinished] at hok
    exact hok c hc
  · exact h

/-! ## A consent is revoked -/

section Revoke

variable {s : FetchSystem}

theorem FetchInv.setRevoke (h : FetchInv s) (r : Nat) {state : RevokeState}
    (hcovers : state.Covers s) : FetchInv (s.setRevoke r state) := by
  have hb : Beside s (s.setRevoke r state) :=
    ⟨rfl, rfl, rfl, rfl, fun _ _ _ => id, rfl, rfl, rfl⟩
  refine ⟨h.granted, h.fetches, h.payloads, h.evidence, fun r' => ?_, ?_, ?_, h.copies⟩
  · have hstate : ((s.setRevoke r state).revokes r').Covers s := by
      simp only [FetchSystem.setRevoke, Function.update_apply]
      split
      · exact hcovers
      · exact h.revokes r'
    exact hstate.beside hb fun _ _ _ => id
  · intro t ht c hc
    obtain ⟨hrevoked, hevidence, hintents⟩ := h.reviews t ht c hc
    exact ⟨hrevoked, hevidence, hintents.beside hb⟩
  · intro t ht herased c hc
    obtain ⟨hevidence, hintents⟩ := h.settled t ht herased c hc
    exact ⟨hevidence, hintents⟩

theorem coversEvidence_read (h : FetchInv s) {tenantId caseId c : Uuid}
    (hof : ConsentOf s.platform.db tenantId caseId c) :
    CoversEvidence s c (caseEvidence s.platform.db tenantId caseId) := by
  intro e he hc
  obtain ⟨htenant, hcase⟩ := (h.evidence e he c hc).case_eq hof
  exact List.mem_map_of_mem (List.mem_filter.mpr ⟨he, by simp [htenant, hcase]⟩)

theorem mem_caseIntents {db : Db} {tenantId caseId id : Uuid} :
    id ∈ caseIntents db tenantId caseId
      ↔ ∃ i ∈ db.intents.rows, i.id = id ∧ i.tenantId = tenantId ∧ i.caseId = caseId := by
  simp only [caseIntents, List.mem_map, List.mem_filter, Bool.and_eq_true, decide_eq_true_eq]
  constructor
  · rintro ⟨i, ⟨hi, htenant, hcase⟩, hid⟩
    exact ⟨i, hi, hid, htenant, hcase⟩
  · rintro ⟨i, hi, hid, htenant, hcase⟩
    exact ⟨i, ⟨hi, htenant, hcase⟩, hid⟩

theorem coversIntents_read (h : FetchInv s) {tenantId caseId c : Uuid}
    (hof : ConsentOf s.platform.db tenantId caseId c) :
    CoversIntents s tenantId c (caseIntents s.platform.db tenantId caseId) where
  stored := by
    intro i hi hbare hc
    obtain ⟨htenant, hcase⟩ := (h.payloads i hi hbare c hc).case_eq hof
    exact mem_caseIntents.mpr ⟨i, hi, rfl, htenant, hcase⟩
  cleared := by
    intro d id hcleared hc
    obtain ⟨p, hok⟩ := h.of_cleared hcleared
    obtain ⟨⟨i, hi, hid, htenant, hcase⟩, hconsents⟩ := hok.of_cleared hcleared
    obtain ⟨htenant', hcase'⟩ := (hconsents c hc).case_eq hof
    exact mem_caseIntents.mpr ⟨i, hi, hid, htenant.trans htenant', hcase.trans hcase'⟩
  rows := by
    intro id hin
    obtain ⟨i, hi, hid, htenant, -⟩ := mem_caseIntents.mp hin
    exact ⟨i, hi, hid, htenant⟩

/-- **The commit**: the consent is revoked and the review opened, over what was read. -/
theorem FetchInv.commitRevoke (h : FetchInv s) {env : Env} {active : ConsentRecord}
    {reason : Option String} {evidenceFactIds providerIntentIds : List Uuid}
    {tasks : Table DataDispositionTask DataDispositionTask.id}
    (hcovers : RevokeState.Covers s (.commit active reason evidenceFactIds providerIntentIds))
    (hinsert : s.platform.db.tasks.insert
      (reviewOf env active evidenceFactIds providerIntentIds) = some tasks) :
    FetchInv { s with platform.db := { s.platform.db with
      consents := s.platform.db.consents.put (active.revoked env reason), tasks } } := by
  obtain ⟨hof, hevidence, hintents⟩ := hcovers
  have hb : Beside s { s with platform.db := { s.platform.db with
      consents := s.platform.db.consents.put (active.revoked env reason), tasks } } :=
    ⟨rfl, rfl, rfl, rfl, fun _ _ _ => consentOf_put hof rfl, rfl, rfl, rfl⟩
  have hrows : tasks.rows = s.platform.db.tasks.rows
      ++ [reviewOf env active evidenceFactIds providerIntentIds] := Table.rows_of_insert hinsert
  refine ⟨hb.granted h, hb.fetches h, hb.payloads h, ?_, ?_, ?_, ?_, ?_⟩
  · intro e he c hc
    exact hb.consents _ _ c (h.evidence e he c hc)
  · intro r
    exact (h.revokes r).beside hb fun _ _ _ => id
  · intro t ht c hc
    rw [hrows, List.mem_append, List.mem_singleton] at ht
    rcases ht with ht | rfl
    · obtain ⟨hrevoked, hevidence', hintents'⟩ := h.reviews t ht c hc
      exact ⟨isRevoked_put rfl hrevoked, hevidence', hintents'.beside hb⟩
    · obtain rfl : active.id = c := Option.some.inj hc
      refine ⟨?_, hevidence, hintents.beside hb⟩
      obtain ⟨record, hfind, -⟩ := hof
      refine ⟨active.revoked env reason, ?_, rfl⟩
      rw [find_revoked, if_pos rfl, hfind]
      rfl
  · intro t ht herased c hc
    rw [hrows, List.mem_append, List.mem_singleton] at ht
    rcases ht with ht | rfl
    · obtain ⟨hevidence', hintents'⟩ := h.settled t ht herased c hc
      exact ⟨hevidence', hintents'⟩
    · cases herased
  · intro w
    have hcopies := h.copies w
    have hkept {tenantId : Uuid} {task : DataDispositionTask}
        (hcopy : CopyOf s.platform.db tenantId task) :
        ∃ row, tasks.find task.id = some row ∧ row.tenantId = tenantId
          ∧ row.affectedEvidenceFactIds = task.affectedEvidenceFactIds
          ∧ row.affectedProviderIntentIds = task.affectedProviderIntentIds := by
      obtain ⟨row, hfind, hrest⟩ := hcopy
      obtain ⟨hmem, hid⟩ := s.platform.db.tasks.find_eq_some_iff.mp hfind
      refine ⟨row, ?_, hrest⟩
      rw [Table.find_eq_some_iff, hrows]
      exact ⟨List.mem_append_left _ hmem, hid⟩
    revert hcopies
    show (s.platform.resolves w).Copies s.platform.db → (s.platform.resolves w).Copies _
    cases s.platform.resolves w with
    | readHold tenantId task action actorId => exact hkept
    | finish tenantId task action actorId => exact hkept
    | _ => exact id

theorem FetchInv.startRevoke (h : FetchInv s) (r : Nat) (tenantId caseId : Uuid)
    (reason : Option String) : FetchInv (s.startRevoke r tenantId caseId reason) := by
  unfold FetchSystem.startRevoke
  split
  · split
    · exact h
    next active hactive =>
    obtain ⟨hmem, -, -⟩ := mem_newestConsents.mp (List.mem_of_find?_eq_some hactive)
    have hfind : s.platform.db.consents.find active.id = some active :=
      s.platform.db.consents.find_eq_some_iff.mpr ⟨hmem, rfl⟩
    have hcovers : RevokeState.Covers s (.readEvidence active reason) := ⟨active, hfind, rfl, rfl⟩
    exact h.setRevoke r hcovers
  · exact h

/-- **One statement of a revocation.** -/
theorem FetchInv.revoke (h : FetchInv s) (r : Nat) (env : Env) : FetchInv (s.revoke r env) := by
  have hcovers : (s.revokes r).Covers s := h.revokes r
  unfold FetchSystem.revoke
  dsimp only
  split
  · next active reason hr =>
    rw [hr] at hcovers
    have hof : ConsentOf s.platform.db active.tenantId active.caseId active.id := hcovers
    refine h.setRevoke r ?_
    exact ⟨hof, coversEvidence_read h hof⟩
  · next active reason evidenceFactIds hr =>
    rw [hr] at hcovers
    obtain ⟨hof, hevidence⟩ := hcovers
    refine h.setRevoke r ?_
    exact ⟨hof, hevidence, coversIntents_read h hof⟩
  · next active reason evidenceFactIds providerIntentIds hr =>
    rw [hr] at hcovers
    split
    · refine h.setRevoke r ?_
      trivial
    next tasks hinsert =>
    refine (h.commitRevoke hcovers hinsert).setRevoke r ?_
    trivial
  · exact h

end Revoke

/-! ## Every run -/

/-- **One step.** -/
theorem fetchInv_step {deps : Deps} {s : FetchSystem} (h : FetchInv s) {a : FetchLabel}
    (hsnapshot : SnapshotComplete s a) : FetchInv (fetchStep deps s a) := by
  cases a with
  | platform a =>
    unfold fetchStep
    split
    · exact h
    · exact h
    · next b hrevoke hrecord heq =>
      cases heq
      refine h.step (fun env tenantId caseId reason ha => ?_) (fun fact ha => ?_) hsnapshot
      · exact hrevoke env tenantId caseId reason ha
      · exact hrecord fact ha
    all_goals next heq => cases heq
  | recordEvidence d env => exact h.recordEvidence hsnapshot
  | startRevoke r tenantId caseId reason => exact h.startRevoke r tenantId caseId reason
  | revoke r env => exact h.revoke r env
  | revokeFails r =>
    have hcovers : RevokeState.Covers s .idle := trivial
    exact h.setRevoke r hcovers

/-- **Reviews erase.** In every interleaving in which every finding is recorded before a
revocation of a consent behind it reads the evidence, and every dispatch that passes its consent
check is among the intents that a revocation under way has read, nothing that was obtained under
the consent of a review that ended in `DELETED` or `ANONYMIZED` is stored, then or later. -/
theorem reviews_erase (deps : Deps) (db : Db) (run : List FetchLabel)
    (hsnapshot : AllSteps (fetchStep deps) SnapshotComplete (.init db) run) :
    Erased (exec (fetchStep deps) (.init db) run) :=
  erased_of_inv (exec_inv_of_allSteps (I := FetchInv) (fun _ _ h hsnapshot =>
    fetchInv_step h hsnapshot) (fetchInv_init db) hsnapshot)

/-! ### One income report, fetched, revoked and deleted -/

/-- Dispatch 0 returns the borrower's income, obtained under consent 5 as intent 20. -/
def fetchedRun : List Label :=
  untilMarkDispatched ++ runs 0 2 20
    ++ [.submitReturns 0 (envAt 20) (.receipt incomeReceipt), .dispatch 0 (envAt 20)]

/-- The borrower revokes, which opens review 30. -/
def revocationStatements : List FetchLabel :=
  [.startRevoke 0 1 3 none, .revoke 0 (envAt 30), .revoke 0 (envAt 30), .revoke 0 (envAt 30)]

def reviewDeletion : List FetchLabel :=
  [.platform (.startResolve 0 1 30 .DELETE "operator-1"), .platform (.resolve 0 (envAt 31)),
    .platform (.resolve 0 (envAt 31))]

/-- While nobody revokes, a run of the platform meets the condition. -/
theorem snapshotComplete_platform (deps : Deps) (run : List Label) {s : FetchSystem}
    (hidle : ∀ r, s.revokes r = .idle) :
    AllSteps (fetchStep deps) SnapshotComplete s (run.map .platform) := by
  induction run generalizing s with
  | nil => trivial
  | cons a run ih =>
    refine ⟨?_, ih fun r => ?_⟩
    · cases a with
      | dispatch d env =>
        intro p adapter decisionId intent grant c _ _ r hmissed
        rw [hidle r] at hmissed
        exact hmissed
      | _ => trivial
    · unfold fetchStep
      split
      · exact hidle r
      · exact hidle r
      · next heq =>
        cases heq
        rw [fetch_step_revokes]
        exact hidle r
      all_goals next heq => cases heq

/-- The fetch records its finding before the revocation. -/
def recordedFirst : List FetchLabel :=
  fetchedRun.map .platform ++ .recordEvidence 0 (envAt 40) :: (revocationStatements
    ++ reviewDeletion)

theorem reviews_erase_recordedFirst :
    Erased (exec (fetchStep incomeDeps) (.init consentedDb) recordedFirst)
      ∧ (exec (fetchStep incomeDeps) (.init consentedDb) recordedFirst).platform.db.tasks.rows.map
        (fun t => (t.erased, t.affectedEvidenceFactIds)) = [(true, [40])] := by
  refine ⟨reviews_erase incomeDeps consentedDb recordedFirst ?_, by decide⟩
  refine (snapshotComplete_platform incomeDeps fetchedRun fun _ => rfl).append ⟨?_, ?_⟩
  · -- consent 5 is in force when the finding is recorded
    intro finding _ c hc
    have hunder : (exec (fetchStep incomeDeps) (.init consentedDb)
        (fetchedRun.map .platform)).under 0 = [5] := by decide
    rw [hunder, List.mem_singleton] at hc
    subst hc
    constructor
    · rintro ⟨record, hfind, hrevoked⟩
      have hconsent : (exec (fetchStep incomeDeps) (.init consentedDb)
          (fetchedRun.map .platform)).platform.db.consents.find 5 = some incomeConsent := by decide
      rw [hconsent] at hfind
      cases hfind
      cases hrevoked
    · exact fun r hread => hread
  · exact ⟨trivial, trivial, trivial, trivial, trivial, trivial, trivial, trivial⟩

/-- The fetch holds its finding until the review has been resolved. -/
def recordedLast : List FetchLabel :=
  fetchedRun.map .platform ++ revocationStatements ++ reviewDeletion
    ++ [.recordEvidence 0 (envAt 40)]

/-- An object that says something. -/
def hasFields : Json → Bool
  | .obj (_ :: _) => true
  | _ => false

/-- **Late evidence stays.** Review 30 has been resolved with `DELETE`, and evidence 40 holds the
income obtained under the revoked consent. -/
theorem late_evidence_stays :
    ¬ ∀ (deps : Deps) (db : Db) (run : List FetchLabel),
      Erased (exec (fetchStep deps) (.init db) run) := by
  intro h
  have herased := h incomeDeps consentedDb recordedLast
  have hreview : ∃ t ∈ (exec (fetchStep incomeDeps) (.init consentedDb)
      recordedLast).platform.db.tasks.rows,
      t.erased = true ∧ t.triggeringConsentRecordId = some 5 := by decide
  have hfact : ∃ e ∈ (exec (fetchStep incomeDeps) (.init consentedDb)
      recordedLast).platform.db.evidence.rows,
      5 ∈ (exec (fetchStep incomeDeps) (.init consentedDb) recordedLast).evidenceUnder e.id
        ∧ hasFields e.value = true := by decide
  obtain ⟨t, ht, hdone, htrigger⟩ := hreview
  obtain ⟨e, he, hunder, hvalue⟩ := hfact
  rw [(herased t ht hdone 5 htrigger).1 e he hunder] at hvalue
  cases hvalue

end MortgageAgent.Provider
