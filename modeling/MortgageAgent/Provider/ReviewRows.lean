import MortgageAgent.Provider.Revocation

/-!
# Who changes holds, evidence and review tasks

The disposition review lives in three tables that the provider platform does not write: legal
holds, evidence facts and the review tasks themselves.

* **`dispatchStep_writes`** — a dispatch writes intents, decisions and grants, nothing else.
* **`SameReview`**, **`step_sameReview`** — every label leaves the three tables alone except the
  five of the review (`Label.touchesReview`).
* **`step_resolves`**, **`finish_of_step`**, **`readHold_of_step`** — how a resolution gets to
  where it stands.
* **`step_review`** — reviews and evidence are otherwise written by a resolution alone.
* **`hasActiveHold_of_step`** — only a placement gives a case its hold.
-/

namespace MortgageAgent.Provider

open Runs

/-! ## What a dispatch writes -/

theorem transition_writes {db db' : Db} {env : Env} {tenantId id : Uuid}
    {source : List ProviderOperationIntentStatus} {state : ProviderOperationIntentStatus}
    {values : PayloadValues}
    (h : transition db env tenantId id source state values = .ok db') :
    ∃ intents, db' = { db with intents } := by
  obtain ⟨i, -, -, -, -, rfl⟩ := transition_ok h
  exact ⟨_, rfl⟩

/-- **A dispatch writes intents, decisions and grants.** -/
theorem dispatchStep_writes (deps : Deps) (db : Db) (env : Env) (state : DispatchState) :
    ∃ intents decisions grants,
      (dispatchStep deps db env state).db = { db with intents, decisions, grants } := by
  have hsame : ∃ intents decisions grants, db = { db with intents, decisions, grants } :=
    ⟨_, _, _, rfl⟩
  have hintents {db' : Db} (h : ∃ intents, db' = { db with intents }) :
      ∃ intents decisions grants, db' = { db with intents, decisions, grants } := by
    obtain ⟨intents, rfl⟩ := h
    exact ⟨intents, _, _, rfl⟩
  have hcase := dispatchStep_case deps db env state
  generalize dispatchStep deps db env state = move at hcase ⊢
  cases hcase with
  | purposeIssued _ _ _ _ _ hissue =>
    obtain ⟨_, decisions, -, rfl⟩ := issueSynthetic_ok hissue
    exact ⟨_, decisions, _, rfl⟩
  | grantIssued _ _ _ _ _ _ hissue =>
    obtain ⟨-, grants, -, rfl⟩ := issueGrant_ok hissue
    exact ⟨_, _, grants, rfl⟩
  | inserted _ _ _ _ _ _ hinsert =>
    obtain ⟨-, -, -, -, -, intents, -, rfl⟩ := prepareInsert_ok hinsert
    exact ⟨intents, _, _, rfl⟩
  | refreshed _ _ _ grantId existing =>
    obtain ⟨intents, hrefresh, -⟩ := prepareRefresh_effect db env existing grantId
    rw [hrefresh]
    exact ⟨intents, _, _, rfl⟩
  -- the transitions write the intent and nothing else.
  | authorizationFailed _ _ _ hmark => exact hintents (transition_writes hmark)
  | dispatched _ _ _ _ _ hmark => exact hintents (transition_writes hmark)
  | succeeded _ _ _ _ hmark => exact hintents (transition_writes hmark)
  | failed _ _ _ _ hmark => exact hintents (transition_writes hmark)
  | lost _ _ _ hmark => exact hintents (transition_writes hmark)
  -- the others only read.
  | _ => exact hsame

/-! ## The tables of the review -/

/-- Holds, evidence and review tasks are as they were. -/
structure SameReview (db db' : Db) : Prop where
  holds : db'.holds = db.holds
  evidence : db'.evidence = db.evidence
  tasks : db'.tasks = db.tasks

theorem SameReview.refl (db : Db) : SameReview db db := ⟨rfl, rfl, rfl⟩

/-- The labels that may write one of the three tables. -/
def Label.touchesReview : Label → Bool
  | .resolve _ _ | .revokeConsent _ _ _ _ | .placeHold _ | .releaseHold _ _ _ _
  | .recordEvidence _ => true
  | _ => false

theorem transition_review {db db' : Db} {env : Env} {tenantId id : Uuid}
    {source : List ProviderOperationIntentStatus} {state : ProviderOperationIntentStatus}
    {values : PayloadValues}
    (h : transition db env tenantId id source state values = .ok db') : SameReview db db' := by
  obtain ⟨intents, rfl⟩ := transition_writes h
  exact ⟨rfl, rfl, rfl⟩

theorem grantForCase_review {db db' : Db} {record : ConsentRecord}
    (h : grantForCase db record = .ok db') : SameReview db db' := by
  obtain ⟨consents, -, rfl⟩ := grantForCase_ok h
  exact ⟨rfl, rfl, rfl⟩

/-- **Only the review's own labels write them.** -/
theorem step_sameReview {deps : Deps} {s : System} {a : Label} (h : a.touchesReview = false) :
    SameReview s.db (step deps s a).db := by
  have hwrites := step_writes deps s a
  generalize (step deps s a).db = db' at hwrites ⊢
  cases hwrites with
  | nothing => exact .refl s.db
  | dispatch d env =>
    obtain ⟨intents, decisions, grants, hdb⟩ :=
      dispatchStep_writes deps s.db env (s.dispatches d)
    rw [hdb]
    exact ⟨rfl, rfl, rfl⟩
  | sweep hmark => exact transition_review hmark
  | resolveManually hresolve =>
    obtain ⟨i, -, -, i', -, -, -, rfl⟩ := resolveManually_ok hresolve
    exact ⟨rfl, rfl, rfl⟩
  | grantConsent hgrant => exact grantForCase_review hgrant
  | decidePurpose decision => exact ⟨rfl, rfl, rfl⟩
  | setAdapterStatus status => exact ⟨rfl, rfl, rfl⟩
  | setActivation activation => exact ⟨rfl, rfl, rfl⟩
  -- the others are the labels that touch them
  | _ => cases h

/-! ## Resolutions under way -/

/-- The resolution that a label moves. -/
def Label.ofResolve : Label → Option Nat
  | .startResolve w _ _ _ _ => some w
  | .resolve w _ => some w
  | .resolveFails w => some w
  | _ => none

theorem setResolve_resolves (s : System) (w w' : Nat) (state : ResolveState) :
    (s.setResolve w state).resolves w' = if w' = w then state else s.resolves w' := by
  simp only [System.setResolve, Function.update_apply]

/-- The other labels leave a resolution where it stands. -/
theorem step_resolves {deps : Deps} {s : System} {a : Label} {w : Nat}
    (h : a.ofResolve ≠ some w) : (step deps s a).resolves w = s.resolves w := by
  have htry (result : Except ProviderFailure Db) :
      (s.tryDb result).resolves w = s.resolves w := by
    cases result <;> rfl
  have hset {w' : Nat} (hw : w' ≠ w) (s' : System) (state : ResolveState) :
      (s'.setResolve w' state).resolves w = s'.resolves w := by
    rw [setResolve_resolves, if_neg (Ne.symm hw)]
  cases a with
  | startDispatch d p =>
    simp only [step]
    split <;> rfl
  | startSweep w' now staleAfterMs =>
    simp only [step]
    split <;> rfl
  | sweep w' env =>
    simp only [step, System.sweep]
    split
    · rfl
    · exact htry _
  | startResolve w' tenantId taskId action actorId =>
    have hw : w' ≠ w := fun hw => h (congrArg some hw)
    simp only [step]
    split
    · split <;> exact hset hw s _
    · rfl
  | resolve w' env =>
    have hw : w' ≠ w := fun hw => h (congrArg some hw)
    simp only [step, System.resolve]
    split
    · split <;> exact hset hw s _
    · split <;> exact hset hw _ _
    · rfl
  | resolveFails w' =>
    have hw : w' ≠ w := fun hw => h (congrArg some hw)
    exact hset hw s _
  | resolveManually env tenantId id outcome resolvedBy resolutionNote => exact htry _
  | grantConsent record => exact htry _
  | revokeConsent env tenantId caseId reason => exact htry _
  | placeHold hold => exact htry _
  | releaseHold env tenantId legalHoldId releasedBy => exact htry _
  | _ => rfl

/-- What a step can do to the resolution `w`. -/
inductive ResolveMove (s s' : System) (w : Nat) : Prop where
  | stays (hstate : s'.resolves w = s.resolves w)
  | read (tenantId taskId : Uuid) (task : DataDispositionTask)
      (action : DataDispositionResolutionAction) (actorId : String)
      (hread : resolveReadTask s.db tenantId taskId = .ok task)
      (hstate : s'.resolves w = .readHold tenantId task action actorId) (hdb : s'.db = s.db)
  | checked (tenantId : Uuid) (task : DataDispositionTask)
      (action : DataDispositionResolutionAction) (actorId : String)
      (hwas : s.resolves w = .readHold tenantId task action actorId)
      (hcheck : resolveCheckHold task action (hasActiveHold s.db tenantId task.caseId) = .ok ())
      (hstate : s'.resolves w = .finish tenantId task action actorId) (hdb : s'.db = s.db)
  | ended (result : Except ProviderFailure Unit) (hstate : s'.resolves w = .finished result)

theorem step_resolveMove (deps : Deps) (s : System) (a : Label) (w : Nat) :
    ResolveMove s (step deps s a) w := by
  have hself (s' : System) (state : ResolveState) : (s'.setResolve w state).resolves w = state := by
    rw [setResolve_resolves, if_pos rfl]
  by_cases ha : a.ofResolve = some w
  · cases a with
    | startResolve w' tenantId taskId action actorId =>
      obtain rfl : w' = w := Option.some.inj ha
      simp only [step]
      split
      · split
        · exact .ended _ (hself s _)
        · next task hread => exact .read tenantId taskId task action actorId hread (hself s _) rfl
      · exact .stays rfl
    | resolve w' env =>
      obtain rfl : w' = w := Option.some.inj ha
      simp only [step, System.resolve]
      split
      · next tenantId task action actorId hwas =>
        split
        · exact .ended _ (hself s _)
        · next hcheck => exact .checked tenantId task action actorId hwas hcheck (hself s _) rfl
      · split
        · exact .ended _ (hself s _)
        · exact .ended _ (hself _ _)
      · exact .stays rfl
    | resolveFails w' =>
      obtain rfl : w' = w := Option.some.inj ha
      exact .ended _ (hself s _)
    | _ => cases ha
  · exact .stays (step_resolves ha)

/-- **A resolution is at its last transaction** because it was there, or because its hold check
has just passed. -/
theorem finish_of_step {deps : Deps} {s : System} {a : Label} {w : Nat} {tenantId : Uuid}
    {task : DataDispositionTask} {action : DataDispositionResolutionAction} {actorId : String}
    (h : (step deps s a).resolves w = .finish tenantId task action actorId) :
    s.resolves w = .finish tenantId task action actorId
      ∨ (s.resolves w = .readHold tenantId task action actorId
        ∧ resolveCheckHold task action (hasActiveHold s.db tenantId task.caseId) = .ok ()
        ∧ (step deps s a).db = s.db) := by
  cases step_resolveMove deps s a w with
  | stays hstate =>
    rw [hstate] at h
    exact Or.inl h
  | read _ _ _ _ _ _ hstate _ =>
    rw [hstate] at h
    cases h
  | checked _ _ _ _ hwas hcheck hstate hdb =>
    rw [hstate] at h
    cases h
    exact Or.inr ⟨hwas, hcheck, hdb⟩
  | ended result hstate =>
    rw [hstate] at h
    cases h

/-- A resolution waits for its hold check because it did, or because it has just read its
task. -/
theorem readHold_of_step {deps : Deps} {s : System} {a : Label} {w : Nat} {tenantId : Uuid}
    {task : DataDispositionTask} {action : DataDispositionResolutionAction} {actorId : String}
    (h : (step deps s a).resolves w = .readHold tenantId task action actorId) :
    s.resolves w = .readHold tenantId task action actorId
      ∨ ((∃ taskId, resolveReadTask s.db tenantId taskId = .ok task)
        ∧ (step deps s a).db = s.db) := by
  cases step_resolveMove deps s a w with
  | stays hstate =>
    rw [hstate] at h
    exact Or.inl h
  | read _ taskId _ _ _ hread hstate hdb =>
    rw [hstate] at h
    cases h
    exact Or.inr ⟨⟨taskId, hread⟩, hdb⟩
  | checked _ _ _ _ _ _ hstate _ =>
    rw [hstate] at h
    cases h
  | ended result hstate =>
    rw [hstate] at h
    cases h

theorem resolveFinish_holds {deps : Deps} {db db' : Db} {env : Env} {tenantId : Uuid}
    {task : DataDispositionTask} {action : DataDispositionResolutionAction} {actorId : String}
    (h : resolveFinish deps db env tenantId task action actorId = .ok db') :
    db'.holds = db.holds := by
  obtain ⟨row, -, hfinished⟩ := finished_of_resolveFinish h
  cases hfinished <;> rfl

/-- **Who writes reviews and evidence.** Besides a revocation, which opens a review, and a fetch,
which records evidence, only a resolution that runs to its end. -/
theorem step_review {deps : Deps} {s : System} {a : Label}
    (hrevoke : ∀ env tenantId caseId reason, a ≠ .revokeConsent env tenantId caseId reason)
    (hrecord : ∀ fact, a ≠ .recordEvidence fact) :
    ((step deps s a).db.tasks = s.db.tasks ∧ (step deps s a).db.evidence = s.db.evidence)
      ∨ ∃ w env tenantId task action actorId,
        s.resolves w = .finish tenantId task action actorId
        ∧ resolveFinish deps s.db env tenantId task action actorId = .ok (step deps s a).db := by
  cases htouch : a.touchesReview with
  | false =>
    have hsame : SameReview s.db (step deps s a).db := step_sameReview htouch
    exact Or.inl ⟨hsame.tasks, hsame.evidence⟩
  | true =>
    cases a with
    | resolve w env =>
      simp only [step, System.resolve]
      split
      · split <;> exact Or.inl ⟨rfl, rfl⟩
      · next tenantId task action actorId hw =>
        split
        · exact Or.inl ⟨rfl, rfl⟩
        · next db' hfinish =>
          exact Or.inr ⟨w, env, tenantId, task, action, actorId, hw, hfinish⟩
      · exact Or.inl ⟨rfl, rfl⟩
    | placeHold hold =>
      simp only [step, System.tryDb]
      cases hplace : placeHold s.db hold with
      | error e => exact Or.inl ⟨rfl, rfl⟩
      | ok db' =>
        obtain ⟨holds, -, rfl⟩ := placeHold_ok hplace
        exact Or.inl ⟨rfl, rfl⟩
    | releaseHold env tenantId legalHoldId releasedBy =>
      simp only [step, System.tryDb]
      cases hrelease : releaseHold s.db env tenantId legalHoldId releasedBy with
      | error e => exact Or.inl ⟨rfl, rfl⟩
      | ok db' =>
        obtain ⟨hold, -, rfl⟩ := releaseHold_ok hrelease
        exact Or.inl ⟨rfl, rfl⟩
    | revokeConsent env tenantId caseId reason =>
      exact absurd rfl (hrevoke env tenantId caseId reason)
    | recordEvidence fact => exact absurd rfl (hrecord fact)
    | _ => cases htouch

/-! ## Holds -/

theorem hasActiveHold_iff {db : Db} {tenantId caseId : Uuid} :
    hasActiveHold db tenantId caseId = true
      ↔ ∃ h ∈ db.holds.rows, h.tenantId = tenantId ∧ h.caseId = caseId ∧ h.status = .ACTIVE := by
  simp [hasActiveHold, and_assoc]

theorem hasActiveHold_congr {db db' : Db} (h : db'.holds = db.holds) (tenantId caseId : Uuid) :
    hasActiveHold db' tenantId caseId = hasActiveHold db tenantId caseId := by
  rw [hasActiveHold, hasActiveHold, h]

/-- A release only ever takes a case's hold away. -/
theorem hasActiveHold_of_release {db db' : Db} {env : Env} {tenantId legalHoldId : Uuid}
    {releasedBy : String} (h : releaseHold db env tenantId legalHoldId releasedBy = .ok db')
    {tenantId' caseId : Uuid} (hactive : hasActiveHold db' tenantId' caseId = true) :
    hasActiveHold db tenantId' caseId = true := by
  obtain ⟨hold, hmem, rfl⟩ := releaseHold_ok h
  obtain ⟨x, hx, htenant, hcase, hstatus⟩ := hasActiveHold_iff.mp hactive
  have hput := db.holds.mem_put (x := x) (r := { hold with
    status := .RELEASED
    releasedAt := some env.processNow
    releasedBy := some releasedBy }) ⟨hold, hmem, rfl⟩
  rcases hput.mp hx with rfl | ⟨hx, -⟩
  · cases hstatus
  · exact hasActiveHold_iff.mpr ⟨x, hx, htenant, hcase, hstatus⟩

/-- **Only a placement gives a case its hold.** -/
theorem hasActiveHold_of_step {deps : Deps} {s : System} {a : Label} {tenantId caseId : Uuid}
    (hplace : ∀ hold, a ≠ .placeHold hold)
    (hactive : hasActiveHold (step deps s a).db tenantId caseId = true) :
    hasActiveHold s.db tenantId caseId = true := by
  cases htouch : a.touchesReview with
  | false =>
    rw [hasActiveHold_congr (step_sameReview htouch).holds] at hactive
    exact hactive
  | true =>
    cases a with
    | resolve w env =>
      simp only [step, System.resolve] at hactive
      split at hactive
      · split at hactive <;> exact hactive
      · split at hactive
        · exact hactive
        · next hfinish =>
          have hholds := resolveFinish_holds hfinish
          exact (hasActiveHold_congr hholds tenantId caseId).symm.trans hactive
      · exact hactive
    | revokeConsent env tenantId' caseId' reason =>
      simp only [step, System.tryDb] at hactive
      cases hrevoke : revokeConsent s.db env tenantId' caseId' reason with
      | error e =>
        rw [hrevoke] at hactive
        exact hactive
      | ok db' =>
        obtain ⟨active, tasks, -, -, rfl⟩ := revokeConsent_ok hrevoke
        rw [hrevoke] at hactive
        exact hactive
    | releaseHold env tenantId' legalHoldId releasedBy =>
      simp only [step, System.tryDb] at hactive
      cases hrelease : releaseHold s.db env tenantId' legalHoldId releasedBy with
      | error e =>
        rw [hrelease] at hactive
        exact hactive
      | ok db' =>
        rw [hrelease] at hactive
        exact hasActiveHold_of_release hrelease hactive
    | recordEvidence fact => exact hactive
    | placeHold hold => exact absurd rfl (hplace hold)
    | _ => cases htouch

end MortgageAgent.Provider
