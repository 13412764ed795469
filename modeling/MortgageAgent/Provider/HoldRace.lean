import MortgageAgent.Provider.ReviewRows
import MortgageAgent.Provider.Submission

/-!
# Placing a legal hold while a review is resolved

`resolve` asks `hasActiveHold` in a transaction of its own and takes no lock on the holds, and
the evidence goes several statements later. Here the statements that matter are steps of their
own: `place` reads and then saves, and a resolution that deletes or anonymizes runs its deletion
statement and then commits.

* **`HoldSystem`** / **`HoldLabel`** / **`holdStep`** — the platform, the two statements of
  `place`, and what stood in the hold table when a deletion statement ran.
* **`HoldRespected`** — no commit erases evidence while a hold that its deletion statement could
  see is active.
* **`HoldsWait`** — no hold is saved between the hold check of a resolution of its case and that
  resolution's deletion statement.
* **`holds_respected`** — if no hold is, every commit of the run respects the holds.
* **`hold_placed_after_check`** — a hold saved in between is not seen.
-/

namespace MortgageAgent.Provider

open Runs

/-! ## The statements -/

/-- The arguments of a call of `LegalHoldService.place`. -/
structure PlaceHoldParams where
  tenantId : Uuid
  caseId : Uuid
  reason : String
  ownerId : String

/-- `repo.create(..)`: the status is the column's default. -/
def PlaceHoldParams.newHold (params : PlaceHoldParams) (env : Env) : LegalHold where
  id := env.newId
  tenantId := params.tenantId
  caseId := params.caseId
  reason := params.reason
  ownerId := params.ownerId

/-- The holds of the case that are active. -/
def activeHolds (db : Db) (tenantId caseId : Uuid) : List Uuid :=
  (db.holds.rows.filter fun h =>
    h.tenantId = tenantId && h.caseId = caseId && h.status = .ACTIVE).map (·.id)

structure HoldSystem where
  platform : System
  /-- the `place` calls that found no active hold and have still to save theirs -/
  places : Nat → Option PlaceHoldParams
  /-- for a resolution behind its deletion statement: the holds that were active there -/
  deletions : Nat → Option (List Uuid)

inductive HoldLabel where
  | platform (a : Label)
  | findHold (c : Nat) (params : PlaceHoldParams)
  | saveHold (c : Nat) (env : Env)
  /-- the transaction of a `place` fails, or its process dies -/
  | placeFails (c : Nat)
  | deleteEvidence (w : Nat)

/-- A resolution that may delete, with its hold check behind it and its deletion ahead: the
tenant and the case it is for. -/
def HoldSystem.beforeDeletion (s : HoldSystem) (w : Nat) : Option (Uuid × Uuid) :=
  match s.platform.resolves w, s.deletions w with
  | .finish tenantId task action _, none =>
    if action = .RETAIN then none else some (tenantId, task.caseId)
  | _, _ => none

def holdStep (deps : Deps) (s : HoldSystem) : HoldLabel → HoldSystem
  -- `place` runs in its two statements.
  | .platform (.placeHold _) => s
  | .platform (.resolve w env) =>
    match s.beforeDeletion w with
    | some _ => s
    | none => { s with platform := step deps s.platform (.resolve w env) }
  | .platform a => { s with platform := step deps s.platform a }
  | .findHold c params =>
    match s.places c with
    | some _ => s
    | none =>
      if hasActiveHold s.platform.db params.tenantId params.caseId then s
      else { s with places := Function.update s.places c (some params) }
  | .saveHold c env =>
    match s.places c with
    | none => s
    | some params =>
      let s := { s with places := Function.update s.places c none }
      match s.platform.db.holds.insert (params.newHold env) with
      | none => s
      | some holds => { s with platform.db.holds := holds }
  | .placeFails c => { s with places := Function.update s.places c none }
  | .deleteEvidence w =>
    match s.beforeDeletion w with
    | none => s
    | some (tenantId, caseId) =>
      { s with deletions :=
        Function.update s.deletions w (some (activeHolds s.platform.db tenantId caseId)) }

/-- No intent, no process, no `place` under way. -/
def HoldSystem.init (db : Db) : HoldSystem where
  platform := .init db
  places := fun _ => none
  deletions := fun _ => none

/-! ## The promise and its condition -/

/-- **Holds are respected.** When the commit of a resolution deletes or rewrites evidence, no hold
of the case that was active at its deletion statement is still active. -/
def HoldRespected (deps : Deps) (s : HoldSystem) (a : HoldLabel) : Prop :=
  ∀ w env, a = .platform (.resolve w env) →
    (holdStep deps s a).platform.db.evidence ≠ s.platform.db.evidence →
    ∃ seen, s.deletions w = some seen
      ∧ ∀ hold ∈ s.platform.db.holds.rows, hold.id ∈ seen → hold.status ≠ .ACTIVE

/-- No hold is saved while a resolution of its case is between hold check and deletion. -/
def HoldsWait (s : HoldSystem) (a : HoldLabel) : Prop :=
  ∀ c env params, a = .saveHold c env → s.places c = some params →
    ∀ w, s.beforeDeletion w ≠ some (params.tenantId, params.caseId)

/-! ## Between hold check and deletion -/

theorem beforeDeletion_eq_some {s : HoldSystem} {w : Nat} {tenantId caseId : Uuid} :
    s.beforeDeletion w = some (tenantId, caseId) ↔ s.deletions w = none
      ∧ ∃ task action actorId, s.platform.resolves w = .finish tenantId task action actorId
        ∧ action ≠ .RETAIN ∧ task.caseId = caseId := by
  unfold HoldSystem.beforeDeletion
  constructor
  · intro h
    split at h
    · next tenantId' task action actorId hw hnone =>
      split at h
      · cases h
      · next haction =>
        cases h
        exact ⟨hnone, task, action, actorId, hw, haction, rfl⟩
    · cases h
  · rintro ⟨hnone, task, action, actorId, hw, haction, rfl⟩
    simp [hnone, hw, haction]

/-- The check that let a deletion through found no hold. -/
theorem hasActiveHold_of_check {task : DataDispositionTask}
    {action : DataDispositionResolutionAction} {hasHold : Bool} (haction : action ≠ .RETAIN)
    (h : resolveCheckHold task action hasHold = .ok ()) : hasHold = false := by
  unfold resolveCheckHold at h
  rw [if_neg haction] at h
  cases hasHold with
  | false => rfl
  | true => cases h

theorem activeHolds_eq_nil {db : Db} {tenantId caseId : Uuid}
    (h : hasActiveHold db tenantId caseId = false) : activeHolds db tenantId caseId = [] := by
  unfold activeHolds
  rw [List.map_eq_nil_iff, List.filter_eq_nil_iff]
  intro hold hmem hactive
  have htrue : hasActiveHold db tenantId caseId = true := List.any_eq_true.mpr ⟨hold, hmem, hactive⟩
  rw [h] at htrue
  cases htrue

/-- No resolution that passed its check has a hold on its case before its deletion, so what the
deletion statements saw is empty. -/
structure CheckHolds (s : HoldSystem) : Prop where
  waiting : ∀ w tenantId caseId, s.beforeDeletion w = some (tenantId, caseId) →
    hasActiveHold s.platform.db tenantId caseId = false
  seen : ∀ w ids, s.deletions w = some ids → ids = []

theorem checkHolds_init (db : Db) : CheckHolds (.init db) where
  waiting := by
    intro w tenantId caseId h
    obtain ⟨-, task, action, actorId, hw, -⟩ := beforeDeletion_eq_some.mp h
    cases hw
  seen := by
    intro w ids h
    cases h

/-- A step of the platform gives no case a hold, and a resolution that gets past its check got
past it because there was none. -/
theorem CheckHolds.platform {deps : Deps} {s : HoldSystem} (h : CheckHolds s) {a : Label}
    (hplace : ∀ hold, a ≠ .placeHold hold) :
    CheckHolds { s with platform := step deps s.platform a } where
  seen := h.seen
  waiting := by
    intro w tenantId caseId hbefore
    obtain ⟨hnone, task, action, actorId, hw, haction, rfl⟩ := beforeDeletion_eq_some.mp hbefore
    have hfree : hasActiveHold s.platform.db tenantId task.caseId = false := by
      rcases finish_of_step hw with hwas | ⟨-, hcheck, -⟩
      · exact h.waiting w tenantId task.caseId
          (beforeDeletion_eq_some.mpr ⟨hnone, task, action, actorId, hwas, haction, rfl⟩)
      · exact hasActiveHold_of_check haction hcheck
    by_contra hactive
    have hbefore' := hasActiveHold_of_step hplace (Bool.eq_true_of_not_eq_false hactive)
    rw [hfree] at hbefore'
    cases hbefore'

/-- A hold that waits is saved for a case that no deletion is about to run for. -/
theorem CheckHolds.saveHold {s : HoldSystem} (h : CheckHolds s) {c : Nat} {env : Env}
    {params : PlaceHoldParams} (hparams : s.places c = some params)
    (hwait : HoldsWait s (.saveHold c env)) {holds : Table LegalHold LegalHold.id}
    (hinsert : s.platform.db.holds.insert (params.newHold env) = some holds) {w : Nat}
    {tenantId caseId : Uuid} (hbefore : s.beforeDeletion w = some (tenantId, caseId)) :
    hasActiveHold { s.platform.db with holds } tenantId caseId = false := by
  have hfree := h.waiting w tenantId caseId hbefore
  by_contra hactive
  obtain ⟨hold, hmem, htenant, hcase, hstatus⟩ :=
    hasActiveHold_iff.mp (Bool.eq_true_of_not_eq_false hactive)
  have hmem' : hold ∈ s.platform.db.holds.rows ++ [params.newHold env] := by
    rw [← Table.rows_of_insert hinsert]
    exact hmem
  -- the only hold that is new is the saved one, and its case is another
  rcases List.mem_append.mp hmem' with hold | hnew
  · have hold' := hasActiveHold_iff.mpr ⟨_, hold, htenant, hcase, hstatus⟩
    rw [hfree] at hold'
    cases hold'
  · obtain rfl := List.mem_singleton.mp hnew
    have hpair : (params.tenantId, params.caseId) = (tenantId, caseId) :=
      Prod.ext htenant hcase
    exact hwait c env params rfl hparams w (hpair ▸ hbefore)

/-- A deletion statement sees no hold. -/
theorem CheckHolds.deleteEvidence {s : HoldSystem} (h : CheckHolds s) {w : Nat}
    {tenantId caseId : Uuid} (hbefore : s.beforeDeletion w = some (tenantId, caseId)) :
    CheckHolds { s with
      deletions :=
        Function.update s.deletions w (some (activeHolds s.platform.db tenantId caseId)) } where
  waiting := by
    intro w' tenantId' caseId' hbefore'
    obtain ⟨hnone, hrest⟩ := beforeDeletion_eq_some.mp hbefore'
    -- the resolution that just ran its deletion is past it
    have hne : w' ≠ w := by
      rintro rfl
      simp only [Function.update_self] at hnone
      cases hnone
    simp only [Function.update_of_ne hne] at hnone
    exact h.waiting w' tenantId' caseId' (beforeDeletion_eq_some.mpr ⟨hnone, hrest⟩)
  seen := by
    intro w' ids hids
    simp only [Function.update_apply] at hids
    split at hids
    · cases hids
      exact activeHolds_eq_nil (h.waiting w tenantId caseId hbefore)
    · exact h.seen w' ids hids

/-- **One step**, when a hold that is saved waits. -/
theorem CheckHolds.step {deps : Deps} {s : HoldSystem} (h : CheckHolds s) {a : HoldLabel}
    (hwait : HoldsWait s a) : CheckHolds (holdStep deps s a) := by
  cases a with
  | platform a =>
    unfold holdStep
    split
    · exact h
    · next w env heq =>
      split
      · exact h
      · exact h.platform nofun
    · next hplace hresolve heq =>
      cases heq
      exact h.platform hplace
    all_goals next heq => cases heq
  | findHold c params =>
    simp only [holdStep]
    split
    · exact h
    · split
      · exact h
      · exact ⟨h.waiting, h.seen⟩
  | saveHold c env =>
    simp only [holdStep]
    split
    · exact h
    next params hparams =>
    split
    · exact ⟨h.waiting, h.seen⟩
    next holds hinsert =>
    refine ⟨fun w tenantId caseId hbefore => ?_, h.seen⟩
    have hbefore' : s.beforeDeletion w = some (tenantId, caseId) := hbefore
    exact h.saveHold hparams hwait hinsert hbefore'
  | placeFails c => exact ⟨h.waiting, h.seen⟩
  | deleteEvidence w =>
    simp only [holdStep]
    split
    · exact h
    next tenantId caseId hbefore => exact h.deleteEvidence hbefore

/-! ## What a commit does to the evidence -/

/-- Evidence is only rewritten by a resolution that runs to its end, behind its deletion
statement. -/
theorem deletions_of_evidence {deps : Deps} {s : HoldSystem} {w : Nat} {env : Env}
    (hchanged : (holdStep deps s (.platform (.resolve w env))).platform.db.evidence
      ≠ s.platform.db.evidence) : ∃ seen, s.deletions w = some seen := by
  cases hseen : s.deletions w with
  | some seen => exact ⟨seen, rfl⟩
  | none =>
    refine absurd ?_ hchanged
    simp only [holdStep]
    split
    · rfl
    next hbefore =>
    show (s.platform.resolve deps w env).db.evidence = s.platform.db.evidence
    unfold System.resolve
    split
    · split <;> rfl
    · next tenantId task action actorId hw =>
      -- without its deletion statement it can only be a `RETAIN`
      have haction : action = .RETAIN := by
        by_contra haction
        rw [beforeDeletion_eq_some.mpr ⟨hseen, task, action, actorId, hw, haction, rfl⟩] at hbefore
        cases hbefore
      subst haction
      split
      · rfl
      next hfinish =>
      obtain ⟨row, -, hfinished⟩ := finished_of_resolveFinish hfinish
      cases hfinished
      rfl
    · rfl

theorem holdRespected_of_checkHolds {deps : Deps} {s : HoldSystem} (h : CheckHolds s)
    (a : HoldLabel) : HoldRespected deps s a := by
  rintro w env rfl hchanged
  obtain ⟨seen, hseen⟩ := deletions_of_evidence hchanged
  refine ⟨seen, hseen, fun hold hmem hin => ?_⟩
  rw [h.seen w seen hseen] at hin
  cases hin

/-- **Holds that wait are respected.** In every interleaving in which no hold is saved between the
hold check of a resolution of its case and that resolution's deletion statement, no commit erases
evidence under an active hold that its deletion statement could see. -/
theorem holds_respected (deps : Deps) (db : Db) (run : List HoldLabel)
    (hwait : AllSteps (holdStep deps) HoldsWait (.init db) run) :
    AllSteps (holdStep deps) (HoldRespected deps) (.init db) run :=
  allSteps_of_inv_of_allSteps (I := CheckHolds) (fun _ _ h hwait => h.step hwait)
    (fun _ a h _ => holdRespected_of_checkHolds h a) (checkHolds_init db) hwait

/-! ### A review of one evidence record -/

/-- One record of the borrower's income, and the review that its revoked consent opened. -/
def reviewedDb : Db :=
  { consentedDb with
    evidence := ⟨[{ id := 40, tenantId := 1, caseId := 3, value := .str "86000" }], by decide⟩
    tasks := ⟨[
      { id := 50
        tenantId := 1
        caseId := 3
        reason := "Consent 5 was revoked for case 3"
        triggeringConsentRecordId := some 5
        affectedEvidenceFactIds := [40]
        affectedProviderIntentIds := [] }], by decide⟩ }

def litigationHold : PlaceHoldParams where
  tenantId := 1
  caseId := 3
  reason := "litigation"
  ownerId := "operator-1"

/-- The review is to be resolved by deletion; its hold check has passed. -/
def untilHoldCheck : List HoldLabel :=
  [.platform (.startResolve 0 1 50 .DELETE "operator-2"), .platform (.resolve 0 (envAt 60))]

def deletion : List HoldLabel :=
  [.deleteEvidence 0, .platform (.resolve 0 (envAt 61))]

/-- A hold is placed and released before the review is resolved. -/
def holdBeforeReview : List HoldLabel :=
  [.findHold 0 litigationHold, .saveHold 0 (envAt 70),
    .platform (.releaseHold (envAt 71) 1 70 "operator-1")] ++ untilHoldCheck ++ deletion

theorem holds_respected_holdBeforeReview :
    AllSteps (holdStep incomeDeps) (HoldRespected incomeDeps) (.init reviewedDb)
        holdBeforeReview
      ∧ (exec (holdStep incomeDeps) (.init reviewedDb) holdBeforeReview).platform.db.evidence.rows
        = [] := by
  refine ⟨holds_respected incomeDeps reviewedDb holdBeforeReview ?_, rfl⟩
  refine ⟨nofun, fun c env params ha hparams w hbefore => ?_, nofun, nofun, nofun, nofun, nofun,
    trivial⟩
  -- no review is under way when the hold is saved
  obtain ⟨-, task, action, actorId, hw, -⟩ := beforeDeletion_eq_some.mp hbefore
  cases hw

/-- The hold is placed between the hold check and the deletion. -/
def holdAfterCheck : List HoldLabel :=
  untilHoldCheck ++ [.findHold 0 litigationHold, .saveHold 0 (envAt 70)] ++ deletion

/-- **A hold placed behind the check is not seen**: the evidence goes although the hold was
committed before the deletion statement and is still active. -/
theorem hold_placed_after_check :
    ¬ ∀ (deps : Deps) (db : Db) (run : List HoldLabel),
      AllSteps (holdStep deps) (HoldRespected deps) (.init db) run := by
  intro h
  obtain ⟨-, -, -, -, -, hcommit, -⟩ := h incomeDeps reviewedDb holdAfterCheck
  obtain ⟨seen, hseen, hreleased⟩ := hcommit 0 (envAt 61) rfl fun hsame => by
    have hlength := congrArg (fun t => t.rows.length) hsame
    revert hlength
    decide
  have hseen' : seen = [70] := by
    cases hseen
    rfl
  subst hseen'
  exact hreleased (litigationHold.newHold (envAt 70)) (List.mem_singleton.mpr rfl)
    (List.mem_singleton.mpr rfl) rfl

end MortgageAgent.Provider
