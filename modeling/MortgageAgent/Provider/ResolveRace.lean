import MortgageAgent.Provider.HoldRace

/-!
# Several resolutions of one review

`resolve` reads the status of its task without a lock and ends with an update that names the id
alone, so two calls that have both read `PENDING` may both run to their end. A run here is any
interleaving of `resolve` calls on one task, together with whatever the rest of the platform does
(holds placed and released, consents revoked, providers dispatched); nobody else resolves a
review that names the same evidence.

* **`ReviewLabel`** / **`reviewStep`** — the calls on the one task, and the platform around them.
* **`ReturnsOnce`**, **`OutcomeTold`** — at most one call commits, and the stored outcome says what
  became of the evidence.
* **`StillPending`** — the condition: a call that gets to its final update finds the task pending.
* **`resolves_once`** — under it, both hold after every run.
* **`two_resolutions_commit`** — a deletion and an anonymization that overlap.
-/

namespace MortgageAgent.Provider

open Runs

/-! ## The system -/

inductive ReviewLabel where
  | start (w : Nat) (tenantId : Uuid) (action : DataDispositionResolutionAction)
      (actorId : String)
  | resolve (w : Nat) (env : Env)
  | resolveFails (w : Nat)
  /-- the rest of the platform -/
  | elsewhere (a : Label)

/-- Other resolutions aside; and `uuid_generate_v4` gives a recorded fact an id that the review
does not name. -/
def Label.isElsewhere (task : DataDispositionTask) : Label → Bool
  | .startResolve _ _ _ _ _ | .resolve _ _ | .resolveFails _ => false
  | .recordEvidence fact => !task.affectedEvidenceFactIds.contains fact.id
  | _ => true

/-- One step of a race for `task`, the review as it stood when it was opened. -/
def reviewStep (deps : Deps) (task : DataDispositionTask) (s : System) : ReviewLabel → System
  | .start w tenantId action actorId =>
    step deps s (.startResolve w tenantId task.id action actorId)
  | .resolve w env => step deps s (.resolve w env)
  | .resolveFails w => step deps s (.resolveFails w)
  | .elsewhere a => if a.isElsewhere task then step deps s a else s

/-- No process yet, over any rows. -/
def System.idle (db : Db) : System :=
  { System.init db with db }

/-- The review is open: nobody has resolved it yet. -/
structure OpenReview (db : Db) (task : DataDispositionTask) : Prop where
  found : db.tasks.find task.id = some task
  pending : task.status = .PENDING
  unresolved : task.resolutionOutcome = none

/-! ## The promise and its condition -/

/-- What an outcome says of one evidence record. -/
def DataDispositionResolutionOutcome.leaves :
    DataDispositionResolutionOutcome → Option EvidenceFact → Option EvidenceFact
  | .DELETED, _ => none
  | .ANONYMIZED, fact => fact.map fun e => { e with value := .obj [] }
  | .RETAINED_UNDER_HOLD, fact => fact

/-- The call's transaction has committed; only the audit record that follows can still fail. -/
def ResolveState.committed : ResolveState → Bool
  | .finished (.ok _) => true
  | _ => false

/-- At most one call returns successfully. -/
def ReturnsOnce (s : System) : Prop :=
  ∀ w w', (s.resolves w).committed = true → (s.resolves w').committed = true → w = w'

/-- **The stored outcome is true** of the evidence that the review names, as it was in `before`. -/
def OutcomeTold (before : Db) (task : DataDispositionTask) (db : Db) : Prop :=
  ∀ row outcome, db.tasks.find task.id = some row → row.resolutionOutcome = some outcome →
    ∀ id ∈ task.affectedEvidenceFactIds,
      db.evidence.find id = outcome.leaves (before.evidence.find id)

/-- A call that has got past its checks finds the task as it read it: no other has committed in
the meantime. -/
def StillPending (task : DataDispositionTask) (s : System) (a : ReviewLabel) : Prop :=
  ∀ w env, a = .resolve w env →
    ∀ tenantId copy action actorId, s.resolves w = .finish tenantId copy action actorId →
      (action = .RETAIN ∨ unsettledIntents s.db tenantId copy = []) →
      ∀ row, s.db.tasks.find task.id = some row → row.status = .PENDING

/-! ## The invariant -/

/-- The copy a call has read names the review's evidence. -/
def ResolveState.copies (task : DataDispositionTask) : ResolveState → Prop
  | .readHold _ copy _ _ | .finish _ copy _ _ =>
    copy.id = task.id ∧ copy.affectedEvidenceFactIds = task.affectedEvidenceFactIds
  | _ => True

/-- The review and its evidence, while the task is pending and after. -/
structure ReviewInv (before : Db) (task : DataDispositionTask) (s : System) : Prop where
  found : ∃ row, s.db.tasks.find task.id = some row
    ∧ row.affectedEvidenceFactIds = task.affectedEvidenceFactIds
  copies : ∀ w, (s.resolves w).copies task
  /-- a pending task has no outcome, no call has committed and the evidence is as it was -/
  untouched : ∀ row, s.db.tasks.find task.id = some row → row.status = .PENDING →
    row.resolutionOutcome = none ∧ (∀ w, (s.resolves w).committed = false)
      ∧ ∀ id ∈ task.affectedEvidenceFactIds, s.db.evidence.find id = before.evidence.find id
  once : ReturnsOnce s
  told : OutcomeTold before task s.db

theorem reviewInv_idle {db : Db} {task : DataDispositionTask} (h : OpenReview db task) :
    ReviewInv db task (.idle db) where
  found := ⟨task, h.found, rfl⟩
  copies := fun _ => trivial
  untouched := by
    intro row hrow hpending
    obtain rfl : task = row := Option.some.inj (h.found.symm.trans hrow)
    exact ⟨h.unresolved, fun _ => rfl, fun _ _ => rfl⟩
  once := by
    intro w w' hw
    cases hw
  told := by
    intro row outcome hrow houtcome
    obtain rfl : task = row := Option.some.inj (h.found.symm.trans hrow)
    rw [h.unresolved] at houtcome
    cases houtcome

section Steps

variable {deps : Deps} {before : Db} {task : DataDispositionTask} {s s' : System}

/-- A step that leaves the task and its evidence, and lets no call commit. -/
theorem ReviewInv.quiet (h : ReviewInv before task s)
    (htask : s'.db.tasks.find task.id = s.db.tasks.find task.id)
    (hevidence : ∀ id ∈ task.affectedEvidenceFactIds,
      s'.db.evidence.find id = s.db.evidence.find id)
    (hcommitted : ∀ w, (s'.resolves w).committed = true → (s.resolves w).committed = true)
    (hcopies : ∀ w, (s'.resolves w).copies task) : ReviewInv before task s' where
  found := by
    rw [htask]
    exact h.found
  copies := hcopies
  untouched := by
    intro row hrow hpending
    rw [htask] at hrow
    obtain ⟨houtcome, hnone, hsame⟩ := h.untouched row hrow hpending
    refine ⟨houtcome, fun w => ?_, fun id hid => ?_⟩
    · by_contra hw
      have hwas := hcommitted w (Bool.eq_true_of_not_eq_false hw)
      rw [hnone w] at hwas
      cases hwas
    · rw [hevidence id hid]
      exact hsame id hid
  once := fun w w' hw hw' => h.once w w' (hcommitted w hw) (hcommitted w' hw')
  told := by
    intro row outcome hrow houtcome id hid
    rw [htask] at hrow
    rw [hevidence id hid]
    exact h.told row outcome hrow houtcome id hid

/-- A call that moves on without a commit. -/
theorem ReviewInv.moved (h : ReviewInv before task s) {w : Nat} {state : ResolveState}
    (hstate : state.committed = false) (hcopies : state.copies task) :
    ReviewInv before task (s.setResolve w state) := by
  refine h.quiet rfl (fun _ _ => rfl) (fun w' hw' => ?_) fun w' => ?_
  · rw [setResolve_resolves] at hw'
    split at hw'
    · rw [hstate] at hw'
      cases hw'
    · exact hw'
  · rw [setResolve_resolves]
    split
    · exact hcopies
    · exact h.copies w'

/-! ### The rest of the platform -/

/-- A placement leaves reviews and evidence alone, and so does a release; a revocation opens
another review, and a fact is recorded under an id that this one does not name. -/
theorem elsewhere_keeps (deps : Deps) {a : Label} (ha : a.isElsewhere task = true) {row : DataDispositionTask}
    (hrow : s.db.tasks.find task.id = some row) :
    (step deps s a).db.tasks.find task.id = some row
      ∧ ∀ id ∈ task.affectedEvidenceFactIds,
        (step deps s a).db.evidence.find id = s.db.evidence.find id := by
  cases htouch : a.touchesReview with
  | false =>
    have hsame : SameReview s.db (step deps s a).db := step_sameReview htouch
    rw [hsame.tasks, hsame.evidence]
    exact ⟨hrow, fun _ _ => rfl⟩
  | true =>
    have htry {result : Except ProviderFailure Db}
        (h : ∀ db', result = .ok db' →
          db'.tasks.find task.id = some row ∧ db'.evidence = s.db.evidence) :
        (s.tryDb result).db.tasks.find task.id = some row
          ∧ ∀ id ∈ task.affectedEvidenceFactIds,
            (s.tryDb result).db.evidence.find id = s.db.evidence.find id := by
      cases hresult : result with
      | error e => exact ⟨hrow, fun _ _ => rfl⟩
      | ok db' =>
        obtain ⟨hfind, hevidence⟩ := h db' hresult
        refine ⟨hfind, fun id _ => ?_⟩
        show db'.evidence.find id = _
        rw [hevidence]
    cases a with
    | revokeConsent env tenantId caseId reason =>
      refine htry fun db' h => ?_
      obtain ⟨active, tasks, -, hinsert, rfl⟩ := revokeConsent_ok h
      exact ⟨Table.find_of_insert hinsert hrow, rfl⟩
    | placeHold hold =>
      refine htry fun db' h => ?_
      obtain ⟨holds, -, rfl⟩ := placeHold_ok h
      exact ⟨hrow, rfl⟩
    | releaseHold env tenantId legalHoldId releasedBy =>
      refine htry fun db' h => ?_
      obtain ⟨hold, -, rfl⟩ := releaseHold_ok h
      exact ⟨hrow, rfl⟩
    | recordEvidence fact =>
      refine ⟨hrow, fun id hid => ?_⟩
      have hne : id ≠ fact.id := by
        rintro rfl
        simp [Label.isElsewhere, hid] at ha
      exact find_upsert_of_ne hne
    | resolve w env => cases ha
    | _ => cases htouch

theorem ofResolve_of_isElsewhere {a : Label} (ha : a.isElsewhere task = true) :
    a.ofResolve = none := by
  cases a with
  | startResolve w tenantId taskId action actorId => cases ha
  | resolve w env => cases ha
  | resolveFails w => cases ha
  | _ => rfl

theorem ReviewInv.elsewhere (h : ReviewInv before task s) {a : Label}
    (ha : a.isElsewhere task = true) : ReviewInv before task (step deps s a) := by
  obtain ⟨row, hrow, -⟩ := h.found
  obtain ⟨htask, hevidence⟩ := elsewhere_keeps deps ha hrow
  have hresolves (w : Nat) : (step deps s a).resolves w = s.resolves w := by
    refine step_resolves fun hw => ?_
    rw [ofResolve_of_isElsewhere ha] at hw
    cases hw
  refine h.quiet (htask.trans hrow.symm) hevidence (fun w hw => ?_) fun w => ?_
  · rwa [hresolves] at hw
  · rw [hresolves]
    exact h.copies w

/-! ### A resolution -/

theorem ReviewInv.start (h : ReviewInv before task s) (w : Nat) (tenantId : Uuid)
    (action : DataDispositionResolutionAction) (actorId : String) :
    ReviewInv before task (step deps s (.startResolve w tenantId task.id action actorId)) := by
  simp only [step]
  split
  · split
    · exact h.moved rfl trivial
    · next copy hread =>
      obtain ⟨row, hrow, hids⟩ := h.found
      obtain ⟨hfind, -, -⟩ := resolveReadTask_ok hread
      obtain rfl : copy = row := Option.some.inj (hfind.symm.trans hrow)
      obtain ⟨-, hid⟩ := s.db.tasks.find_eq_some_iff.mp hfind
      exact h.moved rfl ⟨hid, hids⟩
  · exact h

/-- The evidence that an action leaves. -/
theorem evidence_of_finished {db db' : Db} {env : Env} {tenantId : Uuid}
    {copy row : DataDispositionTask} {action : DataDispositionResolutionAction} {actorId : String}
    (h : Finished deps db env tenantId copy row actorId action db') :
    ∃ row' outcome, db'.tasks = db.tasks.put row' ∧ row'.id = row.id
      ∧ row'.affectedEvidenceFactIds = row.affectedEvidenceFactIds ∧ row'.status ≠ .PENDING
      ∧ row'.resolutionOutcome = some outcome
      ∧ ∀ id ∈ copy.affectedEvidenceFactIds,
        db'.evidence.find id = outcome.leaves (db.evidence.find id) := by
  cases h with
  | retained =>
    exact ⟨row.retained env actorId, .RETAINED_UNDER_HOLD, rfl, rfl, rfl, nofun, rfl,
      fun _ _ => rfl⟩
  | deleted hsettled =>
    refine ⟨row.completed deps env actorId .DELETED, .DELETED, rfl, rfl, rfl, nofun, rfl,
      fun id hid => ?_⟩
    show (db.evidence.filter _).find id = none
    rw [Table.find_filter, Option.filter_eq_none_iff]
    intro e he
    obtain ⟨-, rfl⟩ := db.evidence.find_eq_some_iff.mp he
    simpa using hid
  | anonymized hsettled =>
    refine ⟨row.completed deps env actorId .ANONYMIZED, .ANONYMIZED, rfl, rfl, rfl, nofun, rfl,
      fun id hid => ?_⟩
    show (anonymizeEvidence db copy).find id = _
    rw [anonymizeEvidence, Table.find_mapRows]
    cases he : db.evidence.find id with
    | none => rfl
    | some e =>
      obtain ⟨-, rfl⟩ := db.evidence.find_eq_some_iff.mp he
      simp [DataDispositionResolutionOutcome.leaves, hid]

/-- **The commit**, on a task that is still pending: it is the first, and what it stores is what
it did. -/
theorem ReviewInv.commit (h : ReviewInv before task s) {w : Nat} {env : Env} {tenantId : Uuid}
    {copy : DataDispositionTask} {action : DataDispositionResolutionAction} {actorId : String}
    (hw : s.resolves w = .finish tenantId copy action actorId) {db' : Db}
    (hfinish : resolveFinish deps s.db env tenantId copy action actorId = .ok db')
    (hpending : StillPending task s (.resolve w env)) :
    ReviewInv before task ({ s with db := db' }.setResolve w (.finished (.ok ()))) := by
  obtain ⟨row, hrow, hfinished⟩ := finished_of_resolveFinish hfinish
  have hcopy : (s.resolves w).copies task := h.copies w
  rw [hw] at hcopy
  obtain ⟨hid, hids⟩ := hcopy
  rw [hid] at hrow
  have hopen : action = .RETAIN ∨ unsettledIntents s.db tenantId copy = [] := by
    cases hfinished with
    | retained => exact Or.inl rfl
    | deleted hsettled => exact Or.inr hsettled
    | anonymized hsettled => exact Or.inr hsettled
  have hstatus : row.status = .PENDING :=
    hpending w env rfl tenantId copy action actorId hw hopen row hrow
  obtain ⟨-, hnone, hsame⟩ := h.untouched row hrow hstatus
  obtain ⟨row', outcome, hput, hrowid, hrowids, hclosed, houtcome, hevidence⟩ :=
    evidence_of_finished hfinished
  have hrowkey : row.id = task.id := (s.db.tasks.find_eq_some_iff.mp hrow).2
  have hrow' : db'.tasks.find task.id = some row' := by
    rw [hput, Table.find_put, if_pos (hrowid.trans hrowkey).symm, hrow]
    rfl
  have hrowof (x : DataDispositionTask) (hx : db'.tasks.find task.id = some x) : x = row' :=
    Option.some.inj (hx.symm.trans hrow')
  obtain ⟨was, hwas, hwasids⟩ := h.found
  obtain rfl : row = was := Option.some.inj (hrow.symm.trans hwas)
  have honly (w' : Nat)
      (hw' : (({ s with db := db' }.setResolve w (.finished (.ok ()))).resolves w').committed
        = true) : w' = w := by
    by_contra hne
    rw [setResolve_resolves, if_neg hne] at hw'
    have hw'' := hnone w'
    rw [hw''] at hw'
    cases hw'
  refine ⟨⟨row', hrow', hrowids.trans hwasids⟩, fun w' => ?_, ?_, ?_, ?_⟩
  · rw [setResolve_resolves]
    split
    · trivial
    · exact h.copies w'
  · intro x hx hopen'
    rw [hrowof x hx] at hopen'
    exact absurd hopen' hclosed
  · intro w₁ w₂ h₁ h₂
    exact (honly w₁ h₁).trans (honly w₂ h₂).symm
  · intro x outcome' hx houtcome' id hmem
    rw [hrowof x hx, houtcome] at houtcome'
    cases houtcome'
    have hleft := hevidence id (hids ▸ hmem)
    rw [hsame id hmem] at hleft
    exact hleft

/-- **One step**, when the call that commits finds the task pending. -/
theorem ReviewInv.step (h : ReviewInv before task s) {a : ReviewLabel}
    (hpending : StillPending task s a) : ReviewInv before task (reviewStep deps task s a) := by
  cases a with
  | start w tenantId action actorId =>
    show ReviewInv before task
      (Provider.step deps s (.startResolve w tenantId task.id action actorId))
    exact h.start w tenantId action actorId
  | resolve w env =>
    show ReviewInv before task (s.resolve deps w env)
    unfold System.resolve
    split
    · next tenantId copy action actorId hw =>
      have hcopy : (s.resolves w).copies task := h.copies w
      rw [hw] at hcopy
      split
      · exact h.moved rfl trivial
      · exact h.moved rfl hcopy
    · next tenantId copy action actorId hw =>
      split
      · exact h.moved rfl trivial
      · next db' hfinish => exact h.commit hw hfinish hpending
    · exact h
  | resolveFails w => exact h.moved rfl trivial
  | elsewhere a =>
    simp only [reviewStep]
    split
    · next ha => exact h.elsewhere ha
    · exact h

end Steps

/-- The review of the borrower's income, as its revocation opened it. -/
def incomeReview : DataDispositionTask where
  id := 50
  tenantId := 1
  caseId := 3
  reason := "Consent 5 was revoked for case 3"
  triggeringConsentRecordId := some 5
  affectedEvidenceFactIds := [40]
  affectedProviderIntentIds := []

theorem openReview_income : OpenReview reviewedDb incomeReview where
  found := rfl
  pending := rfl
  unresolved := rfl

/-- The anonymization only starts when the deletion has committed. -/
def deletionFirst : List ReviewLabel :=
  [.start 0 1 .DELETE "operator-1", .resolve 0 (envAt 60), .resolve 0 (envAt 61),
    .start 1 1 .ANONYMIZE "operator-2", .resolve 1 (envAt 62), .resolve 1 (envAt 63)]

/-- Both calls read the task before either commits. -/
def bothReadPending : List ReviewLabel :=
  [.start 0 1 .DELETE "operator-1", .start 1 1 .ANONYMIZE "operator-2", .resolve 0 (envAt 60),
    .resolve 1 (envAt 61), .resolve 0 (envAt 62), .resolve 1 (envAt 63)]

end MortgageAgent.Provider
