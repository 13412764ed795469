import MortgageAgent.Policy.ReleaseSafety

/-!
# Two people behind every release

A proposal and its approval are a row of `policy_transition_approvals`. `approve` compares the
two persons on a row it has read and writes by id later; `activate` looks at the newest row of the
version and writes the status later still. Proposals and approvals of other calls may come in
between, but no write changes who proposed a row, and none takes an approval back.

* **`DualControl`** — what the rows and the calls under way keep: no row is approved by its
  proposer, a call about to approve is not the row's proposer, and a call about to release has
  an independently approved row behind it.
* **`approvalEffect`**, **`releases_backed`** — what one step does to the rows, and what the rows
  it found say about a call about to write.
* **`released_by_two`** — the law over every run.
-/

namespace MortgageAgent.Policy

open Runs

/-! ## Rows -/

/-- Approved by someone else than the proposer. -/
def PolicyTransitionApproval.IndependentlyApproved (a : PolicyTransitionApproval) : Prop :=
  a.approvedAt.isSome ∧ ∃ approvedBy, a.approvedBy = some approvedBy ∧ approvedBy ≠ a.proposedBy

/-- The version has a row that is approved by someone else than its proposer. -/
def ReleaseDb.TwoPersons (db : ReleaseDb) (policyVersionId : Uuid) : Prop :=
  ∃ a ∈ db.approvals.rows, a.policyVersionId = policyVersionId ∧ a.IndependentlyApproved

/-- The row `a` later: as it was, or approved (again). -/
inductive ApprovalStep (a : PolicyTransitionApproval) : PolicyTransitionApproval → Prop where
  | same : ApprovalStep a a
  | approved (approvedBy : String) (approvedAt : Instant) :
      ApprovalStep a { a with approvedBy := some approvedBy, approvedAt := some approvedAt }

/-- What one step does to the approvals. -/
inductive ApprovalEffect (s s' : System) : Prop where
  | same (h : s'.release.approvals = s.release.approvals)
  | proposed (env : Env) (policyVersionId : Uuid) (proposedBy : String) (notes : Option String)
      (h : s.release.approvals.insert (newApproval env policyVersionId proposedBy notes)
        = some s'.release.approvals)
  | approved (r : Nat) (approvalId : Uuid) (approvedBy : String) (approvedAt : Instant)
      (hstate : s.releases r = .approveWrite approvalId approvedBy)
      (h : s'.release = s.release.approve approvalId approvedBy approvedAt)

theorem release_approvalEffect (deps : Deps) (s : System) (r : Nat) (env : Env) :
    ApprovalEffect s (step deps s (.release r env)) := by
  cases hr : s.releases r with
  | approveWrite approvalId approvedBy =>
    exact .approved r approvalId approvedBy env.processNow hr
      (by simp [step, hr, releaseStep, System.setRelease])
  | proposeSave policyVersionId proposedBy notes =>
    cases hinsert : s.release.approvals.insert (newApproval env policyVersionId proposedBy notes) with
    | none => exact .same (by simp [step, hr, releaseStep, hinsert, System.setRelease])
    | some approvals =>
      refine .proposed env policyVersionId proposedBy notes ?_
      rw [hinsert]
      simp [step, hr, releaseStep, hinsert, System.setRelease]
  | proposeWrite policyVersionId proposedBy notes =>
    exact .same (by simp [step, hr, releaseStep, System.setRelease, ReleaseDb.setStatus])
  | approveRead approvalId =>
    refine .same ?_
    simp only [step, hr, releaseStep, System.setRelease]
    split <;> rfl
  | activateCheck policyVersionId =>
    refine .same ?_
    simp only [step, hr, releaseStep, System.setRelease]
    split <;> rfl
  | activateWrite policyVersionId =>
    exact .same (by simp [step, hr, releaseStep, System.setRelease, ReleaseDb.setStatusAndBump,
      bumpCatalogGeneration, ReleaseDb.setStatus])
  | withdrawWrite policyVersionId =>
    exact .same (by simp [step, hr, releaseStep, System.setRelease, ReleaseDb.setStatusAndBump,
      bumpCatalogGeneration, ReleaseDb.setStatus])
  | idle => exact .same (by simp [step, hr, releaseStep, System.setRelease])
  | finished result => exact .same (by simp [step, hr, releaseStep, System.setRelease])

/-- **Approvals change only by the save of `propose` and the update of `approve`.** -/
theorem approvalEffect (deps : Deps) (s : System) (a : Label) :
    ApprovalEffect s (step deps s a) := by
  cases a with
  | release r env => exact release_approvalEffect deps s r env
  | startPropose r id proposedBy notes =>
    exact .same (congrArg ReleaseDb.approvals (startRelease_release s r _))
  | startApprove r id approvedBy =>
    exact .same (congrArg ReleaseDb.approvals (startRelease_release s r _))
  | startActivate r id => exact .same (congrArg ReleaseDb.approvals (startRelease_release s r _))
  | startWithdraw r id => exact .same (congrArg ReleaseDb.approvals (startRelease_release s r _))
  | releaseFails r => exact .same rfl
  | startEvaluate c call =>
    refine .same ?_
    simp only [step]
    split <;> rfl
  | evaluate c env => exact .same rfl
  | evaluateFails c => exact .same rfl

/-- A row stays, under its id, for its version and with its proposer. -/
theorem ApprovalEffect.kept {s s' : System} (h : ApprovalEffect s s')
    {a : PolicyTransitionApproval} (ha : a ∈ s.release.approvals.rows) :
    ∃ a' ∈ s'.release.approvals.rows, ApprovalStep a a' := by
  cases h with
  | same h => exact ⟨a, h ▸ ha, .same⟩
  | proposed env policyVersionId proposedBy notes h =>
    have hrows := Table.rows_of_insert h
    exact ⟨a, by rw [hrows]; exact List.mem_append_left _ ha, .same⟩
  | approved r approvalId approvedBy approvedAt hstate h =>
    rw [h]
    refine ⟨_, List.mem_map_of_mem ha, ?_⟩
    split
    · exact .approved approvedBy approvedAt
    · exact .same

/-! ## Calls -/

/-- What a call about to write has read, as it still stands. -/
def ReleaseDb.Backs (db : ReleaseDb) : ReleaseState → Prop
  | .approveWrite approvalId approvedBy =>
    ∃ a ∈ db.approvals.rows, a.id = approvalId ∧ a.proposedBy ≠ approvedBy
  | .activateWrite policyVersionId =>
    ∃ a ∈ db.approvals.rows, a.policyVersionId = policyVersionId ∧ a.approvedAt.isSome
      ∧ a.approvedBy.isSome
  | _ => True

theorem startPropose_backed (db : ReleaseDb) (policyVersionId : Uuid) (proposedBy : String)
    (notes : Option String) : db.Backs (startPropose db policyVersionId proposedBy notes) := by
  unfold startPropose
  split
  · trivial
  · split <;> trivial

theorem startActivate_backed (db : ReleaseDb) (policyVersionId : Uuid) :
    db.Backs (startActivate db policyVersionId) := by
  unfold startActivate
  split
  · trivial
  · split <;> trivial

theorem startWithdraw_backed (db : ReleaseDb) (policyVersionId : Uuid) :
    db.Backs (startWithdraw db policyVersionId) := by
  unfold startWithdraw
  split
  · trivial
  · split <;> trivial

theorem mem_newestApprovals {db : ReleaseDb} {policyVersionId : Uuid}
    {a : PolicyTransitionApproval} (h : a ∈ newestApprovals db policyVersionId) :
    a ∈ db.approvals.rows ∧ a.policyVersionId = policyVersionId := by
  have hfilter := (List.mem_insertionSort _).mp h
  simpa using List.mem_filter.mp hfilter

/-- `approve` goes on only with a row that someone else proposed. -/
theorem startApprove_backed (db : ReleaseDb) (policyVersionId : Uuid) (approvedBy : String) :
    db.Backs (startApprove db policyVersionId approvedBy) := by
  unfold startApprove
  split
  · trivial
  · next pending hpending =>
    have hmem := mem_newestApprovals (List.mem_of_find?_eq_some hpending)
    split
    · trivial
    · next hother => exact ⟨pending, hmem.1, rfl, hother⟩

/-- `activate` goes on only with an approved row: the newest. -/
theorem hasApprovedTransition_backed {db : ReleaseDb} {policyVersionId : Uuid}
    (h : hasApprovedTransition db policyVersionId = true) :
    db.Backs (.activateWrite policyVersionId) := by
  unfold hasApprovedTransition at h
  cases hnewest : (newestApprovals db policyVersionId).head? with
  | none =>
    rw [hnewest] at h
    cases h
  | some a =>
    rw [hnewest] at h
    have happroved : a.approvedAt.isSome = true ∧ a.approvedBy.isSome = true := by simpa using h
    have hmem := mem_newestApprovals (List.mem_of_head? hnewest)
    exact ⟨a, hmem.1, hmem.2, happroved⟩

theorem releaseStep_backed (db : ReleaseDb) (env : Env) (state : ReleaseState)
    (h : db.Backs state) : db.Backs (releaseStep db env state).2 := by
  unfold releaseStep
  split
  · trivial
  · split <;> trivial
  · trivial
  · split <;> trivial
  · split
    · next happroved => exact hasApprovedTransition_backed happroved
    · trivial
  · trivial
  · trivial
  · exact h

theorem setRelease_backed {s : System} (r : Nat) (state : ReleaseState)
    (h : ∀ r', s.release.Backs (s.releases r')) (hstate : s.release.Backs state) (r' : Nat) :
    s.release.Backs ((s.setRelease r state).releases r') := by
  show s.release.Backs (Function.update s.releases r state r')
  by_cases hr : r' = r
  · rw [hr, Function.update_self]
    exact hstate
  · rw [Function.update_of_ne hr]
    exact h r'

theorem startRelease_backed {s : System} (r : Nat) {state : ReleaseState}
    (h : ∀ r', s.release.Backs (s.releases r')) (hstate : s.release.Backs state) (r' : Nat) :
    s.release.Backs ((s.startRelease r state).releases r') := by
  unfold System.startRelease
  split
  · exact setRelease_backed r _ h hstate r'
  · exact h r'

/-- **Every call is backed by the rows the step found.** -/
theorem releases_backed (deps : Deps) (s : System) (a : Label)
    (h : ∀ r, s.release.Backs (s.releases r)) (r : Nat) :
    s.release.Backs ((step deps s a).releases r) := by
  cases a with
  | startPropose r' id proposedBy notes =>
    exact startRelease_backed r' h (startPropose_backed s.release id proposedBy notes) r
  | startApprove r' id approvedBy =>
    exact startRelease_backed r' h (startApprove_backed s.release id approvedBy) r
  | startActivate r' id => exact startRelease_backed r' h (startActivate_backed s.release id) r
  | startWithdraw r' id => exact startRelease_backed r' h (startWithdraw_backed s.release id) r
  | release r' env =>
    exact setRelease_backed r' _ h (releaseStep_backed s.release env _ (h r')) r
  | releaseFails r' =>
    exact setRelease_backed r' (.finished (.error .storeUnavailable)) h trivial r
  | startEvaluate c call =>
    have hsame : (step deps s (.startEvaluate c call)).releases = s.releases := by
      simp only [step]
      split <;> rfl
    rw [hsame]
    exact h r
  | evaluate c env => exact h r
  | evaluateFails c => exact h r

/-- What backs a call is not taken back. -/
theorem ReleaseDb.Backs.later {s s' : System} (heffect : ApprovalEffect s s')
    {state : ReleaseState} (h : s.release.Backs state) : s'.release.Backs state := by
  cases state with
  | approveWrite approvalId approvedBy =>
    obtain ⟨a, ha, hid, hby⟩ := h
    obtain ⟨a', ha', hstep⟩ := heffect.kept ha
    refine ⟨a', ha', ?_⟩
    cases hstep <;> exact ⟨hid, hby⟩
  | activateWrite policyVersionId =>
    obtain ⟨a, ha, hversion, hat, hby⟩ := h
    obtain ⟨a', ha', hstep⟩ := heffect.kept ha
    refine ⟨a', ha', ?_⟩
    cases hstep with
    | same => exact ⟨hversion, hat, hby⟩
    | approved approvedBy approvedAt => exact ⟨hversion, by simp, by simp⟩
  | idle => trivial
  | proposeWrite policyVersionId proposedBy notes => trivial
  | proposeSave policyVersionId proposedBy notes => trivial
  | approveRead approvalId => trivial
  | activateCheck policyVersionId => trivial
  | withdrawWrite policyVersionId => trivial
  | finished result => trivial

/-! ## The law -/

/-- No row is approved by its proposer, and every call about to write is backed. -/
structure DualControl (s : System) : Prop where
  rows : ∀ a ∈ s.release.approvals.rows, a.approvedBy ≠ some a.proposedBy
  calls : ∀ r, s.release.Backs (s.releases r)

/-- No step lets a proposer approve. -/
theorem DualControl.rows_step {s s' : System} (h : DualControl s) (heffect : ApprovalEffect s s') :
    ∀ a ∈ s'.release.approvals.rows, a.approvedBy ≠ some a.proposedBy := by
  intro a ha
  cases heffect with
  | same hsame => exact h.rows a (hsame ▸ ha)
  | proposed env policyVersionId proposedBy notes hinsert =>
    rw [Table.rows_of_insert hinsert] at ha
    rcases List.mem_append.mp ha with hold | hnew
    · exact h.rows a hold
    · rw [List.mem_singleton.mp hnew]
      nofun
  | approved r approvalId approvedBy approvedAt hstate happrove =>
    rw [happrove] at ha
    obtain ⟨old, hold, rfl⟩ := List.mem_map.mp ha
    split
    · next hid =>
      -- the row of that id is the one `approve` compared the two persons on.
      have hbacked := h.calls r
      rw [hstate] at hbacked
      obtain ⟨read, hread, hreadId, hother⟩ := hbacked
      have hsame : old = read :=
        s.release.approvals.eq_of_key_eq hold hread (hid.trans hreadId.symm)
      subst hsame
      intro hself
      exact hother (Option.some.inj hself).symm
    · exact h.rows old hold

theorem dualControl_step (deps : Deps) (s : System) (a : Label) (h : DualControl s) :
    DualControl (step deps s a) where
  rows := h.rows_step (approvalEffect deps s a)
  calls r := (releases_backed deps s a h.calls r).later (approvalEffect deps s a)

theorem dualControl_init (release : ReleaseDb)
    (hrows : ∀ a ∈ release.approvals.rows, a.approvedBy ≠ some a.proposedBy) :
    DualControl (System.init release) where
  rows := hrows
  calls _ := trivial

theorem DualControl.twoPersons {s : System} (h : DualControl s) {r : Nat} {policyVersionId : Uuid}
    (hstate : s.releases r = .activateWrite policyVersionId) :
    s.release.TwoPersons policyVersionId := by
  have hbacked := h.calls r
  rw [hstate] at hbacked
  obtain ⟨a, ha, hversion, hat, hby⟩ := hbacked
  obtain ⟨approvedBy, happroved⟩ := Option.isSome_iff_exists.mp hby
  refine ⟨a, ha, hversion, hat, approvedBy, happroved, ?_⟩
  rintro rfl
  exact h.rows a ha happroved

/-- The step finds two persons behind every version it releases: behind the version that an
`activate` writes, and behind every version that is released after the step and was not before. -/
def ReleasedByTwo (deps : Deps) (s : System) (a : Label) : Prop :=
  (∀ r env policyVersionId, a = .release r env → s.releases r = .activateWrite policyVersionId →
      s.release.TwoPersons policyVersionId)
    ∧ ∀ policyVersionId ∈ (step deps s a).released, policyVersionId ∉ s.released →
      s.release.TwoPersons policyVersionId

/-- Only an `activate` releases a version. -/
theorem activating_of_released {deps : Deps} {s : System} {a : Label} {policyVersionId : Uuid}
    (hafter : policyVersionId ∈ (step deps s a).released) (hbefore : policyVersionId ∉ s.released) :
    ∃ r, s.releases r = .activateWrite policyVersionId := by
  have heffect := statusEffect deps s a
  generalize step deps s a = s' at heffect hafter
  cases heffect with
  | same h => exact absurd (released_eq_of_catalog h ▸ hafter) hbefore
  | proposed r env id proposedBy notes hstate h =>
    have hstatus := statusOf_of_setStatus (congrArg ReleaseDb.catalog h) policyVersionId
    rw [System.released, Set.mem_ofPred_eq, hstatus] at hafter
    split at hafter
    · simp at hafter
    · exact absurd hafter hbefore
  | activated r env id hstate h =>
    have hstatus := statusOf_of_setStatus (congrArg ReleaseDb.catalog h) policyVersionId
    rw [System.released, Set.mem_ofPred_eq, hstatus] at hafter
    split at hafter
    · next hid => exact ⟨r, hid ▸ hstate⟩
    · exact absurd hafter hbefore
  | withdrawn r env id hstate h =>
    have hstatus := statusOf_of_setStatus (congrArg ReleaseDb.catalog h) policyVersionId
    rw [System.released, Set.mem_ofPred_eq, hstatus] at hafter
    split at hafter
    · simp at hafter
    · exact absurd hafter hbefore

theorem DualControl.releasedByTwo {deps : Deps} {s : System} (h : DualControl s) (a : Label) :
    ReleasedByTwo deps s a := by
  constructor
  · intro r env policyVersionId _ hstate
    exact h.twoPersons hstate
  · intro policyVersionId hafter hbefore
    obtain ⟨r, hstate⟩ := activating_of_released hafter hbefore
    exact h.twoPersons hstate

/-- **Dual control.** Over any catalog, from a database in which nobody approved their own
proposal, in every interleaving of calls by any persons: whatever is released has been proposed by
one person and approved by another, in a row committed before. -/
theorem released_by_two (deps : Deps) (release : ReleaseDb)
    (hrows : ∀ a ∈ release.approvals.rows, a.approvedBy ≠ some a.proposedBy) (run : List Label) :
    AllSteps (step deps) (ReleasedByTwo deps) (System.init release) run :=
  allSteps_of_inv (dualControl_step deps) (fun _ a h => h.releasedByTwo a)
    (dualControl_init release hrows) run

/-- From no approvals at all to the release of version 7. -/
theorem released_by_two_activated :
    (∀ a ∈ draftDb.approvals.rows, a.approvedBy ≠ some a.proposedBy)
      ∧ AllSteps (step sampleDeps) (ReleasedByTwo sampleDeps) (System.init draftDb) activatedRun
      ∧ (exec (step sampleDeps) (System.init draftDb) activatedRun).statusOf 7 = some .RELEASED :=
  ⟨by decide, released_by_two sampleDeps draftDb (by decide) activatedRun, by decide⟩

end MortgageAgent.Policy
