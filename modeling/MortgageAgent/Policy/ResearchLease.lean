import MortgageAgent.Policy.Research

/-!
# The research lease

A worker that outlives its lease does not notice: its statements name the run by id alone, and
the run may have been claimed again. The claim counts `attempts`, and a worker holds the count it
was given, so whether a claim is still the latest can be told from the row; no statement asks.

* **`System.OnLatestClaim`** — the run of the worker has not been claimed again since.
* **`Fenced`** — the step is not the delete, the save or the completion of a worker that has lost
  its claim.
* **`LeaseInv`** — at most one worker is on the latest claim of a run, and the citations are as
  that worker left them; the citations of a completed run are one result of `retrieve`.
* **`research_citations`** — over every run whose steps are all fenced.

`stale_delete_empties` has a worker come back after the run is completed, and delete its citations.
-/

namespace MortgageAgent.Policy.Research

open Runs

/-! ## What is asked of a completed run -/

def System.citationsFor (s : System) (runId : Uuid) : List PolicyResearchCitation :=
  s.db.citations.rows.filter fun c => c.policyResearchRunId = runId

/-- The citations of the run are the excerpts of one result of `retrieve` for it, in its order:
each once, with the ranks from 1 on. -/
def System.CitesOneResult (deps : Deps) (s : System) (runId : Uuid) : Prop :=
  ∃ excerpts, (runId, excerpts) ∈ s.retrieved
    ∧ (s.citationsFor runId).Perm (citationsOf deps runId excerpts)

def CompletedCited (deps : Deps) (s : System) : Prop :=
  ∀ run ∈ s.db.runs.rows, run.status = .COMPLETED → s.CitesOneResult deps run.id

/-- The worker's claim is the latest of its run. -/
def System.OnLatestClaim (s : System) (w : Nat) : Bool :=
  (s.workers w).run?.all fun run =>
    (s.db.runs.find run.id).any fun row => row.attempts = run.attempts

/-- The step writes no citation, and completes no run, for a worker that has lost its claim. -/
def Fenced (s : System) : Label → Bool
  | .work w _ | .unreported w _ _ =>
    match s.workers w with
    | .deleting _ | .saving _ _ | .completing _ _ _ => s.OnLatestClaim w
    | _ => true
  | _ => true

/-! ## The worker on the latest claim -/

/-- The worker's claim on the run `runId` is the latest. -/
def System.Owns (s : System) (w : Nat) (runId : Uuid) : Prop :=
  ∃ run, (s.workers w).run? = some run ∧ run.id = runId
    ∧ ∃ row ∈ s.db.runs.rows, row.id = runId ∧ row.attempts = run.attempts

def System.NotCompleted (s : System) (runId : Uuid) : Prop :=
  ∀ row ∈ s.db.runs.rows, row.id = runId → row.status ≠ .COMPLETED

/-- What the worker on the latest claim knows of its run, at each of its statements. -/
def OwnerHas (deps : Deps) (s : System) : WorkerState → Prop
  | .idle | .failing _ _ => True
  | .deleting run => s.NotCompleted run.id
  | .retrieving run => s.NotCompleted run.id ∧ s.citationsFor run.id = []
  | .saving run excerpts =>
    s.NotCompleted run.id ∧ s.citationsFor run.id = [] ∧ (run.id, excerpts) ∈ s.retrieved
  | .synthesizing run excerpts | .completing run excerpts _ =>
    s.NotCompleted run.id ∧ s.citationsFor run.id = citationsOf deps run.id excerpts
      ∧ (run.id, excerpts) ∈ s.retrieved

structure LeaseInv (deps : Deps) (s : System) : Prop where
  /-- the count of a claim is never ahead of the row -/
  known : ∀ w run, (s.workers w).run? = some run →
    ∃ row ∈ s.db.runs.rows, row.id = run.id ∧ run.attempts ≤ row.attempts
  /-- no two workers hold the same claim -/
  alone : ∀ w w' run run', (s.workers w).run? = some run → (s.workers w').run? = some run' →
    run.id = run'.id → run.attempts = run'.attempts → w = w'
  owner : ∀ w run, (s.workers w).run? = some run → s.Owns w run.id → OwnerHas deps s (s.workers w)
  cited : ∀ run ∈ s.db.runs.rows, run.status = .COMPLETED →
    ∃ excerpts, (run.id, excerpts) ∈ s.retrieved
      ∧ s.citationsFor run.id = citationsOf deps run.id excerpts

/-- At most one worker is on the latest claim. -/
theorem LeaseInv.owns_unique {deps : Deps} {s : System} (h : LeaseInv deps s) {w w' : Nat}
    {runId : Uuid} (hw : s.Owns w runId) (hw' : s.Owns w' runId) : w = w' := by
  obtain ⟨run, hrun, hid, row, hrow, hrowId, hattempts⟩ := hw
  obtain ⟨run', hrun', hid', row', hrow', hrowId', hattempts'⟩ := hw'
  have hsame : row = row' := s.db.runs.eq_of_key_eq hrow hrow' (hrowId.trans hrowId'.symm)
  subst hsame
  exact h.alone w w' run run' hrun hrun' (hid.trans hid'.symm)
    (hattempts.symm.trans hattempts')

theorem owns_of_onLatestClaim {s : System} {w : Nat} {run : PolicyResearchRun}
    (hrun : (s.workers w).run? = some run) (h : s.OnLatestClaim w = true) : s.Owns w run.id := by
  rw [System.OnLatestClaim, hrun] at h
  have hany : (s.db.runs.find run.id).any (fun row => row.attempts = run.attempts) = true := h
  cases hfind : s.db.runs.find run.id with
  | none =>
    rw [hfind] at hany
    cases hany
  | some row =>
    rw [hfind] at hany
    obtain ⟨hmem, hid⟩ := s.db.runs.find_eq_some_iff.mp hfind
    exact ⟨run, hrun, rfl, row, hmem, hid, by simpa using hany⟩

/-- What the owner knows stays true while the citations and the status stay. -/
theorem OwnerHas.later {deps : Deps} {s s' : System} {state : WorkerState} {run : PolicyResearchRun}
    (hrun : state.run? = some run) (hcitations : s'.citationsFor run.id = s.citationsFor run.id)
    (hstatus : s.NotCompleted run.id → s'.NotCompleted run.id)
    (hretrieved : s.retrieved ⊆ s'.retrieved) (h : OwnerHas deps s state) :
    OwnerHas deps s' state := by
  cases state with
  | idle => trivial
  | failing run' error => trivial
  | deleting run' =>
    cases hrun
    exact hstatus h
  | retrieving run' =>
    cases hrun
    exact ⟨hstatus h.1, hcitations.trans h.2⟩
  | saving run' excerpts =>
    cases hrun
    exact ⟨hstatus h.1, hcitations.trans h.2.1, hretrieved h.2.2⟩
  | synthesizing run' excerpts =>
    cases hrun
    exact ⟨hstatus h.1, hcitations.trans h.2.1, hretrieved h.2.2⟩
  | completing run' excerpts synthesis =>
    cases hrun
    exact ⟨hstatus h.1, hcitations.trans h.2.1, hretrieved h.2.2⟩

/-! ## One statement of a worker -/

/-- What a statement of worker `w` leaves alone: every other worker, and the ids and claim counts
of the rows. -/
structure Moved (s s' : System) (w : Nat) : Prop where
  others : ∀ w', w' ≠ w → s'.workers w' = s.workers w'
  run : ∀ run, (s'.workers w).run? = some run → (s.workers w).run? = some run
  rows : ∃ f : PolicyResearchRun → PolicyResearchRun, s'.db.runs.rows = s.db.runs.rows.map f
    ∧ ∀ row, (f row).id = row.id ∧ (f row).attempts = row.attempts
  retrieved : s.retrieved ⊆ s'.retrieved

theorem Moved.row_origin {s s' : System} {w : Nat} (h : Moved s s' w) {row : PolicyResearchRun}
    (hrow : row ∈ s'.db.runs.rows) :
    ∃ old ∈ s.db.runs.rows, old.id = row.id ∧ old.attempts = row.attempts := by
  obtain ⟨f, hrows, hf⟩ := h.rows
  rw [hrows] at hrow
  obtain ⟨old, hold, rfl⟩ := List.mem_map.mp hrow
  exact ⟨old, hold, (hf old).1.symm, (hf old).2.symm⟩

theorem Moved.row_kept {s s' : System} {w : Nat} (h : Moved s s' w) {row : PolicyResearchRun}
    (hrow : row ∈ s.db.runs.rows) :
    ∃ new ∈ s'.db.runs.rows, new.id = row.id ∧ new.attempts = row.attempts := by
  obtain ⟨f, hrows, hf⟩ := h.rows
  refine ⟨f row, ?_, hf row⟩
  rw [hrows]
  exact List.mem_map_of_mem hrow

/-- No statement of a worker starts a claim. -/
theorem Moved.run_origin {s s' : System} {w : Nat} (h : Moved s s' w) {w' : Nat}
    {run : PolicyResearchRun} (hrun : (s'.workers w').run? = some run) :
    (s.workers w').run? = some run := by
  by_cases hw : w' = w
  · subst hw
    exact h.run run hrun
  · rw [h.others w' hw] at hrun
    exact hrun

theorem Moved.owns_origin {s s' : System} {w : Nat} (h : Moved s s' w) {w' : Nat} {runId : Uuid}
    (howns : s'.Owns w' runId) : s.Owns w' runId := by
  obtain ⟨run, hrun, hid, row, hrow, hrowId, hattempts⟩ := howns
  obtain ⟨old, hold, holdId, holdAttempts⟩ := h.row_origin hrow
  exact ⟨run, h.run_origin hrun, hid, old, hold, holdId.trans hrowId,
    holdAttempts.trans hattempts⟩

/-- **One statement keeps the invariant** when it touches the citations and the completion of no
run but the one its worker is on the latest claim of, and leaves what the owner knows true. -/
theorem LeaseInv.move {deps : Deps} {s s' : System} {w : Nat} (h : LeaseInv deps s)
    (hmoved : Moved s s' w)
    (hcitations : ∀ runId, ¬ s.Owns w runId → s'.citationsFor runId = s.citationsFor runId)
    (hstatus : ∀ runId, ¬ s.Owns w runId → s.NotCompleted runId → s'.NotCompleted runId)
    (hself : ∀ run, (s'.workers w).run? = some run → s.Owns w run.id →
      OwnerHas deps s' (s'.workers w))
    (hcited : ∀ row ∈ s'.db.runs.rows, row.status = .COMPLETED → s.Owns w row.id →
      ∃ excerpts, (row.id, excerpts) ∈ s'.retrieved
        ∧ s'.citationsFor row.id = citationsOf deps row.id excerpts) :
    LeaseInv deps s' where
  known w' run hrun := by
    obtain ⟨row, hrow, hid, hle⟩ := h.known w' run (hmoved.run_origin hrun)
    obtain ⟨new, hnew, hnewId, hnewAttempts⟩ := hmoved.row_kept hrow
    exact ⟨new, hnew, hnewId.trans hid, hnewAttempts ▸ hle⟩
  alone w' w'' run run' hrun hrun' :=
    h.alone w' w'' run run' (hmoved.run_origin hrun) (hmoved.run_origin hrun')
  owner w' run hrun howns := by
    have hbefore := hmoved.owns_origin howns
    by_cases hw : w' = w
    · subst hw
      exact hself run hrun hbefore
    · -- another worker owns the run, so this one does not, and leaves it alone.
      have hother : ¬ s.Owns w run.id := fun hown => hw (h.owns_unique hbefore hown)
      have hrunBefore := hmoved.run_origin hrun
      have hhas := h.owner w' run hrunBefore hbefore
      rw [hmoved.others w' hw]
      exact hhas.later hrunBefore (hcitations run.id hother) (hstatus run.id hother)
        hmoved.retrieved
  cited row hrow hcompleted := by
    by_cases hown : s.Owns w row.id
    · exact hcited row hrow hcompleted hown
    · have hbefore : ¬ s.NotCompleted row.id := fun hnot =>
        hstatus row.id hown hnot row hrow rfl hcompleted
      unfold System.NotCompleted at hbefore
      push Not at hbefore
      obtain ⟨old, hold, hid, hstatusOld⟩ := hbefore
      obtain ⟨excerpts, hmem, hcites⟩ := h.cited old hold hstatusOld
      rw [hid] at hmem hcites
      exact ⟨excerpts, hmoved.retrieved hmem, (hcitations row.id hown).trans hcites⟩

/-- What the next statement of a worker writes. -/
inductive WriteEffect (deps : Deps) (db : ResearchDb) : WorkerState → ResearchDb → Prop where
  | same (state : WorkerState) : WriteEffect deps db state db
  | deleted (run : PolicyResearchRun) :
      WriteEffect deps db (.deleting run) (db.deleteCitations run.id)
  | saved (run : PolicyResearchRun) (excerpts : List SourceExcerpt) (db' : ResearchDb)
      (h : db.saveCitations (citationsOf deps run.id excerpts) = some db') :
      WriteEffect deps db (.saving run excerpts) db'
  | completed (run : PolicyResearchRun) (excerpts : List SourceExcerpt)
      (synthesis : ResearchSynthesis) (now : Instant) :
      WriteEffect deps db (.completing run excerpts synthesis)
        (db.updateProcessing run.id (completed synthesis now) (fun _ => rfl))
  | failed (run : PolicyResearchRun) (error : String) (now : Instant) :
      WriteEffect deps db (.failing run error)
        (db.updateProcessing run.id (failed error now) (fun _ => rfl))

theorem workStep_effect (deps : Deps) (db : ResearchDb) (env : WorkEnv) (state : WorkerState) :
    WriteEffect deps db state (workStep deps db env state).1 := by
  cases state with
  | idle => exact .same _
  | deleting run => exact .deleted run
  | retrieving run =>
    simp only [workStep]
    split <;> exact .same _
  | saving run excerpts =>
    simp only [workStep]
    split
    · exact .same _
    · next db' h => exact .saved run excerpts db' h
  | synthesizing run excerpts =>
    simp only [workStep]
    split <;> exact .same _
  | completing run excerpts synthesis => exact .completed run excerpts synthesis env.now
  | failing run error => exact .failed run error env.now

/-- A save that goes through appends its rows. -/
theorem saveCitations_rows {db db' : ResearchDb} {rows : List PolicyResearchCitation}
    (h : db.saveCitations rows = some db') :
    db'.runs = db.runs ∧ db'.citations.rows = db.citations.rows ++ rows := by
  obtain ⟨citations, hfold, rfl⟩ := Option.map_eq_some_iff.mp h
  exact ⟨rfl, Table.rows_of_foldlM_insert hfold⟩

theorem runId_of_mem_citationsOf {deps : Deps} {runId : Uuid} {excerpts : List SourceExcerpt}
    {c : PolicyResearchCitation} (h : c ∈ citationsOf deps runId excerpts) :
    c.policyResearchRunId = runId := by
  obtain ⟨i, hi, rfl⟩ := List.mem_mapIdx.mp h
  rfl

/-- The rows of a statement, each from the row with its id and claim count. -/
theorem WriteEffect.rows {deps : Deps} {db db' : ResearchDb} {state : WorkerState}
    (h : WriteEffect deps db state db') :
    ∃ f : PolicyResearchRun → PolicyResearchRun, db'.runs.rows = db.runs.rows.map f
      ∧ ∀ row, (f row).id = row.id ∧ (f row).attempts = row.attempts := by
  cases h with
  | same => exact ⟨id, (List.map_id _).symm, fun _ => ⟨rfl, rfl⟩⟩
  | deleted run => exact ⟨id, (List.map_id _).symm, fun _ => ⟨rfl, rfl⟩⟩
  | saved run excerpts db' h =>
    rw [(saveCitations_rows h).1]
    exact ⟨id, (List.map_id _).symm, fun _ => ⟨rfl, rfl⟩⟩
  | completed run excerpts synthesis now =>
    refine ⟨_, rfl, fun row => ?_⟩
    split <;> exact ⟨rfl, rfl⟩
  | failed run error now =>
    refine ⟨_, rfl, fun row => ?_⟩
    split <;> exact ⟨rfl, rfl⟩

/-- Only the delete and the save touch citations, those of their own run. -/
theorem WriteEffect.citations {deps : Deps} {db db' : ResearchDb} {state : WorkerState}
    (h : WriteEffect deps db state db') {runId : Uuid}
    (hother : ∀ run, state.run? = some run → run.id ≠ runId) :
    db'.citations.rows.filter (fun c => c.policyResearchRunId = runId)
      = db.citations.rows.filter (fun c => c.policyResearchRunId = runId) := by
  cases h with
  | same => rfl
  | deleted run =>
    show (db.citations.rows.filter _).filter _ = _
    rw [List.filter_filter]
    refine List.filter_congr fun c _ => ?_
    by_cases hc : c.policyResearchRunId = runId
    · simp [hc, (hother run rfl).symm]
    · simp [hc]
  | saved run excerpts db' h =>
    rw [(saveCitations_rows h).2, List.filter_append]
    have hnone : (citationsOf deps run.id excerpts).filter
        (fun c => c.policyResearchRunId = runId) = [] := by
      refine List.filter_eq_nil_iff.mpr fun c hc => ?_
      rw [runId_of_mem_citationsOf hc]
      simpa using hother run rfl
    rw [hnone, List.append_nil]
  | completed run excerpts synthesis now => rfl
  | failed run error now => rfl

/-- Only the completion completes a run, its own. -/
theorem WriteEffect.status {deps : Deps} {db db' : ResearchDb} {state : WorkerState}
    (h : WriteEffect deps db state db') {row : PolicyResearchRun} (hrow : row ∈ db'.runs.rows)
    (hcompleted : row.status = .COMPLETED) :
    row ∈ db.runs.rows
      ∨ ∃ run excerpts synthesis, state = .completing run excerpts synthesis ∧ run.id = row.id := by
  cases h with
  | same => exact Or.inl hrow
  | deleted run => exact Or.inl hrow
  | saved run excerpts db' h => exact Or.inl ((saveCitations_rows h).1 ▸ hrow)
  | completed run excerpts synthesis now =>
    obtain ⟨old, hold, rfl⟩ := List.mem_map.mp hrow
    split
    · next hmatch => exact Or.inr ⟨run, excerpts, synthesis, rfl, hmatch.1.symm⟩
    · exact Or.inl hold
  | failed run error now =>
    obtain ⟨old, hold, rfl⟩ := List.mem_map.mp hrow
    split at hcompleted
    · cases hcompleted
    · next hmatch =>
      rw [if_neg hmatch]
      exact Or.inl hold

theorem setWorker_self (s : System) (w : Nat) (state : WorkerState) :
    (s.setWorker w state).workers w = state := by
  simp [System.setWorker]

theorem setWorker_of_ne (s : System) {w w' : Nat} (state : WorkerState) (hw : w' ≠ w) :
    (s.setWorker w state).workers w' = s.workers w' := by
  simp [System.setWorker, Function.update_of_ne hw]

theorem ownerHas_setWorker (deps : Deps) (s : System) (w : Nat) (state state' : WorkerState) :
    OwnerHas deps (s.setWorker w state') state ↔ OwnerHas deps s state := by
  cases state <;> exact Iff.rfl

theorem retrieved_subset (s : System) (w : Nat) (env : WorkEnv) :
    s.retrieved ⊆ s.retrievedAfter w env := by
  unfold System.retrievedAfter
  split
  · exact List.subset_append_left _ _
  · exact List.Subset.refl _

/-- A delete, a save or a completion is the owner's. -/
def FencedWorker (s : System) (w : Nat) : Prop :=
  match s.workers w with
  | .deleting run | .saving run _ | .completing run _ _ => s.Owns w run.id
  | _ => True

theorem fencedWorker_of_fenced {s : System} {w : Nat}
    (h : (match s.workers w with
      | .deleting _ | .saving _ _ | .completing _ _ _ => s.OnLatestClaim w
      | _ => true) = true) : FencedWorker s w := by
  unfold FencedWorker
  cases hstate : s.workers w with
  | idle => trivial
  | retrieving run => trivial
  | synthesizing run excerpts => trivial
  | failing run error => trivial
  | deleting run =>
    rw [hstate] at h
    exact owns_of_onLatestClaim (by rw [hstate]; rfl) h
  | saving run excerpts =>
    rw [hstate] at h
    exact owns_of_onLatestClaim (by rw [hstate]; rfl) h
  | completing run excerpts synthesis =>
    rw [hstate] at h
    exact owns_of_onLatestClaim (by rw [hstate]; rfl) h

/-- Where the worker does not own a run, its statement does not touch the run's citations. -/
theorem citationsFor_write {deps : Deps} {s : System} {w : Nat} {env : WorkEnv}
    (hfenced : FencedWorker s w) {runId : Uuid} (hother : ¬ s.Owns w runId) :
    (s.write deps w env).citationsFor runId = s.citationsFor runId := by
  have heffect := workStep_effect deps s.db env (s.workers w)
  show (workStep deps s.db env (s.workers w)).1.citations.rows.filter _ = _
  generalize (workStep deps s.db env (s.workers w)).1 = db' at heffect
  unfold FencedWorker at hfenced
  generalize s.workers w = state at heffect hfenced
  cases heffect with
  | same => rfl
  | deleted run =>
    have hdeleted : WriteEffect deps s.db (.deleting run) (s.db.deleteCitations run.id) :=
      .deleted run
    refine hdeleted.citations fun run' hrun hid => ?_
    cases hrun
    exact hother (hid ▸ hfenced)
  | saved run excerpts db' h =>
    refine (WriteEffect.saved run excerpts db' h).citations fun run' hrun hid => ?_
    cases hrun
    exact hother (hid ▸ hfenced)
  | completed run excerpts synthesis now => rfl
  | failed run error now => rfl

/-- Where the worker does not own a run, its statement does not complete it. -/
theorem notCompleted_write {deps : Deps} {s : System} {w : Nat} {env : WorkEnv}
    (hfenced : FencedWorker s w) {runId : Uuid} (hother : ¬ s.Owns w runId)
    (h : s.NotCompleted runId) : (s.write deps w env).NotCompleted runId := by
  intro row hrow hid hcompleted
  rcases (workStep_effect deps s.db env (s.workers w)).status hrow hcompleted with
    hold | ⟨run, excerpts, synthesis, hstate, hrun⟩
  · exact h row hold hid hcompleted
  · rw [FencedWorker, hstate] at hfenced
    exact hother (hid ▸ hrun ▸ hfenced)

/-- The citations of a run that its owner's statement leaves, or makes, completed. -/
theorem LeaseInv.cited_write {deps : Deps} {s : System} {w : Nat} {env : WorkEnv}
    (h : LeaseInv deps s) (hfenced : FencedWorker s w) {row : PolicyResearchRun}
    (hrow : row ∈ (s.write deps w env).db.runs.rows) (hcompleted : row.status = .COMPLETED) :
    ∃ excerpts, (row.id, excerpts) ∈ (s.write deps w env).retrieved
      ∧ (s.write deps w env).citationsFor row.id = citationsOf deps row.id excerpts := by
  have heffect := workStep_effect deps s.db env (s.workers w)
  have hsubset := retrieved_subset s w env
  rcases heffect.status hrow hcompleted with hold | ⟨run, excerpts, synthesis, hstate, hrun⟩
  · -- completed before: then it is not the run of a delete or of a save, whose owner would know.
    obtain ⟨excerpts, hmem, hcites⟩ := h.cited row hold hcompleted
    refine ⟨excerpts, hsubset hmem, ?_⟩
    by_cases hown : s.Owns w row.id
    · obtain ⟨run, hrun, hid, -⟩ := id hown
      have hhas := h.owner w run hrun (hid ▸ hown)
      show (workStep deps s.db env (s.workers w)).1.citations.rows.filter _ = _
      rw [← hcites]
      generalize (workStep deps s.db env (s.workers w)).1 = db' at heffect
      generalize s.workers w = state at heffect hrun hhas
      cases heffect with
      | same => rfl
      | deleted run' =>
        cases hrun
        exact absurd hcompleted (hhas row hold hid.symm)
      | saved run' excerpts db' hsave =>
        cases hrun
        exact absurd hcompleted (hhas.1 row hold hid.symm)
      | completed run' excerpts synthesis now => rfl
      | failed run' error now => rfl
    · rw [citationsFor_write hfenced hown]
      exact hcites
  · -- completed by this statement, whose worker knows the citations.
    have hrun? : (s.workers w).run? = some run := by
      rw [hstate]
      rfl
    rw [FencedWorker, hstate] at hfenced
    have hhas := h.owner w run hrun? hfenced
    rw [hstate] at hhas
    rw [← hrun]
    refine ⟨excerpts, hsubset hhas.2.2, ?_⟩
    show (workStep deps s.db env (s.workers w)).1.citations.rows.filter _ = _
    rw [hstate]
    exact hhas.2.1

/-- **A statement that is written keeps the invariant**, when the worker goes on in a state whose
knowledge is true. -/
theorem LeaseInv.write {deps : Deps} {s : System} {w : Nat} {env : WorkEnv} {state : WorkerState}
    (h : LeaseInv deps s) (hfenced : FencedWorker s w)
    (hrun : ∀ run, state.run? = some run → (s.workers w).run? = some run)
    (hself : ∀ run, state.run? = some run → s.Owns w run.id →
      OwnerHas deps (s.write deps w env) state) :
    LeaseInv deps ((s.write deps w env).setWorker w state) := by
  have hstate : ((s.write deps w env).setWorker w state).workers w = state :=
    setWorker_self _ w state
  refine h.move (w := w) ?_ ?_ ?_ ?_ ?_
  · exact
      { others := fun w' hw => setWorker_of_ne (s.write deps w env) state hw
        run := fun run hr => hrun run (hstate ▸ hr)
        rows := (workStep_effect deps s.db env (s.workers w)).rows
        retrieved := retrieved_subset s w env }
  · exact fun runId hother => citationsFor_write hfenced hother
  · exact fun runId hother hnot => notCompleted_write hfenced hother hnot
  · intro run hr hown
    rw [hstate] at hr ⊢
    exact (ownerHas_setWorker deps _ w state state).mpr (hself run hr hown)
  · exact fun row hrow hcompleted _ => h.cited_write hfenced hrow hcompleted

/-- A worker that writes nothing moves to a state whose knowledge is true. -/
theorem LeaseInv.setWorker {deps : Deps} {s : System} {w : Nat} {state : WorkerState}
    (h : LeaseInv deps s) (hrun : ∀ run, state.run? = some run → (s.workers w).run? = some run)
    (hself : ∀ run, state.run? = some run → s.Owns w run.id → OwnerHas deps s state) :
    LeaseInv deps (s.setWorker w state) := by
  have hstate : (s.setWorker w state).workers w = state := setWorker_self s w state
  refine h.move (w := w) ?_ (fun _ _ => rfl) (fun _ _ hnot => hnot) ?_
    (fun row hrow hcompleted _ => h.cited row hrow hcompleted)
  · exact
      { others := fun w' hw => setWorker_of_ne s state hw
        run := fun run hr => hrun run (hstate ▸ hr)
        rows := ⟨id, (List.map_id _).symm, fun _ => ⟨rfl, rfl⟩⟩
        retrieved := List.Subset.refl _ }
  · intro run hr hown
    rw [hstate] at hr ⊢
    exact (ownerHas_setWorker deps s w state state).mpr (hself run hr hown)

theorem thrown_run {state : WorkerState} {error : String} {run : PolicyResearchRun}
    (h : (state.thrown error).run? = some run) : state.run? = some run := by
  cases state <;> first | exact h | cases h

/-- A worker that has caught an error knows nothing. -/
theorem thrown_ownerHas (deps : Deps) (s : System) (state : WorkerState) (error : String) :
    OwnerHas deps s (state.thrown error) := by
  cases state <;> trivial

theorem workStep_run {deps : Deps} {db : ResearchDb} {env : WorkEnv} {state : WorkerState}
    {run : PolicyResearchRun} (h : (workStep deps db env state).2.run? = some run) :
    state.run? = some run := by
  cases state with
  | idle => exact h
  | deleting run' => exact h
  | retrieving run' =>
    simp only [workStep] at h
    split at h <;> exact h
  | saving run' excerpts =>
    simp only [workStep] at h
    split at h <;> exact h
  | synthesizing run' excerpts =>
    simp only [workStep] at h
    split at h <;> exact h
  | completing run' excerpts synthesis => cases h
  | failing run' error => cases h

/-- The two statements that write nothing. -/
theorem workStep_reads (deps : Deps) (db : ResearchDb) (env : WorkEnv) (run : PolicyResearchRun)
    (excerpts : List SourceExcerpt) :
    (workStep deps db env (.retrieving run)).1 = db
      ∧ (workStep deps db env (.synthesizing run excerpts)).1 = db := by
  constructor
  · simp only [workStep]
    split <;> rfl
  · simp only [workStep]
    split <;> rfl

/-- What the owner knows stays true where the statement wrote nothing. -/
theorem OwnerHas.read {deps : Deps} {s : System} {w : Nat} {env : WorkEnv} {state : WorkerState}
    (heq : (workStep deps s.db env (s.workers w)).1 = s.db) (h : OwnerHas deps s state) :
    OwnerHas deps (s.write deps w env) state := by
  cases hrun : state.run? with
  | none =>
    cases state with
    | idle => trivial
    | _ => cases hrun
  | some run =>
    refine h.later hrun ?_ ?_ (retrieved_subset s w env)
    · show (workStep deps s.db env (s.workers w)).1.citations.rows.filter _ = _
      rw [heq]
      rfl
    · intro hnot row hrow
      exact hnot row (heq ▸ hrow)

/-- After its delete the owner's run has no citations. -/
theorem ownerHas_deleted {deps : Deps} {s : System} {w : Nat} {env : WorkEnv}
    {run : PolicyResearchRun} (hstate : s.workers w = .deleting run)
    (h : OwnerHas deps s (.deleting run)) :
    OwnerHas deps (s.write deps w env) (.retrieving run) := by
  constructor
  · intro row hrow
    rw [System.write, hstate] at hrow
    exact h row hrow
  · show (workStep deps s.db env (s.workers w)).1.citations.rows.filter _ = _
    rw [hstate]
    show (s.db.citations.rows.filter _).filter _ = []
    rw [List.filter_filter]
    refine List.filter_eq_nil_iff.mpr fun c _ => ?_
    simp

/-- After its save the owner's run has the citations of what was retrieved, and no others. -/
theorem ownerHas_saved {deps : Deps} {s : System} {w : Nat} {env : WorkEnv}
    {run : PolicyResearchRun} {excerpts : List SourceExcerpt} {db' : ResearchDb}
    (hstate : s.workers w = .saving run excerpts)
    (hsave : s.db.saveCitations (citationsOf deps run.id excerpts) = some db')
    (h : OwnerHas deps s (.saving run excerpts)) :
    OwnerHas deps (s.write deps w env) (.synthesizing run excerpts) := by
  have heq : (workStep deps s.db env (s.workers w)).1 = db' := by
    rw [hstate]
    simp only [workStep, hsave]
  obtain ⟨hruns, hrows⟩ := saveCitations_rows hsave
  refine ⟨?_, ?_, retrieved_subset s w env h.2.2⟩
  · intro row hrow
    have hrow' : row ∈ db'.runs.rows := heq ▸ hrow
    exact h.1 row (hruns ▸ hrow')
  · show (workStep deps s.db env (s.workers w)).1.citations.rows.filter _ = _
    have hbefore : s.db.citations.rows.filter (fun c => c.policyResearchRunId = run.id) = [] :=
      h.2.1
    rw [heq, hrows, List.filter_append, hbefore, List.nil_append]
    refine List.filter_eq_self.mpr fun c hc => ?_
    simpa using runId_of_mem_citationsOf hc

/-- **The owner learns what it wrote.** -/
theorem LeaseInv.ownerHas_write {deps : Deps} {s : System} {w : Nat} (env : WorkEnv)
    (h : LeaseInv deps s) {run : PolicyResearchRun} (hrun : (s.workers w).run? = some run)
    (hown : s.Owns w run.id) :
    OwnerHas deps (s.write deps w env) (workStep deps s.db env (s.workers w)).2 := by
  have hhas := h.owner w run hrun hown
  cases hstate : s.workers w with
  | idle => trivial
  | deleting run' =>
    rw [hstate] at hhas
    exact ownerHas_deleted hstate hhas
  | retrieving run' =>
    rw [hstate] at hhas
    have hread : OwnerHas deps (s.write deps w env) (.retrieving run') :=
      hhas.read (by rw [hstate]; exact (workStep_reads deps s.db env run' []).1)
    have hmem : (run'.id, env.excerpts) ∈ (s.write deps w env).retrieved := by
      show _ ∈ s.retrievedAfter w env
      simp [System.retrievedAfter, hstate]
    simp only [workStep]
    split
    · exact ⟨hread.1, hread.2, hmem⟩
    · next hlength =>
      -- nothing to cite: the run stands without citations.
      have hnil : env.excerpts = [] := List.length_eq_zero_iff.mp (by omega)
      refine ⟨hread.1, ?_, hmem⟩
      rw [hread.2, hnil]
      rfl
  | saving run' excerpts =>
    rw [hstate] at hhas
    cases hsave : s.db.saveCitations (citationsOf deps run'.id excerpts) with
    | none =>
      simp only [workStep, hsave]
      trivial
    | some db' =>
      simp only [workStep, hsave]
      exact ownerHas_saved hstate hsave hhas
  | synthesizing run' excerpts =>
    rw [hstate] at hhas
    have hread : OwnerHas deps (s.write deps w env) (.synthesizing run' excerpts) :=
      hhas.read (by rw [hstate]; exact (workStep_reads deps s.db env run' excerpts).2)
    simp only [workStep]
    split
    · trivial
    · exact hread
  | completing run' excerpts synthesis => trivial
  | failing run' error => trivial

/-! ## A new run, and a claim -/

/-- A new row is nobody's yet. -/
theorem LeaseInv.request {deps : Deps} {s : System} (h : LeaseInv deps s)
    {runs : Table PolicyResearchRun PolicyResearchRun.id} {id : Uuid}
    {trigger : PolicyResearchTrigger} {requestedAt : Instant}
    (hinsert : s.db.runs.insert (queuedRun id trigger requestedAt) = some runs) :
    LeaseInv deps { s with db := { s.db with runs } } := by
  have hrows : runs.rows = s.db.runs.rows ++ [queuedRun id trigger requestedAt] :=
    Table.rows_of_insert hinsert
  have hfresh := Table.key_fresh_of_insert hinsert
  -- a completed row is an old one.
  have hcompleted : ∀ row ∈ runs.rows, row.status = .COMPLETED → row ∈ s.db.runs.rows := by
    intro row hrow hstatus
    rw [hrows] at hrow
    rcases List.mem_append.mp hrow with hold | hnew
    · exact hold
    · rw [List.mem_singleton.mp hnew] at hstatus
      cases hstatus
  refine ⟨?_, h.alone, ?_, ?_⟩
  · intro w run hrun
    obtain ⟨row, hrow, hid, hle⟩ := h.known w run hrun
    exact ⟨row, by rw [hrows]; exact List.mem_append_left _ hrow, hid, hle⟩
  · intro w run hrun howns
    obtain ⟨run', hrun', hid', row, hrow, hrowId, hattempts⟩ := howns
    obtain ⟨known, hknown, hknownId, -⟩ := h.known w run hrun
    have hold : row ∈ s.db.runs.rows := by
      have hrow' : row ∈ runs.rows := hrow
      rw [hrows] at hrow'
      rcases List.mem_append.mp hrow' with hold | hnew
      · exact hold
      · rw [List.mem_singleton.mp hnew] at hrowId
        exact absurd (hknownId.trans hrowId.symm) (hfresh known hknown)
    have hhas := h.owner w run hrun ⟨run', hrun', hid', row, hold, hrowId, hattempts⟩
    refine OwnerHas.later (s := s) hrun rfl ?_ (List.Subset.refl _) hhas
    intro hnot row' hrow' hid hstatus
    exact hnot row' (hcompleted row' hrow' hstatus) hid hstatus
  · intro row hrow hstatus
    exact h.cited row (hcompleted row hrow hstatus) hstatus

theorem candidate_some {deps : Deps} {db : ResearchDb} {now : Instant} {locked : List Uuid}
    {run : PolicyResearchRun} (h : candidate deps db now locked = some run) :
    run ∈ db.runs.rows ∧ run.status ≠ .COMPLETED := by
  have hmem := (List.mem_insertionSort _).mp (List.mem_of_head? h)
  obtain ⟨hrow, hclaimable⟩ := List.mem_filter.mp hmem
  refine ⟨hrow, ?_⟩
  intro hcompleted
  simp [claimable, hcompleted] at hclaimable

theorem claimNextRun_some {deps : Deps} {db db' : ResearchDb} {now : Instant}
    {locked : List Uuid} {run : PolicyResearchRun}
    (h : claimNextRun deps db now locked = (db', some run)) :
    ∃ row ∈ db.runs.rows, row.status ≠ .COMPLETED ∧ run = claimed now row
      ∧ db' = { db with runs := db.runs.put (claimed now row) } := by
  unfold claimNextRun at h
  split at h
  · cases h
  · next row hrow =>
    obtain ⟨hmem, hstatus⟩ := candidate_some hrow
    cases h
    exact ⟨row, hmem, hstatus, rfl, rfl⟩

section Claim

/-- The claim of `row` by the worker `w`. -/
def System.claimRow (s : System) (w : Nat) (now : Instant) (row : PolicyResearchRun) : System :=
  { s with db := { s.db with
    runs := s.db.runs.put (claimed now row) } }.setWorker w (.deleting (claimed now row))

variable {deps : Deps} {s : System} {w w' : Nat} {now : Instant} {row run : PolicyResearchRun}

theorem claimRow_self : (s.claimRow w now row).workers w = .deleting (claimed now row) :=
  setWorker_self _ w _

theorem claimRow_others (hw : w' ≠ w) : (s.claimRow w now row).workers w' = s.workers w' :=
  setWorker_of_ne _ _ hw

theorem mem_claimRow (hrow : row ∈ s.db.runs.rows) {x : PolicyResearchRun} :
    x ∈ (s.claimRow w now row).db.runs.rows
      ↔ x = claimed now row ∨ (x ∈ s.db.runs.rows ∧ x.id ≠ row.id) :=
  s.db.runs.mem_put (r := claimed now row) ⟨row, hrow, rfl⟩

/-- Everyone's count is behind the one a claim gives out. -/
theorem LeaseInv.behind (h : LeaseInv deps s) (hrow : row ∈ s.db.runs.rows)
    (hrun : (s.workers w').run? = some run) (hid : run.id = row.id) :
    run.attempts ≤ row.attempts := by
  obtain ⟨known, hknown, hknownId, hle⟩ := h.known w' run hrun
  have hsame : known = row := s.db.runs.eq_of_key_eq hknown hrow (hknownId.trans hid)
  exact hsame ▸ hle

theorem LeaseInv.known_claim (h : LeaseInv deps s) (hrow : row ∈ s.db.runs.rows)
    (hrun : ((s.claimRow w now row).workers w').run? = some run) :
    ∃ x ∈ (s.claimRow w now row).db.runs.rows, x.id = run.id ∧ run.attempts ≤ x.attempts := by
  by_cases hw : w' = w
  · subst hw
    rw [claimRow_self] at hrun
    cases hrun
    exact ⟨claimed now row, (mem_claimRow hrow).mpr (Or.inl rfl), rfl, Nat.le_refl _⟩
  · rw [claimRow_others hw] at hrun
    by_cases hid : run.id = row.id
    · refine ⟨claimed now row, (mem_claimRow hrow).mpr (Or.inl rfl), hid.symm, ?_⟩
      exact Nat.le_succ_of_le (h.behind hrow hrun hid)
    · obtain ⟨known, hknown, hknownId, hle⟩ := h.known w' run hrun
      exact ⟨known, (mem_claimRow hrow).mpr (Or.inr ⟨hknown, hknownId ▸ hid⟩), hknownId, hle⟩

/-- Nobody else holds the count of the claim. -/
theorem LeaseInv.attempts_ne_claim (h : LeaseInv deps s) (hrow : row ∈ s.db.runs.rows)
    (hrun : (s.workers w').run? = some run) (hid : run.id = row.id) :
    run.attempts ≠ (claimed now row).attempts := by
  have hle : run.attempts ≤ row.attempts := h.behind hrow hrun hid
  have hnew : (claimed now row).attempts = row.attempts + 1 := rfl
  omega

theorem LeaseInv.alone_claim (h : LeaseInv deps s) (hrow : row ∈ s.db.runs.rows) {w₁ w₂ : Nat}
    {run₁ run₂ : PolicyResearchRun}
    (hrun₁ : ((s.claimRow w now row).workers w₁).run? = some run₁)
    (hrun₂ : ((s.claimRow w now row).workers w₂).run? = some run₂)
    (hid : run₁.id = run₂.id) (hattempts : run₁.attempts = run₂.attempts) : w₁ = w₂ := by
  by_cases hw₁ : w₁ = w
  · by_cases hw₂ : w₂ = w
    · exact hw₁.trans hw₂.symm
    · rw [hw₁, claimRow_self] at hrun₁
      rw [claimRow_others hw₂] at hrun₂
      cases hrun₁
      exact absurd hattempts.symm (h.attempts_ne_claim hrow hrun₂ hid.symm)
  · rw [claimRow_others hw₁] at hrun₁
    by_cases hw₂ : w₂ = w
    · rw [hw₂, claimRow_self] at hrun₂
      cases hrun₂
      exact absurd hattempts (h.attempts_ne_claim hrow hrun₁ hid)
    · rw [claimRow_others hw₂] at hrun₂
      exact h.alone w₁ w₂ run₁ run₂ hrun₁ hrun₂ hid hattempts

theorem notCompleted_claim (hrow : row ∈ s.db.runs.rows) {runId : Uuid}
    (hnot : s.NotCompleted runId) : (s.claimRow w now row).NotCompleted runId := by
  intro x hx hid
  rcases (mem_claimRow hrow).mp hx with rfl | ⟨hold, -⟩
  · nofun
  · exact hnot x hold hid

theorem LeaseInv.owner_claim (h : LeaseInv deps s) (hrow : row ∈ s.db.runs.rows)
    (hrun : ((s.claimRow w now row).workers w').run? = some run)
    (howns : (s.claimRow w now row).Owns w' run.id) :
    OwnerHas deps (s.claimRow w now row) ((s.claimRow w now row).workers w') := by
  by_cases hw : w' = w
  · subst hw
    rw [claimRow_self]
    intro x hx hid
    rcases (mem_claimRow hrow).mp hx with rfl | ⟨-, hne⟩
    · nofun
    · exact absurd hid hne
  · -- still an owner, so of another run: its row is as it was.
    rw [claimRow_others hw] at hrun ⊢
    obtain ⟨run', hrun', hid', x, hx, hxId, hattempts⟩ := howns
    rw [claimRow_others hw, hrun] at hrun'
    cases hrun'
    rcases (mem_claimRow hrow).mp hx with rfl | ⟨hold, -⟩
    · exact absurd hattempts.symm (h.attempts_ne_claim hrow hrun hxId.symm)
    · have hhas := h.owner w' run hrun ⟨run, hrun, rfl, x, hold, hxId, hattempts⟩
      exact OwnerHas.later (s := s) hrun rfl (notCompleted_claim hrow) (List.Subset.refl _) hhas

/-- **A claim makes its worker the only owner.** -/
theorem LeaseInv.claim (h : LeaseInv deps s) (hrow : row ∈ s.db.runs.rows) :
    LeaseInv deps (s.claimRow w now row) where
  known _ _ := h.known_claim hrow
  alone _ _ _ _ := h.alone_claim hrow
  owner _ _ := h.owner_claim hrow
  cited x hx hstatus := by
    rcases (mem_claimRow hrow).mp hx with rfl | ⟨hold, -⟩
    · cases hstatus
    · exact h.cited x hold hstatus

end Claim

/-! ## Every run -/

theorem leaseInv_step (deps : Deps) (s : System) (a : Label) (h : LeaseInv deps s)
    (hfenced : Fenced s a = true) : LeaseInv deps (step deps s a) := by
  cases a with
  | request id trigger requestedAt =>
    simp only [step]
    split
    · exact h
    · next runs hinsert => exact h.request hinsert
  | claim w now locked =>
    simp only [step]
    split
    · next hclaim =>
      obtain ⟨row, hrow, -, rfl, rfl⟩ := claimNextRun_some hclaim
      exact h.claim hrow
    · exact h
  | work w env =>
    exact h.write (fencedWorker_of_fenced hfenced) (fun _ hrun => workStep_run hrun)
      fun run hrun hown => h.ownerHas_write env (workStep_run hrun) hown
  | fails w error =>
    exact h.setWorker (fun _ hrun => thrown_run hrun) fun _ _ _ => thrown_ownerHas deps s _ error
  | unreported w env error =>
    exact h.write (fencedWorker_of_fenced hfenced) (fun _ hrun => thrown_run hrun)
      fun _ _ _ => thrown_ownerHas deps _ _ error
  | crash w =>
    have hrun : ∀ run, WorkerState.idle.run? = some run → (s.workers w).run? = some run := by
      intro run hrun
      cases hrun
    exact h.setWorker hrun fun _ _ _ => trivial

theorem leaseInv_init (deps : Deps) : LeaseInv deps System.init where
  known _ _ hrun := by cases hrun
  alone _ _ _ _ hrun := by cases hrun
  owner _ _ hrun := by cases hrun
  cited _ hrow := by cases hrow

/-- **A completed run cites one result.** In every run in which no worker deletes citations, saves
citations or completes the run after its claim has been taken over, the citations of every
completed run are the excerpts of one result of `retrieve`. -/
theorem research_citations (deps : Deps) (run : List Label)
    (h : AllSteps (step deps) (fun s a => Fenced s a = true) System.init run) :
    CompletedCited deps (exec (step deps) System.init run) := by
  have hinv := exec_inv_of_allSteps (leaseInv_step deps) (leaseInv_init deps) h
  intro row hrow hcompleted
  obtain ⟨excerpts, hmem, hcites⟩ := hinv.cited row hrow hcompleted
  exact ⟨excerpts, hmem, .of_eq hcites⟩

/-! ### A worker that comes back -/

def sampleDeps : Deps where
  digest := fun _ => ""
  toFixed6 := fun _ => "1.000000"
  leaseMs := 600000

def sampleExcerpt : SourceExcerpt where
  policySourceRevisionId := 3
  sourceChecksum := "c0ffee"
  location := "$.rule.title#1"
  excerpt := "Income variance must be reviewed."
  relevanceScore := 1

def sampleEnv : WorkEnv where
  now := 1786795200000
  excerpts := [sampleExcerpt]
  ollama := none

/-- Run 1 is requested, and worker 0 claims it and stalls. -/
def stalledRun : List Label :=
  [.request 1 .COVERAGE_GAP 1786790000000, .claim 0 1786790001000 []]

/-- Eleven minutes later worker 1 takes the run over, and completes it. -/
def takenOverRun : List Label :=
  stalledRun ++ .claim 1 1786790661000 [] :: List.replicate 5 (.work 1 sampleEnv)

theorem research_citations_takenOver :
    AllSteps (step sampleDeps) (fun s a => Fenced s a = true) System.init takenOverRun
      ∧ CompletedCited sampleDeps (exec (step sampleDeps) System.init takenOverRun) :=
  ⟨by decide, research_citations sampleDeps takenOverRun (by decide)⟩

/-- **A worker that outlived its lease deletes the citations** of the run that another one has
completed since. -/
theorem stale_delete_empties :
    ¬ ∀ (deps : Deps) (run : List Label),
      CompletedCited deps (exec (step deps) System.init run) := by
  intro h
  have hcited := h sampleDeps (takenOverRun ++ [.work 0 sampleEnv])
  have hrow : ∃ row ∈ (exec (step sampleDeps) System.init
      (takenOverRun ++ [.work 0 sampleEnv])).db.runs.rows,
      row.status = .COMPLETED ∧ row.id = 1 := by decide
  obtain ⟨row, hmem, hcompleted, hid⟩ := hrow
  obtain ⟨excerpts, hretrieved, hperm⟩ := hcited row hmem hcompleted
  rw [hid] at hretrieved hperm
  -- the one result has one excerpt, and nothing is stored.
  have hresult : (exec (step sampleDeps) System.init
      (takenOverRun ++ [.work 0 sampleEnv])).retrieved = [(1, [sampleExcerpt])] := by decide
  have hstored : (exec (step sampleDeps) System.init
      (takenOverRun ++ [.work 0 sampleEnv])).citationsFor 1 = [] := by decide
  rw [hresult, List.mem_singleton] at hretrieved
  cases hretrieved
  rw [hstored] at hperm
  exact absurd hperm.length_eq (by decide)

end MortgageAgent.Policy.Research
