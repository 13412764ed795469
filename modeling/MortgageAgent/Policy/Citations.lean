import MortgageAgent.Policy.ResearchLease
import MortgageAgent.Policy.Retrieval
import MortgageAgent.Policy.SourceFresh

/-!
# What research cites

The workers of `Policy.Research` over the sources they retrieve from, while the monitor records new
revisions and the resolver and the monitor request runs. `retrieve` reads the sources in one step,
as they are at that moment.

* **`CitationSystem`** / **`citationStep`** — any interleaving of checks, requests and workers.
* **`citations_quote`** — every citation stands where it says, in every state of every run.
* **`named_cites_alike`** — whatever is cited for a run that names its revision is what would be
  retrieved for it now, however often it has been taken over.
* **`completed_cites_best`** — where no worker outlives its lease, a completed run cites the best
  passages of one moment.
-/

namespace MortgageAgent.Policy.Retrieval

open Runs
open Monitor (Check)
open Research (ResearchDb PolicyResearchCitation PolicyResearchRun ResearchSynthesis SourceExcerpt
  WorkEnv WorkerState citationsOf)
open ResearchQueue (QueuedRun QueuedRuns PolicyResearchRequest fingerprintInput unresolvedRequest)

/-! ## The system -/

structure Config where
  deps : Research.Deps
  digest : ResearchQueue.Digest
  collation : Collation
  /-- `POLICY_RESEARCH_MAX_CITATIONS` -/
  maxCitations : Int

structure CitationSystem where
  sources : Monitor.Db
  queue : QueuedRuns
  /-- the columns that the request of a run has set -/
  asked : Uuid → Option QueuedRun
  base : Research.System
  /-- history only: the sources as they were up to now -/
  past : List Monitor.Db

inductive CitationLabel where
  | check (c : Check)
  | requestForNewRevision (id revisionId : Uuid) (requestedAt : Instant)
  | requestForUnresolvedResolution (id : Uuid) (context : PolicyResolutionContext)
      (unresolvedReasons : List String) (requestedAt : Instant)
  | claim (w : Nat) (now : Instant) (locked : List Uuid)
  | work (w : Nat) (now : Instant) (ollama : Option (Except String ResearchSynthesis))
  | fails (w : Nat) (error : String)
  | unreported (w : Nat) (now : Instant) (ollama : Option (Except String ResearchSynthesis))
      (error : String)
  | crash (w : Nat)

variable (cfg : Config)

/-- What `retrieve` returns to the worker, where that is its next statement. -/
def CitationSystem.found (s : CitationSystem) (w : Nat) : List SourceExcerpt :=
  match s.base.workers w with
  | .retrieving run =>
    match s.asked run.id with
    | some queued => retrieve cfg.collation cfg.maxCitations s.sources queued
    | none => []
  | _ => []

def CitationSystem.env (s : CitationSystem) (w : Nat) (now : Instant)
    (ollama : Option (Except String ResearchSynthesis)) : WorkEnv where
  now := now
  excerpts := s.found cfg w
  ollama := ollama

/-- A row under a new fingerprint. -/
def CitationSystem.request (s : CitationSystem) (id : Uuid) (request : PolicyResearchRequest)
    (requestedAt : Instant) : CitationSystem :=
  let queued := ResearchQueue.queuedRun cfg.digest (fingerprintInput request)
  let row := Research.queuedRun id request.trigger requestedAt
  match s.queue.insert queued, s.base.db.runs.insert row with
  | some queue, some runs =>
    { s with
      queue
      asked := Function.update s.asked id (some queued)
      base := { s.base with db := { s.base.db with runs } } }
  | _, _ => s

/-- What the monitor asks for on behalf of a revision that it has recorded. -/
def newRevisionRequest (db : Monitor.Db) (revisionId : Uuid) : Option PolicyResearchRequest := do
  let revision ← db.revisions.find revisionId
  let source ← db.sources.find revision.policySourceId
  return {
    trigger := .NEW_SOURCE_REVISION
    jurisdictionCode := source.jurisdictionCode
    unresolvedReasons :=
      ["policy source \"" ++ source.name ++ "\" recorded a new candidate revision"]
    policySourceId := some source.id
    policySourceRevisionId := some revisionId }

/-- A step of the workers. -/
def CitationSystem.worker (s : CitationSystem) (label : Research.Label) : CitationSystem :=
  { s with base := Research.step cfg.deps s.base label }

def citationStep (s : CitationSystem) : CitationLabel → CitationSystem
  | .check c =>
    { s with sources := Monitor.step s.sources c, past := s.past ++ [Monitor.step s.sources c] }
  | .requestForNewRevision id revisionId requestedAt =>
    match newRevisionRequest s.sources revisionId with
    | some request => s.request cfg id request requestedAt
    | none => s
  | .requestForUnresolvedResolution id context unresolvedReasons requestedAt =>
    match unresolvedRequest context unresolvedReasons with
    | some request => s.request cfg id request requestedAt
    | none => s
  | .claim w now locked => s.worker cfg (.claim w now locked)
  | .work w now ollama => s.worker cfg (.work w (s.env cfg w now ollama))
  | .fails w error => s.worker cfg (.fails w error)
  | .unreported w now ollama error => s.worker cfg (.unreported w (s.env cfg w now ollama) error)
  | .crash w => s.worker cfg (.crash w)

/-- No run requested yet. -/
def CitationSystem.init (sources : Monitor.Db) : CitationSystem where
  sources := sources
  queue := .empty
  asked := fun _ => none
  base := .init
  past := [sources]

/-! ## The promises -/

/-- The citation is an excerpt that stands where it says, at a rank that is kept. -/
def CitationSystem.Cites (s : CitationSystem) (c : PolicyResearchCitation) : Prop :=
  ∃ e index, index < maxCitations cfg.maxCitations ∧ Quotes s.sources e
    ∧ c = Research.citationOf cfg.deps c.policyResearchRunId index e

/-- The citations of the run are the best passages of one moment, in their order. -/
def CitationSystem.CitesBest (s : CitationSystem) (runId : Uuid) : Prop :=
  ∃ queued sources chosen, s.asked runId = some queued ∧ sources ∈ s.past
    ∧ Ranking.IsBest (ranksBefore cfg.collation) (maxCitations cfg.maxCitations) chosen
        (scoredPassages sources queued)
    ∧ (s.base.citationsFor runId).Perm (citationsOf cfg.deps runId chosen)

def CitationsQuote (s : CitationSystem) : Prop :=
  ∀ c ∈ s.base.db.citations.rows, s.Cites cfg c

/-- What is cited for a run that names its revision would be retrieved for it now. -/
def NamedCiteAlike (s : CitationSystem) : Prop :=
  ∀ c ∈ s.base.db.citations.rows, ∀ queued revisionId,
    s.asked c.policyResearchRunId = some queued →
    queued.policySourceRevisionId = some revisionId →
    c ∈ citationsOf cfg.deps c.policyResearchRunId
      (retrieve cfg.collation cfg.maxCitations s.sources queued)

def CompletedCitesBest (s : CitationSystem) : Prop :=
  ∀ run ∈ s.base.db.runs.rows, run.status = .COMPLETED → s.CitesBest cfg run.id

/-- No worker writes citations or completes a run after its claim has been taken over. -/
def WithinLease (s : CitationSystem) : CitationLabel → Bool
  | .work w now ollama => Research.Fenced s.base (.work w (s.env cfg w now ollama))
  | .unreported w now ollama error =>
    Research.Fenced s.base (.unreported w (s.env cfg w now ollama) error)
  | _ => true

/-! ## The sources grow -/

theorem check_revisions (db : Monitor.Db) (c : Check) :
    db.revisions.rows ⊆ (Monitor.step db c).revisions.rows
      ∧ ∀ revisionId, (db.revisions.find revisionId).isSome = true →
        (Monitor.step db c).revisions.find revisionId = db.revisions.find revisionId := by
  cases Monitor.step_cases db c with
  | inl hsame =>
    rw [hsame.1]
    exact ⟨List.Subset.refl _, fun _ _ => rfl⟩
  | inr hnew =>
    obtain ⟨r, -, -, -, revisions, hinsert, hstep⟩ := hnew
    rw [hstep]
    constructor
    · show db.revisions.rows ⊆ revisions.rows
      rw [Table.rows_of_insert hinsert]
      exact List.subset_append_left _ _
    · intro revisionId hsome
      obtain ⟨row, hrow⟩ := Option.isSome_iff_exists.mp hsome
      rw [hrow]
      exact Table.find_of_insert hinsert hrow

/-! ## What every run keeps -/

def HasRow (db : ResearchDb) (id : Uuid) : Prop := ∃ row ∈ db.runs.rows, row.id = id

/-- The excerpts are what `retrieve` has found for the run at one moment; and where the run names a
revision, what it would find now. -/
def CitationSystem.Retrieved (s : CitationSystem) (runId : Uuid) (excerpts : List SourceExcerpt) :
    Prop :=
  ∃ queued sources, s.asked runId = some queued ∧ sources ∈ s.past
    ∧ excerpts = retrieve cfg.collation cfg.maxCitations sources queued
    ∧ ∀ revisionId, queued.policySourceRevisionId = some revisionId →
      s.sources.revisions.find revisionId = sources.revisions.find revisionId

structure CitationInv (s : CitationSystem) : Prop where
  past : ∀ sources ∈ s.past, sources.revisions.rows ⊆ s.sources.revisions.rows
  now : s.sources ∈ s.past
  /-- a run that is there has been asked for -/
  asked : ∀ id, HasRow s.base.db id ↔ (s.asked id).isSome = true
  /-- a revision that is named is recorded -/
  named : ∀ id queued revisionId, s.asked id = some queued →
    queued.policySourceRevisionId = some revisionId →
    (s.sources.revisions.find revisionId).isSome = true
  held : ∀ w run, (s.base.workers w).run? = some run → HasRow s.base.db run.id
  results : ∀ runId excerpts, (runId, excerpts) ∈ s.base.retrieved → s.Retrieved cfg runId excerpts
  saving : ∀ w run excerpts, s.base.workers w = .saving run excerpts →
    (run.id, excerpts) ∈ s.base.retrieved
  cited : ∀ c ∈ s.base.db.citations.rows, ∃ excerpts,
    (c.policyResearchRunId, excerpts) ∈ s.base.retrieved
      ∧ c ∈ citationsOf cfg.deps c.policyResearchRunId excerpts

variable {cfg} {s : CitationSystem}

theorem citationInv_init (sources : Monitor.Db) : CitationInv cfg (.init sources) where
  past db hdb := by
    rw [List.mem_singleton.mp hdb]
    exact List.Subset.refl _
  now := List.mem_singleton_self _
  asked id := by
    constructor
    · intro h
      obtain ⟨row, hrow, -⟩ := h
      cases hrow
    · intro h
      cases h
  named _ _ _ h := by cases h
  held _ _ h := by cases h
  results _ _ h := by cases h
  saving _ _ _ h := by cases h
  cited _ h := by cases h

theorem CitationInv.check (h : CitationInv cfg s) (c : Check) :
    CitationInv cfg (citationStep cfg s (.check c)) := by
  obtain ⟨hrows, hfind⟩ := check_revisions s.sources c
  exact {
    past := by
      intro sources hsources
      cases List.mem_append.mp hsources with
      | inl hold => exact fun x hx => hrows (h.past sources hold hx)
      | inr hnew =>
        rw [List.mem_singleton.mp hnew]
        exact List.Subset.refl _
    now := List.mem_append_right _ (List.mem_singleton_self _)
    asked := h.asked
    named := by
      intro id queued revisionId hasked hnamed
      have hsome := h.named id queued revisionId hasked hnamed
      show ((Monitor.step s.sources c).revisions.find revisionId).isSome = true
      rw [hfind revisionId hsome]
      exact hsome
    held := h.held
    results := by
      intro runId excerpts hmem
      obtain ⟨queued, sources, hasked, hpast, hexcerpts, hnamed⟩ := h.results runId excerpts hmem
      refine ⟨queued, sources, hasked, List.mem_append_left _ hpast, hexcerpts, ?_⟩
      intro revisionId hrevision
      -- the revision was there before the check, which adds rows and changes none.
      rw [← hnamed revisionId hrevision]
      exact hfind revisionId (h.named runId queued revisionId hasked hrevision)
    saving := h.saving
    cited := h.cited }

/-- A request that names a revision names one that is there. -/
theorem CitationInv.request (h : CitationInv cfg s) (id : Uuid) {request : PolicyResearchRequest}
    (hnamed : ∀ revisionId, request.policySourceRevisionId = some revisionId →
      (s.sources.revisions.find revisionId).isSome = true) (requestedAt : Instant) :
    CitationInv cfg (s.request cfg id request requestedAt) := by
  unfold CitationSystem.request
  dsimp only
  split
  · next queue runs _ hruns =>
    have hfresh : ∀ row ∈ s.base.db.runs.rows, row.id ≠ id := Table.key_fresh_of_insert hruns
    have hnone : s.asked id = none := by
      cases hasked : s.asked id with
      | none => rfl
      | some queued =>
        obtain ⟨row, hrow, hid⟩ := (h.asked id).mpr (by rw [hasked]; rfl)
        exact absurd hid (hfresh row hrow)
    -- what was asked for before keeps its columns.
    have hother : ∀ id' queued, s.asked id' = some queued → id' ≠ id := by
      intro id' queued hasked heq
      rw [heq, hnone] at hasked
      cases hasked
    have hrows := Table.rows_of_insert hruns
    exact {
      past := h.past
      now := h.now
      asked := by
        intro id'
        show (∃ row ∈ runs.rows, row.id = id') ↔ (Function.update s.asked id _ id').isSome = true
        rw [hrows]
        by_cases hid : id' = id
        · rw [hid, Function.update_self]
          exact iff_of_true ⟨_, List.mem_append_right _ (List.mem_singleton_self _), rfl⟩ rfl
        · rw [Function.update_of_ne hid, ← h.asked id']
          constructor
          · intro hrow
            obtain ⟨row, hmem, hrowId⟩ := hrow
            cases List.mem_append.mp hmem with
            | inl hold => exact ⟨row, hold, hrowId⟩
            | inr hnew =>
              rw [List.mem_singleton.mp hnew] at hrowId
              exact absurd hrowId.symm hid
          · intro hrow
            obtain ⟨row, hmem, hrowId⟩ := hrow
            exact ⟨row, List.mem_append_left _ hmem, hrowId⟩
      named := by
        intro id' queued revisionId hasked hrevision
        by_cases hid : id' = id
        · replace hasked : Function.update s.asked id _ id' = some queued := hasked
          rw [hid, Function.update_self] at hasked
          cases hasked
          exact hnamed revisionId hrevision
        · replace hasked : Function.update s.asked id _ id' = some queued := hasked
          rw [Function.update_of_ne hid] at hasked
          exact h.named id' queued revisionId hasked hrevision
      held := by
        intro w run hrun
        obtain ⟨row, hrow, hid⟩ := h.held w run hrun
        refine ⟨row, ?_, hid⟩
        show row ∈ runs.rows
        rw [hrows]
        exact List.mem_append_left _ hrow
      results := by
        intro runId excerpts hmem
        obtain ⟨queued, sources, hasked, hrest⟩ := h.results runId excerpts hmem
        refine ⟨queued, sources, ?_, hrest⟩
        show Function.update s.asked id _ runId = some queued
        rw [Function.update_of_ne (hother runId queued hasked)]
        exact hasked
      saving := h.saving
      cited := h.cited }
  · exact h

/-! ## The workers -/

/-- What a step of the workers does to what is kept. -/
structure WorkerMove (cfg : Config) (s : CitationSystem) (base : Research.System) : Prop where
  rows : ∀ id, HasRow base.db id ↔ HasRow s.base.db id
  held : ∀ w run, (base.workers w).run? = some run → HasRow s.base.db run.id
  kept : s.base.retrieved ⊆ base.retrieved
  results : ∀ runId excerpts, (runId, excerpts) ∈ base.retrieved →
    (runId, excerpts) ∈ s.base.retrieved ∨ ∃ queued, s.asked runId = some queued
      ∧ excerpts = retrieve cfg.collation cfg.maxCitations s.sources queued
  saving : ∀ w run excerpts, base.workers w = .saving run excerpts →
    (run.id, excerpts) ∈ base.retrieved
  cited : ∀ c ∈ base.db.citations.rows, c ∈ s.base.db.citations.rows ∨ ∃ excerpts,
    (c.policyResearchRunId, excerpts) ∈ s.base.retrieved
      ∧ c ∈ citationsOf cfg.deps c.policyResearchRunId excerpts

theorem CitationInv.move {base : Research.System} (h : CitationInv cfg s)
    (hmove : WorkerMove cfg s base) : CitationInv cfg { s with base } where
  past := h.past
  now := h.now
  asked id := (hmove.rows id).trans (h.asked id)
  named := h.named
  held w run hrun := (hmove.rows run.id).mpr (hmove.held w run hrun)
  results runId excerpts hmem := by
    cases hmove.results runId excerpts hmem with
    | inl hold => exact h.results runId excerpts hold
    | inr hnew =>
      obtain ⟨queued, hasked, hexcerpts⟩ := hnew
      exact ⟨queued, s.sources, hasked, h.now, hexcerpts, fun _ _ => rfl⟩
  saving := hmove.saving
  cited c hc := by
    cases hmove.cited c hc with
    | inl hold =>
      obtain ⟨excerpts, hmem, hcitation⟩ := h.cited c hold
      exact ⟨excerpts, hmove.kept hmem, hcitation⟩
    | inr hnew =>
      obtain ⟨excerpts, hmem, hcitation⟩ := hnew
      exact ⟨excerpts, hmove.kept hmem, hcitation⟩

/-- One worker has moved on, and the results are those that are known. -/
theorem held_setWorker {base : Research.System} (h : CitationInv cfg s) {w : Nat}
    {state : WorkerState} (hothers : ∀ w', base.workers w' = s.base.workers w')
    (hrun : ∀ run, state.run? = some run → HasRow s.base.db run.id) :
    ∀ w' run, ((base.setWorker w state).workers w').run? = some run → HasRow s.base.db run.id := by
  intro w' run hrun'
  by_cases hw : w' = w
  · rw [hw, Research.setWorker_self] at hrun'
    exact hrun run hrun'
  · rw [Research.setWorker_of_ne _ _ hw, hothers] at hrun'
    exact h.held w' run hrun'

theorem saving_setWorker {base : Research.System} (h : CitationInv cfg s) {w : Nat}
    {state : WorkerState} (hothers : ∀ w', base.workers w' = s.base.workers w')
    (hkept : s.base.retrieved ⊆ base.retrieved)
    (hsaving : ∀ run excerpts, state = .saving run excerpts → (run.id, excerpts) ∈ base.retrieved) :
    ∀ w' run excerpts, (base.setWorker w state).workers w' = .saving run excerpts →
      (run.id, excerpts) ∈ base.retrieved := by
  intro w' run excerpts hstate
  by_cases hw : w' = w
  · rw [hw, Research.setWorker_self] at hstate
    exact hsaving run excerpts hstate
  · rw [Research.setWorker_of_ne _ _ hw, hothers] at hstate
    exact hkept (h.saving w' run excerpts hstate)

theorem thrown_ne_saving (state : WorkerState) (error : String) (run : PolicyResearchRun)
    (excerpts : List SourceExcerpt) : state.thrown error ≠ .saving run excerpts := by
  cases state <;> simp [WorkerState.thrown]

/-- A worker is stopped, or has caught an error. -/
theorem workerMove_setWorker (h : CitationInv cfg s) (w : Nat) {state : WorkerState}
    (hrun : ∀ run, state.run? = some run → (s.base.workers w).run? = some run)
    (hsaving : ∀ run excerpts, state ≠ .saving run excerpts) :
    WorkerMove cfg s (s.base.setWorker w state) where
  rows _ := Iff.rfl
  held := held_setWorker h (fun _ => rfl) fun run hstate => h.held w run (hrun run hstate)
  kept := List.Subset.refl _
  results _ _ := Or.inl
  saving := saving_setWorker h (fun _ => rfl) (List.Subset.refl _) fun run excerpts heq =>
    absurd heq (hsaving run excerpts)
  cited _ := Or.inl

theorem workerMove_claim (h : CitationInv cfg s) (w : Nat) (now : Instant)
    {row : PolicyResearchRun} (hrow : row ∈ s.base.db.runs.rows) :
    WorkerMove cfg s (s.base.claimRow w now row) where
  rows id := by
    constructor
    · intro hfound
      obtain ⟨x, hx, hid⟩ := hfound
      cases (Research.mem_claimRow hrow).mp hx with
      | inl hclaimed =>
        rw [hclaimed] at hid
        exact ⟨row, hrow, hid⟩
      | inr hold => exact ⟨x, hold.1, hid⟩
    · intro hfound
      obtain ⟨x, hx, hid⟩ := hfound
      by_cases hsame : x.id = row.id
      · exact ⟨_, (Research.mem_claimRow hrow).mpr (Or.inl rfl), hsame.symm.trans hid⟩
      · exact ⟨x, (Research.mem_claimRow hrow).mpr (Or.inr ⟨hx, hsame⟩), hid⟩
  held := by
    apply held_setWorker h
    · exact fun _ => rfl
    · intro run hrun
      cases hrun
      exact ⟨row, hrow, rfl⟩
  kept := List.Subset.refl _
  results _ _ := Or.inl
  saving := by
    apply saving_setWorker h
    · exact fun _ => rfl
    · exact List.Subset.refl _
    · intro run excerpts heq
      cases heq
  cited _ := Or.inl

/-- What a worker retrieves is what `retrieve` finds for its run. -/
theorem found_eq (h : CitationInv cfg s) {w : Nat} {run : PolicyResearchRun}
    (hstate : s.base.workers w = .retrieving run) :
    ∃ queued, s.asked run.id = some queued
      ∧ s.found cfg w = retrieve cfg.collation cfg.maxCitations s.sources queued := by
  have hsome := (h.asked run.id).mp (h.held w run (by rw [hstate]; rfl))
  obtain ⟨queued, hqueued⟩ := Option.isSome_iff_exists.mp hsome
  refine ⟨queued, hqueued, ?_⟩
  simp only [CitationSystem.found, hstate, hqueued]

/-- The citations behind a statement are old, or those of the results that it saves. -/
theorem cited_write (h : CitationInv cfg s) (w : Nat) (env : WorkEnv) :
    ∀ c ∈ (Research.workStep cfg.deps s.base.db env (s.base.workers w)).1.citations.rows,
      c ∈ s.base.db.citations.rows ∨ ∃ excerpts,
        (c.policyResearchRunId, excerpts) ∈ s.base.retrieved
          ∧ c ∈ citationsOf cfg.deps c.policyResearchRunId excerpts := by
  have heffect := Research.workStep_effect cfg.deps s.base.db env (s.base.workers w)
  generalize hstate : s.base.workers w = state at heffect ⊢
  generalize (Research.workStep cfg.deps s.base.db env state).1 = db at heffect ⊢
  intro c hc
  cases heffect with
  | same => exact Or.inl hc
  | deleted run => exact Or.inl (List.mem_of_mem_filter hc)
  | saved run excerpts db hsave =>
    -- a worker saves what it has retrieved, and the result has been kept.
    rw [(Research.saveCitations_rows hsave).2] at hc
    cases List.mem_append.mp hc with
    | inl hold => exact Or.inl hold
    | inr hnew =>
      have hid := Research.runId_of_mem_citationsOf hnew
      refine Or.inr ⟨excerpts, ?_, ?_⟩
      · rw [hid]
        exact h.saving w run excerpts hstate
      · rw [hid]
        exact hnew
  | completed run excerpts synthesis now => exact Or.inl hc
  | failed run error now => exact Or.inl hc

theorem workerMove_write (h : CitationInv cfg s) (w : Nat) (now : Instant)
    (ollama : Option (Except String ResearchSynthesis)) {state : WorkerState}
    (hrun : ∀ run, state.run? = some run → (s.base.workers w).run? = some run)
    (hsaving : ∀ run excerpts, state = .saving run excerpts →
      (run.id, excerpts) ∈ s.base.retrievedAfter w (s.env cfg w now ollama)) :
    WorkerMove cfg s
      ((s.base.write cfg.deps w (s.env cfg w now ollama)).setWorker w state) where
  rows id := by
    obtain ⟨f, hrows, hf⟩ := (Research.workStep_effect cfg.deps s.base.db (s.env cfg w now ollama)
      (s.base.workers w)).rows
    show (∃ row ∈ (Research.workStep cfg.deps s.base.db (s.env cfg w now ollama)
      (s.base.workers w)).1.runs.rows, row.id = id) ↔ ∃ row ∈ s.base.db.runs.rows, row.id = id
    rw [hrows]
    constructor
    · intro hfound
      obtain ⟨x, hx, hid⟩ := hfound
      obtain ⟨row, hrow, rfl⟩ := List.mem_map.mp hx
      exact ⟨row, hrow, (hf row).1.symm.trans hid⟩
    · intro hfound
      obtain ⟨row, hrow, hid⟩ := hfound
      exact ⟨f row, List.mem_map_of_mem hrow, (hf row).1.trans hid⟩
  held := held_setWorker h (fun _ => rfl) fun run hstate => h.held w run (hrun run hstate)
  kept := Research.retrieved_subset s.base w _
  results runId excerpts hmem := by
    replace hmem : (runId, excerpts) ∈ s.base.retrievedAfter w (s.env cfg w now ollama) := hmem
    -- a result is added where `retrieve` is the statement, and only there.
    unfold Research.System.retrievedAfter at hmem
    split at hmem
    · next run hstate =>
      cases List.mem_append.mp hmem with
      | inl hold => exact Or.inl hold
      | inr hnew =>
        cases List.mem_singleton.mp hnew
        exact Or.inr (found_eq h hstate)
    · exact Or.inl hmem
  saving := saving_setWorker h (fun _ => rfl) (Research.retrieved_subset s.base w _) hsaving
  cited := cited_write h w _

/-- A worker that saves has just retrieved. -/
theorem workStep_saving {deps : Research.Deps} {db : ResearchDb} {env : WorkEnv}
    {state : WorkerState} {run : PolicyResearchRun} {excerpts : List SourceExcerpt}
    (h : (Research.workStep deps db env state).2 = .saving run excerpts) :
    state = .retrieving run ∧ excerpts = env.excerpts := by
  cases state with
  | idle => cases h
  | deleting run' => cases h
  | retrieving run' =>
    simp only [Research.workStep] at h
    split at h
    · cases h
      exact ⟨rfl, rfl⟩
    · cases h
  | saving run' excerpts' =>
    simp only [Research.workStep] at h
    split at h <;> cases h
  | synthesizing run' excerpts' =>
    simp only [Research.workStep] at h
    split at h <;> cases h
  | completing run' excerpts' synthesis => cases h
  | failing run' error => cases h

theorem citationInv_step (s : CitationSystem) (a : CitationLabel) (h : CitationInv cfg s) :
    CitationInv cfg (citationStep cfg s a) := by
  cases a with
  | check c => exact h.check c
  | requestForNewRevision id revisionId requestedAt =>
    simp only [citationStep]
    split
    · next request hrequest =>
      refine h.request id ?_ requestedAt
      intro revisionId' hnamed
      obtain ⟨revision, hrevision, hrest⟩ := Option.bind_eq_some_iff.mp hrequest
      obtain ⟨source, -, hsome⟩ := Option.bind_eq_some_iff.mp hrest
      cases hsome
      cases hnamed
      rw [hrevision]
      rfl
    · exact h
  | requestForUnresolvedResolution id context unresolvedReasons requestedAt =>
    simp only [citationStep]
    split
    · next request hrequest =>
      refine h.request id ?_ requestedAt
      intro revisionId hnamed
      obtain ⟨trigger, -, hsome⟩ := Option.map_eq_some_iff.mp hrequest
      cases hsome
      cases hnamed
    · exact h
  | claim w now locked =>
    apply h.move
    unfold Research.step
    dsimp only
    split
    · next hclaim =>
      obtain ⟨row, hrow, -, rfl, rfl⟩ := Research.claimNextRun_some hclaim
      exact workerMove_claim h w now hrow
    · exact ⟨fun _ => Iff.rfl, h.held, List.Subset.refl _, fun _ _ => Or.inl, h.saving,
        fun _ => Or.inl⟩
  | work w now ollama =>
    apply h.move
    apply workerMove_write h
    · exact fun _ hrun => Research.workStep_run hrun
    · intro run excerpts hstate
      obtain ⟨hretrieving, hexcerpts⟩ := workStep_saving hstate
      rw [Research.System.retrievedAfter, hretrieving, hexcerpts]
      exact List.mem_append_right _ (List.mem_singleton_self _)
  | fails w error =>
    apply h.move
    apply workerMove_setWorker h
    · exact fun _ hrun => Research.thrown_run hrun
    · exact thrown_ne_saving _ error
  | unreported w now ollama error =>
    apply h.move
    apply workerMove_write h
    · exact fun _ hrun => Research.thrown_run hrun
    · intro run excerpts hstate
      exact absurd hstate (thrown_ne_saving _ error run excerpts)
  | crash w =>
    apply h.move
    apply workerMove_setWorker h
    · intro run hrun
      cases hrun
    · intro run excerpts hstate
      cases hstate

/-! ## Runs -/

variable (cfg) in
theorem citationInv_exec (sources : Monitor.Db) (labels : List CitationLabel) :
    CitationInv cfg (exec (citationStep cfg) (.init sources) labels) :=
  exec_inv citationInv_step (citationInv_init sources) labels

/-- What is cited is what was retrieved, and that still stands. -/
theorem CitationInv.cites (h : CitationInv cfg s) {c : PolicyResearchCitation}
    (hc : c ∈ s.base.db.citations.rows) : s.Cites cfg c := by
  obtain ⟨excerpts, hmem, hcitation⟩ := h.cited c hc
  obtain ⟨queued, sources, -, hpast, rfl, -⟩ := h.results _ _ hmem
  obtain ⟨index, hindex, hcited⟩ := List.mem_mapIdx.mp hcitation
  refine ⟨_, index, ?_, ?_, hcited.symm⟩
  · have hlength := (isBest_retrieve cfg.collation cfg.maxCitations sources queued).length
    omega
  · exact (quotes_of_mem_retrieve (List.getElem_mem hindex)).later (h.past sources hpast)

variable (cfg) in
/-- **Every citation stands where it says**, in every state of every run: in a recorded revision,
under the keys and indices of its location, with the revision's checksum. -/
theorem citations_quote (sources : Monitor.Db) (labels : List CitationLabel) :
    CitationsQuote cfg (exec (citationStep cfg) (.init sources) labels) :=
  fun _ hc => (citationInv_exec cfg sources labels).cites hc

theorem CitationInv.cites_alike (h : CitationInv cfg s) : NamedCiteAlike cfg s := by
  intro c hc queued revisionId hasked hnamed
  obtain ⟨excerpts, hmem, hcitation⟩ := h.cited c hc
  obtain ⟨queued', sources, hasked', -, rfl, hfind⟩ := h.results _ _ hmem
  rw [hasked] at hasked'
  cases hasked'
  -- the result was found then; the revision it was found in is unchanged.
  rw [retrieve_of_named hnamed (hfind revisionId hnamed)]
  exact hcitation

variable (cfg) in
/-- **A run that names its revision is cited alike** by every worker that has ever claimed it,
whatever has been recorded in between. -/
theorem named_cites_alike (sources : Monitor.Db) (labels : List CitationLabel) :
    NamedCiteAlike cfg (exec (citationStep cfg) (.init sources) labels) :=
  (citationInv_exec cfg sources labels).cites_alike

/-! ## Runs within their leases -/

theorem leaseInv_request (h : Research.LeaseInv cfg.deps s.base) (id : Uuid)
    (request : PolicyResearchRequest) (requestedAt : Instant) :
    Research.LeaseInv cfg.deps (s.request cfg id request requestedAt).base := by
  unfold CitationSystem.request
  dsimp only
  split
  · next hruns => exact h.request hruns
  · exact h

theorem leaseInv_citationStep (s : CitationSystem) (a : CitationLabel)
    (h : Research.LeaseInv cfg.deps s.base) (hlease : WithinLease cfg s a = true) :
    Research.LeaseInv cfg.deps (citationStep cfg s a).base := by
  cases a with
  | check c => exact h
  | requestForNewRevision id revisionId requestedAt =>
    simp only [citationStep]
    split
    · exact leaseInv_request h id _ requestedAt
    · exact h
  | requestForUnresolvedResolution id context unresolvedReasons requestedAt =>
    simp only [citationStep]
    split
    · exact leaseInv_request h id _ requestedAt
    · exact h
  | claim w now locked => exact Research.leaseInv_step cfg.deps s.base (.claim w now locked) h rfl
  | work w now ollama => exact Research.leaseInv_step cfg.deps s.base (.work w _) h hlease
  | fails w error => exact Research.leaseInv_step cfg.deps s.base (.fails w error) h rfl
  | unreported w now ollama error =>
    exact Research.leaseInv_step cfg.deps s.base (.unreported w _ error) h hlease
  | crash w => exact Research.leaseInv_step cfg.deps s.base (.crash w) h rfl

/-- **A completed run cites the best of one moment.** In every run in which no worker outlives its
lease, a completed run cites all of what one `retrieve` for it has found, in its order, and no
passage that was there then and is not cited ranks before one that is. -/
theorem completed_cites_best (cfg : Config) (sources : Monitor.Db) (labels : List CitationLabel)
    (h : AllSteps (citationStep cfg) (fun s a => WithinLease cfg s a = true) (.init sources)
      labels) :
    CompletedCitesBest cfg (exec (citationStep cfg) (.init sources) labels) := by
  have hinv := citationInv_exec cfg sources labels
  have hlease := exec_inv_of_allSteps leaseInv_citationStep (Research.leaseInv_init cfg.deps) h
  intro row hrow hcompleted
  obtain ⟨excerpts, hmem, hcites⟩ := hlease.cited row hrow hcompleted
  obtain ⟨queued, db, hasked, hpast, rfl, -⟩ := hinv.results _ _ hmem
  exact ⟨queued, db, _, hasked, hpast, isBest_retrieve cfg.collation cfg.maxCitations db queued,
    .of_eq hcites⟩

/-! ### A run that is taken over -/

def sampleConfig : Config where
  deps := Research.sampleDeps
  digest := fun _ => ""
  collation :=
    { le := fun a b => a ≤ b
      total := by simpa using String.le_total
      trans := by simpa using fun _ _ _ => String.le_trans }
  maxCitations := 1

/-- Two strings, of which the second has a term of the query. -/
def sampleSources : Monitor.Db where
  sources := ⟨[{
    id := 2
    name := "income"
    jurisdictionCode := "US"
    freshnessObjectiveHours := 720
    retrievalMode := .CONNECTOR }], by decide⟩
  revisions := ⟨[{
    id := 3
    policySourceId := 2
    recordedAt := 1786780000000
    checksum := "c0ffee"
    publishedAt := 1786770000000
    content := .obj [("owner", .str "a board"), ("summary", .str "income variance")] }], by decide⟩

/-- Worker 0 claims the run and stalls, and worker 1 completes it eleven minutes later. -/
def sampleLabels : List CitationLabel :=
  [.requestForNewRevision 1 3 1786790000000, .claim 0 1786790001000 [], .work 0 1786790001000 none,
    .claim 1 1786790661000 []] ++ List.replicate 5 (.work 1 1786790661000 none)

theorem completed_cites_best_takenOver :
    ((exec (citationStep sampleConfig) (.init sampleSources) sampleLabels).base.citationsFor 1).map
        (·.location) = ["$.summary#1"]
      ∧ CompletedCitesBest sampleConfig
          (exec (citationStep sampleConfig) (.init sampleSources) sampleLabels) :=
  ⟨by decide +kernel,
    completed_cites_best sampleConfig sampleSources sampleLabels (by decide +kernel)⟩

end MortgageAgent.Policy.Retrieval
