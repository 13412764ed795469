import Mathlib.Data.Rat.Defs
import Mathlib.Data.List.Sort
import Mathlib.Logic.Function.Basic
import MortgageAgent.Lib.Run
import MortgageAgent.Lib.Table
import MortgageAgent.Platform

/-!
# Policy research

`PolicyResearchService.claimNextRun` and `processClaimedRun`, as the worker loop
`processPendingRuns` calls them. A claim is one statement under a row lock. Processing is not: it
deletes the run's citations, retrieves excerpts, saves them, synthesizes a brief and completes the
run, each on its own, and other workers run in between. A claim whose lease has expired is given
to the next worker that asks, whatever the first one is doing.

* **`ResearchDb`** — the queue of runs, and the citations under their unique `(run, rank)`.
* **`claimNextRun`** — the claim.
* **`WorkerState`** / **`workStep`** — where a worker stands, and its next statement.
* **`System`** / **`Label`** / **`step`** — any number of workers over one database. A statement
  may fail, be written and go unreported, and a worker may die between any two statements.

What `retrieve` finds depends on the sources as they are at that moment, and is an input: any list
of excerpts.
-/

namespace MortgageAgent.Policy.Research

inductive PolicyResearchTrigger where
  | NEW_SOURCE_REVISION
  | SOURCE_FRESHNESS_EXPIRED
  | COVERAGE_GAP
  | APPLICABILITY_CONFLICT
  deriving DecidableEq, Repr

def PolicyResearchTrigger.text : PolicyResearchTrigger → String
  | .NEW_SOURCE_REVISION => "NEW_SOURCE_REVISION"
  | .SOURCE_FRESHNESS_EXPIRED => "SOURCE_FRESHNESS_EXPIRED"
  | .COVERAGE_GAP => "COVERAGE_GAP"
  | .APPLICABILITY_CONFLICT => "APPLICABILITY_CONFLICT"

inductive PolicyResearchStatus where
  | QUEUED
  | PROCESSING
  | COMPLETED
  | FAILED
  deriving DecidableEq, Repr

inductive PolicyResearchProvider where
  | extractive
  | ollama
  deriving DecidableEq, Repr

/-- `policy_research_runs`. -/
structure PolicyResearchRun where
  id : Uuid
  trigger : PolicyResearchTrigger
  status : PolicyResearchStatus
  requestedAt : Instant
  claimedAt : Option Instant
  attempts : Nat
  candidateSummary : Option String
  changeSignals : Option (List String)
  synthesisProvider : Option PolicyResearchProvider
  failureDetail : Option String
  completedAt : Option Instant
  deriving DecidableEq, Repr

structure SourceExcerpt where
  policySourceRevisionId : Uuid
  sourceChecksum : String
  location : String
  excerpt : String
  relevanceScore : ℚ
  deriving DecidableEq, Repr

/-- `policy_research_citations`. -/
structure PolicyResearchCitation where
  policyResearchRunId : Uuid
  policySourceRevisionId : Uuid
  sourceChecksum : String
  location : String
  excerpt : String
  excerptDigest : String
  rank : Nat
  relevanceScore : String
  deriving DecidableEq, Repr

/-- `UQ_policy_research_citations_run_rank`. -/
def PolicyResearchCitation.runAndRank (c : PolicyResearchCitation) : Uuid × Nat :=
  (c.policyResearchRunId, c.rank)

structure ResearchSynthesis where
  candidateSummary : String
  changeSignals : List String
  provider : PolicyResearchProvider
  deriving DecidableEq, Repr

structure ResearchDb where
  runs : Table PolicyResearchRun PolicyResearchRun.id
  citations : Table PolicyResearchCitation PolicyResearchCitation.runAndRank

structure Deps where
  /-- SHA-256 of the JSON text, in hexadecimal -/
  digest : String → String
  /-- `score.toFixed(6)` -/
  toFixed6 : ℚ → String
  /-- `POLICY_RESEARCH_LEASE_MS` -/
  leaseMs : Int

/-! ## The claim -/

def claimable (leaseMs : Int) (now : Instant) (run : PolicyResearchRun) : Bool :=
  run.status = .QUEUED
    || (run.status = .PROCESSING && run.claimedAt.any fun claimedAt => claimedAt < now - leaseMs)

/-- `ORDER BY "requestedAt" ASC, id ASC`. -/
def requestedBefore (a b : PolicyResearchRun) : Prop :=
  a.requestedAt < b.requestedAt ∨ (a.requestedAt = b.requestedAt ∧ a.id ≤ b.id)

instance : DecidableRel requestedBefore := fun a b => by
  unfold requestedBefore
  infer_instance

def claimed (now : Instant) (run : PolicyResearchRun) : PolicyResearchRun :=
  { run with
    status := .PROCESSING
    claimedAt := some now
    attempts := run.attempts + 1
    failureDetail := none }

/-- The oldest run that can be claimed and that nobody else has locked. -/
def candidate (deps : Deps) (db : ResearchDb) (now : Instant) (locked : List Uuid) :
    Option PolicyResearchRun :=
  ((db.runs.rows.filter fun run => claimable deps.leaseMs now run && !locked.contains run.id).insertionSort
    requestedBefore).head?

/-- The rows after the claim, and the row it returns. -/
def claimNextRun (deps : Deps) (db : ResearchDb) (now : Instant) (locked : List Uuid) :
    ResearchDb × Option PolicyResearchRun :=
  match candidate deps db now locked with
  | none => (db, none)
  | some run => ({ db with runs := db.runs.put (claimed now run) }, some (claimed now run))

/-! ## Processing -/

/-- `s.slice(0, n)` as the driver sends it: half of a surrogate pair goes out as U+FFFD. -/
def jsSlice : Nat → List Char → List Char
  | 0, _ => []
  | _ + 1, [] => []
  | n + 1, c :: cs =>
    if 0x10000 ≤ c.val then
      match n with
      | 0 => ['\uFFFD']
      | n + 1 => c :: jsSlice n cs
    else c :: jsSlice n cs

/-- The excerpt at `index`, as a citation of the run. -/
def citationOf (deps : Deps) (runId : Uuid) (index : Nat) (e : SourceExcerpt) :
    PolicyResearchCitation where
  policyResearchRunId := runId
  policySourceRevisionId := e.policySourceRevisionId
  sourceChecksum := e.sourceChecksum
  location := e.location
  excerpt := e.excerpt
  excerptDigest := deps.digest e.excerpt
  rank := index + 1
  relevanceScore := deps.toFixed6 e.relevanceScore

/-- The rows `save` inserts. -/
def citationsOf (deps : Deps) (runId : Uuid) (excerpts : List SourceExcerpt) :
    List PolicyResearchCitation :=
  excerpts.mapIdx (citationOf deps runId)

def ResearchDb.deleteCitations (db : ResearchDb) (runId : Uuid) : ResearchDb :=
  { db with citations := db.citations.filter fun c => c.policyResearchRunId ≠ runId }

/-- One transaction: all rows, or none when a `(run, rank)` is taken. -/
def ResearchDb.saveCitations (db : ResearchDb) (rows : List PolicyResearchCitation) :
    Option ResearchDb :=
  (rows.foldlM Table.insert db.citations).map fun citations => { db with citations }

/-- The brief without a model. -/
def extractive (run : PolicyResearchRun) (excerpts : List SourceExcerpt) : ResearchSynthesis where
  provider := .extractive
  candidateSummary :=
    if excerpts.length = 0 then
      "No source passages are available for this policy research request. "
        ++ "Coverage or source ownership must be reviewed by a human."
    else
      "Retrieved " ++ toString excerpts.length ++ " immutable source passage(s) for "
        ++ run.trigger.text ++ ". This extractive brief is advisory; a reviewer must verify each "
        ++ "citation and approve any compiled policy change."
  changeSignals :=
    if excerpts.length = 0 then ["NO_RETRIEVABLE_SOURCE_CONTENT"]
    else ["CITATION_BOUND_REVIEW_REQUIRED"]

def completed (synthesis : ResearchSynthesis) (now : Instant) (run : PolicyResearchRun) :
    PolicyResearchRun :=
  { run with
    status := .COMPLETED
    candidateSummary := some synthesis.candidateSummary
    changeSignals := some synthesis.changeSignals
    synthesisProvider := some synthesis.provider
    completedAt := some now }

def failed (error : String) (now : Instant) (run : PolicyResearchRun) : PolicyResearchRun :=
  { run with
    status := .FAILED
    failureDetail := some (String.ofList (jsSlice 2000 error.toList))
    completedAt := some now }

/-- `UPDATE … WHERE id = … AND status = 'PROCESSING'`. -/
def ResearchDb.updateProcessing (db : ResearchDb) (runId : Uuid)
    (f : PolicyResearchRun → PolicyResearchRun) (hf : ∀ run, (f run).id = run.id) : ResearchDb :=
  let runs := db.runs.mapRows
    (fun run => if run.id = runId ∧ run.status = .PROCESSING then f run else run)
    (fun run => by split <;> simp [hf])
  { db with runs }

/-- The next statement of a worker. -/
inductive WorkerState where
  | idle
  | deleting (run : PolicyResearchRun)
  | retrieving (run : PolicyResearchRun)
  | saving (run : PolicyResearchRun) (excerpts : List SourceExcerpt)
  | synthesizing (run : PolicyResearchRun) (excerpts : List SourceExcerpt)
  | completing (run : PolicyResearchRun) (excerpts : List SourceExcerpt)
      (synthesis : ResearchSynthesis)
  | failing (run : PolicyResearchRun) (error : String)
  deriving DecidableEq, Repr

/-- The run a worker has claimed, as the claim returned it. -/
def WorkerState.run? : WorkerState → Option PolicyResearchRun
  | .idle => none
  | .deleting run | .retrieving run | .saving run _ | .synthesizing run _ | .completing run _ _
  | .failing run _ => some run

/-- What a statement takes from outside the database. -/
structure WorkEnv where
  now : Instant
  /-- what `retrieve` returns -/
  excerpts : List SourceExcerpt
  /-- what the model makes of the excerpts, where one is configured -/
  ollama : Option (Except String ResearchSynthesis)

def duplicateRank : String :=
  "duplicate key value violates unique constraint \"UQ_policy_research_citations_run_rank\""

/-- The `catch` of `processClaimedRun`; what it throws itself ends the tick. -/
def WorkerState.thrown (error : String) : WorkerState → WorkerState
  | .idle => .idle
  | .deleting run | .retrieving run | .saving run _ | .synthesizing run _ | .completing run _ _ =>
    .failing run error
  | .failing _ _ => .idle

def workStep (deps : Deps) (db : ResearchDb) (env : WorkEnv) :
    WorkerState → ResearchDb × WorkerState
  | .idle => (db, .idle)
  | .deleting run => (db.deleteCitations run.id, .retrieving run)
  | .retrieving run =>
    if env.excerpts.length > 0 then (db, .saving run env.excerpts)
    else (db, .synthesizing run env.excerpts)
  | .saving run excerpts =>
    match db.saveCitations (citationsOf deps run.id excerpts) with
    | none => (db, .failing run duplicateRank)
    | some db' => (db', .synthesizing run excerpts)
  | .synthesizing run excerpts =>
    match env.ollama.getD (.ok (extractive run excerpts)) with
    | .error error => (db, .failing run error)
    | .ok synthesis => (db, .completing run excerpts synthesis)
  | .completing run _ synthesis =>
    (db.updateProcessing run.id (completed synthesis env.now) (fun _ => rfl), .idle)
  | .failing run error =>
    (db.updateProcessing run.id (failed error env.now) (fun _ => rfl), .idle)

/-! ## Workers -/

structure System where
  db : ResearchDb
  workers : Nat → WorkerState
  /-- every result `retrieve` has returned, with the run it was for -/
  retrieved : List (Uuid × List SourceExcerpt)

inductive Label where
  /-- `request` has saved a new row -/
  | request (id : Uuid) (trigger : PolicyResearchTrigger) (requestedAt : Instant)
  | claim (w : Nat) (now : Instant) (locked : List Uuid)
  | work (w : Nat) (env : WorkEnv)
  /-- the statement is rolled back -/
  | fails (w : Nat) (error : String)
  /-- the statement is written, and the worker sees an error -/
  | unreported (w : Nat) (env : WorkEnv) (error : String)
  | crash (w : Nat)

def queuedRun (id : Uuid) (trigger : PolicyResearchTrigger) (requestedAt : Instant) :
    PolicyResearchRun where
  id := id
  trigger := trigger
  status := .QUEUED
  requestedAt := requestedAt
  claimedAt := none
  attempts := 0
  candidateSummary := none
  changeSignals := none
  synthesisProvider := none
  failureDetail := none
  completedAt := none

def System.setWorker (s : System) (w : Nat) (state : WorkerState) : System :=
  { s with workers := Function.update s.workers w state }

/-- The results of `retrieve` after the worker's next statement. -/
def System.retrievedAfter (s : System) (w : Nat) (env : WorkEnv) :
    List (Uuid × List SourceExcerpt) :=
  match s.workers w with
  | .retrieving run => s.retrieved ++ [(run.id, env.excerpts)]
  | _ => s.retrieved

/-- The worker's next statement is written. -/
def System.write (deps : Deps) (s : System) (w : Nat) (env : WorkEnv) : System :=
  { s with
    db := (workStep deps s.db env (s.workers w)).1
    retrieved := s.retrievedAfter w env }

def step (deps : Deps) (s : System) : Label → System
  | .request id trigger requestedAt =>
    match s.db.runs.insert (queuedRun id trigger requestedAt) with
    | none => s
    | some runs => { s with db := { s.db with runs } }
  | .claim w now locked =>
    match s.workers w, claimNextRun deps s.db now locked with
    | .idle, (db, some run) => { s with db }.setWorker w (.deleting run)
    | _, _ => s
  | .work w env =>
    (s.write deps w env).setWorker w (workStep deps s.db env (s.workers w)).2
  | .fails w error => s.setWorker w ((s.workers w).thrown error)
  | .unreported w env error =>
    (s.write deps w env).setWorker w ((s.workers w).thrown error)
  | .crash w => s.setWorker w .idle

/-- No run requested yet. -/
def System.init : System where
  db := { runs := .empty, citations := .empty }
  workers := fun _ => .idle
  retrieved := []

end MortgageAgent.Policy.Research
