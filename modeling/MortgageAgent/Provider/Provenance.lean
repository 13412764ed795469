import MortgageAgent.Provider.Fetch
import MortgageAgent.Workflow.Case

/-!
# When evidence was observed

A fetch activity dispatches its request and stamps the evidence it records with its own clock. The
finding it records may be one that its provider has just returned, or one that an earlier dispatch
of the same operation stored.

* **`EvidenceActivity`** — the five activities: what each asks for, and what it records.
* **`ProvenanceSystem`** / **`ProvenanceLabel`** / **`provenanceStep`** — the fetches, each in a
  process with a clock, and the history: the receipt that each finding came from. No step of a
  fetch reads the history.
* **`evidence_recorded`** — the facts noted in the history are those that reach the table.
-/

namespace MortgageAgent.Provider

open Runs

/-! ## The activities -/

inductive EvidenceActivity where
  | fetchIncomeEvidence
  | fetchCreditEvidence
  | fetchDocumentEvidence
  | fetchAssetEvidence
  | fetchIdentityEvidence
  deriving DecidableEq, Repr

def EvidenceActivity.capability : EvidenceActivity → ProviderCapability
  | .fetchIncomeEvidence => .INCOME
  | .fetchCreditEvidence => .CREDIT
  | .fetchDocumentEvidence => .DOCUMENT
  | .fetchAssetEvidence => .ASSET
  | .fetchIdentityEvidence => .IDENTITY

def EvidenceActivity.factType : EvidenceActivity → Workflow.EvidenceType
  | .fetchIncomeEvidence => .INCOME
  | .fetchCreditEvidence => .CREDIT
  | .fetchDocumentEvidence => .DOCUMENT
  | .fetchAssetEvidence => .ASSET
  | .fetchIdentityEvidence => .IDENTITY

def EvidenceActivity.sourceIdentifier : EvidenceActivity → String
  | .fetchIncomeEvidence => "plaid-simulator"
  | .fetchCreditEvidence => "credit-bureau-simulator"
  | .fetchDocumentEvidence => "document-verification-simulator"
  | .fetchAssetEvidence => "asset-verification-simulator"
  | .fetchIdentityEvidence => "identity-verification-simulator"

/-- One execution of an activity: its arguments, and when it called `dispatchProviderRequest`. -/
structure Execution where
  activity : EvidenceActivity
  tenantId : Uuid
  caseId : Uuid
  borrowerId : String
  dispatchedAt : Instant

def Execution.params (e : Execution) : DispatchProviderRequestParams where
  tenantId := e.tenantId
  caseId := e.caseId
  borrowerSubjectId := e.borrowerId
  capability := e.activity.capability
  request := .obj [("borrowerId", .str e.borrowerId)]
  purposeCode := "UNDERWRITING_EVIDENCE"
  permittedDataClasses := [e.activity.capability.text]

/-- `recordEvidence`, with what the dispatch has returned. -/
def Execution.recordEvidence (e : Execution) (value : Json) (env : Env) :
    Workflow.EvidenceFact where
  id := env.newId
  tenantId := e.tenantId
  caseId := e.caseId
  factType := e.activity.factType
  sourceIdentifier := e.activity.sourceIdentifier
  value
  -- `new Date()`, not the time of the receipt: the dispatch returns the finding alone.
  observedAt := env.processNow

/-- The columns that a disposition reads. -/
def storedFact (fact : Workflow.EvidenceFact) : EvidenceFact where
  id := fact.id
  tenantId := fact.tenantId
  caseId := fact.caseId
  value := fact.value

/-! ## The system -/

/-- The receipt that a finding came from, and whether the finding was replayed. -/
structure FindingSource where
  receipt : SynchronousProviderReceipt
  replayed : Bool

/-- A fact that an execution has recorded. -/
structure Recording where
  fact : Workflow.EvidenceFact
  execution : Execution
  recordedAt : Instant
  source : Option FindingSource

structure ProvenanceSystem where
  fetches : FetchSystem
  executions : Nat → Option Execution
  /-- the clock of the process that each execution runs in -/
  clock : Nat → Instant
  /-- history: the receipt behind the finding of an execution -/
  source : Nat → Option FindingSource
  /-- history: the receipt behind the finding that an intent stores -/
  stored : Uuid → Option SynchronousProviderReceipt
  /-- history: what the executions have recorded -/
  recordings : List Recording

inductive ProvenanceLabel where
  /-- time passes in the process of an execution -/
  | elapse (d : Nat) (ms : Nat)
  | startFetch (d : Nat) (activity : EvidenceActivity) (tenantId caseId : Uuid)
      (borrowerId : String)
  | fetch (a : FetchLabel)

namespace ProvenanceSystem

def db (s : ProvenanceSystem) : Db := s.fetches.platform.db

def dispatch (s : ProvenanceSystem) (d : Nat) : DispatchState := s.fetches.platform.dispatches d

/-- Whatever an execution does it does at the time of its own process. -/
def timed (s : ProvenanceSystem) : FetchLabel → FetchLabel
  | .platform (.dispatch d env) => .platform (.dispatch d { env with processNow := s.clock d })
  | .platform (.submitReturns d env outcome) =>
    .platform (.submitReturns d { env with processNow := s.clock d } outcome)
  | .recordEvidence d env => .recordEvidence d { env with processNow := s.clock d }
  | a => a

/-- The row that a dispatch reads as settled, and whose finding it may replay. -/
def reads (s : ProvenanceSystem) (deps : Deps) (d : Nat) : Option ProviderOperationIntent :=
  match s.dispatch d with
  | .prepareRead p adapter _ grantId =>
    match prepareRead deps s.db (.ofParams p adapter grantId) with
    | .ok (.reuse existing) => some existing
    | _ => none
  | _ => none

def nextSource (s : ProvenanceSystem) (deps : Deps) : FetchLabel → Nat → Option FindingSource
  | .platform (.submitReturns d _ (.receipt receipt)) =>
    match s.dispatch d with
    | .awaiting _ _ _ _ =>
      Function.update s.source d (some { receipt, replayed := false })
    | _ => s.source
  | .platform (.dispatch d _) =>
    match s.reads deps d with
    | some existing =>
      Function.update s.source d
        ((s.stored existing.id).map fun receipt => { receipt, replayed := true })
    | none => s.source
  | _ => s.source

def nextStored (s : ProvenanceSystem) (deps : Deps) :
    FetchLabel → Uuid → Option SynchronousProviderReceipt
  | .platform (.dispatch d env) =>
    match s.dispatch d with
    | .markSucceeded intent receipt finding =>
      if (markSucceeded deps s.db env intent.tenantId intent.id receipt finding).isOk then
        Function.update s.stored intent.id (some receipt)
      else s.stored
    | _ => s.stored
  | _ => s.stored

/-- The fact that the evidence transaction of an execution inserts, if it commits. -/
def recordedFact (s : ProvenanceSystem) (d : Nat) (env : Env) :
    Option (Execution × Workflow.EvidenceFact) :=
  match s.executions d, s.dispatch d with
  | some e, .finished (.ok finding) =>
    let fact := e.recordEvidence finding env
    if s.fetches.recorded d then none
    else (s.db.evidence.insert (storedFact fact)).map fun _ => (e, fact)
  | _, _ => none

def newRecording (s : ProvenanceSystem) : FetchLabel → Option Recording
  | .recordEvidence d env =>
    (s.recordedFact d env).map fun (execution, fact) =>
      { fact, execution, recordedAt := s.clock d, source := s.source d }
  | _ => none

/-- A step of the fetches, and what it adds to the history. -/
def step (deps : Deps) (s : ProvenanceSystem) (a : FetchLabel) : ProvenanceSystem :=
  { s with
    fetches := fetchStep deps s.fetches a
    source := s.nextSource deps a
    stored := s.nextStored deps a
    recordings := s.recordings ++ (s.newRecording a).toList }

def startFetch (deps : Deps) (s : ProvenanceSystem) (d : Nat) (e : Execution) :
    ProvenanceSystem :=
  match s.dispatch d with
  | .idle =>
    { s with
      fetches := fetchStep deps s.fetches (.platform (.startDispatch d e.params))
      executions := Function.update s.executions d (some e) }
  | _ => s

/-- No execution yet; the clocks show whatever they show. -/
def init (db : Db) (clock : Nat → Instant) : ProvenanceSystem where
  fetches := .init db
  executions := fun _ => none
  clock
  source := fun _ => none
  stored := fun _ => none
  recordings := []

end ProvenanceSystem

def provenanceStep (deps : Deps) (s : ProvenanceSystem) : ProvenanceLabel → ProvenanceSystem
  | .elapse d ms => { s with clock := Function.update s.clock d (s.clock d + (ms : Int)) }
  | .startFetch d activity tenantId caseId borrowerId =>
    s.startFetch deps d
      { activity, tenantId, caseId, borrowerId, dispatchedAt := s.clock d }
  -- nothing but the activities dispatches.
  | .fetch (.platform (.startDispatch _ _)) => s
  | .fetch a => s.step deps (s.timed a)

theorem recordedFact_of_finished {s : ProvenanceSystem} {d : Nat} {e : Execution} {finding : Json}
    (he : s.executions d = some e) (hd : s.dispatch d = .finished (.ok finding)) (env : Env) :
    s.recordedFact d env = if s.fetches.recorded d then none
      else (s.db.evidence.insert (storedFact (e.recordEvidence finding env))).map
        fun _ => (e, e.recordEvidence finding env) := by
  rw [ProvenanceSystem.recordedFact, he, hd]

theorem recordedFact_inv {s : ProvenanceSystem} {d : Nat} {env : Env}
    {r : Execution × Workflow.EvidenceFact} (h : s.recordedFact d env = some r) :
    ∃ e finding, s.executions d = some e ∧ s.dispatch d = .finished (.ok finding)
      ∧ r = (e, e.recordEvidence finding env) := by
  unfold ProvenanceSystem.recordedFact at h
  split at h
  · next e finding he hd =>
    refine ⟨e, finding, he, hd, ?_⟩
    split at h
    · cases h
    · obtain ⟨-, -, heq⟩ := Option.map_eq_some_iff.mp h
      exact heq.symm
  · cases h

/-- **What is recorded is stored.** The evidence table gains the fact of the recording, if any. -/
theorem evidence_recorded (deps : Deps) {s : ProvenanceSystem} {d : Nat} (env : Env)
    (hrequest : s.fetches.requests d = (s.executions d).map Execution.params) :
    (s.step deps (.recordEvidence d env)).db.evidence.rows = s.db.evidence.rows
      ++ ((s.newRecording (.recordEvidence d env)).map fun r => storedFact r.fact).toList := by
  have hnew : (s.newRecording (.recordEvidence d env)).map (fun r => storedFact r.fact)
      = (s.recordedFact d env).map fun r => storedFact r.2 := by
    rw [ProvenanceSystem.newRecording, Option.map_map]
    rfl
  rw [hnew]
  show (s.fetches.recordEvidence d env).platform.db.evidence.rows = _
  unfold FetchSystem.recordEvidence
  split
  · next p finding hp hfinished =>
    rw [hp] at hrequest
    obtain ⟨e, he, rfl⟩ := Option.map_eq_some_iff.mp hrequest.symm
    rw [recordedFact_of_finished he hfinished]
    split
    · simp [ProvenanceSystem.db]
    · -- both insert the same row
      have hfact : storedFact (e.recordEvidence finding env)
          = ⟨env.newId, e.params.tenantId, e.params.caseId, finding⟩ := rfl
      rw [hfact]
      dsimp only [ProvenanceSystem.db]
      split
      · next hinsert =>
        rw [hinsert]
        simp
      · next evidence hinsert =>
        rw [hinsert, Table.rows_of_insert hinsert]
        simp [hfact]
  · next hother =>
    cases hfact : s.recordedFact d env with
    | none => simp [ProvenanceSystem.db]
    | some r =>
      obtain ⟨e, finding, he, hd, -⟩ := recordedFact_inv hfact
      rw [he] at hrequest
      exact (hother e.params finding hrequest hd).elim

end MortgageAgent.Provider
