import MortgageAgent.Lib.Run
import MortgageAgent.Provider.Dispatch
import MortgageAgent.Provider.Disposition

/-!
# Interleaved dispatches, sweeps, resolutions and dispositions

Any number of dispatches, reconciliation sweeps and disposition reviews run at once over one
database, together with operators and borrowers who change consents, decisions, holds and
switches between any two of their steps. A label names who moves; a label that is not enabled
changes nothing. A process may crash at any point, its transaction may fail at any point, and
`submit` may do anything.

* **`System`** / **`Label`** / **`step`** — the rows, every process's position, and the history.
* **`System.init`** — no intent, no process; any other rows.
* **`StepWrites`** / **`step_writes`** — the rows that a step may leave.
-/

namespace MortgageAgent.Provider

open Runs

/-- Where a `DataDispositionService.resolve` call stands. -/
inductive ResolveState where
  | idle
  | readHold (tenantId : Uuid) (task : DataDispositionTask)
      (action : DataDispositionResolutionAction) (actorId : String)
  | finish (tenantId : Uuid) (task : DataDispositionTask)
      (action : DataDispositionResolutionAction) (actorId : String)
  | finished (result : Except ProviderFailure Unit)

structure System where
  db : Db
  dispatches : Nat → DispatchState
  /-- the stale intents a sweep has still to move -/
  sweeps : Nat → List (Uuid × Uuid)
  resolves : Nat → ResolveState
  log : List Event

inductive Label where
  | startDispatch (d : Nat) (p : DispatchProviderRequestParams)
  | dispatch (d : Nat) (env : Env)
  | submitReturns (d : Nat) (env : Env) (outcome : SubmitOutcome)
  | storeFails (d : Nat)
  | crash (d : Nat)
  | startSweep (w : Nat) (now : Instant) (staleAfterMs : Int)
  | sweep (w : Nat) (env : Env)
  /-- moving the next stale intent fails; the sweep logs it and goes on -/
  | sweepFails (w : Nat)
  | resolveManually (env : Env) (tenantId id : Uuid) (outcome : ManualOutcome)
      (resolvedBy resolutionNote : String)
  | startResolve (w : Nat) (tenantId taskId : Uuid) (action : DataDispositionResolutionAction)
      (actorId : String)
  | resolve (w : Nat) (env : Env)
  /-- the transaction of a `resolve` fails, or its process dies -/
  | resolveFails (w : Nat)
  | grantConsent (record : ConsentRecord)
  | revokeConsent (env : Env) (tenantId caseId : Uuid) (reason : Option String)
  | decidePurpose (decision : PermissiblePurposeDecision)
  | setAdapterStatus (status : ProviderAdapterStatus)
  | setActivation (activation : ProviderActivation)
  | placeHold (hold : LegalHold)
  | releaseHold (env : Env) (tenantId legalHoldId : Uuid) (releasedBy : String)
  | recordEvidence (fact : EvidenceFact)

def System.setDispatch (s : System) (d : Nat) (state : DispatchState) : System :=
  { s with dispatches := Function.update s.dispatches d state }

/-- A transaction that fails changes nothing. -/
def System.tryDb (s : System) (result : Except ProviderFailure Db) : System :=
  match result with
  | .ok db => { s with db }
  | .error _ => s

/-- The next intent of a sweep; a failed transition is logged and skipped. -/
def System.sweep (s : System) (w : Nat) (env : Env) : System :=
  match s.sweeps w with
  | [] => s
  | (tenantId, id) :: rest =>
    { s.tryDb (markReconciling s.db env tenantId id) with
      sweeps := Function.update s.sweeps w rest }

def System.setResolve (s : System) (w : Nat) (state : ResolveState) : System :=
  { s with resolves := Function.update s.resolves w state }

def System.resolve (s : System) (deps : Deps) (w : Nat) (env : Env) : System :=
  match s.resolves w with
  | .readHold tenantId task action actorId =>
    match resolveCheckHold task action (hasActiveHold s.db tenantId task.caseId) with
    | .error e => s.setResolve w (.finished (.error e))
    | .ok _ => s.setResolve w (.finish tenantId task action actorId)
  | .finish tenantId task action actorId =>
    match resolveFinish deps s.db env tenantId task action actorId with
    | .error e => s.setResolve w (.finished (.error e))
    | .ok db => { s with db }.setResolve w (.finished (.ok ()))
  | _ => s

def step (deps : Deps) (s : System) : Label → System
  | .startDispatch d p =>
    match s.dispatches d with
    | .idle => s.setDispatch d (dispatchStart deps p)
    | _ => s
  | .dispatch d env =>
    let m := dispatchStep deps s.db env (s.dispatches d)
    { s with db := m.db, log := s.log ++ m.events }.setDispatch d m.state
  | .submitReturns d env outcome =>
    let (state, events) := dispatchReturn env outcome (s.dispatches d)
    { s with log := s.log ++ events }.setDispatch d state
  | .storeFails d => s.setDispatch d (dispatchStoreFails (s.dispatches d))
  | .crash d => s.setDispatch d .crashed
  | .startSweep w now staleAfterMs =>
    match s.sweeps w with
    | [] => { s with sweeps := Function.update s.sweeps w (staleIntents s.db now staleAfterMs) }
    | _ => s
  | .sweep w env => s.sweep w env
  | .sweepFails w => { s with sweeps := Function.update s.sweeps w (s.sweeps w).tail }
  | .resolveManually env tenantId id outcome resolvedBy resolutionNote =>
    s.tryDb (resolveManually s.db env tenantId id outcome resolvedBy resolutionNote)
  | .startResolve w tenantId taskId action actorId =>
    match s.resolves w with
    | .idle =>
      match resolveReadTask s.db tenantId taskId with
      | .error e => s.setResolve w (.finished (.error e))
      | .ok task => s.setResolve w (.readHold tenantId task action actorId)
    | _ => s
  | .resolve w env => s.resolve deps w env
  | .resolveFails w => s.setResolve w (.finished (.error .storeUnavailable))
  | .grantConsent record => s.tryDb (grantForCase s.db record)
  | .revokeConsent env tenantId caseId reason =>
    s.tryDb (revokeConsent s.db env tenantId caseId reason)
  | .decidePurpose decision =>
    { s with db := { s.db with decisions := upsert s.db.decisions decision } }
  | .setAdapterStatus status =>
    { s with db := { s.db with adapterStatus := upsert s.db.adapterStatus status } }
  | .setActivation activation =>
    { s with db := { s.db with activations := upsert s.db.activations activation } }
  | .placeHold hold => s.tryDb (placeHold s.db hold)
  | .releaseHold env tenantId legalHoldId releasedBy =>
    s.tryDb (releaseHold s.db env tenantId legalHoldId releasedBy)
  | .recordEvidence fact =>
    { s with db := { s.db with evidence := upsert s.db.evidence fact } }

/-- No intent and no process yet; the other rows are whatever they are. -/
def System.init (db : Db) : System where
  db := { db with intents := .empty }
  dispatches := fun _ => .idle
  sweeps := fun _ => []
  resolves := fun _ => .idle
  log := []

/-! ## What a step writes -/

/-- The rows a step leaves: those it found, or those of the one transaction it commits. -/
inductive StepWrites (deps : Deps) (s : System) : Label → Db → Prop where
  | nothing {a : Label} : StepWrites deps s a s.db
  | dispatch (d : Nat) (env : Env) :
      StepWrites deps s (.dispatch d env) (dispatchStep deps s.db env (s.dispatches d)).db
  | sweep {w : Nat} {env : Env} {tenantId id : Uuid} {db' : Db}
      (h : markReconciling s.db env tenantId id = .ok db') : StepWrites deps s (.sweep w env) db'
  | resolveManually {env : Env} {tenantId id : Uuid} {outcome : ManualOutcome}
      {resolvedBy resolutionNote : String} {db' : Db}
      (h : resolveManually s.db env tenantId id outcome resolvedBy resolutionNote = .ok db') :
      StepWrites deps s (.resolveManually env tenantId id outcome resolvedBy resolutionNote) db'
  | resolve {w : Nat} {env : Env} {tenantId : Uuid} {task : DataDispositionTask}
      {action : DataDispositionResolutionAction} {actorId : String} {db' : Db}
      (h : resolveFinish deps s.db env tenantId task action actorId = .ok db') :
      StepWrites deps s (.resolve w env) db'
  | grantConsent {record : ConsentRecord} {db' : Db} (h : grantForCase s.db record = .ok db') :
      StepWrites deps s (.grantConsent record) db'
  | revokeConsent {env : Env} {tenantId caseId : Uuid} {reason : Option String} {db' : Db}
      (h : revokeConsent s.db env tenantId caseId reason = .ok db') :
      StepWrites deps s (.revokeConsent env tenantId caseId reason) db'
  | decidePurpose (decision : PermissiblePurposeDecision) :
      StepWrites deps s (.decidePurpose decision)
        { s.db with decisions := upsert s.db.decisions decision }
  | setAdapterStatus (status : ProviderAdapterStatus) :
      StepWrites deps s (.setAdapterStatus status)
        { s.db with adapterStatus := upsert s.db.adapterStatus status }
  | setActivation (activation : ProviderActivation) :
      StepWrites deps s (.setActivation activation)
        { s.db with activations := upsert s.db.activations activation }
  | placeHold {hold : LegalHold} {db' : Db} (h : placeHold s.db hold = .ok db') :
      StepWrites deps s (.placeHold hold) db'
  | releaseHold {env : Env} {tenantId legalHoldId : Uuid} {releasedBy : String} {db' : Db}
      (h : releaseHold s.db env tenantId legalHoldId releasedBy = .ok db') :
      StepWrites deps s (.releaseHold env tenantId legalHoldId releasedBy) db'
  | recordEvidence (fact : EvidenceFact) :
      StepWrites deps s (.recordEvidence fact)
        { s.db with evidence := upsert s.db.evidence fact }

/-- A transaction that may fail writes what it writes when it commits. -/
theorem tryDb_writes {deps : Deps} {s : System} {a : Label} {result : Except ProviderFailure Db}
    (h : ∀ db', result = .ok db' → StepWrites deps s a db') :
    StepWrites deps s a (s.tryDb result).db := by
  cases result with
  | ok db' => exact h db' rfl
  | error e => exact .nothing

theorem step_writes (deps : Deps) (s : System) (a : Label) :
    StepWrites deps s a (step deps s a).db := by
  cases a with
  | startDispatch d p =>
    simp only [step]
    split <;> exact .nothing
  | dispatch d env => exact .dispatch d env
  | startSweep w now staleAfterMs =>
    simp only [step]
    split <;> exact .nothing
  | sweep w env =>
    simp only [step, System.sweep]
    split
    · exact .nothing
    · exact tryDb_writes fun db' h => .sweep h
  | resolveManually env tenantId id outcome resolvedBy resolutionNote =>
    exact tryDb_writes fun db' h => .resolveManually h
  | startResolve w tenantId taskId action actorId =>
    simp only [step]
    split
    · split <;> exact .nothing
    · exact .nothing
  -- the hold is checked first, and only the last transaction writes
  | resolve w env =>
    simp only [step, System.resolve]
    split
    · split <;> exact .nothing
    · split
      · exact .nothing
      · next h => exact .resolve h
    · exact .nothing
  | grantConsent record => exact tryDb_writes fun db' h => .grantConsent h
  | revokeConsent env tenantId caseId reason => exact tryDb_writes fun db' h => .revokeConsent h
  | decidePurpose decision => exact .decidePurpose decision
  | setAdapterStatus status => exact .setAdapterStatus status
  | setActivation activation => exact .setActivation activation
  | placeHold hold => exact tryDb_writes fun db' h => .placeHold h
  | releaseHold env tenantId legalHoldId releasedBy => exact tryDb_writes fun db' h => .releaseHold h
  | recordEvidence fact => exact .recordEvidence fact
  | _ => exact .nothing

end MortgageAgent.Provider
