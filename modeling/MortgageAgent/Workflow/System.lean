import MortgageAgent.Lib.Run
import MortgageAgent.Workflow.Activities

/-!
# The case workflow

`caseConditionsWorkflow` as a machine: the point its code has reached is the activity it has
called or the signal it waits for. Temporal attempts an activity up to three times; an attempt may
be stopped between any two of its transactions, and after the third failure the exception goes to
the workflow's code. An attempt that Temporal gives up on (it timed out, or its run was cancelled
or closed) may still be running, and then goes on beside its successors. At most one execution of
a case's workflow is open; a new one may be started whenever none is, and recovered from one that
was cancelled, failed, timed out or was terminated.

The five evidence activities run side by side. They write no case and no condition, so the
machine only has what each records, and may have it late, after the workflow has given up on the
collection.
-/

namespace MortgageAgent.Workflow

/-- Where the workflow's code stands. -/
inductive Point where
  | prepareWorkflowRecovery (recoveryOfRunId : String)
  | markCollectingEvidence
  | fetchEvidence (pending : List EvidenceType)
  | evaluateConditions
  | markWaitingForReview (reason : String)
  | awaitResume
  | markManualReview (reason : String)
  | awaitResolution (conditionId : Uuid)
  | resolveCondition (conditionId : Uuid) (resolution : ResolveConditionSignalPayload)
  | markReadyForUnderwriting
  | markWorkflowCancelled
  deriving DecidableEq

/-- The status Temporal closes an execution with. -/
inductive CloseStatus where
  | COMPLETED
  | FAILED
  | CANCELLED
  | TIMED_OUT
  | TERMINATED
  deriving DecidableEq, Repr

/-- What the code does once an activity has answered. -/
inductive Next where
  | goto (point : Point)
  | close (status : CloseStatus)
  deriving DecidableEq

def allEvidence : List EvidenceType := [.INCOME, .CREDIT, .DOCUMENT, .ASSET, .IDENTITY]

def afterRecovery : PrepareWorkflowRecoveryResult → Next
  | .REUSE_OPEN_CONDITION conditionId => .goto (.awaitResolution conditionId)
  | .REVIEW_REQUIRED reviewReason => .goto (.markManualReview reviewReason)
  | .RESTART_COLLECTION => .goto .markCollectingEvidence

def afterEvaluation : EvaluateConditionsResult → Next
  | .CONDITION_OPENED conditionId => .goto (.awaitResolution conditionId)
  | .READY => .close .COMPLETED
  | .REVIEW_REQUIRED reviewReason => .goto (.markManualReview reviewReason)
  | .INTERRUPTED reviewReason => .goto (.markWaitingForReview reviewReason)

/-- The activity called at a point, with what the code makes of its answer. -/
def activityAt (deps : RuntimeDeps) (ref : CaseRef) (runId : String) : Point → Option (Act Next)
  | .prepareWorkflowRecovery recoveryOfRunId =>
    some do return afterRecovery (← prepareWorkflowRecovery ref recoveryOfRunId)
  | .markCollectingEvidence => some do
    markCollectingEvidence ref
    return .goto (.fetchEvidence allEvidence)
  | .evaluateConditions => some do return afterEvaluation (← evaluateConditions deps ref runId)
  | .markWaitingForReview reason => some do
    markWaitingForReview ref reason
    return .goto .awaitResume
  | .markManualReview reason => some do
    markManualReview ref reason
    return .close .COMPLETED
  | .resolveCondition conditionId resolution => some do
    resolveCondition ref conditionId resolution
    return .goto .markReadyForUnderwriting
  | .markReadyForUnderwriting => some do
    markReadyForUnderwriting ref
    return .close .COMPLETED
  | .markWorkflowCancelled => some do
    markWorkflowCancelled ref
    return .close .CANCELLED
  | .fetchEvidence _ | .awaitResume | .awaitResolution _ => none

/-- `String(error)` of an activity that has no attempts left. -/
def activityFailureText : String := "ActivityFailure: Activity task failed"

/-- Only the evaluation's failure is caught; the evidence activities' is a label of its own. -/
def onActivityFailure : Point → Next
  | .evaluateConditions => .goto (.markManualReview activityFailureText)
  | _ => .close .FAILED

/-- An open execution: its run, the point, the attempt under way and the attempts that failed at
this point, and the two variables the signal handlers set. -/
structure Execution where
  runId : String
  point : Point
  attempt : Option (Act Next) := none
  failures : Nat := 0
  resolution : Option ResolveConditionSignalPayload := none
  interruptResolution : Option String := none

/-- The code calls the next activity or waits; a new interrupt clears the signal of the last. -/
def Execution.enter (e : Execution) (point : Point) : Execution :=
  { e with
    point
    attempt := none
    failures := 0
    interruptResolution :=
      match point with
      | .markWaitingForReview _ => none
      | _ => e.interruptResolution }

structure CaseSystem where
  db : Db
  execution : Option Execution := none
  /-- the latest closed run -/
  lastRun : Option (String × CloseStatus) := none
  /-- attempts that Temporal has given up on -/
  abandoned : List (Act Next) := []

def MAXIMUM_ATTEMPTS : Nat := 3

def RECOVERABLE_WORKFLOW_STATUSES : List CloseStatus :=
  [.CANCELLED, .FAILED, .TIMED_OUT, .TERMINATED]

inductive WorkflowLabel where
  | startWorkflow (runId : String)
  | recoverWorkflow (runId newRunId : String)
  | cancelWorkflow
  /-- Temporal times the execution out, or an operator terminates it -/
  | closeRun (status : CloseStatus)
  /-- a worker takes up the activity the code has called -/
  | schedule
  | move (m : Proc.Move Input Failure)
  /-- the attempt under way has taken too long -/
  | timeout
  /-- the `n`-th abandoned attempt goes on -/
  | late (n : Nat) (m : Proc.Move Input Failure)
  /-- an evidence activity records what its provider answered -/
  | evidence (fact : EvidenceFact)
  | evidenceFailed (reason : String)
  | resolveConditionSignal (payload : ResolveConditionSignalPayload)
  | resumeSignal (actorId : String)
  /-- the signal the code waits for has arrived -/
  | wake
  | escalate (reason : String) (expectedCaseVersion : Nat)

def CaseSystem.withExecution (s : CaseSystem) (e : Execution) : CaseSystem :=
  { s with execution := some e }

def CaseSystem.close (s : CaseSystem) (e : Execution) (status : CloseStatus) : CaseSystem :=
  { s with execution := none, lastRun := some (e.runId, status) }

def CaseSystem.proceed (s : CaseSystem) (e : Execution) : Next → CaseSystem
  | .goto point => s.withExecution (e.enter point)
  | .close status => s.close e status

/-- Nobody waits for the attempt under way any more. -/
def CaseSystem.abandon (s : CaseSystem) (e : Execution) : CaseSystem :=
  { s with abandoned := s.abandoned ++ e.attempt.toList }

/-- The activity is attempted again, or the exception goes to the code. -/
def CaseSystem.attemptFailed (s : CaseSystem) (e : Execution) : CaseSystem :=
  if e.failures + 1 < MAXIMUM_ATTEMPTS then
    s.withExecution { e with attempt := none, failures := e.failures + 1 }
  else s.proceed e (onActivityFailure e.point)

/-- The attempt has come to `p`: it goes on, it has answered, or it has failed. -/
def CaseSystem.attempted (s : CaseSystem) (e : Execution) : Act Next → CaseSystem
  | .done next => s.proceed e next
  | .fail _ => s.attemptFailed e
  | p => s.withExecution { e with attempt := some p }

/-- The collection goes on until each of the five activities has recorded its fact. -/
def Execution.collected (e : Execution) (factType : EvidenceType) : Execution :=
  match e.point with
  | .fetchEvidence pending =>
    match pending.erase factType with
    | [] => e.enter .evaluateConditions
    | rest => { e with point := .fetchEvidence rest }
  | _ => e

section

variable (s : CaseSystem) (e : Execution)

@[simp] theorem proceed_db (next : Next) : (s.proceed e next).db = s.db := by
  cases next <;> rfl

@[simp] theorem attemptFailed_db : (s.attemptFailed e).db = s.db := by
  unfold CaseSystem.attemptFailed
  split
  · rfl
  · exact proceed_db s e _

@[simp] theorem attempted_db (p : Act Next) : (s.attempted e p).db = s.db := by
  cases p with
  | done next => exact proceed_db s e next
  | fail failure => exact attemptFailed_db s e
  | step write next handler => rfl

/-- What is collected starts no attempt. -/
theorem collected_attempt {e : Execution} {factType : EvidenceType} {p : Act Next}
    (h : (e.collected factType).attempt = some p) : e.attempt = some p := by
  unfold Execution.collected at h
  split at h
  · split at h
    · cases h
    · exact h
  · exact h

end

def workflowStep (deps : RuntimeDeps) (ref : CaseRef) (s : CaseSystem) :
    WorkflowLabel → CaseSystem
  | .startWorkflow runId =>
    match s.execution with
    | some _ => s
    | none => s.withExecution { runId, point := .markCollectingEvidence }
  | .recoverWorkflow runId newRunId =>
    match s.execution, s.lastRun, s.db.findCase ref with
    | none, some (lastRunId, status), some c =>
      if c.status ≠ .READY_FOR_UNDERWRITING ∧ c.status ≠ .CLOSED ∧ lastRunId = runId
          ∧ status ∈ RECOVERABLE_WORKFLOW_STATUSES then
        s.withExecution { runId := newRunId, point := .prepareWorkflowRecovery runId }
      else s
    | _, _, _ => s
  | .cancelWorkflow =>
    match s.execution with
    | some e => (s.abandon e).withExecution (e.enter .markWorkflowCancelled)
    | none => s
  | .closeRun status =>
    match s.execution with
    | some e => (s.abandon e).close e status
    | none => s
  | .schedule =>
    match s.execution with
    | some e =>
      match e.attempt, activityAt deps ref e.runId e.point with
      | none, some p => s.withExecution { e with attempt := some p }
      | _, _ => s
    | none => s
  | .move m =>
    match s.execution with
    | some e =>
      match e.attempt with
      | some p =>
        let (db, p') := p.move s.db m
        { s with db }.attempted e p'
      | none => s
    | none => s
  | .timeout =>
    match s.execution with
    | some e =>
      match e.attempt with
      | some _ => (s.abandon e).attemptFailed e
      | none => s
    | none => s
  | .late n m =>
    match s.abandoned[n]? with
    | some p =>
      let (db, p') := p.move s.db m
      { s with db, abandoned := s.abandoned.set n p' }
    | none => s
  | .evidence fact =>
    let fact := { fact with tenantId := ref.tenantId, caseId := ref.caseId }
    { s with
      db := recordEvidence s.db ref fact
      execution := s.execution.map fun e => e.collected fact.factType }
  | .evidenceFailed reason =>
    match s.execution with
    | some e =>
      match e.point with
      | .fetchEvidence _ => s.withExecution (e.enter (.markManualReview reason))
      | _ => s
    | none => s
  | .resolveConditionSignal payload =>
    { s with execution := s.execution.map fun e => { e with resolution := some payload } }
  | .resumeSignal actorId =>
    { s with execution := s.execution.map fun e => { e with interruptResolution := some actorId } }
  | .wake =>
    match s.execution with
    | some e =>
      match e.point, e.resolution, e.interruptResolution with
      | .awaitResolution conditionId, some payload, _ =>
        s.withExecution (e.enter (.resolveCondition conditionId payload))
      | .awaitResume, _, some _ =>
        s.withExecution { e.enter .evaluateConditions with interruptResolution := none }
      | _, _, _ => s
    | none => s
  | .escalate reason expectedCaseVersion =>
    { s with db := escalateToReviewer s.db ref reason expectedCaseVersion }

/-! ## What a step can do -/

/-- The branches of `workflowStep`, each with what it has found. A label that does not apply where
the workflow stands leaves it there. -/
inductive WorkflowCase (deps : RuntimeDeps) (ref : CaseRef) (s : CaseSystem) :
    WorkflowLabel → CaseSystem → Prop
  | stays (a : WorkflowLabel) : WorkflowCase deps ref s a s
  | started (runId : String) (hnone : s.execution = none) :
    WorkflowCase deps ref s (.startWorkflow runId)
      (s.withExecution { runId, point := .markCollectingEvidence })
  | recovered (runId newRunId : String) (hnone : s.execution = none) :
    WorkflowCase deps ref s (.recoverWorkflow runId newRunId)
      (s.withExecution { runId := newRunId, point := .prepareWorkflowRecovery runId })
  | cancelled (e : Execution) (he : s.execution = some e) :
    WorkflowCase deps ref s .cancelWorkflow
      ((s.abandon e).withExecution (e.enter .markWorkflowCancelled))
  | closed (e : Execution) (he : s.execution = some e) (status : CloseStatus) :
    WorkflowCase deps ref s (.closeRun status) ((s.abandon e).close e status)
  | scheduled (e : Execution) (he : s.execution = some e) (p : Act Next)
      (hidle : e.attempt = none) (hactivity : activityAt deps ref e.runId e.point = some p) :
    WorkflowCase deps ref s .schedule (s.withExecution { e with attempt := some p })
  | moved (e : Execution) (he : s.execution = some e) (p : Act Next) (hp : e.attempt = some p)
      (m : Proc.Move Input Failure) :
    WorkflowCase deps ref s (.move m)
      ({ s with db := (p.move s.db m).1 }.attempted e (p.move s.db m).2)
  | timedOut (e : Execution) (he : s.execution = some e) (p : Act Next)
      (hp : e.attempt = some p) :
    WorkflowCase deps ref s .timeout ((s.abandon e).attemptFailed e)
  | wentOn (n : Nat) (m : Proc.Move Input Failure) (p : Act Next)
      (hp : s.abandoned[n]? = some p) :
    WorkflowCase deps ref s (.late n m)
      { s with db := (p.move s.db m).1, abandoned := s.abandoned.set n (p.move s.db m).2 }
  | evidence (fact : EvidenceFact) :
    WorkflowCase deps ref s (.evidence fact)
      { s with
        db := recordEvidence s.db ref
          { fact with tenantId := ref.tenantId, caseId := ref.caseId }
        execution := s.execution.map fun e => e.collected fact.factType }
  | evidenceFailed (e : Execution) (he : s.execution = some e) (pending : List EvidenceType)
      (hpoint : e.point = .fetchEvidence pending) (reason : String) :
    WorkflowCase deps ref s (.evidenceFailed reason)
      (s.withExecution (e.enter (.markManualReview reason)))
  | resolutionSignalled (payload : ResolveConditionSignalPayload) :
    WorkflowCase deps ref s (.resolveConditionSignal payload)
      { s with execution := s.execution.map fun e => { e with resolution := some payload } }
  | resumeSignalled (actorId : String) :
    WorkflowCase deps ref s (.resumeSignal actorId)
      { s with
        execution := s.execution.map fun e => { e with interruptResolution := some actorId } }
  | resolved (e : Execution) (he : s.execution = some e) (conditionId : Uuid)
      (payload : ResolveConditionSignalPayload) (hpoint : e.point = .awaitResolution conditionId)
      (hkept : e.resolution = some payload) :
    WorkflowCase deps ref s .wake
      (s.withExecution (e.enter (.resolveCondition conditionId payload)))
  | resumed (e : Execution) (he : s.execution = some e) (hpoint : e.point = .awaitResume) :
    WorkflowCase deps ref s .wake
      (s.withExecution { e.enter .evaluateConditions with interruptResolution := none })
  | escalated (reason : String) (expectedCaseVersion : Nat) :
    WorkflowCase deps ref s (.escalate reason expectedCaseVersion)
      { s with db := escalateToReviewer s.db ref reason expectedCaseVersion }

/-- **Every step of the workflow is one of the cases.** -/
theorem workflowStep_case (deps : RuntimeDeps) (ref : CaseRef) (s : CaseSystem)
    (a : WorkflowLabel) : WorkflowCase deps ref s a (workflowStep deps ref s a) := by
  cases a with
  | startWorkflow runId =>
    dsimp only [workflowStep]
    split
    · exact .stays _
    · next hnone => exact .started runId hnone
  | recoverWorkflow runId newRunId =>
    dsimp only [workflowStep]
    split
    · next hnone _ _ =>
      split
      · exact .recovered runId newRunId hnone
      · exact .stays _
    · exact .stays _
  | cancelWorkflow =>
    dsimp only [workflowStep]
    split
    · next e he => exact .cancelled e he
    · exact .stays _
  | closeRun status =>
    dsimp only [workflowStep]
    split
    · next e he => exact .closed e he status
    · exact .stays _
  | schedule =>
    dsimp only [workflowStep]
    split
    · next e he =>
      split
      · next p hidle hactivity => exact .scheduled e he p hidle hactivity
      · exact .stays _
    · exact .stays _
  | move m =>
    dsimp only [workflowStep]
    split
    · next e he =>
      split
      · next p hp => exact .moved e he p hp m
      · exact .stays _
    · exact .stays _
  | timeout =>
    dsimp only [workflowStep]
    split
    · next e he =>
      split
      · next p hp => exact .timedOut e he p hp
      · exact .stays _
    · exact .stays _
  | late n m =>
    dsimp only [workflowStep]
    split
    · next p hp => exact .wentOn n m p hp
    · exact .stays _
  | evidence fact => exact .evidence fact
  | evidenceFailed reason =>
    dsimp only [workflowStep]
    split
    · next e he =>
      split
      · next pending hpoint => exact .evidenceFailed e he pending hpoint reason
      · exact .stays _
    · exact .stays _
  | resolveConditionSignal payload => exact .resolutionSignalled payload
  | resumeSignal actorId => exact .resumeSignalled actorId
  | wake =>
    dsimp only [workflowStep]
    split
    · next e he =>
      split
      · next conditionId payload hpoint hkept =>
        exact .resolved e he conditionId payload hpoint hkept
      · next hpoint _ => exact .resumed e he hpoint
      · exact .stays _
    · exact .stays _
  | escalate reason expectedCaseVersion => exact .escalated reason expectedCaseVersion

end MortgageAgent.Workflow
