import MortgageAgent.Lib.Settle
import MortgageAgent.Workflow.Readiness

/-!
# The workflow settles

What an execution does of its own accord ends. Its code goes from point to point, and only a resume
signal leads it back to the evaluation; at each point the activity is attempted three times at
most; and an attempt is a process, which ends. So without anyone starting, resuming or cancelling
it, an execution comes to be closed, or to wait for a signal that nobody has sent.

* **`Turn`** — what one step does to the open execution, the database left out.
* **`Execution.Sound`** — the attempt under way answers with a later point.
* **`attempts_bounded`** — every run has taken up no more attempts than its starts, recoveries,
  resume signals and cancellations pay for.
* **`never_stuck`** — an execution that does not wait for a signal can go on.
* **`workflow_settles`** — scheduled fairly, it is at rest from some point on.
-/

namespace MortgageAgent.Workflow

open Runs Proc

/-! ## What a step does to the execution -/

def Execution.proceed (e : Execution) : Next → Option Execution
  | .goto point => some (e.enter point)
  | .close _ => none

def Execution.attemptFailed (e : Execution) : Option Execution :=
  if e.failures + 1 < MAXIMUM_ATTEMPTS then
    some { e with attempt := none, failures := e.failures + 1 }
  else e.proceed (onActivityFailure e.point)

/-- The open execution before a step and after it. -/
inductive Turn (deps : RuntimeDeps) (ref : CaseRef) :
    WorkflowLabel → Option Execution → Option Execution → Prop
  | stays (a : WorkflowLabel) (x : Option Execution) : Turn deps ref a x x
  | started (runId : String) :
    Turn deps ref (.startWorkflow runId) none
      (some { runId, point := .markCollectingEvidence })
  | recovered (runId newRunId : String) :
    Turn deps ref (.recoverWorkflow runId newRunId) none
      (some { runId := newRunId, point := .prepareWorkflowRecovery runId })
  | cancelled (e : Execution) :
    Turn deps ref .cancelWorkflow (some e) (some (e.enter .markWorkflowCancelled))
  | closed (status : CloseStatus) (e : Execution) :
    Turn deps ref (.closeRun status) (some e) none
  | scheduled (e : Execution) (p : Act Next) (hidle : e.attempt = none)
      (hactivity : activityAt deps ref e.runId e.point = some p) :
    Turn deps ref .schedule (some e) (some { e with attempt := some p })
  | wentOn (m : Proc.Move Input Failure) (e : Execution) (p q : Act Next)
      (hp : e.attempt = some p) (hshorter : Shorter q p)
      (hends : ∀ post, p.Ends post → q.Ends post) :
    Turn deps ref (.move m) (some e) (some { e with attempt := some q })
  | answered (m : Proc.Move Input Failure) (e : Execution) (p : Act Next) (next : Next)
      (hp : e.attempt = some p) (hends : ∀ post, p.Ends post → post (.ok next)) :
    Turn deps ref (.move m) (some e) (e.proceed next)
  | threw (m : Proc.Move Input Failure) (e : Execution) (p : Act Next)
      (hp : e.attempt = some p) : Turn deps ref (.move m) (some e) e.attemptFailed
  | timedOut (e : Execution) (p : Act Next) (hp : e.attempt = some p) :
    Turn deps ref .timeout (some e) e.attemptFailed
  | collected (fact : EvidenceFact) (e : Execution) :
    Turn deps ref (.evidence fact) (some e) (some (e.collected fact.factType))
  | evidenceFailed (reason : String) (e : Execution) (pending : List EvidenceType)
      (hpoint : e.point = .fetchEvidence pending) :
    Turn deps ref (.evidenceFailed reason) (some e) (some (e.enter (.markManualReview reason)))
  | resolutionSignalled (payload : ResolveConditionSignalPayload) (e : Execution) :
    Turn deps ref (.resolveConditionSignal payload) (some e)
      (some { e with resolution := some payload })
  | resumeSignalled (actorId : String) (e : Execution) :
    Turn deps ref (.resumeSignal actorId) (some e)
      (some { e with interruptResolution := some actorId })
  | resolved (e : Execution) (conditionId : Uuid) (payload : ResolveConditionSignalPayload)
      (hpoint : e.point = .awaitResolution conditionId) :
    Turn deps ref .wake (some e) (some (e.enter (.resolveCondition conditionId payload)))
  | resumed (e : Execution) (actorId : String) (hpoint : e.point = .awaitResume)
      (hkept : e.interruptResolution = some actorId) :
    Turn deps ref .wake (some e)
      (some { e.enter .evaluateConditions with interruptResolution := none })

section

variable {deps : RuntimeDeps} {ref : CaseRef} (s : CaseSystem) (e : Execution)

theorem proceed_execution (next : Next) : (s.proceed e next).execution = e.proceed next := by
  cases next <;> rfl

theorem attemptFailed_execution : (s.attemptFailed e).execution = e.attemptFailed := by
  unfold CaseSystem.attemptFailed Execution.attemptFailed
  split
  · rfl
  · exact proceed_execution s e _

/-- What a move of the attempt under way comes to. -/
theorem attempted_turn {p : Act Next} (hp : e.attempt = some p) (db : Db)
    (m : Proc.Move Input Failure) :
    Turn deps ref (.move m) (some e) (s.attempted e (p.move db m).2).execution := by
  have hends : ∀ post, p.Ends post → (p.move db m).2.Ends post := fun _ h => h.move db m
  have hshorter := p.move_shorter db m
  generalize (p.move db m).2 = q at hends hshorter
  cases q with
  | done next =>
    show Turn deps ref (.move m) (some e) (s.proceed e next).execution
    rw [proceed_execution]
    exact .answered m e p next hp hends
  | fail failure =>
    show Turn deps ref (.move m) (some e) (s.attemptFailed e).execution
    rw [attemptFailed_execution]
    exact .threw m e p hp
  | step w k c => exact .wentOn m e p _ hp (hshorter trivial) hends

theorem wake_turn :
    Turn deps ref .wake s.execution (workflowStep deps ref s .wake).execution := by
  dsimp only [workflowStep]
  split
  · next e he =>
    rw [he]
    split
    · next conditionId payload hpoint _ => exact .resolved e conditionId payload hpoint
    · next actorId hpoint hkept => exact .resumed e actorId hpoint hkept
    · rw [he]
      exact .stays _ _
  · exact .stays _ _

theorem workflowStep_turn (a : WorkflowLabel) :
    Turn deps ref a s.execution (workflowStep deps ref s a).execution := by
  have hcase := workflowStep_case deps ref s a
  have hwake : Turn deps ref .wake s.execution (workflowStep deps ref s .wake).execution :=
    wake_turn s
  generalize hs' : workflowStep deps ref s a = s' at hcase
  cases hcase with
  | stays a => exact .stays a _
  | started runId hnone => rw [hnone]; exact .started runId
  | recovered runId newRunId hnone => rw [hnone]; exact .recovered runId newRunId
  | cancelled e he => rw [he]; exact .cancelled e
  | closed e he status => rw [he]; exact .closed status e
  | scheduled e he p hidle hactivity => rw [he]; exact .scheduled e p hidle hactivity
  | moved e he p hp m => rw [he]; exact attempted_turn _ e hp s.db m
  | timedOut e he p hp =>
    rw [he, attemptFailed_execution]
    exact .timedOut e p hp
  | wentOn n m p hp => exact .stays _ _
  | evidence fact =>
    cases he : s.execution with
    | none => simpa [he] using Turn.stays (.evidence fact) none
    | some e => simpa [he] using Turn.collected fact e
  | evidenceFailed e he pending hpoint reason =>
    rw [he]
    exact .evidenceFailed reason e pending hpoint
  | resolutionSignalled payload =>
    cases he : s.execution with
    | none => simpa [he] using Turn.stays (.resolveConditionSignal payload) none
    | some e => simpa [he] using Turn.resolutionSignalled payload e
  | resumeSignalled actorId =>
    cases he : s.execution with
    | none => simpa [he] using Turn.stays (.resumeSignal actorId) none
    | some e => simpa [he] using Turn.resumeSignalled actorId e
  | resolved e he conditionId payload hpoint hkept =>
    rw [he]
    exact .resolved e conditionId payload hpoint
  | resumed e he hpoint => rw [← hs']; exact hwake
  | escalated reason expectedCaseVersion => exact .stays _ _

end

/-! ## The points in order -/

/-- How many activities the code may still call, the one at the point included, before it closes
or waits for a resume signal. -/
def Point.activitiesLeft : Point → Nat
  | .prepareWorkflowRecovery _ => 5
  | .markCollectingEvidence => 4
  | .fetchEvidence _ | .evaluateConditions => 3
  | .awaitResolution _ | .resolveCondition .. => 2
  | .markWaitingForReview _ | .markManualReview _ | .markReadyForUnderwriting
  | .markWorkflowCancelled => 1
  | .awaitResume => 0

/-- How many answers the code waits for before it calls the next. -/
def Point.waits : Point → Nat
  | .fetchEvidence pending => pending.length + 1
  | .awaitResolution _ | .awaitResume => 1
  | _ => 0

def Next.After (next : Next) (point : Point) : Prop :=
  ∀ p, next = .goto p → p.activitiesLeft < point.activitiesLeft

theorem after_close (status : CloseStatus) (point : Point) : (Next.close status).After point := by
  intro p h
  cases h

theorem onActivityFailure_after (point : Point) : (onActivityFailure point).After point := by
  intro p h
  unfold onActivityFailure at h
  split at h
  · cases h
    decide
  · cases h

theorem afterRecovery_after (runId : String) (result : PrepareWorkflowRecoveryResult) :
    (afterRecovery result).After (.prepareWorkflowRecovery runId) := by
  intro p h
  cases result <;> (cases h; simp [Point.activitiesLeft])

theorem afterEvaluation_after (result : EvaluateConditionsResult) :
    (afterEvaluation result).After .evaluateConditions := by
  intro p h
  cases result <;> (cases h; try simp [Point.activitiesLeft])

/-- The activity's answer leads on. -/
theorem ends_then {α : Type} {f : α → Next} {point : Point} (p : Act α)
    (hf : ∀ a, (f a).After point) :
    (p.bind fun a => .done (f a)).Ends fun r => ∀ next, r = .ok next → next.After point := by
  refine (ends_trivial p).bind (fun a _ => ?_) (fun e _ => ?_)
  · intro next h
    cases h
    exact hf a
  · intro next h
    cases h

theorem activityAt_ends {deps : RuntimeDeps} {ref : CaseRef} {runId : String} {point : Point}
    {p : Act Next} (h : activityAt deps ref runId point = some p) :
    p.Ends fun r => ∀ next, r = .ok next → next.After point := by
  cases point with
  | prepareWorkflowRecovery recoveryOfRunId =>
    cases h
    exact ends_then _ (afterRecovery_after recoveryOfRunId)
  | evaluateConditions =>
    cases h
    exact ends_then _ afterEvaluation_after
  | markManualReview reason =>
    cases h
    exact ends_then _ fun _ => after_close _ _
  | markReadyForUnderwriting =>
    cases h
    exact ends_then _ fun _ => after_close _ _
  | markWorkflowCancelled =>
    cases h
    exact ends_then _ fun _ => after_close _ _
  | markCollectingEvidence =>
    cases h
    apply ends_then
    intro _ p hp
    cases hp
    simp [Point.activitiesLeft]
  | markWaitingForReview reason =>
    cases h
    apply ends_then
    intro _ p hp
    cases hp
    simp [Point.activitiesLeft]
  | resolveCondition conditionId resolution =>
    cases h
    apply ends_then
    intro _ p hp
    cases hp
    simp [Point.activitiesLeft]
  | fetchEvidence pending => cases h
  | awaitResume => cases h
  | awaitResolution conditionId => cases h

/-! ## Sound executions -/

/-- The code has called an activity. -/
def Point.callsActivity : Point → Bool
  | .fetchEvidence _ | .awaitResume | .awaitResolution _ => false
  | _ => true

theorem callsActivity_of_some {deps : RuntimeDeps} {ref : CaseRef} {runId : String} {point : Point}
    {p : Act Next} (h : activityAt deps ref runId point = some p) : point.callsActivity = true := by
  cases point <;> first | rfl | cases h

theorem exists_activityAt (deps : RuntimeDeps) (ref : CaseRef) (runId : String) {point : Point}
    (h : point.callsActivity = true) : ∃ p, activityAt deps ref runId point = some p := by
  cases point <;> first | exact ⟨_, rfl⟩ | cases h

theorem activitiesLeft_pos {point : Point} (h : point.callsActivity = true) :
    0 < point.activitiesLeft := by
  cases point <;> simp [Point.activitiesLeft, Point.callsActivity] at h ⊢

/-- An attempt is left, nothing is attempted where nothing is called, and what is attempted leads
to a later point. -/
structure Execution.Sound (e : Execution) : Prop where
  failures : e.failures < MAXIMUM_ATTEMPTS
  idle : e.point.callsActivity = false → e.attempt = none ∧ e.failures = 0
  ends : ∀ p, e.attempt = some p → p.Ends fun r => ∀ next, r = .ok next → next.After e.point

theorem Execution.Sound.calls {e : Execution} (h : e.Sound) {p : Act Next}
    (hp : e.attempt = some p) : e.point.callsActivity = true := by
  by_contra hcalls
  rw [Bool.not_eq_true] at hcalls
  rw [(h.idle hcalls).1] at hp
  cases hp

theorem enter_sound (e : Execution) (point : Point) : (e.enter point).Sound where
  failures := Nat.zero_lt_succ 2
  idle := fun _ => ⟨rfl, rfl⟩
  ends := by
    intro p hp
    cases hp

theorem proceed_sound {e e' : Execution} {next : Next} (h : e.proceed next = some e') :
    e'.Sound := by
  cases next with
  | goto point =>
    cases h
    exact enter_sound e point
  | close status => cases h

theorem attemptFailed_sound {e e' : Execution} {p : Act Next} (he : e.Sound)
    (hp : e.attempt = some p) (h : e.attemptFailed = some e') : e'.Sound := by
  unfold Execution.attemptFailed at h
  split at h
  · next hleft =>
    cases h
    refine ⟨hleft, fun hcalls => ?_, fun q hq => ?_⟩
    · rw [he.calls hp] at hcalls
      cases hcalls
    · cases hq
  · exact proceed_sound h

theorem collected_sound {e : Execution} (he : e.Sound) (factType : EvidenceType) :
    (e.collected factType).Sound := by
  unfold Execution.collected
  split
  · next pending hpoint =>
    obtain ⟨hattempt, hfailures⟩ := he.idle (by rw [hpoint]; rfl)
    split
    · exact enter_sound e _
    · refine ⟨he.failures, fun _ => ⟨hattempt, hfailures⟩, fun p hp => ?_⟩
      rw [hattempt] at hp
      cases hp
  · exact he

/-- The open execution, if there is one, is sound. -/
def CaseSystem.Sound (s : CaseSystem) : Prop := ∀ e, s.execution = some e → e.Sound

theorem Turn.sound {deps : RuntimeDeps} {ref : CaseRef} {a : WorkflowLabel}
    {x x' : Option Execution} (h : Turn deps ref a x x') (hx : ∀ e, x = some e → e.Sound) :
    ∀ e, x' = some e → e.Sound := by
  intro e' he'
  cases h with
  | stays a x => exact hx e' he'
  | started runId =>
    cases he'
    refine ⟨Nat.zero_lt_succ 2, fun hcalls => ?_, fun p hp => ?_⟩
    · cases hcalls
    · cases hp
  | recovered runId newRunId =>
    cases he'
    refine ⟨Nat.zero_lt_succ 2, fun hcalls => ?_, fun p hp => ?_⟩
    · cases hcalls
    · cases hp
  | cancelled e =>
    cases he'
    exact enter_sound e _
  | closed status e => cases he'
  | scheduled e p hidle hactivity =>
    cases he'
    have he := hx e rfl
    refine ⟨he.failures, fun hcalls => ?_, fun q hq => ?_⟩
    · rw [callsActivity_of_some hactivity] at hcalls
      cases hcalls
    · cases hq
      exact activityAt_ends hactivity
  | wentOn m e p q hp hshorter hends =>
    cases he'
    have he := hx e rfl
    refine ⟨he.failures, fun hcalls => ?_, fun q' hq => ?_⟩
    · rw [he.calls hp] at hcalls
      cases hcalls
    · cases hq
      exact hends _ (he.ends p hp)
  | answered m e p next hp hends => exact proceed_sound he'
  | threw m e p hp => exact attemptFailed_sound (hx e rfl) hp he'
  | timedOut e p hp => exact attemptFailed_sound (hx e rfl) hp he'
  | collected fact e =>
    cases he'
    exact collected_sound (hx e rfl) fact.factType
  | evidenceFailed reason e pending hpoint =>
    cases he'
    exact enter_sound e _
  | resolutionSignalled payload e =>
    cases he'
    exact ⟨(hx e rfl).failures, (hx e rfl).idle, (hx e rfl).ends⟩
  | resumeSignalled actorId e =>
    cases he'
    exact ⟨(hx e rfl).failures, (hx e rfl).idle, (hx e rfl).ends⟩
  | resolved e conditionId payload hpoint =>
    cases he'
    exact enter_sound e _
  | resumed e actorId hpoint hkept =>
    cases he'
    have he := enter_sound e .evaluateConditions
    exact ⟨he.failures, he.idle, he.ends⟩

theorem workflowStep_sound (deps : RuntimeDeps) (ref : CaseRef) (s : CaseSystem)
    (a : WorkflowLabel) (h : s.Sound) : (workflowStep deps ref s a).Sound :=
  (workflowStep_turn s a).sound h

/-! ## How often an activity is attempted -/

/-- The activities still to come, with those that a resume signal at hand may lead back to. -/
def Execution.activitiesLeft (e : Execution) : Nat :=
  e.point.activitiesLeft + if e.interruptResolution.isSome then 3 else 0

/-- Attempts that have failed or are under way, at the point. -/
def Execution.attemptsMade (e : Execution) : Nat :=
  e.failures + if e.attempt.isSome then 1 else 0

def attemptsLeft : Option Execution → Nat
  | none => 0
  | some e => MAXIMUM_ATTEMPTS * e.activitiesLeft - e.attemptsMade

/-- The attempts that a label from outside may bring about. -/
def WorkflowLabel.attempts : WorkflowLabel → Nat
  | .startWorkflow _ => 12
  | .recoverWorkflow .. => 15
  | .resumeSignal _ => 9
  | .cancelWorkflow => 3
  | _ => 0

/-- A worker takes up an attempt. -/
def takesUp (deps : RuntimeDeps) (ref : CaseRef) (s : CaseSystem) : WorkflowLabel → Bool
  | .schedule => s.execution.any fun e =>
      e.attempt.isNone && (activityAt deps ref e.runId e.point).isSome
  | _ => false

theorem enter_activitiesLeft_le (e : Execution) (point : Point) :
    (e.enter point).activitiesLeft
      ≤ point.activitiesLeft + if e.interruptResolution.isSome then 3 else 0 := by
  unfold Execution.activitiesLeft Execution.enter
  cases point <;> simp

theorem enter_attemptsMade (e : Execution) (point : Point) : (e.enter point).attemptsMade = 0 := rfl

/-- An earlier point pays for its three attempts. -/
theorem attemptsLeft_enter_le {e : Execution} {point : Point}
    (h : point.activitiesLeft < e.point.activitiesLeft) :
    attemptsLeft (some (e.enter point)) + 3 ≤ 3 * e.activitiesLeft := by
  have henter := enter_activitiesLeft_le e point
  have hleft : e.activitiesLeft
      = e.point.activitiesLeft + if e.interruptResolution.isSome then 3 else 0 := rfl
  show 3 * (e.enter point).activitiesLeft - (e.enter point).attemptsMade + 3 ≤ _
  rw [enter_attemptsMade]
  omega

theorem attemptsLeft_proceed_le {e : Execution} {next : Next} (h : next.After e.point)
    (hpos : 0 < e.point.activitiesLeft) :
    attemptsLeft (e.proceed next) + 3 ≤ 3 * e.activitiesLeft := by
  cases next with
  | goto point => exact attemptsLeft_enter_le (h point rfl)
  | close status =>
    have hleft : e.point.activitiesLeft ≤ e.activitiesLeft := Nat.le_add_right _ _
    show 0 + 3 ≤ _
    omega

theorem Execution.Sound.attemptsMade_le {e : Execution} (h : e.Sound) : e.attemptsMade ≤ 3 := by
  have hfailures : e.failures < 3 := h.failures
  unfold Execution.attemptsMade
  split <;> omega

theorem Execution.Sound.attemptsMade_eq_zero {e : Execution} (h : e.Sound)
    (hcalls : e.point.callsActivity = false) : e.attemptsMade = 0 := by
  obtain ⟨hattempt, hfailures⟩ := h.idle hcalls
  rw [Execution.attemptsMade, hattempt, hfailures]
  rfl

theorem attemptsMade_of_some {e : Execution} {p : Act Next} (hp : e.attempt = some p) :
    e.attemptsMade = e.failures + 1 := by
  rw [Execution.attemptsMade, hp]
  rfl

theorem attemptsLeft_answered_le {e : Execution} {p : Act Next} {next : Next} (he : e.Sound)
    (hp : e.attempt = some p) (h : next.After e.point) :
    attemptsLeft (e.proceed next) ≤ attemptsLeft (some e) := by
  have hproceed := attemptsLeft_proceed_le h (activitiesLeft_pos (he.calls hp))
  have hmade := he.attemptsMade_le
  show _ ≤ 3 * e.activitiesLeft - e.attemptsMade
  omega

theorem attemptsLeft_failed_le {e : Execution} {p : Act Next} (he : e.Sound)
    (hp : e.attempt = some p) : attemptsLeft e.attemptFailed ≤ attemptsLeft (some e) := by
  unfold Execution.attemptFailed
  split
  · have hmade := attemptsMade_of_some hp
    show 3 * e.activitiesLeft - (e.failures + 1 + 0) ≤ 3 * e.activitiesLeft - e.attemptsMade
    omega
  · exact attemptsLeft_answered_le he hp (onActivityFailure_after e.point)

theorem attemptsLeft_collected_le {e : Execution} (he : e.Sound) (factType : EvidenceType) :
    attemptsLeft (some (e.collected factType)) ≤ attemptsLeft (some e) := by
  unfold Execution.collected
  split
  · next pending hpoint =>
    have hmade : e.attemptsMade = 0 := he.attemptsMade_eq_zero (by rw [hpoint]; rfl)
    have hleft : e.activitiesLeft = 3 + if e.interruptResolution.isSome then 3 else 0 := by
      rw [Execution.activitiesLeft, hpoint]
      rfl
    split
    · have henter := enter_activitiesLeft_le e .evaluateConditions
      have hevaluate : Point.evaluateConditions.activitiesLeft = 3 := rfl
      show 3 * (e.enter .evaluateConditions).activitiesLeft - _
        ≤ 3 * e.activitiesLeft - e.attemptsMade
      omega
    · next rest hrest =>
      show 3 * (3 + if e.interruptResolution.isSome then 3 else 0) - e.attemptsMade
        ≤ 3 * e.activitiesLeft - e.attemptsMade
      omega
  · exact Nat.le_refl _

/-- What a step leaves is what there was, and what its label brings in. -/
theorem Turn.pays {deps : RuntimeDeps} {ref : CaseRef} {s : CaseSystem} {a : WorkflowLabel}
    {x' : Option Execution} (hs : s.Sound) (h : Turn deps ref a s.execution x')
    (hnone : takesUp deps ref s a = false) :
    attemptsLeft x' ≤ attemptsLeft s.execution + a.attempts := by
  generalize hx : s.execution = x at h
  cases h with
  | stays a x => exact Nat.le_add_right _ _
  | started runId => simp [attemptsLeft, Execution.activitiesLeft, Point.activitiesLeft,
      Execution.attemptsMade, WorkflowLabel.attempts, MAXIMUM_ATTEMPTS]
  | recovered runId newRunId => simp [attemptsLeft, Execution.activitiesLeft,
      Point.activitiesLeft, Execution.attemptsMade, WorkflowLabel.attempts, MAXIMUM_ATTEMPTS]
  | cancelled e =>
    have henter := enter_activitiesLeft_le e .markWorkflowCancelled
    have hcancelled : Point.markWorkflowCancelled.activitiesLeft = 1 := rfl
    have hmade := (hs e hx).attemptsMade_le
    have hleft : e.activitiesLeft
        = e.point.activitiesLeft + if e.interruptResolution.isSome then 3 else 0 := rfl
    have hidle : e.point.activitiesLeft = 0 → e.attemptsMade = 0 := by
      intro hzero
      apply (hs e hx).attemptsMade_eq_zero
      by_contra hcalls
      rw [Bool.not_eq_false] at hcalls
      have hpos := activitiesLeft_pos hcalls
      omega
    show 3 * (e.enter .markWorkflowCancelled).activitiesLeft - _
      ≤ 3 * e.activitiesLeft - e.attemptsMade + 3
    omega
  | closed status e => exact Nat.zero_le _
  | scheduled e p hidle hactivity =>
    simp [takesUp, hx, hidle, hactivity] at hnone
  | wentOn m e p q hp hshorter hends =>
    have hmade := attemptsMade_of_some hp
    show 3 * e.activitiesLeft - (e.failures + 1) ≤ 3 * e.activitiesLeft - e.attemptsMade + 0
    omega
  | answered m e p next hp hends =>
    exact attemptsLeft_answered_le (hs e hx) hp (hends _ ((hs e hx).ends p hp) next rfl)
  | threw m e p hp => exact attemptsLeft_failed_le (hs e hx) hp
  | timedOut e p hp => exact attemptsLeft_failed_le (hs e hx) hp
  | collected fact e => exact attemptsLeft_collected_le (hs e hx) fact.factType
  | evidenceFailed reason e pending hpoint =>
    have hlater : (Point.markManualReview reason).activitiesLeft < e.point.activitiesLeft := by
      rw [hpoint]
      show 1 < 3
      omega
    have henter := attemptsLeft_enter_le hlater
    have hmade := (hs e hx).attemptsMade_le
    show _ ≤ 3 * e.activitiesLeft - e.attemptsMade + 0
    omega
  | resolutionSignalled payload e => exact Nat.le_refl _
  | resumeSignalled actorId e =>
    show 3 * (e.point.activitiesLeft + 3) - e.attemptsMade
      ≤ 3 * (e.point.activitiesLeft + _) - e.attemptsMade + 9
    omega
  | resolved e conditionId payload hpoint =>
    have henter := enter_activitiesLeft_le e (.resolveCondition conditionId payload)
    have hresolve : (Point.resolveCondition conditionId payload).activitiesLeft = 2 := rfl
    have hleft : e.activitiesLeft = 2 + if e.interruptResolution.isSome then 3 else 0 := by
      rw [Execution.activitiesLeft, hpoint]
      rfl
    have hmade : e.attemptsMade = 0 := (hs e hx).attemptsMade_eq_zero (by rw [hpoint]; rfl)
    show 3 * (e.enter (.resolveCondition conditionId payload)).activitiesLeft - _
      ≤ 3 * e.activitiesLeft - e.attemptsMade + 0
    omega
  | resumed e actorId hpoint hkept =>
    have hleft : e.activitiesLeft = 3 := by
      rw [Execution.activitiesLeft, hpoint, hkept]
      rfl
    have hmade : e.attemptsMade = 0 := (hs e hx).attemptsMade_eq_zero (by rw [hpoint]; rfl)
    show 3 * 3 - 0 ≤ 3 * e.activitiesLeft - e.attemptsMade + 0
    omega

theorem takesUp_pays {deps : RuntimeDeps} {ref : CaseRef} {s : CaseSystem} {a : WorkflowLabel}
    (hs : s.Sound) (h : takesUp deps ref s a = true) :
    attemptsLeft (workflowStep deps ref s a).execution + 1 ≤ attemptsLeft s.execution := by
  unfold takesUp at h
  split at h
  · cases he : s.execution with
    | none => simp [he] at h
    | some e =>
      simp only [he, Option.any_some, Bool.and_eq_true, Option.isNone_iff_eq_none,
        Option.isSome_iff_exists] at h
      obtain ⟨hidle, p, hactivity⟩ := h
      have hstep : (workflowStep deps ref s .schedule).execution
          = some { e with attempt := some p } := by
        simp only [workflowStep, he, hidle, hactivity]
        rfl
      have hpos := activitiesLeft_pos (callsActivity_of_some hactivity)
      have hfailures : e.failures < 3 := (hs e he).failures
      have hmade : e.attemptsMade = e.failures := by
        rw [Execution.attemptsMade, hidle]
        rfl
      have hleft : e.activitiesLeft
          = e.point.activitiesLeft + if e.interruptResolution.isSome then 3 else 0 := rfl
      rw [hstep]
      show 3 * e.activitiesLeft - (e.failures + 1) + 1 ≤ 3 * e.activitiesLeft - e.attemptsMade
      omega
  · cases h

/-- **Activities are not attempted without end.** In every run of a case's workflows, whatever the
order of its steps, the attempts that workers take up are at most twelve for each start, fifteen
for each recovery, nine for each resume signal and three for each cancellation. -/
theorem attempts_bounded (deps : RuntimeDeps) (ref : CaseRef) (db : Db)
    (as : List WorkflowLabel) :
    countSteps (workflowStep deps ref) (takesUp deps ref) { db } as
      ≤ (as.map WorkflowLabel.attempts).sum := by
  have hinit : CaseSystem.Sound { db } := by
    intro e he
    cases he
  have hpays : ∀ s a, CaseSystem.Sound s →
      attemptsLeft (workflowStep deps ref s a).execution + (if takesUp deps ref s a then 1 else 0)
        ≤ attemptsLeft s.execution + a.attempts := by
    intro s a hs
    cases htakes : takesUp deps ref s a with
    | false => exact (workflowStep_turn s a).pays hs htakes
    | true => exact Nat.le_add_right_of_le (takesUp_pays hs htakes)
  have hrun := countSteps_le_of_credit (m := fun s => attemptsLeft s.execution)
    (workflowStep_sound deps ref) hpays hinit as
  have hnone : attemptsLeft (CaseSystem.execution { db }) = 0 := rfl
  omega

/-! ## At rest -/

/-- The code waits for a signal that has not arrived. -/
def Execution.waiting (e : Execution) : Bool :=
  e.attempt.isNone &&
    match e.point with
    | .awaitResume => e.interruptResolution.isNone
    | .awaitResolution _ => e.resolution.isNone
    | _ => false

/-- No execution is open, or the open one waits for a signal. -/
def restingExecution : Option Execution → Bool
  | none => true
  | some e => e.waiting

def CaseSystem.resting (s : CaseSystem) : Bool := restingExecution s.execution

/-- Temporal, its workers and the providers of evidence take these steps themselves. -/
def WorkflowLabel.own : WorkflowLabel → Bool
  | .closeRun _ | .schedule | .move _ | .timeout | .evidence _ | .evidenceFailed _ | .wake => true
  | _ => false

/-- Somebody starts the workflow, or turns it from its course. -/
def WorkflowLabel.outside : WorkflowLabel → Bool
  | .startWorkflow _ | .recoverWorkflow .. | .cancelWorkflow | .resumeSignal _ => true
  | _ => false

/-- A step of the workflow's own that changes the execution. -/
def Advances (deps : RuntimeDeps) (ref : CaseRef) (s : CaseSystem) (a : WorkflowLabel) : Prop :=
  a.own = true ∧ (workflowStep deps ref s a).execution ≠ s.execution

/-! ## The way that is left -/

/-- The activities that are left, what the code waits for before the next, the attempts that are
left for the one it has called, and the attempt itself. -/
abbrev Rank := Nat × Nat × Nat × Option (Act Next)

def rank : Option Execution → Rank
  | none => (0, 0, 0, none)
  | some e => (e.activitiesLeft, e.point.waits, MAXIMUM_ATTEMPTS - e.failures, e.attempt)

def Below : Rank → Rank → Prop := Prod.Lex (· < ·) (Prod.Lex (· < ·) (Prod.Lex (· < ·) Sooner))

theorem below_wf : WellFounded Below :=
  WellFounded.prod_lex Nat.lt_wfRel.wf
    (WellFounded.prod_lex Nat.lt_wfRel.wf (WellFounded.prod_lex Nat.lt_wfRel.wf sooner_wf))

section

variable {e e' : Execution}

theorem below_of_activities (h : e'.activitiesLeft < e.activitiesLeft) :
    Below (rank (some e')) (rank (some e)) := Prod.Lex.left _ _ h

theorem below_of_waits (hactivities : e'.activitiesLeft = e.activitiesLeft)
    (h : e'.point.waits < e.point.waits) : Below (rank (some e')) (rank (some e)) :=
  Prod.lex_def.mpr (.inr ⟨hactivities, Prod.Lex.left _ _ h⟩)

theorem below_of_failures (hactivities : e'.activitiesLeft = e.activitiesLeft)
    (hwaits : e'.point.waits = e.point.waits)
    (h : MAXIMUM_ATTEMPTS - e'.failures < MAXIMUM_ATTEMPTS - e.failures) :
    Below (rank (some e')) (rank (some e)) :=
  Prod.lex_def.mpr
    (.inr ⟨hactivities, Prod.lex_def.mpr (.inr ⟨hwaits, Prod.Lex.left _ _ h⟩)⟩)

theorem below_of_attempt {p : Option (Act Next)} (h : Sooner p e.attempt) :
    Below (rank (some { e with attempt := p })) (rank (some e)) :=
  Prod.lex_def.mpr (.inr ⟨rfl, Prod.lex_def.mpr (.inr ⟨rfl, Prod.Lex.right _ h⟩)⟩)

/-- Where no activity is left the code waits for the resume signal. -/
theorem below_closed (e : Execution) : Below (rank none) (rank (some e)) := by
  have hleft : 0 < e.activitiesLeft ∨ 0 < e.point.waits := by
    have hpoint : 0 < e.point.activitiesLeft ∨ 0 < e.point.waits := by
      cases e.point <;> simp [Point.activitiesLeft, Point.waits]
    have hle : e.point.activitiesLeft ≤ e.activitiesLeft := Nat.le_add_right _ _
    omega
  rw [Below, Prod.lex_def]
  by_cases hzero : 0 < e.activitiesLeft
  · exact .inl hzero
  · refine .inr ⟨?_, Prod.Lex.left _ _ ?_⟩
    · show 0 = e.activitiesLeft
      omega
    · show 0 < e.point.waits
      omega

theorem below_enter {point : Point} (h : point.activitiesLeft < e.point.activitiesLeft) :
    Below (rank (some (e.enter point))) (rank (some e)) := by
  apply below_of_activities
  have henter := enter_activitiesLeft_le e point
  have hleft : e.activitiesLeft
      = e.point.activitiesLeft + if e.interruptResolution.isSome then 3 else 0 := rfl
  omega

theorem below_proceed {next : Next} (h : next.After e.point) :
    Below (rank (e.proceed next)) (rank (some e)) := by
  cases next with
  | goto point => exact below_enter (h point rfl)
  | close status => exact below_closed e

theorem below_attemptFailed : Below (rank e.attemptFailed) (rank (some e)) := by
  unfold Execution.attemptFailed
  split
  · next hleft =>
    have hfailures : e.failures + 1 < 3 := hleft
    apply below_of_failures
    · rfl
    · rfl
    · show 3 - (e.failures + 1) < 3 - e.failures
      omega
  · exact below_proceed (onActivityFailure_after e.point)

/-- Evidence that nobody waits for. -/
theorem collected_eq_self {pending : List EvidenceType} {factType : EvidenceType}
    (hpoint : e.point = .fetchEvidence pending) (hpending : pending ≠ [])
    (hmem : factType ∉ pending) : e.collected factType = e := by
  obtain ⟨runId, point, attempt, failures, resolution, interruptResolution⟩ := e
  cases hpoint
  unfold Execution.collected
  cases pending with
  | nil => exact absurd rfl hpending
  | cons first rest => simp only [List.erase_of_not_mem hmem]

theorem collected_below {factType : EvidenceType} (h : e.collected factType ≠ e) :
    Below (rank (some (e.collected factType))) (rank (some e)) := by
  have hcollected : ∀ pending, e.point = .fetchEvidence pending → pending ≠ [] →
      factType ∈ pending := by
    intro pending hpoint hpending
    by_contra hmem
    exact h (collected_eq_self hpoint hpending hmem)
  unfold Execution.collected at h ⊢
  split
  · next pending hpoint =>
    have hleft : e.activitiesLeft = 3 + if e.interruptResolution.isSome then 3 else 0 := by
      rw [Execution.activitiesLeft, hpoint]
      rfl
    have hwaits : e.point.waits = pending.length + 1 := by rw [hpoint]; rfl
    split
    · apply below_of_waits
      · rw [hleft]
        rfl
      · rw [hwaits]
        exact Nat.succ_pos _
    · next rest hrest =>
      apply below_of_waits
      · rw [hleft]
        rfl
      · rw [hwaits]
        show (pending.erase factType).length + 1 < pending.length + 1
        have hmem : factType ∈ pending := by
          apply hcollected pending hpoint
          intro hnil
          rw [hnil] at hrest
          exact hrest rfl
        have hlength := List.length_erase_of_mem hmem
        have hpos := List.length_pos_of_mem hmem
        omega
  · simp at h

end

/-- A step of the workflow's own that changes the execution brings it nearer to its end. -/
theorem Turn.below {deps : RuntimeDeps} {ref : CaseRef} {a : WorkflowLabel}
    {x x' : Option Execution} (h : Turn deps ref a x x') (hx : ∀ e, x = some e → e.Sound)
    (hown : a.own = true) (hne : x' ≠ x) : Below (rank x') (rank x) := by
  cases h with
  | stays a x => exact absurd rfl hne
  | started runId => cases hown
  | recovered runId newRunId => cases hown
  | cancelled e => cases hown
  | closed status e => exact below_closed e
  | scheduled e p hidle hactivity =>
    apply below_of_attempt
    rw [hidle]
    trivial
  | wentOn m e p q hp hshorter hends =>
    apply below_of_attempt
    rw [hp]
    exact hshorter
  | answered m e p next hp hends =>
    exact below_proceed (hends _ ((hx e rfl).ends p hp) next rfl)
  | threw m e p hp => exact below_attemptFailed
  | timedOut e p hp => exact below_attemptFailed
  | collected fact e => exact collected_below fun h => hne (congrArg some h)
  | evidenceFailed reason e pending hpoint =>
    apply below_enter
    rw [hpoint]
    show 1 < 3
    omega
  | resolutionSignalled payload e => cases hown
  | resumeSignalled actorId e => cases hown
  | resolved e conditionId payload hpoint =>
    apply below_of_waits
    · rw [Execution.activitiesLeft, Execution.activitiesLeft, hpoint]
      rfl
    · rw [hpoint]
      show 0 < 1
      omega
  | resumed e actorId hpoint hkept =>
    apply below_of_waits
    · rw [Execution.activitiesLeft, Execution.activitiesLeft, hpoint, hkept]
      rfl
    · rw [hpoint]
      show 0 < 1
      omega

/-! ## Never stuck -/

theorem proceed_idle {e e' : Execution} {next : Next} (h : e.proceed next = some e') :
    e'.attempt = none := by
  cases next with
  | goto point =>
    cases h
    rfl
  | close status => cases h

theorem attemptFailed_idle {e e' : Execution} (h : e.attemptFailed = some e') :
    e'.attempt = none := by
  unfold Execution.attemptFailed at h
  split at h
  · cases h
    rfl
  · exact proceed_idle h

/-- A move of the attempt under way never leaves the execution as it was. -/
theorem attempted_ne {s : CaseSystem} {e : Execution} {p : Act Next} (hp : e.attempt = some p)
    (db : Db) (m : Proc.Move Input Failure) :
    (s.attempted e (p.move db m).2).execution ≠ some e := by
  have hshorter := p.move_shorter db m
  generalize (p.move db m).2 = q at hshorter
  intro h
  cases q with
  | done next =>
    have hidle := proceed_idle ((proceed_execution s e next).symm.trans h)
    rw [hp] at hidle
    cases hidle
  | fail failure =>
    have hidle := attemptFailed_idle ((attemptFailed_execution s e).symm.trans h)
    rw [hp] at hidle
    cases hidle
  | step w k c =>
    have hattempt : some (Proc.step w k c) = e.attempt :=
      congrArg Execution.attempt (Option.some.inj h)
    rw [hp] at hattempt
    exact not_shorter_self p (Option.some.inj hattempt ▸ hshorter trivial)

section

variable (deps : RuntimeDeps) (ref : CaseRef) {s : CaseSystem} {e : Execution}

/-- A step that takes the code to another point. -/
theorem advances_of_point {a : WorkflowLabel} (e' : Execution) (he : s.execution = some e)
    (hown : a.own = true) (hstep : (workflowStep deps ref s a).execution = some e')
    (hpoint : e'.point ≠ e.point) : Advances deps ref s a := by
  refine ⟨hown, fun h => ?_⟩
  rw [hstep, he] at h
  exact hpoint (congrArg Execution.point (Option.some.inj h))

/-- The activity that the code has called can be taken up. -/
theorem schedule_advances (he : s.execution = some e) (hidle : e.attempt = none)
    (hcalls : e.point.callsActivity = true) : Advances deps ref s .schedule := by
  obtain ⟨p, hp⟩ := exists_activityAt deps ref e.runId hcalls
  refine ⟨rfl, fun h => ?_⟩
  simp only [workflowStep, he, hidle, hp] at h
  have hsome : some p = e.attempt := congrArg Execution.attempt (Option.some.inj h)
  rw [hidle] at hsome
  cases hsome

/-- What the code waits for can arrive, unless it is a signal that nobody has sent. -/
theorem waiting_advances (he : s.execution = some e) (hidle : e.attempt = none)
    (hcalls : e.point.callsActivity = false) (hunrest : e.waiting = false) :
    Advances deps ref s .wake ∨ Advances deps ref s (.evidenceFailed "") := by
  cases hat : e.point with
  | fetchEvidence pending =>
    right
    apply advances_of_point deps ref (e.enter (.markManualReview "")) he rfl
    · simp only [workflowStep, he, hat]
      rfl
    · rw [hat]
      exact fun h => by cases h
  | awaitResume =>
    left
    cases hkept : e.interruptResolution with
    | none => simp [Execution.waiting, hidle, hat, hkept] at hunrest
    | some actorId =>
      apply advances_of_point deps ref
        { e.enter .evaluateConditions with interruptResolution := none } he rfl
      · simp only [workflowStep, he, hat, hkept]
        rfl
      · rw [hat]
        exact fun h => by cases h
  | awaitResolution conditionId =>
    left
    cases hkept : e.resolution with
    | none => simp [Execution.waiting, hidle, hat, hkept] at hunrest
    | some payload =>
      apply advances_of_point deps ref (e.enter (.resolveCondition conditionId payload)) he rfl
      · simp only [workflowStep, he, hat, hkept]
        rfl
      · rw [hat]
        exact fun h => by cases h
  | _ =>
    rw [hat] at hcalls
    cases hcalls

/-- **The workflow is never stuck.** In every state, unless no execution is open or the open one
waits for a signal that nobody has sent, some step of the workflow's own, and one that does not
close it, leads on. -/
theorem never_stuck (s : CaseSystem) :
    s.resting = true ∨ ∃ a, Advances deps ref s a ∧ ∀ status, a ≠ .closeRun status := by
  cases hunrest : s.resting with
  | true => exact .inl rfl
  | false =>
    right
    unfold CaseSystem.resting at hunrest
    cases he : s.execution with
    | none =>
      rw [he] at hunrest
      cases hunrest
    | some e =>
      rw [he] at hunrest
      cases hattempt : e.attempt with
      | some p =>
        refine ⟨.move (.lose .stopped), ⟨rfl, ?_⟩, fun _ h => by cases h⟩
        simp only [workflowStep, he, hattempt]
        exact attempted_ne hattempt s.db _
      | none =>
        cases hcalls : e.point.callsActivity with
        | true => exact ⟨.schedule, schedule_advances deps ref he hattempt hcalls, by simp⟩
        | false =>
          cases waiting_advances deps ref he hattempt hcalls hunrest with
          | inl hwake => exact ⟨.wake, hwake, by simp⟩
          | inr hfailed => exact ⟨.evidenceFailed "", hfailed, by simp⟩

/-! ## At rest in the end -/

theorem execution_eq_of_not_own {s : CaseSystem} {a : WorkflowLabel} (hown : a.own = false)
    (houtside : a.outside = false) (hsignal : ∀ payload, a ≠ .resolveConditionSignal payload) :
    (workflowStep deps ref s a).execution = s.execution := by
  cases a with
  | late n m =>
    dsimp only [workflowStep]
    split <;> rfl
  | escalate reason expectedCaseVersion => rfl
  | resolveConditionSignal payload => exact absurd rfl (hsignal payload)
  | _ => simp_all [WorkflowLabel.own, WorkflowLabel.outside]

/-- The resolution signal brings the execution no nearer to its end, and ends no unrest. -/
theorem resolutionSignal_rank (s : CaseSystem) (payload : ResolveConditionSignalPayload) :
    rank (workflowStep deps ref s (.resolveConditionSignal payload)).execution
        = rank s.execution
      ∧ (s.resting = false →
        (workflowStep deps ref s (.resolveConditionSignal payload)).resting = false) := by
  show rank (s.execution.map _) = rank s.execution
    ∧ (restingExecution s.execution = false → restingExecution (s.execution.map _) = false)
  cases s.execution with
  | none => exact ⟨rfl, id⟩
  | some e =>
    refine ⟨rfl, fun h => ?_⟩
    show Execution.waiting _ = false
    have hwaiting : e.waiting = false := h
    unfold Execution.waiting at hwaiting ⊢
    cases hat : e.point <;> simp_all

/-- A step that does not advance leaves the rank as it is, and the unrest. -/
theorem idle_rank {s : CaseSystem} {a : WorkflowLabel} (houtside : a.outside = false)
    (hidle : ¬ Advances deps ref s a) :
    rank (workflowStep deps ref s a).execution = rank s.execution
      ∧ (s.resting = false → (workflowStep deps ref s a).resting = false) := by
  have hsame : (workflowStep deps ref s a).execution = s.execution →
      rank (workflowStep deps ref s a).execution = rank s.execution
        ∧ (s.resting = false → (workflowStep deps ref s a).resting = false) := by
    intro h
    unfold CaseSystem.resting
    rw [h]
    exact ⟨rfl, id⟩
  cases hown : a.own with
  | true =>
    apply hsame
    by_contra hne
    exact hidle ⟨hown, hne⟩
  | false =>
    by_cases hsignal : ∃ payload, a = .resolveConditionSignal payload
    · obtain ⟨payload, rfl⟩ := hsignal
      exact resolutionSignal_rank deps ref s payload
    · apply hsame
      apply execution_eq_of_not_own deps ref hown houtside
      exact fun payload h => hsignal ⟨payload, h⟩

theorem workflow_ranked :
    Ranked (workflowStep deps ref) CaseSystem.Sound (fun a => a.outside = true)
      (Advances deps ref) (fun s => s.resting = true) (fun s => rank s.execution) Below where
  wf := below_wf
  inv := workflowStep_sound deps ref
  drops := fun s a hs _ hadv => (workflowStep_turn s a).below hs hadv.1 hadv.2
  keeps := fun s a _ hquiet hidle => (idle_rank deps ref (by simpa using hquiet) hidle).1
  unrest := by
    intro s a _ hquiet hidle hunrest
    rw [Bool.not_eq_true] at hunrest ⊢
    exact (idle_rank deps ref (by simpa using hquiet) hidle).2 hunrest

/-- **The workflow settles.** In an infinite run of a case's workflows that nobody starts, recovers,
cancels or resumes from some step on, and in which an execution in unrest is sooner or later led on
by a step of its own, there is a point from which on no execution is open, or the open one waits
for a signal. -/
theorem workflow_settles (db : Db) (labels : Nat → WorkflowLabel) (n : Nat)
    (hquiet : ∀ k ≥ n, (labels k).outside = false)
    (hfair : ∀ j, ∃ k ≥ j, (trace (workflowStep deps ref) { db } labels k).resting = true
      ∨ Advances deps ref (trace (workflowStep deps ref) { db } labels k) (labels k)) :
    ∃ m ≥ n, ∀ k ≥ m, (trace (workflowStep deps ref) { db } labels k).resting = true := by
  have hinit : CaseSystem.Sound { db } := by
    intro e he
    cases he
  apply (workflow_ranked deps ref).settles hinit
  · intro k hk
    rw [Bool.not_eq_true]
    exact hquiet k hk
  · exact hfair

end

/-- The evidence is collected and a condition is opened; nobody resolves it. -/
def unresolvedRun : List WorkflowLabel :=
  collection "run-1" 0 (verifiedEvidence (.scaled 6 3) 1786795000000)
    ++ attempt sampleInput 1 10 ++ .timeout :: attempt sampleInput 20 35

/-- From its end on the worker finds nothing to take up. -/
def unresolvedLabels (k : Nat) : WorkflowLabel := unresolvedRun.getD k .schedule

theorem schedule_resting {deps : RuntimeDeps} {ref : CaseRef} {s : CaseSystem}
    (h : s.resting = true) : workflowStep deps ref s .schedule = s := by
  unfold CaseSystem.resting at h
  cases he : s.execution with
  | none => simp only [workflowStep, he]
  | some e =>
    rw [he] at h
    have hwaiting : e.waiting = true := h
    have hnone : activityAt deps ref e.runId e.point = none := by
      unfold Execution.waiting at hwaiting
      cases hat : e.point <;> simp_all [activityAt]
    simp only [workflowStep, he, hnone]
    cases e.attempt <;> rfl

theorem workflow_settles_unresolvedRun :
    ∃ m ≥ 1, ∀ k ≥ m, (trace (workflowStep incomeDeps sampleRef) { db := sampleDb .DRAFT [] }
      unresolvedLabels k).resting = true := by
  have hlabels : (List.range unresolvedRun.length).map unresolvedLabels = unresolvedRun := by
    apply List.ext_getElem
    · simp
    · intro k hk hk'
      simp [unresolvedLabels, List.getD_eq_getElem?_getD, hk']
  have hlate : ∀ k ≥ unresolvedRun.length, unresolvedLabels k = .schedule := by
    intro k hk
    simp [unresolvedLabels, List.getD_eq_getElem?_getD, hk]
  have hend : (sampleSystem unresolvedRun).resting = true := by decide +kernel
  have hlater : ∀ k ≥ unresolvedRun.length,
      (trace (workflowStep incomeDeps sampleRef) { db := sampleDb .DRAFT [] }
        unresolvedLabels k).resting = true := by
    apply trace_keeps (P := fun s : CaseSystem => s.resting = true)
    · rw [trace_eq_exec, hlabels]
      exact hend
    · intro k hk hrest
      rw [trace, hlate k hk, schedule_resting hrest]
      exact hrest
  apply workflow_settles incomeDeps sampleRef (sampleDb .DRAFT []) unresolvedLabels 1
  · have hearly : ∀ k < unresolvedRun.length, 1 ≤ k → (unresolvedLabels k).outside = false := by
      decide +kernel
    intro k hk
    by_cases hlength : k < unresolvedRun.length
    · exact hearly k hlength hk
    · rw [hlate k (by omega)]
      rfl
  · intro j
    exact ⟨j + unresolvedRun.length, by omega, .inl (hlater _ (by omega))⟩

end MortgageAgent.Workflow
