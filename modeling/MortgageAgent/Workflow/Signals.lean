import MortgageAgent.Workflow.Readiness

/-!
# Which signal resolves a condition

A `resolveCondition` signal names no condition. Its handler keeps the payload in a variable that
lives as long as the run does, and the wait for a condition's resolution is over at once when the
variable holds one. A signal that arrives before the condition is opened, during the collection
of evidence or the evaluation, is then taken for its resolution.

* **`DeliveredAfterOpening`** — the signal of a history that a resolution is entitled to.
* **`OpensUnsignalled`** — a step that opens a condition finds no signal kept.
* **`resolution_is_signalled`** — the law, in every history all of whose steps do.
* **`early_signal_resolves`** — a signal during the collection closes a condition opened after it.
-/

namespace MortgageAgent.Workflow

open Proc (Obeys)
open Runs

def Db.hasCondition (db : Db) (id : Uuid) : Prop := ∃ c ∈ db.conditions.rows, c.id = id

instance (db : Db) (id : Uuid) : Decidable (db.hasCondition id) := by
  unfold Db.hasCondition
  infer_instance

/-- The history has a signal with this payload, delivered to the run while the condition was
there. -/
def DeliveredAfterOpening (deps : RuntimeDeps) (ref : CaseRef) (start : CaseSystem)
    (history : List WorkflowLabel) (runId : String) (payload : ResolveConditionSignalPayload)
    (conditionId : Uuid) : Prop :=
  ∃ before after, history = before ++ .resolveConditionSignal payload :: after
    ∧ (∃ e, (exec (workflowStep deps ref) start before).execution = some e ∧ e.runId = runId)
    ∧ (exec (workflowStep deps ref) start before).db.hasCondition conditionId

/-- **The law**: whenever `resolveCondition` is called, it is with the payload of a signal that was
delivered after the condition was opened. -/
def ResolvesSignalled (deps : RuntimeDeps) (ref : CaseRef) (start : CaseSystem)
    (history : List WorkflowLabel) : Prop :=
  ∀ e conditionId payload, (exec (workflowStep deps ref) start history).execution = some e →
    e.point = .resolveCondition conditionId payload →
    DeliveredAfterOpening deps ref start history e.runId payload conditionId

/-- A step taken while the open run keeps a signal opens no condition. -/
def OpensUnsignalled (deps : RuntimeDeps) (ref : CaseRef) (s : CaseSystem) (a : WorkflowLabel) :
    Prop :=
  (∃ e ∈ s.execution, e.resolution.isSome = true) →
    ∀ c ∈ (workflowStep deps ref s a).db.conditions.rows, s.db.hasCondition c.id

instance (deps : RuntimeDeps) (ref : CaseRef) (s : CaseSystem) (a : WorkflowLabel) :
    Decidable (OpensUnsignalled deps ref s a) := by
  unfold OpensUnsignalled
  infer_instance

/-! ## Conditions stay -/

/-- Every condition there is stays there. -/
def Db.KeepsConditions (db db' : Db) : Prop := ∀ id, db.hasCondition id → db'.hasCondition id

/-- The condition a phase is about is there. -/
def Phase.Present (db : Db) : Phase → Prop
  | .opened id => db.hasCondition id
  | .idle | .reading _ | .clear => True

section Conditions

variable {ref : CaseRef} {db db' : Db}

theorem keepsConditions_of_eq (h : db'.conditions = db.conditions) : db.KeepsConditions db' := by
  intro id hid
  unfold Db.hasCondition
  rw [h]
  exact hid

theorem keepsConditions_insert {condition : LoanCondition}
    (h : db.conditions.insert condition = some db'.conditions) : db.KeepsConditions db' := by
  rintro id ⟨c, hc, hid⟩
  refine ⟨c, ?_, hid⟩
  rw [Table.rows_of_insert h]
  exact List.mem_append_left _ hc

theorem keepsConditions_put {resolved : LoanCondition}
    (hmem : ∃ x ∈ db.conditions.rows, x.id = resolved.id)
    (h : db'.conditions = db.conditions.put resolved) : db.KeepsConditions db' := by
  rintro id ⟨c, hc, hid⟩
  unfold Db.hasCondition
  rw [h]
  by_cases hsame : c.id = resolved.id
  · exact ⟨resolved, (Table.mem_put _ hmem).mpr (Or.inl rfl), hsame ▸ hid⟩
  · exact ⟨c, (Table.mem_put _ hmem).mpr (Or.inr ⟨hc, hsame⟩), hid⟩

theorem activityStep_keepsConditions {g g' : Phase} (h : ActivityStep ref g db db' g') :
    db.KeepsConditions db' := by
  cases h with
  | evaluation h =>
    cases h with
    | quiet h => exact keepsConditions_of_eq (conditions_of_caseRows h)
    | opens hc hcases hinsert hopen => exact keepsConditions_insert hinsert
    | readies hc hcases hconditions => exact keepsConditions_of_eq hconditions
  | reads v => exact fun _ h => h
  | marks hstatus hc hcases hconditions => exact keepsConditions_of_eq hconditions
  | finds hone hconditions hready => exact keepsConditions_of_eq hconditions
  | resolves hmem hstatus hcases hconditions => exact keepsConditions_put hmem hconditions
  | finalizes hconditions => exact keepsConditions_of_eq hconditions

theorem Phase.Present.keeps {g : Phase} (h : g.Present db) (hk : db.KeepsConditions db') :
    g.Present db' := by
  cases g with
  | opened id => exact hk id h
  | idle => trivial
  | reading v => trivial
  | clear => trivial

/-- The phase a transaction leads to is about a condition that it opened, or found, or that was
there before. -/
theorem activityStep_present {g g' : Phase} (h : ActivityStep ref g db db' g')
    (hg : g.Present db) : g'.Present db' := by
  have hkeeps := activityStep_keepsConditions h
  cases h with
  | evaluation h =>
    cases h with
    | quiet h => exact hg.keeps hkeeps
    | opens hc hcases hinsert hopen =>
      refine ⟨_, ?_, rfl⟩
      rw [Table.rows_of_insert hinsert]
      exact List.mem_append_right _ (List.mem_singleton_self _)
    | readies hc hcases hconditions => trivial
  | reads v => trivial
  | marks hstatus hc hcases hconditions => exact hg.keeps hkeeps
  | finds hone hconditions hready =>
    have hactive := mem_activeConditions.mp (hone ▸ List.mem_singleton_self _)
    exact hkeeps _ ⟨_, hactive.1, rfl⟩
  | resolves hmem hstatus hcases hconditions => trivial
  | finalizes hconditions => trivial

end Conditions

/-! ## The invariant -/

/-- An attempt keeps to the protocol of the activities, from a phase whose condition is there. -/
def AttemptPresent (ref : CaseRef) (db : Db) (p : Act Next) : Prop :=
  ∃ g : Phase, p.Obeys (ActivityStep ref) (Returned Leads) g ∧ g.Present db

/-- The attempts that were given up on keep to it too. -/
def AbandonedObey (ref : CaseRef) (abandoned : List (Act Next)) : Prop :=
  ∀ p ∈ abandoned, ∃ g, p.Obeys (ActivityStep ref) (Returned Leads) g

section Invariant

variable (deps : RuntimeDeps) (ref : CaseRef) (start : CaseSystem)

/-- The signal that is kept came after every condition there is, the condition the point is about
is there, and a resolution has its signal. -/
structure Execution.Signalled (e : Execution) (history : List WorkflowLabel) (db : Db) : Prop where
  kept : ∀ payload, e.resolution = some payload → ∀ id, db.hasCondition id →
    DeliveredAfterOpening deps ref start history e.runId payload id
  point : e.point.phase.Present db
  resolving : ∀ id payload, e.point = .resolveCondition id payload →
    DeliveredAfterOpening deps ref start history e.runId payload id

structure SignalInv (history : List WorkflowLabel) (s : CaseSystem) : Prop where
  execution : ∀ e, s.execution = some e → e.Signalled deps ref start history s.db
  attempt : ∀ e, s.execution = some e → ∀ p, e.attempt = some p → AttemptPresent ref s.db p
  abandoned : AbandonedObey ref s.abandoned

variable {deps ref start} {history : List WorkflowLabel} {s : CaseSystem} {e : Execution}
  {db db' : Db}

theorem DeliveredAfterOpening.later {runId : String} {payload : ResolveConditionSignalPayload}
    {id : Uuid} (h : DeliveredAfterOpening deps ref start history runId payload id)
    (a : WorkflowLabel) :
    DeliveredAfterOpening deps ref start (history ++ [a]) runId payload id := by
  obtain ⟨before, after, rfl, hrun, hid⟩ := h
  exact ⟨before, after ++ [a], by simp, hrun, hid⟩

/-- What another step does to an execution it does not touch. -/
theorem Execution.Signalled.later (h : e.Signalled deps ref start history db)
    (hkeeps : db.KeepsConditions db')
    (hopens : e.resolution.isSome = true → ∀ c ∈ db'.conditions.rows, db.hasCondition c.id)
    (a : WorkflowLabel) : e.Signalled deps ref start (history ++ [a]) db' where
  kept := by
    rintro payload hpayload id ⟨c, hc, rfl⟩
    have hbefore := hopens (by rw [hpayload]; rfl) c hc
    exact (h.kept payload hpayload c.id hbefore).later a
  point := h.point.keeps hkeeps
  resolving := fun id payload hpoint => (h.resolving id payload hpoint).later a

/-- The code goes on to another point, with the signal it keeps. -/
theorem Execution.Signalled.enter (h : e.Signalled deps ref start history db) {point : Point}
    (hpoint : point.phase.Present db)
    (hresolving : ∀ id payload, point = .resolveCondition id payload →
      DeliveredAfterOpening deps ref start history e.runId payload id) :
    (e.enter point).Signalled deps ref start history db :=
  ⟨h.kept, hpoint, hresolving⟩

theorem Execution.Signalled.proceeds (h : e.Signalled deps ref start history db) {g : Phase}
    {point : Point} (hleads : Leads g (.goto point)) (hg : g.Present db) :
    (e.enter point).Signalled deps ref start history db := by
  apply h.enter
  · rcases hleads.phase with hidle | hphase
    · rw [hidle]
      trivial
    · rw [← hphase]
      exact hg
  · rintro conditionId payload rfl
    exact False.elim hleads

theorem signalInv_fresh
    (habandoned : AbandonedObey ref s.abandoned)
    (he : e.Signalled deps ref start history s.db) (hnone : e.attempt = none) :
    SignalInv deps ref start history (s.withExecution e) where
  execution := by
    intro e' he'
    cases he'
    exact he
  attempt := by
    intro e' he' p hp
    cases he'
    rw [hnone] at hp
    cases hp
  abandoned := habandoned

/-- A new execution has no signal yet. -/
theorem signalInv_begun (habandoned : AbandonedObey ref s.abandoned)
    (hresolution : e.resolution = none) (hattempt : e.attempt = none)
    (hpoint : e.point.phase.Present s.db)
    (hresolving : ∀ id payload, e.point ≠ .resolveCondition id payload) :
    SignalInv deps ref start history (s.withExecution e) := by
  refine signalInv_fresh habandoned ⟨?_, hpoint, ?_⟩ hattempt
  · intro payload hpayload
    rw [hresolution] at hpayload
    cases hpayload
  · intro id payload hresolve
    exact absurd hresolve (hresolving id payload)

theorem signalInv_close
    (habandoned : AbandonedObey ref s.abandoned)
    (status : CloseStatus) : SignalInv deps ref start history (s.close e status) where
  execution := fun _ he => by cases he
  attempt := fun _ he => by cases he
  abandoned := habandoned

theorem signalInv_proceed
    (habandoned : AbandonedObey ref s.abandoned)
    (he : e.Signalled deps ref start history s.db) {g : Phase} {next : Next}
    (hleads : Leads g next) (hg : g.Present s.db) :
    SignalInv deps ref start history (s.proceed e next) := by
  cases next with
  | goto point => exact signalInv_fresh habandoned (he.proceeds hleads hg) rfl
  | close status => exact signalInv_close habandoned status

theorem signalInv_attemptFailed
    (habandoned : AbandonedObey ref s.abandoned)
    (he : e.Signalled deps ref start history s.db) :
    SignalInv deps ref start history (s.attemptFailed e) := by
  have hleads : Leads .idle (onActivityFailure e.point) := by
    cases e.point <;> first | trivial | exact Or.inl rfl
  unfold CaseSystem.attemptFailed
  split
  · exact signalInv_fresh habandoned ⟨he.kept, he.point, he.resolving⟩ rfl
  · exact signalInv_proceed habandoned he hleads trivial

theorem signalInv_attempted
    (habandoned : AbandonedObey ref s.abandoned)
    (he : e.Signalled deps ref start history s.db) {p : Act Next} (hp : AttemptPresent ref s.db p) :
    SignalInv deps ref start history (s.attempted e p) := by
  obtain ⟨g, hobeys, hg⟩ := hp
  cases p with
  | done next => exact signalInv_proceed habandoned he hobeys hg
  | fail failure => exact signalInv_attemptFailed habandoned he
  | step write next handler =>
    refine ⟨?_, ?_, habandoned⟩
    · intro e' he'
      cases he'
      exact ⟨he.kept, he.point, he.resolving⟩
    · intro e' he' p hp
      cases he'
      cases hp
      exact ⟨g, hobeys, hg⟩

/-- An attempt that is given up on keeps to the protocol. -/
theorem SignalInv.abandon (h : SignalInv deps ref start history s) (he : s.execution = some e) :
    AbandonedObey ref (s.abandon e).abandoned := by
  intro p hp
  rcases List.mem_append.mp hp with hp | hp
  · exact h.abandoned p hp
  · obtain ⟨g, hobeys, -⟩ := h.attempt e he p (Option.mem_toList.mp hp)
    exact ⟨g, hobeys⟩

theorem activity_present {runId : String} {point : Point} {p : Act Next}
    (h : activityAt deps ref runId point = some p) (hpoint : point.phase.Present db) :
    AttemptPresent ref db p := by
  refine ⟨point.startPhase, ?_, ?_⟩
  · exact (activity_leads h).imp (fun _ _ _ _ hstep => hstep.1) fun _ _ hr => hr
  · cases point <;> exact hpoint

theorem escalateToReviewer_conditions (db : Db) (reason : String) (expectedCaseVersion : Nat) :
    (escalateToReviewer db ref reason expectedCaseVersion).conditions = db.conditions := by
  unfold escalateToReviewer
  split
  · split
    · split
      · rename_i db' hset
        obtain ⟨c, -, -, rfl⟩ := setCaseStatusAt_some hset
        rfl
      · rfl
    · rfl
  · rfl

/-- A step that writes no condition, and leaves or changes the open execution. -/
theorem SignalInv.later (h : SignalInv deps ref start history s) (hkeeps : s.db.KeepsConditions db')
    (hopens : ∀ e ∈ s.execution, e.resolution.isSome = true →
      ∀ c ∈ db'.conditions.rows, s.db.hasCondition c.id) (a : WorkflowLabel) :
    SignalInv deps ref start (history ++ [a]) { s with db := db' } where
  execution := fun e he => (h.execution e he).later hkeeps (hopens e he) a
  attempt := by
    intro e he p hp
    obtain ⟨g, hobeys, hg⟩ := h.attempt e he p hp
    exact ⟨g, hobeys, hg.keeps hkeeps⟩
  abandoned := h.abandoned

theorem SignalInv.map (h : SignalInv deps ref start history s) {f : Execution → Execution}
    (hf : ∀ e, s.execution = some e → e.Signalled deps ref start history s.db →
      (f e).Signalled deps ref start history s.db)
    (hattempt : ∀ e p, (f e).attempt = some p → e.attempt = some p) :
    SignalInv deps ref start history { s with execution := s.execution.map f } where
  execution := by
    intro e' he'
    obtain ⟨e, he, rfl⟩ := Option.map_eq_some_iff.mp he'
    exact hf e he (h.execution e he)
  attempt := by
    intro e' he' p hp
    obtain ⟨e, he, rfl⟩ := Option.map_eq_some_iff.mp he'
    exact h.attempt e he p (hattempt e p hp)
  abandoned := h.abandoned

theorem collected_signalled (h : e.Signalled deps ref start history db) (factType : EvidenceType) :
    (e.collected factType).Signalled deps ref start history db := by
  unfold Execution.collected
  split
  · split
    · exact h.enter trivial fun _ _ hpoint => by cases hpoint
    · exact ⟨h.kept, trivial, fun _ _ hpoint => by cases hpoint⟩
  · exact h

/-- The invariant is kept by every step that meets the condition. -/
theorem signalInv_step (history : List WorkflowLabel) (a : WorkflowLabel)
    (h : SignalInv deps ref start history (exec (workflowStep deps ref) start history))
    (hopens : OpensUnsignalled deps ref (exec (workflowStep deps ref) start history) a) :
    SignalInv deps ref start (history ++ [a])
      (workflowStep deps ref (exec (workflowStep deps ref) start history) a) := by
  generalize hs : exec (workflowStep deps ref) start history = s at h hopens ⊢
  -- most steps leave the store alone
  have hsame : SignalInv deps ref start (history ++ [a]) s :=
    h.later (fun _ hid => hid) (fun _ _ _ c hc => ⟨c, hc, rfl⟩) a
  unfold OpensUnsignalled at hopens
  have hcase := workflowStep_case deps ref s a
  generalize workflowStep deps ref s a = s' at hcase hopens ⊢
  cases hcase with
  | stays _ => exact hsame
  | started _ _ => exact signalInv_begun hsame.abandoned rfl rfl trivial fun _ _ hpoint => by cases hpoint
  | recovered _ _ _ => exact signalInv_begun hsame.abandoned rfl rfl trivial fun _ _ hpoint => by cases hpoint
  | cancelled e he =>
    have hcancelled : (e.enter .markWorkflowCancelled).Signalled deps ref start
        (history ++ [.cancelWorkflow]) (s.abandon e).db :=
      (hsame.execution e he).enter trivial fun _ _ hpoint => by cases hpoint
    exact signalInv_fresh (hsame.abandon he) hcancelled rfl
  | closed e he status => exact signalInv_close (s := s.abandon e) (hsame.abandon he) status
  | scheduled e he p _ hactivity =>
    have hexecution := hsame.execution e he
    refine ⟨?_, ?_, hsame.abandoned⟩
    · intro e' he'
      cases he'
      exact ⟨hexecution.kept, hexecution.point, hexecution.resolving⟩
    · intro e' he' p' hp'
      cases he'
      cases hp'
      exact activity_present hactivity hexecution.point
  | moved e he p hp m =>
    obtain ⟨g, hobeys, hg⟩ := h.attempt e he p hp
    obtain ⟨g', hstep, hrest⟩ := hobeys.move (activityStep_refl ref) s.db m
    have hkeeps := activityStep_keepsConditions hstep
    have hlater := (h.execution e he).later hkeeps
      (fun hsome => by
        have hnone := hopens ⟨e, he, hsome⟩
        rwa [attempted_db] at hnone) (.move m)
    exact signalInv_attempted (s := { s with db := (p.move s.db m).1 }) h.abandoned hlater
      ⟨g', hrest, activityStep_present hstep hg⟩
  | timedOut e he _ _ =>
    exact signalInv_attemptFailed (s := s.abandon e) (hsame.abandon he) (hsame.execution e he)
  | wentOn n m p hp =>
    obtain ⟨g, hobeys⟩ := h.abandoned p (List.mem_of_getElem? hp)
    obtain ⟨g', hstep, hrest⟩ := hobeys.move (activityStep_refl ref) s.db m
    have hlater := h.later (activityStep_keepsConditions hstep)
      (fun e he hsome => hopens ⟨e, he, hsome⟩) (.late n m)
    refine ⟨hlater.execution, hlater.attempt, ?_⟩
    intro q hq
    rcases List.mem_or_eq_of_mem_set hq with hq | rfl
    · exact h.abandoned q hq
    · exact ⟨g', hrest⟩
  | evidence fact =>
    let recorded := { fact with tenantId := ref.tenantId, caseId := ref.caseId }
    have hconditions : (recordEvidence s.db ref recorded).conditions = s.db.conditions := rfl
    have hrecorded := h.later (keepsConditions_of_eq hconditions)
      (fun _ _ _ c hc => ⟨c, hc, rfl⟩) (.evidence fact)
    refine hrecorded.map ?_ ?_
    · intro e he hin
      exact collected_signalled hin fact.factType
    · intro e p hp
      exact collected_attempt hp
  | evidenceFailed e he _ _ reason =>
    have hmanual : (e.enter (.markManualReview reason)).Signalled deps ref start
        (history ++ [.evidenceFailed reason]) s.db :=
      (hsame.execution e he).enter trivial fun _ _ hpoint => by cases hpoint
    exact signalInv_fresh hsame.abandoned hmanual rfl
  | resolutionSignalled payload =>
    refine hsame.map ?_ fun _ _ hp => hp
    intro e he hin
    refine ⟨?_, hin.point, hin.resolving⟩
    intro payload' hpayload id hid
    cases hpayload
    exact ⟨history, [], rfl, ⟨e, by rw [hs]; exact he, rfl⟩, by rw [hs]; exact hid⟩
  | resumeSignalled actorId =>
    exact hsame.map (fun e _ hin => ⟨hin.kept, hin.point, hin.resolving⟩) fun _ _ hp => hp
  | resolved e he conditionId payload hawait hkept =>
    have hin := hsame.execution e he
    have hpresent : s.db.hasCondition conditionId := by
      have hpoint := hin.point
      rw [hawait] at hpoint
      exact hpoint
    have hresolve : (e.enter (.resolveCondition conditionId payload)).Signalled deps ref start
        (history ++ [.wake]) s.db := by
      refine Execution.Signalled.enter hin ?_ ?_
      · exact hpresent
      · intro id payload' hpoint
        cases hpoint
        exact hin.kept payload hkept conditionId hpresent
    exact signalInv_fresh hsame.abandoned hresolve rfl
  | resumed e he _ =>
    have hin := hsame.execution e he
    have hresume : ({ e.enter .evaluateConditions with interruptResolution := none } :
        Execution).Signalled deps ref start (history ++ [.wake]) s.db :=
      ⟨hin.kept, trivial, fun _ _ hpoint => by cases hpoint⟩
    exact signalInv_fresh hsame.abandoned hresume rfl
  | escalated reason expectedCaseVersion =>
    have hconditions : (escalateToReviewer s.db ref reason expectedCaseVersion).conditions
        = s.db.conditions := escalateToReviewer_conditions s.db reason expectedCaseVersion
    apply h.later (keepsConditions_of_eq hconditions)
    intro e he _ c hc
    rw [hconditions] at hc
    exact ⟨c, hc, rfl⟩

end Invariant

/-- **A condition is resolved by a signal that came after it was opened**, in every history in
which no condition is opened while the run keeps a signal. -/
theorem resolution_is_signalled (deps : RuntimeDeps) (ref : CaseRef) (db : Db)
    (history : List WorkflowLabel)
    (h : AllSteps (workflowStep deps ref) (OpensUnsignalled deps ref) { db } history) :
    ResolvesSignalled deps ref { db } history := by
  have hinit : SignalInv deps ref { db } [] { db } := by
    refine ⟨?_, ?_, ?_⟩
    · intro e he
      cases he
    · intro e he
      cases he
    · intro p hp
      cases hp
  have hinv := exec_inv_of_history hinit signalInv_step h
  intro e conditionId payload he hpoint
  exact (hinv.execution e he).resolving conditionId payload hpoint

/-! ## A signal during the collection -/

def satisfiedByUnderwriter : ResolveConditionSignalPayload where
  actorId := "underwriter-1"
  resolution := .SATISFIED
  reason := none

/-- The evaluation opens a condition, a signal arrives and the workflow wakes. -/
def signalledRun : List WorkflowLabel :=
  collection "run-1" 0 (verifiedEvidence (.scaled 6 3) 1786795000000)
    ++ attempt sampleInput 1 35 ++ [.resolveConditionSignal satisfiedByUnderwriter, .wake]

/-- The call of `resolveCondition` the workflow stands at. -/
def CaseSystem.resolving (s : CaseSystem) : Option (Uuid × ResolveConditionSignalPayload) :=
  s.execution.bind fun e => match e.point with
    | .resolveCondition conditionId payload => some (conditionId, payload)
    | _ => none

theorem resolution_is_signalled_signalledRun :
    ResolvesSignalled incomeDeps sampleRef { db := sampleDb .DRAFT [] } signalledRun
      ∧ (sampleSystem signalledRun).resolving = some (128, satisfiedByUnderwriter) :=
  ⟨resolution_is_signalled incomeDeps sampleRef (sampleDb .DRAFT []) signalledRun
    (by decide +kernel), by decide +kernel⟩

/-- A workflow is started. -/
def startedRun : List WorkflowLabel := .startWorkflow "run-1" :: attempt sampleInput 0 1

/-- Its evidence is collected, the evaluation opens a condition, and the workflow wakes. -/
def evaluatedRun : List WorkflowLabel :=
  (verifiedEvidence (.scaled 6 3) 1786795000000).map .evidence
    ++ attempt sampleInput 1 35 ++ [.wake]

/-- The reviewer's signal arrives while the evidence is being collected. -/
def earlySignalRun : List WorkflowLabel :=
  startedRun ++ .resolveConditionSignal satisfiedByUnderwriter :: evaluatedRun

def WorkflowLabel.isResolution : WorkflowLabel → Bool
  | .resolveConditionSignal _ => true
  | _ => false

/-- The one signal of a history stands where it stands. -/
theorem before_of_only_signal {before after pre post : List WorkflowLabel}
    {payload payload' : ResolveConditionSignalPayload}
    (hpre : ∀ a ∈ pre, a.isResolution = false) (hpost : ∀ a ∈ post, a.isResolution = false)
    (h : pre ++ .resolveConditionSignal payload' :: post
      = before ++ .resolveConditionSignal payload :: after) : before = pre := by
  rcases List.append_eq_append_iff.mp h with ⟨mid, hbefore, hmid⟩ | ⟨mid, hpre', hmid⟩
  · cases mid with
    | nil => rw [hbefore, List.append_nil]
    | cons a mid =>
      have htail : post = mid ++ .resolveConditionSignal payload :: after := (List.cons.inj hmid).2
      have hmem : WorkflowLabel.resolveConditionSignal payload ∈ post := by simp [htail]
      cases hpost _ hmem
  · cases mid with
    | nil => rw [hpre', List.append_nil]
    | cons a mid =>
      have hhead : WorkflowLabel.resolveConditionSignal payload = a := (List.cons.inj hmid).1
      have hmem : WorkflowLabel.resolveConditionSignal payload ∈ pre := by simp [hpre', hhead]
      cases hpre _ hmem

theorem early_signal_resolves :
    (sampleSystem earlySignalRun).resolving = some (128, satisfiedByUnderwriter)
      ∧ ¬ (sampleSystem startedRun).db.hasCondition 128
      ∧ ¬ ResolvesSignalled incomeDeps sampleRef { db := sampleDb .DRAFT [] } earlySignalRun := by
  have hresolving : (sampleSystem earlySignalRun).resolving = some (128, satisfiedByUnderwriter) := by
    decide +kernel
  have hunopened : ¬ (sampleSystem startedRun).db.hasCondition 128 := by decide +kernel
  refine ⟨hresolving, hunopened, ?_⟩
  intro h
  obtain ⟨e, he, hpoint⟩ := Option.bind_eq_some_iff.mp hresolving
  have hcall : e.point = .resolveCondition 128 satisfiedByUnderwriter := by
    split at hpoint
    · rename_i conditionId payload hat
      cases hpoint
      exact hat
    · cases hpoint
  obtain ⟨before, after, hhistory, -, hopened⟩ := h e 128 satisfiedByUnderwriter he hcall
  have hbefore : before = startedRun :=
    before_of_only_signal (by decide) (by decide) hhistory
  rw [hbefore] at hopened
  exact hunopened hopened

end MortgageAgent.Workflow
