import MortgageAgent.Workflow.Evaluation

/-!
# Cancelling a case while it is finalized

`markWorkflowCancelled` reads the case's status and, unless it is READY_FOR_UNDERWRITING or CLOSED,
sets it to MANUAL_REVIEW. The read takes no lock and the update names the case by its id only, so
another transaction may finalize the case between the two.

Under READ COMMITTED a statement sees what is committed when it runs. An update locks the row until
its transaction ends; an update of a locked row waits, and then works on the row as committed.

* **`CancelRace`** / **`raceStep`** — the two transactions, cut at their statements;
  **`cancel_alone`** and **`finalization_alone`** — undisturbed, they are the modelled activities.
* **`UpdatesFirst`** — the cancellation's update does not run after the other commit.
* **`stays_final_iff`** — the case stays final exactly in those interleavings.
* **`cancel_overwrites_ready`** — the other transaction commits between read and update.
-/

namespace MortgageAgent.Workflow

open Runs

/-- The statuses a cancellation must leave alone. -/
def CaseStatus.isFinal : CaseStatus → Bool
  | .READY_FOR_UNDERWRITING | .CLOSED => true
  | .DRAFT | .COLLECTING_EVIDENCE | .CONDITIONS_OPEN | .WAITING_FOR_INFORMATION
  | .WAITING_FOR_REVIEW | .MANUAL_REVIEW => false

/-- A transaction that sets the case to a final status, for the version it expects if any, and
writes an event. -/
structure Finalization where
  status : CaseStatus
  isFinal : status.isFinal = true
  expectedCaseVersion : Option Nat
  event : OutboxPayload

/-! ## The two transactions -/

/-- Where `markWorkflowCancelled` stands: the statement it is about to make, with the status it
read and the row it wrote, or how it ended. -/
inductive CancelAt where
  | findOne
  | update (read : CaseStatus)
  | writeEvent (read : CaseStatus) (written : Option LoanCase)
  | commit (read : CaseStatus) (written : Option LoanCase)
  | committed
  | threw
  deriving DecidableEq

inductive FinalizationAt where
  | update
  | writeEvent (written : Option LoanCase)
  | commit (written : Option LoanCase)
  | committed
  | threw
  deriving DecidableEq

/-- The row as the transaction wrote it, locked and not committed yet. -/
def CancelAt.written : CancelAt → Option LoanCase
  | .writeEvent _ written | .commit _ written => written
  | .findOne | .update _ | .committed | .threw => none

def FinalizationAt.written : FinalizationAt → Option LoanCase
  | .writeEvent written | .commit written => written
  | .update | .committed | .threw => none

structure CancelRace where
  /-- what is committed -/
  db : Db
  cancel : CancelAt := .findOne
  finalization : FinalizationAt := .update

/-- The store once a transaction that wrote `written` and an event has committed. -/
def Db.commitCase (db : Db) (ref : CaseRef) (written : Option LoanCase) (payload : OutboxPayload) :
    Db :=
  match written with
  | some row => { db with loanCases := db.loanCases.put row }.writeOutboxEvent ref payload
  | none => db.writeOutboxEvent ref payload

def cancelStep (ref : CaseRef) (s : CancelRace) : CancelRace :=
  match s.cancel with
  | .findOne =>
    match s.db.findCase ref with
    | none => { s with cancel := .threw }
    | some c =>
      if c.status ≠ .READY_FOR_UNDERWRITING ∧ c.status ≠ .CLOSED then
        { s with cancel := .update c.status }
      else { s with cancel := .writeEvent c.status none }
  | .update read =>
    match s.finalization.written with
    -- the row is locked: the statement waits
    | some _ => s
    | none =>
      { s with
        cancel := .writeEvent read ((s.db.findCase ref).map (·.withStatus .MANUAL_REVIEW)) }
  | .writeEvent read written => { s with cancel := .commit read written }
  | .commit read written =>
    { s with
      db := s.db.commitCase ref written (.workflowRunCancelled read)
      cancel := .committed }
  | .committed | .threw => s

/-- `UPDATE … WHERE id, tenantId and, if one is expected, version`. -/
def Finalization.update (f : Finalization) (db : Db) (ref : CaseRef) : FinalizationAt :=
  let affected := (db.findCase ref).filter fun c => f.expectedCaseVersion.all (· = c.version)
  if f.expectedCaseVersion.isSome ∧ affected = none then .threw
  else .writeEvent (affected.map (·.withStatus f.status))

def finalizationStep (ref : CaseRef) (f : Finalization) (s : CancelRace) : CancelRace :=
  match s.finalization with
  | .update =>
    match s.cancel.written with
    | some _ => s
    | none => { s with finalization := f.update s.db ref }
  | .writeEvent written => { s with finalization := .commit written }
  | .commit written =>
    { s with db := s.db.commitCase ref written f.event, finalization := .committed }
  | .committed | .threw => s

inductive Side where
  | cancel
  | finalization
  deriving DecidableEq

/-- One side makes its next statement. -/
def raceStep (ref : CaseRef) (f : Finalization) (s : CancelRace) : Side → CancelRace
  | .cancel => cancelStep ref s
  | .finalization => finalizationStep ref f s

section Alone

variable (ref : CaseRef) (f : Finalization) (db : Db)

/-- The statements of the cancellation, one after the other, are `markWorkflowCancelled`. -/
theorem cancel_alone (i j : Input) :
    (exec (raceStep ref f) { db } (List.replicate 4 .cancel)).db
      = (let (db', rest) := (markWorkflowCancelled ref).move db (.commit i)
        (rest.move db' (.commit j)).1) := by
  cases hc : db.findCase ref with
  | none =>
    simp [exec, List.replicate, raceStep, cancelStep, hc, markWorkflowCancelled, query, transaction,
      Proc.tx, Proc.bind, Proc.move, Db.findCaseOrFail, Except.map]
  | some c =>
    by_cases hopen : c.status ≠ .READY_FOR_UNDERWRITING ∧ c.status ≠ .CLOSED
    · simp [exec, List.replicate, raceStep, cancelStep, hc, hopen, markWorkflowCancelled, query,
        transaction, Proc.tx, Proc.bind, Proc.move, Db.findCaseOrFail, Except.map,
        FinalizationAt.written, Db.commitCase, Db.setCaseStatus]
    · simp only [exec, List.replicate, List.foldl_cons, List.foldl_nil, raceStep, cancelStep, hc,
        hopen, if_false, Db.commitCase]
      simp [hc, hopen, markWorkflowCancelled, query, transaction, Proc.tx, Proc.bind, Proc.move,
        Db.findCaseOrFail, Except.map]

/-- The other transaction, when it makes the case ready, is `finalizeReadyForUnderwriting`. -/
theorem finalization_alone (expectedCaseVersion : Option Nat) :
    (exec (raceStep ref {
        status := .READY_FOR_UNDERWRITING
        isFinal := rfl
        expectedCaseVersion
        event := .workflowRunCompleted .READY_FOR_UNDERWRITING }) { db }
      (List.replicate 3 .finalization)).db
      = (match finalizeReadyForUnderwriting ref expectedCaseVersion db with
        | .ok db' => db'
        | .error _ => db) := by
  cases hc : db.findCase ref with
  | none =>
    cases expectedCaseVersion <;>
      simp [exec, List.replicate, raceStep, finalizationStep, Finalization.update, hc,
        finalizeReadyForUnderwriting, CancelAt.written, Db.setCaseStatus, Db.setCaseStatusAt,
        Db.commitCase]
  | some c =>
    cases expectedCaseVersion with
    | none =>
      simp [exec, List.replicate, raceStep, finalizationStep, Finalization.update, hc, Option.filter,
        finalizeReadyForUnderwriting, CancelAt.written, Db.setCaseStatus, Db.commitCase]
    | some version =>
      by_cases hv : c.version = version
      · simp [exec, List.replicate, raceStep, finalizationStep, Finalization.update, hc, hv,
          Option.filter, finalizeReadyForUnderwriting, CancelAt.written, Db.setCaseStatusAt,
          Db.commitCase]
      · simp [exec, List.replicate, raceStep, finalizationStep, Finalization.update, hc, hv,
          Ne.symm hv, Option.filter, finalizeReadyForUnderwriting, CancelAt.written, Db.setCaseStatusAt]

end Alone

/-! ## What a race keeps -/

/-- The case is there with a status that meets `P`. -/
def Db.CaseIs (db : Db) (ref : CaseRef) (P : CaseStatus → Prop) : Prop :=
  ∃ c, db.findCase ref = some c ∧ P c.status

/-- A row written and not committed is the committed one with another status. -/
def Db.Pending (db : Db) (ref : CaseRef) (status : CaseStatus) (written : Option LoanCase) : Prop :=
  ∀ row, written = some row → ∃ c, db.findCase ref = some c ∧ row = c.withStatus status

/-- The case is there, what is written and not committed comes from it, at most one side has
written, and a finalization that got past its update has. -/
structure RaceInv (ref : CaseRef) (f : Finalization) (s : CancelRace) : Prop where
  found : s.db.CaseIs ref fun _ => True
  cancel : s.db.Pending ref .MANUAL_REVIEW s.cancel.written
  finalization : s.db.Pending ref f.status s.finalization.written
  exclusive : s.cancel.written = none ∨ s.finalization.written = none
  wrote : s.finalization ≠ .writeEvent none ∧ s.finalization ≠ .commit none

section Race

variable {ref : CaseRef} {f : Finalization} {s : CancelRace} {db : Db}

theorem findCase_commitCase_none (payload : OutboxPayload) :
    (db.commitCase ref none payload).findCase ref = db.findCase ref := rfl

/-- A commit makes the written status the case's. -/
theorem caseIs_commitCase {status : CaseStatus} {row : LoanCase}
    (h : db.Pending ref status (some row)) (payload : OutboxPayload) :
    (db.commitCase ref (some row) payload).CaseIs ref fun st => st = status := by
  obtain ⟨c, hc, hrow⟩ := h row rfl
  have hfind : (db.commitCase ref (some row) payload).findCase ref
      = some (c.withStatus status) := by
    refine findCase_put hc ?_
    rw [hrow]
    rfl
  exact ⟨_, hfind, rfl⟩

theorem Db.CaseIs.imp {P Q : CaseStatus → Prop} (h : db.CaseIs ref P) (hPQ : ∀ st, P st → Q st) :
    db.CaseIs ref Q := by
  obtain ⟨c, hc, hP⟩ := h
  exact ⟨c, hc, hPQ _ hP⟩

theorem pending_none (status : CaseStatus) : db.Pending ref status none := by
  intro row h
  cases h

theorem pending_congr {db' : Db} (h : db'.findCase ref = db.findCase ref) {status : CaseStatus}
    {written : Option LoanCase} (hp : db.Pending ref status written) :
    db'.Pending ref status written := by
  unfold Db.Pending
  rw [h]
  exact hp

/-- The case after a commit is there, whether the transaction wrote it or not. -/
theorem found_commitCase (h : db.CaseIs ref fun _ => True) {status : CaseStatus}
    {written : Option LoanCase} (hp : db.Pending ref status written) (payload : OutboxPayload) :
    (db.commitCase ref written payload).CaseIs ref fun _ => True := by
  cases written with
  | none => exact h
  | some row => exact (caseIs_commitCase hp payload).imp fun _ _ => trivial

/-- What the other side has written survives a commit of this one: one of them wrote nothing. -/
theorem pending_commitCase {status : CaseStatus} {written other : Option LoanCase}
    (hexclusive : written = none ∨ other = none) (hother : db.Pending ref status other)
    (payload : OutboxPayload) : (db.commitCase ref written payload).Pending ref status other := by
  rcases hexclusive with rfl | rfl
  · exact pending_congr (findCase_commitCase_none payload) hother
  · exact pending_none status

theorem pending_map (db : Db) (ref : CaseRef) (status : CaseStatus) :
    db.Pending ref status ((db.findCase ref).map (·.withStatus status)) := by
  intro row h
  obtain ⟨c, hc, hrow⟩ := Option.map_eq_some_iff.mp h
  exact ⟨c, hc, hrow.symm⟩

/-- An update of a case that is there writes it, or throws. -/
theorem update_cases (f : Finalization) (hfound : db.CaseIs ref fun _ => True) :
    f.update db ref = .threw ∨ ∃ c, db.findCase ref = some c
      ∧ f.update db ref = .writeEvent (some (c.withStatus f.status)) := by
  obtain ⟨c, hc, -⟩ := hfound
  unfold Finalization.update
  rw [hc]
  cases hv : f.expectedCaseVersion with
  | none =>
    right
    exact ⟨c, rfl, by simp [Option.filter]⟩
  | some version =>
    by_cases heq : version = c.version
    · right
      exact ⟨c, rfl, by simp [Option.filter, heq]⟩
    · left
      simp [Option.filter, heq]

theorem raceInv_cancelStep (h : RaceInv ref f s) : RaceInv ref f (cancelStep ref s) := by
  unfold cancelStep
  cases hat : s.cancel with
  | findOne =>
    dsimp only
    split
    · exact ⟨h.found, pending_none _, h.finalization, Or.inl rfl, h.wrote⟩
    · split
      · exact ⟨h.found, pending_none _, h.finalization, Or.inl rfl, h.wrote⟩
      · exact ⟨h.found, pending_none _, h.finalization, Or.inl rfl, h.wrote⟩
  | update read =>
    dsimp only
    cases hw : s.finalization.written with
    | some row => exact h
    | none => exact ⟨h.found, pending_map _ _ _, h.finalization, Or.inr hw, h.wrote⟩
  | writeEvent read written =>
    have hcancel := h.cancel
    have hexclusive := h.exclusive
    rw [hat] at hcancel hexclusive
    exact ⟨h.found, hcancel, h.finalization, hexclusive, h.wrote⟩
  | commit read written =>
    have hcancel := h.cancel
    have hexclusive := h.exclusive
    rw [hat] at hcancel hexclusive
    exact ⟨found_commitCase h.found hcancel _, pending_none _,
      pending_commitCase hexclusive h.finalization _, Or.inl rfl, h.wrote⟩
  | committed => exact h
  | threw => exact h

theorem raceInv_finalizationStep (h : RaceInv ref f s) :
    RaceInv ref f (finalizationStep ref f s) := by
  unfold finalizationStep
  cases hat : s.finalization with
  | update =>
    dsimp only
    cases hw : s.cancel.written with
    | some row => exact h
    | none =>
      rcases update_cases f h.found with heq | ⟨c, hc, heq⟩
      · refine ⟨h.found, h.cancel, ?_, Or.inl hw, ?_⟩
        · dsimp only
          rw [heq]
          exact pending_none _
        · dsimp only
          rw [heq]
          exact ⟨by decide, by decide⟩
      · refine ⟨h.found, h.cancel, ?_, Or.inl hw, ?_⟩
        · dsimp only
          rw [heq]
          intro row hrow
          cases hrow
          exact ⟨c, hc, rfl⟩
        · dsimp only
          rw [heq]
          exact ⟨by simp, by simp⟩
  | writeEvent written =>
    have hfinal := h.finalization
    have hexclusive := h.exclusive
    have hwrote := h.wrote.1
    rw [hat] at hfinal hexclusive hwrote
    refine ⟨h.found, h.cancel, hfinal, hexclusive, ?_⟩
    exact ⟨by simp, fun heq => hwrote (by cases heq; rfl)⟩
  | commit written =>
    have hfinal := h.finalization
    have hexclusive := h.exclusive
    rw [hat] at hfinal hexclusive
    exact ⟨found_commitCase h.found hfinal _, pending_commitCase hexclusive.symm h.cancel _,
      pending_none _, Or.inr rfl, ⟨by simp, by simp⟩⟩
  | committed => exact h
  | threw => exact h

theorem raceInv_step (s : CancelRace) (side : Side) (h : RaceInv ref f s) :
    RaceInv ref f (raceStep ref f s side) := by
  cases side with
  | cancel => exact raceInv_cancelStep h
  | finalization => exact raceInv_finalizationStep h

/-! ## Who writes last -/

/-- A committed finalization stands, and the cancellation has written nothing over it. -/
structure Stands (ref : CaseRef) (f : Finalization) (s : CancelRace) : Prop extends
    RaceInv ref f s where
  final : s.finalization = .committed →
    (s.db.CaseIs ref fun st => st.isFinal = true) ∧ s.cancel.written = none

/-- The cancellation has written over a committed finalization. -/
structure Overwritten (ref : CaseRef) (f : Finalization) (s : CancelRace) : Prop extends
    RaceInv ref f s where
  committed : s.finalization = .committed
  overwrites : (∃ row, s.cancel.written = some row)
    ∨ s.cancel = .committed ∧ s.db.CaseIs ref fun st => st = .MANUAL_REVIEW

/-- The cancellation does not make its update once the finalization has committed. -/
def UpdatesFirst (s : CancelRace) : Side → Prop
  | .cancel => (∃ read, s.cancel = .update read) → s.finalization ≠ .committed
  | .finalization => True

theorem stands_cancelStep (h : Stands ref f s) (hfirst : UpdatesFirst s .cancel) :
    Stands ref f (cancelStep ref s) := by
  refine ⟨raceInv_cancelStep h.toRaceInv, ?_⟩
  unfold cancelStep
  cases hat : s.cancel with
  | findOne =>
    dsimp only
    split
    · exact fun hcommitted => ⟨(h.final hcommitted).1, rfl⟩
    · split
      · exact fun hcommitted => ⟨(h.final hcommitted).1, rfl⟩
      · exact fun hcommitted => ⟨(h.final hcommitted).1, rfl⟩
  | update read =>
    have hopen : s.finalization ≠ .committed := hfirst ⟨read, hat⟩
    dsimp only
    split
    · exact fun hcommitted => absurd hcommitted hopen
    · exact fun hcommitted => absurd hcommitted hopen
  | writeEvent read written =>
    intro hcommitted
    have hfinal := h.final hcommitted
    rw [hat] at hfinal
    exact hfinal
  | commit read written =>
    intro hcommitted
    obtain ⟨hstatus, hnone⟩ := h.final hcommitted
    rw [hat] at hnone
    have hwritten : written = none := hnone
    rw [hwritten]
    exact ⟨hstatus, rfl⟩
  | committed => exact h.final
  | threw => exact h.final

theorem stands_finalizationStep (h : Stands ref f s) : Stands ref f (finalizationStep ref f s) := by
  refine ⟨raceInv_finalizationStep h.toRaceInv, ?_⟩
  unfold finalizationStep
  cases hat : s.finalization with
  | update =>
    dsimp only
    split
    · exact h.final
    · intro hcommitted
      rcases update_cases f h.found with heq | ⟨c, hc, heq⟩
      · rw [heq] at hcommitted
        cases hcommitted
      · rw [heq] at hcommitted
        cases hcommitted
  | writeEvent written =>
    intro hcommitted
    cases hcommitted
  | commit written =>
    intro _
    have hpending := h.finalization
    have hexclusive := h.exclusive
    have hwrote := h.wrote.2
    rw [hat] at hpending hexclusive hwrote
    cases written with
    | none => exact absurd rfl hwrote
    | some row =>
      have hstatus := caseIs_commitCase hpending f.event
      refine ⟨hstatus.imp ?_, ?_⟩
      · intro st hst
        rw [hst]
        exact f.isFinal
      · rcases hexclusive with hnone | hnone
        · exact hnone
        · cases hnone
  | committed => exact h.final
  | threw => exact h.final

theorem stands_step (s : CancelRace) (side : Side) (h : Stands ref f s)
    (hfirst : UpdatesFirst s side) : Stands ref f (raceStep ref f s side) := by
  cases side with
  | cancel => exact stands_cancelStep h hfirst
  | finalization => exact stands_finalizationStep h

/-- The update that comes too late. -/
theorem overwritten_of_late (h : RaceInv ref f s) {side : Side} (hlate : ¬ UpdatesFirst s side) :
    Overwritten ref f (raceStep ref f s side) := by
  cases side with
  | finalization => exact absurd trivial hlate
  | cancel =>
    have hboth : (∃ read, s.cancel = .update read) ∧ s.finalization = .committed := by
      by_contra hnot
      exact hlate fun hread hcommitted => hnot ⟨hread, hcommitted⟩
    obtain ⟨⟨read, hat⟩, hcommitted⟩ := hboth
    obtain ⟨c, hc, -⟩ := h.found
    have hstep : raceStep ref f s .cancel
        = { s with cancel := .writeEvent read (some (c.withStatus .MANUAL_REVIEW)) } := by
      unfold raceStep cancelStep
      simp only [hat, hcommitted, FinalizationAt.written, hc, Option.map_some]
    refine ⟨raceInv_step s .cancel h, ?_, ?_⟩
    · rw [hstep]
      exact hcommitted
    · rw [hstep]
      exact Or.inl ⟨_, rfl⟩

theorem overwritten_step (s : CancelRace) (side : Side) (h : Overwritten ref f s) :
    Overwritten ref f (raceStep ref f s side) := by
  refine ⟨raceInv_step s side h.toRaceInv, ?_, ?_⟩
  · cases side with
    | cancel =>
      unfold raceStep cancelStep
      cases s.cancel <;> dsimp only <;> (repeat' split) <;> exact h.committed
    | finalization =>
      unfold raceStep finalizationStep
      rw [h.committed]
      exact h.committed
  · cases side with
    | finalization =>
      unfold raceStep finalizationStep
      rw [h.committed]
      exact h.overwrites
    | cancel =>
      unfold raceStep cancelStep
      cases hat : s.cancel with
      | findOne => simpa [hat, CancelAt.written] using h.overwrites
      | update read => simpa [hat, CancelAt.written] using h.overwrites
      | writeEvent read written =>
        have hover := h.overwrites
        rw [hat] at hover
        rcases hover with hwritten | ⟨hcommitted, -⟩
        · exact Or.inl hwritten
        · cases hcommitted
      | commit read written =>
        have hpending := h.cancel
        have hover := h.overwrites
        rw [hat] at hpending hover
        rcases hover with ⟨row, hrow⟩ | ⟨hcommitted, -⟩
        · have hwritten : written = some row := hrow
          rw [hwritten] at hpending ⊢
          exact Or.inr ⟨rfl, caseIs_commitCase hpending _⟩
        · cases hcommitted
      | committed =>
        have hover := h.overwrites
        rw [hat] at hover
        rcases hover with ⟨row, hrow⟩ | ⟨-, hstatus⟩
        · cases hrow
        · exact Or.inr ⟨hat, hstatus⟩
      | threw => simpa [hat, CancelAt.written] using h.overwrites

/-! ## A case that is not there -/

/-- The cancellation throws, and nothing is written to any case. -/
structure Missing (ref : CaseRef) (s : CancelRace) : Prop where
  missing : s.db.findCase ref = none
  cancel : s.cancel = .findOne ∨ s.cancel = .threw
  finalization : s.finalization.written = none

theorem missing_step (s : CancelRace) (side : Side) (h : Missing ref s) :
    Missing ref (raceStep ref f s side) := by
  cases side with
  | cancel =>
    unfold raceStep cancelStep
    rcases h.cancel with hat | hat
    · rw [hat]
      dsimp only
      rw [h.missing]
      exact ⟨h.missing, Or.inr rfl, h.finalization⟩
    · rw [hat]
      exact h
  | finalization =>
    unfold raceStep finalizationStep
    cases hat : s.finalization with
    | update =>
      dsimp only
      split
      · exact h
      · refine ⟨h.missing, h.cancel, ?_⟩
        dsimp only [Finalization.update]
        rw [h.missing]
        split <;> rfl
    | writeEvent written =>
      have hnone := h.finalization
      rw [hat] at hnone
      exact ⟨h.missing, h.cancel, hnone⟩
    | commit written =>
      have hnone := h.finalization
      rw [hat] at hnone
      have hwritten : written = none := hnone
      rw [hwritten]
      exact ⟨h.missing, h.cancel, rfl⟩
    | committed => exact h
    | threw => exact h

end Race

/-! ## The law -/

/-- The case is READY_FOR_UNDERWRITING or CLOSED. -/
def Db.isFinal (db : Db) (ref : CaseRef) : Prop :=
  (db.findCase ref).any (·.status.isFinal) = true

/-- **A case that is finalized stays final exactly in the interleavings in which the cancellation
does not make its update after the other commit.** -/
theorem stays_final_iff (ref : CaseRef) (f : Finalization) (db : Db) (run : List Side)
    (hcancel : (exec (raceStep ref f) { db } run).cancel = .committed)
    (hfinalization : (exec (raceStep ref f) { db } run).finalization = .committed) :
    (exec (raceStep ref f) { db } run).db.isFinal ref
      ↔ AllSteps (raceStep ref f) UpdatesFirst { db } run := by
  cases hc : db.findCase ref with
  | none =>
    have hmissing : Missing ref { db } := ⟨hc, Or.inl rfl, rfl⟩
    rcases (exec_inv missing_step hmissing run).cancel with hat | hat
    · rw [hat] at hcancel
      cases hcancel
    · rw [hat] at hcancel
      cases hcancel
  | some c =>
    have hinv : RaceInv ref f { db } :=
      ⟨⟨c, hc, trivial⟩, pending_none _, pending_none _, Or.inl rfl, ⟨by simp, by simp⟩⟩
    constructor
    · intro hfinal
      by_contra hnot
      -- from the late update on, the case is bound for manual review
      obtain ⟨before, side, after, rfl, hlate⟩ := exists_step_of_not_allSteps hnot
      rw [exec_append, exec_cons] at hfinal hcancel
      have hover := exec_inv overwritten_step
        (overwritten_of_late (exec_inv raceInv_step hinv before) hlate) after
      rcases hover.overwrites with ⟨row, hrow⟩ | ⟨-, c', hc', hstatus⟩
      · rw [hcancel] at hrow
        cases hrow
      · unfold Db.isFinal at hfinal
        rw [hc', Option.any_some, hstatus] at hfinal
        cases hfinal
    · intro hfirst
      have hstands : Stands ref f { db } := ⟨hinv, fun h => by cases h⟩
      obtain ⟨⟨c', hc', hstatus⟩, -⟩ :=
        (exec_inv_of_allSteps stands_step hstands hfirst).final hfinalization
      unfold Db.isFinal
      rw [hc']
      exact hstatus

/-! ## A case that becomes ready under its cancellation -/

instance (db : Db) (ref : CaseRef) : Decidable (db.isFinal ref) := by
  unfold Db.isFinal
  infer_instance

/-- The transaction of `evaluateConditions` for the version it read, or of
`markReadyForUnderwriting`. -/
def sampleFinalization (expectedCaseVersion : Option Nat) : Finalization where
  status := .READY_FOR_UNDERWRITING
  isFinal := rfl
  expectedCaseVersion := expectedCaseVersion
  event := .workflowRunCompleted .READY_FOR_UNDERWRITING

def collectingDb : Db := sampleDb .COLLECTING_EVIDENCE sampleFacts

def sampleRace (expectedCaseVersion : Option Nat) (run : List Side) : CancelRace :=
  exec (raceStep sampleRef (sampleFinalization expectedCaseVersion)) { db := collectingDb } run

/-- The cancellation makes its update first, and the other update waits for its commit. -/
def updatesFirstRun : List Side :=
  [.cancel, .cancel, .finalization, .cancel, .cancel, .finalization, .finalization, .finalization]

theorem stays_final_updatesFirstRun :
    (sampleRace none updatesFirstRun).db.isFinal sampleRef
      ∧ AllSteps (raceStep sampleRef (sampleFinalization none)) UpdatesFirst { db := collectingDb }
        updatesFirstRun := by
  have hfinal : (sampleRace none updatesFirstRun).db.isFinal sampleRef := by decide +kernel
  exact ⟨hfinal, (stays_final_iff sampleRef (sampleFinalization none) collectingDb updatesFirstRun
    (by decide +kernel) (by decide +kernel)).mp hfinal⟩

/-- The evaluation makes the case ready between the cancellation's read and its update. -/
def readyBetweenRun : List Side :=
  [.cancel, .finalization, .finalization, .finalization, .cancel, .cancel, .cancel]

theorem cancel_overwrites_ready :
    (sampleRace (some 1) readyBetweenRun).cancel = .committed
      ∧ (sampleRace (some 1) readyBetweenRun).finalization = .committed
      ∧ ((sampleRace (some 1) readyBetweenRun).db.findCase sampleRef).map (·.status)
        = some .MANUAL_REVIEW
      ∧ ¬ (sampleRace (some 1) readyBetweenRun).db.isFinal sampleRef := by
  refine ⟨by decide +kernel, by decide +kernel, by decide +kernel, by decide +kernel⟩

end MortgageAgent.Workflow
