import MortgageAgent.Lib.Run
import MortgageAgent.Workflow.OneCondition

/-!
# Decisions on the version that was read

One `evaluateConditions` execution among any other writers of the case. It reads the case once, at
some version, and much later opens a condition or marks the case ready: `create_condition` checks
the version, inserts the condition and updates the case where it still has that version, and
`finalizeReadyForUnderwriting` is one such update. Others may write between any two transactions of
the execution; each of their writes raises the case's version.

* **`Contended`** / **`contendedStep`** — the execution and the others, with a note whether the case
  was written since it was read.
* **`RaisesVersion`** — what the others are taken to do.
* **`decides_on_version_read`** — a decision is committed only while nobody else has written the
  case, and after that the execution leaves the case, the conditions and the outbox alone.
-/

namespace MortgageAgent.Workflow

open Proc (Obeys)
open Runs

/-! ## An execution and its competitors -/

structure Contended where
  db : Db
  execution : Act EvaluateConditionsResult
  /-- another write to the case has committed since the execution read it -/
  overtaken : Bool := false

inductive ContendedLabel where
  /-- the execution's next transaction -/
  | move (m : Proc.Move Input Failure)
  /-- a transaction of anyone else commits -/
  | other (write : Db → Db)

def contendedStep (ref : CaseRef) (s : Contended) : ContendedLabel → Contended
  | .move m =>
    let (db, execution) := s.execution.move s.db m
    { s with db, execution }
  | .other write =>
    { s with
      db := write s.db
      overtaken := s.overtaken || (write s.db).findCase ref ≠ s.db.findCase ref }

/-- The execution has made its first transaction, the read of the case. -/
def Contended.read (deps : RuntimeDeps) (ref : CaseRef) (workflowRunId : String) (db : Db)
    (i : Input) : Contended :=
  let (db, execution) := (evaluateConditions deps ref workflowRunId).move db (.commit i)
  { db, execution }

/-- A write to the case raises its version. -/
def RaisesVersion (ref : CaseRef) (s : Contended) : ContendedLabel → Prop
  | .move _ => True
  | .other write => ∀ c ∈ s.db.findCase ref, ∃ c' ∈ (write s.db).findCase ref,
      c' = c ∨ c.version < c'.version

instance (ref : CaseRef) (s : Contended) (a : ContendedLabel) :
    Decidable (RaisesVersion ref s a) := by
  cases a <;> unfold RaisesVersion <;> infer_instance

/-- The step is a transaction of the execution that opens a condition or writes the case. -/
def Decides (ref : CaseRef) (s : Contended) : ContendedLabel → Prop
  | .move m => (contendedStep ref s (.move m)).db.caseRows ≠ s.db.caseRows
  | .other _ => False

/-- **The law**, of one step: a decision finds the case as it was read, at version `v`; and once
another has written the case, the execution writes no case, no condition and no event. -/
def DecidesOnVersion (ref : CaseRef) (v : Option Nat) (s : Contended) (a : ContendedLabel) : Prop :=
  (Decides ref s a → s.overtaken = false ∧ (s.db.findCase ref).map (·.version) = v)
    ∧ ∀ m, a = .move m → s.overtaken = true →
      (contendedStep ref s (.move m)).db.decisionRows = s.db.decisionRows

/-! ## The invariant -/

section Invariant

variable {ref : CaseRef} {v : Option Nat} {s : Contended}

/-- An execution that has not decided holds the version it read, which is the case's unless the
case was written since. -/
def Undecided (ref : CaseRef) (v : Option Nat) (s : Contended) : Phase → Prop
  | .reading version => v = some version ∧ ∃ c, s.db.findCase ref = some c ∧ version ≤ c.version
      ∧ (s.overtaken = true → version < c.version)
  | .idle | .opened _ | .clear => True

def ContendedInv (ref : CaseRef) (v : Option Nat) (s : Contended) : Prop :=
  ∃ g : Phase, s.execution.Obeys (DecisionStep ref) (Returned OpenedIn) g ∧ Undecided ref v s g

/-- A step of an evaluation stays in its phase and touches none of the rows, or decides on the
version it holds. -/
theorem decisionStep_cases {g g' : Phase} {db db' : Db} (h : DecisionStep ref g db db' g') :
    (g' = g ∧ db'.decisionRows = db.decisionRows)
      ∨ (∃ c, db.findCase ref = some c ∧ g = .reading c.version)
        ∧ (g' = .clear ∨ ∃ id, g' = .opened id) := by
  obtain ⟨hstep, houtbox⟩ := h
  cases hstep with
  | quiet hrows => exact Or.inl ⟨rfl, Prod.ext hrows (houtbox rfl)⟩
  | opens hc hcases hinsert hopen => exact Or.inr ⟨⟨_, hc, rfl⟩, Or.inr ⟨_, rfl⟩⟩
  | readies hc hcases hconditions => exact Or.inr ⟨⟨_, hc, rfl⟩, Or.inl rfl⟩

theorem findCase_of_decisionRows {db db' : Db} (h : db'.decisionRows = db.decisionRows) :
    db'.findCase ref = db.findCase ref :=
  findCase_congr (loanCases_of_caseRows (congrArg Prod.fst h))

theorem contendedInv_move (h : ContendedInv ref v s) (m : Proc.Move Input Failure) :
    ContendedInv ref v (contendedStep ref s (.move m)) := by
  obtain ⟨g, hobeys, hg⟩ := h
  obtain ⟨g', hstep, hrest⟩ := hobeys.move (decisionStep_refl ref) s.db m
  refine ⟨g', hrest, ?_⟩
  rcases decisionStep_cases hstep with ⟨rfl, hrows⟩ | ⟨-, rfl | ⟨id, rfl⟩⟩
  · have hfind : (contendedStep ref s (.move m)).db.findCase ref = s.db.findCase ref :=
      findCase_of_decisionRows hrows
    cases g' with
    | reading version =>
      obtain ⟨hv, c, hc, hle, hlt⟩ := hg
      exact ⟨hv, c, hfind.trans hc, hle, hlt⟩
    | idle => trivial
    | opened id => trivial
    | clear => trivial
  · trivial
  · trivial

theorem contendedInv_other (h : ContendedInv ref v s) {write : Db → Db}
    (hraises : RaisesVersion ref s (.other write)) :
    ContendedInv ref v (contendedStep ref s (.other write)) := by
  obtain ⟨g, hobeys, hg⟩ := h
  refine ⟨g, hobeys, ?_⟩
  cases g with
  | idle => trivial
  | opened id => trivial
  | clear => trivial
  | reading version =>
    obtain ⟨hv, c, hc, hle, hlt⟩ := hg
    obtain ⟨c', hc', rfl | hversion⟩ := hraises c hc
    · -- the case is as it was, and so is the note
      have hsame : (write s.db).findCase ref = s.db.findCase ref := by
        rw [hc]
        exact hc'
      refine ⟨hv, c', hc', hle, ?_⟩
      intro hovertaken
      apply hlt
      simpa [contendedStep, hsame] using hovertaken
    · exact ⟨hv, c', hc', by omega, fun _ => by omega⟩

theorem contendedInv_step (s : Contended) (a : ContendedLabel) (h : ContendedInv ref v s)
    (hraises : RaisesVersion ref s a) : ContendedInv ref v (contendedStep ref s a) := by
  cases a with
  | move m => exact contendedInv_move h m
  | other write => exact contendedInv_other h hraises

/-- What the invariant says of the execution's next transaction. -/
theorem decidesOnVersion_of_inv (s : Contended) (a : ContendedLabel) (h : ContendedInv ref v s) :
    DecidesOnVersion ref v s a := by
  cases a with
  | other write => exact ⟨fun hdecides => hdecides.elim, fun m hm => by cases hm⟩
  | move m =>
    obtain ⟨g, hobeys, hg⟩ := h
    obtain ⟨g', hstep, -⟩ := hobeys.move (decisionStep_refl ref) s.db m
    rcases decisionStep_cases hstep with ⟨-, hrows⟩ | ⟨⟨c, hc, rfl⟩, -⟩
    · refine ⟨fun hdecides => absurd (congrArg Prod.fst hrows) hdecides, ?_⟩
      intro m' hm _
      cases hm
      exact hrows
    · obtain ⟨hv, c', hc', -, hlt⟩ := hg
      rw [hc] at hc'
      cases hc'
      have hfirst : s.overtaken = false := by
        cases hovertaken : s.overtaken with
        | false => rfl
        | true => exact absurd (hlt hovertaken) (Nat.lt_irrefl _)
      refine ⟨fun _ => ⟨hfirst, by rw [hc, hv]; rfl⟩, ?_⟩
      intro m' _ hovertaken
      rw [hfirst] at hovertaken
      cases hovertaken

theorem contendedInv_read (deps : RuntimeDeps) (ref : CaseRef) (workflowRunId : String) (db : Db)
    (i : Input) :
    ContendedInv ref ((db.findCase ref).map (·.version))
      (Contended.read deps ref workflowRunId db i) := by
  unfold Contended.read
  rw [evaluateConditions_move]
  cases hc : db.findCase ref with
  | none => exact ⟨.clear, trivial, trivial⟩
  | some c =>
    refine ⟨.reading c.version, evaluateCase_decides deps ref workflowRunId c.version, rfl, c, hc,
      Nat.le_refl _, ?_⟩
    intro hovertaken
    cases hovertaken

end Invariant

/-- **An evaluation decides on the version it read.** Over every interleaving with writers that
raise the version, it opens a condition or marks the case ready only while nobody else has written
the case; and once somebody has, it writes no condition, no case and no event. -/
theorem decides_on_version_read (deps : RuntimeDeps) (ref : CaseRef) (workflowRunId : String)
    (db : Db) (i : Input) (run : List ContendedLabel)
    (hraises : AllSteps (contendedStep ref) (RaisesVersion ref)
      (Contended.read deps ref workflowRunId db i) run) :
    AllSteps (contendedStep ref) (DecidesOnVersion ref ((db.findCase ref).map (·.version)))
      (Contended.read deps ref workflowRunId db i) run :=
  allSteps_of_inv_of_allSteps contendedInv_step (fun s a h _ => decidesOnVersion_of_inv s a h)
    (contendedInv_read deps ref workflowRunId db i) hraises

/-! ## A case that is escalated under its evaluation -/

/-- The execution's next `count` transactions commit. -/
def executionCommits (first count : Nat) : List ContendedLabel :=
  (List.range' first count).map fun n => .move (.commit (sampleInput n))

def sampleContended (run : List ContendedLabel) : Contended :=
  exec (contendedStep sampleRef) (Contended.read sampleDeps sampleRef "run-1" collectedDb
    (sampleInput 0)) run

/-- A reviewer is asked for before the condition is written: between the tool's check of the
version and its writes. -/
def escalatedRun : List ContendedLabel :=
  executionCommits 1 26
    ++ [.other fun db => escalateToReviewer db sampleRef "late documents" 1]
    ++ executionCommits 27 8

theorem decides_on_version_escalatedRun :
    AllSteps (contendedStep sampleRef) (DecidesOnVersion sampleRef (some 1))
        (Contended.read sampleDeps sampleRef "run-1" collectedDb (sampleInput 0)) escalatedRun
      ∧ (sampleContended escalatedRun).overtaken = true
      ∧ (sampleContended escalatedRun).db.conditions.rows = []
      ∧ (sampleContended escalatedRun).db.outbox.map (·.payload)
        = [.caseEscalated "late documents"] :=
  ⟨decides_on_version_read sampleDeps sampleRef "run-1" collectedDb (sampleInput 0) escalatedRun
    (by decide +kernel), by decide +kernel, by decide +kernel, by decide +kernel⟩

end MortgageAgent.Workflow
