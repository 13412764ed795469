import MortgageAgent.Policy.System

/-!
# The released set and the catalog generation

Cached bindings are valid as long as the generation stands still, so the generation has to move
whenever the set of released versions does. Every call checks the status it read, and writes
without looking again.

* **`StatusEffect`** — what one step does to the statuses: nothing, or one of three writes.
* **`WritesInOrder`** — the write of a `propose` does not find the version released or withdrawn,
  and the write of an `activate` does not find it withdrawn.
* **`released_changes_bump`** — then the released set changes only together with the generation,
  and a withdrawn version is never released again.

`stale_writes_unnoticed` has a run on which a late `propose` takes a version back from `RELEASED`
without moving the generation, and one on which a late `activate` releases a withdrawn version.
-/

namespace MortgageAgent.Policy

open Runs

/-! ## Statuses -/

def Catalog.statusOf (catalog : Catalog) (id : Uuid) : Option PolicyReleaseStatus :=
  (catalog.versions.find id).map PolicyVersion.releaseStatus

def System.statusOf (s : System) (id : Uuid) : Option PolicyReleaseStatus :=
  s.release.catalog.statusOf id

/-- The versions that are released. -/
def System.released (s : System) : Set Uuid :=
  { id | s.statusOf id = some .RELEASED }

theorem statusOf_setStatus (catalog : Catalog) (id : Uuid) (status : PolicyReleaseStatus)
    (id' : Uuid) :
    (catalog.setStatus id status).statusOf id'
      = if id' = id then (catalog.statusOf id).map fun _ => status else catalog.statusOf id' := by
  simp only [Catalog.statusOf, Catalog.setStatus, Table.find_mapRows, Option.map_map]
  -- the update is a map over the rows, so a missing version stays missing.
  cases hfind : catalog.versions.find id' with
  | none =>
    split
    · next hid => subst hid; simp [hfind]
    · simp
  | some v =>
    obtain ⟨-, hv⟩ := catalog.versions.find_eq_some_iff.mp hfind
    split
    · next hid => subst hid; simp [hfind, hv, PolicyVersion.withStatus]
    · next hid => simp [hv, hid]

/-! ## What a step does to the statuses -/

inductive StatusEffect (s s' : System) : Label → Prop where
  | same {a : Label} (h : s'.release.catalog = s.release.catalog) : StatusEffect s s' a
  | proposed (r : Nat) (env : Env) (id : Uuid) (proposedBy : String) (notes : Option String)
      (hstate : s.releases r = .proposeWrite id proposedBy notes)
      (h : s'.release = s.release.setStatus id .PROPOSED) : StatusEffect s s' (.release r env)
  | activated (r : Nat) (env : Env) (id : Uuid) (hstate : s.releases r = .activateWrite id)
      (h : s'.release = s.release.setStatusAndBump id .RELEASED) :
      StatusEffect s s' (.release r env)
  | withdrawn (r : Nat) (env : Env) (id : Uuid) (hstate : s.releases r = .withdrawWrite id)
      (h : s'.release = s.release.setStatusAndBump id .WITHDRAWN) :
      StatusEffect s s' (.release r env)

theorem release_statusEffect (deps : Deps) (s : System) (r : Nat) (env : Env) :
    StatusEffect s (step deps s (.release r env)) (.release r env) := by
  cases hr : s.releases r with
  | proposeWrite id proposedBy notes =>
    exact .proposed r env id proposedBy notes hr
      (by simp [step, hr, releaseStep, System.setRelease])
  | activateWrite id =>
    exact .activated r env id hr (by simp [step, hr, releaseStep, System.setRelease])
  | withdrawWrite id =>
    exact .withdrawn r env id hr (by simp [step, hr, releaseStep, System.setRelease])
  | proposeSave id proposedBy notes =>
    refine .same ?_
    simp only [step, hr, releaseStep, System.setRelease]
    split <;> rfl
  | approveRead approvalId =>
    refine .same ?_
    simp only [step, hr, releaseStep, System.setRelease]
    split <;> rfl
  | activateCheck id =>
    refine .same ?_
    simp only [step, hr, releaseStep, System.setRelease]
    split <;> rfl
  | approveWrite approvalId approvedBy =>
    exact .same (by simp [step, hr, releaseStep, System.setRelease, ReleaseDb.approve])
  | idle => exact .same (by simp [step, hr, releaseStep, System.setRelease])
  | finished result => exact .same (by simp [step, hr, releaseStep, System.setRelease])

/-- A call that starts only reads. -/
theorem startRelease_release (s : System) (r : Nat) (state : ReleaseState) :
    (s.startRelease r state).release = s.release := by
  unfold System.startRelease
  split <;> rfl

/-- **Statuses change only by those three writes.** -/
theorem statusEffect (deps : Deps) (s : System) (a : Label) :
    StatusEffect s (step deps s a) a := by
  cases a with
  | release r env => exact release_statusEffect deps s r env
  | startPropose r id proposedBy notes =>
    exact .same (congrArg ReleaseDb.catalog (startRelease_release s r _))
  | startApprove r id approvedBy =>
    exact .same (congrArg ReleaseDb.catalog (startRelease_release s r _))
  | startActivate r id => exact .same (congrArg ReleaseDb.catalog (startRelease_release s r _))
  | startWithdraw r id => exact .same (congrArg ReleaseDb.catalog (startRelease_release s r _))
  | releaseFails r => exact .same rfl
  | startEvaluate c call =>
    refine .same ?_
    simp only [step]
    split <;> rfl
  | evaluate c env => exact .same rfl
  | evaluateFails c => exact .same rfl

/-! ## The laws -/

/-- The write of the step does not overtake a release or a withdrawal. -/
def WritesInOrder (s : System) : Label → Bool
  | .release r _ =>
    match s.releases r with
    -- `propose` checked for `DRAFT` in an earlier transaction.
    | .proposeWrite id _ _ => s.statusOf id ≠ some .RELEASED && s.statusOf id ≠ some .WITHDRAWN
    | .activateWrite id => s.statusOf id ≠ some .WITHDRAWN
    | _ => true
  | _ => true

/-- The released set moves only with the generation. -/
def BumpsWithReleased (deps : Deps) (s : System) (a : Label) : Prop :=
  (step deps s a).released ≠ s.released →
    (step deps s a).release.generation = s.release.generation + 1

/-- The statuses after a write. -/
theorem statusOf_of_setStatus {s s' : System} {id : Uuid} {status : PolicyReleaseStatus}
    (h : s'.release.catalog = s.release.catalog.setStatus id status) (id' : Uuid) :
    s'.statusOf id' = if id' = id then (s.statusOf id).map fun _ => status else s.statusOf id' := by
  rw [System.statusOf, h, statusOf_setStatus]
  rfl

theorem released_eq_of_catalog {s s' : System}
    (h : s'.release.catalog = s.release.catalog) : s'.released = s.released := by
  simp [System.released, System.statusOf, h]

/-- Proposing a version that is not released leaves the released set as it is. -/
theorem released_eq_of_proposed {s s' : System} {id : Uuid}
    (h : s'.release = s.release.setStatus id .PROPOSED) (hid : s.statusOf id ≠ some .RELEASED) :
    s'.released = s.released := by
  ext id'
  have hcatalog : s'.release.catalog = s.release.catalog.setStatus id .PROPOSED :=
    congrArg ReleaseDb.catalog h
  have hstatus := statusOf_of_setStatus hcatalog id'
  simp only [System.released, Set.mem_ofPred_eq, hstatus]
  split
  · next heq => subst heq; simp [hid]
  · rfl

theorem bumpsWithReleased (deps : Deps) (s : System) (a : Label)
    (horder : WritesInOrder s a = true) : BumpsWithReleased deps s a := by
  intro hchange
  -- activations and withdrawals bump in the transaction of their write; a proposal bumps nothing.
  have heffect := statusEffect deps s a
  generalize step deps s a = s' at heffect hchange ⊢
  cases heffect with
  | same h => exact absurd (released_eq_of_catalog h) hchange
  | proposed r env id proposedBy notes hstate h =>
    simp only [WritesInOrder, hstate, Bool.and_eq_true, decide_eq_true_eq] at horder
    exact absurd (released_eq_of_proposed h horder.1) hchange
  | activated r env id hstate h => rw [h]; rfl
  | withdrawn r env id hstate h => rw [h]; rfl

/-- A withdrawn version stays withdrawn. -/
theorem withdrawn_step (deps : Deps) (s : System) (a : Label)
    (horder : WritesInOrder s a = true) {id : Uuid} (hid : s.statusOf id = some .WITHDRAWN) :
    (step deps s a).statusOf id = some .WITHDRAWN := by
  have heffect := statusEffect deps s a
  generalize step deps s a = s' at heffect ⊢
  cases heffect with
  | same h => rw [System.statusOf, h]; exact hid
  | proposed r env id' proposedBy notes hstate h =>
    simp only [WritesInOrder, hstate, Bool.and_eq_true, decide_eq_true_eq] at horder
    -- in order, the write is not to a withdrawn version: so not to this one.
    have hne : id ≠ id' := by
      rintro rfl
      exact horder.2 hid
    rw [statusOf_of_setStatus (s := s) (congrArg ReleaseDb.catalog h), if_neg hne]
    exact hid
  | activated r env id' hstate h =>
    simp only [WritesInOrder, hstate, decide_eq_true_eq] at horder
    have hne : id ≠ id' := by
      rintro rfl
      exact horder hid
    rw [statusOf_of_setStatus (s := s) (congrArg ReleaseDb.catalog h), if_neg hne]
    exact hid
  | withdrawn r env id' hstate h =>
    rw [statusOf_of_setStatus (s := s) (congrArg ReleaseDb.catalog h)]
    split
    · next heq => rw [← heq, hid]; rfl
    · exact hid

/-- **The generation follows the released set.** In every run whose writes are in order, every
step that changes the released set raises the generation by one, and a version that has become
withdrawn is never released again. -/
theorem released_changes_bump (deps : Deps) (release : ReleaseDb) (run : List Label)
    (h : AllSteps (step deps) (fun s a => WritesInOrder s a = true) (System.init release) run) :
    AllSteps (step deps) (BumpsWithReleased deps) (System.init release) run
      ∧ ∀ before after id, run = before ++ after →
        (exec (step deps) (System.init release) before).statusOf id = some .WITHDRAWN →
        (exec (step deps) (System.init release) run).statusOf id ≠ some .RELEASED := by
  refine ⟨h.imp (bumpsWithReleased deps), ?_⟩
  rintro before after id rfl hid
  rw [exec_append]
  -- from the state where it is withdrawn, over the rest of the run.
  have hafter := h.of_append_right
  have hwithdrawn := exec_inv_of_allSteps (I := fun s : System => s.statusOf id = some .WITHDRAWN)
    (fun s a hs horder => withdrawn_step deps s a horder hs) hid hafter
  rw [hwithdrawn]
  nofun

/-! ### One version of one rule -/

/-- A runtime whose `Date.parse` knows the one date of the rule below. -/
def sampleDeps : Deps where
  sha256 := fun _ => ""
  dateParses := fun s => s = "2026-01-01T00:00:00Z"

def incomeVarianceDsl : Json :=
  .obj [("rule", .obj [("id", .str "income-variance"), ("version", .str "1.0.0"),
    ("applicability", .obj [("jurisdictions", .arr [.str "US"]),
      ("product", .str "CONVENTIONAL_MORTGAGE"),
      ("lifecycle_events", .arr [.str "UNDERWRITING_REVIEW"]),
      ("effective_from", .str "2026-01-01T00:00:00Z")]),
    ("when", .obj [("difference_percent", .obj [("left", .str "application.monthlyIncome"),
      ("right", .str "evidence.monthlyIncome"), ("greater_than", .num (.scaled 1 1))])]),
    ("outcome", .obj [("condition", .str "INCOME_VARIANCE"), ("route", .str "MANUAL_REVIEW")])])]

def incomeVariance (status : PolicyReleaseStatus) : PolicyVersion where
  id := 7
  ruleId := "income-variance"
  version := "1.0.0"
  dsl := incomeVarianceDsl
  effectiveFrom := 1767225600000
  effectiveTo := none
  releaseStatus := status

def draftDb : ReleaseDb where
  catalog :=
    { jurisdictions := .empty
      sources := .empty
      revisions := .empty
      versions := ⟨[incomeVariance .DRAFT], by decide⟩
      applicability := .empty }
  generation := 0
  approvals := .empty

def releaseEnv : Env where
  dbNow := 1786795200000
  processNow := 1786795200000
  newId := 50

/-- Call `r` runs `n` of its transactions. -/
def releases (r n : Nat) : List Label :=
  List.replicate n (.release r releaseEnv)

/-- Proposed by one person, approved by another, activated. -/
def activatedRun : List Label :=
  .startPropose 0 7 "author" none :: releases 0 2 ++ .startApprove 2 7 "approver" :: releases 2 2
    ++ .startActivate 3 7 :: releases 3 2

theorem released_changes_bump_withdrawal :
    AllSteps (step sampleDeps) (fun s a => WritesInOrder s a = true) (System.init draftDb)
        (activatedRun ++ [.startWithdraw 4 7, .release 4 releaseEnv])
      ∧ AllSteps (step sampleDeps) (BumpsWithReleased sampleDeps) (System.init draftDb)
        (activatedRun ++ [.startWithdraw 4 7, .release 4 releaseEnv]) :=
  ⟨by decide, (released_changes_bump sampleDeps draftDb _ (by decide)).1⟩

/-- A second `propose` has read the draft before all this. -/
def staleProposeRun : List Label :=
  .startPropose 1 7 "co-author" none :: activatedRun

/-- A second `activate` has read the proposal before the first one wrote, and the version has
been withdrawn since. -/
def staleActivateRun : List Label :=
  .startPropose 0 7 "author" none :: releases 0 2 ++ .startApprove 2 7 "approver" :: releases 2 2
    ++ .startActivate 4 7 :: .release 4 releaseEnv :: .startActivate 3 7 :: releases 3 2
    ++ [.startWithdraw 5 7, .release 5 releaseEnv]

/-- **A late `propose` takes a version back** from `RELEASED` and the generation stands still,
and **a late `activate` releases a withdrawn version**. -/
theorem stale_writes_unnoticed :
    (¬ ∀ (deps : Deps) (release : ReleaseDb) (run : List Label),
      AllSteps (step deps) (BumpsWithReleased deps) (System.init release) run)
    ∧ ¬ ∀ (deps : Deps) (release : ReleaseDb) (before after : List Label) (id : Uuid),
      (exec (step deps) (System.init release) before).statusOf id = some .WITHDRAWN →
      (exec (step deps) (System.init release) (before ++ after)).statusOf id
        ≠ some .RELEASED := by
  constructor
  · intro h
    have hlast := (h sampleDeps draftDb (staleProposeRun ++ [.release 1 releaseEnv])).of_append_right
    have hbefore : (exec (step sampleDeps) (System.init draftDb) staleProposeRun).statusOf 7
        = some .RELEASED := by decide
    have hafter : (exec (step sampleDeps) (System.init draftDb)
        (staleProposeRun ++ [.release 1 releaseEnv])).statusOf 7 = some .PROPOSED := by decide
    -- the last step took version 7 out of the released set, so it should have bumped.
    have hbump := hlast.1 ?_
    · exact absurd hbump (by decide)
    · intro heq
      have hmem : 7 ∈ (exec (step sampleDeps) (System.init draftDb) staleProposeRun).released :=
        hbefore
      rw [← heq] at hmem
      have hreleased : (exec (step sampleDeps) (System.init draftDb)
        (staleProposeRun ++ [.release 1 releaseEnv])).statusOf 7 = some .RELEASED := hmem
      rw [hafter] at hreleased
      cases hreleased
  · intro h
    exact h sampleDeps draftDb staleActivateRun [.release 4 releaseEnv] 7 (by decide) (by decide)

end MortgageAgent.Policy
