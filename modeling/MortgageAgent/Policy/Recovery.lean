import MortgageAgent.Policy.Reuse

/-!
# What a returned binding stands for

An `evaluate` call returns a binding in four ways: from the fast path, refreshed in place, newly
inserted, or, after losing the insert to another call, whatever binding is active by then. The
first three check or write the call's own context key and generation. The last one takes the
winner's row as it is.

* **`RecoversOwn`** — a recovery finds an active binding, of its own context, that observed the
  call's generation or a later one.
* **`Fits`** — what the locals and the returned results then have to do with their call.
* **`returned_bindings_current`** — if every recovery does, then every returned binding is for the
  call's context, every returned resolution was computed at the call's generation or later, and
  no recovery throws.

`recovery_returns_other_context` has a run on which two calls of one case race with different
contexts and both return the binding of one of them.
-/

namespace MortgageAgent.Policy

open Runs

/-! ## The condition -/

/-- A recovery that starts here reads an active binding that would do for its own call. -/
def RecoversOwn (s : System) : Label → Bool
  | .evaluate c _ =>
    match s.evaluations c with
    | .recoverBinding call g =>
      (findActiveBinding s.evaluation call).any fun b =>
        b.contextKey = contextKey call.context && g ≤ b.observedCatalogGeneration
    | _ => true
  | _ => true

/-! ## Bindings that fit their call -/

/-- The binding is for the context, and observed the generation or a later one. -/
def BindingFits (context : PolicyResolutionContext) (g : Nat) (b : CasePolicyBinding) : Prop :=
  b.contextKey = contextKey context ∧ g ≤ b.observedCatalogGeneration

def StateFits : EvaluationState → Prop
  | .refresh call _ _ b _ _ => b.contextKey = contextKey call.context
  | .recoverSnapshot call g b => BindingFits call.context g b
  | _ => True

def EventFits : Event → Prop
  | .returned _ context g result => ∀ b, result.binding = some b → BindingFits context g b
  | .recoveryThrew _ => False
  | _ => True

/-- No call returns, or is about to return, a binding that is not its own. -/
structure Fits (s : System) : Prop where
  states : ∀ c, StateFits (s.evaluations c)
  events : ∀ e ∈ s.log, EventFits e

theorem afterResolve_fits (deps : Deps) (call : EvaluateCall) (g : Nat) (now : Instant)
    (existing : Option (CasePolicyBinding × CasePolicySnapshot)) (r : PolicyResolutionResult) :
    StateFits (afterResolve deps call g now existing r) := by
  unfold afterResolve
  split
  · trivial
  · split
    · split
      · next hrefresh =>
        simp only [refreshesInPlace, Bool.and_eq_true, decide_eq_true_eq] at hrefresh
        exact hrefresh.1.2
      · trivial
    · trivial

/-- The winner's snapshot is there to be read. -/
theorem findSnapshot_of_traced {deps : Deps} {s : System} {call : EvaluateCall}
    {b : CasePolicyBinding} (h : BindingTraced deps s b) (htenant : b.tenantId = call.tenantId) :
    findSnapshot s.evaluation call b.policySnapshotId ≠ none := by
  obtain ⟨snapshot, hfind, hsnapshot, -⟩ := h.snapshot
  have hfound : findSnapshot s.evaluation call b.policySnapshotId = some snapshot :=
    Option.filter_eq_some_iff.mpr ⟨hfind, decide_eq_true (hsnapshot.trans htenant)⟩
  rw [hfound]
  nofun

/-! ## One step -/

/-- A transaction, if it is a recovery of the right kind, leaves fitting locals and events. -/
theorem fits_effect {deps : Deps} {s : System} {c : Nat} {env : Env} {m : EvaluationMove}
    (htraced : Traced deps s) (h : Fits s) (hown : RecoversOwn s (.evaluate c env) = true)
    (heffect : EvaluationEffect deps s.release.catalog s.release.generation s.evaluation env c
      (s.evaluations c) m) :
    StateFits m.state ∧ ∀ e ∈ m.events, EventFits e := by
  have hstate := h.states c
  have hlocals := htraced.states c
  simp only [RecoversOwn] at hown
  generalize s.evaluations c = state at heffect hstate hlocals hown
  cases heffect with
  | reused call g now b snapshot hfind hfast =>
    simp only [fastPath, Bool.and_eq_true, decide_eq_true_eq] at hfast
    refine ⟨trivial, ?_⟩
    simp only [returns, List.cons_append, List.nil_append, List.forall_mem_cons]
    refine ⟨trivial, ?_, by simp⟩
    rintro b' ⟨⟩
    exact ⟨hfast.1.1.2, le_of_eq hfast.1.2.symm⟩
  | resolved call g now existing r hresolve =>
    exact ⟨afterResolve_fits deps call g now existing r, by simp [EventFits]⟩
  | reviewed call g r snapshot =>
    refine ⟨trivial, ?_⟩
    simp [returns, EventFits]
  -- `refreshesInPlace` compared the context, and the row now carries this call's generation.
  | refreshed call g now b snapshot r =>
    refine ⟨trivial, ?_⟩
    simp only [returns, List.cons_append, List.nil_append, List.forall_mem_cons]
    refine ⟨trivial, ?_, by simp⟩
    rintro b' ⟨⟩
    exact ⟨hstate, le_refl g⟩
  | inserted call g now r snapshot db' hinsert =>
    refine ⟨trivial, ?_⟩
    simp only [returns, List.cons_append, List.nil_append, List.forall_mem_cons]
    refine ⟨trivial, ?_, by simp⟩
    rintro b' ⟨⟩
    exact ⟨rfl, le_refl g⟩
  | noWinner call g hfind =>
    -- the condition says that there is a winner
    simp [hfind] at hown
  | winner call g b hfind =>
    simp only [hfind, Option.any_some, Bool.and_eq_true, decide_eq_true_eq] at hown
    exact ⟨hown, by simp⟩
  -- a binding's snapshot is stored before the binding and never removed.
  | noWinningSnapshot call g b hfind =>
    exact absurd hfind (findSnapshot_of_traced hlocals.1 hlocals.2)
  | recovered call g b snapshot hfind =>
    refine ⟨trivial, ?_⟩
    simp only [returns, List.nil_append, List.mem_singleton, forall_eq]
    rintro b' ⟨⟩
    exact hstate
  | _ => exact ⟨trivial, by simp [evaluationThrows]⟩

theorem Fits.moved {s : System} (h : Fits s) {c : Nat} {m : EvaluationMove}
    (hstate : StateFits m.state) (hevents : ∀ e ∈ m.events, EventFits e) : Fits (s.moved c m) where
  states c' := by
    by_cases hc : c' = c
    · subst hc
      simpa [System.moved, System.setEvaluation] using hstate
    · simpa [System.moved, System.setEvaluation, hc] using h.states c'
  events e he := by
    rcases List.mem_append.mp he with hold | hnew
    · exact h.events e hold
    · exact hevents e hnew

theorem Fits.setEvaluation {s : System} (h : Fits s) {c : Nat} {state : EvaluationState}
    (hstate : StateFits state) : Fits (s.setEvaluation c state) where
  states c' := by
    by_cases hc : c' = c
    · subst hc
      simpa [System.setEvaluation] using hstate
    · simpa [System.setEvaluation, hc] using h.states c'
  events := h.events

theorem Fits.startRelease {s : System} (h : Fits s) (r : Nat) (state : ReleaseState) :
    Fits (s.startRelease r state) := by
  unfold System.startRelease
  split
  · exact ⟨h.states, h.events⟩
  · exact h

theorem fits_step (deps : Deps) (s : System) (a : Label) (htraced : Traced deps s) (h : Fits s)
    (hown : RecoversOwn s a = true) : Fits (step deps s a) := by
  cases a with
  | startPropose r id proposedBy notes => exact h.startRelease r _
  | startApprove r id approvedBy => exact h.startRelease r _
  | startActivate r id => exact h.startRelease r _
  | startWithdraw r id => exact h.startRelease r _
  | release r env => exact ⟨h.states, h.events⟩
  | releaseFails r => exact ⟨h.states, h.events⟩
  | startEvaluate c call =>
    simp only [step]
    split
    · exact h.setEvaluation trivial
    · exact h
  | evaluate c env =>
    rw [step_evaluate]
    obtain ⟨hstate, hevents⟩ := fits_effect htraced h hown (evaluationStep_effect deps
      s.release.catalog s.release.generation s.evaluation env c (s.evaluations c))
    exact h.moved hstate hevents
  | evaluateFails c => exact h.setEvaluation trivial

/-! ## Every run -/

/-- Every returned binding is for the call's context, every returned resolution was computed at
the generation that was current when the call started or later, and no recovery threw. -/
def ReturnsCurrent (log : List Event) : Prop :=
  (∀ c context g result, Event.returned c context g result ∈ log → ∀ b, result.binding = some b →
    b.contextKey = contextKey context
      ∧ HasResolved log fun g' r => g ≤ g' ∧ digestText r = digestText result.resolution)
  ∧ ∀ c, Event.recoveryThrew c ∉ log

/-- **Returned bindings are current.** In every run on which SHA-256 tells the hashed texts apart
and in which every recovery reads a binding that would do for its own call. -/
theorem returned_bindings_current (deps : Deps) (release : ReleaseDb) (run : List Label)
    (hcollision : NoCollision deps (exec (step deps) (System.init release) run).log)
    (h : AllSteps (step deps) (fun s a => RecoversOwn s a = true) (System.init release) run) :
    ReturnsCurrent (exec (step deps) (System.init release) run).log := by
  obtain ⟨htraced, hfits⟩ := exec_inv_of_allSteps
    (I := fun s => Traced deps s ∧ Fits s)
    (fun s a hs hown => ⟨traced_step deps s a hs.1, fits_step deps s a hs.1 hs.2 hown⟩)
    ⟨traced_init deps release, ⟨fun _ => trivial, by simp [System.init]⟩⟩ h
  refine ⟨fun c context g result hmem b hb => ?_, fun c hmem => hfits.events _ hmem⟩
  -- the generation of the binding bounds the call's from above, and its resolution is later still.
  obtain ⟨hkey, hg⟩ := hfits.events _ hmem b hb
  obtain ⟨⟨c', context', k, catalog, g', r, hr, hg', hdigest⟩, hdigestOf⟩ :=
    htraced.events _ hmem b hb
  exact ⟨hkey, c', context', k, catalog, g', r, hr, le_trans hg hg',
    hdigestOf.text_eq hcollision hr hdigest⟩

/-! ### Two calls of one case -/

/-- Both calls find no binding; the first to insert wins, and the other reads back. -/
def racingRun (first second : PolicyResolutionContext) : List Label :=
  .startEvaluate 0 (caseCall first) :: .startEvaluate 1 (caseCall second)
    :: evaluates 0 1 (evaluationEnv 1786795200000 50)
    ++ evaluates 1 1 (evaluationEnv 1786795200000 51)
    ++ evaluates 0 3 (evaluationEnv 1786795200000 50)
    ++ evaluates 1 5 (evaluationEnv 1786795200000 51)

/-- The two calls have the same context. -/
theorem returned_bindings_current_sameContext :
    AllSteps (step digestDeps) (fun s a => RecoversOwn s a = true) (System.init coveredDb)
        (racingRun (underwriting 1786795200000) (underwriting 1786795200000))
      ∧ ReturnsCurrent (exec (step digestDeps) (System.init coveredDb)
        (racingRun (underwriting 1786795200000) (underwriting 1786795200000))).log := by
  have hown : AllSteps (step digestDeps) (fun s a => RecoversOwn s a = true)
      (System.init coveredDb)
      (racingRun (underwriting 1786795200000) (underwriting 1786795200000)) := by
    decide +kernel
  have hcollision : NoCollision digestDeps (exec (step digestDeps) (System.init coveredDb)
      (racingRun (underwriting 1786795200000) (underwriting 1786795200000))).log :=
    noCollision_of_same (n := 2) (r := underwritingResolution) (by decide +kernel)
  exact ⟨hown, returned_bindings_current digestDeps coveredDb _ hcollision hown⟩

/-- The same case at closing, for which the catalog has no rule. -/
def closing : PolicyResolutionContext :=
  { underwriting 1786795200000 with lifecycleEvent := "CLOSING" }

def closingResolution : PolicyResolutionResult :=
  (resolve digestDeps coveredDb.catalog closing 1786795200000).toOption.getD (reviewRequired [])

/-- What the call at closing returns: the other call's snapshot and binding. -/
def closingResult : PolicyEvaluationResult where
  outcome := .REUSED
  resolution := reconstructResolution underwritingSnapshot
  snapshot := underwritingSnapshot
  binding := some underwritingBinding

/-- **A recovery returns a binding of another context.** -/
theorem recovery_returns_other_context :
    ¬ ∀ (deps : Deps) (release : ReleaseDb) (run : List Label),
      NoCollision deps (exec (step deps) (System.init release) run).log →
      ReturnsCurrent (exec (step deps) (System.init release) run).log := by
  intro h
  have hcurrent := h digestDeps coveredDb (racingRun (underwriting 1786795200000) closing)
    (noCollision_of_apart (a := underwritingResolution) (b := closingResolution)
      (by decide +kernel) (by decide +kernel))
  -- the call at closing lost the race for the insert and read the other call's binding back.
  have hmem : Event.returned 1 closing 0 closingResult ∈ (exec (step digestDeps)
      (System.init coveredDb) (racingRun (underwriting 1786795200000) closing)).log :=
    List.mem_of_getElem? (i := 4) rfl
  obtain ⟨hkey, -⟩ := hcurrent.1 1 closing 0 closingResult hmem underwritingBinding rfl
  exact absurd hkey (by decide)

end MortgageAgent.Policy
