import MortgageAgent.Policy.ReleaseSafety

/-!
# What a binding stands on

A binding outlives the call that stored it, is read by calls that resolve nothing, and is
refreshed by calls that did not write its snapshot. What it claims can still be traced: to a row
that holds its snapshot, and to a call of the resolver at a generation that is not older than the
one it observed.

* **`EvaluationEffect`** — what one transaction of an `evaluate` call can do.
* **`Extends`** — what no step takes back: the history, the snapshots, the fixed part of each
  binding, and the generation.
* **`Traced`** / **`traced`** — every row, every local and every event is traced to the resolver,
  in every state of every run.
* **`resolved_once`** — a call calls the resolver at most once.
-/

namespace MortgageAgent.Policy

open Runs

/-! ## What one transaction does -/

section Effect

variable (deps : Deps) (catalog : Catalog) (generation : Nat) (db : EvaluationDb) (env : Env)
  (c : Nat)

/-- The moves of an `evaluate` call, one constructor for each way out of a state. -/
inductive EvaluationEffect : EvaluationState → EvaluationMove → Prop where
  | idle : EvaluationEffect .idle ⟨db, .idle, []⟩
  | ended (result : Except PolicyFailure PolicyEvaluationResult) :
      EvaluationEffect (.finished result) ⟨db, .finished result, []⟩
  | unbound (call : EvaluateCall) (g : Nat) :
      EvaluationEffect (.readBinding call g) ⟨db, .resolve call g env.processNow none, []⟩
  | bound (call : EvaluateCall) (g : Nat) (b : CasePolicyBinding)
      (hfind : findActiveBinding db call = some b) :
      EvaluationEffect (.readBinding call g) ⟨db, .readSnapshot call g env.processNow b, []⟩
  | noSnapshot (call : EvaluateCall) (g : Nat) (now : Instant) (b : CasePolicyBinding) :
      EvaluationEffect (.readSnapshot call g now b)
        (evaluationThrows db (.entityNotFound "CasePolicySnapshot"))
  | reused (call : EvaluateCall) (g : Nat) (now : Instant) (b : CasePolicyBinding)
      (snapshot : CasePolicySnapshot) (hfind : findSnapshot db call b.policySnapshotId = some snapshot)
      (hfast : fastPath call.context g now b snapshot = true) :
      EvaluationEffect (.readSnapshot call g now b)
        (returns db c call g
          { outcome := .REUSED
            resolution := reconstructResolution snapshot
            snapshot := snapshot
            binding := some b }
          [.reused c call.context now catalog b snapshot])
  | slow (call : EvaluateCall) (g : Nat) (now : Instant) (b : CasePolicyBinding)
      (snapshot : CasePolicySnapshot)
      (hfind : findSnapshot db call b.policySnapshotId = some snapshot) :
      EvaluationEffect (.readSnapshot call g now b)
        ⟨db, .resolve call g now (some (b, snapshot)), []⟩
  | unparsable (call : EvaluateCall) (g : Nat) (now : Instant)
      (existing : Option (CasePolicyBinding × CasePolicySnapshot))
      (issues : List PolicyDslIssue) :
      EvaluationEffect (.resolve call g now existing) (evaluationThrows db (.dsl issues))
  | resolved (call : EvaluateCall) (g : Nat) (now : Instant)
      (existing : Option (CasePolicyBinding × CasePolicySnapshot)) (r : PolicyResolutionResult)
      (hresolve : Policy.resolve deps catalog call.context env.processNow = .ok r) :
      EvaluationEffect (.resolve call g now existing)
        ⟨db, afterResolve deps call g now existing r,
          [.resolved c call.context env.processNow catalog generation r]⟩
  | reviewNotStored (call : EvaluateCall) (g : Nat) (r : PolicyResolutionResult) :
      EvaluationEffect (.persistReview call g r) (evaluationThrows db (.database .uniqueViolation))
  | reviewStored (call : EvaluateCall) (g : Nat) (r : PolicyResolutionResult)
      (snapshots : Table CasePolicySnapshot CasePolicySnapshot.id)
      (hinsert : db.snapshots.insert (newSnapshot deps env call r) = some snapshots) :
      EvaluationEffect (.persistReview call g r)
        ⟨{ db with snapshots }, .invalidateActive call g r (newSnapshot deps env call r), []⟩
  | reviewed (call : EvaluateCall) (g : Nat) (r : PolicyResolutionResult)
      (snapshot : CasePolicySnapshot) :
      EvaluationEffect (.invalidateActive call g r snapshot)
        (returns
          (db.updateBindings call.activeBinding (·.invalidated env.processNow) (fun _ => rfl))
          c call g { outcome := .REVIEW_REQUIRED, resolution := r, snapshot, binding := none })
  | refreshed (call : EvaluateCall) (g : Nat) (now : Instant) (b : CasePolicyBinding)
      (snapshot : CasePolicySnapshot) (r : PolicyResolutionResult) :
      EvaluationEffect (.refresh call g now b snapshot r)
        (returns
          (db.updateBindings (fun x => x.id = b.id)
            (·.refreshed g (nextRevalidationDeadline now r)) (fun _ => rfl)) c call g
          { outcome := .REUSED
            resolution := r
            snapshot := snapshot
            binding := some (b.refreshed g (nextRevalidationDeadline now r)) }
          [.stored c now (b.refreshed g (nextRevalidationDeadline now r))])
  | notStored (call : EvaluateCall) (g : Nat) (now : Instant)
      (existing : Option CasePolicyBinding) (r : PolicyResolutionResult) :
      EvaluationEffect (.persistSnapshot call g now existing r)
        (evaluationThrows db (.database .uniqueViolation))
  | replaces (call : EvaluateCall) (g : Nat) (now : Instant) (b : CasePolicyBinding)
      (r : PolicyResolutionResult) (snapshots : Table CasePolicySnapshot CasePolicySnapshot.id)
      (hinsert : db.snapshots.insert (newSnapshot deps env call r) = some snapshots) :
      EvaluationEffect (.persistSnapshot call g now (some b) r)
        ⟨{ db with snapshots }, .invalidateExisting call g now b r (newSnapshot deps env call r), []⟩
  | binds (call : EvaluateCall) (g : Nat) (now : Instant) (r : PolicyResolutionResult)
      (snapshots : Table CasePolicySnapshot CasePolicySnapshot.id)
      (hinsert : db.snapshots.insert (newSnapshot deps env call r) = some snapshots) :
      EvaluationEffect (.persistSnapshot call g now none r)
        ⟨{ db with snapshots }, .insertBinding call g now r (newSnapshot deps env call r), []⟩
  | invalidated (call : EvaluateCall) (g : Nat) (now : Instant) (b : CasePolicyBinding)
      (r : PolicyResolutionResult) (snapshot : CasePolicySnapshot) :
      EvaluationEffect (.invalidateExisting call g now b r snapshot)
        ⟨db.updateBindings (fun x => x.id = b.id) (·.invalidated now) (fun _ => rfl),
          .insertBinding call g now r snapshot, []⟩
  | lost (call : EvaluateCall) (g : Nat) (now : Instant) (r : PolicyResolutionResult)
      (snapshot : CasePolicySnapshot) :
      EvaluationEffect (.insertBinding call g now r snapshot) ⟨db, .recoverBinding call g, []⟩
  | inserted (call : EvaluateCall) (g : Nat) (now : Instant) (r : PolicyResolutionResult)
      (snapshot : CasePolicySnapshot) (db' : EvaluationDb)
      (hinsert : Policy.insertBinding db (newBinding deps env call g now r snapshot) = some db') :
      EvaluationEffect (.insertBinding call g now r snapshot)
        (returns db' c call g
          { outcome := .REFRESHED
            resolution := r
            snapshot := snapshot
            binding := some (newBinding deps env call g now r snapshot) }
          [.stored c now (newBinding deps env call g now r snapshot)])
  | noWinner (call : EvaluateCall) (g : Nat) (hfind : findActiveBinding db call = none) :
      EvaluationEffect (.recoverBinding call g)
        (evaluationThrows db (.entityNotFound "CasePolicyBinding") [.recoveryThrew c])
  | winner (call : EvaluateCall) (g : Nat) (b : CasePolicyBinding)
      (hfind : findActiveBinding db call = some b) :
      EvaluationEffect (.recoverBinding call g) ⟨db, .recoverSnapshot call g b, []⟩
  | noWinningSnapshot (call : EvaluateCall) (g : Nat) (b : CasePolicyBinding)
      (hfind : findSnapshot db call b.policySnapshotId = none) :
      EvaluationEffect (.recoverSnapshot call g b)
        (evaluationThrows db (.entityNotFound "CasePolicySnapshot") [.recoveryThrew c])
  | recovered (call : EvaluateCall) (g : Nat) (b : CasePolicyBinding)
      (snapshot : CasePolicySnapshot)
      (hfind : findSnapshot db call b.policySnapshotId = some snapshot) :
      EvaluationEffect (.recoverSnapshot call g b)
        (returns db c call g
          { outcome := .REUSED
            resolution := reconstructResolution snapshot
            snapshot := snapshot
            binding := some b })

/-- A transaction does one of these. -/
theorem evaluationStep_effect (state : EvaluationState) :
    EvaluationEffect deps catalog generation db env c state
      (evaluationStep deps catalog generation db env c state) := by
  cases state with
  | idle => exact .idle
  | finished result => exact .ended result
  | readBinding call g =>
    simp only [evaluationStep]
    split
    · exact .unbound call g
    · next b hfind => exact .bound call g b hfind
  | readSnapshot call g now b =>
    simp only [evaluationStep]
    split
    · exact .noSnapshot call g now b
    · next snapshot hfind =>
      split
      · next hfast => exact .reused call g now b snapshot hfind hfast
      · exact .slow call g now b snapshot hfind
  | resolve call g now existing =>
    simp only [evaluationStep]
    split
    · next issues _ => exact .unparsable call g now existing issues
    · next r hresolve => exact .resolved call g now existing r hresolve
  | persistReview call g r =>
    simp only [evaluationStep]
    split
    · exact .reviewNotStored call g r
    · next snapshots hinsert => exact .reviewStored call g r snapshots hinsert
  | invalidateActive call g r snapshot => exact .reviewed call g r snapshot
  | refresh call g now b snapshot r => exact .refreshed call g now b snapshot r
  | persistSnapshot call g now existing r =>
    simp only [evaluationStep]
    split
    · exact .notStored call g now existing r
    · next snapshots hinsert =>
      cases existing with
      | some b => exact .replaces call g now b r snapshots hinsert
      | none => exact .binds call g now r snapshots hinsert
  | invalidateExisting call g now b r snapshot => exact .invalidated call g now b r snapshot
  | insertBinding call g now r snapshot =>
    simp only [evaluationStep]
    split
    · exact .lost call g now r snapshot
    · next db' hinsert => exact .inserted call g now r snapshot db' hinsert
  | recoverBinding call g =>
    simp only [evaluationStep]
    split
    · next hfind => exact .noWinner call g hfind
    · next b hfind => exact .winner call g b hfind
  | recoverSnapshot call g b =>
    simp only [evaluationStep]
    split
    · next hfind => exact .noWinningSnapshot call g b hfind
    · next snapshot hfind => exact .recovered call g b snapshot hfind

end Effect

/-! ## What no step takes back -/

/-- The part of a binding that no update touches. -/
def CasePolicyBinding.core (b : CasePolicyBinding) : CasePolicyBinding :=
  { b with observedCatalogGeneration := 0, revalidateAfter := 0, invalidatedAt := none }

theorem core_fields {x y : CasePolicyBinding} (h : x.core = y.core) :
    x.id = y.id ∧ x.tenantId = y.tenantId ∧ x.dependencyDigest = y.dependencyDigest
      ∧ x.policySnapshotId = y.policySnapshotId := by
  simp only [CasePolicyBinding.core, CasePolicyBinding.mk.injEq] at h
  exact ⟨h.1, h.2.1, h.2.2.2.1, h.2.2.2.2.2.2.1⟩

/-- Snapshots stay as they are, and bindings keep their core. -/
structure EvaluationDb.Keeps (db db' : EvaluationDb) : Prop where
  snapshots : ∀ id snapshot, db.snapshots.find id = some snapshot →
    db'.snapshots.find id = some snapshot
  bindings : ∀ x ∈ db.bindings.rows, ∃ y ∈ db'.bindings.rows, y.core = x.core

theorem keeps_refl (db : EvaluationDb) : db.Keeps db :=
  ⟨fun _ _ h => h, fun x hx => ⟨x, hx, rfl⟩⟩

theorem updateBindings_keeps (db : EvaluationDb) (p : CasePolicyBinding → Bool)
    (f : CasePolicyBinding → CasePolicyBinding) (hf : ∀ b, (f b).id = b.id)
    (hcore : ∀ b, (f b).core = b.core) : db.Keeps (db.updateBindings p f hf) where
  snapshots _ _ h := h
  bindings x hx := by
    refine ⟨if p x then f x else x, List.mem_map_of_mem hx, ?_⟩
    split
    · exact hcore x
    · rfl

theorem insertSnapshot_keeps {db : EvaluationDb} {snapshot : CasePolicySnapshot}
    {snapshots : Table CasePolicySnapshot CasePolicySnapshot.id}
    (h : db.snapshots.insert snapshot = some snapshots) : db.Keeps { db with snapshots } where
  snapshots id x hx := by
    obtain ⟨hmem, hid⟩ := db.snapshots.find_eq_some_iff.mp hx
    refine snapshots.find_eq_some_iff.mpr ⟨?_, hid⟩
    rw [Table.rows_of_insert h]
    exact List.mem_append_left _ hmem
  bindings x hx := ⟨x, hx, rfl⟩

/-- The insert adds one row and leaves the rest. -/
theorem rows_of_insertBinding {db db' : EvaluationDb} {b : CasePolicyBinding}
    (h : insertBinding db b = some db') :
    db'.snapshots = db.snapshots ∧ db'.bindings.rows = db.bindings.rows ++ [b] := by
  unfold insertBinding at h
  split at h
  · cases h
  · obtain ⟨bindings, hinsert, rfl⟩ := Option.map_eq_some_iff.mp h
    exact ⟨rfl, Table.rows_of_insert hinsert⟩

theorem insertBinding_keeps {db db' : EvaluationDb} {b : CasePolicyBinding}
    (h : insertBinding db b = some db') : db.Keeps db' := by
  obtain ⟨hsnapshots, hrows⟩ := rows_of_insertBinding h
  constructor
  · rw [hsnapshots]
    exact fun _ _ h => h
  · intro x hx
    rw [hrows]
    exact ⟨x, List.mem_append_left _ hx, rfl⟩

/-- The later state has all that the earlier one had. -/
structure Extends (s s' : System) : Prop where
  log : ∀ e ∈ s.log, e ∈ s'.log
  evaluation : s.evaluation.Keeps s'.evaluation
  generation : s.release.generation ≤ s'.release.generation

/-- The system after call `c` has made a move. -/
def System.moved (s : System) (c : Nat) (m : EvaluationMove) : System :=
  { s with evaluation := m.db, log := s.log ++ m.events }.setEvaluation c m.state

theorem step_evaluate (deps : Deps) (s : System) (c : Nat) (env : Env) :
    step deps s (.evaluate c env)
      = s.moved c (evaluationStep deps s.release.catalog s.release.generation s.evaluation env c
        (s.evaluations c)) := rfl

theorem moved_extends {s : System} {c : Nat} {m : EvaluationMove}
    (h : s.evaluation.Keeps m.db) : Extends s (s.moved c m) :=
  ⟨fun _ he => List.mem_append_left _ he, h, le_refl _⟩

/-! ## Tracing -/

/-- The resolver has returned such a result at such a generation. -/
def HasResolved (log : List Event) (P : Nat → PolicyResolutionResult → Prop) : Prop :=
  ∃ c context k catalog g r, Event.resolved c context k catalog g r ∈ log ∧ P g r

theorem HasResolved.mono {log log' : List Event} {P : Nat → PolicyResolutionResult → Prop}
    (h : HasResolved log P) (hlog : ∀ e ∈ log, e ∈ log') : HasResolved log' P := by
  obtain ⟨c, context, k, catalog, g, r, hmem, hP⟩ := h
  exact ⟨c, context, k, catalog, g, r, hlog _ hmem, hP⟩

theorem HasResolved.imp {log : List Event} {P Q : Nat → PolicyResolutionResult → Prop}
    (h : HasResolved log P) (hPQ : ∀ g r, P g r → Q g r) : HasResolved log Q := by
  obtain ⟨c, context, k, catalog, g, r, hmem, hP⟩ := h
  exact ⟨c, context, k, catalog, g, r, hmem, hPQ g r hP⟩

/-- The digest was seen at generation `g` or later. -/
def DigestSeen (deps : Deps) (log : List Event) (g : Nat) (digest : String) : Prop :=
  HasResolved log fun g' r => g ≤ g' ∧ digest = computeDigest deps r

/-- The resolution, as far as its text goes, was found under that digest. -/
def DigestOf (deps : Deps) (log : List Event) (resolution : PolicyResolutionResult)
    (digest : String) : Prop :=
  HasResolved log fun _ r => digest = computeDigest deps r ∧ digestText resolution = digestText r

/-- A snapshot holds what the resolver returned. -/
def SnapshotTraced (deps : Deps) (s : System) (snapshot : CasePolicySnapshot) : Prop :=
  DigestOf deps s.log (reconstructResolution snapshot) snapshot.contextHash

/-- A binding, as a row or as a local of some call, has a row, a snapshot and a resolution. -/
structure BindingTraced (deps : Deps) (s : System) (b : CasePolicyBinding) : Prop where
  row : ∃ x ∈ s.evaluation.bindings.rows, x.core = b.core
  snapshot : ∃ snapshot, s.evaluation.snapshots.find b.policySnapshotId = some snapshot
    ∧ snapshot.tenantId = b.tenantId ∧ snapshot.contextHash = b.dependencyDigest
  seen : DigestSeen deps s.log b.observedCatalogGeneration b.dependencyDigest

/-- Call `c` has resolved its context to `r`, at generation `g` or later. -/
def ResolvedBy (s : System) (c : Nat) (call : EvaluateCall) (g : Nat)
    (r : PolicyResolutionResult) : Prop :=
  ∃ k catalog g', Event.resolved c call.context k catalog g' r ∈ s.log ∧ g ≤ g'

/-- The snapshot of the call's resolution is stored. -/
def SnapshotStored (deps : Deps) (s : System) (call : EvaluateCall) (r : PolicyResolutionResult)
    (snapshot : CasePolicySnapshot) : Prop :=
  s.evaluation.snapshots.find snapshot.id = some snapshot ∧ snapshot.tenantId = call.tenantId
    ∧ snapshot.contextHash = computeDigest deps r

/-- What the locals of a call are known to be. -/
def StateTraced (deps : Deps) (s : System) (c : Nat) : EvaluationState → Prop
  | .readBinding _ g => g ≤ s.release.generation
  | .readSnapshot _ g _ b => g ≤ s.release.generation ∧ BindingTraced deps s b
  | .resolve _ g _ existing =>
    g ≤ s.release.generation ∧ ∀ p ∈ existing, BindingTraced deps s p.1
  | .persistReview call g r => ResolvedBy s c call g r
  | .invalidateActive call g r _ => ResolvedBy s c call g r
  | .refresh call g _ b snapshot r =>
    ResolvedBy s c call g r ∧ r.status = .RESOLVED ∧ BindingTraced deps s b
      ∧ refreshesInPlace deps call.context r b snapshot = true
  | .persistSnapshot call g _ _ r => ResolvedBy s c call g r ∧ r.status = .RESOLVED
  | .invalidateExisting call g _ _ r snapshot =>
    ResolvedBy s c call g r ∧ r.status = .RESOLVED ∧ SnapshotStored deps s call r snapshot
  | .insertBinding call g _ r snapshot =>
    ResolvedBy s c call g r ∧ r.status = .RESOLVED ∧ SnapshotStored deps s call r snapshot
  | .recoverSnapshot call _ b => BindingTraced deps s b ∧ b.tenantId = call.tenantId
  | _ => True

/-- What an event is known to record. -/
def EventTraced (deps : Deps) (log : List Event) : Event → Prop
  | .resolved _ context k catalog _ r => resolve deps catalog context k = .ok r
  | .stored c now b =>
    ∃ context k catalog g r, Event.resolved c context k catalog g r ∈ log
      ∧ r.status = .RESOLVED ∧ b.dependencyDigest = computeDigest deps r
      ∧ b.revalidateAfter = nextRevalidationDeadline now r
  | .reused _ _ now _ b snapshot =>
    now < b.revalidateAfter
      ∧ DigestOf deps log (reconstructResolution snapshot) b.dependencyDigest
  | .returned _ _ _ result =>
    ∀ b, result.binding = some b →
      DigestSeen deps log b.observedCatalogGeneration b.dependencyDigest
        ∧ DigestOf deps log result.resolution b.dependencyDigest
  | .recoveryThrew _ => True

/-- Rows, locals and events are traced to the resolver. -/
structure Traced (deps : Deps) (s : System) : Prop where
  snapshots : ∀ snapshot ∈ s.evaluation.snapshots.rows, SnapshotTraced deps s snapshot
  bindings : ∀ b ∈ s.evaluation.bindings.rows, BindingTraced deps s b
  states : ∀ c, StateTraced deps s c (s.evaluations c)
  events : ∀ e ∈ s.log, EventTraced deps s.log e

/-! ### Tracing carries over -/

section Mono

variable {deps : Deps} {s s' : System} (hext : Extends s s')
include hext

theorem SnapshotTraced.mono {snapshot : CasePolicySnapshot} (h : SnapshotTraced deps s snapshot) :
    SnapshotTraced deps s' snapshot :=
  HasResolved.mono h hext.log

theorem BindingTraced.mono {b : CasePolicyBinding} (h : BindingTraced deps s b) :
    BindingTraced deps s' b := by
  obtain ⟨⟨x, hx, hcore⟩, ⟨snapshot, hfind, hsnapshot⟩, hseen⟩ := h
  obtain ⟨y, hy, hyx⟩ := hext.evaluation.bindings x hx
  exact ⟨⟨y, hy, hyx.trans hcore⟩, ⟨snapshot, hext.evaluation.snapshots _ _ hfind, hsnapshot⟩,
    HasResolved.mono hseen hext.log⟩

theorem ResolvedBy.mono {c : Nat} {call : EvaluateCall} {g : Nat} {r : PolicyResolutionResult}
    (h : ResolvedBy s c call g r) : ResolvedBy s' c call g r := by
  obtain ⟨k, catalog, g', hmem, hg⟩ := h
  exact ⟨k, catalog, g', hext.log _ hmem, hg⟩

theorem SnapshotStored.mono {call : EvaluateCall} {r : PolicyResolutionResult}
    {snapshot : CasePolicySnapshot} (h : SnapshotStored deps s call r snapshot) :
    SnapshotStored deps s' call r snapshot :=
  ⟨hext.evaluation.snapshots _ _ h.1, h.2⟩

theorem StateTraced.mono {c : Nat} {state : EvaluationState} (h : StateTraced deps s c state) :
    StateTraced deps s' c state := by
  cases state with
  | idle => trivial
  | finished result => trivial
  | recoverBinding call g => trivial
  | readBinding call g => exact le_trans h hext.generation
  | readSnapshot call g now b => exact ⟨le_trans h.1 hext.generation, h.2.mono hext⟩
  | resolve call g now existing =>
    exact ⟨le_trans h.1 hext.generation, fun p hp => (h.2 p hp).mono hext⟩
  | persistReview call g r => exact ResolvedBy.mono hext h
  | invalidateActive call g r snapshot => exact ResolvedBy.mono hext h
  | refresh call g now b snapshot r =>
    exact ⟨h.1.mono hext, h.2.1, h.2.2.1.mono hext, h.2.2.2⟩
  | persistSnapshot call g now existing r => exact ⟨h.1.mono hext, h.2⟩
  | invalidateExisting call g now b r snapshot =>
    exact ⟨h.1.mono hext, h.2.1, h.2.2.mono hext⟩
  | insertBinding call g now r snapshot => exact ⟨h.1.mono hext, h.2.1, h.2.2.mono hext⟩
  | recoverSnapshot call g b => exact ⟨h.1.mono hext, h.2⟩

theorem EventTraced.mono {e : Event} (h : EventTraced deps s.log e) :
    EventTraced deps s'.log e := by
  cases e with
  | resolved c context k catalog g r => exact h
  | stored c now b =>
    obtain ⟨context, k, catalog, g, r, hmem, hrest⟩ := h
    exact ⟨context, k, catalog, g, r, hext.log _ hmem, hrest⟩
  | reused c context now catalog b snapshot => exact ⟨h.1, HasResolved.mono h.2 hext.log⟩
  | returned c context g result =>
    exact fun b hb => ⟨HasResolved.mono (h b hb).1 hext.log, HasResolved.mono (h b hb).2 hext.log⟩
  | recoveryThrew c => trivial

end Mono

/-! ### One step -/

/-- The active binding that a call finds is a row, of the call's tenant. -/
theorem findActiveBinding_some {db : EvaluationDb} {call : EvaluateCall} {b : CasePolicyBinding}
    (h : findActiveBinding db call = some b) :
    b ∈ db.bindings.rows ∧ b.tenantId = call.tenantId := by
  have hmem := List.mem_of_mem_head? (Option.mem_def.mpr h)
  rw [List.mem_insertionSort, List.mem_filter] at hmem
  simp only [EvaluateCall.activeBinding, Bool.and_eq_true, decide_eq_true_eq] at hmem
  exact ⟨hmem.1, hmem.2.1.1⟩

theorem findSnapshot_some {db : EvaluationDb} {call : EvaluateCall} {id : Uuid}
    {snapshot : CasePolicySnapshot} (h : findSnapshot db call id = some snapshot) :
    db.snapshots.find id = some snapshot :=
  (Option.filter_eq_some_iff.mp h).1

/-- A traced binding's snapshot, read back, is what the resolver returned under its digest. -/
theorem BindingTraced.digestOf {deps : Deps} {s : System} {b : CasePolicyBinding}
    (hb : BindingTraced deps s b) (h : Traced deps s) {call : EvaluateCall}
    {snapshot : CasePolicySnapshot}
    (hfind : findSnapshot s.evaluation call b.policySnapshotId = some snapshot) :
    DigestOf deps s.log (reconstructResolution snapshot) b.dependencyDigest := by
  obtain ⟨found, hfound, -, hhash⟩ := hb.snapshot
  have hsame : found = snapshot :=
    Option.some_injective _ (hfound.symm.trans (findSnapshot_some hfind))
  subst hsame
  rw [← hhash]
  exact h.snapshots found (s.evaluation.snapshots.find_eq_some_iff.mp hfound).1

/-- A call's own resolution is a resolution under its digest. -/
theorem ResolvedBy.digestOf {s : System} {c : Nat} {call : EvaluateCall} {g : Nat}
    {r : PolicyResolutionResult} (h : ResolvedBy s c call g r) (deps : Deps) :
    DigestOf deps s.log r (computeDigest deps r) := by
  obtain ⟨k, catalog, g', hmem, -⟩ := h
  exact ⟨c, call.context, k, catalog, g', r, hmem, rfl, rfl⟩

theorem ResolvedBy.digestSeen {s : System} {c : Nat} {call : EvaluateCall} {g : Nat}
    {r : PolicyResolutionResult} (h : ResolvedBy s c call g r) (deps : Deps) :
    DigestSeen deps s.log g (computeDigest deps r) := by
  obtain ⟨k, catalog, g', hmem, hg⟩ := h
  exact ⟨c, call.context, k, catalog, g', r, hmem, hg, rfl⟩

/-- Reading a snapshot back gives the text that was hashed: its versions are in order. -/
theorem digestText_newSnapshot (deps : Deps) (env : Env) (call : EvaluateCall)
    (r : PolicyResolutionResult) :
    digestText (reconstructResolution (newSnapshot deps env call r)) = digestText r := by
  have hsorted : snapshotVersions (reconstructResolution (newSnapshot deps env call r))
      = snapshotVersions r :=
    List.Pairwise.insertionSort_eq (List.pairwise_insertionSort _ r.versions)
  simp only [digestText, digestJson, hsorted]
  rfl

/-- What the resolver returned decides the next state. -/
theorem afterResolve_traced {deps : Deps} {s : System} {c : Nat} {call : EvaluateCall} {g : Nat}
    {now : Instant}
    {existing : Option (CasePolicyBinding × CasePolicySnapshot)} {r : PolicyResolutionResult}
    (hexisting : ∀ p ∈ existing, BindingTraced deps s p.1) (hr : ResolvedBy s c call g r) :
    StateTraced deps s c (afterResolve deps call g now existing r) := by
  unfold afterResolve
  split
  · exact hr
  · next hstatus =>
    have hresolved : r.status = .RESOLVED := by
      cases hcases : r.status with
      | RESOLVED => rfl
      | REVIEW_REQUIRED => exact absurd hcases hstatus
    split
    · next b snapshot =>
      split
      · next hrefresh => exact ⟨hr, hresolved, hexisting _ rfl, hrefresh⟩
      · exact ⟨hr, hresolved⟩
    · exact ⟨hr, hresolved⟩

section Step

variable {deps : Deps} {s : System} {c : Nat} (h : Traced deps s)
include h

/-- A move keeps everything traced when the rows, the state and the events it adds are. -/
theorem Traced.moved {m : EvaluationMove} (hkeeps : s.evaluation.Keeps m.db)
    (hsnapshots : ∀ x ∈ m.db.snapshots.rows,
      x ∈ s.evaluation.snapshots.rows ∨ SnapshotTraced deps (s.moved c m) x)
    (hbindings : ∀ b ∈ m.db.bindings.rows,
      b ∈ s.evaluation.bindings.rows ∨ BindingTraced deps (s.moved c m) b)
    (hstate : StateTraced deps (s.moved c m) c m.state)
    (hevents : ∀ e ∈ m.events, EventTraced deps (s.moved c m).log e) :
    Traced deps (s.moved c m) where
  snapshots x hx := by
    rcases hsnapshots x hx with hold | hnew
    · exact (h.snapshots x hold).mono (moved_extends hkeeps)
    · exact hnew
  bindings b hb := by
    rcases hbindings b hb with hold | hnew
    · exact (h.bindings b hold).mono (moved_extends hkeeps)
    · exact hnew
  states c' := by
    by_cases hc : c' = c
    · subst hc
      simpa [System.moved, System.setEvaluation] using hstate
    · have hsame : (s.moved c m).evaluations c' = s.evaluations c' := by
        simp [System.moved, System.setEvaluation, hc]
      rw [hsame]
      exact (h.states c').mono (moved_extends hkeeps)
  events e he := by
    rcases List.mem_append.mp he with hold | hnew
    · exact (h.events e hold).mono (moved_extends hkeeps)
    · exact hevents e hnew

/-- The rows stand still. -/
theorem Traced.moved_same {state : EvaluationState} {events : List Event}
    (hstate : StateTraced deps (s.moved c ⟨s.evaluation, state, events⟩) c state)
    (hevents : ∀ e ∈ events, EventTraced deps (s.log ++ events) e) :
    Traced deps (s.moved c ⟨s.evaluation, state, events⟩) :=
  h.moved (keeps_refl _) (fun _ hx => .inl hx) (fun _ hb => .inl hb) hstate hevents

/-- A call returns a binding, with what else it records. -/
theorem Traced.moved_returns {call : EvaluateCall} {g : Nat} {result : PolicyEvaluationResult}
    {events : List Event}
    (hevents : ∀ e ∈ events, EventTraced deps s.log e)
    (hresult : EventTraced deps s.log (.returned c call.context g result)) :
    Traced deps (s.moved c (returns s.evaluation c call g result events)) := by
  have hext : Extends s (s.moved c (returns s.evaluation c call g result events)) :=
    moved_extends (keeps_refl _)
  refine h.moved_same trivial fun e he => ?_
  rcases List.mem_append.mp he with he | he
  · exact (hevents e he).mono hext
  · rw [List.mem_singleton.mp he]
    exact hresult.mono hext

/-- A snapshot is inserted. -/
theorem Traced.moved_snapshot {call : EvaluateCall} {g : Nat} {env : Env}
    {r : PolicyResolutionResult} (hr : ResolvedBy s c call g r)
    {snapshots : Table CasePolicySnapshot CasePolicySnapshot.id}
    (hinsert : s.evaluation.snapshots.insert (newSnapshot deps env call r) = some snapshots)
    {state : EvaluationState}
    (hstate : ∀ s', Extends s s' → SnapshotStored deps s' call r (newSnapshot deps env call r) →
      StateTraced deps s' c state) :
    Traced deps (s.moved c ⟨{ s.evaluation with snapshots }, state, []⟩) := by
  have hext : Extends s (s.moved c ⟨{ s.evaluation with snapshots }, state, []⟩) :=
    moved_extends (insertSnapshot_keeps hinsert)
  have hrows := Table.rows_of_insert hinsert
  refine h.moved (insertSnapshot_keeps hinsert) ?_ (fun _ hb => .inl hb) (hstate _ hext ?_)
    (by simp)
  · intro x hx
    rw [hrows] at hx
    rcases List.mem_append.mp hx with hx | hx
    · exact .inl hx
    · rw [List.mem_singleton.mp hx]
      refine .inr ((((hr.digestOf deps).imp ?_)).mono hext.log)
      exact fun _ _ hdigest => ⟨hdigest.1, (digestText_newSnapshot deps env call r).trans hdigest.2⟩
  · refine ⟨snapshots.find_eq_some_iff.mpr ⟨?_, rfl⟩, rfl, rfl⟩
    rw [hrows]
    exact List.mem_append_right _ (List.mem_singleton.mpr rfl)

/-- Some rows are updated, and keep their core. -/
theorem Traced.moved_update (p : CasePolicyBinding → Bool)
    (f : CasePolicyBinding → CasePolicyBinding) (state : EvaluationState) (hf : ∀ b, (f b).id = b.id)
    (hcore : ∀ b, (f b).core = b.core)
    (hseen : ∀ x ∈ s.evaluation.bindings.rows, p x = true →
      DigestSeen deps s.log (f x).observedCatalogGeneration x.dependencyDigest)
    {events : List Event} (hstate : ∀ s', Extends s s' → StateTraced deps s' c state)
    (hevents : ∀ e ∈ events, EventTraced deps s.log e) :
    Traced deps (s.moved c ⟨s.evaluation.updateBindings p f hf, state, events⟩) := by
  have hkeeps := updateBindings_keeps s.evaluation p f hf hcore
  have hext : Extends s (s.moved c ⟨s.evaluation.updateBindings p f hf, state, events⟩) :=
    moved_extends hkeeps
  refine h.moved hkeeps (fun _ hx => .inl hx) ?_ (hstate _ hext)
    fun e he => (hevents e he).mono hext
  intro y hy
  obtain ⟨x, hx, hyx⟩ := List.mem_map.mp hy
  split at hyx
  · next hp =>
    subst hyx
    -- the snapshot is that of the row before the update
    obtain ⟨-, hsnapshot, -⟩ := (h.bindings x hx).mono hext
    obtain ⟨-, htenant, hdigest, hid⟩ := core_fields (hcore x)
    rw [← hid, ← htenant, ← hdigest] at hsnapshot
    have hseen' := hseen x hx hp
    rw [← hdigest] at hseen'
    exact .inr ⟨⟨f x, hy, rfl⟩, hsnapshot, HasResolved.mono hseen' hext.log⟩
  · subst hyx
    exact .inl hx

/-- A new binding is inserted, and returned. -/
theorem Traced.moved_inserted {call : EvaluateCall} {g : Nat} {env : Env} {now : Instant}
    {r : PolicyResolutionResult} {snapshot : CasePolicySnapshot} {db' : EvaluationDb}
    (hr : ResolvedBy s c call g r) (hstatus : r.status = .RESOLVED)
    (hstored : SnapshotStored deps s call r snapshot)
    (hinsert : insertBinding s.evaluation (newBinding deps env call g now r snapshot) = some db')
    (result : PolicyEvaluationResult) (hresolution : result.resolution = r)
    (hbinding : result.binding = some (newBinding deps env call g now r snapshot)) :
    Traced deps (s.moved c (returns db' c call g result
      [.stored c now (newBinding deps env call g now r snapshot)])) := by
  have hkeeps := insertBinding_keeps hinsert
  obtain ⟨hsnapshots, hrows⟩ := rows_of_insertBinding hinsert
  have hext : Extends s (s.moved c (returns db' c call g result
      [.stored c now (newBinding deps env call g now r snapshot)])) := moved_extends hkeeps
  have hseen := hr.digestSeen deps
  refine h.moved hkeeps ?_ ?_ trivial ?_
  · intro x hx
    simp only [returns, hsnapshots] at hx
    exact .inl hx
  · intro b hb
    simp only [returns, hrows] at hb
    rcases List.mem_append.mp hb with hb | hb
    · exact .inl hb
    · rw [List.mem_singleton.mp hb]
      refine .inr ⟨⟨newBinding deps env call g now r snapshot, ?_, rfl⟩,
        ⟨snapshot, (hstored.mono hext).1, hstored.2⟩, HasResolved.mono hseen hext.log⟩
      exact hrows ▸ List.mem_append_right _ (List.mem_singleton.mpr rfl)
  · intro e he
    rcases List.mem_append.mp he with he | he
    · rw [List.mem_singleton.mp he]
      obtain ⟨k, catalog, g', hmem, -⟩ := hr.mono hext
      exact ⟨call.context, k, catalog, g', r, hmem, hstatus, rfl, rfl⟩
    · rw [List.mem_singleton.mp he]
      intro b hb
      rw [hbinding] at hb
      cases hb
      rw [hresolution]
      exact ⟨HasResolved.mono hseen hext.log, HasResolved.mono (hr.digestOf deps) hext.log⟩

/-- The binding is refreshed in place, and returned. -/
theorem Traced.moved_refreshed {call : EvaluateCall} {g : Nat} {now : Instant}
    {b : CasePolicyBinding} {r : PolicyResolutionResult} {snapshot : CasePolicySnapshot}
    (hr : ResolvedBy s c call g r) (hstatus : r.status = .RESOLVED) (hb : BindingTraced deps s b)
    (hrefresh : refreshesInPlace deps call.context r b snapshot = true)
    (result : PolicyEvaluationResult) (hresolution : result.resolution = r)
    (hbinding : result.binding = some (b.refreshed g (nextRevalidationDeadline now r))) :
    Traced deps (s.moved c (returns
      (s.evaluation.updateBindings (fun x => x.id = b.id)
        (·.refreshed g (nextRevalidationDeadline now r)) (fun _ => rfl)) c call g result
      [.stored c now (b.refreshed g (nextRevalidationDeadline now r))])) := by
  simp only [refreshesInPlace, Bool.and_eq_true, decide_eq_true_eq] at hrefresh
  obtain ⟨-, hdigest⟩ := hrefresh
  have hseen := hr.digestSeen deps
  refine h.moved_update (fun x => x.id = b.id) (·.refreshed g (nextRevalidationDeadline now r))
    (.finished (.ok result)) (fun _ => rfl) (fun _ => rfl) ?_ (fun _ _ => trivial) ?_
  · intro x hx hid
    -- the row under the binding's id has the binding's digest
    obtain ⟨y, hy, hcore⟩ := hb.row
    obtain ⟨hyid, -, hydigest, -⟩ := core_fields hcore
    have hsame : x = y :=
      s.evaluation.bindings.eq_of_key_eq hx hy ((of_decide_eq_true hid).trans hyid.symm)
    rw [hsame, hydigest, hdigest]
    exact hseen
  · intro e he
    rcases List.mem_append.mp he with he | he
    · rw [List.mem_singleton.mp he]
      obtain ⟨k, catalog, g', hmem, -⟩ := hr
      exact ⟨call.context, k, catalog, g', r, hmem, hstatus, hdigest, rfl⟩
    · rw [List.mem_singleton.mp he]
      intro b' hb'
      rw [hbinding] at hb'
      cases hb'
      rw [hresolution]
      show DigestSeen deps s.log g b.dependencyDigest ∧ DigestOf deps s.log r b.dependencyDigest
      rw [hdigest]
      exact ⟨hseen, hr.digestOf deps⟩

/-- **A transaction keeps everything traced.** -/
theorem traced_effect {env : Env} {m : EvaluationMove}
    (heffect : EvaluationEffect deps s.release.catalog s.release.generation s.evaluation env c
      (s.evaluations c) m) : Traced deps (s.moved c m) := by
  have hstate := h.states c
  generalize s.evaluations c = state at heffect hstate
  cases heffect with
  | idle => exact h.moved_same trivial (by simp)
  | ended result => exact h.moved_same trivial (by simp)
  | unbound call g =>
    refine h.moved_same ⟨hstate, by simp⟩ (by simp)
  | bound call g b hfind =>
    have hb := h.bindings b (findActiveBinding_some hfind).1
    exact h.moved_same ⟨hstate, hb.mono (moved_extends (keeps_refl _))⟩ (by simp)
  | noSnapshot call g now b => exact h.moved_same trivial (by simp)
  -- the snapshot read back has the binding's digest, and the deadline is still to come.
  | reused call g now b snapshot hfind hfast =>
    have hdigest := hstate.2.digestOf h hfind
    simp only [fastPath, Bool.and_eq_true, decide_eq_true_eq] at hfast
    refine h.moved_returns ?_ ?_
    · intro e he
      rw [List.mem_singleton.mp he]
      exact ⟨hfast.2, hdigest⟩
    · rintro b' ⟨⟩
      exact ⟨hstate.2.seen, hdigest⟩
  | slow call g now b snapshot hfind =>
    refine h.moved_same ⟨hstate.1, ?_⟩ (by simp)
    rintro p ⟨⟩
    exact hstate.2.mono (moved_extends (keeps_refl _))
  | unparsable call g now existing issues => exact h.moved_same trivial (by simp)
  -- the event that everything stored later is traced to.
  | resolved call g now existing r hresolve =>
    refine h.moved_same (afterResolve_traced ?_ ?_) ?_
    · exact fun p hp => (hstate.2 p hp).mono (moved_extends (keeps_refl _))
    · exact ⟨env.processNow, s.release.catalog, s.release.generation,
        List.mem_append_right _ (List.mem_singleton.mpr rfl), hstate.1⟩
    · intro e he
      rw [List.mem_singleton.mp he]
      exact hresolve
  | reviewNotStored call g r => exact h.moved_same trivial (by simp)
  | reviewStored call g r snapshots hinsert =>
    exact h.moved_snapshot hstate hinsert fun s' hext _ => ResolvedBy.mono hext hstate
  | reviewed call g r snapshot =>
    refine h.moved_update call.activeBinding (·.invalidated env.processNow) (.finished (.ok _))
      (fun _ => rfl) (fun _ => rfl) (fun x hx _ => (h.bindings x hx).seen) (fun _ _ => trivial) ?_
    intro e he
    rw [List.mem_singleton.mp he]
    rintro b ⟨⟩
  | refreshed call g now b snapshot r =>
    obtain ⟨hr, hstatus, hb, hrefresh⟩ := hstate
    exact h.moved_refreshed hr hstatus hb hrefresh _ rfl rfl
  | notStored call g now existing r => exact h.moved_same trivial (by simp)
  | replaces call g now b r snapshots hinsert =>
    exact h.moved_snapshot hstate.1 hinsert fun s' hext hstored =>
      ⟨hstate.1.mono hext, hstate.2, hstored⟩
  | binds call g now r snapshots hinsert =>
    exact h.moved_snapshot hstate.1 hinsert fun s' hext hstored =>
      ⟨hstate.1.mono hext, hstate.2, hstored⟩
  -- an invalidation touches no column that tracing reads.
  | invalidated call g now b r snapshot =>
    refine h.moved_update (fun x => x.id = b.id) (·.invalidated now) (.insertBinding call g now r snapshot)
      (fun _ => rfl) (fun _ => rfl) (fun x hx _ => (h.bindings x hx).seen) (fun s' hext => ?_) (by simp)
    exact ⟨hstate.1.mono hext, hstate.2.1, hstate.2.2.mono hext⟩
  | lost call g now r snapshot => exact h.moved_same trivial (by simp)
  | inserted call g now r snapshot db' hinsert =>
    exact h.moved_inserted hstate.1 hstate.2.1 hstate.2.2 hinsert _ rfl rfl
  | noWinner call g hfind =>
    refine h.moved_same trivial fun e he => ?_
    rw [List.mem_singleton.mp he]
    trivial
  -- the winner is some row, and every row is traced, whoever wrote it.
  | winner call g b hfind =>
    obtain ⟨hmem, htenant⟩ := findActiveBinding_some hfind
    exact h.moved_same ⟨(h.bindings b hmem).mono (moved_extends (keeps_refl _)), htenant⟩ (by simp)
  | noWinningSnapshot call g b hfind =>
    refine h.moved_same trivial fun e he => ?_
    rw [List.mem_singleton.mp he]
    trivial
  | recovered call g b snapshot hfind =>
    refine h.moved_returns (by simp) ?_
    rintro b' ⟨⟩
    exact ⟨hstate.1.seen, hstate.1.digestOf h hfind⟩

end Step

/-! ### Every run -/

/-- Releases only ever raise the generation. -/
theorem releaseStep_generation (db : ReleaseDb) (env : Env) (state : ReleaseState) :
    db.generation ≤ (releaseStep db env state).1.generation := by
  cases state with
  | proposeSave id proposedBy notes =>
    simp only [releaseStep]
    split <;> exact le_refl _
  | approveRead approvalId =>
    simp only [releaseStep]
    split <;> exact le_refl _
  | activateCheck id =>
    simp only [releaseStep]
    split <;> exact le_refl _
  | activateWrite id => exact Nat.le_succ _
  | withdrawWrite id => exact Nat.le_succ _
  | _ => exact le_refl _

/-- A step that leaves the rows and the history, and moves no call to an untraced state. -/
theorem Traced.of_same {deps : Deps} {s s' : System} (h : Traced deps s)
    (hevaluation : s'.evaluation = s.evaluation) (hlog : s'.log = s.log)
    (hgeneration : s.release.generation ≤ s'.release.generation)
    (hstates : ∀ c, s'.evaluations c = s.evaluations c
      ∨ StateTraced deps s' c (s'.evaluations c)) : Traced deps s' := by
  -- tracing only ever needs more history, more rows and a later generation.
  have hext : Extends s s' := by
    refine ⟨fun e he => hlog ▸ he, ?_, hgeneration⟩
    rw [hevaluation]
    exact keeps_refl _
  constructor
  · rw [hevaluation]
    exact fun x hx => (h.snapshots x hx).mono hext
  · rw [hevaluation]
    exact fun b hb => (h.bindings b hb).mono hext
  · intro c
    rcases hstates c with hsame | hnew
    · rw [hsame]
      exact (h.states c).mono hext
    · exact hnew
  · intro e he
    rw [hlog] at he
    exact (h.events e he).mono hext

theorem Traced.startRelease {deps : Deps} {s : System} (h : Traced deps s) (r : Nat)
    (state : ReleaseState) : Traced deps (s.startRelease r state) := by
  unfold System.startRelease
  split
  · exact h.of_same rfl rfl (le_refl _) fun c => .inl rfl
  · exact h

/-- A call of `evaluate` is put in a traced state. -/
theorem Traced.setEvaluation {deps : Deps} {s : System} (h : Traced deps s) {c : Nat}
    {state : EvaluationState} (hstate : ∀ s', s'.release = s.release →
      StateTraced deps s' c state) : Traced deps (s.setEvaluation c state) := by
  refine h.of_same rfl rfl (le_refl _) fun c' => ?_
  by_cases hc : c' = c
  · subst hc
    refine .inr ?_
    have hnew : (s.setEvaluation c' state).evaluations c' = state := by
      simp [System.setEvaluation]
    rw [hnew]
    exact hstate _ rfl
  · exact .inl (by simp [System.setEvaluation, hc])

theorem traced_step (deps : Deps) (s : System) (a : Label) (h : Traced deps s) :
    Traced deps (step deps s a) := by
  cases a with
  | startPropose r id proposedBy notes => exact h.startRelease r _
  | startApprove r id approvedBy => exact h.startRelease r _
  | startActivate r id => exact h.startRelease r _
  | startWithdraw r id => exact h.startRelease r _
  | release r env =>
    exact h.of_same rfl rfl (releaseStep_generation s.release env (s.releases r)) fun c => .inl rfl
  | releaseFails r => exact h.of_same rfl rfl (le_refl _) fun c => .inl rfl
  | startEvaluate c call =>
    simp only [step]
    split
    · exact h.setEvaluation fun s' hs' => le_of_eq (by rw [hs'])
    · exact h
  | evaluate c env =>
    rw [step_evaluate]
    exact traced_effect h (evaluationStep_effect deps s.release.catalog s.release.generation
      s.evaluation env c (s.evaluations c))
  | evaluateFails c => exact h.setEvaluation fun _ _ => trivial

theorem traced_init (deps : Deps) (release : ReleaseDb) : Traced deps (System.init release) where
  snapshots := by simp [System.init]
  bindings := by simp [System.init]
  states _ := trivial
  events := by simp [System.init]

/-- **Everything is traced, in every state of every run.** -/
theorem traced (deps : Deps) (release : ReleaseDb) (run : List Label) :
    Traced deps (exec (step deps) (System.init release) run) :=
  exec_inv (traced_step deps) (traced_init deps release) run

/-! ## One resolution per call -/

def Event.isResolvedBy (c : Nat) : Event → Bool
  | .resolved c' .. => c' = c
  | _ => false

/-- The resolver has been called, or will not be. -/
def EvaluationState.pastResolve : EvaluationState → Bool
  | .idle | .readBinding .. | .readSnapshot .. | .resolve .. => false
  | _ => true

/-- How often call `c` has resolved. -/
def resolutions (c : Nat) (log : List Event) : Nat :=
  log.countP (Event.isResolvedBy c)

/-- Before the resolver nothing, and at most one resolution after it. -/
def ResolvesOnce (s : System) : Prop :=
  ∀ c, resolutions c s.log ≤ (s.evaluations c).pastResolve.toNat

theorem afterResolve_pastResolve (deps : Deps) (call : EvaluateCall) (g : Nat) (now : Instant)
    (existing : Option (CasePolicyBinding × CasePolicySnapshot)) (r : PolicyResolutionResult) :
    (afterResolve deps call g now existing r).pastResolve = true := by
  unfold afterResolve
  split
  · rfl
  · split
    · split <;> rfl
    · rfl

/-- A move resolves only on the way past the resolver, and only for its own call. -/
theorem resolutions_effect {deps : Deps} {catalog : Catalog} {generation : Nat}
    {db : EvaluationDb} {env : Env} {c : Nat} {state : EvaluationState} {m : EvaluationMove}
    (h : EvaluationEffect deps catalog generation db env c state m) :
    resolutions c m.events + state.pastResolve.toNat ≤ m.state.pastResolve.toNat
      ∧ ∀ c' ≠ c, resolutions c' m.events = 0 := by
  cases h with
  | resolved call g now existing r hresolve =>
    refine ⟨?_, fun c' hc' => ?_⟩
    · rw [afterResolve_pastResolve]
      simp [resolutions, Event.isResolvedBy, EvaluationState.pastResolve]
    · simp [resolutions, Event.isResolvedBy, hc'.symm]
  -- no other move logs a resolution, and none leads back before the resolver.
  | _ =>
    simp [resolutions, Event.isResolvedBy, EvaluationState.pastResolve, returns,
      evaluationThrows]

/-- A step without an event that does not take a call back. -/
theorem ResolvesOnce.of_same {s s' : System} (h : ResolvesOnce s) (hlog : s'.log = s.log)
    (hstates : ∀ c, (s.evaluations c).pastResolve.toNat ≤ (s'.evaluations c).pastResolve.toNat) :
    ResolvesOnce s' := by
  intro c
  rw [hlog]
  exact le_trans (h c) (hstates c)

theorem ResolvesOnce.startRelease {s : System} (h : ResolvesOnce s) (r : Nat)
    (state : ReleaseState) : ResolvesOnce (s.startRelease r state) := by
  unfold System.startRelease
  split
  · exact h.of_same rfl fun c => le_refl _
  · exact h

theorem ResolvesOnce.setEvaluation {s : System} (h : ResolvesOnce s) {c : Nat}
    {state : EvaluationState}
    (hstate : (s.evaluations c).pastResolve.toNat ≤ state.pastResolve.toNat) :
    ResolvesOnce (s.setEvaluation c state) := by
  refine h.of_same rfl fun c' => ?_
  by_cases hc : c' = c
  · subst hc
    simpa [System.setEvaluation] using hstate
  · simp [System.setEvaluation, hc]

theorem ResolvesOnce.moved {s : System} (h : ResolvesOnce s) {c : Nat} {m : EvaluationMove}
    (hown : resolutions c m.events + (s.evaluations c).pastResolve.toNat
      ≤ m.state.pastResolve.toNat)
    (hother : ∀ c' ≠ c, resolutions c' m.events = 0) : ResolvesOnce (s.moved c m) := by
  intro c'
  have hlog : resolutions c' (s.moved c m).log = resolutions c' s.log + resolutions c' m.events :=
    List.countP_append
  rw [hlog]
  -- the call that moved pays with its state; the others have neither moved nor resolved.
  by_cases hc : c' = c
  · subst hc
    have hnew : (s.moved c' m).evaluations c' = m.state := by
      simp [System.moved, System.setEvaluation]
    rw [hnew, add_comm]
    exact le_trans (Nat.add_le_add_left (h c') _) hown
  · have hsame : (s.moved c m).evaluations c' = s.evaluations c' := by
      simp [System.moved, System.setEvaluation, hc]
    rw [hsame, hother c' hc]
    exact h c'

theorem resolvesOnce_step (deps : Deps) (s : System) (a : Label) (h : ResolvesOnce s) :
    ResolvesOnce (step deps s a) := by
  cases a with
  | startPropose r id proposedBy notes => exact h.startRelease r _
  | startApprove r id approvedBy => exact h.startRelease r _
  | startActivate r id => exact h.startRelease r _
  | startWithdraw r id => exact h.startRelease r _
  | release r env => exact h.of_same rfl fun c => le_refl _
  | releaseFails r => exact h.of_same rfl fun c => le_refl _
  | startEvaluate c call =>
    simp only [step]
    split
    · next hidle => exact h.setEvaluation (by rw [hidle]; exact Nat.zero_le _)
    · exact h
  | evaluate c env =>
    rw [step_evaluate]
    obtain ⟨hown, hother⟩ := resolutions_effect (evaluationStep_effect deps s.release.catalog
      s.release.generation s.evaluation env c (s.evaluations c))
    exact h.moved hown hother
  | evaluateFails c => exact h.setEvaluation (Bool.toNat_le _)

/-- **A call resolves at most once.** Two resolutions of one call are one. -/
theorem resolved_once (deps : Deps) (release : ReleaseDb) (run : List Label) {c : Nat}
    {context context' : PolicyResolutionContext} {k k' : Instant} {catalog catalog' : Catalog}
    {g g' : Nat} {r r' : PolicyResolutionResult}
    (h : Event.resolved c context k catalog g r
      ∈ (exec (step deps) (System.init release) run).log)
    (h' : Event.resolved c context' k' catalog' g' r'
      ∈ (exec (step deps) (System.init release) run).log) :
    Event.resolved c context k catalog g r = Event.resolved c context' k' catalog' g' r' := by
  have honce := exec_inv (resolvesOnce_step deps)
    (show ResolvesOnce (System.init release) from fun c => Nat.zero_le _) run c
  generalize (exec (step deps) (System.init release) run).log = log at h h' honce
  have hlength : (log.filter (Event.isResolvedBy c)).length ≤ 1 := by
    rw [← List.countP_eq_length_filter]
    exact le_trans honce (Bool.toNat_le _)
  have hmem : Event.resolved c context k catalog g r ∈ log.filter (Event.isResolvedBy c) :=
    List.mem_filter.mpr ⟨h, decide_eq_true rfl⟩
  have hmem' : Event.resolved c context' k' catalog' g' r' ∈ log.filter (Event.isResolvedBy c) :=
    List.mem_filter.mpr ⟨h', decide_eq_true rfl⟩
  -- at most one entry of this call, and both events are such entries.
  match hfilter : log.filter (Event.isResolvedBy c) with
  | [] => rw [hfilter] at hmem; cases hmem
  | [e] =>
    rw [hfilter] at hmem hmem'
    rw [List.mem_singleton.mp hmem, List.mem_singleton.mp hmem']
  | _ :: _ :: _ =>
    rw [hfilter] at hlength
    simp at hlength

end MortgageAgent.Policy
