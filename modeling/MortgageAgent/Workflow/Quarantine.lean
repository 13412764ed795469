import MortgageAgent.Budget.System
import MortgageAgent.Workflow.ToolClaims

/-!
# Side effects are executed once

Any number of executions of the agent runtime, for one workflow run, over one store: each may be
stopped between any two of its transactions and started again, and they may run side by side. Each
keeps to the protocol of its claims, so that no key is executed by two of them.

* **`RunPool`** — the executions with what they have noted; **`pool_erase`**.
* **`LogInv`** — what the notes of all executions say together.
* **`side_effects_once`** — every key of every history is executed at most once.
-/

namespace MortgageAgent.Workflow

open Runs

/-! ## The executions -/

/-- Executions of the runtime over one store, with what each has noted. -/
structure RunPool where
  db : Db
  runs : List (NotedAct AgentRunResult) := []
  log : List (Nat × ToolNote) := []

inductive PoolLabel where
  /-- one more execution of `AgentRuntimePort.run`, for the same workflow run and case version -/
  | start (deps : RuntimeDeps) (consentStatus : ConsentStatus) (budget : AgentRunBudget)
      (startedAt : Instant)
  /-- the next transaction of the `n`-th execution; a crash is one that is lost as `stopped` -/
  | move (n : Nat) (m : Proc.Move Input Failure)
  /-- something happens to the rest of the store -/
  | elsewhere (f : Db → Db)
  /-- someone else calls the ledger service -/
  | ledger (call : Budget.Label)

/-- The budget after a call of the service by someone else. -/
def ledgerCall (db : Db) (call : Budget.Label) : Budget.Db :=
  (Budget.step { db := db.budget, calls := fun _ => .idle } call).db

section Pool

variable (ref : CaseRef) (workflowRunId : String) (caseVersion : Nat)

def poolStep (s : RunPool) : PoolLabel → RunPool
  | .start deps consentStatus budget startedAt =>
    { s with runs := s.runs ++ [notedRunAgent deps
        { ref, caseVersion, workflowRunId, consentStatus } budget startedAt] }
  | .move n m =>
    match s.runs[n]? with
    | some p =>
      let moved := p.move s.db m
      { db := moved.store
        runs := s.runs.set n moved.rest
        log := s.log ++ moved.notes.map (n, ·) }
    | none => s
  | .elsewhere f => { s with db := { f s.db with budget := s.db.budget } }
  | .ledger call => { s with db := { s.db with budget := ledgerCall s.db call } }

/-- The same without notes: executions of `runAgent`. -/
def plainStep (s : Db × List (Act AgentRunResult)) : PoolLabel → Db × List (Act AgentRunResult)
  | .start deps consentStatus budget startedAt =>
    (s.1, s.2 ++ [runAgent deps { ref, caseVersion, workflowRunId, consentStatus } budget startedAt])
  | .move n m =>
    match s.2[n]? with
    | some p => ((p.move s.1 m).1, s.2.set n (p.move s.1 m).2)
    | none => s
  | .elsewhere f => ({ f s.1 with budget := s.1.budget }, s.2)
  | .ledger call => ({ s.1 with budget := ledgerCall s.1 call }, s.2)

def RunPool.erase (s : RunPool) : Db × List (Act AgentRunResult) := (s.db, s.runs.map (·.erase))

theorem poolStep_erase (s : RunPool) (a : PoolLabel) :
    (poolStep ref workflowRunId caseVersion s a).erase
      = plainStep ref workflowRunId caseVersion s.erase a := by
  cases a with
  | start deps consentStatus budget startedAt =>
    simp only [poolStep, plainStep, RunPool.erase, List.map_append, List.map_cons, List.map_nil,
      notedRunAgent_erase]
  | move n m =>
    simp only [poolStep, plainStep, RunPool.erase, List.getElem?_map]
    cases s.runs[n]? with
    | none => rfl
    | some p => simp only [Option.map_some, Noted.erase_move, List.map_set]
  | elsewhere f => rfl
  | ledger call => rfl

/-- **The pool is a pool of the runtime's executions**: only the notes are added. -/
theorem pool_erase (s : RunPool) (run : List PoolLabel) :
    (exec (poolStep ref workflowRunId caseVersion) s run).erase
      = exec (plainStep ref workflowRunId caseVersion) s.erase run := by
  induction run generalizing s with
  | nil => rfl
  | cons a run ih =>
    rw [exec_cons, exec_cons, ih, poolStep_erase]

end Pool

/-! ## The notes of all executions -/

def ToolNote.executedKey : ToolNote → Option String
  | .executed _ key => some key
  | .found _ _ => none

/-- The keys under which side-effecting tools were executed. -/
def executedKeys (log : List (Nat × ToolNote)) : List String :=
  log.filterMap fun entry => entry.2.executedKey

/-- What the notes say, beside the phases the executions are in. -/
structure LogInv (ref : CaseRef) (workflowRunId : String) (phase : Nat → ToolPhase) (db : Db)
    (log : List (Nat × ToolNote)) : Prop where
  claimed : ∀ n used key, phase n = .claimed used key →
    Taken ref workflowRunId key db ∧ key ∉ executedKeys log
  apart : ∀ n n' used used' key, phase n = .claimed used key → phase n' = .claimed used' key →
    n = n'
  nodup : (executedKeys log).Nodup
  taken : ∀ key ∈ executedKeys log, Taken ref workflowRunId key db
  executed : ∀ n tool key, (n, .executed tool key) ∈ log → tool ∈ (phase n).used
  found : ∀ n tool key, (n, .found tool key) ∈ log →
    ∃ used, phase n = .quarantined used ∧ tool ∉ used

section Log

variable {ref : CaseRef} {workflowRunId : String} {phase : Nat → ToolPhase} {db : Db}
  {log : List (Nat × ToolNote)}

theorem executedKeys_append (n : Nat) (note : ToolNote) :
    executedKeys (log ++ [(n, note)]) = executedKeys log ++ note.executedKey.toList := by
  unfold executedKeys
  rw [List.filterMap_append]
  cases note <;> rfl

theorem LogInv.later {db' : Db} (h : LogInv ref workflowRunId phase db log)
    (hrows : RunRows db db') : LogInv ref workflowRunId phase db' log where
  claimed n used key hn :=
    have hclaimed := h.claimed n used key hn
    ⟨hclaimed.1.later hrows, hclaimed.2⟩
  apart := h.apart
  nodup := h.nodup
  taken key hkey := (h.taken key hkey).later hrows
  executed := h.executed
  found := h.found

/-- An execution that is not quarantined has found nothing. -/
theorem LogInv.notFound (h : LogInv ref workflowRunId phase db log) {n : Nat}
    (hphase : ∀ used, phase n ≠ .quarantined used) (tool key : String) :
    (n, .found tool key) ∉ log := by
  intro hfound
  obtain ⟨used, hquarantined, -⟩ := h.found n tool key hfound
  exact hphase used hquarantined

/-- The claimed tool is executed. -/
theorem LogInv.note_executed (h : LogInv ref workflowRunId phase db log) {n : Nat}
    {used : List String} {tool key : String} (hphase : phase n = .claimed used key) :
    LogInv ref workflowRunId (Function.update phase n (.idle (tool :: used))) db
      (log ++ [(n, .executed tool key)]) := by
  obtain ⟨htaken, hfresh⟩ := h.claimed n used key hphase
  have hkeys : executedKeys (log ++ [(n, .executed tool key)]) = executedKeys log ++ [key] :=
    executedKeys_append n (.executed tool key)
  have hnot : ∀ tool key, (n, .found tool key) ∉ log := by
    apply h.notFound
    intro used' hquarantined
    rw [hphase] at hquarantined
    cases hquarantined
  constructor
  · intro n' used' key' hn'
    by_cases hn : n' = n
    · rw [hn, Function.update_self] at hn'
      cases hn'
    · rw [Function.update_of_ne hn] at hn'
      obtain ⟨htaken', hfresh'⟩ := h.claimed n' used' key' hn'
      refine ⟨htaken', ?_⟩
      rw [hkeys, List.mem_append, List.mem_singleton]
      rintro (hkey | hkey)
      · exact hfresh' hkey
      · rw [hkey] at hn'
        exact hn (h.apart n' n used' used key hn' hphase)
  · intro n₁ n₂ used₁ used₂ key' h₁ h₂
    by_cases hn₁ : n₁ = n
    · rw [hn₁, Function.update_self] at h₁
      cases h₁
    · by_cases hn₂ : n₂ = n
      · rw [hn₂, Function.update_self] at h₂
        cases h₂
      · rw [Function.update_of_ne hn₁] at h₁
        rw [Function.update_of_ne hn₂] at h₂
        exact h.apart n₁ n₂ used₁ used₂ key' h₁ h₂
  · rw [hkeys]
    exact List.nodup_append.mpr ⟨h.nodup, List.nodup_singleton key,
      fun a ha b hb hab => hfresh (by rw [← List.mem_singleton.mp hb, ← hab]; exact ha)⟩
  · intro key' hkey'
    rw [hkeys, List.mem_append, List.mem_singleton] at hkey'
    rcases hkey' with hkey' | hkey'
    · exact h.taken key' hkey'
    · rw [hkey']
      exact htaken
  · intro n' tool' key' hmem
    rw [List.mem_append, List.mem_singleton] at hmem
    by_cases hn : n' = n
    · rw [hn] at hmem
      rw [hn, Function.update_self]
      show tool' ∈ tool :: used
      rcases hmem with hmem | hmem
      · have hin := h.executed n tool' key' hmem
        rw [hphase] at hin
        exact List.mem_cons_of_mem _ hin
      · cases hmem
        exact List.mem_cons_self ..
    · rw [Function.update_of_ne hn]
      rcases hmem with hmem | hmem
      · exact h.executed n' tool' key' hmem
      · cases hmem
        exact absurd rfl hn
  · intro n' tool' key' hmem
    rw [List.mem_append, List.mem_singleton] at hmem
    rcases hmem with hmem | hmem
    · by_cases hn : n' = n
      · rw [hn] at hmem
        exact absurd hmem (hnot tool' key')
      · rw [Function.update_of_ne hn]
        exact h.found n' tool' key' hmem
    · cases hmem

/-- A reservation was found. -/
theorem LogInv.note_found (h : LogInv ref workflowRunId phase db log) {n : Nat}
    {used : List String} {tool key : String} (hphase : phase n = .idle used)
    (hused : tool ∉ used) :
    LogInv ref workflowRunId (Function.update phase n (.quarantined used)) db
      (log ++ [(n, .found tool key)]) := by
  have hkeys : executedKeys (log ++ [(n, .found tool key)]) = executedKeys log := by
    rw [executedKeys_append]
    exact List.append_nil _
  have hnot : ∀ tool key, (n, .found tool key) ∉ log := by
    apply h.notFound
    intro used' hquarantined
    rw [hphase] at hquarantined
    cases hquarantined
  -- who has claimed a key had claimed it before
  have hsame : ∀ n' used' key', Function.update phase n (.quarantined used) n'
      = .claimed used' key' → phase n' = .claimed used' key' := by
    intro n' used' key' hn'
    by_cases hn : n' = n
    · rw [hn, Function.update_self] at hn'
      cases hn'
    · rwa [Function.update_of_ne hn] at hn'
  constructor
  · intro n' used' key' hn'
    rw [hkeys]
    exact h.claimed n' used' key' (hsame n' used' key' hn')
  · intro n₁ n₂ used₁ used₂ key' h₁ h₂
    exact h.apart n₁ n₂ used₁ used₂ key' (hsame n₁ used₁ key' h₁) (hsame n₂ used₂ key' h₂)
  · rw [hkeys]
    exact h.nodup
  · rw [hkeys]
    exact h.taken
  · intro n' tool' key' hmem
    rw [List.mem_append, List.mem_singleton] at hmem
    rcases hmem with hmem | hmem
    · have hin := h.executed n' tool' key' hmem
      by_cases hn : n' = n
      · rw [hn, hphase] at hin
        rw [hn, Function.update_self]
        exact hin
      · rw [Function.update_of_ne hn]
        exact hin
    · cases hmem
  · intro n' tool' key' hmem
    rw [List.mem_append, List.mem_singleton] at hmem
    rcases hmem with hmem | hmem
    · by_cases hn : n' = n
      · rw [hn] at hmem
        exact absurd hmem (hnot tool' key')
      · rw [Function.update_of_ne hn]
        exact h.found n' tool' key' hmem
    · cases hmem
      rw [Function.update_self]
      exact ⟨used, rfl, hused⟩

/-- One note. -/
theorem LogInv.note (h : LogInv ref workflowRunId phase db log) {n : Nat} {note : ToolNote}
    {g : ToolPhase} (hnote : NoteStep (phase n) note g) :
    LogInv ref workflowRunId (Function.update phase n g) db (log ++ [(n, note)]) := by
  generalize hphase : phase n = g₀ at hnote
  cases hnote with
  | executed hused => exact h.note_executed hphase
  | found hused => exact h.note_found hphase hused

/-- All notes of one step. -/
theorem LogInv.notes (h : LogInv ref workflowRunId phase db log) {n : Nat} {notes : List ToolNote}
    {g : ToolPhase} (hpath : (onceProtocol ref workflowRunId).Path (phase n) notes g) :
    LogInv ref workflowRunId (Function.update phase n g) db (log ++ notes.map (n, ·)) := by
  induction notes generalizing phase log with
  | nil =>
    have hg : g = phase n := hpath
    rw [hg, Function.update_eq_self, List.map_nil, List.append_nil]
    exact h
  | cons note notes ih =>
    obtain ⟨g₁, hnote, hrest⟩ := hpath
    have hnext : (onceProtocol ref workflowRunId).Path (Function.update phase n g₁ n) notes g := by
      rw [Function.update_self]
      exact hrest
    have hall := ih (h.note hnote) hnext
    rw [Function.update_idem, List.append_assoc] at hall
    exact hall

/-- One transaction. -/
theorem LogInv.tx (h : LogInv ref workflowRunId phase db log) {n : Nat} {db' : Db} {g : ToolPhase}
    (htx : ToolStep ref workflowRunId (phase n) db db' g) :
    LogInv ref workflowRunId (Function.update phase n g) db' log := by
  generalize hphase : phase n = g₀ at htx
  cases htx with
  | quiet hrows =>
    rw [← hphase, Function.update_eq_self]
    exact h.later hrows
  | @claims used key db db' hrows hfree htaken =>
    have hlater := h.later hrows
    -- nobody else has claimed the key, which was free
    have hother : ∀ n' used', phase n' ≠ .claimed used' key := by
      intro n' used' hn'
      exact hfree (h.claimed n' used' key hn').1
    constructor
    · intro n' used' key' hn'
      by_cases hn : n' = n
      · rw [hn, Function.update_self] at hn'
        cases hn'
        exact ⟨htaken, fun hkey => hfree (h.taken key hkey)⟩
      · rw [Function.update_of_ne hn] at hn'
        exact hlater.claimed n' used' key' hn'
    · intro n₁ n₂ used₁ used₂ key' h₁ h₂
      by_cases hn₁ : n₁ = n
      · by_cases hn₂ : n₂ = n
        · rw [hn₁, hn₂]
        · rw [hn₁, Function.update_self] at h₁
          cases h₁
          rw [Function.update_of_ne hn₂] at h₂
          exact absurd h₂ (hother n₂ used₂)
      · rw [Function.update_of_ne hn₁] at h₁
        by_cases hn₂ : n₂ = n
        · rw [hn₂, Function.update_self] at h₂
          cases h₂
          exact absurd h₁ (hother n₁ used₁)
        · rw [Function.update_of_ne hn₂] at h₂
          exact h.apart n₁ n₂ used₁ used₂ key' h₁ h₂
    · exact h.nodup
    · exact hlater.taken
    · intro n' tool key' hmem
      have hin := h.executed n' tool key' hmem
      by_cases hn : n' = n
      · rw [hn, hphase] at hin
        rw [hn, Function.update_self]
        exact hin
      · rw [Function.update_of_ne hn]
        exact hin
    · intro n' tool key' hmem
      obtain ⟨used', hquarantined, hnot⟩ := h.found n' tool key' hmem
      have hn : n' ≠ n := by
        intro hn
        rw [hn, hphase] at hquarantined
        cases hquarantined
      rw [Function.update_of_ne hn]
      exact ⟨used', hquarantined, hnot⟩

end Log

/-! ## Every history -/

/-- What the `n`-th execution has returned. -/
def RunPool.result (s : RunPool) (n : Nat) : Option AgentRunResult :=
  match s.runs[n]? with
  | some (.done result) => some result
  | _ => none

/-- No key is executed twice, by whatever executions. -/
def RunPool.ExecutedOnce (s : RunPool) : Prop := (executedKeys s.log).Nodup

/-- An execution that has found the reservation of a tool has not called the tool, and returns
only with a review. -/
def RunPool.FoundCallsNothing (s : RunPool) : Prop :=
  ∀ n tool key, (n, .found tool key) ∈ s.log →
    (∀ key', (n, .executed tool key') ∉ s.log)
      ∧ ∀ result, s.result n = some result → result.reviewed

/-- The executions follow the protocol, each from its phase. -/
structure OnceInv (ref : CaseRef) (workflowRunId : String) (phase : Nat → ToolPhase)
    (s : RunPool) : Prop where
  index : s.db.budget.OneLedgerPerRun
  log : LogInv ref workflowRunId phase s.db s.log
  follows : ∀ n (p : NotedAct AgentRunResult), s.runs[n]? = some p →
    p.Follows (onceProtocol ref workflowRunId) (ReturnsIn ResultOnce) (phase n) s.db
  fresh : ∀ n, s.runs.length ≤ n → phase n = .idle []

section Pool

variable {ref : CaseRef} {workflowRunId : String} {caseVersion : Nat} {phase : Nat → ToolPhase}
  {s : RunPool}

theorem follows_later {p : NotedAct AgentRunResult} {g : ToolPhase} {db db' : Db}
    (h : p.Follows (onceProtocol ref workflowRunId) (ReturnsIn ResultOnce) g db)
    (hrows : RunRows db db') :
    p.Follows (onceProtocol ref workflowRunId) (ReturnsIn ResultOnce) g db' := by
  apply h.later _ hrows
  intro g r s s' _ hr
  cases r with
  | ok result => exact hr
  | error e => trivial

/-- Something else happens to the store. -/
theorem OnceInv.later (h : OnceInv ref workflowRunId phase s) {db : Db}
    (hrows : RunRows s.db db) : OnceInv ref workflowRunId phase { s with db } where
  index := hrows.2 h.index
  log := h.log.later hrows
  follows n p hp := follows_later (h.follows n p hp) hrows
  fresh := h.fresh

theorem OnceInv.start (h : OnceInv ref workflowRunId phase s) {p : NotedAct AgentRunResult}
    (hp : p.Follows (onceProtocol ref workflowRunId) (ReturnsIn ResultOnce) (.idle []) s.db) :
    OnceInv ref workflowRunId phase { s with runs := s.runs ++ [p] } where
  index := h.index
  log := h.log
  follows n q hq := by
    rcases Nat.lt_or_ge n s.runs.length with hn | hn
    · rw [List.getElem?_append_left hn] at hq
      exact h.follows n q hq
    · have hlast : n = s.runs.length := by
        have hlt := (List.getElem?_eq_some_iff.mp hq).1
        simp only [List.length_append, List.length_singleton] at hlt
        omega
      rw [hlast, List.getElem?_concat_length] at hq
      cases hq
      rw [h.fresh n hn]
      exact hp
  fresh n hn := by
    apply h.fresh
    simp only [List.length_append, List.length_singleton] at hn
    omega

theorem OnceInv.move (h : OnceInv ref workflowRunId phase s) {n : Nat} {p : NotedAct AgentRunResult}
    (hp : s.runs[n]? = some p) (m : Proc.Move Input Failure) :
    ∃ phase', OnceInv ref workflowRunId phase' {
      db := (p.move s.db m).store
      runs := s.runs.set n (p.move s.db m).rest
      log := s.log ++ (p.move s.db m).notes.map (n, ·) } := by
  obtain ⟨g₁, g, hpath, htx, hrest⟩ := (h.follows n p hp).move m
  have hn : n < s.runs.length := (List.getElem?_eq_some_iff.mp hp).1
  have hnoted := h.log.notes hpath
  have hrows : RunRows s.db (p.move s.db m).store := by
    rcases htx with ⟨hstore, -⟩ | htx
    · rw [hstore]
      exact .refl _
    · cases htx with
      | quiet hrows => exact hrows
      | claims hrows => exact hrows
  have hlog : LogInv ref workflowRunId (Function.update phase n g) (p.move s.db m).store
      (s.log ++ (p.move s.db m).notes.map (n, ·)) := by
    rcases htx with ⟨hstore, hg⟩ | htx
    · rw [hstore, hg]
      exact hnoted
    · have hstep : ToolStep ref workflowRunId (Function.update phase n g₁ n) s.db
          (p.move s.db m).store g := by
        rw [Function.update_self]
        exact htx
      have hafter := hnoted.tx hstep
      rw [Function.update_idem] at hafter
      exact hafter
  refine ⟨Function.update phase n g, hrows.2 h.index, hlog, ?_, ?_⟩
  · intro n' q hq
    by_cases hn' : n' = n
    · rw [hn', List.getElem?_set_self hn] at hq
      cases hq
      rw [hn', Function.update_self]
      exact hrest
    · rw [List.getElem?_set_ne (Ne.symm hn')] at hq
      rw [Function.update_of_ne hn']
      exact follows_later (h.follows n' q hq) hrows
  · intro n' hlength
    rw [List.length_set] at hlength
    have hn' : n' ≠ n := by omega
    rw [Function.update_of_ne hn']
    exact h.fresh n' hlength

/-- The invariant is kept by every step. -/
theorem onceInv_step (s : RunPool) (a : PoolLabel)
    (h : ∃ phase, OnceInv ref workflowRunId phase s) :
    ∃ phase, OnceInv ref workflowRunId phase (poolStep ref workflowRunId caseVersion s a) := by
  obtain ⟨phase, h⟩ := h
  cases a with
  | start deps consentStatus budget startedAt =>
    refine ⟨phase, h.start ?_⟩
    exact notedRunAgent_follows deps (by rfl) (by rfl) budget startedAt h.index
  | move n m =>
    dsimp only [poolStep]
    cases hp : s.runs[n]? with
    | none => exact ⟨phase, h⟩
    | some p => exact h.move hp m
  | elsewhere f => exact ⟨phase, h.later (runRows_of_eq rfl)⟩
  | ledger call =>
    let system : Budget.System := { db := s.db.budget, calls := fun _ => .idle }
    have hrows : RunRows s.db { s.db with budget := (Budget.step system call).db } :=
      ⟨(Budget.step_effect system call).grows, Budget.step_oneLedgerPerRun system call⟩
    exact ⟨phase, h.later hrows⟩

theorem OnceInv.foundCallsNothing (h : OnceInv ref workflowRunId phase s) :
    s.FoundCallsNothing := by
  intro n tool key hfound
  obtain ⟨used, hphase, hnot⟩ := h.log.found n tool key hfound
  constructor
  · intro key' hexecuted
    have hin := h.log.executed n tool key' hexecuted
    rw [hphase] at hin
    exact hnot hin
  · intro result hresult
    unfold RunPool.result at hresult
    split at hresult
    · rename_i _ result' hdone
      cases hresult
      have hend := h.follows n _ hdone
      exact hend used hphase
    · cases hresult

end Pool

/-- **Side effects are executed once**: in every history of executions, started, interleaved and
stopped in any way, from any store that meets the unique index of the ledgers. -/
theorem side_effects_once (ref : CaseRef) (workflowRunId : String) (caseVersion : Nat) (db : Db)
    (hindex : db.budget.OneLedgerPerRun) (run : List PoolLabel) :
    (exec (poolStep ref workflowRunId caseVersion) { db } run).ExecutedOnce
      ∧ (exec (poolStep ref workflowRunId caseVersion) { db } run).FoundCallsNothing := by
  have hinit : ∃ phase, OnceInv ref workflowRunId phase { db } := by
    refine ⟨fun _ => .idle [], hindex, ?_, fun n p hp => (by cases hp), fun _ _ => rfl⟩
    exact {
      claimed := fun n used key hn => (by cases hn)
      apart := fun n n' used used' key hn => (by cases hn)
      nodup := List.nodup_nil
      taken := fun key hkey => (by cases hkey)
      executed := fun n tool key hmem => (by cases hmem)
      found := fun n tool key hmem => (by cases hmem) }
  obtain ⟨phase, h⟩ := exec_inv onceInv_step hinit run
  exact ⟨h.log.nodup, h.foundCallsNothing⟩

/-! ## An execution that is stopped while a tool runs -/

def sampleStart : PoolLabel :=
  .start sampleDeps .VALID { stepBudget := 10, durationBudgetMs := 75000, tokenBudget := 0 }
    1786795200000

/-- `count` transactions of an execution commit. -/
def committed (n first count : Nat) : List PoolLabel :=
  (List.range' first count).map fun k => .move n (.commit (sampleInput k))

/-- The first execution is stopped in `evaluate_policy`, and the second one goes all the way. -/
def stoppedRun : List PoolLabel :=
  sampleStart :: committed 0 0 11 ++ .move 0 (.lose .stopped) :: sampleStart :: committed 1 20 20

def stoppedPool : RunPool :=
  exec (poolStep sampleRef "run-1" 1) { db := sampleDb .COLLECTING_EVIDENCE sampleFacts } stoppedRun

theorem side_effects_once_stopped :
    stoppedPool.log = [(0, .executed "evaluate_policy" "run-1:1:evaluate_policy:1"),
        (1, .found "evaluate_policy" "run-1:1:evaluate_policy:1")]
      ∧ (stoppedPool.result 1).map (·.route) = some .ROUTED_TO_MANUAL_REVIEW
      ∧ stoppedPool.ExecutedOnce ∧ stoppedPool.FoundCallsNothing :=
  ⟨by decide +kernel, by decide +kernel,
    side_effects_once sampleRef "run-1" 1 (sampleDb .COLLECTING_EVIDENCE sampleFacts)
      (fun l hl => (by cases hl)) stoppedRun⟩

end MortgageAgent.Workflow
