import MortgageAgent.Provider.FetchInv
import MortgageAgent.Provider.Submission

/-!
# What a review covers

A review names the evidence and the intents of its case as the revocation read them. While the
platform runs on, that list goes on naming all that was obtained under the consent.

* **`resolveFinish_ok`**, **`ErasedBy`** — what a resolution writes that commits.
* **`CoversEvidence`** / **`CoversIntents`** — a list of ids names all that is stored under a
  consent, and all that a dispatch may still come to store.
* **`FetchInv`** — every review, and every revocation that has read, covers its consent; an erased
  review has settled its intents.
* **`FetchInv.step`** — a step of the platform keeps it.
-/

namespace MortgageAgent.Provider

open Runs

/-! ## What a resolution writes -/

/-- The same review: its case, its consent and what it names. -/
structure SameSnapshot (t t' : DataDispositionTask) : Prop where
  id : t'.id = t.id
  tenantId : t'.tenantId = t.tenantId
  trigger : t'.triggeringConsentRecordId = t.triggeringConsentRecordId
  evidence : t'.affectedEvidenceFactIds = t.affectedEvidenceFactIds
  intents : t'.affectedProviderIntentIds = t.affectedProviderIntentIds

theorem SameSnapshot.refl (t : DataDispositionTask) : SameSnapshot t t := ⟨rfl, rfl, rfl, rfl, rfl⟩

/-- The same evidence record, perhaps without its value. -/
structure FactKept (e e' : EvidenceFact) : Prop where
  id : e.id = e'.id
  tenantId : e.tenantId = e'.tenantId
  caseId : e.caseId = e'.caseId
  value : e'.value = e.value ∨ e'.value = .obj []

theorem FactKept.refl (e : EvidenceFact) : FactKept e e := ⟨rfl, rfl, rfl, Or.inl rfl⟩

/-- What an erasing resolution has found and done. -/
structure ErasedBy (db db' : Db) (env : Env) (tenantId : Uuid) (task : DataDispositionTask)
    (actorId : String) : Prop where
  settled : unsettledIntents db tenantId task = []
  intents : db'.intents = disposeIntents db env tenantId task actorId
  evidence : ∀ e' ∈ db'.evidence.rows, e'.id ∈ task.affectedEvidenceFactIds → e'.value = .obj []

/-- **A resolution that commits.** -/
theorem resolveFinish_ok {deps : Deps} {db db' : Db} {env : Env} {tenantId : Uuid}
    {task : DataDispositionTask} {action : DataDispositionResolutionAction} {actorId : String}
    (h : resolveFinish deps db env tenantId task action actorId = .ok db') :
    ∃ row row', db.tasks.find task.id = some row ∧ SameSnapshot row row'
      ∧ db'.tasks = db.tasks.put row'
      ∧ (∀ e' ∈ db'.evidence.rows, ∃ e ∈ db.evidence.rows, FactKept e e')
      ∧ (row'.erased = true → ErasedBy db db' env tenantId task actorId) := by
  obtain ⟨row, hrow, hfinished⟩ := finished_of_resolveFinish h
  have hkept (e : EvidenceFact) (he : e ∈ db.evidence.rows) :
      ∃ x ∈ db.evidence.rows, FactKept x e :=
    ⟨e, he, .refl e⟩
  cases hfinished with
  | retained =>
    exact ⟨row, row.retained env actorId, hrow, ⟨rfl, rfl, rfl, rfl, rfl⟩, rfl, hkept, nofun⟩
  | deleted hsettled =>
    refine ⟨row, row.completed deps env actorId .DELETED, hrow, ⟨rfl, rfl, rfl, rfl, rfl⟩, rfl,
      ?_, fun _ => ⟨hsettled, rfl, ?_⟩⟩
    · intro e he
      exact hkept e (List.mem_of_mem_filter he)
    · intro e he hnamed
      obtain ⟨-, hother⟩ := List.mem_filter.mp he
      simp [hnamed] at hother
  | anonymized hsettled =>
    refine ⟨row, row.completed deps env actorId .ANONYMIZED, hrow, ⟨rfl, rfl, rfl, rfl, rfl⟩, rfl,
      ?_, fun _ => ⟨hsettled, rfl, ?_⟩⟩
    · intro e' he'
      obtain ⟨e, he, rfl⟩ := List.mem_map.mp he'
      refine ⟨e, he, ?_⟩
      split
      · exact ⟨rfl, rfl, rfl, Or.inr rfl⟩
      · exact .refl e
    · intro e' he' hnamed
      obtain ⟨e, he, rfl⟩ := List.mem_map.mp he'
      split
      · rfl
      · next hother =>
        rw [if_neg hother] at hnamed
        exact absurd (List.contains_iff_mem.mpr hnamed) hother

/-- An affected row behind the resolution: its outcome is final and its payloads are gone. -/
theorem ErasedBy.settled_row {db db' : Db} {env : Env} {tenantId : Uuid}
    {task : DataDispositionTask} {actorId : String} (h : ErasedBy db db' env tenantId task actorId)
    {i i' : ProviderOperationIntent} (hi : i ∈ db.intents.rows) (hi' : i' ∈ db'.intents.rows)
    (hid : i'.id = i.id) (haffects : task.affects tenantId i = true) :
    i'.state.terminal = true ∧ i'.bare := by
  rw [h.intents, disposeIntents, Table.mapRows_rows] at hi'
  obtain ⟨x, hx, rfl⟩ := List.mem_map.mp hi'
  have hxid : (if task.affects tenantId x then x.disposed env actorId else x).id = x.id := by
    split <;> simp
  obtain rfl := db.intents.eq_of_key_eq hx hi (hxid.symm.trans hid)
  rw [if_pos haffects]
  refine ⟨?_, disposed_bare x env actorId⟩
  have hsettled : x.unsettled = false := by
    by_contra hopen
    have hmem : x ∈ unsettledIntents db tenantId task :=
      List.mem_filter.mpr ⟨hi, by simp [haffects, hopen]⟩
    rw [h.settled] at hmem
    cases hmem
  unfold ProviderOperationIntent.disposed ProviderOperationIntent.unsettled at *
  cases hstate : x.state <;> simp_all [ProviderOperationIntentStatus.terminal]

/-! ## What a step of the platform writes -/

section Platform

variable {deps : Deps} {s : System} {a : Label}

/-- A final row without payloads stays so. -/
theorem settled_row_step {i i' : ProviderOperationIntent} (hi : i ∈ s.db.intents.rows)
    (hterminal : i.state.terminal = true) (hbare : i.bare)
    (hi' : i' ∈ (step deps s a).db.intents.rows) (hid : i'.id = i.id) :
    i'.state.terminal = true ∧ i'.bare := by
  constructor
  · rcases (step_intentEffect deps s a).fresh hi' with ⟨x, hx, hstep⟩ | ⟨-, hfree⟩
    · obtain rfl := s.db.intents.eq_of_key_eq hx hi (hstep.same.id.symm.trans hid)
      rcases hstep.state with hsame | hedge
      · rw [hsame]
        exact hterminal
      · rw [hedge.not_terminal] at hterminal
        cases hterminal
    · exact absurd hid.symm (hfree i hi).2
  · rcases step_payloads deps s a i' hi' with hbare' | ⟨x, hx, hxid, hsame | ⟨-, hopen⟩⟩
    · exact hbare'
    · obtain rfl := s.db.intents.eq_of_key_eq hx hi (hxid.trans hid)
      exact ⟨hsame.1.trans hbare.1, hsame.2.trans hbare.2⟩
    · obtain rfl := s.db.intents.eq_of_key_eq hx hi (hxid.trans hid)
      rw [hterminal] at hopen
      cases hopen

variable (hrevoke : ∀ env tenantId caseId reason, a ≠ .revokeConsent env tenantId caseId reason)
  (hrecord : ∀ fact, a ≠ .recordEvidence fact)

include hrevoke hrecord

theorem step_evidence {e' : EvidenceFact} (he' : e' ∈ (step deps s a).db.evidence.rows) :
    ∃ e ∈ s.db.evidence.rows, FactKept e e' := by
  rcases step_review hrevoke hrecord with ⟨-, hsame⟩ | ⟨w, env, t, task, act, who, -, hfinish⟩
  · exact ⟨e', hsame ▸ he', .refl e'⟩
  · obtain ⟨row, row', -, -, -, hkept, -⟩ := resolveFinish_ok hfinish
    exact hkept e' he'

/-- A review stays what it is, and is erased only by a resolution that erases. -/
theorem step_tasks {t' : DataDispositionTask} (ht' : t' ∈ (step deps s a).db.tasks.rows) :
    ∃ t ∈ s.db.tasks.rows, SameSnapshot t t' ∧ (t'.erased = true → t.erased = true
      ∨ ∃ w env tenantId task action actorId, s.resolves w = .finish tenantId task action actorId
        ∧ s.db.tasks.find task.id = some t
        ∧ ErasedBy s.db (step deps s a).db env tenantId task actorId) := by
  rcases step_review hrevoke hrecord with ⟨hsame, -⟩ | ⟨w, env, t, task, act, who, hw, hfinish⟩
  · exact ⟨t', hsame ▸ ht', .refl t', Or.inl⟩
  · obtain ⟨row, row', hrow, hsnapshot, hput, -, herases⟩ := resolveFinish_ok hfinish
    obtain ⟨hmem, -⟩ := s.db.tasks.find_eq_some_iff.mp hrow
    rw [hput] at ht'
    rcases (s.db.tasks.mem_put ⟨row, hmem, hsnapshot.id.symm⟩).mp ht' with rfl | ⟨ht, -⟩
    · exact ⟨row, hmem, hsnapshot, fun herased =>
        Or.inr ⟨w, env, t, task, act, who, hw, hrow, herases herased⟩⟩
    · exact ⟨t', ht, .refl t', Or.inl⟩

theorem step_tasks_find {id : Uuid} {row : DataDispositionTask}
    (h : s.db.tasks.find id = some row) :
    ∃ row', (step deps s a).db.tasks.find id = some row' ∧ SameSnapshot row row' := by
  rcases @step_review deps s a hrevoke hrecord with
    ⟨hsame, -⟩ | ⟨w, env, t, task, act, who, -, hfinish⟩
  · exact ⟨row, hsame ▸ h, .refl row⟩
  · obtain ⟨resolved, resolved', hrow, hsnapshot, hput, -⟩ := resolveFinish_ok hfinish
    rw [hput, Table.find_put, h]
    split
    · next hid =>
      -- the row under the resolved id is the one resolved
      obtain ⟨-, hfound⟩ := s.db.tasks.find_eq_some_iff.mp hrow
      rw [hsnapshot.id, hfound] at hid
      rw [← hid, h] at hrow
      obtain rfl := Option.some.inj hrow
      exact ⟨resolved', rfl, hsnapshot⟩
    · exact ⟨row, rfl, .refl row⟩

end Platform

/-! ## What a snapshot covers -/

/-- The list names all evidence obtained under the consent. -/
def CoversEvidence (s : FetchSystem) (c : Uuid) (ids : List Uuid) : Prop :=
  ∀ e ∈ s.platform.db.evidence.rows, c ∈ s.evidenceUnder e.id → e.id ∈ ids

/-- The list names all intents with payloads obtained under the consent, and those that a cleared
dispatch may still write under it. It names rows of the tenant only. -/
structure CoversIntents (s : FetchSystem) (tenantId c : Uuid) (ids : List Uuid) : Prop where
  stored : ∀ i ∈ s.platform.db.intents.rows, ¬ i.bare → c ∈ s.payloadUnder i.id → i.id ∈ ids
  cleared : ∀ d id, (s.platform.dispatches d).cleared = some id → c ∈ s.under d → id ∈ ids
  rows : ∀ id ∈ ids, ∃ i ∈ s.platform.db.intents.rows, i.id = id ∧ i.tenantId = tenantId

/-- What is known of a revocation: whose consent it is, and what it has read. -/
def RevokeState.Covers (s : FetchSystem) : RevokeState → Prop
  | .idle => True
  | .readEvidence active _ => ConsentOf s.platform.db active.tenantId active.caseId active.id
  | .readIntents active _ evidenceFactIds =>
    ConsentOf s.platform.db active.tenantId active.caseId active.id
      ∧ CoversEvidence s active.id evidenceFactIds
  | .commit active _ evidenceFactIds providerIntentIds =>
    ConsentOf s.platform.db active.tenantId active.caseId active.id
      ∧ CoversEvidence s active.id evidenceFactIds
      ∧ CoversIntents s active.tenantId active.id providerIntentIds

/-- The task in hand of a resolution is a copy of its row. -/
def CopyOf (db : Db) (tenantId : Uuid) (task : DataDispositionTask) : Prop :=
  ∃ row, db.tasks.find task.id = some row ∧ row.tenantId = tenantId
    ∧ row.affectedEvidenceFactIds = task.affectedEvidenceFactIds
    ∧ row.affectedProviderIntentIds = task.affectedProviderIntentIds

def ResolveState.Copies (db : Db) : ResolveState → Prop
  | .readHold tenantId task _ _ => CopyOf db tenantId task
  | .finish tenantId task _ _ => CopyOf db tenantId task
  | _ => True

/-- What is known of the dispatch of a fetch. -/
def FetchSystem.FetchKnown (s : FetchSystem) (d : Nat) : Prop :=
  (s.platform.dispatches d = .idle ∨ s.platform.dispatches d = .crashed)
    ∨ ∃ p, s.requests d = some p
      ∧ (s.platform.dispatches d).FetchOk s.platform.db p (s.under d)

/-- What a review says of its consent. -/
structure ReviewCovers (s : FetchSystem) (t : DataDispositionTask) (c : Uuid) : Prop where
  revoked : IsRevoked s.platform.db c
  evidence : CoversEvidence s c t.affectedEvidenceFactIds
  intents : CoversIntents s t.tenantId c t.affectedProviderIntentIds

/-- What an erased review has left of its consent's data: no value, and rows that are final. -/
structure ReviewSettled (s : FetchSystem) (t : DataDispositionTask) (c : Uuid) : Prop where
  evidence : ∀ e ∈ s.platform.db.evidence.rows, c ∈ s.evidenceUnder e.id → e.value = .obj []
  intents : ∀ i ∈ s.platform.db.intents.rows, i.id ∈ t.affectedProviderIntentIds →
    i.state.terminal = true ∧ i.bare

/-- **The invariant.** -/
structure FetchInv (s : FetchSystem) : Prop where
  granted : s.platform.Granted
  fetches : ∀ d, s.FetchKnown d
  payloads : ∀ i ∈ s.platform.db.intents.rows, ¬ i.bare → ∀ c ∈ s.payloadUnder i.id,
    ConsentOf s.platform.db i.tenantId i.caseId c
  evidence : ∀ e ∈ s.platform.db.evidence.rows, ∀ c ∈ s.evidenceUnder e.id,
    ConsentOf s.platform.db e.tenantId e.caseId c
  revokes : ∀ r, (s.revokes r).Covers s
  reviews : ∀ t ∈ s.platform.db.tasks.rows, ∀ c, t.triggeringConsentRecordId = some c →
    ReviewCovers s t c
  settled : ∀ t ∈ s.platform.db.tasks.rows, t.erased = true → ∀ c,
    t.triggeringConsentRecordId = some c → ReviewSettled s t c
  copies : ∀ w, (s.platform.resolves w).Copies s.platform.db

theorem fetchInv_init (db : Db) : FetchInv (.init db) where
  granted := fun _ => trivial
  fetches := fun _ => Or.inl (Or.inl rfl)
  payloads := fun _ hi => absurd hi List.not_mem_nil
  evidence := fun _ he => absurd he List.not_mem_nil
  revokes := fun _ => trivial
  reviews := fun _ ht => absurd ht List.not_mem_nil
  settled := fun _ ht => absurd ht List.not_mem_nil
  copies := fun _ => trivial

/-- A dispatch past its start knows its request and is where its row and its consents allow. -/
theorem FetchInv.of_running {s : FetchSystem} (h : FetchInv s) {d : Nat}
    (hidle : s.platform.dispatches d ≠ .idle) (hcrashed : s.platform.dispatches d ≠ .crashed) :
    ∃ p, s.requests d = some p
      ∧ (s.platform.dispatches d).FetchOk s.platform.db p (s.under d) := by
  rcases h.fetches d with (hidle' | hcrashed') | hok
  · exact absurd hidle' hidle
  · exact absurd hcrashed' hcrashed
  · exact hok

theorem FetchInv.of_cleared {s : FetchSystem} (h : FetchInv s) {d : Nat} {id : Uuid}
    (hcleared : (s.platform.dispatches d).cleared = some id) :
    ∃ p, (s.platform.dispatches d).FetchOk s.platform.db p (s.under d) := by
  have hidle : s.platform.dispatches d ≠ .idle := by
    intro hidle
    rw [hidle] at hcleared
    cases hcleared
  have hcrashed : s.platform.dispatches d ≠ .crashed := by
    intro hcrashed
    rw [hcrashed] at hcleared
    cases hcleared
  obtain ⟨p, -, hok⟩ := h.of_running hidle hcrashed
  exact ⟨p, hok⟩

theorem erased_of_inv {s : FetchSystem} (h : FetchInv s) : Erased s := by
  intro t ht herased c hc
  have hsettled : ReviewSettled s t c := h.settled t ht herased c hc
  refine ⟨hsettled.evidence, fun i hi hunder => ?_⟩
  by_contra hbare
  have hnamed : i.id ∈ t.affectedProviderIntentIds :=
    (h.reviews t ht c hc).intents.stored i hi hbare hunder
  exact hbare (hsettled.intents i hi hnamed).2

/-! ## The history of a step of the platform -/

section History

variable {deps : Deps} {s : FetchSystem}

@[simp] theorem fetch_step_platform (a : Label) :
    (s.step deps a).platform = step deps s.platform a := by
  cases a with
  | startDispatch d p => simp only [FetchSystem.step]; split <;> rfl
  | dispatch d env => simp only [FetchSystem.step]; split <;> rfl
  | _ => rfl

@[simp] theorem fetch_step_revokes (a : Label) : (s.step deps a).revokes = s.revokes := by
  cases a with
  | startDispatch d p => simp only [FetchSystem.step]; split <;> rfl
  | dispatch d env => simp only [FetchSystem.step]; split <;> rfl
  | _ => rfl

@[simp] theorem fetch_step_evidenceUnder (a : Label) :
    (s.step deps a).evidenceUnder = s.evidenceUnder := by
  cases a with
  | startDispatch d p => simp only [FetchSystem.step]; split <;> rfl
  | dispatch d env => simp only [FetchSystem.step]; split <;> rfl
  | _ => rfl

theorem fetch_step_under {a : Label} {d : Nat} (h : ∀ env, a ≠ .dispatch d env) :
    (s.step deps a).under d = s.under d := by
  cases a with
  | startDispatch d' p => simp only [FetchSystem.step]; split <;> rfl
  | dispatch d' env =>
    have hne : d ≠ d' := by
      rintro rfl
      exact h env rfl
    simp only [FetchSystem.step]
    split <;> exact Function.update_of_ne hne _ _
  | _ => rfl

theorem fetch_step_under_dispatch (d : Nat) (env : Env) :
    (s.step deps (.dispatch d env)).under d
      = s.consentsBehind (s.under d) (s.platform.dispatches d)
        (dispatchStep deps s.platform.db env (s.platform.dispatches d)).state := by
  have hnext : (step deps s.platform (.dispatch d env)).dispatches d
      = (dispatchStep deps s.platform.db env (s.platform.dispatches d)).state := by
    simp [step, System.setDispatch]
  rw [← hnext]
  simp only [FetchSystem.step]
  split <;> exact Function.update_self ..

/-- The payloads of an intent are under the consents they were under, or a cleared dispatch has
just written them. -/
theorem fetch_step_payloadUnder (deps : Deps) (s : FetchSystem) (a : Label) (id : Uuid) :
    (a.writesPayload deps s.platform ≠ some id
        ∧ (s.step deps a).payloadUnder id = s.payloadUnder id)
      ∨ ∃ d, (s.platform.dispatches d).cleared = some id
        ∧ (s.step deps a).payloadUnder id = s.under d := by
  cases a with
  | startDispatch d p => exact Or.inl ⟨nofun, by simp only [FetchSystem.step]; split <;> rfl⟩
  | dispatch d env =>
    simp only [FetchSystem.step, Label.writesPayload]
    cases hwrites : (s.platform.dispatches d).writesPayload deps s.platform.db env with
    | none => exact Or.inl ⟨nofun, rfl⟩
    | some written =>
      by_cases hid : id = written
      · subst hid
        exact Or.inr ⟨d, cleared_of_writesPayload hwrites, Function.update_self ..⟩
      · exact Or.inl ⟨fun h => hid (Option.some.inj h).symm, Function.update_of_ne hid _ _⟩
  | _ => exact Or.inl ⟨nofun, rfl⟩

theorem fetch_step_requests {a : Label} {d : Nat} (h : ∀ p, a ≠ .startDispatch d p) :
    (s.step deps a).requests d = s.requests d := by
  cases a with
  | startDispatch d' p =>
    have hne : d ≠ d' := by
      rintro rfl
      exact h p rfl
    simp only [FetchSystem.step]
    split
    · exact Function.update_of_ne hne _ _
    · rfl
  | dispatch d' env => simp only [FetchSystem.step]; split <;> rfl
  | _ => rfl

end History

/-! ## A step of the platform -/

section PlatformStep

variable {deps : Deps} {s : FetchSystem} {a : Label}

/-- What a statement of a dispatch keeps, wherever the dispatch stands: it never leaves `idle` or
`crashed`, and elsewhere it keeps `FetchOk`. -/
theorem FetchInv.moved (h : FetchInv s) (d : Nat) {db' : Db} {under' : List Uuid}
    (move : DispatchState → DispatchState) (hidle : move .idle = .idle)
    (hcrashed : move .crashed = .crashed)
    (hok : ∀ p, (s.platform.dispatches d).FetchOk s.platform.db p (s.under d) →
      (move (s.platform.dispatches d)).FetchOk db' p under') :
    (move (s.platform.dispatches d) = .idle ∨ move (s.platform.dispatches d) = .crashed)
      ∨ ∃ p, s.requests d = some p ∧ (move (s.platform.dispatches d)).FetchOk db' p under' := by
  rcases h.fetches d with (hidle' | hcrashed') | ⟨p, hp, hbefore⟩
  · rw [hidle']
    exact Or.inl (Or.inl hidle)
  · rw [hcrashed']
    exact Or.inl (Or.inr hcrashed)
  · exact Or.inr ⟨p, hp, hok p hbefore⟩

theorem fetchKnown_step (h : FetchInv s) (d : Nat) : (s.step deps a).FetchKnown d := by
  have hgrows : Grows s.platform.db (step deps s.platform a).db := step_grows deps s.platform a
  unfold FetchSystem.FetchKnown
  rw [fetch_step_platform]
  by_cases hown : a.ofDispatch = some d
  · cases a with
    | startDispatch d' p =>
      obtain rfl : d' = d := Option.some.inj hown
      simp only [FetchSystem.step, step]
      cases hidle : s.platform.dispatches d' with
      | idle =>
        refine Or.inr ⟨p, Function.update_self .., ?_⟩
        simp only [System.setDispatch, Function.update_self]
        exact fetchOk_dispatchStart deps s.platform.db p (s.under d')
      | _ =>
        have hknown := h.fetches d'
        unfold FetchSystem.FetchKnown at hknown
        rw [hidle] at hknown ⊢
        exact hknown
    | dispatch d' env =>
      obtain rfl : d' = d := Option.some.inj hown
      have hrequests : (s.step deps (.dispatch d' env)).requests d' = s.requests d' :=
        fetch_step_requests fun p hstart => by cases hstart
      rw [fetch_step_under_dispatch, hrequests]
      simp only [step, System.setDispatch, Function.update_self] at hgrows ⊢
      exact h.moved d' (fun state => (dispatchStep deps s.platform.db env state).state) rfl rfl
        fun p hok => fetchOk_dispatchStep hok h.payloads hgrows
    | submitReturns d' env outcome =>
      obtain rfl : d' = d := Option.some.inj hown
      simp only [FetchSystem.step, step, System.setDispatch, Function.update_self]
      exact h.moved d' (fun state => (dispatchReturn env outcome state).1) rfl rfl
        fun p hok => fetchOk_dispatchReturn hok
    | storeFails d' =>
      obtain rfl : d' = d := Option.some.inj hown
      simp only [FetchSystem.step, step, System.setDispatch, Function.update_self]
      exact h.moved d' dispatchStoreFails rfl rfl fun p hok => fetchOk_dispatchStoreFails hok
    | crash d' =>
      obtain rfl : d' = d := Option.some.inj hown
      have hcrashed : (step deps s.platform (.crash d')).dispatches d' = .crashed := by
        simp [step, System.setDispatch]
      exact Or.inl (Or.inr hcrashed)
    | _ => cases hown
  · -- anybody else's step leaves the dispatch alone, and what is known of it stays known
    have hstays : (step deps s.platform a).dispatches d = s.platform.dispatches d :=
      dispatch_frame deps d [a] (by simpa using hown)
    have hunder : (s.step deps a).under d = s.under d := by
      refine fetch_step_under fun env ha => hown ?_
      rw [ha]
      rfl
    have hrequests : (s.step deps a).requests d = s.requests d := by
      refine fetch_step_requests fun p ha => hown ?_
      rw [ha]
      rfl
    rw [hstays, hunder, hrequests]
    rcases h.fetches d with hrest | ⟨p, hp, hok⟩
    · exact Or.inl hrest
    · exact Or.inr ⟨p, hp, hok.grows hgrows⟩

/-- A cleared dispatch stays under the consents it was cleared under. -/
theorem consentsBehind_of_cleared {p : DispatchProviderRequestParams} {env : Env}
    {under : List Uuid} {state : DispatchState} {id : Uuid}
    (h : state.FetchOk s.platform.db p under) (hcleared : state.cleared = some id) :
    s.consentsBehind under state (dispatchStep deps s.platform.db env state).state = under := by
  cases state with
  | revalidateConsent q adapter d intent grant remaining =>
    cases remaining with
    | nil =>
      simp only [dispatchStep, afterRevalidate]
      split <;> exact h.2.2.1.symm
    | cons c rest => cases hcleared
  | revalidatePurpose q adapter d intent grant =>
    simp only [dispatchStep]
    split
    · rfl
    · exact h.2.2.1.symm
  | markDispatched q adapter intent grant =>
    simp only [dispatchStep]
    split
    · rfl
    · exact h.2.2.1.symm
  | submit q adapter intent grant => exact h.2.2.1.symm
  | awaiting q adapter intent grant => exact h.2.2.1.symm
  | markSucceeded intent receipt finding => simp only [dispatchStep]; split <;> rfl
  | record intent plan failure => cases plan <;> · simp only [dispatchStep]; split <;> rfl
  | _ => cases hcleared

/-- **A dispatch that is cleared** was so before, under the same consents, or its one consent has
just been found valid. -/
theorem cleared_step (h : FetchInv s) {d : Nat} {id c : Uuid}
    (hcleared : ((step deps s.platform a).dispatches d).cleared = some id)
    (hc : c ∈ (s.step deps a).under d) :
    ((s.platform.dispatches d).cleared = some id ∧ c ∈ s.under d)
      ∨ ∃ env p adapter decisionId intent grant, a = .dispatch d env
        ∧ s.platform.dispatches d = .revalidateConsent p adapter decisionId intent grant [c]
        ∧ intent.id = id
        ∧ revalidateConsent s.platform.db env.processNow grant c = .ok () := by
  rcases cleared_of_step hcleared with hwas | ⟨env, rfl, hvalid⟩
  · refine Or.inl ⟨hwas, ?_⟩
    by_cases ha : ∃ env, a = .dispatch d env
    · obtain ⟨env, rfl⟩ := ha
      obtain ⟨p, hok⟩ := h.of_cleared hwas
      rwa [fetch_step_under_dispatch, consentsBehind_of_cleared hok hwas] at hc
    · rwa [fetch_step_under fun env henv => ha ⟨env, henv⟩] at hc
  · obtain ⟨p, adapter, decisionId, intent, grant, c', hstate, hid, hok⟩ := hvalid
    -- the grant names the one consent just checked
    obtain ⟨-, hpinned⟩ : IssuedFor p adapter grant
        ∧ ([c'] = [] ∨ [c'] = grant.consentRecordIds) := by
      have hgranted := h.granted d
      rwa [hstate] at hgranted
    have hids : grant.consentRecordIds = [c'] := by
      rcases hpinned with hnil | hids
      · cases hnil
      · exact hids.symm
    rw [fetch_step_under_dispatch, hstate] at hc
    simp only [dispatchStep, hok, FetchSystem.consentsBehind, DispatchState.grant, hids,
      List.mem_singleton] at hc
    subst hc
    exact Or.inr ⟨env, p, adapter, decisionId, intent, grant, rfl, hstate, hid, hok⟩

theorem payloads_step (h : FetchInv s) :
    ∀ i ∈ (step deps s.platform a).db.intents.rows, ¬ i.bare →
      ∀ c ∈ (s.step deps a).payloadUnder i.id,
        ConsentOf (step deps s.platform a).db i.tenantId i.caseId c := by
  intro i' hi' hbare c hc
  have hgrows : Grows s.platform.db (step deps s.platform a).db := step_grows deps s.platform a
  -- the row has the payloads of a row of before, whose case it keeps
  rcases step_payloads deps s.platform a i' hi' with hbare' | ⟨i, hi, hid, hfrom⟩
  · exact absurd hbare' hbare
  obtain ⟨x, hx, hsame⟩ := hgrows.intents i hi
  obtain rfl := (step deps s.platform a).db.intents.eq_of_key_eq hx hi' (hsame.id.trans hid)
  rw [hsame.tenantId, hsame.caseId]
  refine hgrows.consents _ _ c ?_
  rcases fetch_step_payloadUnder deps s a x.id with
    ⟨hother, hunder⟩ | ⟨d, hcleared, hunder⟩
  · rw [hunder, ← hid] at hc
    rcases hfrom with hsamePayload | ⟨hwritten, -⟩
    · refine h.payloads i hi (fun hbarei => hbare ?_) c hc
      exact ⟨hsamePayload.1.trans hbarei.1, hsamePayload.2.trans hbarei.2⟩
    · rw [hid] at hwritten
      exact absurd hwritten hother
  · rw [hunder] at hc
    obtain ⟨p, hok⟩ := h.of_cleared hcleared
    obtain ⟨⟨y, hy, hyid, htenant, hcase⟩, hconsents⟩ := hok.of_cleared hcleared
    obtain rfl := s.platform.db.intents.eq_of_key_eq hy hi (hyid.trans hid.symm)
    rw [htenant, hcase]
    exact hconsents c hc

/-- A list of intents goes on covering a consent, if it names the dispatch that is cleared under
it now. -/
theorem CoversIntents.step {tenantId c : Uuid} {ids : List Uuid}
    (hcovers : CoversIntents s tenantId c ids) (h : FetchInv s)
    (hlast : ∀ d env p adapter decisionId intent grant, a = .dispatch d env →
      s.platform.dispatches d = .revalidateConsent p adapter decisionId intent grant [c] →
      revalidateConsent s.platform.db env.processNow grant c = .ok () → intent.id ∈ ids) :
    CoversIntents (s.step deps a) tenantId c ids where
  stored := by
    rw [fetch_step_platform]
    intro i' hi' hbare hc
    rcases step_payloads deps s.platform a i' hi' with hbare' | ⟨i, hi, hid, hfrom⟩
    · exact absurd hbare' hbare
    rcases fetch_step_payloadUnder deps s a i'.id with
      ⟨hother, hunder⟩ | ⟨d, hcleared, hunder⟩
    · rw [hunder, ← hid] at hc
      rw [← hid] at hother ⊢
      rcases hfrom with hsame | ⟨hwritten, -⟩
      · refine hcovers.stored i hi (fun hbarei => hbare ?_) hc
        exact ⟨hsame.1.trans hbarei.1, hsame.2.trans hbarei.2⟩
      · exact absurd hwritten hother
    · rw [hunder] at hc
      exact hcovers.cleared d i'.id hcleared hc
  cleared := by
    rw [fetch_step_platform]
    intro d id hcleared hc
    rcases cleared_step h hcleared hc with
      ⟨hwas, hc'⟩ | ⟨env, p, adapter, decisionId, intent, grant, ha, hstate, rfl, hok⟩
    · exact hcovers.cleared d id hwas hc'
    · exact hlast d env p adapter decisionId intent grant ha hstate hok
  rows := by
    rw [fetch_step_platform]
    intro id hin
    obtain ⟨i, hi, hid, htenant⟩ := hcovers.rows id hin
    obtain ⟨i', hi', hsame⟩ := (step_grows deps s.platform a).intents i hi
    exact ⟨i', hi', hsame.id.trans hid, hsame.tenantId.trans htenant⟩

theorem copyOf_read {db : Db} {tenantId taskId : Uuid} {task : DataDispositionTask}
    (h : resolveReadTask db tenantId taskId = .ok task) : CopyOf db tenantId task := by
  obtain ⟨hfind, htenant, -⟩ := resolveReadTask_ok h
  obtain ⟨hmem, -⟩ := db.tasks.find_eq_some_iff.mp hfind
  have hself : db.tasks.find task.id = some task := db.tasks.find_eq_some_iff.mpr ⟨hmem, rfl⟩
  exact ⟨task, hself, htenant, rfl, rfl⟩

variable (hrevoke : ∀ env tenantId caseId reason, a ≠ .revokeConsent env tenantId caseId reason)
  (hrecord : ∀ fact, a ≠ .recordEvidence fact)

include hrevoke hrecord

theorem CoversEvidence.step {c : Uuid} {ids : List Uuid} (h : CoversEvidence s c ids) :
    CoversEvidence (s.step deps a) c ids := by
  intro e' he' hc
  rw [fetch_step_platform] at he'
  rw [fetch_step_evidenceUnder] at hc
  obtain ⟨e, he, hkept⟩ := step_evidence hrevoke hrecord he'
  rw [← hkept.id] at hc ⊢
  exact h e he hc

theorem copyOf_step {tenantId : Uuid} {task : DataDispositionTask}
    (h : CopyOf s.platform.db tenantId task) :
    CopyOf (Provider.step deps s.platform a).db tenantId task := by
  obtain ⟨row, hfind, htenant, hevidence, hintents⟩ := h
  obtain ⟨row', hfind', hsame⟩ := @step_tasks_find deps s.platform a hrevoke hrecord _ _ hfind
  exact ⟨row', hfind', hsame.tenantId.trans htenant, hsame.evidence.trans hevidence,
    hsame.intents.trans hintents⟩

theorem copies_step (h : FetchInv s) (w : Nat) :
    ((Provider.step deps s.platform a).resolves w).Copies
      (Provider.step deps s.platform a).db := by
  cases hw : (Provider.step deps s.platform a).resolves w with
  | readHold tenantId task action actorId =>
    rcases readHold_of_step hw with hwas | ⟨⟨taskId, hread⟩, hdb⟩
    · have hcopy := h.copies w
      rw [hwas] at hcopy
      exact copyOf_step hrevoke hrecord hcopy
    · show CopyOf (Provider.step deps s.platform a).db tenantId task
      rw [hdb]
      exact copyOf_read hread
  | finish tenantId task action actorId =>
    have hcopy := h.copies w
    rcases finish_of_step hw with hwas | ⟨hwas, -, -⟩
    · rw [hwas] at hcopy
      exact copyOf_step hrevoke hrecord hcopy
    · rw [hwas] at hcopy
      exact copyOf_step hrevoke hrecord hcopy
  | _ => trivial

theorem ReviewCovers.step {t t' : DataDispositionTask} {c : Uuid} (hcovers : ReviewCovers s t c)
    (h : FetchInv s) (hsame : SameSnapshot t t') : ReviewCovers (s.step deps a) t' c where
  revoked := by
    rw [fetch_step_platform]
    exact hcovers.revoked.step
  evidence := by
    rw [hsame.evidence]
    exact hcovers.evidence.step hrevoke hrecord
  intents := by
    rw [hsame.intents, hsame.tenantId]
    refine hcovers.intents.step h fun d env p adapter decisionId intent grant _ _ hvalid => ?_
    -- a revoked consent is not found valid
    exact absurd hvalid (revalidateConsent_of_revoked hcovers.revoked)

theorem ReviewSettled.step {t t' : DataDispositionTask} {c : Uuid} (hsettled : ReviewSettled s t c)
    (hcovers : ReviewCovers s t c) (hsame : SameSnapshot t t') :
    ReviewSettled (s.step deps a) t' c where
  evidence := by
    intro e' he' hc
    rw [fetch_step_platform] at he'
    rw [fetch_step_evidenceUnder] at hc
    obtain ⟨e, he, hkept⟩ := step_evidence hrevoke hrecord he'
    rw [← hkept.id] at hc
    have hgone : e.value = .obj [] := hsettled.evidence e he hc
    rcases hkept.value with hvalue | hvalue
    · exact hvalue.trans hgone
    · exact hvalue
  intents := by
    intro i' hi' hin
    rw [fetch_step_platform] at hi'
    rw [hsame.intents] at hin
    obtain ⟨i, hi, hid, -⟩ := hcovers.intents.rows i'.id hin
    rw [← hid] at hin
    obtain ⟨hterminal, hbare⟩ := hsettled.intents i hi hin
    exact settled_row_step hi hterminal hbare hi' hid.symm

/-- A resolution that erases leaves its review settled. -/
theorem settled_of_erasedBy (h : FetchInv s) {t t' : DataDispositionTask} {c tenantId : Uuid}
    {w : Nat} {env : Env} {task : DataDispositionTask} {action : DataDispositionResolutionAction}
    {actorId : String} (hcovers : ReviewCovers s t c) (hsame : SameSnapshot t t')
    (hw : s.platform.resolves w = .finish tenantId task action actorId)
    (hfind : s.platform.db.tasks.find task.id = some t)
    (herased : ErasedBy s.platform.db (Provider.step deps s.platform a).db env tenantId task
      actorId) :
    ReviewSettled (s.step deps a) t' c := by
  have hcopy : CopyOf s.platform.db tenantId task := by
    have hcopies := h.copies w
    rwa [hw] at hcopies
  obtain ⟨row, hrow, htenant, hevidence, hintents⟩ := hcopy
  obtain rfl : row = t := Option.some.inj (hrow.symm.trans hfind)
  constructor
  · intro e' he' hc
    have hnamed : e'.id ∈ row.affectedEvidenceFactIds :=
      hcovers.evidence.step hrevoke hrecord e' he' hc
    rw [fetch_step_platform] at he'
    rw [hevidence] at hnamed
    exact herased.evidence e' he' hnamed
  · intro i' hi' hin
    rw [fetch_step_platform] at hi'
    rw [hsame.intents] at hin
    obtain ⟨i, hi, hid, hrowTenant⟩ := hcovers.intents.rows i'.id hin
    refine herased.settled_row hi hi' hid.symm ?_
    rw [hintents] at hin
    simp [DataDispositionTask.affects, hrowTenant, htenant, hid, hin]

theorem RevokeState.Covers.step {state : RevokeState} (hcovers : state.Covers s) (h : FetchInv s)
    (hlast : ∀ d env p adapter decisionId intent grant c, a = .dispatch d env →
      s.platform.dispatches d = .revalidateConsent p adapter decisionId intent grant [c] →
      revalidateConsent s.platform.db env.processNow grant c = .ok () →
      ¬ state.hasMissedIntent c intent.id) :
    state.Covers (s.step deps a) := by
  have hkept {tenantId caseId id : Uuid} (hof : ConsentOf s.platform.db tenantId caseId id) :
      ConsentOf (s.step deps a).platform.db tenantId caseId id := by
    rw [fetch_step_platform]
    exact (step_grows deps s.platform a).consents _ _ _ hof
  cases state with
  | idle => trivial
  | readEvidence active reason => exact hkept hcovers
  | readIntents active reason evidenceFactIds =>
    exact ⟨hkept hcovers.1, hcovers.2.step hrevoke hrecord⟩
  | commit active reason evidenceFactIds providerIntentIds =>
    obtain ⟨hof, hevidence, hintents⟩ := hcovers
    refine ⟨hkept hof, hevidence.step hrevoke hrecord, hintents.step h ?_⟩
    intro d env p adapter decisionId intent grant ha hstate hvalid
    by_contra hmissed
    exact hlast d env p adapter decisionId intent grant active.id ha hstate hvalid
      ⟨rfl, hmissed⟩

/-- **A step of the platform.** -/
theorem FetchInv.step (h : FetchInv s) (hsnapshot : SnapshotComplete s (.platform a)) :
    FetchInv (s.step deps a) where
  granted := by
    rw [fetch_step_platform]
    exact h.granted.step a
  fetches := fetchKnown_step h
  payloads := by
    rw [fetch_step_platform]
    exact payloads_step h
  evidence := by
    rw [fetch_step_platform, fetch_step_evidenceUnder]
    intro e' he' c hc
    obtain ⟨e, he, hkept⟩ := step_evidence hrevoke hrecord he'
    rw [← hkept.id] at hc
    rw [← hkept.tenantId, ← hkept.caseId]
    exact (step_grows deps s.platform a).consents _ _ c (h.evidence e he c hc)
  revokes := by
    rw [fetch_step_revokes]
    intro r
    refine (h.revokes r).step hrevoke hrecord h ?_
    rintro d env p adapter decisionId intent grant c rfl hstate hvalid
    exact hsnapshot p adapter decisionId intent grant c hstate hvalid r
  reviews := by
    rw [fetch_step_platform]
    intro t' ht' c hc
    obtain ⟨t, ht, hsame, -⟩ := step_tasks hrevoke hrecord ht'
    rw [hsame.trigger] at hc
    exact (h.reviews t ht c hc).step hrevoke hrecord h hsame
  settled := by
    rw [fetch_step_platform]
    intro t' ht' herased c hc
    obtain ⟨t, ht, hsame, hby⟩ := step_tasks hrevoke hrecord ht'
    rw [hsame.trigger] at hc
    have hcovers : ReviewCovers s t c := h.reviews t ht c hc
    rcases hby herased with hwas | ⟨w, env, tenantId, task, action, actorId, hw, hfind, herases⟩
    · exact (h.settled t ht hwas c hc).step hrevoke hrecord hcovers hsame
    · exact settled_of_erasedBy hrevoke hrecord h hcovers hsame hw hfind herases
  copies := by
    rw [fetch_step_platform]
    exact copies_step hrevoke hrecord h

end PlatformStep

end MortgageAgent.Provider
