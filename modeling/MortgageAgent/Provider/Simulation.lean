import MortgageAgent.Provider.Protocol

/-!
# The platform refines the protocol

`System.view` forgets everything about a state but the key and the status of each intent, the
role each dispatch plays and the log. **`step_simulates`**: every step of the platform is a move
of the protocol between the views, of the kind that `stepKind` reads off the state and the label
before the step. What the protocol's invariants say about views then holds along every run.
-/

namespace MortgageAgent.Provider

open Runs

/-! ## Views -/

def DispatchState.role : DispatchState → Role
  | .prepareRefresh _ _ _ _ existing => .holding existing.id existing.key
  | .revalidateGrant _ _ _ _ intent => .holding intent.id intent.key
  | .revalidateConsent _ _ _ intent _ _ => .holding intent.id intent.key
  | .revalidatePurpose _ _ _ intent _ => .holding intent.id intent.key
  | .failAuthorization intent _ => .refusing intent.id
  | .markDispatched _ _ intent _ => .holding intent.id intent.key
  | .submit _ _ intent _ => .submitting intent.id intent.key
  | .awaiting _ _ intent _ => .awaiting intent.id
  | .markSucceeded intent _ _ => .succeeding intent.id
  | .record intent (.failedFinal _) _ => .failing intent.id
  | .record intent .outcomeUnknown _ => .unsure intent.id
  | _ => .out

def Db.row (db : Db) (id : Uuid) : Option (OperationKey × ProviderOperationIntentStatus) :=
  (db.intents.find id).map fun i => (i.key, i.state)

def System.view (s : System) : View where
  row := s.db.row
  role := fun d => (s.dispatches d).role
  log := s.log

/-- The intent with this id is dispatched. -/
def Db.isDispatched (db : Db) (id : Uuid) : Bool :=
  (db.intents.find id).any fun i => i.state = .DISPATCHED

/-- The kind of move a step is, read off the state before it. -/
def stepKind (s : System) : Label → MoveKind
  | .dispatch d _ =>
    match s.dispatches d with
    | .failAuthorization intent _ =>
      if s.db.isDispatched intent.id then .refusesDispatched else .ordinary
    | _ => .ordinary
  | .storeFails d =>
    match s.dispatches d with
    -- the receipt was good, and the `catch` block records the store's failure as the provider's.
    | .markSucceeded _ _ _ => .losesSuccess
    | .record intent _ _ => if s.db.isDispatched intent.id then .abandons else .ordinary
    | _ => .ordinary
  | .crash d =>
    match (s.dispatches d).role.owned with
    | some id => if s.db.isDispatched id then .abandons else .ordinary
    | none => .ordinary
  | _ => .ordinary

/-! ## Rows of the view -/

theorem row_eq_some_iff {db : Db} {id : Uuid} {key : OperationKey}
    {status : ProviderOperationIntentStatus} :
    db.row id = some (key, status)
      ↔ ∃ i ∈ db.intents.rows, i.id = id ∧ i.key = key ∧ i.state = status := by
  unfold Db.row
  constructor
  · intro h
    obtain ⟨i, hi, hp⟩ := Option.map_eq_some_iff.mp h
    obtain ⟨hmem, hid⟩ := db.intents.find_eq_some_iff.mp hi
    cases hp
    exact ⟨i, hmem, hid, rfl, rfl⟩
  · rintro ⟨i, hmem, hid, rfl, rfl⟩
    rw [db.intents.find_eq_some_iff.mpr ⟨hmem, hid⟩]
    rfl

theorem row_eq_none_iff {db : Db} {id : Uuid} :
    db.row id = none ↔ ∀ i ∈ db.intents.rows, i.id ≠ id := by
  simp [Db.row, db.intents.find_eq_none_iff]

theorem isDispatched_iff {db : Db} {id : Uuid} :
    db.isDispatched id = true ↔ ∃ key, db.row id = some (key, .DISPATCHED) := by
  unfold Db.isDispatched Db.row
  cases db.intents.find id with
  | none => simp
  | some i => simp

theorem row_congr {db db' : Db} (h : db'.intents = db.intents) : db'.row = db.row := by
  funext id
  simp [Db.row, h]

/-- Replacing an intent by one with its identity sets its status in the view. -/
theorem row_put {db : Db} {i i' : ProviderOperationIntent} (hi : i ∈ db.intents.rows)
    (hsame : SameIdentity i i') :
    ({ db with intents := db.intents.put i' } : Db).row
      = Function.update db.row i.id (some (i.key, i'.state)) := by
  funext id
  rw [Function.update_apply]
  have hput := fun x => db.intents.mem_put (x := x) ⟨i, hi, hsame.id.symm⟩
  split
  · next hid =>
    subst hid
    exact row_eq_some_iff.mpr ⟨i', (hput i').mpr (Or.inl rfl), hsame.id, hsame.key_eq, rfl⟩
  · next hid =>
    cases hrow : db.row id with
    -- another id: the table after `put` has the rows it had there before.
    | none =>
      rw [row_eq_none_iff] at hrow ⊢
      intro x hx
      rcases (hput x).mp hx with rfl | ⟨hx, -⟩
      · exact fun hx => hid (hx.symm.trans hsame.id)
      · exact hrow x hx
    | some p =>
      obtain ⟨x, hx, hxid, hkey, hstate⟩ := row_eq_some_iff.mp hrow
      refine row_eq_some_iff.mpr ⟨x, (hput x).mpr (Or.inr ⟨hx, ?_⟩), hxid, hkey, hstate⟩
      exact fun h => hid (hxid.symm.trans (h.trans hsame.id))

/-- A transition that returns, in the view. -/
theorem transition_row {db db' : Db} {env : Env} {tenantId id : Uuid}
    {source : List ProviderOperationIntentStatus} {state : ProviderOperationIntentStatus}
    {values : PayloadValues}
    (h : transition db env tenantId id source state values = .ok db') :
    ∃ key status, status ∈ source ∧ db.row id = some (key, status)
      ∧ db'.row = Function.update db.row id (some (key, state)) := by
  obtain ⟨i, hi, rfl, -, hsource, rfl⟩ := transition_ok h
  refine ⟨i.key, i.state, hsource, row_eq_some_iff.mpr ⟨i, hi, rfl, rfl, rfl⟩, ?_⟩
  exact row_put hi ⟨rfl, rfl, rfl, rfl, rfl, rfl, rfl, rfl⟩

/-- A transition that throws found no row of this tenant in a source state. -/
theorem transition_error {db : Db} {env : Env} {tenantId id : Uuid}
    {source : List ProviderOperationIntentStatus} {state : ProviderOperationIntentStatus}
    {values : PayloadValues} {e : ProviderFailure}
    (h : transition db env tenantId id source state values = .error e)
    {key : OperationKey} {status : ProviderOperationIntentStatus}
    (hrow : db.row id = some (key, status)) (htenant : key.tenantId = tenantId) :
    status ∉ source := by
  obtain ⟨i, hi, hid, rfl, rfl⟩ := row_eq_some_iff.mp hrow
  -- the row is the tenant's, so the query found it and only its state can have failed.
  have hfind : db.findIntent tenantId id = some i := by
    rw [Db.findIntent, db.intents.find_eq_some_iff.mpr ⟨hi, hid⟩]
    simpa [ProviderOperationIntent.key] using htenant
  simp only [transition, hfind] at h
  split at h
  · cases h
  · next hsource => simpa using hsource

/-- The insert of `prepare`, in the view. -/
theorem row_insert {db : Db} {i : ProviderOperationIntent} {intents : IntentTable}
    (h : db.intents.insert i = some intents) :
    ({ db with intents } : Db).row = Function.update db.row i.id (some (i.key, i.state)) := by
  funext id
  rw [Function.update_apply]
  have hrows := Table.rows_of_insert h
  split
  · next hid =>
    subst hid
    exact row_eq_some_iff.mpr ⟨i, by simp [hrows], rfl, rfl, rfl⟩
  · next hid =>
    cases hrow : db.row id with
    | none =>
      rw [row_eq_none_iff] at hrow ⊢
      intro x hx
      rw [hrows, List.mem_append, List.mem_singleton] at hx
      rcases hx with hx | rfl
      · exact hrow x hx
      · exact fun hx => hid hx.symm
    | some p =>
      obtain ⟨x, hx, hxid, hkey, hstate⟩ := row_eq_some_iff.mp hrow
      exact row_eq_some_iff.mpr ⟨x, by simp [hrows, hx], hxid, hkey, hstate⟩

/-! ## What a dispatch has in hand is stored -/

/-- The intent a process holds is the identity of a row, under the key it dispatches. -/
def Held (db : Db) (intent : ProviderOperationIntent) : Prop :=
  ∃ status, db.row intent.id = some (intent.key, status)

/-- What is known of the locals at each point of a dispatch. -/
def DispatchState.Linked (db : Db) : DispatchState → Prop
  | .prepareRefresh p adapter _ _ existing =>
    Held db existing ∧ existing.key = p.operationKey adapter
  | .revalidateGrant p adapter _ _ intent =>
    Held db intent ∧ intent.key = p.operationKey adapter
  | .revalidateConsent p adapter _ intent _ _ =>
    Held db intent ∧ intent.key = p.operationKey adapter
  | .revalidatePurpose p adapter _ intent _ =>
    Held db intent ∧ intent.key = p.operationKey adapter
  | .markDispatched p adapter intent _ => Held db intent ∧ intent.key = p.operationKey adapter
  | .submit p adapter intent _ => Held db intent ∧ intent.key = p.operationKey adapter
  | .failAuthorization intent _ => Held db intent
  | .awaiting _ _ intent _ => Held db intent
  | .markSucceeded intent _ _ => Held db intent
  | .record intent _ _ => Held db intent
  | _ => True

def System.Linked (s : System) : Prop :=
  ∀ d, (s.dispatches d).Linked s.db

/-- Rows keep their key, so what is held stays held. -/
theorem Held.kept {db db' : Db} {intent : ProviderOperationIntent} (h : Held db intent)
    (heffect : IntentEffect db.intents db'.intents) : Held db' intent := by
  obtain ⟨status, hrow⟩ := h
  -- the status may have moved on; the id and the key are columns that never change.
  obtain ⟨i, hi, hid, hkey, -⟩ := row_eq_some_iff.mp hrow
  obtain ⟨i', hi', hstep⟩ := heffect.kept hi
  exact ⟨i'.state, row_eq_some_iff.mpr
    ⟨i', hi', hstep.same.id.trans hid, hstep.same.key_eq.trans hkey, rfl⟩⟩

theorem DispatchState.Linked.kept {db db' : Db} {state : DispatchState}
    (h : state.Linked db) (heffect : IntentEffect db.intents db'.intents) :
    state.Linked db' := by
  cases state with
  | prepareRefresh p adapter decisionId grantId existing => exact ⟨h.1.kept heffect, h.2⟩
  | revalidateGrant p adapter decisionId grantId intent => exact ⟨h.1.kept heffect, h.2⟩
  | revalidateConsent p adapter decisionId intent grant remaining =>
    exact ⟨h.1.kept heffect, h.2⟩
  | revalidatePurpose p adapter decisionId intent grant => exact ⟨h.1.kept heffect, h.2⟩
  | markDispatched p adapter intent grant => exact ⟨h.1.kept heffect, h.2⟩
  | submit p adapter intent grant => exact ⟨h.1.kept heffect, h.2⟩
  | failAuthorization intent failure => exact Held.kept h heffect
  | awaiting p adapter intent grant => exact Held.kept h heffect
  | markSucceeded intent receipt finding => exact Held.kept h heffect
  | record intent plan failure => exact Held.kept h heffect
  | _ => trivial

theorem toIntentValue_ok {deps : Deps} {entity intent : ProviderOperationIntent}
    (h : toIntentValue deps entity = .ok intent) :
    intent.id = entity.id ∧ intent.key = entity.key ∧ intent.state = entity.state := by
  unfold toIntentValue at h
  cases hr : entity.providerReceipt.mapM fun v =>
      deps.decrypt v (receiptAad entity.tenantId entity.id) with
  | error e => rw [hr] at h; cases h
  | ok receipt =>
    cases hf : entity.normalizedFinding.mapM fun v =>
        deps.decrypt v (findingAad entity.tenantId entity.id) with
    | error e => rw [hr, hf] at h; cases h
    | ok finding => rw [hr, hf] at h; cases h; exact ⟨rfl, rfl, rfl⟩

/-- After `prepare` the dispatch is over, or goes on with the prepared intent. -/
theorem afterPrepare_cases (deps : Deps) (p : DispatchProviderRequestParams)
    (adapter : ProviderAdapter) (decisionId : Option Uuid) (grantId : Uuid)
    (entity : ProviderOperationIntent) :
    (∃ result, afterPrepare deps p adapter decisionId grantId entity = .finished result)
      ∨ ∃ intent, intent.id = entity.id ∧ intent.key = entity.key ∧ entity.state = .PREPARED
        ∧ afterPrepare deps p adapter decisionId grantId entity
          = .revalidateGrant p adapter decisionId grantId intent := by
  unfold afterPrepare
  split
  · exact Or.inl ⟨_, rfl⟩
  · next intent hintent =>
    obtain ⟨hid, hkey, hstate⟩ := toIntentValue_ok hintent
    split
    · split
      · exact Or.inl ⟨_, rfl⟩
      · exact Or.inl ⟨_, rfl⟩
    · split
      · exact Or.inl ⟨_, rfl⟩
      · next hprepared =>
        exact Or.inr ⟨intent, hid, hkey, hstate.symm.trans (not_not.mp hprepared), rfl⟩

theorem afterPrepare_linked {deps : Deps} {p : DispatchProviderRequestParams}
    {adapter : ProviderAdapter} {decisionId : Option Uuid} {grantId : Uuid}
    {entity : ProviderOperationIntent} {db : Db} (hheld : Held db entity)
    (hkey : entity.key = p.operationKey adapter) :
    (afterPrepare deps p adapter decisionId grantId entity).Linked db := by
  rcases afterPrepare_cases deps p adapter decisionId grantId entity with
    ⟨result, h⟩ | ⟨intent, hid, hkey', -, h⟩
  · rw [h]; trivial
  · rw [h]
    refine ⟨?_, hkey'.trans hkey⟩
    rwa [Held, hid, hkey']

theorem afterConsent_linked (db : Db) (p : DispatchProviderRequestParams)
    (adapter : ProviderAdapter) (consentRecordId : Uuid) :
    (afterConsent p adapter consentRecordId).Linked db := by
  unfold afterConsent
  split
  · split
    · trivial
    · split <;> trivial
  · trivial

theorem held_of_mem {db : Db} {i : ProviderOperationIntent} (hi : i ∈ db.intents.rows) :
    Held db i :=
  ⟨i.state, row_eq_some_iff.mpr ⟨i, hi, rfl, rfl, rfl⟩⟩

/-- The row that `prepare` reads has the dispatch's key, and is refreshed if it is `PREPARED`. -/
theorem prepareRead_found {deps : Deps} {db : Db} {input : PrepareIntentInput}
    {existing : ProviderOperationIntent}
    (h : prepareRead deps db input = .ok (.refresh existing)
      ∨ prepareRead deps db input = .ok (.reuse existing)) :
    existing ∈ db.intents.rows ∧ existing.key = input.key
      ∧ (prepareRead deps db input = .ok (.refresh existing) ↔ existing.state = .PREPARED) := by
  unfold prepareRead at h ⊢
  cases hfind : db.findByKey input.key with
  | none => simp [hfind] at h
  | some row =>
    obtain ⟨hmem, hkey⟩ := findByKey_some hfind
    simp only [hfind, prepareReuse] at h ⊢
    -- a mismatching fingerprint throws; what is left splits on `PREPARED`.
    grind

theorem DispatchState.Linked.held {db : Db} {state : DispatchState}
    {intent : ProviderOperationIntent} (h : state.Linked db)
    (hstate : state.revalidates? = some intent) : Held db intent := by
  cases state with
  | revalidateGrant p adapter decisionId grantId intent => cases hstate; exact h.1
  | revalidateConsent p adapter decisionId intent grant remaining => cases hstate; exact h.1
  | revalidatePurpose p adapter decisionId intent grant => cases hstate; exact h.1
  | _ => cases hstate

/-- The state a transaction of the dispatch leads to. -/
theorem dispatchStep_linked {deps : Deps} {db : Db} {env : Env} {state : DispatchState}
    (h : state.Linked db) :
    (dispatchStep deps db env state).state.Linked (dispatchStep deps db env state).db := by
  -- what was held before the transaction is held after it
  have hkept {intent : ProviderOperationIntent} (hheld : Held db intent) :
      Held (dispatchStep deps db env state).db intent :=
    hheld.kept (dispatchStep_effect deps db env state)
  have hcase := dispatchStep_case deps db env state
  generalize dispatchStep deps db env state = move at hcase hkept ⊢
  cases hcase with
  | waits _ _ => exact h
  | consented p adapter record _ => exact afterConsent_linked _ _ _ _
  | readsPrepared _ _ _ _ existing hread =>
    obtain ⟨hmem, hkey, -⟩ := prepareRead_found (Or.inl hread)
    exact ⟨held_of_mem hmem, hkey⟩
  | readsOther _ _ _ _ existing hread =>
    obtain ⟨hmem, hkey, -⟩ := prepareRead_found (Or.inr hread)
    exact afterPrepare_linked (held_of_mem hmem) hkey
  | inserted _ _ _ _ _ intent hinsert =>
    obtain ⟨-, hkey, -, -, -, intents, hrows, rfl⟩ := prepareInsert_ok hinsert
    refine afterPrepare_linked (held_of_mem ?_) hkey
    simp [Table.rows_of_insert hrows]
  | refreshed _ _ _ _ _ => exact afterPrepare_linked (hkept h.1) h.2
  | unauthorized _ intent _ hstate => exact h.held hstate
  | grantValid _ _ _ _ _ _ _ => exact h
  | consentValid _ _ _ _ _ _ _ _ => exact h
  | consentsDone _ _ _ _ _ => exact h
  | consentsDoneNoPurpose _ _ _ _ => exact h
  | purposeStillValid _ _ _ _ _ _ => exact h
  | dispatched _ _ _ _ _ _ => exact ⟨hkept h.1, h.2⟩
  | submitted _ _ _ _ => exact h.1
  | successLost _ _ _ _ _ => exact h
  -- nothing is held, or nothing any more
  | _ => trivial

theorem dispatchReturn_linked {db : Db} {env : Env} {outcome : SubmitOutcome}
    {state : DispatchState} (h : state.Linked db) :
    (dispatchReturn env outcome state).1.Linked db := by
  cases state with
  | awaiting p adapter intent grant =>
    cases outcome with
    | receipt receipt =>
      simp only [dispatchReturn]
      split <;> exact h
    | threw e => exact h
  | _ => exact h

theorem dispatchStoreFails_linked {db : Db} {state : DispatchState} (h : state.Linked db) :
    (dispatchStoreFails state).Linked db := by
  cases state with
  | markSucceeded intent receipt finding => exact h
  | submit p adapter intent grant => exact h
  | awaiting p adapter intent grant => exact h
  | _ => trivial

theorem dispatchStart_linked (deps : Deps) (db : Db) (p : DispatchProviderRequestParams) :
    (dispatchStart deps p).Linked db := by
  unfold dispatchStart
  split
  · trivial
  · split <;> trivial

/-- Setting one dispatch to a linked state keeps the rest. -/
theorem linked_setDispatch {s : System} (h : s.Linked) {db : Db} {log : List Event} {d : Nat}
    {state : DispatchState} (heffect : IntentEffect s.db.intents db.intents)
    (hstate : state.Linked db) : ({ s with db, log }.setDispatch d state).Linked := by
  intro d'
  simp only [System.setDispatch, Function.update_apply]
  split
  · exact hstate
  · exact (h d').kept heffect

/-- The dispatch that a label moves. -/
def Label.ofDispatch : Label → Option Nat
  | .startDispatch d _ => some d
  | .dispatch d _ => some d
  | .submitReturns d _ _ => some d
  | .storeFails d => some d
  | .crash d => some d
  | _ => none

/-- The other labels leave the dispatches and the log alone. -/
theorem step_frame {deps : Deps} {s : System} {a : Label} (h : a.ofDispatch = none) :
    (step deps s a).dispatches = s.dispatches ∧ (step deps s a).log = s.log := by
  -- most of these labels are one transaction that commits or throws.
  have htry (result : Except ProviderFailure Db) :
      (s.tryDb result).dispatches = s.dispatches ∧ (s.tryDb result).log = s.log := by
    cases result <;> exact ⟨rfl, rfl⟩
  cases a with
  | startDispatch d p => cases h
  | dispatch d env => cases h
  | submitReturns d env outcome => cases h
  | storeFails d => cases h
  | crash d => cases h
  | startSweep w now staleAfterMs =>
    simp only [step]
    split <;> exact ⟨rfl, rfl⟩
  | sweep w env =>
    simp only [step, System.sweep]
    split
    · exact ⟨rfl, rfl⟩
    · exact htry _
  | startResolve w tenantId taskId action actorId =>
    simp only [step]
    split
    · split <;> exact ⟨rfl, rfl⟩
    · exact ⟨rfl, rfl⟩
  | resolve w env =>
    simp only [step, System.resolve]
    split
    · split <;> exact ⟨rfl, rfl⟩
    · split <;> exact ⟨rfl, rfl⟩
    · exact ⟨rfl, rfl⟩
  | resolveManually env tenantId id outcome resolvedBy resolutionNote => exact htry _
  | grantConsent record => exact htry _
  | revokeConsent env tenantId caseId reason => exact htry _
  | placeHold hold => exact htry _
  | releaseHold env tenantId legalHoldId releasedBy => exact htry _
  | _ => exact ⟨rfl, rfl⟩

theorem System.Linked.step {deps : Deps} {s : System} (h : s.Linked) (a : Label) :
    (step deps s a).Linked := by
  -- a step of anyone else can only move rows on, which `Linked` survives.
  have hother (ha : a.ofDispatch = none) : (Provider.step deps s a).Linked := by
    intro d
    rw [(step_frame ha).1]
    exact (h d).kept (step_intentEffect deps s a)
  cases a with
  | startDispatch d p =>
    simp only [Provider.step]
    split
    · exact linked_setDispatch h (.same rfl) (dispatchStart_linked deps s.db p)
    · exact h
  | dispatch d env =>
    exact linked_setDispatch h (dispatchStep_effect deps s.db env _) (dispatchStep_linked (h d))
  | submitReturns d env outcome =>
    exact linked_setDispatch h (.same rfl) (dispatchReturn_linked (h d))
  | storeFails d => exact linked_setDispatch h (.same rfl) (dispatchStoreFails_linked (h d))
  | crash d => exact linked_setDispatch h (.same rfl) trivial
  | _ => exact hother rfl

/-! ## Moves of a dispatch -/

theorem View.act_same {v : View} {d : Nat} {r : Role} (h : v.role d = r) : v.act d r [] = v := by
  subst h
  simp [View.act]

/-- A dispatch that leaves every row as it was, seen from outside. -/
theorem view_acts {s : System} {db : Db} (hrow : db.row = s.db.row) (d : Nat)
    (state : DispatchState) (events : List Event) :
    ({ s with db, log := s.log ++ events }.setDispatch d state).view
      = s.view.act d state.role events := by
  simp only [System.view, View.act, System.setDispatch, View.mk.injEq, hrow, true_and, and_true]
  funext d'
  simp only [Function.update_apply]
  split <;> rfl

/-- A dispatch that sets the status of one row. -/
theorem view_sets {s : System} {db : Db} {id : Uuid} {key : OperationKey}
    {status : ProviderOperationIntentStatus}
    (hrow : db.row = Function.update s.db.row id (some (key, status))) (d : Nat)
    (state : DispatchState) (events : List Event) :
    ({ s with db, log := s.log ++ events }.setDispatch d state).view
      = (s.view.set id key status).act d state.role events := by
  simp only [System.view, View.act, View.set, System.setDispatch, View.mk.injEq, hrow, true_and,
    and_true]
  funext d'
  simp only [Function.update_apply]
  split <;> rfl

/-- A dispatch that owns nothing ends. -/
theorem leaves {s : System} {db : Db} (hrow : db.row = s.db.row) {d : Nat}
    {state : DispatchState} (hd : (s.dispatches d).role.owned = none) (hstate : state.role = .out) :
    Move .ordinary s.view ({ s with db, log := s.log ++ [] }.setDispatch d state).view := by
  rw [view_acts hrow, hstate]
  exact .leave d hd

/-- A dispatch goes on in the same role. -/
theorem goesOn {s : System} {db : Db} (hrow : db.row = s.db.row) {d : Nat}
    {state : DispatchState} (hd : state.role = (s.dispatches d).role) :
    Move .ordinary s.view ({ s with db, log := s.log ++ [] }.setDispatch d state).view := by
  rw [view_acts hrow, View.act_same hd.symm]
  exact .stay

/-- A dispatch that holds an operation finds that it may not submit it. -/
theorem refuses {s : System} {d : Nat} {intent : ProviderOperationIntent}
    {failure : ProviderFailure} (hd : (s.dispatches d).role = .holding intent.id intent.key) :
    Move .ordinary s.view
      ({ s with db := s.db, log := s.log ++ [] }.setDispatch d
        (.failAuthorization intent failure)).view := by
  rw [view_acts rfl]
  exact .refuse d intent.id intent.key hd

/-- The row of a held intent, when a transition on it threw. -/
theorem held_of_error {db : Db} {env : Env} {intent : ProviderOperationIntent}
    {source : List ProviderOperationIntentStatus} {state : ProviderOperationIntentStatus}
    {values : PayloadValues} {e : ProviderFailure} (hheld : Held db intent)
    (h : transition db env intent.tenantId intent.id source state values = .error e)
    {key : OperationKey} {status : ProviderOperationIntentStatus} (hstatus : status ∈ source) :
    db.row intent.id ≠ some (key, status) := by
  intro hrow
  obtain ⟨status', hrow'⟩ := hheld
  rw [hrow'] at hrow
  cases hrow
  exact transition_error h hrow' rfl hstatus

theorem isDispatched_of_row {db : Db} {id : Uuid} {key : OperationKey}
    {status : ProviderOperationIntentStatus} (hrow : db.row id = some (key, status)) :
    db.isDispatched id = decide (status = .DISPATCHED) := by
  rw [Bool.eq_iff_iff, isDispatched_iff, decide_eq_true_iff]
  constructor
  · rintro ⟨key', hrow'⟩
    rw [hrow] at hrow'
    cases hrow'
    rfl
  · rintro rfl
    exact ⟨key, hrow⟩

/-- The refresh writes a grant, which the view does not see. -/
theorem row_prepareRefresh (db : Db) (env : Env) (existing : ProviderOperationIntent)
    (grantId : Uuid) : (prepareRefresh db env existing grantId).row = db.row := by
  obtain ⟨t, ht, hsame | ⟨i, i', hi, hstate, hstep, hput⟩⟩ :=
    prepareRefresh_effect db env existing grantId
  · exact row_congr (by rw [ht, hsame])
  · rw [ht, hput, row_put hi hstep.same, hstate]
    exact Function.update_eq_self_iff.mpr (row_eq_some_iff.mpr ⟨i, hi, rfl, rfl, rfl⟩).symm

theorem afterConsent_role (p : DispatchProviderRequestParams) (adapter : ProviderAdapter)
    (consentRecordId : Uuid) : (afterConsent p adapter consentRecordId).role = .out := by
  unfold afterConsent
  split
  · split
    · rfl
    · split <;> rfl
  · rfl

/-- A dispatch that can end at once owns nothing. -/
theorem refusable_role {state : DispatchState} (h : state.refusable = true) :
    state.role.owned = none := by
  unfold DispatchState.refusable at h
  split at h
  case h_10 => cases h
  all_goals rfl

theorem revalidates_role {state : DispatchState} {intent : ProviderOperationIntent}
    (h : state.revalidates? = some intent) :
    state.role = .holding intent.id intent.key := by
  unfold DispatchState.revalidates? at h
  split at h
  case h_4 => cases h
  all_goals
    cases h
    rfl

theorem stepKind_dispatch {s : System} {d : Nat} {env : Env}
    (h : ∀ intent failure, s.dispatches d ≠ .failAuthorization intent failure) :
    stepKind s (.dispatch d env) = .ordinary := by
  cases hd : s.dispatches d with
  | failAuthorization intent failure => exact absurd hd (h intent failure)
  | _ => simp only [stepKind, hd]

/-- **One transaction of a dispatch is a move.** -/
theorem dispatch_simulates (deps : Deps) {s : System} (hlinked : s.Linked) (d : Nat)
    (env : Env) :
    Move (stepKind s (.dispatch d env)) s.view (step deps s (.dispatch d env)).view := by
  have hown := hlinked d
  have hcase := dispatchStep_case deps s.db env (s.dispatches d)
  simp only [step]
  generalize dispatchStep deps s.db env (s.dispatches d) = move at hcase ⊢
  generalize hd : s.dispatches d = state at hcase hown
  cases hcase with
  | waits _ hwaits =>
    have hother : ∀ intent failure, s.dispatches d ≠ .failAuthorization intent failure := by
      intro intent failure hfail
      rw [← hd, hfail] at hwaits
      cases hwaits
    rw [stepKind_dispatch hother]
    exact goesOn rfl (by rw [hd])
  | refused _ e hrefusable =>
    have hother : ∀ intent failure, s.dispatches d ≠ .failAuthorization intent failure := by
      intro intent failure hfail
      rw [← hd, hfail] at hrefusable
      cases hrefusable
    rw [stepKind_dispatch hother]
    exact leaves rfl (by rw [hd]; exact refusable_role hrefusable) rfl
  | unauthorized _ intent failure hstate =>
    have hother : ∀ intent failure, s.dispatches d ≠ .failAuthorization intent failure := by
      intro intent failure hfail
      rw [← hd, hfail] at hstate
      cases hstate
    rw [stepKind_dispatch hother]
    exact refuses (by rw [hd]; exact revalidates_role hstate)
  -- before an intent is held the moves are inside the role `out`
  | switchedOn p adapter _ _ =>
    simp only [stepKind, hd]
    exact leaves rfl (by rw [hd]; rfl) rfl
  | simulated p adapter _ _ =>
    simp only [stepKind, hd]
    exact leaves rfl (by rw [hd]; rfl) rfl
  | activated p adapter _ =>
    simp only [stepKind, hd]
    exact leaves rfl (by rw [hd]; rfl) rfl
  | consented p adapter record _ =>
    simp only [stepKind, hd]
    exact leaves rfl (by rw [hd]; rfl) (afterConsent_role p adapter record.id)
  | purposeIssued p adapter consentRecordId db' decisionId hissue =>
    simp only [stepKind, hd]
    exact leaves (row_congr (issueSynthetic_intents hissue)) (by rw [hd]; rfl) rfl
  | purposeValid p adapter consentRecordId decisionId _ =>
    simp only [stepKind, hd]
    exact leaves rfl (by rw [hd]; rfl) rfl
  | grantIssued p adapter consentRecordId decisionId db' grant hissue =>
    simp only [stepKind, hd]
    exact leaves (row_congr (issueGrant_intents hissue)) (by rw [hd]; rfl) rfl
  | readsNoIntent p adapter decisionId grantId _ =>
    simp only [stepKind, hd]
    exact leaves rfl (by rw [hd]; rfl) rfl
  | readsPrepared p adapter decisionId grantId existing hread =>
    obtain ⟨hmem, -, hstate⟩ := prepareRead_found (Or.inl hread)
    simp only [stepKind, hd]
    rw [view_acts rfl]
    exact .attach d existing.id existing.key (congrArg DispatchState.role hd)
      (row_eq_some_iff.mpr ⟨existing, hmem, rfl, rfl, hstate.mp hread⟩)
  | readsOther p adapter decisionId grantId existing hread =>
    simp only [stepKind, hd]
    -- a row that was read in any other state ends the dispatch
    obtain ⟨-, -, hstate⟩ := prepareRead_found (Or.inr hread)
    have hne : existing.state ≠ .PREPARED := by
      intro hprepared
      rw [hstate.mpr hprepared] at hread
      cases hread
    rcases afterPrepare_cases deps p adapter decisionId grantId existing with
      ⟨result, h⟩ | ⟨intent, -, -, hprepared, -⟩
    · exact leaves rfl (by rw [hd]; rfl) (by rw [h]; rfl)
    · exact absurd hprepared hne
  -- the unique index on the key lets one insert through, and its process holds the row.
  | inserted p adapter decisionId grantId db' intent hinsert =>
    obtain ⟨hstate, -, -, -, hfree, intents, hrows, rfl⟩ := prepareInsert_ok hinsert
    simp only [stepKind, hd]
    rw [view_sets (row_insert hrows), hstate]
    refine .insert d intent.id intent.key _ (congrArg DispatchState.role hd) ?_ ?_ ?_
    · exact row_eq_none_iff.mpr (Table.key_fresh_of_insert hrows)
    · intro id' status hrow
      obtain ⟨x, hx, -, hkey, -⟩ := row_eq_some_iff.mp hrow
      exact hfree x hx hkey
    · rcases afterPrepare_cases deps p adapter decisionId grantId intent with
        ⟨result, h⟩ | ⟨intent', hid, hkey, -, h⟩
      · exact Or.inl (by rw [h]; rfl)
      · exact Or.inr (by rw [h, ← hid, ← hkey]; rfl)
  | refreshed p adapter decisionId grantId existing =>
    simp only [stepKind, hd]
    rcases afterPrepare_cases deps p adapter decisionId grantId
        (existing.withGrant grantId existing.updatedAt) with ⟨result, h⟩ | ⟨intent, hid, hkey, -, h⟩
    · exact leaves (row_prepareRefresh s.db env existing grantId) (by rw [hd]; rfl)
        (by rw [h]; rfl)
    · refine goesOn (row_prepareRefresh s.db env existing grantId) ?_
      rw [h, hd]
      simp only [DispatchState.role, hid, hkey]
      rfl
  -- a held intent stays held through the checks
  | grantValid p adapter decisionId grantId intent grant _ =>
    simp only [stepKind, hd]
    exact goesOn rfl (by rw [hd]; rfl)
  | consentValid p adapter decisionId intent grant consentRecordId remaining _ =>
    simp only [stepKind, hd]
    exact goesOn rfl (by rw [hd]; rfl)
  | consentsDone p adapter decisionId intent grant =>
    simp only [stepKind, hd]
    exact goesOn rfl (by rw [hd]; rfl)
  | consentsDoneNoPurpose p adapter intent grant =>
    simp only [stepKind, hd]
    exact goesOn rfl (by rw [hd]; rfl)
  | purposeStillValid p adapter decisionId intent grant _ =>
    simp only [stepKind, hd]
    exact goesOn rfl (by rw [hd]; rfl)
  | authorizationStuck intent failure e hmark =>
    -- the row has left `PREPARED` and `DISPATCHED`
    have hnot : s.db.isDispatched intent.id = false := by
      rw [Bool.eq_false_iff, ne_eq, isDispatched_iff]
      rintro ⟨key, hrow⟩
      exact held_of_error hown hmark (by simp) hrow
    simp only [stepKind, hd, hnot]
    exact leaves rfl (by rw [hd]; rfl) rfl
  | authorizationFailed intent failure db' hmark =>
    obtain ⟨key, status, hsource, hrow, hrow'⟩ := transition_row hmark
    simp only [stepKind, hd]
    rw [view_sets hrow', isDispatched_of_row hrow]
    simp only [decide_eq_true_eq]
    exact .refuseRow d intent.id key status (congrArg DispatchState.role hd) hrow
      (by simpa using hsource)
  -- the compare-and-swap: it returns only to the process that found `PREPARED`.
  | dispatched p adapter intent grant db' hmark =>
    obtain ⟨key, status, hsource, hrow, hrow'⟩ := transition_row hmark
    obtain ⟨⟨status', hheld⟩, -⟩ := hown
    obtain ⟨rfl, rfl⟩ : intent.key = key ∧ status' = status := by
      simpa using hheld.symm.trans hrow
    obtain rfl : status' = .PREPARED := by simpa using hsource
    simp only [stepKind, hd]
    rw [view_sets hrow']
    exact .dispatched d intent.id intent.key (congrArg DispatchState.role hd) hrow
  | submitted p adapter intent grant =>
    simp only [stepKind, hd]
    rw [view_acts rfl, ← hown.2]
    exact .submit d intent.id intent.key (congrArg DispatchState.role hd)
  -- a success that finds the row moved on throws, and the `catch` block tries to fail it.
  | successLost intent receipt finding e hmark =>
    simp only [stepKind, hd]
    rw [view_acts rfl]
    exact .succeedRaced d intent.id (congrArg DispatchState.role hd)
      fun key => held_of_error hown hmark (by simp)
  | succeeded intent receipt finding db' hmark =>
    obtain ⟨key, status, hsource, hrow, hrow'⟩ := transition_row hmark
    obtain rfl : status = .DISPATCHED := by simpa using hsource
    simp only [stepKind, hd]
    rw [view_sets hrow']
    exact .succeed d intent.id key (congrArg DispatchState.role hd) hrow
  | failureStuck intent receipt failure e hmark =>
    simp only [stepKind, hd]
    rw [view_acts rfl]
    exact .leaveOwned d intent.id (by simp [System.view, hd, DispatchState.role, Role.owned])
      fun key => held_of_error hown hmark (by simp)
  | failed intent receipt failure db' hmark =>
    obtain ⟨key, status, hsource, hrow, hrow'⟩ := transition_row hmark
    simp only [stepKind, hd]
    rw [view_sets hrow']
    exact .fail d intent.id key status (congrArg DispatchState.role hd) hrow
      (by simpa using hsource)
  | lossStuck intent failure e hmark =>
    simp only [stepKind, hd]
    rw [view_acts rfl]
    exact .leaveOwned d intent.id (by simp [System.view, hd, DispatchState.role, Role.owned])
      fun key => held_of_error hown hmark (by simp)
  | lost intent failure db' hmark =>
    obtain ⟨key, status, hsource, hrow, hrow'⟩ := transition_row hmark
    obtain rfl : status = .DISPATCHED := by simpa using hsource
    simp only [stepKind, hd]
    rw [view_sets hrow']
    exact .lose d intent.id key (congrArg DispatchState.role hd) hrow

/-- The return of `submit` is a move. -/
theorem submitReturns_simulates (deps : Deps) (s : System) (d : Nat) (env : Env)
    (outcome : SubmitOutcome) :
    Move .ordinary s.view (step deps s (.submitReturns d env outcome)).view := by
  cases hd : s.dispatches d with
  | awaiting p adapter intent grant =>
    have hrole : s.view.role d = .awaiting intent.id := congrArg DispatchState.role hd
    simp only [step, hd, dispatchReturn]
    cases outcome with
    | receipt receipt =>
      cases haccept : acceptReceipt adapter p receipt env.processNow with
      | ok finding =>
        simp only [haccept]
        rw [view_acts rfl]
        exact .returned d intent.id _ _ hrole .accepted
      | error e =>
        simp only [haccept]
        rw [view_acts rfl]
        -- a receipt is there, so whatever was thrown is final
        cases e with
        | syntheticRejection message => exact .returned d intent.id _ _ hrole .refused
        | other message => exact .returned d intent.id _ _ hrole .refused
    | threw e =>
      simp only
      rw [view_acts rfl]
      cases e with
      | syntheticRejection message => exact .returned d intent.id _ _ hrole .rejected
      | other message => exact .returned d intent.id _ _ hrole .failed
  | _ => simpa [step, hd, dispatchReturn] using goesOn rfl (by rw [hd])

/-- The owner of an operation stops. -/
theorem abandons {s : System} {d : Nat} {id : Uuid} {state : DispatchState}
    (hd : (s.dispatches d).role.owned = some id) (hstate : state.role = .out) :
    Move (if s.db.isDispatched id then .abandons else .ordinary) s.view
      (s.setDispatch d state).view := by
  have hview : (s.setDispatch d state).view = s.view.act d .out [] := by
    simpa [hstate] using view_acts (s := s) rfl d state []
  rw [hview]
  split
  · exact .abandon d id hd
  · next hnot =>
    -- someone else already moved the row out of `DISPATCHED`: nothing is lost.
    refine .leaveOwned d id hd fun key hrow => hnot ?_
    exact isDispatched_iff.mpr ⟨key, hrow⟩

theorem storeFails_simulates (deps : Deps) (s : System) (d : Nat) :
    Move (stepKind s (.storeFails d)) s.view (step deps s (.storeFails d)).view := by
  -- a transaction before `markDispatched` ends the dispatch
  have hleave {state : DispatchState} (hd : (s.dispatches d).role.owned = none)
      (hstate : state.role = .out) : Move .ordinary s.view (s.setDispatch d state).view := by
    simpa using leaves (s := s) rfl hd hstate
  have hstay {state : DispatchState} (hd : state.role = (s.dispatches d).role) :
      Move .ordinary s.view (s.setDispatch d state).view := by
    simpa using goesOn (s := s) rfl hd
  cases hd : s.dispatches d with
  | markSucceeded intent receipt finding =>
    simp only [stepKind, step, hd, dispatchStoreFails]
    have hview := view_acts (s := s) rfl d
      (.record intent (.failedFinal (some receipt)) .storeUnavailable) []
    rw [List.append_nil] at hview
    rw [hview]
    exact .losesSuccess d intent.id (congrArg DispatchState.role hd)
  | record intent plan failure =>
    simp only [stepKind, step, hd, dispatchStoreFails]
    exact abandons (by rw [hd]; cases plan <;> rfl) rfl
  | submit p adapter intent grant =>
    simp only [stepKind, step, hd, dispatchStoreFails]
    exact hstay (by rw [hd])
  | awaiting p adapter intent grant =>
    simp only [stepKind, step, hd, dispatchStoreFails]
    exact hstay (by rw [hd])
  | _ =>
    simp only [stepKind, step, hd, dispatchStoreFails]
    exact hleave (by rw [hd]; rfl) rfl

theorem crash_simulates (deps : Deps) (s : System) (d : Nat) :
    Move (stepKind s (.crash d)) s.view (step deps s (.crash d)).view := by
  simp only [stepKind, step]
  cases hd : (s.dispatches d).role.owned with
  | none => simpa using leaves (s := s) rfl hd rfl
  | some id => exact abandons hd rfl

/-! ## Moves of everyone else -/

/-- The rows stay or move along edges that are not the dispatches' own. -/
def MovedOutside (db db' : Db) : Prop :=
  ∀ id, db'.row id = db.row id ∨ ∃ key a b, db.row id = some (key, a)
    ∧ db'.row id = some (key, b) ∧ OutsideEdge a b

theorem MovedOutside.refl (db : Db) : MovedOutside db db :=
  fun _ => Or.inl rfl

theorem MovedOutside.of_intents {db db' : Db} (h : db'.intents = db.intents) :
    MovedOutside db db' :=
  fun id => Or.inl (congrFun (row_congr h) id)

/-- A step that leaves the dispatches and the log alone. -/
theorem outside_simulates {s s' : System} (hd : s'.dispatches = s.dispatches)
    (hlog : s'.log = s.log) (h : MovedOutside s.db s'.db) : Move .ordinary s.view s'.view := by
  have hview : s'.view = { s.view with row := s'.db.row } := by
    simp [System.view, hd, hlog]
  rw [hview]
  exact .outside s'.db.row h

/-- One row moves along an edge. -/
theorem outside_update {db : Db} {id : Uuid} {key : OperationKey}
    {a b : ProviderOperationIntentStatus} (hrow : db.row id = some (key, a))
    (hedge : OutsideEdge a b) {db' : Db}
    (hrow' : db'.row = Function.update db.row id (some (key, b))) : MovedOutside db db' := by
  intro id'
  rw [hrow', Function.update_apply]
  split
  · next hid =>
    subst hid
    exact Or.inr ⟨key, a, b, hrow, rfl, hedge⟩
  · exact Or.inl rfl

/-- The disposition cancels `PREPARED` rows and moves no other. -/
theorem dispose_outside {db db' : Db} {env : Env} {tenantId : Uuid}
    {task : DataDispositionTask} {actorId : String}
    (h : db'.intents = disposeIntents db env tenantId task actorId) : MovedOutside db db' := by
  intro id
  cases hrow : db.row id with
  | none =>
    refine Or.inl (row_eq_none_iff.mpr fun x hx => ?_)
    rw [h, disposeIntents, Table.mapRows_rows] at hx
    obtain ⟨y, hy, rfl⟩ := List.mem_map.mp hx
    have hid : (if task.affects tenantId y then y.disposed env actorId else y).id = y.id := by
      split <;> simp
    rw [hid]
    exact row_eq_none_iff.mp hrow y hy
  | some p =>
    obtain ⟨key, status⟩ := p
    obtain ⟨i, hi, rfl, rfl, rfl⟩ := row_eq_some_iff.mp hrow
    have hmem : (if task.affects tenantId i then i.disposed env actorId else i)
        ∈ db'.intents.rows := by
      rw [h, disposeIntents, Table.mapRows_rows]
      exact List.mem_map_of_mem hi
    split at hmem
    · have hsame := (disposed_step i env actorId).same
      -- cancelling is the one edge; scrubbing changes payloads only.
      by_cases hprepared : i.state = .PREPARED
      · refine Or.inr ⟨i.key, .PREPARED, .CANCELLED, by rw [hprepared], ?_, .withdraw, nofun,
          nofun⟩
        refine row_eq_some_iff.mpr ⟨_, hmem, hsame.id, hsame.key_eq, ?_⟩
        simp [ProviderOperationIntent.disposed, hprepared]
      · refine Or.inl (row_eq_some_iff.mpr ⟨_, hmem, hsame.id, hsame.key_eq, ?_⟩)
        simp [ProviderOperationIntent.disposed, hprepared]
    · exact Or.inl (row_eq_some_iff.mpr ⟨i, hmem, rfl, rfl, rfl⟩)

theorem markReconciling_outside {db db' : Db} {env : Env} {tenantId id : Uuid}
    (h : markReconciling db env tenantId id = .ok db') : MovedOutside db db' := by
  obtain ⟨key, status, hsource, hrow, hrow'⟩ := transition_row h
  obtain rfl : status = .OUTCOME_UNKNOWN := by simpa using hsource
  exact outside_update hrow ⟨.flag, nofun, nofun⟩ hrow'

theorem resolveManually_outside {db db' : Db} {env : Env} {tenantId id : Uuid}
    {outcome : ManualOutcome} {resolvedBy resolutionNote : String}
    (h : resolveManually db env tenantId id outcome resolvedBy resolutionNote = .ok db') :
    MovedOutside db db' := by
  obtain ⟨i, hi, hstate, i', hsame, hstate', -, rfl⟩ := resolveManually_ok h
  refine outside_update (row_eq_some_iff.mpr ⟨i, hi, rfl, rfl, rfl⟩) ?_ (row_put hi hsame)
  rw [hstate']
  rcases hstate with hstate | hstate <;> rw [hstate]
  · exact ⟨.settleUnknown outcome, nofun, by cases outcome <;> nofun⟩
  · exact ⟨.settleReconciling outcome, nofun, by cases outcome <;> nofun⟩

/-- What the labels that move no dispatch do to the rows. -/
theorem step_outside (deps : Deps) (s : System) (a : Label) (ha : a.ofDispatch = none) :
    MovedOutside s.db (step deps s a).db := by
  have hwrites := step_writes deps s a
  generalize (step deps s a).db = db' at hwrites ⊢
  cases hwrites with
  | nothing => exact .refl s.db
  | dispatch d env => cases ha
  | sweep h => exact markReconciling_outside h
  | resolveManually h => exact resolveManually_outside h
  | resolve h =>
    rcases resolveFinish_intents h with hsame | hdispose
    · exact .of_intents hsame
    · exact dispose_outside hdispose
  | grantConsent h => exact .of_intents (grantForCase_intents h)
  | revokeConsent h => exact .of_intents (revokeConsent_intents h)
  | placeHold h => exact .of_intents (placeHold_intents h)
  | releaseHold h => exact .of_intents (releaseHold_intents h)
  -- the others write another table
  | _ => exact .of_intents rfl

/-! ## The simulation -/

/-- **The platform refines the protocol.** -/
theorem step_simulates (deps : Deps) {s : System} (hlinked : s.Linked) (a : Label) :
    Move (stepKind s a) s.view (step deps s a).view := by
  have hother (ha : a.ofDispatch = none) : Move .ordinary s.view (step deps s a).view :=
    outside_simulates (step_frame ha).1 (step_frame ha).2 (step_outside deps s a ha)
  cases a with
  | startDispatch d p =>
    simp only [stepKind, step]
    split
    · next hd =>
      have hrole : (dispatchStart deps p).role = .out := by
        unfold dispatchStart
        split
        · rfl
        · split <;> rfl
      simpa using leaves (s := s) rfl (by rw [hd]; rfl) hrole
    · exact .stay
  | dispatch d env => exact dispatch_simulates deps hlinked d env
  | submitReturns d env outcome => exact submitReturns_simulates deps s d env outcome
  | storeFails d => exact storeFails_simulates deps s d
  | crash d => exact crash_simulates deps s d
  | _ => exact hother rfl

theorem linked_init (db : Db) : (System.init db).Linked :=
  fun _ => trivial

end MortgageAgent.Provider
