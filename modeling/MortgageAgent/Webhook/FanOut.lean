import MortgageAgent.Webhook.Dispatch
import MortgageAgent.Webhook.EndpointRace

/-!
# One delivery for an event and an endpoint

The fan-out looks for a row before it inserts one, and no unique index stands behind it: an
execution that commits between the look and the commit of another one may insert the same pair.

* **`FreshFanOut`** — a fan-out that commits still finds no row for the pairs it inserts.
* **`FanOutInv`** — the pairs are distinct; what a fan-out has looked at has a row, committed or
  about to be; what is published has its rows.
* **`one_delivery_each`** — over every run whose fan-outs are fresh.

`overlapping_fanOut_duplicates` has two executions insert a row each for one event and endpoint.
-/

namespace MortgageAgent.Webhook

open Runs

/-- The number of rows for the event and the endpoint. -/
def System.deliveryCount (s : System) (eventId endpointId : Uuid) : Nat :=
  s.db.deliveries.rows.countP fun d => d.pair = (eventId, endpointId)

/-- At most one row for an event and an endpoint; and a published event has exactly one for every
endpoint that its fan-out found active and subscribed. -/
structure System.OneDeliveryEach (s : System) : Prop where
  atMostOne : ∀ eventId endpointId, s.deliveryCount eventId endpointId ≤ 1
  exactlyOne : ∀ p ∈ s.publications, ∀ endpoint ∈ p.endpoints.rows,
    endpoint.receives p.event.tenantId p.event.eventType →
    s.deliveryCount p.event.id endpoint.id = 1
  fannedOut : ∀ event ∈ s.db.events.rows, event.publishedAt.isSome →
    ∃ p ∈ s.publications, p.event.id = event.id

/-- A fan-out that commits finds no row for the pairs it inserts: none has been committed since
it looked. -/
def FreshFanOut (s : System) : Label → Bool
  | .dispatch e _ =>
    match s.dispatches e with
    | .fanningOut _ _ _ _ [] created =>
      created.all fun d => s.db.deliveries.rows.all fun d' => d'.pair ≠ d.pair
    | _ => true
  | _ => true

/-! ## The invariant -/

def DispatchDb.HasDelivery (db : DispatchDb) (eventId endpointId : Uuid) : Prop :=
  (eventId, endpointId) ∈ db.deliveries.rows.map WebhookDelivery.pair

/-- What an execution knows of the rows of the event it is at. -/
def FanOutHas (db : DispatchDb) : DispatchState → Prop
  | .fanningOut _ event _ found remaining created =>
    (created.map WebhookDelivery.pair).Nodup
      ∧ ∀ endpoint ∈ found, endpoint ∈ remaining ∨ db.HasDelivery event.id endpoint.id
        ∨ (event.id, endpoint.id) ∈ created.map WebhookDelivery.pair
  | .publishing _ event _ found => ∀ endpoint ∈ found, db.HasDelivery event.id endpoint.id
  | _ => True

/-- The endpoints an execution works through are the active and subscribed ones of the table. -/
def FoundIn (table : Endpoints) : DispatchState → Prop
  | .fanningOut _ event _ found _ _ | .publishing _ event _ found =>
    found = findActiveForTenantAndEventType table event.tenantId event.eventType
  | _ => True

structure FanOutInv (s : System) : Prop where
  pairs : (s.db.deliveries.rows.map WebhookDelivery.pair).Nodup
  states : ∀ e, FanOutHas s.db (s.dispatches e)
  found : ∀ e, FoundIn (s.seen e) (s.dispatches e)
  published : ∀ p ∈ s.publications, ∀ endpoint ∈ p.endpoints.rows,
    endpoint.receives p.event.tenantId p.event.eventType →
    s.db.HasDelivery p.event.id endpoint.id
  events : ∀ event ∈ s.db.events.rows, event.publishedAt.isSome →
    ∃ p ∈ s.publications, p.event.id = event.id

theorem FanOutHas.mono {db db' : DispatchDb}
    (h : ∀ eventId endpointId, db.HasDelivery eventId endpointId →
      db'.HasDelivery eventId endpointId) {state : DispatchState} (hhas : FanOutHas db state) :
    FanOutHas db' state := by
  cases state with
  | fanningOut tick event rest found remaining created =>
    refine ⟨hhas.1, fun endpoint hmem => ?_⟩
    rcases hhas.2 endpoint hmem with hremaining | hrow | hcreated
    · exact Or.inl hremaining
    · exact Or.inr (Or.inl (h _ _ hrow))
    · exact Or.inr (Or.inr hcreated)
  | publishing tick event rest found => exact fun endpoint hmem => h _ _ (hhas endpoint hmem)
  | _ => trivial

/-- Updates of a delivery keep its event and its endpoint. -/
theorem DbEffect.pairs {db db' : DispatchDb} {state : DispatchState} (h : DbEffect db state db') :
    ∃ new, db'.deliveries.rows.map WebhookDelivery.pair
        = db.deliveries.rows.map WebhookDelivery.pair ++ new
      ∧ (new = [] ∨ ∃ tick event rest found created,
        state = .fanningOut tick event rest found [] created
          ∧ new = created.map WebhookDelivery.pair) := by
  cases h with
  | same => exact ⟨[], (List.append_nil _).symm, Or.inl rfl⟩
  | created tick event rest found created db' h =>
    refine ⟨created.map WebhookDelivery.pair, ?_, Or.inr ⟨tick, event, rest, found, created, rfl, rfl⟩⟩
    rw [(insertDeliveries_rows h).2, List.map_append]
  | published tick event rest found => exact ⟨[], (List.append_nil _).symm, Or.inl rfl⟩
  | deferred tick delivery rest =>
    refine ⟨[], ?_, Or.inl rfl⟩
    rw [List.append_nil]
    simp only [DispatchDb.defer, Table.mapRows_rows, List.map_map]
    refine List.map_congr_left fun d _ => ?_
    show WebhookDelivery.pair (if _ then _ else d) = _
    split <;> rfl
  | settled tick delivery rest attempt =>
    refine ⟨[], ?_, Or.inl rfl⟩
    rw [List.append_nil]
    simp only [DispatchDb.settle, Table.mapRows_rows, List.map_map]
    refine List.map_congr_left fun d _ => ?_
    show WebhookDelivery.pair (if _ then _ else d) = _
    split <;> rfl

theorem DbEffect.hasDelivery {db db' : DispatchDb} {state : DispatchState}
    (h : DbEffect db state db') {eventId endpointId : Uuid}
    (hrow : db.HasDelivery eventId endpointId) : db'.HasDelivery eventId endpointId := by
  obtain ⟨new, hpairs, -⟩ := h.pairs
  rw [DispatchDb.HasDelivery, hpairs]
  exact List.mem_append_left _ hrow

/-- **A fresh commit keeps the pairs distinct.** -/
theorem FanOutInv.pairs_dispatch {s : System} {e : Nat} {env : DispatchEnv} (h : FanOutInv s)
    (hfresh : FreshFanOut s (.dispatch e env) = true) {db' : DispatchDb}
    (heffect : DbEffect s.db (s.dispatches e) db') :
    (db'.deliveries.rows.map WebhookDelivery.pair).Nodup := by
  obtain ⟨new, hpairs, hnew⟩ := heffect.pairs
  rw [hpairs]
  rcases hnew with rfl | ⟨tick, event, rest, found, created, hstate, rfl⟩
  · rw [List.append_nil]
    exact h.pairs
  · have hhas := h.states e
    rw [hstate] at hhas
    rw [FreshFanOut, hstate] at hfresh
    have hnone : ∀ d ∈ created, ∀ d' ∈ s.db.deliveries.rows, d'.pair ≠ d.pair := by
      simpa using hfresh
    refine List.nodup_append.mpr ⟨h.pairs, hhas.1, ?_⟩
    intro p hp q hq
    obtain ⟨d', hd', rfl⟩ := List.mem_map.mp hp
    obtain ⟨d, hd, rfl⟩ := List.mem_map.mp hq
    exact hnone d hd d' hd'

/-! ## What an execution goes on with -/

theorem fanOutHas_nextEvent (db : DispatchDb) (tick : Tick) (events : List OutboxEvent) :
    FanOutHas db (nextEvent tick events) := by
  cases events <;> trivial

theorem fanOutHas_nextDelivery (db : DispatchDb) (tick : Tick) (due : List WebhookDelivery) :
    FanOutHas db (nextDelivery tick due) := by
  cases due <;> trivial

/-- After a look, the endpoint has a row: committed, or about to be. -/
theorem fanOutHas_fanOutTo {db : DispatchDb} {newId : Uuid} {tick : Tick} {event : OutboxEvent}
    {rest : List OutboxEvent} {found remaining : List WebhookEndpoint} {endpoint : WebhookEndpoint}
    {created : List WebhookDelivery}
    (h : FanOutHas db (.fanningOut tick event rest found (endpoint :: remaining) created)) :
    FanOutHas db (.fanningOut tick event rest found remaining
      (fanOutTo db newId event created endpoint)) := by
  unfold fanOutTo
  split
  · next hany =>
    -- a row is there already.
    obtain ⟨d, hd, hpair⟩ := List.any_eq_true.mp hany
    have hpair' : d.pair = (event.id, endpoint.id) := by simpa using hpair
    refine ⟨h.1, fun x hx => ?_⟩
    rcases h.2 x hx with hremaining | hrow | hcreated
    · rcases List.mem_cons.mp hremaining with rfl | htail
      · right
        rcases List.mem_append.mp hd with hold | hnew
        · exact Or.inl (List.mem_map.mpr ⟨d, hold, hpair'⟩)
        · exact Or.inr (List.mem_map.mpr ⟨d, hnew, hpair'⟩)
      · exact Or.inl htail
    · exact Or.inr (Or.inl hrow)
    · exact Or.inr (Or.inr hcreated)
  · next hnone =>
    have hfresh : ∀ d ∈ created, d.pair ≠ (event.id, endpoint.id) := by
      intro d hd hpair
      exact hnone (List.any_eq_true.mpr ⟨d, List.mem_append_right _ hd, by simpa using hpair⟩)
    refine ⟨?_, fun x hx => ?_⟩
    · rw [List.map_append]
      refine List.nodup_append.mpr ⟨h.1, List.nodup_singleton _, ?_⟩
      intro p hp q hq
      obtain ⟨d, hd, rfl⟩ := List.mem_map.mp hp
      rw [List.mem_singleton.mp hq]
      exact hfresh d hd
    · rcases h.2 x hx with hremaining | hrow | hcreated
      · rcases List.mem_cons.mp hremaining with rfl | htail
        · exact Or.inr (Or.inr (by simp [newDelivery, WebhookDelivery.pair]))
        · exact Or.inl htail
      · exact Or.inr (Or.inl hrow)
      · refine Or.inr (Or.inr ?_)
        rw [List.map_append]
        exact List.mem_append_left _ hcreated

/-- **The next state of an execution knows what it should.** -/
theorem fanOutHas_next {db : DispatchDb} (endpoints : Endpoints) (env : DispatchEnv)
    {state : DispatchState} (h : FanOutHas db state) :
    FanOutHas (dispatchStep db endpoints env state).1 (dispatchStep db endpoints env state).2.2 := by
  cases state with
  | idle => trivial
  | finished result => trivial
  | scanningEvents now => exact fanOutHas_nextEvent _ _ _
  | findingEndpoints tick event rest => exact ⟨List.nodup_nil, fun endpoint hmem => Or.inl hmem⟩
  | fanningOut tick event rest found remaining created =>
    cases remaining with
    | cons endpoint remaining => exact fanOutHas_fanOutTo h
    | nil =>
      simp only [dispatchStep]
      split
      · trivial
      · next db' hinsert =>
        -- nothing remains, so every endpoint had a row before or has one now.
        have hrows := (insertDeliveries_rows hinsert).2
        intro endpoint hmem
        rw [DispatchDb.HasDelivery, hrows, List.map_append]
        rcases h.2 endpoint hmem with hnil | hrow | hcreated
        · cases hnil
        · exact List.mem_append_left _ hrow
        · exact List.mem_append_right _ hcreated
  | publishing tick event rest found => exact fanOutHas_nextEvent _ _ _
  | scanningDue tick => exact fanOutHas_nextDelivery _ _ _
  | findingEndpoint tick delivery rest =>
    simp only [dispatchStep]
    split <;> trivial
  | reserving tick delivery rest endpoint =>
    simp only [dispatchStep]
    split <;> trivial
  | deferring tick delivery rest => exact fanOutHas_nextDelivery _ _ _
  | findingEvent tick delivery rest endpoint =>
    simp only [dispatchStep]
    split <;> trivial
  | posting tick delivery rest endpoint event => trivial
  | writing tick delivery rest attempt => exact fanOutHas_nextDelivery _ _ _

/-- Only the publication marks an event, its own. -/
theorem DbEffect.publishedEvent {db db' : DispatchDb} {state : DispatchState}
    (h : DbEffect db state db') {event : OutboxEvent} (hevent : event ∈ db'.events.rows)
    (hpublished : event.publishedAt.isSome) :
    event ∈ db.events.rows
      ∨ ∃ tick event' rest found, state = .publishing tick event' rest found
        ∧ event'.id = event.id := by
  cases h with
  | same => exact Or.inl hevent
  | created tick event' rest found created db' h => exact Or.inl ((insertDeliveries_rows h).1 ▸ hevent)
  | published tick event' rest found =>
    obtain ⟨old, hold, rfl⟩ := List.mem_map.mp hevent
    split
    · next hid => exact Or.inr ⟨tick, event', rest, found, rfl, hid.symm⟩
    · exact Or.inl hold
  | deferred tick delivery rest => exact Or.inl hevent
  | settled tick delivery rest attempt => exact Or.inl hevent

theorem foundIn_nextEvent (table : Endpoints) (tick : Tick) (events : List OutboxEvent) :
    FoundIn table (nextEvent tick events) := by
  cases events <;> trivial

theorem foundIn_nextDelivery (table : Endpoints) (tick : Tick) (due : List WebhookDelivery) :
    FoundIn table (nextDelivery tick due) := by
  cases due <;> trivial

/-- The list stays the one that was read, from the read to the publication. -/
theorem foundIn_next (db : DispatchDb) (endpoints : Endpoints) {table : Endpoints}
    (env : DispatchEnv) {state : DispatchState} (h : FoundIn table state) :
    FoundIn (if state.readsEndpoints then endpoints else table)
      (dispatchStep db endpoints env state).2.2 := by
  cases state with
  | idle => trivial
  | finished result => trivial
  | scanningEvents now => exact foundIn_nextEvent _ _ _
  | findingEndpoints tick event rest => rfl
  | fanningOut tick event rest found remaining created =>
    cases remaining with
    | cons endpoint remaining => exact h
    | nil =>
      show FoundIn table (dispatchStep db endpoints env _).2.2
      simp only [dispatchStep]
      split
      · trivial
      · exact h
  | publishing tick event rest found => exact foundIn_nextEvent _ _ _
  | scanningDue tick => exact foundIn_nextDelivery _ _ _
  | findingEndpoint tick delivery rest =>
    show FoundIn table (dispatchStep db endpoints env _).2.2
    simp only [dispatchStep]
    split <;> trivial
  | reserving tick delivery rest endpoint =>
    show FoundIn table (dispatchStep db endpoints env _).2.2
    simp only [dispatchStep]
    split <;> trivial
  | deferring tick delivery rest => exact foundIn_nextDelivery _ _ _
  | findingEvent tick delivery rest endpoint =>
    show FoundIn table (dispatchStep db endpoints env _).2.2
    simp only [dispatchStep]
    split <;> trivial
  | posting tick delivery rest endpoint event => trivial
  | writing tick delivery rest attempt => exact foundIn_nextDelivery _ _ _

/-! ## Every run -/

/-- An execution that publishes knows a row for every endpoint that receives the event. -/
theorem FanOutInv.publishing {s : System} {e : Nat} {tick : Tick} {event : OutboxEvent}
    {rest : List OutboxEvent} {found : List WebhookEndpoint} (h : FanOutInv s)
    (hstate : s.dispatches e = .publishing tick event rest found) {endpoint : WebhookEndpoint}
    (hmem : endpoint ∈ (s.seen e).rows) (hreceives : endpoint.receives event.tenantId event.eventType) :
    s.db.HasDelivery event.id endpoint.id := by
  have hhas := h.states e
  have hfound := h.found e
  rw [hstate] at hhas hfound
  have hlist : found = findActiveForTenantAndEventType (s.seen e) event.tenantId event.eventType :=
    hfound
  refine hhas endpoint ?_
  rw [hlist]
  exact List.mem_filter.mpr ⟨hmem, hreceives⟩

theorem FanOutInv.dispatch {deps : Deps} {s : System} {e : Nat} {env : DispatchEnv}
    (h : FanOutInv s) (hfresh : FreshFanOut s (.dispatch e env) = true) :
    FanOutInv (s.dispatch deps e env) := by
  have heffect := dispatchStep_effect s.db s.endpoints.endpoints env (s.dispatches e)
  refine ⟨h.pairs_dispatch hfresh heffect, ?_, ?_, ?_, ?_⟩
  · intro e'
    by_cases he : e' = e
    · subst he
      have hnext := fanOutHas_next s.endpoints.endpoints env (h.states e')
      simpa [System.dispatch] using hnext
    · have hother := (h.states e').mono fun _ _ => heffect.hasDelivery
      simpa [System.dispatch, Function.update_of_ne he] using hother
  · intro e'
    by_cases he : e' = e
    · subst he
      have hnext := foundIn_next s.db s.endpoints.endpoints env (h.found e')
      simp only [System.dispatch, Function.update_self]
      split at hnext <;> simp_all
    · have hother := h.found e'
      simp only [System.dispatch, Function.update_of_ne he]
      split
      · rwa [Function.update_of_ne he]
      · exact hother
  · intro p hp endpoint hmem hreceives
    rcases List.mem_append.mp hp with hold | hnew
    · exact heffect.hasDelivery (h.published p hold endpoint hmem hreceives)
    · -- published by this step, which knew the rows.
      cases hstate : s.dispatches e with
      | publishing tick event rest found =>
        rw [hstate] at hnew
        have hp' : p = { event := event, endpoints := s.seen e } := by
          simpa [DispatchState.published?] using hnew
        subst hp'
        exact heffect.hasDelivery (h.publishing hstate hmem hreceives)
      | _ =>
        rw [hstate] at hnew
        cases hnew
  · intro event hevent hpublished
    rcases heffect.publishedEvent hevent hpublished with hold | ⟨tick, event', rest, found, hstate, hid⟩
    · obtain ⟨p, hp, hpid⟩ := h.events event hold hpublished
      exact ⟨p, List.mem_append_left _ hp, hpid⟩
    · refine ⟨{ event := event', endpoints := s.seen e }, ?_, hid⟩
      refine List.mem_append_right _ ?_
      simp [hstate, DispatchState.published?]

/-- An execution that starts or ends knows nothing. -/
theorem FanOutInv.setDispatch {s : System} {e : Nat} {state : DispatchState} (h : FanOutInv s)
    (hstate : FanOutHas s.db state) (hfound : FoundIn (s.seen e) state) :
    FanOutInv (s.setDispatch e state) := by
  refine ⟨h.pairs, ?_, ?_, h.published, h.events⟩
  · intro e'
    by_cases he : e' = e
    · subst he
      simpa [System.setDispatch] using hstate
    · simpa [System.setDispatch, Function.update_of_ne he] using h.states e'
  · intro e'
    by_cases he : e' = e
    · subst he
      simpa [System.setDispatch] using hfound
    · simpa [System.setDispatch, Function.update_of_ne he] using h.found e'

theorem fanOutInv_step (deps : Deps) (s : System) (a : Label) (h : FanOutInv s)
    (hfresh : FreshFanOut s a = true) : FanOutInv (step deps s a) := by
  cases a with
  | append event =>
    simp only [step]
    split
    · exact h
    · next events hinsert =>
      -- the new event is not published.
      have hrows := Table.rows_of_insert hinsert
      refine ⟨h.pairs, fun e => (h.states e).mono fun _ _ hrow => hrow, h.found, h.published, ?_⟩
      intro x hx hpublished
      have hx' : x ∈ events.rows := hx
      rw [hrows] at hx'
      rcases List.mem_append.mp hx' with hold | hnew
      · exact h.events x hold hpublished
      · rw [List.mem_singleton.mp hnew] at hpublished
        cases hpublished
  | endpoint a => exact ⟨h.pairs, h.states, h.found, h.published, h.events⟩
  | start now =>
    have hstart : FanOutInv (s.setDispatch s.started (.scanningEvents now)) :=
      h.setDispatch trivial trivial
    exact ⟨hstart.pairs, hstart.states, hstart.found, hstart.published, hstart.events⟩
  | dispatch e env => exact h.dispatch hfresh
  | stop e => exact h.setDispatch trivial trivial

theorem fanOutInv_init (endpoints : Endpoints) : FanOutInv (.init endpoints) where
  pairs := List.nodup_nil
  states _ := trivial
  found _ := trivial
  published _ hp := by cases hp
  events _ hevent := by cases hevent

/-- Distinct pairs, counted. -/
theorem FanOutInv.oneDeliveryEach {s : System} (h : FanOutInv s) : s.OneDeliveryEach := by
  have hcount : ∀ eventId endpointId, s.deliveryCount eventId endpointId
      = (s.db.deliveries.rows.map WebhookDelivery.pair).count (eventId, endpointId) := by
    intro eventId endpointId
    rw [List.count, List.countP_map]
    exact List.countP_congr fun d _ => by simp
  refine ⟨?_, ?_, h.events⟩
  · intro eventId endpointId
    rw [hcount]
    exact List.nodup_iff_count_le_one.mp h.pairs _
  · intro p hp endpoint hmem hreceives
    rw [hcount]
    exact List.count_eq_one_of_mem h.pairs (h.published p hp endpoint hmem hreceives)

/-- **One delivery each.** In every run of any number of executions, overlapping or not, whose
fan-outs commit while the pairs they insert still have no row. -/
theorem one_delivery_each (deps : Deps) (endpoints : Endpoints) (run : List Label)
    (h : AllSteps (step deps) (fun s a => FreshFanOut s a = true) (.init endpoints) run) :
    (exec (step deps) (.init endpoints) run).OneDeliveryEach :=
  (exec_inv_of_allSteps (fanOutInv_step deps) (fanOutInv_init endpoints) h).oneDeliveryEach

/-! ### Two ticks at one event -/

def sampleDeps : Deps where
  hmacSha256 := fun _ _ => []

def caseCreated : OutboxEvent where
  id := 5
  tenantId := 9
  eventType := "loan_case.created"
  payload := .obj []
  createdAt := 1786795000000
  publishedAt := none

/-- Row ids from `newId` on, and a receiver that answers `answer`. -/
def dispatchEnv (newId : Uuid) (answer : PostAnswer) : DispatchEnv where
  newId := newId
  scanOrder := id
  answer := answer

/-- Execution `e` runs `n` of its statements. -/
def dispatches (e n : Nat) (newId : Uuid) (answer : PostAnswer) : List Label :=
  List.replicate n (.dispatch e (dispatchEnv newId answer))

/-- One tick: scan, read, look, commit, publish; and the attempt, which is answered 200. -/
def oneTick : List Label :=
  .append caseCreated :: .start 1786795200000 :: dispatches 0 11 20 (.responded 200)

theorem one_delivery_each_oneTick :
    AllSteps (step sampleDeps) (fun s a => FreshFanOut s a = true) (.init partnerEndpoints) oneTick
      ∧ (exec (step sampleDeps) (.init partnerEndpoints) oneTick).OneDeliveryEach :=
  ⟨by decide, one_delivery_each sampleDeps partnerEndpoints oneTick (by decide)⟩

/-- Execution 0 has looked for a row when execution 1 looks, and both commit. -/
def overlappingTicks : List Label :=
  .append caseCreated :: .start 1786795200000 :: dispatches 0 3 20 (.responded 200)
    ++ .start 1786795205000 :: dispatches 1 4 21 (.responded 200)
    ++ dispatches 0 1 20 (.responded 200)

/-- **Two overlapping ticks insert two rows** for one event and endpoint. -/
theorem overlapping_fanOut_duplicates :
    ¬ ∀ (deps : Deps) (endpoints : Endpoints) (run : List Label),
      (exec (step deps) (.init endpoints) run).OneDeliveryEach := by
  intro h
  have hone := (h sampleDeps partnerEndpoints overlappingTicks).atMostOne 5 1
  have htwo : (exec (step sampleDeps) (.init partnerEndpoints) overlappingTicks).deliveryCount 5 1
      = 2 := by decide
  omega

end MortgageAgent.Webhook
