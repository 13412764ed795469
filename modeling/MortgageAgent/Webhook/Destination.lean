import MortgageAgent.Webhook.Sequential

/-!
# Where a delivery goes

A delivery row names its endpoint and nothing of it: an attempt takes the target and the secret
from the endpoint as it finds it then. The secret of a row is never written again. The target is,
by an `update` or by a save of an entity that was loaded before one, and the deliveries that are
under way at that time go to the new target.

* **`System.PostsToOrigin`** — every request goes to the target and is signed with the secret that
  its endpoint had when the row was created.
* **`KeepsTarget`** — a save that changes a target finds no delivery of the endpoint unfinished.
* **`editStep_rows`**, **`reserve_rows`** — what a statement leaves of an endpoint row.
* **`DestinationInv`** — an unfinished delivery has its origin's target and secret in its endpoint.
* **`posts_to_origin`** — over every run whose saves keep the targets.

`update_redirects_delivery` has an `update` between two attempts of one delivery.
-/

namespace MortgageAgent.Webhook

open Runs

/-- Each delivery has one origin, and every request of it goes there, signed with the secret of
its origin. -/
structure System.PostsToOrigin (deps : Deps) (s : System) : Prop where
  once : (s.origins.map Origin.deliveryId).Nodup
  posted : ∀ p ∈ s.posts, ∃ o ∈ s.origins, o.deliveryId = p.deliveryId ∧ p.targetUrl = o.targetUrl
    ∧ p.signature = signWebhookDelivery deps p.deliveryId p.timestampIso p.rawBody o.secret

/-! ## Saves -/

def EditState.loaded? : EditState → Option WebhookEndpoint
  | .savingUpdate _ loaded | .savingDisable loaded => some loaded
  | _ => none

/-- The entity the next statement of a call saves. -/
def EditState.saved? : EditState → Option WebhookEndpoint
  | .savingUpdate dto loaded => some (dto.apply loaded)
  | .savingDisable loaded => some loaded.disabled
  | _ => none

/-- A delivery of the endpoint is pending, or an execution has one in hand. -/
def System.HasUnfinished (s : System) (endpointId : Uuid) : Bool :=
  (s.db.deliveries.rows.any fun d => d.webhookEndpointId = endpointId && d.status = .PENDING)
    || (List.range s.started).any fun e =>
      (s.dispatches e).held.any fun d => d.webhookEndpointId = endpointId

/-- A save leaves the target of the row as it is, or finds no delivery of the endpoint
unfinished. -/
def KeepsTarget (s : System) : Label → Bool
  | .endpoint (.edit c _) =>
    (s.endpoints.edits c).saved?.all fun saved =>
      ((s.endpoints.endpoints.find saved.id).all fun row => row.targetUrl = saved.targetUrl)
        || !s.HasUnfinished saved.id
  | _ => true

/-- The row has the secret of the entity. -/
def Remembers (endpoints : Endpoints) (loaded : WebhookEndpoint) : Prop :=
  ∃ row, endpoints.find loaded.id = some row ∧ row.secret = loaded.secret

/-- The row stays, with its secret. -/
def SameSecret (before after : Endpoints) (id : Uuid) : Prop :=
  ∀ row, before.find id = some row → ∃ row', after.find id = some row' ∧ row'.secret = row.secret

/-- The row stays, with its target and its secret. -/
def SameTarget (before after : Endpoints) (id : Uuid) : Prop :=
  ∀ row, before.find id = some row →
    ∃ row', after.find id = some row' ∧ row'.targetUrl = row.targetUrl ∧ row'.secret = row.secret

theorem SameTarget.sameSecret {before after : Endpoints} {id : Uuid}
    (h : SameTarget before after id) : SameSecret before after id := by
  intro row hrow
  obtain ⟨row', hrow', -, hsecret⟩ := h row hrow
  exact ⟨row', hrow', hsecret⟩

theorem SameTarget.refl (endpoints : Endpoints) (id : Uuid) : SameTarget endpoints endpoints id :=
  fun row hrow => ⟨row, hrow, rfl, rfl⟩

theorem Remembers.later {before after : Endpoints} {loaded : WebhookEndpoint}
    (h : Remembers before loaded) (hkept : SameSecret before after loaded.id) :
    Remembers after loaded := by
  obtain ⟨row, hrow, hsecret⟩ := h
  obtain ⟨row', hrow', hsecret'⟩ := hkept row hrow
  exact ⟨row', hrow', hsecret'.trans hsecret⟩

/-- A reservation writes neither. -/
theorem reserve_rows (endpoints : Endpoints) (tenantId endpointId : Uuid) (now : Instant)
    (id : Uuid) :
    SameTarget endpoints (reserveOutboundAttempt endpoints tenantId endpointId now).1 id := by
  unfold reserveOutboundAttempt
  cases hfind : findEndpoint endpoints tenantId endpointId with
  | none => exact .refl endpoints id
  | some e =>
    have hfound := (Option.filter_eq_some_iff.mp hfind).1
    obtain ⟨hmem, -⟩ := endpoints.find_eq_some_iff.mp hfound
    dsimp only
    split
    · intro row hrow
      rw [Table.find_put]
      split
      · next hid =>
        have hsame : endpoints.find id = some e :=
          endpoints.find_eq_some_iff.mpr ⟨hmem, hid.symm⟩
        rw [hsame] at hrow
        cases hrow
        rw [hsame]
        exact ⟨e.counted (windowStart now), rfl, rfl, rfl⟩
      · exact ⟨row, hrow, rfl, rfl⟩
    · exact .refl endpoints id

/-- A save of a remembered entity: it leaves every secret, and every target but the one it
changes. -/
theorem put_rows {endpoints : Endpoints} {loaded : WebhookEndpoint} (saved : WebhookEndpoint)
    (hloaded : Remembers endpoints loaded) (hid : saved.id = loaded.id)
    (hsecret : saved.secret = loaded.secret) {id : Uuid} {row : WebhookEndpoint}
    (hrow : endpoints.find id = some row) :
    ∃ row', (endpoints.put saved).find id = some row' ∧ row'.secret = row.secret
      ∧ (row'.targetUrl = row.targetUrl ∨ (id = saved.id ∧ row.targetUrl ≠ saved.targetUrl)) := by
  rw [Table.find_put]
  split
  · next heq =>
    obtain ⟨known, hknown, hsame⟩ := hloaded
    rw [← hid, ← heq, hrow] at hknown
    cases hknown
    rw [hrow]
    refine ⟨saved, rfl, hsecret.trans hsame.symm, ?_⟩
    by_cases htarget : row.targetUrl = saved.targetUrl
    · exact Or.inl htarget.symm
    · exact Or.inr ⟨heq, htarget⟩
  · exact ⟨row, hrow, rfl, Or.inl rfl⟩

/-- **What a statement of a call leaves of a row**: its secret, and its target unless it saves
another one. -/
theorem editStep_rows {endpoints : Endpoints} (env : EditEnv) {state : EditState}
    (hloaded : ∀ loaded, state.loaded? = some loaded → Remembers endpoints loaded) {id : Uuid}
    {row : WebhookEndpoint} (hrow : endpoints.find id = some row) :
    ∃ row', (editStep endpoints env state).1.find id = some row' ∧ row'.secret = row.secret
      ∧ (row'.targetUrl = row.targetUrl
        ∨ ∃ saved, state.saved? = some saved ∧ id = saved.id ∧ row.targetUrl ≠ saved.targetUrl) := by
  have hsame : ∃ row', endpoints.find id = some row' ∧ row'.secret = row.secret
      ∧ (row'.targetUrl = row.targetUrl
        ∨ ∃ saved, state.saved? = some saved ∧ id = saved.id ∧ row.targetUrl ≠ saved.targetUrl) :=
    ⟨row, hrow, rfl, Or.inl rfl⟩
  cases state with
  | idle => exact hsame
  | finished result => exact hsame
  | loading call =>
    cases call with
    | create tenantId dto =>
      simp only [editStep]
      split
      · exact hsame
      · next endpoints' hinsert =>
        -- the new row has an id that no row had.
        obtain ⟨hmem, hid⟩ := endpoints.find_eq_some_iff.mp hrow
        have hne : id ≠ (newEndpoint env tenantId dto).id := by
          rintro rfl
          exact Table.key_fresh_of_insert hinsert row hmem hid
        refine ⟨row, ?_, rfl, Or.inl rfl⟩
        rw [Table.find_insert hinsert, if_neg hne]
        exact hrow
    | update tenantId id' dto =>
      simp only [editStep]
      split <;> exact hsame
    | disable tenantId id' =>
      simp only [editStep]
      split <;> exact hsame
  | savingUpdate dto loaded =>
    obtain ⟨row', hrow', hsecret, htarget⟩ :=
      put_rows (dto.apply loaded) (hloaded loaded rfl) rfl rfl hrow
    exact ⟨row', hrow', hsecret, htarget.imp_right fun h => ⟨_, rfl, h⟩⟩
  | savingDisable loaded =>
    obtain ⟨row', hrow', hsecret, htarget⟩ :=
      put_rows loaded.disabled (hloaded loaded rfl) rfl rfl hrow
    exact ⟨row', hrow', hsecret, htarget.imp_right fun h => ⟨_, rfl, h⟩⟩

/-- What a call loads is a row. -/
theorem remembers_loaded {endpoints : Endpoints} {env : EditEnv} {state : EditState}
    {loaded : WebhookEndpoint} (h : (editStep endpoints env state).2.loaded? = some loaded) :
    endpoints.find loaded.id = some loaded ∧ (editStep endpoints env state).1 = endpoints := by
  have hfound : ∀ {tenantId id : Uuid} {e : WebhookEndpoint},
      findEndpoint endpoints tenantId id = some e → endpoints.find e.id = some e := by
    intro tenantId id e hfind
    have hrow := (Option.filter_eq_some_iff.mp hfind).1
    have hid := (endpoints.find_eq_some_iff.mp hrow).2
    rw [hid]
    exact hrow
  cases state with
  | idle => cases h
  | finished result => cases h
  | savingUpdate dto loaded => cases h
  | savingDisable loaded => cases h
  | loading call =>
    cases call with
    | create tenantId dto =>
      simp only [editStep] at h
      split at h <;> cases h
    | update tenantId id dto =>
      simp only [editStep] at h ⊢
      split at h
      · cases h
      · next e hfind =>
        cases h
        exact ⟨hfound hfind, rfl⟩
    | disable tenantId id =>
      simp only [editStep] at h ⊢
      split at h
      · cases h
      · next e hfind =>
        cases h
        exact ⟨hfound hfind, rfl⟩

/-! ## Deliveries and their origins -/

/-- The delivery was created for the target and the secret that its endpoint has. -/
def Destined (origins : List Origin) (endpoints : Endpoints) (d : WebhookDelivery) : Prop :=
  ∃ o ∈ origins, o.deliveryId = d.id ∧ ∃ row, endpoints.find d.webhookEndpointId = some row
    ∧ row.targetUrl = o.targetUrl ∧ row.secret = o.secret

theorem Destined.later {origins origins' : List Origin} {before after : Endpoints}
    {d : WebhookDelivery} (h : Destined origins before d) (horigins : origins ⊆ origins')
    (hkept : SameTarget before after d.webhookEndpointId) : Destined origins' after d := by
  obtain ⟨o, ho, hid, row, hrow, htarget, hsecret⟩ := h
  obtain ⟨row', hrow', htarget', hsecret'⟩ := hkept row hrow
  exact ⟨o, horigins ho, hid, row', hrow', htarget'.trans htarget, hsecret'.trans hsecret⟩

theorem Destined.congr {origins : List Origin} {endpoints : Endpoints} {d d' : WebhookDelivery}
    (h : Destined origins endpoints d) (hid : d'.id = d.id)
    (hendpoint : d'.webhookEndpointId = d.webhookEndpointId) : Destined origins endpoints d' := by
  unfold Destined
  rw [hid, hendpoint]
  exact h

/-- The delivery has its row, for the same endpoint. -/
def DispatchDb.HasRow (db : DispatchDb) (d : WebhookDelivery) : Prop :=
  ∃ d' ∈ db.deliveries.rows, d'.id = d.id ∧ d'.webhookEndpointId = d.webhookEndpointId

theorem DbEffect.hasRow {db db' : DispatchDb} {state : DispatchState} (h : DbEffect db state db')
    {d : WebhookDelivery} (hrow : db.HasRow d) : db'.HasRow d := by
  obtain ⟨row, hmem, hid, hendpoint⟩ := hrow
  obtain ⟨row', hmem', hid', hendpoint'⟩ := h.endpointKept hmem
  exact ⟨row', hmem', hid'.trans hid, hendpoint'.trans hendpoint⟩

/-- A row keeps its endpoint. -/
theorem DbEffect.endpoint_eq {db db' : DispatchDb} {state : DispatchState}
    (h : DbEffect db state db') {d d' : WebhookDelivery} (hd : d ∈ db.deliveries.rows)
    (hd' : d' ∈ db'.deliveries.rows) (hid : d'.id = d.id) :
    d'.webhookEndpointId = d.webhookEndpointId := by
  obtain ⟨row, hrow, hrowId, hendpoint⟩ := h.endpointKept hd
  have hsame : d' = row := db'.deliveries.eq_of_key_eq hd' hrow (hid.trans hrowId.symm)
  rw [hsame]
  exact hendpoint

/-- The endpoints of a fan-out are in the table. -/
def CreatesKnown (endpoints : Endpoints) : DispatchState → Prop
  | .fanningOut _ _ _ _ remaining created =>
    (∀ endpoint ∈ remaining, (endpoints.find endpoint.id).isSome)
      ∧ ∀ d ∈ created, (endpoints.find d.webhookEndpointId).isSome
  | _ => True

theorem CreatesKnown.later {before after : Endpoints} {state : DispatchState}
    (h : CreatesKnown before state) (hkept : ∀ id, SameSecret before after id) :
    CreatesKnown after state := by
  have hknown : ∀ id, (before.find id).isSome → (after.find id).isSome := by
    intro id hsome
    obtain ⟨row, hrow⟩ := Option.isSome_iff_exists.mp hsome
    obtain ⟨row', hrow', -⟩ := hkept id row hrow
    rw [hrow']
    rfl
  cases state with
  | fanningOut tick event rest found remaining created =>
    exact ⟨fun endpoint hmem => hknown _ (h.1 endpoint hmem), fun d hd => hknown _ (h.2 d hd)⟩
  | _ => trivial

theorem createsKnown_next {db : DispatchDb} {endpoints : Endpoints} (env : DispatchEnv)
    {state : DispatchState} (h : CreatesKnown endpoints state) :
    CreatesKnown endpoints (dispatchStep db endpoints env state).2.2 := by
  cases hnext : (dispatchStep db endpoints env state).2.2 with
  | fanningOut tick event rest found remaining created =>
    rcases fanningOut_next hnext with ⟨rfl, rfl⟩ | ⟨endpoint, before, rfl, rfl⟩
    · refine ⟨fun endpoint hmem => ?_, nofun⟩
      have hrow : endpoint ∈ endpoints.rows := (List.mem_filter.mp hmem).1
      rw [endpoints.find_eq_some_iff.mpr ⟨hrow, rfl⟩]
      rfl
    · refine ⟨fun x hx => h.1 x (List.mem_cons_of_mem _ hx), fun d hd => ?_⟩
      rcases mem_fanOutTo hd with hold | ⟨rfl, -⟩
      · exact h.2 d hold
      · exact h.1 endpoint List.mem_cons_self
  | _ => trivial

/-- The delivery an execution is about to attempt, and the endpoint it has loaded for it. -/
def DispatchState.attempting? : DispatchState → Option (WebhookDelivery × WebhookEndpoint)
  | .reserving _ delivery _ endpoint | .findingEvent _ delivery _ endpoint
  | .posting _ delivery _ endpoint _ => some (delivery, endpoint)
  | _ => none

theorem attempting_nextEvent (tick : Tick) (events : List OutboxEvent) :
    (nextEvent tick events).attempting? = none := by
  cases events <;> rfl

theorem attempting_nextDelivery (tick : Tick) (due : List WebhookDelivery) :
    (nextDelivery tick due).attempting? = none := by
  cases due <;> rfl

/-- **An attempt goes to the endpoint its execution loaded for it.** -/
theorem attempting_next {db : DispatchDb} {endpoints : Endpoints} {env : DispatchEnv}
    {state : DispatchState} {d : WebhookDelivery} {endpoint : WebhookEndpoint}
    (h : (dispatchStep db endpoints env state).2.2.attempting? = some (d, endpoint)) :
    state.attempting? = some (d, endpoint)
      ∨ d ∈ state.held ∧ endpoints.find d.webhookEndpointId = some endpoint := by
  cases state with
  | findingEndpoint tick delivery rest =>
    simp only [dispatchStep, findByIdOrFail] at h
    cases hfind : findEndpoint endpoints delivery.tenantId delivery.webhookEndpointId with
    | none =>
      rw [hfind] at h
      cases h
    | some e =>
      rw [hfind] at h
      cases h
      exact Or.inr ⟨List.mem_cons_self, (Option.filter_eq_some_iff.mp hfind).1⟩
  | reserving tick delivery rest endpoint' =>
    simp only [dispatchStep] at h
    split at h
    · exact Or.inl h
    · cases h
  | findingEvent tick delivery rest endpoint' =>
    simp only [dispatchStep] at h
    split at h
    · cases h
    · exact Or.inl h
  | fanningOut tick event rest found remaining created =>
    cases remaining with
    | cons endpoint' remaining => cases h
    | nil =>
      simp only [dispatchStep] at h
      split at h <;> cases h
  | scanningEvents now =>
    rw [dispatchStep, attempting_nextEvent] at h
    cases h
  | publishing tick event rest found =>
    rw [dispatchStep, attempting_nextEvent] at h
    cases h
  | scanningDue tick =>
    rw [dispatchStep, attempting_nextDelivery] at h
    cases h
  | deferring tick delivery rest =>
    rw [dispatchStep, attempting_nextDelivery] at h
    cases h
  | writing tick delivery rest attempt =>
    rw [dispatchStep, attempting_nextDelivery] at h
    cases h
  | findingEndpoints tick event rest => cases h
  | posting tick delivery rest endpoint' event => cases h
  | idle => cases h
  | finished result => cases h

/-- Only a reservation writes an endpoint, and neither its target nor its secret. -/
theorem dispatchStep_rows (db : DispatchDb) (endpoints : Endpoints) (env : DispatchEnv)
    (state : DispatchState) (id : Uuid) :
    SameTarget endpoints (dispatchStep db endpoints env state).2.1 id := by
  cases state with
  | reserving tick delivery rest endpoint =>
    have hreserved := reserve_rows endpoints delivery.tenantId endpoint.id tick.now id
    simp only [dispatchStep]
    split <;> simpa [*] using hreserved
  | fanningOut tick event rest found remaining created =>
    cases remaining with
    | cons endpoint remaining => exact .refl endpoints id
    | nil =>
      simp only [dispatchStep]
      split <;> exact .refl endpoints id
  | findingEndpoint tick delivery rest =>
    simp only [dispatchStep]
    split <;> exact .refl endpoints id
  | findingEvent tick delivery rest endpoint =>
    simp only [dispatchStep]
    split <;> exact .refl endpoints id
  | _ => exact .refl endpoints id

/-! ## Origins -/

theorem originOf_eq_some {endpoints : Endpoints} {d : WebhookDelivery} {o : Origin}
    (h : originOf endpoints d = some o) : o.deliveryId = d.id ∧ Destined [o] endpoints d := by
  obtain ⟨row, hrow, rfl⟩ := Option.map_eq_some_iff.mp h
  exact ⟨rfl, _, List.mem_singleton_self _, rfl, row, hrow, rfl, rfl⟩

/-- Origins are recorded at the commit of a fan-out, of what it inserts. -/
theorem mem_origins {db : DispatchDb} {endpoints : Endpoints} {state : DispatchState} {o : Origin}
    (h : o ∈ state.origins db endpoints) :
    ∃ tick event rest found created db', state = .fanningOut tick event rest found [] created
      ∧ db.insertDeliveries created = some db'
      ∧ ∃ d ∈ created, originOf endpoints d = some o := by
  cases state with
  | fanningOut tick event rest found remaining created =>
    cases remaining with
    | cons endpoint remaining => cases h
    | nil =>
      rw [DispatchState.origins] at h
      split at h
      · next hsome =>
        obtain ⟨db', hinsert⟩ := Option.isSome_iff_exists.mp hsome
        obtain ⟨d, hd, horigin⟩ := List.mem_filterMap.mp h
        exact ⟨tick, event, rest, found, created, db', rfl, hinsert, d, hd, horigin⟩
      · cases h
  | _ => cases h

/-- Their ids are those of the rows, in order. -/
theorem origins_ids (db : DispatchDb) (endpoints : Endpoints) (state : DispatchState) :
    ∃ created, ((state.origins db endpoints).map Origin.deliveryId).Sublist
        (created.map WebhookDelivery.id)
      ∧ (created = [] ∨ ∃ db', db.insertDeliveries created = some db') := by
  have hsublist : ∀ created : List WebhookDelivery,
      ((created.filterMap (originOf endpoints)).map Origin.deliveryId).Sublist
        (created.map WebhookDelivery.id) := by
    intro created
    induction created with
    | nil => exact List.Sublist.slnil
    | cons d created ih =>
      rw [List.filterMap_cons]
      split
      · exact ih.cons _
      · next o horigin =>
        rw [List.map_cons, List.map_cons, (originOf_eq_some horigin).1]
        exact ih.cons_cons _
  cases state with
  | fanningOut tick event rest found remaining created =>
    cases remaining with
    | cons endpoint remaining => exact ⟨[], List.Sublist.slnil, Or.inl rfl⟩
    | nil =>
      rw [DispatchState.origins]
      split
      · next hsome => exact ⟨created, hsublist created, Or.inr (Option.isSome_iff_exists.mp hsome)⟩
      · exact ⟨[], List.Sublist.slnil, Or.inl rfl⟩
  | _ => exact ⟨[], List.Sublist.slnil, Or.inl rfl⟩

/-! ## The invariant -/

structure DestinationInv (deps : Deps) (s : System) : Prop where
  edits : ∀ c loaded, (s.endpoints.edits c).loaded? = some loaded →
    Remembers s.endpoints.endpoints loaded
  creates : ∀ e, CreatesKnown s.endpoints.endpoints (s.dispatches e)
  pending : ∀ d ∈ s.db.deliveries.rows, d.status = .PENDING →
    Destined s.origins s.endpoints.endpoints d
  held : ∀ e, ∀ d ∈ (s.dispatches e).held,
    Destined s.origins s.endpoints.endpoints d ∧ s.db.HasRow d
  attempting : ∀ e d endpoint, (s.dispatches e).attempting? = some (d, endpoint) →
    ∃ o ∈ s.origins, o.deliveryId = d.id ∧ endpoint.targetUrl = o.targetUrl
      ∧ endpoint.secret = o.secret
  known : ∀ o ∈ s.origins, ∃ d ∈ s.db.deliveries.rows, d.id = o.deliveryId
  started : ∀ e, s.started ≤ e → (s.dispatches e).over = true
  posts : s.PostsToOrigin deps

/-- A statement of the endpoint service keeps the secrets, and the targets but for a save. -/
theorem endpointStep_rows {s : EndpointSystem} (a : EndpointLabel)
    (hedits : ∀ c loaded, (s.edits c).loaded? = some loaded → Remembers s.endpoints loaded)
    {id : Uuid} {row : WebhookEndpoint} (hrow : s.endpoints.find id = some row) :
    ∃ row', (endpointStep s a).endpoints.find id = some row' ∧ row'.secret = row.secret
      ∧ (row'.targetUrl = row.targetUrl ∨ ∃ c env saved, a = .edit c env
        ∧ (s.edits c).saved? = some saved ∧ id = saved.id ∧ row.targetUrl ≠ saved.targetUrl) := by
  cases a with
  | start c call blocked =>
    simp only [endpointStep]
    split <;> exact ⟨row, hrow, rfl, Or.inl rfl⟩
  | editFails c => exact ⟨row, hrow, rfl, Or.inl rfl⟩
  | reserve tenantId endpointId now =>
    obtain ⟨row', hrow', htarget, hsecret⟩ :=
      reserve_rows s.endpoints tenantId endpointId now id row hrow
    exact ⟨row', hrow', hsecret, Or.inl htarget⟩
  | edit c env =>
    obtain ⟨row', hrow', hsecret, htarget⟩ := editStep_rows env (hedits c) hrow
    refine ⟨row', hrow', hsecret, htarget.imp_right ?_⟩
    rintro ⟨saved, h⟩
    exact ⟨c, env, saved, rfl, h⟩

/-- Every entity in hand keeps the secret of its row. -/
theorem edits_endpointStep {s : EndpointSystem} (a : EndpointLabel)
    (hedits : ∀ c loaded, (s.edits c).loaded? = some loaded → Remembers s.endpoints loaded) :
    ∀ c loaded, ((endpointStep s a).edits c).loaded? = some loaded →
      Remembers (endpointStep s a).endpoints loaded := by
  have hlater : ∀ loaded, Remembers s.endpoints loaded →
      Remembers (endpointStep s a).endpoints loaded := by
    intro loaded hremembers
    refine hremembers.later fun row hrow => ?_
    obtain ⟨row', hrow', hsecret, -⟩ := endpointStep_rows a hedits hrow
    exact ⟨row', hrow', hsecret⟩
  -- the other calls keep what they have, and this one's next state is the only new one.
  have hset : ∀ c state, (∀ loaded, state.loaded? = some loaded →
        Remembers (endpointStep s a).endpoints loaded) →
      (endpointStep s a).edits = Function.update s.edits c state →
      ∀ c' loaded, ((endpointStep s a).edits c').loaded? = some loaded →
        Remembers (endpointStep s a).endpoints loaded := by
    intro c state hstate hupdate c' loaded hloaded
    rw [hupdate, Function.update_apply] at hloaded
    split at hloaded
    · exact hstate loaded hloaded
    · exact hlater loaded (hedits c' loaded hloaded)
  cases a with
  | start c call blocked =>
    cases hidle : s.edits c with
    | idle =>
      refine hset c (startEdit call blocked) ?_ (by simp [endpointStep, hidle, EndpointSystem.setEdit])
      intro loaded hloaded
      unfold startEdit at hloaded
      split at hloaded <;> cases hloaded
    | _ =>
      have hsame : endpointStep s (.start c call blocked) = s := by simp only [endpointStep, hidle]
      rw [hsame]
      exact hedits
  | edit c env =>
    refine hset c (editStep s.endpoints env (s.edits c)).2 ?_ rfl
    intro loaded hloaded
    obtain ⟨hrow, hsame⟩ := remembers_loaded hloaded
    have htable : (endpointStep s (.edit c env)).endpoints = s.endpoints := hsame
    rw [htable]
    exact ⟨loaded, hrow, rfl⟩
  | editFails c =>
    refine hset c (.finished (.error .storeUnavailable)) ?_ rfl
    intro loaded hloaded
    cases hloaded
  | reserve tenantId endpointId now =>
    exact fun c loaded hloaded => hlater loaded (hedits c loaded hloaded)

/-- A delivery that an execution has in hand is unfinished. -/
theorem DestinationInv.unfinished_of_held {deps : Deps} {s : System} (h : DestinationInv deps s)
    {e : Nat} {d : WebhookDelivery} (hd : d ∈ (s.dispatches e).held) :
    s.HasUnfinished d.webhookEndpointId = true := by
  have hlt : e < s.started := by
    by_contra hnot
    rw [held_of_over (h.started e (by omega))] at hd
    cases hd
  have hany : ((List.range s.started).any fun e =>
      (s.dispatches e).held.any fun d' => d'.webhookEndpointId = d.webhookEndpointId) = true :=
    List.any_eq_true.mpr ⟨e, List.mem_range.mpr hlt, List.any_eq_true.mpr ⟨d, hd, by simp⟩⟩
  rw [System.HasUnfinished, hany, Bool.or_true]

theorem unfinished_of_pending {s : System} {d : WebhookDelivery} (hd : d ∈ s.db.deliveries.rows)
    (hpending : d.status = .PENDING) : s.HasUnfinished d.webhookEndpointId = true := by
  have hany : (s.db.deliveries.rows.any fun d' =>
      d'.webhookEndpointId = d.webhookEndpointId && d'.status = .PENDING) = true :=
    List.any_eq_true.mpr ⟨d, hd, by simp [hpending]⟩
  rw [System.HasUnfinished, hany, Bool.true_or]

/-- **A statement of the endpoint service** leaves every unfinished delivery its destination. -/
theorem DestinationInv.endpoint {deps : Deps} {s : System} (h : DestinationInv deps s)
    (a : EndpointLabel) (hkeeps : KeepsTarget s (.endpoint a) = true) :
    DestinationInv deps { s with endpoints := endpointStep s.endpoints a } := by
  have hsecret : ∀ id, SameSecret s.endpoints.endpoints (endpointStep s.endpoints a).endpoints id := by
    intro id row hrow
    obtain ⟨row', hrow', hsecret, -⟩ := endpointStep_rows a h.edits hrow
    exact ⟨row', hrow', hsecret⟩
  have htarget : ∀ id, s.HasUnfinished id = true →
      SameTarget s.endpoints.endpoints (endpointStep s.endpoints a).endpoints id := by
    intro id hunfinished row hrow
    obtain ⟨row', hrow', hsecret, hsame | ⟨c, env, saved, rfl, hsaved, rfl, hne⟩⟩ :=
      endpointStep_rows a h.edits hrow
    · exact ⟨row', hrow', hsame, hsecret⟩
    · -- a save of another target, which the unfinished delivery excludes.
      have hall := hkeeps
      rw [KeepsTarget, hsaved, Option.all_some, hrow, Option.all_some, hunfinished] at hall
      exact absurd (by simpa using hall) hne
  refine ⟨edits_endpointStep a h.edits, fun e => (h.creates e).later hsecret, ?_, ?_, h.attempting,
    h.known, h.started, ⟨h.posts.once, h.posts.posted⟩⟩
  · intro d hd hpending
    exact (h.pending d hd hpending).later (List.Subset.refl _)
      (htarget _ (unfinished_of_pending hd hpending))
  · intro e d hd
    obtain ⟨hdestined, hrow⟩ := h.held e d hd
    exact ⟨hdestined.later (List.Subset.refl _) (htarget _ (h.unfinished_of_held hd)), hrow⟩

/-! ## Every run -/

/-- **The rows after a statement** that are pending have their destination. -/
theorem DestinationInv.pending_dispatch {deps : Deps} {s : System} (h : DestinationInv deps s)
    (e : Nat) (env : DispatchEnv) {d : WebhookDelivery}
    (hd : d ∈ (s.dispatch deps e env).db.deliveries.rows) (hpending : d.status = .PENDING) :
    Destined (s.dispatch deps e env).origins (s.dispatch deps e env).endpoints.endpoints d := by
  have heffect := dispatchStep_effect s.db s.endpoints.endpoints env (s.dispatches e)
  have hkept := dispatchStep_rows s.db s.endpoints.endpoints env (s.dispatches e)
  have horigins : s.origins ⊆ (s.dispatch deps e env).origins := List.subset_append_left _ _
  cases heffect.rowOrigin hd with
  | created hstate hmem hfresh =>
    rename_i tick event rest found created
    -- the commit records where the endpoint stands.
    have hcreates := h.creates e
    rw [hstate] at hcreates
    obtain ⟨row, hrow⟩ := Option.isSome_iff_exists.mp (hcreates.2 d hmem)
    have horigin : originOf s.endpoints.endpoints d
        = some { deliveryId := d.id, targetUrl := row.targetUrl, secret := row.secret } := by
      rw [originOf, hrow]
      rfl
    have hcommitted : (s.db.insertDeliveries created).isSome = true := by
      by_contra hnone
      have hfailed : s.db.insertDeliveries created = none := by simpa using hnone
      have hsame : (s.dispatch deps e env).db = s.db := by
        show (dispatchStep s.db s.endpoints.endpoints env (s.dispatches e)).1 = s.db
        rw [hstate]
        simp only [dispatchStep, hfailed]
      rw [hsame] at hd
      exact hfresh d hd rfl
    have hrecorded : (s.dispatches e).origins s.db s.endpoints.endpoints
        = created.filterMap (originOf s.endpoints.endpoints) := by
      rw [hstate, DispatchState.origins, if_pos hcommitted]
    obtain ⟨hid, o, ho, hoid, hdestination⟩ := originOf_eq_some horigin
    rw [List.mem_singleton.mp ho] at hoid hdestination
    have hnow : Destined (s.dispatch deps e env).origins s.endpoints.endpoints d := by
      refine ⟨_, List.mem_append_right _ ?_, hoid, hdestination⟩
      rw [hrecorded]
      exact List.mem_filterMap.mpr ⟨d, hmem, horigin⟩
    exact hnow.later (List.Subset.refl _) (hkept _)
  | @kept d₀ _ hold hid hstatus hattempts hother =>
    have hbefore := (h.pending d₀ hold (hstatus.symm.trans hpending)).later horigins (hkept _)
    exact hbefore.congr hid (heffect.endpoint_eq hold hd hid)
  | @settled tick delivery d₀ rest attempt hstate hold hid =>
    have hmem : delivery ∈ (s.dispatches e).held := by
      rw [hstate]
      exact List.mem_cons_self
    obtain ⟨hdestined, row, hrow, hrowId, hendpoint⟩ := h.held e delivery hmem
    have hsame : d₀ = row := s.db.deliveries.eq_of_key_eq hold hrow (hid.trans hrowId.symm)
    exact (hdestined.later horigins (hkept _)).congr hid (hsame ▸ hendpoint)

/-- **What an execution holds next** has its destination and its row. -/
theorem DestinationInv.held_dispatch {deps : Deps} {s : System} (h : DestinationInv deps s)
    (e : Nat) (env : DispatchEnv) {held : List WebhookDelivery}
    (hnext : HeldNext s.db env (s.dispatches e) held) :
    ∀ d ∈ held, Destined s.origins s.endpoints.endpoints d ∧ s.db.HasRow d := by
  intro d hd
  cases hnext with
  | nothing => cases hd
  | same => exact h.held e d hd
  | tail delivery rest hheld =>
    refine h.held e d ?_
    rw [hheld]
    exact List.mem_cons_of_mem _ hd
  | scanned tick =>
    obtain ⟨hrow, hpending⟩ := mem_dueDeliveries hd
    exact ⟨h.pending d hrow hpending, d, hrow, rfl, rfl⟩

/-- **A request goes where its execution loaded the endpoint**, and that is its origin. -/
theorem DestinationInv.posts_dispatch {deps : Deps} {s : System} (h : DestinationInv deps s)
    (e : Nat) (env : DispatchEnv) : (s.dispatch deps e env).PostsToOrigin deps := by
  refine ⟨?_, ?_⟩
  · obtain ⟨created, hids, hcreated⟩ :=
      origins_ids s.db s.endpoints.endpoints (s.dispatches e)
    show ((s.origins ++ _).map Origin.deliveryId).Nodup
    rw [List.map_append]
    rcases hcreated with rfl | ⟨db', hinsert⟩
    · rw [List.map_nil, List.sublist_nil] at hids
      rw [hids, List.append_nil]
      exact h.posts.once
    · have hnodup := db'.deliveries.nodup
      rw [(insertDeliveries_rows hinsert).2, List.map_append] at hnodup
      refine List.nodup_append.mpr ⟨h.posts.once, (List.nodup_append.mp hnodup).2.1.sublist hids, ?_⟩
      intro old hold new hnew heq
      obtain ⟨o, ho, rfl⟩ := List.mem_map.mp hold
      obtain ⟨d, hd, rfl⟩ := List.mem_map.mp (hids.subset hnew)
      obtain ⟨row, hrow, hid⟩ := h.known o ho
      exact fresh_of_created hinsert hd row hrow (hid.trans heq)
  · intro p hp
    rcases List.mem_append.mp hp with hold | hnew
    · obtain ⟨o, ho, hpost⟩ := h.posts.posted p hold
      exact ⟨o, List.mem_append_left _ ho, hpost⟩
    · obtain ⟨tick, delivery, rest, endpoint, event, hstate, rfl⟩ :=
        post_of_posting (Option.mem_toList.mp hnew)
      have hattempting : (s.dispatches e).attempting? = some (delivery, endpoint) := by
        rw [hstate]
        rfl
      obtain ⟨o, ho, hid, htarget, hsecret⟩ := h.attempting e delivery endpoint hattempting
      refine ⟨o, List.mem_append_left _ ho, hid, htarget, ?_⟩
      rw [← hsecret]
      rfl

theorem DestinationInv.dispatch {deps : Deps} {s : System} (h : DestinationInv deps s) (e : Nat)
    (env : DispatchEnv) : DestinationInv deps (s.dispatch deps e env) := by
  have heffect := dispatchStep_effect s.db s.endpoints.endpoints env (s.dispatches e)
  have hkept := dispatchStep_rows s.db s.endpoints.endpoints env (s.dispatches e)
  have horigins : s.origins ⊆ (s.dispatch deps e env).origins := List.subset_append_left _ _
  refine ⟨?_, ?_, fun d hd => h.pending_dispatch e env hd, ?_, ?_, ?_, ?_, h.posts_dispatch e env⟩
  · intro c loaded hloaded
    exact (h.edits c loaded hloaded).later (hkept loaded.id).sameSecret
  · intro e'
    rw [dispatches_dispatch]
    split
    · exact (createsKnown_next env (h.creates e)).later fun id => (hkept id).sameSecret
    · exact (h.creates e').later fun id => (hkept id).sameSecret
  · intro e' d hd
    have hbefore : Destined s.origins s.endpoints.endpoints d ∧ s.db.HasRow d := by
      rw [dispatches_dispatch] at hd
      split at hd
      · exact h.held_dispatch e env (heldNext s.db s.endpoints.endpoints env _) d hd
      · exact h.held e' d hd
    exact ⟨hbefore.1.later horigins (hkept _), heffect.hasRow hbefore.2⟩
  · intro e' d endpoint hattempting
    have hbefore : ∃ o ∈ s.origins, o.deliveryId = d.id ∧ endpoint.targetUrl = o.targetUrl
        ∧ endpoint.secret = o.secret := by
      rw [dispatches_dispatch] at hattempting
      split at hattempting
      · rcases attempting_next hattempting with hsame | ⟨hmem, hfind⟩
        · exact h.attempting e d endpoint hsame
        · -- the endpoint is loaded in this step, as it stands.
          obtain ⟨⟨o, ho, hid, row, hrow, htarget, hsecret⟩, -⟩ := h.held e d hmem
          rw [hfind] at hrow
          cases hrow
          exact ⟨o, ho, hid, htarget, hsecret⟩
      · exact h.attempting e' d endpoint hattempting
    obtain ⟨o, ho, hdestination⟩ := hbefore
    exact ⟨o, horigins ho, hdestination⟩
  · intro o ho
    rcases List.mem_append.mp ho with hold | hnew
    · obtain ⟨d, hd, hid⟩ := h.known o hold
      obtain ⟨d', hd', hid'⟩ := heffect.idKept hd
      exact ⟨d', hd', hid'.trans hid⟩
    · obtain ⟨tick, event, rest, found, created, db', hstate, hinsert, d, hd, horigin⟩ :=
        mem_origins hnew
      refine ⟨d, ?_, (originOf_eq_some horigin).1.symm⟩
      have hafter : (s.dispatch deps e env).db = db' := by
        show (dispatchStep s.db s.endpoints.endpoints env (s.dispatches e)).1 = db'
        rw [hstate]
        simp only [dispatchStep, hinsert]
      rw [hafter, (insertDeliveries_rows hinsert).2]
      exact List.mem_append_right _ hd
  · exact over_dispatch h.started

/-- An execution that starts or ends has nothing in hand. -/
theorem DestinationInv.setDispatch {deps : Deps} {s : System} (h : DestinationInv deps s) {e : Nat}
    {state : DispatchState} {started : Nat} (hstarted : s.started ≤ started)
    (hover : started ≤ e → state.over = true) (hcreates : CreatesKnown s.endpoints.endpoints state)
    (hheld : state.held = []) (hattempting : state.attempting? = none) :
    DestinationInv deps { s.setDispatch e state with started := started } := by
  have hstates : ∀ e', (s.setDispatch e state).dispatches e'
      = if e' = e then state else s.dispatches e' := fun e' => Function.update_apply ..
  refine ⟨h.edits, ?_, h.pending, ?_, ?_, h.known, ?_, ⟨h.posts.once, h.posts.posted⟩⟩
  · intro e'
    show CreatesKnown _ ((s.setDispatch e state).dispatches e')
    rw [hstates]
    split
    · exact hcreates
    · exact h.creates e'
  · intro e' d hd
    have hd' : d ∈ ((s.setDispatch e state).dispatches e').held := hd
    rw [hstates] at hd'
    split at hd'
    · rw [hheld] at hd'
      cases hd'
    · exact h.held e' d hd'
  · intro e' d endpoint hattempt
    have hattempt' : ((s.setDispatch e state).dispatches e').attempting? = some (d, endpoint) :=
      hattempt
    rw [hstates] at hattempt'
    split at hattempt'
    · rw [hattempting] at hattempt'
      cases hattempt'
    · exact h.attempting e' d endpoint hattempt'
  · intro e' hnot
    have hnot' : started ≤ e' := hnot
    show ((s.setDispatch e state).dispatches e').over = true
    rw [hstates]
    split
    · next he => exact hover (he ▸ hnot')
    · exact h.started e' (by omega)

theorem destinationInv_step (deps : Deps) (s : System) (a : Label) (h : DestinationInv deps s)
    (hkeeps : KeepsTarget s a = true) : DestinationInv deps (step deps s a) := by
  cases a with
  | append event =>
    simp only [step]
    split
    · exact h
    · exact ⟨h.edits, h.creates, h.pending, h.held, h.attempting, h.known, h.started,
        ⟨h.posts.once, h.posts.posted⟩⟩
  | endpoint a => exact h.endpoint a hkeeps
  | start now => exact h.setDispatch (Nat.le_succ _) (fun hle => absurd hle (by omega)) trivial rfl rfl
  | dispatch e env => exact h.dispatch e env
  | stop e => exact h.setDispatch (Nat.le_refl _) (fun _ => rfl) trivial rfl rfl

theorem destinationInv_init (deps : Deps) (endpoints : Endpoints) :
    DestinationInv deps (.init endpoints) where
  edits _ _ hloaded := by cases hloaded
  creates _ := trivial
  pending _ hd := by cases hd
  held _ _ hd := by cases hd
  attempting _ _ _ hattempting := by cases hattempting
  known _ ho := by cases ho
  started _ _ := rfl
  posts := ⟨List.nodup_nil, nofun⟩

/-- **Deliveries go where they were created for.** In every run of any number of executions and
endpoint calls whose saves change a target only while no delivery of the endpoint is unfinished:
every request of a delivery goes to the target, signed with the secret, that its endpoint had when
its row was created. -/
theorem posts_to_origin (deps : Deps) (endpoints : Endpoints) (run : List Label)
    (h : AllSteps (step deps) (fun s a => KeepsTarget s a = true) (.init endpoints) run) :
    (exec (step deps) (.init endpoints) run).PostsToOrigin deps :=
  (exec_inv_of_allSteps (destinationInv_step deps) (destinationInv_init deps endpoints) h).posts

/-! ### A new target -/

/-- A new target, and nothing else. -/
def targetDto : UpdateWebhookEndpointDto where
  targetUrl := some "https://new.example.com/hooks"
  eventTypes := none
  outboundRateLimitPerMinute := none

/-- Call 0 gives the endpoint the new target. -/
def retarget : List Label :=
  [.endpoint (.start 0 (.update 9 1 targetDto) none), .endpoint (.edit 0 editEnv),
    .endpoint (.edit 0 editEnv)]

theorem posts_to_origin_retargeted :
    AllSteps (step sampleDeps) (fun s a => KeepsTarget s a = true) (.init partnerEndpoints)
        (oneTick ++ retarget)
      ∧ (exec (step sampleDeps) (.init partnerEndpoints) (oneTick ++ retarget)).PostsToOrigin
        sampleDeps :=
  ⟨by decide, posts_to_origin sampleDeps partnerEndpoints (oneTick ++ retarget) (by decide)⟩

/-- The first attempt is answered 503; the second comes after the `update`. -/
def retargetedAttempts : List Label :=
  .append caseCreated :: .start 1786795200000 :: dispatches 0 11 20 (.responded 503) ++ retarget
    ++ .start 1786795260000 :: dispatches 1 7 21 (.responded 200)

/-- **An `update` redirects a delivery** that was created before it. -/
theorem update_redirects_delivery :
    ¬ ∀ (deps : Deps) (endpoints : Endpoints) (run : List Label),
      (exec (step deps) (.init endpoints) run).PostsToOrigin deps := by
  intro h
  have hposts := (h sampleDeps partnerEndpoints retargetedAttempts).posted
  have horigins : (exec (step sampleDeps) (.init partnerEndpoints) retargetedAttempts).origins
      = [{ deliveryId := 20, targetUrl := partnerEndpoint.targetUrl, secret := "00ff" }] := by decide
  have hsent : ∃ p ∈ (exec (step sampleDeps) (.init partnerEndpoints) retargetedAttempts).posts,
      p.targetUrl = "https://new.example.com/hooks" := by decide
  obtain ⟨p, hp, htarget⟩ := hsent
  obtain ⟨o, ho, -, hsame, -⟩ := hposts p hp
  rw [horigins, List.mem_singleton] at ho
  rw [ho, htarget] at hsame
  exact absurd hsame (by decide)

end MortgageAgent.Webhook
