import Mathlib.Data.List.Sort
import MortgageAgent.Lib.Bytes
import MortgageAgent.Lib.JsonParse
import MortgageAgent.Webhook.Endpoint

/-!
# Webhook dispatch

`WebhookDispatchService.dispatchPendingEvents`, which the worker's timer starts without waiting
for the tick before. An execution is cut at its statements: it fans every unpublished event out
to the endpoints that receive it and marks the event published, in a transaction each, and then
attempts the deliveries that a scan found due, one after the other, each from the row as the scan
read it.

* **`DispatchDb`** — the outbox and the deliveries.
* **`backoffMs`**, **`attemptOf`**, **`settle`** — what one attempt makes of a delivery.
* **`DispatchState`** / **`dispatchStep`** — where an execution stands, and its next statement.
* **`DbEffect`** — what one statement writes: five cases.
* **`System`** / **`Label`** / **`step`** — executions, endpoint edits and new events, in any order.
  An execution may end at any point, because a statement failed or because the worker died.

The fan-out reads and inserts in one transaction under READ COMMITTED: it sees what others have
committed and what it inserted itself, and its rows appear when it commits.
-/

namespace MortgageAgent.Webhook

/-- `outbox_events`. -/
structure OutboxEvent where
  id : Uuid
  tenantId : Uuid
  eventType : String
  payload : Json
  createdAt : Instant
  publishedAt : Option Instant

inductive WebhookDeliveryStatus where
  | PENDING
  | SUCCEEDED
  | FAILED_FINAL
  deriving DecidableEq, Repr

inductive AttemptOutcome where
  | SUCCEEDED
  | FAILED
  deriving DecidableEq, Repr

structure WebhookDeliveryAttempt where
  attemptNumber : Nat
  attemptedAt : String
  httpStatusCode : Option Nat
  outcome : AttemptOutcome
  errorMessage : Option String
  deriving DecidableEq, Repr

/-- `webhook_deliveries`. -/
structure WebhookDelivery where
  id : Uuid
  tenantId : Uuid
  webhookEndpointId : Uuid
  outboxEventId : Uuid
  eventType : String
  status : WebhookDeliveryStatus
  attempts : List WebhookDeliveryAttempt
  nextAttemptAt : Option Instant
  deriving DecidableEq, Repr

structure DispatchDb where
  events : Table OutboxEvent OutboxEvent.id
  deliveries : Table WebhookDelivery WebhookDelivery.id

structure Deps where
  /-- HMAC-SHA256 under a secret -/
  hmacSha256 : (secret text : String) → List UInt8

/-! ## Fan-out -/

def eventBatchSize : Nat := 50

/-- `WHERE "publishedAt" IS NULL ORDER BY "createdAt"`. -/
def pendingEvents (db : DispatchDb) : List OutboxEvent :=
  ((db.events.rows.filter fun e => e.publishedAt = none).insertionSort
    fun a b => a.createdAt ≤ b.createdAt).take eventBatchSize

/-- The event and the endpoint a row is for. -/
def WebhookDelivery.pair (d : WebhookDelivery) : Uuid × Uuid :=
  (d.outboxEventId, d.webhookEndpointId)

def newDelivery (newId : Uuid) (event : OutboxEvent) (endpoint : WebhookEndpoint) :
    WebhookDelivery where
  id := newId
  tenantId := event.tenantId
  webhookEndpointId := endpoint.id
  outboxEventId := event.id
  eventType := event.eventType
  status := .PENDING
  attempts := []
  nextAttemptAt := none

/-- `findOneBy` for the event and the endpoint, then `save` if it found nothing: the rows the
transaction has inserted so far, from those `created` before. -/
def fanOutTo (db : DispatchDb) (newId : Uuid) (event : OutboxEvent) (created : List WebhookDelivery)
    (endpoint : WebhookEndpoint) : List WebhookDelivery :=
  if (db.deliveries.rows ++ created).any fun d => d.pair = (event.id, endpoint.id) then created
  else created ++ [newDelivery newId event endpoint]

/-- The commit of the fan-out. -/
def DispatchDb.insertDeliveries (db : DispatchDb) (created : List WebhookDelivery) :
    Option DispatchDb :=
  (created.foldlM Table.insert db.deliveries).map fun deliveries => { db with deliveries }

def DispatchDb.publish (db : DispatchDb) (eventId : Uuid) (now : Instant) : DispatchDb :=
  let events := db.events.mapRows
    (fun e => if e.id = eventId then { e with publishedAt := some now } else e)
    (fun e => by split <;> rfl)
  { db with events }

/-! ## Attempts -/

def deliveryBatchSize : Nat := 50

def maxAttempts : Nat := 5

def backoffMs (attemptNumber : Nat) : Int := min (1000 * 2 ^ attemptNumber) 60000

def WebhookDelivery.due (d : WebhookDelivery) (now : Instant) : Bool :=
  d.status = .PENDING && d.nextAttemptAt.all fun at_ => at_ ≤ now

/-- The due deliveries, in the order in which the scan meets the rows. -/
def dueDeliveries (db : DispatchDb) (scanOrder : Uuid → Nat) (now : Instant) :
    List WebhookDelivery :=
  ((db.deliveries.rows.filter fun d => d.due now).insertionSort
    fun a b => scanOrder a.id ≤ scanOrder b.id).take deliveryBatchSize

/-- The update of a deferred delivery, which is one only while it is pending. -/
def DispatchDb.defer (db : DispatchDb) (deliveryId : Uuid) (nextAttemptAt : Instant) : DispatchDb :=
  let deliveries := db.deliveries.mapRows
    (fun d => if d.id = deliveryId ∧ d.status = .PENDING then
      { d with nextAttemptAt := some nextAttemptAt } else d)
    (fun d => by split <;> rfl)
  { db with deliveries }

/-- What comes of an attempt. -/
inductive PostAnswer where
  /-- the target guard threw, and nothing is sent -/
  | refused (message : String)
  /-- the receiver answered -/
  | responded (httpStatusCode : Nat)
  /-- `fetch` threw: a timeout, a refused connection, a redirect -/
  | failed (message : String)
  deriving DecidableEq, Repr

/-- `response.ok`. -/
def isOk (httpStatusCode : Nat) : Bool := 200 ≤ httpStatusCode && httpStatusCode ≤ 299

def attemptOf (now : Instant) (delivery : WebhookDelivery) (answer : PostAnswer) :
    WebhookDeliveryAttempt where
  attemptNumber := delivery.attempts.length + 1
  attemptedAt := toISOString now
  httpStatusCode :=
    match answer with
    | .responded code => some code
    | .refused _ | .failed _ => none
  outcome :=
    match answer with
    | .responded code => if isOk code then .SUCCEEDED else .FAILED
    | .refused _ | .failed _ => .FAILED
  errorMessage :=
    match answer with
    | .responded code =>
      if isOk code then none else some ("receiver responded HTTP " ++ toString code)
    | .refused message | .failed message => some message

def statusAfter (attempt : WebhookDeliveryAttempt) : WebhookDeliveryStatus :=
  if attempt.outcome = .SUCCEEDED then .SUCCEEDED
  else if maxAttempts ≤ attempt.attemptNumber then .FAILED_FINAL
  else .PENDING

def nextAttemptAfter (now : Instant) (attempt : WebhookDeliveryAttempt) : Option Instant :=
  if attempt.outcome = .SUCCEEDED then none
  else if maxAttempts ≤ attempt.attemptNumber then none
  else some (now + backoffMs attempt.attemptNumber)

/-- The columns an attempt writes, from the delivery as the scan read it. -/
def settle (now : Instant) (scanned : WebhookDelivery) (attempt : WebhookDeliveryAttempt)
    (d : WebhookDelivery) : WebhookDelivery :=
  { d with
    attempts := scanned.attempts ++ [attempt]
    status := statusAfter attempt
    nextAttemptAt := nextAttemptAfter now attempt }

/-- `UPDATE … WHERE id = …`. -/
def DispatchDb.settle (db : DispatchDb) (now : Instant) (scanned : WebhookDelivery)
    (attempt : WebhookDeliveryAttempt) : DispatchDb :=
  let deliveries := db.deliveries.mapRows
    (fun d => if d.id = scanned.id then Webhook.settle now scanned attempt d else d)
    (fun d => by split <;> rfl)
  { db with deliveries }

def signWebhookDelivery (deps : Deps) (deliveryId : Uuid) (timestampIso rawBody secret : String) :
    String :=
  String.ofList (Bytes.hex (deps.hmacSha256 secret
    (toString deliveryId ++ "." ++ timestampIso ++ "." ++ rawBody)))

def rawBody (delivery : WebhookDelivery) (timestampIso : String) (event : OutboxEvent) : String :=
  Json.stringify (.obj [("id", .str (toString delivery.id)), ("type", .str delivery.eventType),
    ("timestamp", .str timestampIso), ("data", event.payload)])

/-- A request that has been sent, with the attempt it is recorded as. -/
structure Post where
  deliveryId : Uuid
  targetUrl : String
  timestampIso : String
  signature : String
  rawBody : String
  attempt : WebhookDeliveryAttempt
  deriving DecidableEq, Repr

def postOf (deps : Deps) (now : Instant) (delivery : WebhookDelivery) (endpoint : WebhookEndpoint)
    (event : OutboxEvent) (answer : PostAnswer) : Post where
  deliveryId := delivery.id
  targetUrl := endpoint.targetUrl
  timestampIso := toISOString now
  signature := signWebhookDelivery deps delivery.id (toISOString now)
    (rawBody delivery (toISOString now) event) endpoint.secret
  rawBody := rawBody delivery (toISOString now) event
  attempt := attemptOf now delivery answer

/-! ## Executions -/

structure DispatchPendingEventsResult where
  eventsProcessed : Nat
  attemptsMade : Nat
  deriving DecidableEq, Repr

/-- What an execution keeps from its start, and from its two scans. -/
structure Tick where
  now : Instant
  eventsProcessed : Nat
  attemptsMade : Nat
  deriving DecidableEq, Repr

/-- Where an execution stands. `rest` is what its loop has yet to take up. -/
inductive DispatchState where
  | idle
  | scanningEvents (now : Instant)
  | findingEndpoints (tick : Tick) (event : OutboxEvent) (rest : List OutboxEvent)
  /-- inside the transaction: `remaining` of the endpoints to look at, `created` so far -/
  | fanningOut (tick : Tick) (event : OutboxEvent) (rest : List OutboxEvent)
      (endpoints remaining : List WebhookEndpoint) (created : List WebhookDelivery)
  | publishing (tick : Tick) (event : OutboxEvent) (rest : List OutboxEvent)
      (endpoints : List WebhookEndpoint)
  | scanningDue (tick : Tick)
  | findingEndpoint (tick : Tick) (delivery : WebhookDelivery) (rest : List WebhookDelivery)
  | reserving (tick : Tick) (delivery : WebhookDelivery) (rest : List WebhookDelivery)
      (endpoint : WebhookEndpoint)
  | deferring (tick : Tick) (delivery : WebhookDelivery) (rest : List WebhookDelivery)
  | findingEvent (tick : Tick) (delivery : WebhookDelivery) (rest : List WebhookDelivery)
      (endpoint : WebhookEndpoint)
  /-- before the guard and the POST -/
  | posting (tick : Tick) (delivery : WebhookDelivery) (rest : List WebhookDelivery)
      (endpoint : WebhookEndpoint) (event : OutboxEvent)
  | writing (tick : Tick) (delivery : WebhookDelivery) (rest : List WebhookDelivery)
      (attempt : WebhookDeliveryAttempt)
  | finished (result : Except WebhookFailure DispatchPendingEventsResult)

def nextEvent (tick : Tick) : List OutboxEvent → DispatchState
  | [] => .scanningDue tick
  | event :: rest => .findingEndpoints tick event rest

def nextDelivery (tick : Tick) : List WebhookDelivery → DispatchState
  | [] => .finished (.ok
      { eventsProcessed := tick.eventsProcessed, attemptsMade := tick.attemptsMade })
  | delivery :: rest => .findingEndpoint tick delivery rest

/-- The execution has not started, or has ended. -/
def DispatchState.over : DispatchState → Bool
  | .idle | .finished _ => true
  | _ => false

/-- The next statement writes an attempt on the delivery. -/
def DispatchState.writes (deliveryId : Uuid) : DispatchState → Bool
  | .writing _ delivery _ _ => delivery.id = deliveryId
  | _ => false

/-- What a statement takes from outside the database. -/
structure DispatchEnv where
  newId : Uuid
  scanOrder : Uuid → Nat
  answer : PostAnswer

/-- The next statement of an execution: the rows, the endpoints, and where it stands then. -/
def dispatchStep (db : DispatchDb) (endpoints : Endpoints) (env : DispatchEnv) :
    DispatchState → DispatchDb × Endpoints × DispatchState
  | .scanningEvents now =>
    let events := pendingEvents db
    (db, endpoints,
      nextEvent { now := now, eventsProcessed := events.length, attemptsMade := 0 } events)
  | .findingEndpoints tick event rest =>
    let found := findActiveForTenantAndEventType endpoints event.tenantId event.eventType
    (db, endpoints, .fanningOut tick event rest found found [])
  | .fanningOut tick event rest found (endpoint :: remaining) created =>
    (db, endpoints,
      .fanningOut tick event rest found remaining (fanOutTo db env.newId event created endpoint))
  | .fanningOut tick event rest found [] created =>
    match db.insertDeliveries created with
    | none => (db, endpoints, .finished (.error (.database .uniqueViolation)))
    | some db' => (db', endpoints, .publishing tick event rest found)
  | .publishing tick event rest _ =>
    (db.publish event.id tick.now, endpoints, nextEvent tick rest)
  | .scanningDue tick =>
    let due := dueDeliveries db env.scanOrder tick.now
    (db, endpoints, nextDelivery { tick with attemptsMade := due.length } due)
  | .findingEndpoint tick delivery rest =>
    match findByIdOrFail endpoints delivery.tenantId delivery.webhookEndpointId with
    | .error failure => (db, endpoints, .finished (.error failure))
    | .ok endpoint => (db, endpoints, .reserving tick delivery rest endpoint)
  | .reserving tick delivery rest endpoint =>
    match reserveOutboundAttempt endpoints delivery.tenantId endpoint.id tick.now with
    | (endpoints', true) => (db, endpoints', .findingEvent tick delivery rest endpoint)
    | (endpoints', false) => (db, endpoints', .deferring tick delivery rest)
  | .deferring tick delivery rest =>
    (db.defer delivery.id (nextWindowAt tick.now), endpoints, nextDelivery tick rest)
  | .findingEvent tick delivery rest endpoint =>
    match db.events.find delivery.outboxEventId with
    | none => (db, endpoints, .finished (.error (.entityNotFound "OutboxEvent")))
    | some event => (db, endpoints, .posting tick delivery rest endpoint event)
  | .posting tick delivery rest _ _ =>
    (db, endpoints, .writing tick delivery rest (attemptOf tick.now delivery env.answer))
  | .writing tick delivery rest attempt =>
    (db.settle tick.now delivery attempt, endpoints, nextDelivery tick rest)
  | state => (db, endpoints, state)

/-- The request the next statement sends, unless the guard refuses the target. -/
def DispatchState.post? (deps : Deps) (answer : PostAnswer) : DispatchState → Option Post
  | .posting tick delivery _ endpoint event =>
    match answer with
    | .refused _ => none
    | .responded _ | .failed _ => some (postOf deps tick.now delivery endpoint event answer)
  | _ => none

/-! ## What a statement writes -/

inductive DbEffect (db : DispatchDb) : DispatchState → DispatchDb → Prop where
  | same (state : DispatchState) (h : ∀ deliveryId, state.writes deliveryId = false) :
      DbEffect db state db
  | created (tick : Tick) (event : OutboxEvent) (rest : List OutboxEvent)
      (found : List WebhookEndpoint) (created : List WebhookDelivery) (db' : DispatchDb)
      (h : db.insertDeliveries created = some db') :
      DbEffect db (.fanningOut tick event rest found [] created) db'
  | published (tick : Tick) (event : OutboxEvent) (rest : List OutboxEvent)
      (found : List WebhookEndpoint) :
      DbEffect db (.publishing tick event rest found) (db.publish event.id tick.now)
  | deferred (tick : Tick) (delivery : WebhookDelivery) (rest : List WebhookDelivery) :
      DbEffect db (.deferring tick delivery rest) (db.defer delivery.id (nextWindowAt tick.now))
  | settled (tick : Tick) (delivery : WebhookDelivery) (rest : List WebhookDelivery)
      (attempt : WebhookDeliveryAttempt) :
      DbEffect db (.writing tick delivery rest attempt) (db.settle tick.now delivery attempt)

theorem dispatchStep_effect (db : DispatchDb) (endpoints : Endpoints) (env : DispatchEnv)
    (state : DispatchState) : DbEffect db state (dispatchStep db endpoints env state).1 := by
  cases state with
  | fanningOut tick event rest found remaining created =>
    cases remaining with
    | nil =>
      simp only [dispatchStep]
      split
      · exact .same _ fun _ => rfl
      · next db' h => exact .created tick event rest found created db' h
    | cons endpoint remaining => exact .same _ fun _ => rfl
  | publishing tick event rest found => exact .published tick event rest found
  | deferring tick delivery rest => exact .deferred tick delivery rest
  | writing tick delivery rest attempt => exact .settled tick delivery rest attempt
  | findingEndpoint tick delivery rest =>
    simp only [dispatchStep]
    split <;> exact .same _ fun _ => rfl
  | reserving tick delivery rest endpoint =>
    simp only [dispatchStep]
    split <;> exact .same _ fun _ => rfl
  | findingEvent tick delivery rest endpoint =>
    simp only [dispatchStep]
    split <;> exact .same _ fun _ => rfl
  | idle => exact .same _ fun _ => rfl
  | scanningEvents now => exact .same _ fun _ => rfl
  | findingEndpoints tick event rest => exact .same _ fun _ => rfl
  | scanningDue tick => exact .same _ fun _ => rfl
  | posting tick delivery rest endpoint event => exact .same _ fun _ => rfl
  | finished result => exact .same _ fun _ => rfl

theorem dispatchStep_over {db : DispatchDb} {endpoints : Endpoints} {env : DispatchEnv}
    {state : DispatchState} (h : state.over = true) :
    dispatchStep db endpoints env state = (db, endpoints, state) := by
  cases state with
  | idle => rfl
  | finished result => rfl
  | _ => cases h

/-- **What a fan-out has to look at and to insert**: the endpoints found and nothing, or what is left
after one look. -/
theorem fanningOut_next {db : DispatchDb} {endpoints : Endpoints} {env : DispatchEnv}
    {state : DispatchState} {tick : Tick} {event : OutboxEvent} {rest : List OutboxEvent}
    {found remaining : List WebhookEndpoint} {created : List WebhookDelivery}
    (h : (dispatchStep db endpoints env state).2.2
      = .fanningOut tick event rest found remaining created) :
    (remaining = findActiveForTenantAndEventType endpoints event.tenantId event.eventType
        ∧ created = [])
      ∨ ∃ endpoint before, state = .fanningOut tick event rest found (endpoint :: remaining) before
        ∧ created = fanOutTo db env.newId event before endpoint := by
  cases state with
  | findingEndpoints tick' event' rest' =>
    cases h
    exact Or.inl ⟨rfl, rfl⟩
  | fanningOut tick' event' rest' found' remaining' before =>
    cases remaining' with
    | cons endpoint remaining' =>
      cases h
      exact Or.inr ⟨endpoint, before, rfl, rfl⟩
    | nil =>
      simp only [dispatchStep] at h
      split at h <;> cases h
  | scanningEvents now =>
    simp only [dispatchStep] at h
    generalize pendingEvents db = events at h
    cases events <;> cases h
  | publishing tick' event' rest' found' =>
    simp only [dispatchStep] at h
    cases rest' <;> cases h
  | scanningDue tick' =>
    simp only [dispatchStep] at h
    generalize dueDeliveries db env.scanOrder tick'.now = due at h
    cases due <;> cases h
  | deferring tick' delivery rest' =>
    simp only [dispatchStep] at h
    cases rest' <;> cases h
  | writing tick' delivery rest' attempt =>
    simp only [dispatchStep] at h
    cases rest' <;> cases h
  | findingEndpoint tick' delivery rest' =>
    simp only [dispatchStep] at h
    split at h <;> cases h
  | reserving tick' delivery rest' endpoint =>
    simp only [dispatchStep] at h
    split at h <;> cases h
  | findingEvent tick' delivery rest' endpoint =>
    simp only [dispatchStep] at h
    split at h <;> cases h
  | posting tick' delivery rest' endpoint event' => cases h
  | idle => cases h
  | finished result => cases h

/-- What a look leads to insert: what there was, and a row for the endpoint. -/
theorem mem_fanOutTo {db : DispatchDb} {newId : Uuid} {event : OutboxEvent}
    {created : List WebhookDelivery} {endpoint : WebhookEndpoint} {d : WebhookDelivery}
    (h : d ∈ fanOutTo db newId event created endpoint) :
    d ∈ created
      ∨ (d = newDelivery newId event endpoint
        ∧ ∀ d' ∈ db.deliveries.rows ++ created, d'.pair ≠ (event.id, endpoint.id)) := by
  unfold fanOutTo at h
  split at h
  · exact Or.inl h
  · next hnone =>
    rcases List.mem_append.mp h with hold | hnew
    · exact Or.inl hold
    · refine Or.inr ⟨List.mem_singleton.mp hnew, fun d' hd' hpair => ?_⟩
      exact hnone (List.any_eq_true.mpr ⟨d', hd', by simpa using hpair⟩)

theorem insertDeliveries_rows {db db' : DispatchDb} {created : List WebhookDelivery}
    (h : db.insertDeliveries created = some db') :
    db'.events = db.events ∧ db'.deliveries.rows = db.deliveries.rows ++ created := by
  obtain ⟨deliveries, hfold, rfl⟩ := Option.map_eq_some_iff.mp h
  exact ⟨rfl, Table.rows_of_foldlM_insert hfold⟩

/-! ## Executions over one database -/

/-- An event that has been marked published, with the endpoints as its fan-out read them. -/
structure Publication where
  event : OutboxEvent
  endpoints : Endpoints

/-- The destination and the secret of the endpoint when a delivery row was created for it. -/
structure Origin where
  deliveryId : Uuid
  targetUrl : String
  secret : String
  deriving DecidableEq, Repr

structure System where
  db : DispatchDb
  endpoints : EndpointSystem
  dispatches : Nat → DispatchState
  /-- the number of executions started so far -/
  started : Nat
  /-- the endpoints as the last fan-out of each execution read them -/
  seen : Nat → Endpoints
  /-- every request sent, every event published, and the origin of every delivery -/
  posts : List Post
  publications : List Publication
  origins : List Origin

inductive Label where
  /-- a new outbox event is committed -/
  | append (event : OutboxEvent)
  /-- a statement of an endpoint call -/
  | endpoint (a : EndpointLabel)
  | start (now : Instant)
  | dispatch (e : Nat) (env : DispatchEnv)
  /-- the execution ends here -/
  | stop (e : Nat)

def System.setDispatch (s : System) (e : Nat) (state : DispatchState) : System :=
  { s with dispatches := Function.update s.dispatches e state }

/-- The event the next statement publishes. -/
def DispatchState.published? : DispatchState → Option OutboxEvent
  | .publishing _ event _ _ => some event
  | _ => none

/-- The next statement is the fan-out's read of the endpoints. -/
def DispatchState.readsEndpoints : DispatchState → Bool
  | .findingEndpoints _ _ _ => true
  | _ => false

def originOf (endpoints : Endpoints) (d : WebhookDelivery) : Option Origin :=
  (endpoints.find d.webhookEndpointId).map fun endpoint =>
    { deliveryId := d.id, targetUrl := endpoint.targetUrl, secret := endpoint.secret }

/-- The origins of the rows a commit of a fan-out creates. -/
def DispatchState.origins (db : DispatchDb) (endpoints : Endpoints) : DispatchState → List Origin
  | .fanningOut _ _ _ _ [] created =>
    if (db.insertDeliveries created).isSome then created.filterMap (originOf endpoints) else []
  | _ => []

def System.dispatch (deps : Deps) (s : System) (e : Nat) (env : DispatchEnv) : System :=
  let next := dispatchStep s.db s.endpoints.endpoints env (s.dispatches e)
  { s with
    db := next.1
    endpoints := { s.endpoints with endpoints := next.2.1 }
    dispatches := Function.update s.dispatches e next.2.2
    posts := s.posts ++ ((s.dispatches e).post? deps env.answer).toList
    seen :=
      if (s.dispatches e).readsEndpoints then Function.update s.seen e s.endpoints.endpoints
      else s.seen
    publications := s.publications ++ ((s.dispatches e).published?.map fun event =>
      { event := event, endpoints := s.seen e }).toList
    origins := s.origins ++ (s.dispatches e).origins s.db s.endpoints.endpoints }

def step (deps : Deps) (s : System) : Label → System
  | .append event =>
    match s.db.events.insert { event with publishedAt := none } with
    | none => s
    | some events => { s with db := { s.db with events } }
  | .endpoint a => { s with endpoints := endpointStep s.endpoints a }
  | .start now =>
    { s.setDispatch s.started (.scanningEvents now) with started := s.started + 1 }
  | .dispatch e env => s.dispatch deps e env
  | .stop e => s.setDispatch e (.finished (.error .storeUnavailable))

/-- Any endpoints; no event, no delivery, and no call under way. -/
def System.init (endpoints : Endpoints) : System where
  db := { events := .empty, deliveries := .empty }
  endpoints := .init endpoints
  dispatches := fun _ => .idle
  started := 0
  seen := fun _ => .empty
  posts := []
  publications := []
  origins := []

end MortgageAgent.Webhook
