import Mathlib.Logic.Function.Basic
import MortgageAgent.Lib.Run
import MortgageAgent.Lib.Table
import MortgageAgent.Platform

/-!
# Webhook endpoints

`WebhookEndpointService`. `update` and `disable` load the whole row in a transaction, change the
entity in memory and save it; nothing is locked in between, so other calls commit in between.
`reserveOutboundAttempt` is one conditional `UPDATE` of the rate window.

* **`WebhookEndpoint`** — a row of `webhook_endpoints`.
* **`findActiveForTenantAndEventType`**, **`findByIdOrFail`** — the reads.
* **`reserveOutboundAttempt`** — the reservation in the UTC-minute window.
* **`EditCall`** / **`EditState`** / **`editStep`** — `create`, `update` and `disable`, cut at their
  statements.
* **`EndpointSystem`** / **`EndpointLabel`** / **`endpointStep`** — any number of those calls, and
  reservations, over one table.

A save writes every column in which the entity differs from the row at that moment: afterwards
the row is the entity.
-/

namespace MortgageAgent.Webhook

inductive WebhookEndpointStatus where
  | ACTIVE
  | DISABLED
  deriving DecidableEq, Repr

/-- `webhook_endpoints`. -/
structure WebhookEndpoint where
  id : Uuid
  tenantId : Uuid
  targetUrl : String
  secret : String
  eventTypes : List String
  status : WebhookEndpointStatus
  outboundRateLimitPerMinute : Int
  rateWindowStartedAt : Option Instant
  rateWindowAttempts : Int
  deriving DecidableEq, Repr

abbrev Endpoints := Table WebhookEndpoint WebhookEndpoint.id

/-- What a webhook service throws. -/
inductive WebhookFailure where
  | badRequest (message : String)
  | notFound (message : String)
  /-- `findOneByOrFail` found nothing -/
  | entityNotFound (entity : String)
  | database (error : PgError)
  /-- the connection or the commit failed; the transaction is rolled back -/
  | storeUnavailable
  deriving DecidableEq, Repr

/-! ## Reads -/

/-- `findOneBy({ id, tenantId })`. -/
def findEndpoint (endpoints : Endpoints) (tenantId id : Uuid) : Option WebhookEndpoint :=
  (endpoints.find id).filter fun e => e.tenantId = tenantId

def endpointNotFound (id : Uuid) : WebhookFailure :=
  .notFound ("Webhook endpoint " ++ toString id ++ " not found")

def findByIdOrFail (endpoints : Endpoints) (tenantId id : Uuid) :
    Except WebhookFailure WebhookEndpoint :=
  match findEndpoint endpoints tenantId id with
  | none => .error (endpointNotFound id)
  | some e => .ok e

/-- Active, of the tenant, and subscribed to the event type. -/
def WebhookEndpoint.receives (e : WebhookEndpoint) (tenantId : Uuid) (eventType : String) : Bool :=
  e.tenantId = tenantId && e.status = .ACTIVE && e.eventTypes.contains eventType

def findActiveForTenantAndEventType (endpoints : Endpoints) (tenantId : Uuid)
    (eventType : String) : List WebhookEndpoint :=
  endpoints.rows.filter fun e => e.receives tenantId eventType

/-! ## The rate window -/

/-- The UTC minute of an instant. -/
def windowStart (now : Instant) : Instant := now / 60000 * 60000

def nextWindowAt (now : Instant) : Instant := windowStart now + 60000

/-- `"rateWindowStartedAt" IS NULL OR "rateWindowStartedAt" < $3`. -/
def WebhookEndpoint.windowPassed (e : WebhookEndpoint) (start : Instant) : Bool :=
  e.rateWindowStartedAt.all fun startedAt => startedAt < start

/-- The row has room for one more attempt in the window. -/
def WebhookEndpoint.hasRoom (e : WebhookEndpoint) (start : Instant) : Bool :=
  e.windowPassed start || e.rateWindowAttempts < e.outboundRateLimitPerMinute

def WebhookEndpoint.counted (e : WebhookEndpoint) (start : Instant) : WebhookEndpoint :=
  { e with
    rateWindowStartedAt := some start
    rateWindowAttempts := if e.windowPassed start then 1 else e.rateWindowAttempts + 1 }

/-- The rows after the update, and whether it met a row. -/
def reserveOutboundAttempt (endpoints : Endpoints) (tenantId endpointId : Uuid) (now : Instant) :
    Endpoints × Bool :=
  match findEndpoint endpoints tenantId endpointId with
  | none => (endpoints, false)
  | some e =>
    if e.hasRoom (windowStart now) then (endpoints.put (e.counted (windowStart now)), true)
    else (endpoints, false)

/-! ## Edits -/

structure CreateWebhookEndpointDto where
  targetUrl : String
  eventTypes : List String
  deriving DecidableEq, Repr

structure UpdateWebhookEndpointDto where
  targetUrl : Option String
  eventTypes : Option (List String)
  outboundRateLimitPerMinute : Option Int
  deriving DecidableEq, Repr

def UpdateWebhookEndpointDto.apply (dto : UpdateWebhookEndpointDto) (e : WebhookEndpoint) :
    WebhookEndpoint :=
  { e with
    targetUrl := dto.targetUrl.getD e.targetUrl
    eventTypes := dto.eventTypes.getD e.eventTypes
    outboundRateLimitPerMinute :=
      dto.outboundRateLimitPerMinute.getD e.outboundRateLimitPerMinute }

def WebhookEndpoint.disabled (e : WebhookEndpoint) : WebhookEndpoint :=
  { e with status := .DISABLED }

inductive EditCall where
  | create (tenantId : Uuid) (dto : CreateWebhookEndpointDto)
  | update (tenantId id : Uuid) (dto : UpdateWebhookEndpointDto)
  | disable (tenantId id : Uuid)
  deriving DecidableEq, Repr

/-- The target a call has checked before it opens its transaction. -/
def EditCall.checkedTarget : EditCall → Option String
  | .create _ dto => some dto.targetUrl
  | .update _ _ dto => dto.targetUrl
  | .disable _ _ => none

inductive EditState where
  | idle
  /-- before the insert of `create`, or the `findOneBy` of the others -/
  | loading (call : EditCall)
  /-- before the save of the loaded entity, with the edits -/
  | savingUpdate (dto : UpdateWebhookEndpointDto) (loaded : WebhookEndpoint)
  | savingDisable (loaded : WebhookEndpoint)
  | finished (result : Except WebhookFailure WebhookEndpoint)

/-- `assertSafeTarget`: what the guard says of the target, if the call has one. -/
def startEdit (call : EditCall) (blocked : Option String) : EditState :=
  match call.checkedTarget, blocked with
  | some _, some message => .finished (.error (.badRequest message))
  | _, _ => .loading call

/-- What the database and the runtime generate for a new row. -/
structure EditEnv where
  newId : Uuid
  /-- `randomBytes(32).toString('hex')` -/
  secret : String
  deriving DecidableEq, Repr

def newEndpoint (env : EditEnv) (tenantId : Uuid) (dto : CreateWebhookEndpointDto) :
    WebhookEndpoint where
  id := env.newId
  tenantId := tenantId
  targetUrl := dto.targetUrl
  secret := env.secret
  eventTypes := dto.eventTypes
  status := .ACTIVE
  outboundRateLimitPerMinute := 60
  rateWindowStartedAt := none
  rateWindowAttempts := 0

/-- The next statement of a call. -/
def editStep (endpoints : Endpoints) (env : EditEnv) : EditState → Endpoints × EditState
  | .loading (.create tenantId dto) =>
    match endpoints.insert (newEndpoint env tenantId dto) with
    | none => (endpoints, .finished (.error (.database .uniqueViolation)))
    | some endpoints' => (endpoints', .finished (.ok (newEndpoint env tenantId dto)))
  | .loading (.update tenantId id dto) =>
    match findEndpoint endpoints tenantId id with
    | none => (endpoints, .finished (.error (endpointNotFound id)))
    | some e => (endpoints, .savingUpdate dto e)
  | .loading (.disable tenantId id) =>
    match findEndpoint endpoints tenantId id with
    | none => (endpoints, .finished (.error (endpointNotFound id)))
    | some e => (endpoints, .savingDisable e)
  | .savingUpdate dto loaded => (endpoints.put (dto.apply loaded), .finished (.ok (dto.apply loaded)))
  | .savingDisable loaded => (endpoints.put loaded.disabled, .finished (.ok loaded.disabled))
  | state => (endpoints, state)

/-! ## Calls over one table -/

structure EndpointSystem where
  endpoints : Endpoints
  edits : Nat → EditState

inductive EndpointLabel where
  | start (c : Nat) (call : EditCall) (blocked : Option String)
  | edit (c : Nat) (env : EditEnv)
  | editFails (c : Nat)
  | reserve (tenantId endpointId : Uuid) (now : Instant)

def EndpointSystem.setEdit (s : EndpointSystem) (c : Nat) (state : EditState) : EndpointSystem :=
  { s with edits := Function.update s.edits c state }

def endpointStep (s : EndpointSystem) : EndpointLabel → EndpointSystem
  | .start c call blocked =>
    match s.edits c with
    | .idle => s.setEdit c (startEdit call blocked)
    | _ => s
  | .edit c env =>
    { s with endpoints := (editStep s.endpoints env (s.edits c)).1 }.setEdit c
      (editStep s.endpoints env (s.edits c)).2
  | .editFails c => s.setEdit c (.finished (.error .storeUnavailable))
  | .reserve tenantId endpointId now =>
    { s with endpoints := (reserveOutboundAttempt s.endpoints tenantId endpointId now).1 }

/-- Any endpoints, and no call under way. -/
def EndpointSystem.init (endpoints : Endpoints) : EndpointSystem where
  endpoints := endpoints
  edits := fun _ => .idle

end MortgageAgent.Webhook
