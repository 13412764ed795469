import MortgageAgent.Lib.Table
import MortgageAgent.Platform
import MortgageAgent.Canonical

/-!
# The transactional outbox

`writeOutboxEvent` inserts a signed event through the transaction of the state change that it
describes, so the two commit together.
-/

namespace MortgageAgent.Outbox

/-- `outbox_events`. -/
structure OutboxEvent where
  id : Uuid
  tenantId : Uuid
  caseId : Uuid
  eventType : String
  payload : Json
  signature : String

abbrev OutboxEvents := Table OutboxEvent OutboxEvent.id

/-- The signer a process is deployed with. -/
structure Signer where
  hmacSha256 : (secret text : String) → List UInt8
  /-- `OUTBOX_SIGNING_SECRET` -/
  secret : String := "dev-outbox-signing-secret-change-me"

structure OutboxEventInput where
  tenantId : Uuid
  caseId : Uuid
  eventType : String
  payload : Json

def OutboxEventInput.event (input : OutboxEventInput) (signer : Signer) (newId : Uuid) :
    OutboxEvent where
  id := newId
  tenantId := input.tenantId
  caseId := input.caseId
  eventType := input.eventType
  payload := input.payload
  signature := OutboxSigner.signOutboxPayload signer.hmacSha256 input.payload signer.secret

def writeOutboxEvent (outbox : OutboxEvents) (signer : Signer) (newId : Uuid)
    (input : OutboxEventInput) : Except PgError OutboxEvents :=
  match outbox.insert (input.event signer newId) with
  | none => .error .uniqueViolation
  | some outbox => .ok outbox

theorem rows_of_writeOutboxEvent {outbox outbox' : OutboxEvents} {signer : Signer} {newId : Uuid}
    {input : OutboxEventInput} (h : writeOutboxEvent outbox signer newId input = .ok outbox') :
    outbox'.rows = outbox.rows ++ [input.event signer newId] := by
  unfold writeOutboxEvent at h
  split at h
  · cases h
  · next hinsert =>
    cases h
    exact Table.rows_of_insert hinsert

end MortgageAgent.Outbox
