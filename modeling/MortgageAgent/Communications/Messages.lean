import MortgageAgent.Lib.Run
import MortgageAgent.Outbox
import MortgageAgent.Communications.Classifier

/-!
# Drafting, approving and delivering a message

Three services share `communication_messages`. `draft` classifies and stores a message in one
transaction. `approve` and `deliver` read the message without a lock, and end with an update that
names the id alone; between the two, `deliver` hands the message to the channel, which no
rollback takes back.

* **`draft`**, **`approveRead`** / **`approveWrite`**, **`deliverRead`** / **`deliverWrite`** — the
  transactions, the last two cut behind their reads.
* **`System`** / **`Label`** / **`step`** — any number of calls in any order, over templates that
  anyone may change, with what was classified and what was handed over on record.
-/

namespace MortgageAgent.Communications

open Outbox

/-! ## Rows -/

inductive CommunicationMessageStatus where
  | DRAFTED
  | AWAITING_APPROVAL
  | APPROVED
  | SENT
  deriving DecidableEq, Repr

def CommunicationMessageStatus.text : CommunicationMessageStatus → String
  | .DRAFTED => "DRAFTED"
  | .AWAITING_APPROVAL => "AWAITING_APPROVAL"
  | .APPROVED => "APPROVED"
  | .SENT => "SENT"

/-- `communication_messages`. -/
structure CommunicationMessage where
  id : Uuid
  tenantId : Uuid
  caseId : Uuid
  classification : CommunicationClassification
  classificationReasons : List String
  templateId : Option Uuid
  recipientRelationship : String
  channel : String
  locale : String
  variableValues : List (String × String)
  renderedContent : String
  renderedContentHash : String
  status : CommunicationMessageStatus
  deliveryReference : Option String := none
  sentAt : Option Instant := none
  deriving DecidableEq

/-- `communication_approvals`. -/
structure CommunicationApproval where
  id : Uuid
  communicationMessageId : Uuid
  actorId : String
  approvedRenderedContentHash : String
  reason : Option String
  deriving DecidableEq

structure Db where
  templates : Table CommunicationTemplate CommunicationTemplate.id
  messages : Table CommunicationMessage CommunicationMessage.id
  approvals : Table CommunicationApproval CommunicationApproval.id
  outbox : OutboxEvents

structure Deps where
  sha256 : String → List UInt8
  signer : Signer

structure Env where
  now : Instant
  newId : Uuid

inductive Failure where
  /-- the classifier's `Error` -/
  | error (message : String)
  | badRequest (message : String)
  | notFound (message : String)
  | database (error : PgError)
  /-- the connection or the channel failed, or the process died -/
  | unavailable
  deriving DecidableEq, Repr

/-! ## `CommunicationMessageService` -/

/-- The template that the input names, if it names one. -/
def findTemplate (db : Db) (tenantId : Uuid) (input : DraftCommunicationInput) :
    Option CommunicationTemplate :=
  match truthy input.templateKey, truthy input.templateVersion with
  | some templateKey, some version =>
    db.templates.rows.find? fun t =>
      t.tenantId = tenantId && t.templateKey = templateKey && t.version = version
  | _, _ => none

def newMessage (deps : Deps) (env : Env) (tenantId caseId : Uuid) (input : DraftCommunicationInput)
    (outcome : ClassificationOutcome) : CommunicationMessage where
  id := env.newId
  tenantId
  caseId
  classification := outcome.classification
  classificationReasons := outcome.reasons
  templateId := outcome.templateId
  recipientRelationship := input.recipientRelationship
  channel := input.channel
  locale := input.locale
  variableValues := input.variableValues
  renderedContent := outcome.renderedContent
  renderedContentHash := PolicyDigest.computeDigest deps.sha256 (.str outcome.renderedContent)
  status := if outcome.classification = .PROTECTED then .AWAITING_APPROVAL else .DRAFTED

/-- The store after a draft, with the message and the outcome it was made from. -/
def draft (deps : Deps) (db : Db) (env : Env) (tenantId caseId : Uuid)
    (input : DraftCommunicationInput) :
    Except Failure (Db × CommunicationMessage × ClassificationOutcome) :=
  match classifyCommunication input (findTemplate db tenantId input) with
  | .error message => .error (.error message)
  | .ok outcome =>
    let message := newMessage deps env tenantId caseId input outcome
    match db.messages.insert message with
    | none => .error (.database .uniqueViolation)
    | some messages => .ok ({ db with messages }, message, outcome)

def findMessage (db : Db) (tenantId id : Uuid) : Option CommunicationMessage :=
  (db.messages.find id).filter fun m => m.tenantId = tenantId

def messageNotFound (id : Uuid) : Failure :=
  .notFound ("communication message " ++ toString id ++ " not found")

/-! ## `CommunicationApprovalService` -/

structure ApproveCall where
  tenantId : Uuid
  communicationMessageId : Uuid
  actorId : String
  reason : Option String := none
  deriving DecidableEq

/-- The message as `approve` reads and checks it. -/
def approveRead (db : Db) (call : ApproveCall) : Except Failure CommunicationMessage :=
  match findMessage db call.tenantId call.communicationMessageId with
  | none => .error (messageNotFound call.communicationMessageId)
  | some message =>
    if message.classification ≠ .PROTECTED then
      .error (.badRequest ("communication message " ++ toString call.communicationMessageId
        ++ " is not PROTECTED — routine messages do not require this approval"))
    else if message.status = .APPROVED then
      .error (.badRequest ("communication message " ++ toString call.communicationMessageId
        ++ " is already approved"))
    else .ok message

def newApproval (env : Env) (call : ApproveCall) (message : CommunicationMessage) :
    CommunicationApproval where
  id := env.newId
  communicationMessageId := call.communicationMessageId
  actorId := call.actorId
  approvedRenderedContentHash := message.renderedContentHash
  reason := call.reason

/-- `update({ id }, …)`; no row is not an error. -/
def Db.updateMessage (db : Db) (id : Uuid) (f : CommunicationMessage → CommunicationMessage)
    (hf : ∀ m, (f m).id = m.id) : Db :=
  { db with
    messages := db.messages.mapRows (fun m => if m.id = id then f m else m)
      (fun m => by split <;> simp [hf]) }

/-- The approval row and the new status, from the message as it was read. -/
def approveWrite (db : Db) (env : Env) (call : ApproveCall) (message : CommunicationMessage) :
    Except Failure (Db × CommunicationApproval) :=
  let approval := newApproval env call message
  match db.approvals.insert approval with
  | none => .error (.database .uniqueViolation)
  | some approvals =>
    .ok ({ db with approvals }.updateMessage call.communicationMessageId
      (fun m => { m with status := .APPROVED }) (fun _ => rfl), approval)

/-! ## `CommunicationDeliveryService` -/

inductive DeliverCommunicationResult where
  | DELIVERED (deliveryReference : String) (sentAt : Instant)
  | NOT_READY (reason : String)
  deriving DecidableEq, Repr

def CommunicationMessage.ready (m : CommunicationMessage) : Bool :=
  (m.classification = .ROUTINE && m.status = .DRAFTED)
    || (m.classification = .PROTECTED && m.status = .APPROVED)

/-- What the channel is given, and the content that the hash it gets stands for. -/
structure Handover where
  communicationMessageId : Uuid
  renderedContentHash : String
  channel : String
  renderedContent : String
  classification : CommunicationClassification
  deriving DecidableEq

def CommunicationMessage.handover (m : CommunicationMessage) : Handover where
  communicationMessageId := m.id
  renderedContentHash := m.renderedContentHash
  channel := m.channel
  renderedContent := m.renderedContent
  classification := m.classification

/-- `CommunicationDeliverySimulator.send`. -/
def send (deps : Deps) (m : CommunicationMessage) : String :=
  let digest := Bytes.hex (deps.sha256 (toString m.id ++ ":" ++ m.renderedContentHash))
  "sim-" ++ String.ofList (digest.take 24)

def deliveredEvent (m : CommunicationMessage) (deliveryReference : String) : OutboxEventInput where
  tenantId := m.tenantId
  caseId := m.caseId
  eventType := "communication.delivered"
  payload := .obj [
    ("caseId", .str (toString m.caseId)),
    ("communicationMessageId", .str (toString m.id)),
    ("classification", .str m.classification.text),
    ("channel", .str m.channel),
    ("deliveryReference", .str deliveryReference)]

/-- The message is marked as sent, and its event written. -/
def deliverWrite (deps : Deps) (db : Db) (env : Env) (m : CommunicationMessage)
    (deliveryReference : String) : Except Failure Db :=
  let sent := db.updateMessage m.id
    (fun row =>
      { row with
        status := .SENT
        deliveryReference := some deliveryReference
        sentAt := some env.now })
    (fun _ => rfl)
  match writeOutboxEvent sent.outbox deps.signer env.newId (deliveredEvent m deliveryReference) with
  | .error e => .error (.database e)
  | .ok outbox => .ok { sent with outbox }

/-! ## What the transactions write -/

theorem findMessage_eq_some {db : Db} {tenantId id : Uuid} {m : CommunicationMessage}
    (h : findMessage db tenantId id = some m) : m ∈ db.messages.rows ∧ m.id = id := by
  obtain ⟨hfound, -⟩ := Option.filter_eq_some_iff.mp h
  exact db.messages.find_eq_some_iff.mp hfound

theorem draft_ok {deps : Deps} {db db' : Db} {env : Env} {tenantId caseId : Uuid}
    {input : DraftCommunicationInput} {message : CommunicationMessage}
    {outcome : ClassificationOutcome}
    (h : draft deps db env tenantId caseId input = .ok (db', message, outcome)) :
    classifyCommunication input (findTemplate db tenantId input) = .ok outcome
      ∧ message = newMessage deps env tenantId caseId input outcome
      ∧ ∃ messages, db.messages.insert message = some messages ∧ db' = { db with messages } := by
  unfold draft at h
  split at h
  · cases h
  next houtcome =>
  simp only at h
  split at h
  · cases h
  next messages hinsert =>
  cases h
  exact ⟨houtcome, rfl, messages, hinsert, rfl⟩

theorem approveRead_ok {db : Db} {call : ApproveCall} {m : CommunicationMessage}
    (h : approveRead db call = .ok m) :
    m ∈ db.messages.rows ∧ m.id = call.communicationMessageId ∧ m.classification = .PROTECTED
      ∧ m.status ≠ .APPROVED := by
  unfold approveRead at h
  split at h
  · cases h
  next message hfind =>
  split at h
  · cases h
  next hprotected =>
  split at h
  · cases h
  next hstatus =>
  cases h
  obtain ⟨hmem, hid⟩ := findMessage_eq_some hfind
  exact ⟨hmem, hid, not_not.mp hprotected, hstatus⟩

theorem approveWrite_ok {db db' : Db} {env : Env} {call : ApproveCall} {m : CommunicationMessage}
    {approval : CommunicationApproval} (h : approveWrite db env call m = .ok (db', approval)) :
    approval = newApproval env call m
      ∧ db'.approvals.rows = db.approvals.rows ++ [approval]
      ∧ db'.messages.rows = db.messages.rows.map (fun row =>
        if row.id = call.communicationMessageId then { row with status := .APPROVED } else row) := by
  unfold approveWrite at h
  simp only at h
  split at h
  · cases h
  next approvals hinsert =>
  cases h
  exact ⟨rfl, Table.rows_of_insert hinsert, rfl⟩

theorem deliverWrite_ok {deps : Deps} {db db' : Db} {env : Env} {m : CommunicationMessage}
    {deliveryReference : String} (h : deliverWrite deps db env m deliveryReference = .ok db') :
    db'.approvals = db.approvals
      ∧ db'.messages.rows = db.messages.rows.map (fun row =>
        if row.id = m.id then
          { row with
            status := .SENT
            deliveryReference := some deliveryReference
            sentAt := some env.now }
        else row) := by
  unfold deliverWrite at h
  simp only at h
  split at h
  · cases h
  · cases h
    exact ⟨rfl, rfl⟩

/-! ## Calls in any order -/

inductive ApproveState where
  | idle
  /-- read and checked; the approval is still to be written -/
  | checked (call : ApproveCall) (message : CommunicationMessage)
  | finished (result : Except Failure CommunicationApproval)

inductive DeliverState where
  | idle
  /-- read and found ready -/
  | ready (message : CommunicationMessage)
  /-- handed to the channel; the row is still to be written -/
  | handedOver (message : CommunicationMessage) (deliveryReference : String)
  | finished (result : Except Failure DeliverCommunicationResult)

/-- What a draft's classification came to. -/
structure Classified where
  communicationMessageId : Uuid
  input : DraftCommunicationInput
  template : Option CommunicationTemplate
  outcome : ClassificationOutcome

structure System where
  db : Db
  approves : Nat → ApproveState
  delivers : Nat → DeliverState
  /-- the classifications of the messages drafted so far -/
  classified : List Classified
  /-- what the channel has accepted, in order -/
  handedOver : List Handover

inductive Label where
  | draft (env : Env) (tenantId caseId : Uuid) (input : DraftCommunicationInput)
  | startApprove (c : Nat) (call : ApproveCall)
  | approve (c : Nat) (env : Env)
  /-- the transaction of an `approve` fails, or its process dies -/
  | approveFails (c : Nat)
  | startDeliver (c : Nat) (tenantId communicationMessageId : Uuid)
  | deliver (c : Nat) (env : Env)
  /-- the channel or the transaction of a `deliver` fails, or its process dies -/
  | deliverFails (c : Nat)
  | setTemplates (templates : Table CommunicationTemplate CommunicationTemplate.id)

def System.setApprove (s : System) (c : Nat) (state : ApproveState) : System :=
  { s with approves := Function.update s.approves c state }

def System.setDeliver (s : System) (c : Nat) (state : DeliverState) : System :=
  { s with delivers := Function.update s.delivers c state }

/-- The next step of a `deliver`. -/
def System.deliver (deps : Deps) (s : System) (c : Nat) (env : Env) : System :=
  match s.delivers c with
  | .ready m =>
    { s with handedOver := s.handedOver ++ [m.handover] }.setDeliver c
      (.handedOver m (send deps m))
  | .handedOver m deliveryReference =>
    match deliverWrite deps s.db env m deliveryReference with
    | .error e => s.setDeliver c (.finished (.error e))
    | .ok db =>
      { s with db }.setDeliver c (.finished (.ok (.DELIVERED deliveryReference env.now)))
  | _ => s

def step (deps : Deps) (s : System) : Label → System
  | .draft env tenantId caseId input =>
    match draft deps s.db env tenantId caseId input with
    | .error _ => s
    | .ok (db, message, outcome) =>
      { s with
        db
        classified := s.classified ++
          [{ communicationMessageId := message.id
             input
             template := findTemplate s.db tenantId input
             outcome }] }
  | .startApprove c call =>
    match s.approves c with
    | .idle =>
      match approveRead s.db call with
      | .error e => s.setApprove c (.finished (.error e))
      | .ok message => s.setApprove c (.checked call message)
    | _ => s
  | .approve c env =>
    match s.approves c with
    | .checked call message =>
      match approveWrite s.db env call message with
      | .error e => s.setApprove c (.finished (.error e))
      | .ok (db, approval) => { s with db }.setApprove c (.finished (.ok approval))
    | _ => s
  | .approveFails c => s.setApprove c (.finished (.error .unavailable))
  | .startDeliver c tenantId communicationMessageId =>
    match s.delivers c with
    | .idle =>
      match findMessage s.db tenantId communicationMessageId with
      | none => s.setDeliver c (.finished (.error (messageNotFound communicationMessageId)))
      | some m =>
        if m.ready then s.setDeliver c (.ready m)
        else
          s.setDeliver c (.finished (.ok (.NOT_READY ("communication message "
            ++ toString communicationMessageId ++ " is " ++ m.classification.text ++ "/"
            ++ m.status.text ++ ", not ready to send"))))
    | _ => s
  | .deliver c env => s.deliver deps c env
  | .deliverFails c => s.setDeliver c (.finished (.error .unavailable))
  | .setTemplates templates => { s with db := { s.db with templates } }

/-- No message, approval or call yet, over any templates and events. -/
def System.init (templates : Table CommunicationTemplate CommunicationTemplate.id)
    (outbox : OutboxEvents) : System where
  db := { templates, messages := .empty, approvals := .empty, outbox }
  approves := fun _ => .idle
  delivers := fun _ => .idle
  classified := []
  handedOver := []

end MortgageAgent.Communications
