import Mathlib.Logic.Function.Basic
import MortgageAgent.Lib.Run
import MortgageAgent.Lib.Table
import MortgageAgent.Auth.Identity
import MortgageAgent.Auth.Request

/-!
# Keys of API clients

A partner's machine shows a bearer token, the id of its client and a secret. The table keeps a
salted digest of the secret, and `ApiKeyGuard` looks it up on every request. The scripts of the
operators create clients, rotate their secrets and revoke them; each loads the whole row, changes
the entity and saves it, and a save writes the columns in which the entity differs from the row
that it reads first.

* **`hashApiClientSecret`** / **`verifyApiClientSecret`** — the digests; scrypt is a parameter.
* **`bearerCredential`** / **`canActivate`** — the guard.
* **`ClientCall`** / **`CallState`** / **`callStep`** — `create`, `rotate` and `revoke`, cut at their
  statements.
* **`System`** / **`Label`** / **`step`** — any number of those calls over one table.
-/

namespace MortgageAgent.Auth.ApiClients

open Bytes

/-! ## Rows -/

inductive ApiClientStatus where
  | ACTIVE
  | REVOKED
  deriving DecidableEq, Repr

/-- `api_clients`. -/
structure ApiClient where
  id : Uuid
  tenantId : Uuid
  name : String
  hashedSecret : String
  status : ApiClientStatus
  role : ApiClientRole
  deriving DecidableEq, Repr

abbrev Clients := Table ApiClient ApiClient.id

/-! ## Secrets -/

structure Deps where
  /-- `scryptSync(secret, salt, 64)` -/
  scrypt : (secret salt : String) → List UInt8
  /-- the id that a text of the form of a UUID is written for -/
  uuid? : String → Option Uuid

/-- What `generateApiClientSecret` and the salt's `randomBytes(16)` have drawn. -/
structure Secret where
  text : String
  salt : List UInt8
  deriving DecidableEq, Repr

def hashApiClientSecret (deps : Deps) (secret : Secret) : String :=
  let salt := String.ofList (hex secret.salt)
  salt ++ ":" ++ String.ofList (hex (deps.scrypt secret.text salt))

/-- The digest of the presented secret under the stored salt is the stored one. -/
def verifyApiClientSecret (deps : Deps) (secret hashedSecret : String) : Bool :=
  match hashedSecret.toList.splitOn ':' with
  | salt :: digestHex :: _ =>
    salt ≠ [] && digestHex ≠ []
      && deps.scrypt secret (String.ofList salt) = ofHex digestHex
  | _ => false

/-! ## The guard -/

/-- The id and the secret of an `authorization` header; what follows a second dot is not looked
at. -/
def bearerCredential (deps : Deps) (header : Option String) : Option (Uuid × String) := do
  let header ← header
  guard ("Bearer ".toList.isPrefixOf header.toList)
  let token := jsTrim (String.ofList (header.toList.drop "Bearer ".length))
  match token.toList.splitOn '.' with
  | clientId :: secret :: _ =>
    guard (clientId ≠ [] ∧ secret ≠ [])
    let id ← deps.uuid? (String.ofList clientId)
    return (id, String.ofList secret)
  | _ => none

structure AuthContext where
  tenantId : Uuid
  actorId : Uuid
  role : ApiClientRole
  correlationId : Uuid
  deriving DecidableEq, Repr

def canActivate (deps : Deps) (clients : Clients) (header : Option String)
    (correlationId : Uuid) : Except Failure AuthContext :=
  match bearerCredential deps header with
  | none => .error unauthorized
  | some (clientId, secret) =>
    match clients.find clientId with
    | none => .error unauthorized
    | some client =>
      if client.status ≠ .ACTIVE ∨ verifyApiClientSecret deps secret client.hashedSecret = false then
        .error unauthorized
      else .ok { tenantId := client.tenantId, actorId := client.id, role := client.role, correlationId }

/-! ## The scripts -/

structure CreateApiClientInput where
  tenantId : Uuid
  name : String
  role : Option ApiClientRole := none
  deriving DecidableEq, Repr

inductive ClientCall where
  | create (input : CreateApiClientInput)
  | rotate (id : Uuid)
  | revoke (id : Uuid)
  deriving DecidableEq, Repr

inductive ClientFailure where
  | notFound (message : String)
  | conflict (message : String)
  | database (error : PgError)
  /-- a query failed, or the script was stopped -/
  | unavailable
  deriving DecidableEq, Repr

/-- The client, and the token that the script prints once. -/
structure CallResult where
  client : ApiClient
  token : Option (Uuid × String) := none
  deriving DecidableEq, Repr

/-- Where a call stands. The entity that is saved carries the secret of a rotation. -/
inductive CallState where
  | idle
  | called (call : ClientCall)
  | saving (entity : ApiClient) (rotated : Option Secret)
  /-- the save has read `found` -/
  | writing (entity found : ApiClient) (rotated : Option Secret)
  | finished (result : Except ClientFailure CallResult)
  deriving DecidableEq, Repr

/-- What a step draws at random: the id of a new row, a secret and its salt. -/
structure CallEnv where
  newId : Uuid
  secret : Secret
  deriving DecidableEq, Repr

def clientNotFound (id : Uuid) : ClientFailure :=
  .notFound ("API client " ++ toString id ++ " not found")

def clientNotActive (id : Uuid) : ClientFailure :=
  .conflict ("API client " ++ toString id ++ " is not active")

def CreateApiClientInput.row (input : CreateApiClientInput) (deps : Deps) (env : CallEnv) :
    ApiClient where
  id := env.newId
  tenantId := input.tenantId
  name := input.name
  hashedSecret := hashApiClientSecret deps env.secret
  status := .ACTIVE
  role := input.role.getD .PARTNER

def CallResult.issued (client : ApiClient) (secret : Option Secret) : CallResult where
  client := client
  token := secret.map fun s => (client.id, s.text)

/-- A column is set where the entity differs from the row that the save has read. -/
def changed {α : Type} [DecidableEq α] (entity found row : α) : α :=
  if entity = found then row else entity

/-- The row after the update of a save. -/
def ApiClient.saved (entity found row : ApiClient) : ApiClient where
  id := row.id
  tenantId := changed entity.tenantId found.tenantId row.tenantId
  name := changed entity.name found.name row.name
  hashedSecret := changed entity.hashedSecret found.hashedSecret row.hashedSecret
  status := changed entity.status found.status row.status
  role := changed entity.role found.role row.role

def updateClient (clients : Clients) (entity found : ApiClient) : Clients :=
  match clients.find found.id with
  | none => clients
  | some row => clients.put (entity.saved found row)

/-- One statement of a call. -/
def callStep (deps : Deps) (clients : Clients) (env : CallEnv) : CallState → Clients × CallState
  | .called (.create input) =>
    match clients.insert (input.row deps env) with
    | none => (clients, .finished (.error (.database .uniqueViolation)))
    | some clients' =>
      (clients', .finished (.ok (.issued (input.row deps env) (some env.secret))))
  | .called (.rotate id) =>
    match clients.find id with
    | none => (clients, .finished (.error (clientNotFound id)))
    | some client =>
      if client.status ≠ .ACTIVE then (clients, .finished (.error (clientNotActive id)))
      else
        (clients, .saving { client with hashedSecret := hashApiClientSecret deps env.secret }
          (some env.secret))
  | .called (.revoke id) =>
    match clients.find id with
    | none => (clients, .finished (.error (clientNotFound id)))
    | some client =>
      if client.status = .REVOKED then (clients, .finished (.ok { client }))
      else (clients, .saving { client with status := .REVOKED } none)
  | .saving entity rotated =>
    match clients.find entity.id with
    | some found => (clients, .writing entity found rotated)
    -- no row to update: the entity is inserted again
    | none =>
      match clients.insert entity with
      | none => (clients, .finished (.error (.database .uniqueViolation)))
      | some clients' => (clients', .finished (.ok (.issued entity rotated)))
  | .writing entity found rotated =>
    (updateClient clients entity found, .finished (.ok (.issued entity rotated)))
  | .idle => (clients, .idle)
  | .finished result => (clients, .finished result)

/-! ## Calls side by side -/

structure System where
  clients : Clients
  calls : Nat → CallState

inductive Label where
  | start (c : Nat) (call : ClientCall)
  | move (c : Nat) (env : CallEnv)
  | fail (c : Nat)

def System.setCall (s : System) (c : Nat) (state : CallState) : System :=
  { s with calls := Function.update s.calls c state }

def step (deps : Deps) (s : System) : Label → System
  | .start c call =>
    match s.calls c with
    | .idle => s.setCall c (.called call)
    | _ => s
  | .move c env =>
    { s with clients := (callStep deps s.clients env (s.calls c)).1 }.setCall c
      (callStep deps s.clients env (s.calls c)).2
  | .fail c =>
    match s.calls c with
    | .called _ | .saving .. | .writing .. => s.setCall c (.finished (.error .unavailable))
    | _ => s

def System.init : System where
  clients := .empty
  calls := fun _ => .idle

/-! ## Digests -/

theorem colon_not_mem_hex (bytes : List UInt8) : ':' ∉ hex bytes := by
  have hdigit : ∀ n < 16, Json.hexDigit n ≠ ':' := by decide +kernel
  intro h
  obtain ⟨b, -, hb⟩ := List.mem_flatMap.mp h
  have hlt : b.toNat < 256 := b.toNat_lt
  simp only [List.mem_cons, List.not_mem_nil, or_false] at hb
  cases hb with
  | inl hhigh => exact hdigit (b.toNat / 16) (by omega) hhigh.symm
  | inr hlow => exact hdigit (b.toNat % 16) (by omega) hlow.symm

theorem hex_ne_nil {bytes : List UInt8} (h : bytes ≠ []) : hex bytes ≠ [] := by
  cases bytes with
  | nil => exact absurd rfl h
  | cons b bytes => exact List.cons_ne_nil _ _

theorem splitOn_hash (deps : Deps) (secret : Secret) :
    (hashApiClientSecret deps secret).toList.splitOn ':'
      = [hex secret.salt, hex (deps.scrypt secret.text (String.ofList (hex secret.salt)))] := by
  have htext : (hashApiClientSecret deps secret).toList = [':'].intercalate
      [hex secret.salt, hex (deps.scrypt secret.text (String.ofList (hex secret.salt)))] := by
    simp [hashApiClientSecret, List.intercalate]
  rw [htext, List.splitOn_intercalate]
  · intro part hpart
    simp only [List.mem_cons, List.not_mem_nil, or_false] at hpart
    cases hpart with
    | inl hsalt => rw [hsalt]; exact colon_not_mem_hex _
    | inr hdigest => rw [hdigest]; exact colon_not_mem_hex _
  · exact List.cons_ne_nil _ _

/-- A secret is accepted just if it has the digest of the one that was hashed. -/
theorem verify_hash (deps : Deps) (secret : Secret) (presented : String)
    (hsalt : secret.salt ≠ [])
    (hdigest : deps.scrypt secret.text (String.ofList (hex secret.salt)) ≠ []) :
    verifyApiClientSecret deps presented (hashApiClientSecret deps secret) = true
      ↔ deps.scrypt presented (String.ofList (hex secret.salt))
        = deps.scrypt secret.text (String.ofList (hex secret.salt)) := by
  rw [verifyApiClientSecret, splitOn_hash]
  simp [hex_ne_nil hsalt, hex_ne_nil hdigest, ofHex_hex]

end MortgageAgent.Auth.ApiClients
