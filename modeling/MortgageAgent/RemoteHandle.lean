import MortgageAgent.Lib.Json
import MortgageAgent.Lib.Memo
import MortgageAgent.Lib.Run

/-!
# The remote handles a process makes on first use

`OidcService` fetches the issuer's discovery document on the first call that needs it,
`TemporalClientService` connects on the first. Each keeps the promise of its attempt in a field, and
later calls await that.

The fetch of the discovery document empties the field on the failures it finds itself: a status that
is not 2xx, metadata without `issuer` or `jwks_uri`, another issuer. A failure that reaches it as a
rejection or an exception (`fetch` rejects, the body is no JSON, or is `null`) leaves the field as it
is; and so does every failure to connect to Temporal. From then on each call gets that failure.
-/

namespace MortgageAgent

open Runs

/-! ## The discovery document -/

namespace Oidc

/-- What `fetch` of `/.well-known/openid-configuration`, and then `response.json()`, come to. -/
inductive FetchResult where
  /-- `fetch` rejects -/
  | networkError (error : String)
  /-- a response; `none`: `response.json()` rejects -/
  | response (status : Nat) (body : Option Json)

/-- `response.ok` -/
def isOk (status : Nat) : Bool := 200 ≤ status && status ≤ 299

/-- JavaScript's truth of a property, `none` one that is not there. -/
def truthy : Option Json → Bool
  | none => false
  | some .null => false
  | some (.bool b) => b
  | some (.num n) => n.mantissa ≠ 0
  | some (.str s) => s ≠ ""
  | some (.arr _) => true
  | some (.obj _) => true

/-- The property of a JSON value that is not `null`: only an object has any of these. -/
def property (document : Json) (key : String) : Option Json :=
  match document with
  | .obj fields => Json.get? fields key
  | _ => none

/-- `document.issuer !== this.issuer` -/
def sameIssuer (document : Json) (issuer : String) : Bool :=
  match property document "issuer" with
  | some (.str s) => s = issuer
  | _ => false

open Memo

/-- The checks of a document that can be asked for its properties. -/
def checkDocument (issuer : String) (document : Json) : Ending String Json :=
  if !truthy (property document "issuer") || !truthy (property document "jwks_uri") then
    ⟨.error "OIDC discovery document missing issuer/jwks_uri", true⟩
  else if !sameIssuer document issuer then
    ⟨.error "OIDC discovery issuer does not match configuration", true⟩
  else ⟨.ok document, false⟩

/-- What follows a response that is ok. -/
def readDocument (issuer : String) : Option Json → Ending String Json
  | none => ⟨.error "SyntaxError", false⟩
  -- `document.issuer` of `null`
  | some .null => ⟨.error "TypeError", false⟩
  | some document => checkDocument issuer document

def fetchDiscoveryDocument (issuer : String) : FetchResult → Ending String Json
  | .networkError error => ⟨.error error, false⟩
  | .response status body =>
    if !isOk status then
      ⟨.error ("OIDC discovery failed: HTTP " ++ toString status ++ " from " ++ issuer), true⟩
    else readDocument issuer body

/-- The attempt fails by a rejection or an exception of what it calls: the fetch, the parse of the
body of a 2xx response, or the read of a property of `null`. -/
def FetchResult.Throws : FetchResult → Prop
  | .networkError _ => True
  | .response status body => isOk status = true ∧ (body = none ∨ body = some .null)

theorem checkDocument_clean (issuer : String) (document : Json) :
    (checkDocument issuer document).Clean := by
  intro error herror
  rw [checkDocument] at herror ⊢
  split at herror
  · rw [if_pos ‹_›]
  · rw [if_neg ‹_›]
    split at herror
    · rw [if_pos ‹_›]
    · cases herror

theorem readDocument_clean (issuer : String) (body : Option Json) :
    (readDocument issuer body).Clean ↔ ¬ (body = none ∨ body = some .null) := by
  cases body with
  | none =>
    refine iff_of_false (fun hclean => ?_) (fun hbody => hbody (.inl rfl))
    cases hclean _ rfl
  | some document =>
    cases document with
    | null =>
      refine iff_of_false (fun hclean => ?_) (fun hbody => hbody (.inr rfl))
      cases hclean _ rfl
    | _ => exact iff_of_true (checkDocument_clean issuer _) (by simp)

/-- The field is emptied on every failure but those. -/
theorem fetchDiscoveryDocument_clean (issuer : String) (r : FetchResult) :
    (fetchDiscoveryDocument issuer r).Clean ↔ ¬ r.Throws := by
  cases r with
  | networkError error =>
    refine iff_of_false (fun hclean => ?_) (fun hthrows => hthrows trivial)
    cases hclean error rfl
  | response status body =>
    rw [fetchDiscoveryDocument, FetchResult.Throws]
    cases hok : isOk status with
    | false =>
      refine iff_of_true (fun error herror => ?_) (fun hthrows => by cases hthrows.1)
      rfl
    | true =>
      rw [Bool.not_true, if_neg Bool.false_ne_true, readDocument_clean]
      simp

end Oidc

open Memo

/-- `OidcService`: its configuration, and the promises its field `discovery` has held. -/
structure OidcService where
  issuer : Option String
  audience : Option String
  discovery : Handle String Json := {}

namespace OidcService

/-- `!this.issuer || !this.audience` -/
def unconfigured (s : OidcService) : Bool := s.issuer.getD "" = "" || s.audience.getD "" = ""

/-- `if (!this.discovery) this.discovery = this.fetchDiscoveryDocument();` and the promise it is
then. -/
def await (s : OidcService) : OidcService × Nat :=
  ({ s with discovery := s.discovery.get.1 }, s.discovery.get.2)

/-- Up to the `await` of the promise returned. -/
def getDiscoveryDocument (s : OidcService) : Except String (OidcService × Nat) :=
  if s.unconfigured then .error "OIDC is not configured" else .ok s.await

/-- Up to its `await`: the field is set here and again by `getDiscoveryDocument`. -/
def resolveJwks (s : OidcService) : Except String (OidcService × Nat) :=
  s.await.1.getDiscoveryDocument

/-- Up to its `await`. -/
def verifyToken (s : OidcService) : Except String (OidcService × Nat) :=
  if s.unconfigured then .error "OIDC is not configured" else s.resolveJwks

/-- The calls that need the document. -/
inductive Call where
  | getDiscoveryDocument
  | verifyToken

def call (s : OidcService) : Call → Except String (OidcService × Nat)
  | .getDiscoveryDocument => s.getDiscoveryDocument
  | .verifyToken => s.verifyToken

/-- Attempt `n` ends. -/
def settle (s : OidcService) (n : Nat) (r : Oidc.FetchResult) : OidcService :=
  { s with discovery := s.discovery.settle n (Oidc.fetchDiscoveryDocument (s.issuer.getD "") r) }

inductive Label where
  | call (c : Call)
  | settle (n : Nat) (r : Oidc.FetchResult)

def step (s : OidcService) : Label → OidcService
  | .call c => match s.call c with
    | .ok (s', _) => s'
    | .error _ => s
  | .settle n r => s.settle n r

/-- Every call made in this state forgets the attempts that have failed. -/
def Forgets (s : OidcService) : Prop := ∀ c s' n, s.call c = .ok (s', n) →
  s.discovery.Forgets s'.discovery n (Oidc.fetchDiscoveryDocument (s.issuer.getD ""))

/-- An attempt under way does not end by a rejection or an exception of what it calls. -/
def StepOk (s : OidcService) : Label → Prop
  | .call _ => True
  | .settle n r => s.discovery.Pending n → ¬ r.Throws

/-- The service as it is constructed. -/
def new (issuer audience : Option String) : OidcService := { issuer, audience }

structure Inv (s : OidcService) : Prop where
  handle : s.discovery.Inv
  /-- no call gets as far as the field -/
  slot_of_unconfigured : s.unconfigured = true → s.discovery.slot = none

theorem inv_new (issuer audience : Option String) : (new issuer audience).Inv :=
  ⟨Handle.inv_empty, fun _ => rfl⟩

/-- Setting the field twice is setting it once: both calls are the one. -/
theorem call_eq (s : OidcService) (c : Call) :
    s.call c = if s.unconfigured then .error "OIDC is not configured" else .ok s.await := by
  cases c with
  | getDiscoveryDocument => rfl
  | verifyToken =>
    have hagain : s.await.1.await = s.await := by
      rw [await, await, Handle.get_get]
    have hconfigured : s.await.1.unconfigured = s.unconfigured := rfl
    rw [call, verifyToken, resolveJwks, getDiscoveryDocument, hconfigured, hagain]
    split <;> rfl

theorem step_call (s : OidcService) (c : Call) :
    s.step (.call c) = if s.unconfigured then s else s.await.1 := by
  rw [step, call_eq]
  by_cases hu : s.unconfigured = true
  · rw [if_pos hu, if_pos hu]
  · rw [if_neg hu, if_neg hu]

theorem Inv.step {s : OidcService} (hinv : s.Inv) (a : Label) : (s.step a).Inv := by
  cases a with
  | call c =>
    rw [step_call]
    by_cases hu : s.unconfigured = true
    · rwa [if_pos hu]
    · rw [if_neg hu]
      exact ⟨hinv.handle.get, fun hu' => absurd hu' hu⟩
  | settle n r =>
    refine ⟨hinv.handle.settle n _, fun hu => ?_⟩
    have hslot := hinv.slot_of_unconfigured hu
    have hidle : ¬ s.discovery.Pending n := by
      intro hn
      have hkept := hinv.handle.slot_of_pending n hn
      rw [hslot] at hkept
      cases hkept
    show (s.discovery.settle n _).slot = none
    rw [Handle.settle_of_not_pending _ hidle, hslot]

theorem good_step (s : OidcService) (a : Label) (hinv : s.Inv) :
    (s.step a).discovery.Good ↔ s.discovery.Good ∧ s.StepOk a := by
  cases a with
  | call c =>
    rw [step_call, StepOk, and_true]
    by_cases hu : s.unconfigured = true
    · rw [if_pos hu]
    · rw [if_neg hu]
      exact Handle.good_get
  | settle n r =>
    rw [StepOk, ← Oidc.fetchDiscoveryDocument_clean (s.issuer.getD "")]
    exact Handle.good_settle hinv.handle n _

theorem forgets_iff_good {s : OidcService} (hinv : s.Inv) : s.Forgets ↔ s.discovery.Good := by
  have hget := Handle.forgets_get_iff_good hinv.handle
    (Oidc.fetchDiscoveryDocument (s.issuer.getD ""))
  by_cases hu : s.unconfigured = true
  · refine iff_of_true (fun c s' n hcall => ?_)
      (Handle.good_of_slot_none (hinv.slot_of_unconfigured hu))
    rw [call_eq, if_pos hu] at hcall
    cases hcall
  · rw [← hget]
    refine ⟨fun hforgets => ?_, fun hforgets c s' n hcall => ?_⟩
    · exact hforgets .getDiscoveryDocument s.await.1 s.await.2 (by rw [call_eq, if_neg hu])
    · rw [call_eq, if_neg hu] at hcall
      cases hcall
      exact hforgets

end OidcService

/-! ## The connection to Temporal -/

/-- `TemporalClientService`: the promises its field `connectionPromise` has held. -/
structure TemporalClientService (Error Connection : Type) where
  connectionPromise : Handle Error Connection := {}

namespace TemporalClientService

variable {Error Connection : Type}

/-- Up to the `await` of the promise returned, as `getClient` and `checkConnectivity` do. -/
def getConnection (s : TemporalClientService Error Connection) :
    TemporalClientService Error Connection × Nat :=
  (⟨s.connectionPromise.get.1⟩, s.connectionPromise.get.2)

/-- `Connection.connect` ends: nothing watches the promise to empty the field. -/
def connect (result : Except Error Connection) : Ending Error Connection := ⟨result, false⟩

inductive Label (Error Connection : Type) where
  | getConnection
  | settle (n : Nat) (result : Except Error Connection)

def step (s : TemporalClientService Error Connection) :
    Label Error Connection → TemporalClientService Error Connection
  | .getConnection => s.getConnection.1
  | .settle n result => ⟨s.connectionPromise.settle n (connect result)⟩

/-- A call made in this state forgets the attempts that have failed. -/
def Forgets (s : TemporalClientService Error Connection) : Prop :=
  s.connectionPromise.Forgets s.getConnection.1.connectionPromise s.getConnection.2 connect

/-- An attempt under way does not fail. -/
def StepOk (s : TemporalClientService Error Connection) : Label Error Connection → Prop
  | .getConnection => True
  | .settle n result => s.connectionPromise.Pending n → ∃ connection, result = .ok connection

def new : TemporalClientService Error Connection := {}

theorem connect_clean (result : Except Error Connection) :
    (connect result).Clean ↔ ∃ connection, result = .ok connection := by
  cases result with
  | ok connection => exact iff_of_true (fun _ herror => by cases herror) ⟨connection, rfl⟩
  | error e =>
    refine iff_of_false (fun hclean => ?_) (fun ⟨_, hok⟩ => by cases hok)
    cases hclean e rfl

theorem inv_new : (new : TemporalClientService Error Connection).connectionPromise.Inv :=
  Handle.inv_empty

theorem inv_step (s : TemporalClientService Error Connection) (a : Label Error Connection)
    (hinv : s.connectionPromise.Inv) : (s.step a).connectionPromise.Inv := by
  cases a with
  | getConnection => exact hinv.get
  | settle n result => exact hinv.settle n _

theorem good_step (s : TemporalClientService Error Connection) (a : Label Error Connection)
    (hinv : s.connectionPromise.Inv) :
    (s.step a).connectionPromise.Good ↔ s.connectionPromise.Good ∧ s.StepOk a := by
  cases a with
  | getConnection =>
    rw [StepOk, and_true]
    exact Handle.good_get
  | settle n result =>
    rw [StepOk, ← connect_clean]
    exact Handle.good_settle hinv n _

end TemporalClientService

/-! ## Runs -/

/-- In every run of the calls and the attempts' endings, every call forgets the failures before it
just if none of the attempts ends in a failure that leaves the field as it is: for the discovery
document one thrown by what the fetch calls, for the connection any. -/
theorem failures_forgotten_iff {Error Connection : Type} (issuer audience : Option String)
    (run : List OidcService.Label)
    (connectRun : List (TemporalClientService.Label Error Connection)) :
    ((∀ before after, run = before ++ after →
        (exec OidcService.step (.new issuer audience) before).Forgets) ↔
      AllSteps OidcService.step OidcService.StepOk (.new issuer audience) run) ∧
    ((∀ before after, connectRun = before ++ after →
        (exec TemporalClientService.step .new before).Forgets) ↔
      AllSteps TemporalClientService.step TemporalClientService.StepOk .new connectRun) := by
  constructor
  · have hinv := OidcService.inv_new issuer audience
    have hstep : ∀ s a, s.Inv → (OidcService.step s a).Inv := fun s a h => h.step a
    rw [← forall_before_iff_allSteps (P := fun s => s.discovery.Good) hstep
      OidcService.good_step hinv (Handle.good_of_slot_none rfl) run]
    have hforgets := fun before =>
      OidcService.forgets_iff_good (exec_inv hstep hinv before)
    simp only [hforgets]
  · have hinv :
        (TemporalClientService.new : TemporalClientService Error Connection).connectionPromise.Inv :=
      TemporalClientService.inv_new
    rw [← forall_before_iff_allSteps (P := fun s => s.connectionPromise.Good)
      TemporalClientService.inv_step TemporalClientService.good_step hinv
      (Handle.good_of_slot_none rfl) connectRun]
    have hforgets := fun before => Handle.forgets_get_iff_good
      (exec_inv TemporalClientService.inv_step hinv before) TemporalClientService.connect
    simp only [TemporalClientService.Forgets, TemporalClientService.getConnection, hforgets]

/-- One failed fetch, and one failed connect: the calls after them get those failures, though all
attempts have failed. -/
theorem outage_remembered :
    ¬ (exec OidcService.step (.new (some "https://issuer") (some "console"))
        [.call .verifyToken, .settle 0 (.networkError "ECONNREFUSED")]).Forgets ∧
    ¬ (exec TemporalClientService.step (.new : TemporalClientService String Unit)
        [.getConnection, .settle 0 (.error "ECONNREFUSED")]).Forgets := by
  constructor
  · intro hforgets
    exact (hforgets .verifyToken _ 0 rfl).1 "ECONNREFUSED" rfl
  · intro hforgets
    exact hforgets.1 "ECONNREFUSED" rfl

end MortgageAgent
