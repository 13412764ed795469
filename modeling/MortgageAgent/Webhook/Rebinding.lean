import MortgageAgent.Webhook.FanOut
import MortgageAgent.Webhook.UrlGuard

/-!
# Deliveries and the resolver

An attempt resolves the host of its target twice: the guard to check the addresses, and `fetch` to
connect. A resolver may answer the two lookups differently.

* **`NetLabel`** / **`netStep`** — the steps of the webhook system with the answers of the resolver
  and of the receiver in place of what the guard and `fetch` make of them.
* **`exec_netStep`** — every run of it is a run of the webhook system.
* **`opened`** — the addresses `fetch` may connect to in a step.
* **`Rebound`** — the guard's lookup answers addresses that are not blocked, and the lookup of
  `fetch` one that is.
* **`no_blocked_connection_iff`** — in staging and production, a run connects to no blocked address
  exactly if no attempt is rebound.

`rebinding_connects_to_blocked` has an endpoint accepted for a public address and a delivery
sent to a link-local one.
-/

namespace MortgageAgent.Webhook

open Runs

structure NetDeps extends Deps where
  /-- `new URL` -/
  parseUrl : String → Option Url
  /-- `NODE_ENV`, if it is set -/
  nodeEnv : Option NodeEnvironment

def NetDeps.allowLoopbackForSandbox (deps : NetDeps) : Bool :=
  isSandboxEnvironment (deps.nodeEnv.getD .development)

/-- What one attempt meets: the guard's lookup, the lookup of `fetch`, and what `fetch` comes back
with. -/
structure AttemptNet where
  guardLookup : Lookup
  fetchLookup : Lookup
  fetched : Except String Nat

def guard (deps : NetDeps) (targetUrl : String) (lookup : Lookup) : Except GuardFailure Unit :=
  assertPublicWebhookTarget deps.parseUrl targetUrl deps.allowLoopbackForSandbox lookup

/-- The `try` block of an attempt: the guard, and then `fetch`. -/
def guardThenFetch (deps : NetDeps) (targetUrl : String) (net : AttemptNet) : PostAnswer :=
  match guard deps targetUrl net.guardLookup with
  | .error failure => .refused failure.message
  | .ok _ =>
    match net.fetched with
    | .error message => .failed message
    | .ok httpStatusCode => .responded httpStatusCode

/-- The addresses `fetch` may connect to, for what its own lookup answers. It follows no
redirect. -/
def fetchAddresses (deps : NetDeps) (targetUrl : String) (lookup : Lookup) : List String :=
  match deps.parseUrl targetUrl with
  | none => []
  | some url =>
    match url.addresses lookup with
    | .error _ => []
    | .ok addresses => if url.fetchable then addresses else []

/-- The addresses an attempt may connect to. -/
def attemptAddresses (deps : NetDeps) (targetUrl : String) (net : AttemptNet) : List String :=
  match guard deps targetUrl net.guardLookup with
  | .error _ => []
  | .ok _ => fetchAddresses deps targetUrl net.fetchLookup

/-! ## The steps -/

inductive NetLabel where
  | append (event : OutboxEvent)
  /-- a call of the endpoint service, with the lookup of its guard -/
  | call (c : Nat) (edit : EditCall) (lookup : Lookup)
  | edit (c : Nat) (env : EditEnv)
  | editFails (c : Nat)
  | reserve (tenantId endpointId : Uuid) (now : Instant)
  | start (now : Instant)
  | dispatch (e : Nat) (newId : Uuid) (scanOrder : Uuid → Nat) (net : AttemptNet)
  | stop (e : Nat)

/-- What `assertSafeTarget` says of the target of a call. -/
def callBlocked (deps : NetDeps) (call : EditCall) (lookup : Lookup) : Option String :=
  call.checkedTarget.bind fun targetUrl =>
    match guard deps targetUrl lookup with
    | .error failure => some failure.message
    | .ok _ => none

/-- The target the next statement sends to. -/
def DispatchState.target? : DispatchState → Option String
  | .posting _ _ _ endpoint _ => some endpoint.targetUrl
  | _ => none

/-- The answer of the attempt, if the next statement is one. -/
def answerOf (deps : NetDeps) (state : DispatchState) (net : AttemptNet) : PostAnswer :=
  match state.target? with
  | some targetUrl => guardThenFetch deps targetUrl net
  | none => .failed ""

def NetLabel.toLabel (deps : NetDeps) (s : System) : NetLabel → Label
  | .append event => .append event
  | .call c editCall lookup => .endpoint (.start c editCall (callBlocked deps editCall lookup))
  | .edit c env => .endpoint (.edit c env)
  | .editFails c => .endpoint (.editFails c)
  | .reserve tenantId endpointId now => .endpoint (.reserve tenantId endpointId now)
  | .start now => .start now
  | .dispatch e newId scanOrder net =>
    .dispatch e
      { newId := newId, scanOrder := scanOrder, answer := answerOf deps (s.dispatches e) net }
  | .stop e => .stop e

def netStep (deps : NetDeps) (s : System) (a : NetLabel) : System :=
  step deps.toDeps s (a.toLabel deps s)

/-- **A run with a resolver is a run of the webhook system**, with the answers that follow. -/
theorem exec_netStep (deps : NetDeps) (s : System) (run : List NetLabel) :
    ∃ labels, exec (netStep deps) s run = exec (step deps.toDeps) s labels := by
  induction run generalizing s with
  | nil => exact ⟨[], rfl⟩
  | cons a run ih =>
    obtain ⟨labels, hlabels⟩ := ih (netStep deps s a)
    refine ⟨a.toLabel deps s :: labels, ?_⟩
    rw [exec_cons, exec_cons, hlabels]
    rfl

/-! ## Connections -/

/-- The addresses a step may connect to. -/
def opened (deps : NetDeps) (s : System) : NetLabel → List String
  | .dispatch e _ _ net =>
    match (s.dispatches e).target? with
    | some targetUrl => attemptAddresses deps targetUrl net
    | none => []
  | _ => []

def NoBlockedConnection (deps : NetDeps) (s : System) (a : NetLabel) : Prop :=
  ∀ address ∈ opened deps s a, isBlockedAddress address ≠ some true

/-- The guard's lookup of a name answers addresses that are not blocked, and the lookup of `fetch`
one that is. -/
def ReboundTarget (deps : NetDeps) (targetUrl : String) (net : AttemptNet) : Prop :=
  ∃ url checked answered, deps.parseUrl targetUrl = some url
    ∧ (url.protocol = "http:" ∨ url.protocol = "https:") ∧ url.fetchable = true
    ∧ url.isLiteral = false
    ∧ net.guardLookup = .ok checked ∧ checked ≠ []
    ∧ (∀ address ∈ checked, isBlockedAddress address = some false)
    ∧ net.fetchLookup = .ok answered ∧ ∃ address ∈ answered, isBlockedAddress address = some true

def Rebound (deps : NetDeps) (s : System) : NetLabel → Prop
  | .dispatch e _ _ net =>
    ∃ targetUrl, (s.dispatches e).target? = some targetUrl ∧ ReboundTarget deps targetUrl net
  | _ => False

theorem mem_fetchAddresses {deps : NetDeps} {targetUrl : String} {lookup : Lookup}
    {address : String} :
    address ∈ fetchAddresses deps targetUrl lookup ↔
      ∃ url addresses, deps.parseUrl targetUrl = some url ∧ url.fetchable = true
        ∧ url.addresses lookup = .ok addresses ∧ address ∈ addresses := by
  unfold fetchAddresses
  constructor
  · intro h
    split at h
    · cases h
    · next url hparse =>
      split at h
      · cases h
      · next addresses haddresses =>
        split at h
        · next hfetchable => exact ⟨url, addresses, hparse, hfetchable, haddresses, h⟩
        · cases h
  · rintro ⟨url, addresses, hparse, hfetchable, haddresses, hmem⟩
    rw [hparse]
    dsimp only
    rw [haddresses]
    dsimp only
    rw [if_pos hfetchable]
    exact hmem

theorem mem_attemptAddresses {deps : NetDeps} {targetUrl : String} {net : AttemptNet}
    {address : String} :
    address ∈ attemptAddresses deps targetUrl net ↔
      guard deps targetUrl net.guardLookup = .ok ()
        ∧ address ∈ fetchAddresses deps targetUrl net.fetchLookup := by
  unfold attemptAddresses
  cases hguard : guard deps targetUrl net.guardLookup with
  | error failure => simp
  | ok checked => simp

/-- **An attempt may connect to a blocked address exactly if it is rebound.** A literal host is
the address that the guard has checked. -/
theorem blocked_attempt_iff {deps : NetDeps} (hsandbox : deps.allowLoopbackForSandbox = false)
    {targetUrl : String} {net : AttemptNet} :
    (∃ address ∈ attemptAddresses deps targetUrl net, isBlockedAddress address = some true) ↔
      ReboundTarget deps targetUrl net := by
  constructor
  · rintro ⟨address, hmem, hblocked⟩
    obtain ⟨hguard, hfetch⟩ := mem_attemptAddresses.mp hmem
    obtain ⟨url, answered, hparse, hfetchable, hanswered, haddress⟩ := mem_fetchAddresses.mp hfetch
    rw [guard, hsandbox, assertPublicWebhookTarget_ok_iff] at hguard
    obtain ⟨url', checked, hparse', hprotocol, hchecked, hne, hall⟩ := hguard
    rw [hparse] at hparse'
    cases hparse'
    cases hliteral : url.isLiteral with
    | true =>
      -- both look at the literal.
      rw [Url.addresses, if_pos hliteral] at hchecked hanswered
      cases hchecked
      cases hanswered
      rw [hall address haddress] at hblocked
      cases hblocked
    | false =>
      have hlookup : ∀ lookup, url.addresses lookup = lookup := fun lookup => by
        rw [Url.addresses, hliteral, if_neg Bool.false_ne_true]
      rw [hlookup] at hchecked hanswered
      exact ⟨url, checked, answered, hparse, hprotocol, hfetchable, hliteral, hchecked, hne, hall,
        hanswered, address, haddress, hblocked⟩
  · rintro ⟨url, checked, answered, hparse, hprotocol, hfetchable, hliteral, hchecked, hne, hall,
      hanswered, address, haddress, hblocked⟩
    have hlookup : ∀ lookup, url.addresses lookup = lookup := fun lookup => by
      rw [Url.addresses, hliteral, if_neg Bool.false_ne_true]
    refine ⟨address, mem_attemptAddresses.mpr ⟨?_, ?_⟩, hblocked⟩
    · rw [guard, hsandbox, assertPublicWebhookTarget_ok_iff]
      exact ⟨url, checked, hparse, hprotocol, (hlookup _).trans hchecked, hne, hall⟩
    · exact mem_fetchAddresses.mpr
        ⟨url, answered, hparse, hfetchable, (hlookup _).trans hanswered, haddress⟩

theorem noBlockedConnection_iff {deps : NetDeps} (hsandbox : deps.allowLoopbackForSandbox = false)
    (s : System) (a : NetLabel) : NoBlockedConnection deps s a ↔ ¬ Rebound deps s a := by
  have hnone : ∀ addresses : List String, (∀ address ∈ addresses, isBlockedAddress address ≠ some true)
      ↔ ¬ ∃ address ∈ addresses, isBlockedAddress address = some true := by
    intro addresses
    simp
  rw [NoBlockedConnection, hnone]
  refine not_congr ?_
  cases a with
  | dispatch e newId scanOrder net =>
    rw [opened, Rebound]
    cases htarget : (s.dispatches e).target? with
    | none => simp
    | some targetUrl =>
      dsimp only
      rw [blocked_attempt_iff hsandbox]
      simp
  | _ => simp [opened, Rebound]

/-- `fetch` is answered no address that the guard was not answered. -/
def NetLabel.Pinned : NetLabel → Prop
  | .dispatch _ _ _ net => ∀ checked answered, net.guardLookup = .ok checked →
      net.fetchLookup = .ok answered → answered ⊆ checked
  | _ => True

/-- **Where the two lookups agree, no attempt is rebound.** -/
theorem not_rebound_of_pinned {deps : NetDeps} {s : System} {a : NetLabel} (hpinned : a.Pinned) :
    ¬ Rebound deps s a := by
  cases a with
  | dispatch e newId scanOrder net =>
    rintro ⟨targetUrl, -, url, checked, answered, -, -, -, -, hchecked, -, hall, hanswered, address,
      haddress, hblocked⟩
    have hmem := hpinned checked answered hchecked hanswered haddress
    rw [hall address hmem] at hblocked
    cases hblocked
  | _ => exact id

/-- **When deliveries stay off blocked addresses.** In staging and production, for any endpoints, any
answers of the resolver to every lookup, and any order of calls and executions: no attempt may
connect to a blocked address exactly if none is rebound between the guard's lookup and the one of
`fetch`. -/
theorem no_blocked_connection_iff (deps : NetDeps) (endpoints : Endpoints) (run : List NetLabel)
    (hnodeEnv : deps.nodeEnv = some .staging ∨ deps.nodeEnv = some .production) :
    AllSteps (netStep deps) (NoBlockedConnection deps) (.init endpoints) run ↔
      AllSteps (netStep deps) (fun s a => ¬ Rebound deps s a) (.init endpoints) run := by
  have hsandbox : deps.allowLoopbackForSandbox = false := by
    rw [NetDeps.allowLoopbackForSandbox]
    rcases hnodeEnv with henv | henv <;> rw [henv] <;> rfl
  constructor
  · exact AllSteps.imp fun s a => (noBlockedConnection_iff hsandbox s a).mp
  · exact AllSteps.imp fun s a => (noBlockedConnection_iff hsandbox s a).mpr

/-! ### A partner and its resolver -/

/-- In production, for the one URL that occurs. -/
def partnerDeps : NetDeps where
  toDeps := sampleDeps
  parseUrl targetUrl :=
    if targetUrl = partnerEndpoint.targetUrl then
      some { protocol := "https:", hostname := "partner.example.com", fetchable := true }
    else none
  nodeEnv := some .production

def publicAnswer : Lookup := .ok ["93.184.216.34"]

/-- The receiver answers 200, and the lookup of `fetch` what is given. -/
def partnerNet (fetchLookup : Lookup) : AttemptNet where
  guardLookup := publicAnswer
  fetchLookup := fetchLookup
  fetched := .ok 200

def partnerDto : CreateWebhookEndpointDto where
  targetUrl := partnerEndpoint.targetUrl
  eventTypes := ["loan_case.created"]

/-- The partner registers its endpoint, an event is fanned out to it, and the delivery is
attempted. -/
def partnerRun (fetchLookup : Lookup) : List NetLabel :=
  [.call 0 (.create 9 partnerDto) publicAnswer, .edit 0 { newId := 1, secret := "00ff" },
    .append caseCreated, .start 1786795200000]
    ++ List.replicate 11 (.dispatch 0 20 id (partnerNet fetchLookup))

theorem no_blocked_connection_partner :
    AllSteps (netStep partnerDeps) (NoBlockedConnection partnerDeps) (.init .empty)
      (partnerRun publicAnswer) := by
  refine (no_blocked_connection_iff partnerDeps .empty (partnerRun publicAnswer)
    (Or.inr rfl)).mpr ?_
  have hpinned : ∀ a ∈ partnerRun publicAnswer, a.Pinned := by
    intro a ha
    rcases List.mem_append.mp ha with hbefore | hdispatch
    · simp only [List.mem_cons, List.not_mem_nil, or_false] at hbefore
      rcases hbefore with rfl | rfl | rfl | rfl <;> trivial
    · rw [List.eq_of_mem_replicate hdispatch]
      intro checked answered hchecked hanswered
      cases hchecked
      cases hanswered
      exact List.Subset.refl _
  exact (AllSteps.of_labels hpinned).imp fun s a => not_rebound_of_pinned

instance (deps : NetDeps) (s : System) (a : NetLabel) : Decidable (NoBlockedConnection deps s a) := by
  unfold NoBlockedConnection
  infer_instance

/-- **A rebinding resolver has the delivery sent to a link-local address.** The partner's host is
public when the endpoint is registered and when the guard looks, and not when `fetch` does. -/
theorem rebinding_connects_to_blocked :
    ¬ ∀ (deps : NetDeps) (endpoints : Endpoints) (run : List NetLabel),
      deps.nodeEnv = some .staging ∨ deps.nodeEnv = some .production →
      AllSteps (netStep deps) (NoBlockedConnection deps) (.init endpoints) run := by
  intro h
  have hrun := h partnerDeps .empty (partnerRun (.ok ["169.254.169.254"])) (Or.inr rfl)
  revert hrun
  decide

end MortgageAgent.Webhook
