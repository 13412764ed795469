import MortgageAgent.Canonical
import MortgageAgent.Lib.Run
import MortgageAgent.Provider.Dispatch

/-!
# Governed promotion

A provider leaves the simulator through `ProviderPromotionService`: a manifest is proposed,
certified for an environment, approved by somebody else, and activated. Certifications and
approvals are append-only, and only the latest decision counts; an activation is one row per
provider, capability and mode, which `activate` and `deactivate` update in place.

* **`Catalog`** — the four tables, and **`perform`** — one call over them.
* **`Governed`** — the two gates as they stand at an instant.
* **`promotion_governed`** — over every sequence of calls, a row becomes active only through both
  gates, and a tuple is activated only from such a step to its next deactivation.
-/

namespace MortgageAgent.Promotion

open Provider Runs

/-! ## Rows -/

abbrev Tuple := String × ProviderCapability × ProviderMode

/-- `provider_promotion_manifests`; never updated. -/
structure ProviderPromotionManifest where
  id : Uuid
  providerId : String
  capability : ProviderCapability
  mode : ProviderMode
  version : Int
  adapterVersion : String
  endpointAllowlist : List String
  dataClassifications : List String
  contentHash : String
  proposedBy : String
  validFrom : Instant
  validUntil : Option Instant
  declaredCommandClass : Option String
  deriving DecidableEq, Repr

def ProviderPromotionManifest.tuple (m : ProviderPromotionManifest) : Tuple :=
  (m.providerId, m.capability, m.mode)

inductive ProviderCertificationDecision where
  | PASSED
  | FAILED
  | REVOKED
  deriving DecidableEq, Repr

inductive ProviderApprovalDecision where
  | APPROVED
  | REJECTED
  | REVOKED
  deriving DecidableEq, Repr

/-- `provider_certification_records`; never updated. -/
structure ProviderCertificationRecord where
  id : Uuid
  manifestId : Uuid
  environment : String
  certifiedBy : String
  decision : ProviderCertificationDecision
  evidenceRef : String
  decidedAt : Instant
  expiresAt : Option Instant
  deriving DecidableEq, Repr

/-- `provider_approval_records`; never updated. -/
structure ProviderApprovalRecord where
  id : Uuid
  manifestId : Uuid
  approvalRole : String
  approvedBy : String
  decision : ProviderApprovalDecision
  decidedAt : Instant
  expiresAt : Option Instant
  deriving DecidableEq, Repr

/-- `provider_activations`: the whole row, of which a dispatch reads the tuple and the state. -/
structure ProviderActivation where
  id : Uuid
  providerId : String
  capability : ProviderCapability
  mode : ProviderMode
  manifestId : Uuid
  manifestVersion : Int
  state : ProviderActivationState
  activatedBy : String
  deriving DecidableEq, Repr

def ProviderActivation.tuple (a : ProviderActivation) : Tuple :=
  (a.providerId, a.capability, a.mode)

/-- The tables of the promotion chain. `UQ_provider_activations_tuple` is the key of the last. -/
structure Catalog where
  manifests : Table ProviderPromotionManifest ProviderPromotionManifest.id
  certifications : Table ProviderCertificationRecord ProviderCertificationRecord.id
  approvals : Table ProviderApprovalRecord ProviderApprovalRecord.id
  activations : Table ProviderActivation ProviderActivation.tuple
  deriving DecidableEq

def Catalog.empty : Catalog where
  manifests := .empty
  certifications := .empty
  approvals := .empty
  activations := .empty

/-! ## Failures -/

/-- `EntityNotFoundError`, with the criteria as `JSON.stringify(criteria, null, 4)` writes them. -/
def entityNotFound (entity : String) (criteria : List (String × String)) : ProviderFailure :=
  .notFound ("Could not find any entity of type \"" ++ entity ++ "\" matching: \x7b\n"
    ++ ",\n".intercalate (criteria.map fun p => "    " ++ Json.quote p.1 ++ ": " ++ Json.quote p.2)
    ++ "\n\x7d")

def Catalog.manifest (c : Catalog) (manifestId : Uuid) :
    Except ProviderFailure ProviderPromotionManifest :=
  match c.manifests.find manifestId with
  | none => .error (entityNotFound "ProviderPromotionManifest" [("id", toString manifestId)])
  | some m => .ok m

/-- An insert under a primary key that is drawn; a key that is taken fails it. -/
def inserted {ρ κ : Type} [DecidableEq κ] {key : ρ → κ} (t : Table ρ key) (r : ρ) :
    Except ProviderFailure (Table ρ key) :=
  match t.insert r with
  | none => .error (.database .uniqueViolation)
  | some t' => .ok t'

/-! ## `propose`, `certify` and `approve` -/

structure ProposeManifestInput where
  providerId : String
  capability : ProviderCapability
  mode : ProviderMode
  adapterVersion : String
  endpointAllowlist : List String
  dataClassifications : List String
  proposedBy : String
  validFrom : Option Instant := none
  validUntil : Option Instant := none
  declaredCommandClass : Option String := none

/-- The highest version of the tuple. -/
def latestVersion (c : Catalog) (tuple : Tuple) : Option Int :=
  (((c.manifests.rows.filter fun m => m.tuple = tuple).insertionSort
    fun a b => b.version ≤ a.version).head?).map (·.version)

section
variable (sha256 : String → List UInt8)

def newManifest (c : Catalog) (env : Env) (input : ProposeManifestInput) :
    ProviderPromotionManifest where
  id := env.newId
  providerId := input.providerId
  capability := input.capability
  mode := input.mode
  version := (latestVersion c (input.providerId, input.capability, input.mode)).getD 0 + 1
  adapterVersion := input.adapterVersion
  endpointAllowlist := input.endpointAllowlist
  dataClassifications := input.dataClassifications
  contentHash := PolicyDigest.computeDigest sha256 (.obj [
    ("providerId", .str input.providerId),
    ("capability", .str input.capability.text),
    ("mode", .str input.mode.text),
    ("adapterVersion", .str input.adapterVersion),
    ("endpointAllowlist", .arr (input.endpointAllowlist.map .str)),
    ("dataClassifications", .arr (input.dataClassifications.map .str))])
  proposedBy := input.proposedBy
  validFrom := input.validFrom.getD env.processNow
  validUntil := input.validUntil
  declaredCommandClass := input.declaredCommandClass

def propose (c : Catalog) (env : Env) (input : ProposeManifestInput) :
    Except ProviderFailure Catalog := do
  assertNotStructurallyExcluded "provider_promotion_manifest"
    (input.providerId ++ "/" ++ input.capability.text ++ "/" ++ input.mode.text)
    input.declaredCommandClass
  let manifests ← inserted c.manifests (newManifest sha256 c env input)
  return { c with manifests }

end

def certify (c : Catalog) (env : Env) (manifestId : Uuid) (environment certifiedBy : String)
    (decision : ProviderCertificationDecision) (evidenceRef : String)
    (expiresAt : Option Instant) : Except ProviderFailure Catalog := do
  let _ ← c.manifest manifestId
  let certifications ← inserted c.certifications {
    id := env.newId
    manifestId, environment, certifiedBy, decision, evidenceRef
    decidedAt := env.dbNow
    expiresAt }
  return { c with certifications }

/-- Only an approval of one's own proposal is refused; one's own rejection is not. -/
def approve (c : Catalog) (env : Env) (manifestId : Uuid) (approvalRole approvedBy : String)
    (decision : ProviderApprovalDecision) (expiresAt : Option Instant) :
    Except ProviderFailure Catalog := do
  let manifest ← c.manifest manifestId
  if decision = .APPROVED ∧ manifest.proposedBy = approvedBy then
    throw (.badRequest
      "self-approval is not permitted: the approver must differ from the proposer")
  let approvals ← inserted c.approvals {
    id := env.newId
    manifestId, approvalRole, approvedBy, decision
    decidedAt := env.dbNow
    expiresAt }
  return { c with approvals }

/-! ## `activate` -/

def isExpired (expiresAt : Option Instant) (now : Instant) : Bool := expiresAt.any (· < now)

/-- `ORDER BY "decidedAt" DESC LIMIT 1`. -/
def latestDecision {ρ : Type} (decidedAt : ρ → Instant) (rows : List ρ) : Option ρ :=
  (rows.insertionSort fun a b => decidedAt b ≤ decidedAt a).head?

def latestCertification (c : Catalog) (manifestId : Uuid) (environment : String) :
    Option ProviderCertificationRecord :=
  latestDecision (·.decidedAt) (c.certifications.rows.filter fun r =>
    r.manifestId = manifestId && r.environment = environment)

def latestApproval (c : Catalog) (manifestId : Uuid) : Option ProviderApprovalRecord :=
  latestDecision (·.decidedAt) (c.approvals.rows.filter fun r => r.manifestId = manifestId)

def requireCertified (c : Catalog) (now : Instant) (manifestId : Uuid) (environment : String) :
    Except ProviderFailure Unit :=
  match latestCertification c manifestId environment with
  | some certified =>
    if certified.decision ≠ .PASSED ∨ isExpired certified.expiresAt now then
      .error (notCertified manifestId environment)
    else .ok ()
  | none => .error (notCertified manifestId environment)
where
  notCertified (manifestId : Uuid) (environment : String) : ProviderFailure :=
    .badRequest ("manifest " ++ toString manifestId
      ++ " has no current PASSED, unexpired certification for environment \"" ++ environment
      ++ "\"")

def requireApproved (c : Catalog) (now : Instant) (manifestId : Uuid) :
    Except ProviderFailure Unit :=
  match latestApproval c manifestId with
  | some approved =>
    if approved.decision ≠ .APPROVED ∨ isExpired approved.expiresAt now then
      .error (notApproved manifestId)
    else .ok ()
  | none => .error (notApproved manifestId)
where
  notApproved (manifestId : Uuid) : ProviderFailure :=
    .badRequest ("manifest " ++ toString manifestId ++ " has no current APPROVED, unexpired approval")

/-- A number or `null`, as a template string writes it. -/
def versionText : Option Int → String
  | none => "null"
  | some v => toString v

/-- The optimistic lock: reads the row of the tuple and compares its version with the expected
one. -/
def requireVersion (c : Catalog) (manifest : ProviderPromotionManifest)
    (expectedCurrentManifestVersion : Option Int) :
    Except ProviderFailure (Option ProviderActivation) :=
  let existing := c.activations.find manifest.tuple
  let currentVersion := existing.map (·.manifestVersion)
  if expectedCurrentManifestVersion ≠ currentVersion then
    .error (.badRequest ("activation for " ++ manifest.providerId ++ "/" ++ manifest.capability.text
      ++ "/" ++ manifest.mode.text ++ " has moved (expected current manifest version "
      ++ versionText expectedCurrentManifestVersion ++ ", actual " ++ versionText currentVersion
      ++ ") — reload and retry"))
  else .ok existing

/-- The entity that is saved: the columns of the row that was read, overwritten. -/
def activationOf (newId : Uuid) (manifest : ProviderPromotionManifest)
    (existing : Option ProviderActivation) (activatedBy : String) : ProviderActivation where
  id := (existing.map (·.id)).getD newId
  providerId := manifest.providerId
  capability := manifest.capability
  mode := manifest.mode
  manifestId := manifest.id
  manifestVersion := manifest.version
  state := .ACTIVE
  activatedBy

/-- `save`: an entity that carries the id of a row updates that row. One without an id is
inserted, and then the tuple must be free. -/
def saveActivation (c : Catalog) (existing : Option ProviderActivation)
    (entity : ProviderActivation) : Except ProviderFailure Catalog := do
  match existing, c.activations.find entity.tuple with
  | some read, some stored =>
    if stored.id = read.id then return { c with activations := c.activations.put entity }
    else throw (.database .uniqueViolation)
  | _, _ =>
    let activations ← inserted c.activations entity
    return { c with activations }

def activate (c : Catalog) (env : Env) (manifestId : Uuid) (environment activatedBy : String)
    (expectedCurrentManifestVersion : Option Int) : Except ProviderFailure Catalog := do
  let manifest ← c.manifest manifestId
  requireCertified c env.processNow manifestId environment
  requireApproved c env.processNow manifestId
  let existing ← requireVersion c manifest expectedCurrentManifestVersion
  saveActivation c existing (activationOf env.newId manifest existing activatedBy)

/-! ## `deactivate` and `isActivated` -/

def deactivate (c : Catalog) (providerId : String) (capability : ProviderCapability)
    (mode : ProviderMode) (actorId : String) : Except ProviderFailure Catalog :=
  match c.activations.find (providerId, capability, mode) with
  | none =>
    .error (entityNotFound "ProviderActivation" [("providerId", providerId),
      ("capability", capability.text), ("mode", mode.text)])
  | some existing =>
    .ok { c with activations :=
      c.activations.put { existing with state := .DEACTIVATED, activatedBy := actorId } }

def isActivated (c : Catalog) (tuple : Tuple) : Bool :=
  match c.activations.find tuple with
  | none => false
  | some row => row.state = .ACTIVE

/-- The part of a row that a dispatch reads. -/
def ProviderActivation.gate (a : ProviderActivation) : Provider.ProviderActivation where
  providerId := a.providerId
  capability := a.capability
  mode := a.mode
  state := a.state

/-- The dispatch gate and the promotion chain read one table. -/
theorem isActivated_gate {db : Db} {c : Catalog}
    (h : db.activations.rows = c.activations.rows.map ProviderActivation.gate)
    (providerId : String) (capability : ProviderCapability) (mode : ProviderMode) :
    Provider.isActivated db providerId capability mode
      = isActivated c (providerId, capability, mode) := by
  have hfind : db.activations.find (providerId, capability, mode)
      = (c.activations.find (providerId, capability, mode)).map ProviderActivation.gate := by
    rw [Table.find, h, List.find?_map]
    rfl
  rw [Provider.isActivated, isActivated, hfind]
  cases c.activations.find (providerId, capability, mode) <;> rfl

/-! ## Calls and runs -/

inductive Call where
  | propose (input : ProposeManifestInput)
  | certify (manifestId : Uuid) (environment certifiedBy : String)
      (decision : ProviderCertificationDecision) (evidenceRef : String)
      (expiresAt : Option Instant)
  | approve (manifestId : Uuid) (approvalRole approvedBy : String)
      (decision : ProviderApprovalDecision) (expiresAt : Option Instant)
  | activate (manifestId : Uuid) (environment activatedBy : String)
      (expectedCurrentManifestVersion : Option Int)
  | deactivate (providerId : String) (capability : ProviderCapability) (mode : ProviderMode)
      (actorId : String)

def perform (sha256 : String → List UInt8) (c : Catalog) (env : Env) :
    Call → Except ProviderFailure Catalog
  | .propose input => propose sha256 c env input
  | .certify manifestId environment certifiedBy decision evidenceRef expiresAt =>
    certify c env manifestId environment certifiedBy decision evidenceRef expiresAt
  | .approve manifestId approvalRole approvedBy decision expiresAt =>
    approve c env manifestId approvalRole approvedBy decision expiresAt
  | .activate manifestId environment activatedBy expectedCurrentManifestVersion =>
    activate c env manifestId environment activatedBy expectedCurrentManifestVersion
  | .deactivate providerId capability mode actorId => deactivate c providerId capability mode actorId

/-- A call, and the clocks and ids it runs under. -/
structure Label where
  call : Call
  env : Env

/-- One call; a call that throws writes nothing. -/
def step (sha256 : String → List UInt8) (c : Catalog) (a : Label) : Catalog :=
  match perform sha256 c a.env a.call with
  | .ok c' => c'
  | .error _ => c

/-! ## What each call does -/

theorem insert_of_inserted {ρ κ : Type} [DecidableEq κ] {key : ρ → κ} {t t' : Table ρ key} {r : ρ}
    (h : inserted t r = .ok t') : t.insert r = some t' := by
  unfold inserted at h
  split at h
  · cases h
  · rename_i t'' hinsert
    cases h
    exact hinsert

theorem find_of_manifest {c : Catalog} {manifestId : Uuid} {m : ProviderPromotionManifest}
    (h : c.manifest manifestId = .ok m) : c.manifests.find manifestId = some m := by
  unfold Catalog.manifest at h
  split at h
  · cases h
  · rename_i m' hfind
    cases h
    exact hfind

section
variable {c c' : Catalog} {env : Env}

theorem propose_ok {sha256 : String → List UInt8} {input : ProposeManifestInput}
    (h : propose sha256 c env input = .ok c') :
    ∃ manifests, c.manifests.insert (newManifest sha256 c env input) = some manifests
      ∧ c' = { c with manifests } := by
  obtain ⟨_, -, h⟩ := ok_of_bind_ok h
  obtain ⟨manifests, hinsert, h⟩ := ok_of_bind_ok h
  cases h
  exact ⟨manifests, insert_of_inserted hinsert, rfl⟩

theorem certify_ok {manifestId : Uuid} {environment certifiedBy : String}
    {decision : ProviderCertificationDecision} {evidenceRef : String} {expiresAt : Option Instant}
    (h : certify c env manifestId environment certifiedBy decision evidenceRef expiresAt = .ok c') :
    ∃ record certifications, record.manifestId = manifestId ∧ record.decidedAt = env.dbNow
      ∧ c.certifications.insert record = some certifications ∧ c' = { c with certifications } := by
  obtain ⟨_, -, h⟩ := ok_of_bind_ok h
  obtain ⟨certifications, hinsert, h⟩ := ok_of_bind_ok h
  cases h
  exact ⟨_, certifications, rfl, rfl, insert_of_inserted hinsert, rfl⟩

/-- An approval that is recorded is no self-approval. -/
theorem approve_ok {manifestId : Uuid} {approvalRole approvedBy : String}
    {decision : ProviderApprovalDecision} {expiresAt : Option Instant}
    (h : approve c env manifestId approvalRole approvedBy decision expiresAt = .ok c') :
    ∃ manifest record approvals, c.manifests.find manifestId = some manifest
      ∧ record.manifestId = manifestId ∧ record.decidedAt = env.dbNow
      ∧ (record.decision = .APPROVED → record.approvedBy ≠ manifest.proposedBy)
      ∧ c.approvals.insert record = some approvals ∧ c' = { c with approvals } := by
  obtain ⟨manifest, hmanifest, h⟩ := ok_of_bind_ok h
  split at h
  · cases h
  · rename_i hself
    obtain ⟨approvals, hinsert, h⟩ := ok_of_bind_ok h
    cases h
    refine ⟨manifest, _, approvals, find_of_manifest hmanifest, rfl, rfl, ?_,
      insert_of_inserted hinsert, rfl⟩
    intro hdecision hby
    exact hself ⟨hdecision, hby.symm⟩

/-- The two gates as they stand: the latest decisions, and what they say at `now`. -/
def GatesOpen (c : Catalog) (now : Instant) (manifestId : Uuid) (environment : String) : Prop :=
  (∃ certified, latestCertification c manifestId environment = some certified
      ∧ certified.decision = .PASSED ∧ isExpired certified.expiresAt now = false)
    ∧ ∃ approved, latestApproval c manifestId = some approved
      ∧ approved.decision = .APPROVED ∧ isExpired approved.expiresAt now = false

theorem certified_of_ok {now : Instant} {manifestId : Uuid} {environment : String}
    (h : requireCertified c now manifestId environment = .ok ()) :
    ∃ certified, latestCertification c manifestId environment = some certified
      ∧ certified.decision = .PASSED ∧ isExpired certified.expiresAt now = false := by
  unfold requireCertified at h
  split at h
  · rename_i certified hlatest
    split at h
    · cases h
    · rename_i hopen
      rw [not_or, not_not, Bool.not_eq_true] at hopen
      exact ⟨certified, hlatest, hopen.1, hopen.2⟩
  · cases h

theorem approved_of_ok {now : Instant} {manifestId : Uuid}
    (h : requireApproved c now manifestId = .ok ()) :
    ∃ approved, latestApproval c manifestId = some approved
      ∧ approved.decision = .APPROVED ∧ isExpired approved.expiresAt now = false := by
  unfold requireApproved at h
  split at h
  · rename_i approved hlatest
    split at h
    · cases h
    · rename_i hopen
      rw [not_or, not_not, Bool.not_eq_true] at hopen
      exact ⟨approved, hlatest, hopen.1, hopen.2⟩
  · cases h

/-- A save replaces the row of the tuple, or adds it; no other row moves. -/
structure Saved (c c' : Catalog) (entity : ProviderActivation) : Prop where
  manifests : c'.manifests = c.manifests
  certifications : c'.certifications = c.certifications
  approvals : c'.approvals = c.approvals
  mem : ∀ row, row ∈ c'.activations.rows
    ↔ row = entity ∨ (row ∈ c.activations.rows ∧ row.tuple ≠ entity.tuple)

/-- A row that is replaced under its own tuple is saved. -/
theorem saved_of_put {row entity : ProviderActivation}
    (hrow : c.activations.find entity.tuple = some row) :
    Saved c { c with activations := c.activations.put entity } entity where
  manifests := rfl
  certifications := rfl
  approvals := rfl
  mem := by
    intro x
    obtain ⟨hmem, hkey⟩ := c.activations.find_eq_some_iff.mp hrow
    exact c.activations.mem_put ⟨row, hmem, hkey⟩

/-- An insert under a free tuple is a save. -/
theorem saved_of_insert {entity : ProviderActivation}
    {activations : Table ProviderActivation ProviderActivation.tuple}
    (h : c.activations.insert entity = some activations) :
    Saved c { c with activations } entity where
  manifests := rfl
  certifications := rfl
  approvals := rfl
  mem := by
    intro row
    have hfresh := Table.key_fresh_of_insert h row
    show row ∈ activations.rows ↔ _
    rw [Table.rows_of_insert h, List.mem_append, List.mem_singleton]
    tauto

theorem saved_of_ok {existing : Option ProviderActivation} {entity : ProviderActivation}
    (h : saveActivation c existing entity = .ok c') : Saved c c' entity := by
  unfold saveActivation at h
  split at h
  · rename_i read stored hstored
    split at h
    · cases h
      exact saved_of_put hstored
    · cases h
  · obtain ⟨activations, hinsert, h⟩ := ok_of_bind_ok h
    cases h
    exact saved_of_insert (insert_of_inserted hinsert)

theorem activate_ok {manifestId : Uuid} {environment activatedBy : String}
    {expected : Option Int} (h : activate c env manifestId environment activatedBy expected = .ok c') :
    ∃ manifest, c.manifests.find manifestId = some manifest
      ∧ GatesOpen c env.processNow manifestId environment
      ∧ expected = (c.activations.find manifest.tuple).map (·.manifestVersion)
      ∧ Saved c c' (activationOf env.newId manifest (c.activations.find manifest.tuple) activatedBy) := by
  obtain ⟨manifest, hmanifest, h⟩ := ok_of_bind_ok h
  obtain ⟨_, hcertified, h⟩ := ok_of_bind_ok h
  obtain ⟨_, happroved, h⟩ := ok_of_bind_ok h
  obtain ⟨existing, hexisting, h⟩ := ok_of_bind_ok h
  refine ⟨manifest, find_of_manifest hmanifest,
    ⟨certified_of_ok hcertified, approved_of_ok happroved⟩, ?_⟩
  unfold requireVersion at hexisting
  simp only at hexisting
  split at hexisting
  · cases hexisting
  · rename_i hversion
    cases hexisting
    exact ⟨not_not.mp hversion, saved_of_ok h⟩

theorem deactivate_ok {providerId : String} {capability : ProviderCapability} {mode : ProviderMode}
    {actorId : String} (h : deactivate c providerId capability mode actorId = .ok c') :
    ∃ existing, c.activations.find (providerId, capability, mode) = some existing
      ∧ Saved c c' { existing with state := .DEACTIVATED, activatedBy := actorId } := by
  unfold deactivate at h
  split at h
  · cases h
  · rename_i existing hexisting
    cases h
    have htuple : existing.tuple = (providerId, capability, mode) :=
      (c.activations.find_eq_some_iff.mp hexisting).2
    rw [← htuple] at hexisting
    exact ⟨existing, by rwa [← htuple], saved_of_put hexisting⟩

end

/-! ## The latest decision -/

/-- The row that was decided last among those that meet `p`. -/
def IsLatest {ρ : Type} (decidedAt : ρ → Instant) (rows : List ρ) (p : ρ → Prop) (r : ρ) : Prop :=
  r ∈ rows ∧ p r ∧ ∀ r' ∈ rows, p r' → r' ≠ r → decidedAt r' < decidedAt r

theorem latestDecision_max {ρ : Type} {decidedAt : ρ → Instant} {rows : List ρ} {r : ρ}
    (h : latestDecision decidedAt rows = some r) :
    r ∈ rows ∧ ∀ r' ∈ rows, decidedAt r' ≤ decidedAt r := by
  have htotal : Std.Total fun a b : ρ => decidedAt b ≤ decidedAt a :=
    ⟨fun a b => Int.le_total (decidedAt b) (decidedAt a)⟩
  have htrans : IsTrans ρ fun a b => decidedAt b ≤ decidedAt a :=
    ⟨fun _ _ _ hab hbc => Int.le_trans hbc hab⟩
  obtain ⟨tail, hsorted⟩ := List.head?_eq_some_iff.mp h
  have hmem : ∀ x, x ∈ rows ↔ x ∈ r :: tail := by
    intro x
    rw [← hsorted, List.mem_insertionSort]
  have hpairwise := List.pairwise_insertionSort (fun a b : ρ => decidedAt b ≤ decidedAt a) rows
  rw [hsorted, List.pairwise_cons] at hpairwise
  refine ⟨(hmem r).mpr List.mem_cons_self, ?_⟩
  intro r' hr'
  rcases List.mem_cons.mp ((hmem r').mp hr') with rfl | htail
  · exact Int.le_refl _
  · exact hpairwise.1 r' htail

/-- Rows whose times tell them apart have one latest. -/
theorem isLatest_of_latestDecision {ρ : Type} {decidedAt : ρ → Instant} {rows : List ρ}
    {test : ρ → Bool} {p : ρ → Prop} (hp : ∀ r, test r = true ↔ p r) {r : ρ}
    (h : latestDecision decidedAt (rows.filter test) = some r)
    (hdistinct : ∀ a ∈ rows, ∀ b ∈ rows, p a → p b → decidedAt a = decidedAt b → a = b) :
    IsLatest decidedAt rows p r := by
  obtain ⟨hmem, hmax⟩ := latestDecision_max h
  rw [List.mem_filter, hp] at hmem
  refine ⟨hmem.1, hmem.2, ?_⟩
  intro r' hr' hpr' hne
  have hle := hmax r' (List.mem_filter.mpr ⟨hr', (hp r').mpr hpr'⟩)
  have hneq : decidedAt r' ≠ decidedAt r := by
    intro heq
    exact hne (hdistinct r' hr' r hmem.1 hpr' hmem.2 heq)
  exact lt_of_le_of_ne hle hneq

/-! ## The invariant -/

/-- The decisions on one manifest have times of their own, and no approval is a self-approval. -/
structure Lawful (c : Catalog) : Prop where
  certifications : ∀ a ∈ c.certifications.rows, ∀ b ∈ c.certifications.rows,
    a.manifestId = b.manifestId → a.decidedAt = b.decidedAt → a = b
  approvals : ∀ a ∈ c.approvals.rows, ∀ b ∈ c.approvals.rows,
    a.manifestId = b.manifestId → a.decidedAt = b.decidedAt → a = b
  independent : ∀ a ∈ c.approvals.rows, ∃ m, c.manifests.find a.manifestId = some m
    ∧ (a.decision = .APPROVED → a.approvedBy ≠ m.proposedBy)

/-- The database clock has moved since the last decision on the manifest. -/
def FreshDecision (c : Catalog) (a : Label) : Prop :=
  match a.call with
  | .certify manifestId .. =>
    ∀ r ∈ c.certifications.rows, r.manifestId = manifestId → r.decidedAt ≠ a.env.dbNow
  | .approve manifestId .. =>
    ∀ r ∈ c.approvals.rows, r.manifestId = manifestId → r.decidedAt ≠ a.env.dbNow
  | _ => True

/-- A new decision whose time is fresh keeps the decisions apart. -/
theorem distinct_append {ρ : Type} {manifestId : ρ → Uuid} {decidedAt : ρ → Instant}
    {rows : List ρ} {record : ρ}
    (hrows : ∀ a ∈ rows, ∀ b ∈ rows, manifestId a = manifestId b → decidedAt a = decidedAt b → a = b)
    (hfresh : ∀ r ∈ rows, manifestId r = manifestId record → decidedAt r ≠ decidedAt record) :
    ∀ a ∈ rows ++ [record], ∀ b ∈ rows ++ [record],
      manifestId a = manifestId b → decidedAt a = decidedAt b → a = b := by
  intro a ha b hb hid htime
  rw [List.mem_append, List.mem_singleton] at ha hb
  rcases ha with ha | rfl <;> rcases hb with hb | rfl
  · exact hrows a ha b hb hid htime
  · exact absurd htime (hfresh a ha hid)
  · exact absurd htime.symm (hfresh b hb hid.symm)
  · rfl

theorem lawful_empty : Lawful .empty := ⟨nofun, nofun, nofun⟩

/-- A save leaves the decisions alone. -/
theorem Lawful.saved {c c' : Catalog} {entity : ProviderActivation} (h : Lawful c)
    (hsaved : Saved c c' entity) : Lawful c' where
  certifications := by
    rw [hsaved.certifications]
    exact h.certifications
  approvals := by
    rw [hsaved.approvals]
    exact h.approvals
  independent := by
    rw [hsaved.approvals, hsaved.manifests]
    exact h.independent

theorem perform_lawful {sha256 : String → List UInt8} {c c' : Catalog} {a : Label}
    (hc : Lawful c) (hfresh : FreshDecision c a) (h : perform sha256 c a.env a.call = .ok c') :
    Lawful c' := by
  unfold FreshDecision at hfresh
  cases hcall : a.call with
  | propose input =>
    rw [hcall] at h
    obtain ⟨manifests, hinsert, rfl⟩ := propose_ok h
    refine ⟨hc.certifications, hc.approvals, ?_⟩
    intro r hr
    obtain ⟨m, hm, hself⟩ := hc.independent r hr
    exact ⟨m, Table.find_of_insert hinsert hm, hself⟩
  | certify manifestId environment certifiedBy decision evidenceRef expiresAt =>
    rw [hcall] at h hfresh
    obtain ⟨record, certifications, hid, htime, hinsert, rfl⟩ := certify_ok h
    refine ⟨?_, hc.approvals, hc.independent⟩
    show ∀ x ∈ certifications.rows, ∀ y ∈ certifications.rows, _
    rw [Table.rows_of_insert hinsert]
    exact distinct_append hc.certifications (by rw [hid, htime]; exact hfresh)
  | approve manifestId approvalRole approvedBy decision expiresAt =>
    rw [hcall] at h hfresh
    obtain ⟨m, record, approvals, hm, hid, htime, hself, hinsert, rfl⟩ := approve_ok h
    refine ⟨hc.certifications, ?_, ?_⟩
    · show ∀ x ∈ approvals.rows, ∀ y ∈ approvals.rows, _
      rw [Table.rows_of_insert hinsert]
      exact distinct_append hc.approvals (by rw [hid, htime]; exact hfresh)
    · intro r hr
      have hr : r ∈ c.approvals.rows ∨ r = record := by
        rw [← List.mem_singleton, ← List.mem_append, ← Table.rows_of_insert hinsert]
        exact hr
      rcases hr with hr | rfl
      · exact hc.independent r hr
      · exact ⟨m, by rw [hid]; exact hm, hself⟩
  | activate manifestId environment activatedBy expected =>
    rw [hcall] at h
    obtain ⟨m, -, -, -, hsaved⟩ := activate_ok h
    exact hc.saved hsaved
  | deactivate providerId capability mode actorId =>
    rw [hcall] at h
    obtain ⟨existing, -, hsaved⟩ := deactivate_ok h
    exact hc.saved hsaved

theorem step_lawful (sha256 : String → List UInt8) (c : Catalog) (a : Label) (hc : Lawful c)
    (hfresh : FreshDecision c a) : Lawful (step sha256 c a) := by
  unfold step
  split
  · rename_i c' h
    exact perform_lawful hc hfresh h
  · exact hc

/-! ## Governed steps -/

/-- Both gates as they stand at `now`, for the manifest in the environment. -/
structure Governed (c : Catalog) (now : Instant) (m : ProviderPromotionManifest)
    (environment : String) : Prop where
  certified : ∃ r, IsLatest (·.decidedAt) c.certifications.rows
      (fun r => r.manifestId = m.id ∧ r.environment = environment) r
    ∧ r.decision = .PASSED ∧ isExpired r.expiresAt now = false
  approved : ∃ r, IsLatest (·.decidedAt) c.approvals.rows (fun r => r.manifestId = m.id) r
    ∧ r.decision = .APPROVED ∧ isExpired r.expiresAt now = false ∧ r.approvedBy ≠ m.proposedBy

theorem Lawful.governed {c : Catalog} {now : Instant} {m : ProviderPromotionManifest}
    {environment : String} (hc : Lawful c) (hm : c.manifests.find m.id = some m)
    (h : GatesOpen c now m.id environment) : Governed c now m environment := by
  obtain ⟨⟨certified, hcertified, hpassed, hcertifiedOpen⟩,
    ⟨approved, happroved, hdecision, happrovedOpen⟩⟩ := h
  constructor
  · refine ⟨certified, ?_, hpassed, hcertifiedOpen⟩
    apply isLatest_of_latestDecision _ hcertified
    · intro a ha b hb hpa hpb htime
      exact hc.certifications a ha b hb (hpa.1.trans hpb.1.symm) htime
    · intro r
      rw [Bool.and_eq_true, decide_eq_true_iff, decide_eq_true_iff]
  · have hlatest : IsLatest (·.decidedAt) c.approvals.rows (fun r => r.manifestId = m.id)
        approved := by
      apply isLatest_of_latestDecision _ happroved
      · intro a ha b hb hpa hpb htime
        exact hc.approvals a ha b hb (hpa.trans hpb.symm) htime
      · intro r
        rw [decide_eq_true_iff]
    refine ⟨approved, hlatest, hdecision, happrovedOpen, ?_⟩
    obtain ⟨m', hm', hself⟩ := hc.independent approved hlatest.1
    rw [hlatest.2.1, hm] at hm'
    cases hm'
    exact hself hdecision

/-- The call leaves the row active, and went through both gates of its manifest to do so. -/
def ActivatedBy (sha256 : String → List UInt8) (c : Catalog) (a : Label)
    (row : ProviderActivation) : Prop :=
  row ∈ (step sha256 c a).activations.rows ∧ row.state = .ACTIVE
    ∧ ∃ m environment activatedBy expected,
      a.call = .activate m.id environment activatedBy expected
        ∧ c.manifests.find m.id = some m
        ∧ row.manifestId = m.id ∧ row.manifestVersion = m.version ∧ row.tuple = m.tuple
        ∧ Governed c a.env.processNow m environment

/-- The call deactivates the tuple. -/
def Label.deactivates (a : Label) (tuple : Tuple) : Bool :=
  match a.call with
  | .deactivate providerId capability mode _ => (providerId, capability, mode) = tuple
  | _ => false

section
variable {sha256 : String → List UInt8} {c : Catalog} {a : Label}

/-- Only an activation makes a row active. -/
theorem step_activatedBy (hc : Lawful c) {row : ProviderActivation}
    (hrow : row ∈ (step sha256 c a).activations.rows) (hactive : row.state = .ACTIVE)
    (hnew : row ∉ c.activations.rows) : ActivatedBy sha256 c a row := by
  refine ⟨hrow, hactive, ?_⟩
  cases hperform : perform sha256 c a.env a.call with
  | error e =>
    rw [step, hperform] at hrow
    exact absurd hrow hnew
  | ok c' =>
    rw [step, hperform] at hrow
    change row ∈ c'.activations.rows at hrow
    cases hcall : a.call with
    | propose input =>
      rw [hcall] at hperform
      obtain ⟨manifests, -, rfl⟩ := propose_ok hperform
      exact absurd hrow hnew
    | certify manifestId environment certifiedBy decision evidenceRef expiresAt =>
      rw [hcall] at hperform
      obtain ⟨record, certifications, -, -, -, rfl⟩ := certify_ok hperform
      exact absurd hrow hnew
    | approve manifestId approvalRole approvedBy decision expiresAt =>
      rw [hcall] at hperform
      obtain ⟨m, record, approvals, -, -, -, -, -, rfl⟩ := approve_ok hperform
      exact absurd hrow hnew
    | activate manifestId environment activatedBy expected =>
      rw [hcall] at hperform
      obtain ⟨m, hm, hgates, -, hsaved⟩ := activate_ok hperform
      have hid : m.id = manifestId := (c.manifests.find_eq_some_iff.mp hm).2
      subst hid
      rcases (hsaved.mem row).mp hrow with rfl | ⟨hold, -⟩
      · exact ⟨m, environment, activatedBy, expected, rfl, hm, rfl, rfl, rfl,
          hc.governed hm hgates⟩
      · exact absurd hold hnew
    | deactivate providerId capability mode actorId =>
      rw [hcall] at hperform
      obtain ⟨existing, -, hsaved⟩ := deactivate_ok hperform
      rcases (hsaved.mem row).mp hrow with rfl | ⟨hold, -⟩
      · cases hactive
      · exact absurd hold hnew

theorem isActivated_iff {tuple : Tuple} :
    isActivated c tuple = true
      ↔ ∃ row ∈ c.activations.rows, row.tuple = tuple ∧ row.state = .ACTIVE := by
  unfold isActivated
  cases hfind : c.activations.find tuple with
  | none =>
    have hno := c.activations.find_eq_none_iff.mp hfind
    simp only [Bool.false_eq_true, false_iff]
    rintro ⟨row, hrow, htuple, -⟩
    exact hno row hrow htuple
  | some row =>
    obtain ⟨hmem, htuple⟩ := c.activations.find_eq_some_iff.mp hfind
    simp only [decide_eq_true_eq]
    constructor
    · intro hactive
      exact ⟨row, hmem, htuple, hactive⟩
    · rintro ⟨row', hrow', htuple', hactive⟩
      rwa [c.activations.eq_of_key_eq hmem hrow' (htuple.trans htuple'.symm)]

/-- A deactivation of the tuple leaves no active row of it. -/
theorem not_isActivated_of_deactivates {tuple : Tuple} (ha : a.deactivates tuple = true) :
    isActivated (step sha256 c a) tuple = false := by
  unfold Label.deactivates at ha
  split at ha
  · rename_i providerId capability mode actorId hcall
    rw [decide_eq_true_iff] at ha
    rw [← Bool.not_eq_true, isActivated_iff]
    rintro ⟨row, hrow, htuple, hactive⟩
    cases hdeactivate : deactivate c providerId capability mode actorId with
    | error e =>
      have hstep : step sha256 c a = c := by
        rw [step, hcall, perform, hdeactivate]
      unfold deactivate at hdeactivate
      split at hdeactivate
      · rename_i hnone
        rw [hstep] at hrow
        exact c.activations.find_eq_none_iff.mp hnone row hrow (htuple.trans ha.symm)
      · cases hdeactivate
    | ok c' =>
      have hstep : step sha256 c a = c' := by
        rw [step, hcall, perform, hdeactivate]
      obtain ⟨existing, hexisting, hsaved⟩ := deactivate_ok hdeactivate
      rw [hstep] at hrow
      rcases (hsaved.mem row).mp hrow with rfl | ⟨-, hother⟩
      · cases hactive
      · apply hother
        rw [htuple, ← ha]
        exact (c.activations.find_eq_some_iff.mp hexisting).2.symm
  · cases ha

/-- A tuple that is activated behind a step was activated by it, or was so before and the step is
no deactivation of it. -/
theorem activated_step (hc : Lawful c) {tuple : Tuple}
    (h : isActivated (step sha256 c a) tuple = true) :
    (∃ row, row.tuple = tuple ∧ ActivatedBy sha256 c a row)
      ∨ (isActivated c tuple = true ∧ a.deactivates tuple = false) := by
  obtain ⟨row, hrow, htuple, hactive⟩ := isActivated_iff.mp h
  by_cases hold : row ∈ c.activations.rows
  · right
    refine ⟨isActivated_iff.mpr ⟨row, hold, htuple, hactive⟩, ?_⟩
    rw [← Bool.not_eq_true]
    intro ha
    rw [not_isActivated_of_deactivates ha] at h
    cases h
  · left
    exact ⟨row, htuple, step_activatedBy hc hrow hactive hold⟩

end

/-- What was activated at the end of a run was so all along, or since a governed step of it. -/
theorem activated_run {sha256 : String → List UInt8} {tuple : Tuple} {c : Catalog}
    {as : List Label} (hc : Lawful c) (hfresh : AllSteps (step sha256) FreshDecision c as)
    (h : isActivated (exec (step sha256) c as) tuple = true) :
    (isActivated c tuple = true ∧ ∀ a ∈ as, a.deactivates tuple = false)
      ∨ ∃ before a after row, as = before ++ a :: after ∧ row.tuple = tuple
        ∧ ActivatedBy sha256 (exec (step sha256) c before) a row
        ∧ ∀ a' ∈ after, a'.deactivates tuple = false := by
  induction as generalizing c with
  | nil => exact Or.inl ⟨h, by simp⟩
  | cons a as ih =>
    rcases ih (step_lawful sha256 c a hc hfresh.1) hfresh.2 h with
      ⟨hstep, hafter⟩ | ⟨before, b, after, row, rfl, htuple, hrow, hafter⟩
    · rcases activated_step hc hstep with ⟨row, htuple, hrow⟩ | ⟨hbefore, ha⟩
      · exact Or.inr ⟨[], a, as, row, rfl, htuple, hrow, hafter⟩
      · refine Or.inl ⟨hbefore, ?_⟩
        rw [List.forall_mem_cons]
        exact ⟨ha, hafter⟩
    · exact Or.inr ⟨a :: before, b, after, row, rfl, htuple, hrow, hafter⟩

/-- **Promotion is governed.** In every sequence of calls whose decisions on one manifest have
times of their own, a row that becomes active was activated with the latest certification of its
manifest for the environment passed and the latest approval given by somebody other than the
proposer, both unexpired at that instant; and a tuple is activated only between such a step and
its next deactivation. -/
theorem promotion_governed (sha256 : String → List UInt8) (as : List Label)
    (hfresh : AllSteps (step sha256) FreshDecision .empty as) :
    AllSteps (step sha256) (fun c a => ∀ row ∈ (step sha256 c a).activations.rows,
        row.state = .ACTIVE → row ∉ c.activations.rows → ActivatedBy sha256 c a row) .empty as
      ∧ ∀ tuple, isActivated (exec (step sha256) .empty as) tuple = true →
        ∃ before a after row, as = before ++ a :: after ∧ row.tuple = tuple
          ∧ ActivatedBy sha256 (exec (step sha256) .empty before) a row
          ∧ ∀ a' ∈ after, a'.deactivates tuple = false := by
  constructor
  · apply allSteps_of_inv_of_allSteps (step_lawful sha256) _ lawful_empty hfresh
    intro c a hc _ row hrow hactive hnew
    exact step_activatedBy hc hrow hactive hnew
  · intro tuple h
    rcases activated_run lawful_empty hfresh h with ⟨hempty, -⟩ | hgoverned
    · cases hempty
    · exact hgoverned

/-! ### A sandbox promotion -/

instance (c : Catalog) (a : Label) : Decidable (FreshDecision c a) := by
  unfold FreshDecision
  cases a.call <;> infer_instance

def sandboxProposal : ProposeManifestInput where
  providerId := "plaid-income"
  capability := .INCOME
  mode := .AUTHORIZED_SANDBOX
  adapterVersion := "1.0.0"
  endpointAllowlist := ["https://sandbox.example"]
  dataClassifications := ["income"]
  proposedBy := "ada"

/-- SHA-256 at the digested text of the proposal. -/
def manifestSha256 (text : String) : List UInt8 :=
  if text = "\x7b\"adapterVersion\":\"1.0.0\",\"capability\":\"INCOME\","
      ++ "\"dataClassifications\":[\"income\"],"
      ++ "\"endpointAllowlist\":[\"https://sandbox.example\"],"
      ++ "\"mode\":\"AUTHORIZED_SANDBOX\",\"providerId\":\"plaid-income\"\x7d" then
    [103, 145, 68, 37, 158, 228, 195, 156, 107, 103, 175, 27, 13, 194, 163, 70, 55, 16, 181, 252,
      84, 219, 251, 104, 175, 33, 236, 200, 127, 231, 108, 69]
  else []

def sandboxEnv (id : Uuid) (now : Instant) : Env where
  dbNow := now
  processNow := now
  newId := id
  randomUUID := id
  iv := 0

/-- Proposed by one person, approved by another, with a certification that failed first. -/
def sandboxPromotion : List Label :=
  [⟨.propose sandboxProposal, sandboxEnv 1 10⟩,
    ⟨.certify 1 "sandbox" "cy" .FAILED "run-1" none, sandboxEnv 2 20⟩,
    ⟨.certify 1 "sandbox" "cy" .PASSED "run-2" (some 100), sandboxEnv 3 30⟩,
    ⟨.approve 1 "compliance" "bo" .APPROVED none, sandboxEnv 4 40⟩,
    ⟨.activate 1 "sandbox" "dan" none, sandboxEnv 5 50⟩]

/-- The tuple is activated, and there was a governed step. -/
theorem promotion_governed_sandbox :
    ∃ before a after row, sandboxPromotion = before ++ a :: after
      ∧ row.tuple = ("plaid-income", .INCOME, .AUTHORIZED_SANDBOX)
      ∧ ActivatedBy manifestSha256 (exec (step manifestSha256) .empty before) a row
      ∧ ∀ a' ∈ after, a'.deactivates ("plaid-income", .INCOME, .AUTHORIZED_SANDBOX) = false :=
  (promotion_governed manifestSha256 sandboxPromotion (by decide +kernel)).2
    ("plaid-income", .INCOME, .AUTHORIZED_SANDBOX) (by decide +kernel)

end MortgageAgent.Promotion
