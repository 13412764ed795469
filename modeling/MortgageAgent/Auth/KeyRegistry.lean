import MortgageAgent.Auth.ApiClients

/-!
# The keys as a registry

What the table of API clients stands for is a registry: each id has a tenant, a role and one
current secret, until it is revoked. The scripts run side by side and save entities that they have
loaded before, so they keep to the registry only while no rotation saves over a revocation.

* **`KeyRegistry`** / **`KeyOp`** — the registry, and what can be done to it at once.
* **`effect`** / **`keyOps`** — the operations that the statements of a run amount to.
* **`WritesFresh`** — a rotation's save has read the client as active.
* **`guard_refines_registry`** — then the guard answers as the registry does.
* **`revocation_final_iff`** — a revocation is final in just those runs in which no rotation saves
  over one.
-/

namespace MortgageAgent.Auth.ApiClients

open Runs

/-! ## The registry -/

structure KeyRecord where
  tenantId : Uuid
  role : ApiClientRole
  secret : Secret
  revoked : Bool := false

abbrev KeyRegistry := Uuid → Option KeyRecord

inductive KeyOp where
  | issue (id tenantId : Uuid) (role : ApiClientRole) (secret : Secret)
  | replace (id : Uuid) (secret : Secret)
  | revoke (id : Uuid)
  deriving DecidableEq

namespace KeyRegistry

def empty : KeyRegistry := fun _ => none

def apply (r : KeyRegistry) : KeyOp → KeyRegistry
  | .issue id tenantId role secret => Function.update r id (some { tenantId, role, secret })
  | .replace id secret => Function.update r id ((r id).map fun key => { key with secret })
  | .revoke id => Function.update r id ((r id).map fun key => { key with revoked := true })

/-- A request is let through with the current secret of a key that is not revoked. -/
def answer (deps : Deps) (r : KeyRegistry) (header : Option String) (correlationId : Uuid) :
    Except Failure AuthContext :=
  match bearerCredential deps header with
  | none => .error unauthorized
  | some (clientId, secret) =>
    match r clientId with
    | none => .error unauthorized
    | some key =>
      if key.revoked = true
          ∨ verifyApiClientSecret deps secret (hashApiClientSecret deps key.secret) = false then
        .error unauthorized
      else .ok { tenantId := key.tenantId, actorId := clientId, role := key.role, correlationId }

/-- A key that is not revoked lets in just the secrets with the digest of its own. -/
theorem answer_eq_ok_iff {deps : Deps} {r : KeyRegistry} {header : Option String} {id : Uuid}
    {presented : String} {key : KeyRecord} (correlationId : Uuid)
    (hheader : bearerCredential deps header = some (id, presented)) (hkey : r id = some key)
    (hlive : key.revoked = false) (hsalt : key.secret.salt ≠ [])
    (hdigest : deps.scrypt key.secret.text (String.ofList (Bytes.hex key.secret.salt)) ≠ []) :
    r.answer deps header correlationId
        = .ok { tenantId := key.tenantId, actorId := id, role := key.role, correlationId }
      ↔ deps.scrypt presented (String.ofList (Bytes.hex key.secret.salt))
        = deps.scrypt key.secret.text (String.ofList (Bytes.hex key.secret.salt)) := by
  rw [← verify_hash deps key.secret presented hsalt hdigest]
  simp only [answer, hheader, hkey, hlive, Bool.false_eq_true, false_or]
  cases verifyApiClientSecret deps presented (hashApiClientSecret deps key.secret) with
  | true => simp
  | false => simp

end KeyRegistry

/-! ## What the statements amount to -/

/-- A creation counts when its row is there, a rotation and a revocation when they are written. -/
def effect (deps : Deps) (s : System) : Label → Option KeyOp
  | .move c env =>
    match s.calls c with
    | .called (.create input) =>
      if (s.clients.insert (input.row deps env)).isSome then
        some (.issue env.newId input.tenantId (input.role.getD .PARTNER) env.secret)
      else none
    | .writing entity _ (some secret) => some (.replace entity.id secret)
    | .writing entity _ none => some (.revoke entity.id)
    | _ => none
  | _ => none

/-- The operations of a run, in the order of their statements. -/
def keyOps (deps : Deps) : System → List Label → List KeyOp
  | _, [] => []
  | s, a :: as => (effect deps s a).toList ++ keyOps deps (step deps s a) as

/-- The save of a rotation has found the client active, and its digest is a new one. -/
def WritesFresh (s : System) : Label → Bool
  | .move c _ =>
    match s.calls c with
    | .writing entity found (some _) =>
      found.status = .ACTIVE && entity.hashedSecret ≠ found.hashedSecret
    | _ => true
  | _ => true

/-! ## The table represents the registry -/

section

variable (deps : Deps)

def RowMatches : Option ApiClient → Option KeyRecord → Prop
  | none, none => True
  | some row, some key =>
    row.tenantId = key.tenantId ∧ row.role = key.role
      ∧ (row.status = .REVOKED ↔ key.revoked = true)
      ∧ (row.status = .ACTIVE → row.hashedSecret = hashApiClientSecret deps key.secret)
  | _, _ => False

/-- A row as it was read: what is revoked has stayed so. -/
structure ReadOf (key : KeyRecord) (row : ApiClient) : Prop where
  tenantId : row.tenantId = key.tenantId
  role : row.role = key.role
  revoked : row.status = .REVOKED → key.revoked = true

/-- An entity that is to be saved. -/
structure EntityOf (key : KeyRecord) (entity : ApiClient) (rotated : Option Secret) : Prop where
  tenantId : entity.tenantId = key.tenantId
  role : entity.role = key.role
  rotates : ∀ secret, rotated = some secret →
    entity.status = .ACTIVE ∧ entity.hashedSecret = hashApiClientSecret deps secret
  revokes : rotated = none → entity.status = .REVOKED

def CallMatches (r : KeyRegistry) : CallState → Prop
  | .saving entity rotated => ∃ key, r entity.id = some key ∧ EntityOf deps key entity rotated
  | .writing entity found rotated =>
    found.id = entity.id
      ∧ ∃ key, r entity.id = some key ∧ EntityOf deps key entity rotated ∧ ReadOf key found
  | _ => True

structure Represents (s : System) (r : KeyRegistry) : Prop where
  rows : ∀ id, RowMatches deps (s.clients.find id) (r id)
  calls : ∀ c, CallMatches deps r (s.calls c)

/-- A registry later on: every key is there, for its tenant and role, and what was revoked is. -/
def Grows (r r' : KeyRegistry) : Prop :=
  ∀ id key, r id = some key → ∃ key', r' id = some key' ∧ key'.tenantId = key.tenantId
    ∧ key'.role = key.role ∧ (key.revoked = true → key'.revoked = true)

end

section

variable {deps : Deps} {r r' : KeyRegistry}

theorem Grows.refl (r : KeyRegistry) : Grows r r :=
  fun _ key h => ⟨key, h, rfl, rfl, id⟩

theorem grows_issue {id tenantId : Uuid} {role : ApiClientRole} {secret : Secret}
    (hfresh : r id = none) : Grows r (r.apply (.issue id tenantId role secret)) := by
  intro other key h
  have hne : other ≠ id := by
    intro heq
    rw [heq, hfresh] at h
    cases h
  refine ⟨key, ?_, rfl, rfl, fun hrevoked => hrevoked⟩
  rw [KeyRegistry.apply, Function.update_of_ne hne]
  exact h

/-- A change of one key that keeps its tenant and its role, and a revocation. -/
theorem grows_update {id : Uuid} {f : KeyRecord → KeyRecord}
    (hf : ∀ key, (f key).tenantId = key.tenantId ∧ (f key).role = key.role
      ∧ (key.revoked = true → (f key).revoked = true)) :
    Grows r (Function.update r id ((r id).map f)) := by
  intro other key h
  by_cases heq : other = id
  · rw [← heq, Function.update_self, h]
    exact ⟨f key, rfl, hf key⟩
  · rw [Function.update_of_ne heq]
    exact ⟨key, h, rfl, rfl, fun hrevoked => hrevoked⟩

theorem grows_replace (id : Uuid) (secret : Secret) : Grows r (r.apply (.replace id secret)) :=
  grows_update fun _ => ⟨rfl, rfl, fun hrevoked => hrevoked⟩

theorem grows_revoke (id : Uuid) : Grows r (r.apply (.revoke id)) :=
  grows_update fun _ => ⟨rfl, rfl, fun _ => rfl⟩

theorem CallMatches.grows (h : Grows r r') {state : CallState} (hstate : CallMatches deps r state) :
    CallMatches deps r' state := by
  cases state with
  | saving entity rotated =>
    obtain ⟨key, hkey, hentity⟩ := hstate
    obtain ⟨key', hkey', htenant, hrole, -⟩ := h _ key hkey
    exact ⟨key', hkey', hentity.tenantId.trans htenant.symm, hentity.role.trans hrole.symm,
      hentity.rotates, hentity.revokes⟩
  | writing entity found rotated =>
    obtain ⟨hid, key, hkey, hentity, hfound⟩ := hstate
    obtain ⟨key', hkey', htenant, hrole, hrevoked⟩ := h _ key hkey
    exact ⟨hid, key', hkey',
      ⟨hentity.tenantId.trans htenant.symm, hentity.role.trans hrole.symm, hentity.rotates,
        hentity.revokes⟩,
      ⟨hfound.tenantId.trans htenant.symm, hfound.role.trans hrole.symm,
        fun hstatus => hrevoked (hfound.revoked hstatus)⟩⟩
  | _ => trivial

/-- One call has moved on, and the registry has grown. -/
theorem Represents.setCall {s : System} {clients : Clients} (h : Represents deps s r)
    (hgrows : Grows r r') (hrows : ∀ id, RowMatches deps (clients.find id) (r' id)) (c : Nat)
    {state : CallState} (hstate : CallMatches deps r' state) :
    Represents deps ({ s with clients }.setCall c state) r' where
  rows := hrows
  calls := by
    intro c'
    show CallMatches deps r' (Function.update s.calls c state c')
    by_cases hc : c' = c
    · rw [hc, Function.update_self]
      exact hstate
    · rw [Function.update_of_ne hc]
      exact (h.calls c').grows hgrows

/-- One call has moved on without a write. -/
theorem Represents.moved {s : System} (h : Represents deps s r) (c : Nat) {state : CallState}
    (hstate : CallMatches deps r state) : Represents deps (s.setCall c state) r :=
  h.setCall (.refl r) h.rows c hstate

theorem Represents.exists_row {s : System} (h : Represents deps s r) {id : Uuid} {key : KeyRecord}
    (hkey : r id = some key) : ∃ row, s.clients.find id = some row
      ∧ RowMatches deps (some row) (some key) := by
  have hrow := h.rows id
  rw [hkey] at hrow
  cases hfind : s.clients.find id with
  | none => rw [hfind] at hrow; exact hrow.elim
  | some row => exact ⟨row, rfl, hfind ▸ hrow⟩

theorem Represents.exists_key {s : System} (h : Represents deps s r) {id : Uuid} {row : ApiClient}
    (hfind : s.clients.find id = some row) : ∃ key, r id = some key
      ∧ RowMatches deps (some row) (some key) := by
  have hrow := h.rows id
  rw [hfind] at hrow
  cases hkey : r id with
  | none => rw [hkey] at hrow; exact hrow.elim
  | some key => exact ⟨key, rfl, hkey ▸ hrow⟩

/-! ## One statement -/

theorem not_active_iff {row : ApiClient} : row.status ≠ .ACTIVE ↔ row.status = .REVOKED := by
  cases row.status <;> decide

theorem not_revoked_iff {row : ApiClient} : row.status ≠ .REVOKED ↔ row.status = .ACTIVE := by
  cases row.status <;> decide

/-- What a call has loaded and changed. -/
theorem RowMatches.rotates {row : ApiClient} {key : KeyRecord} {secret : Secret}
    (h : RowMatches deps (some row) (some key)) (hactive : row.status = .ACTIVE) :
    EntityOf deps key { row with hashedSecret := hashApiClientSecret deps secret }
      (some secret) where
  tenantId := h.1
  role := h.2.1
  rotates := by
    intro s hs
    cases hs
    exact ⟨hactive, rfl⟩
  revokes := fun h => by cases h

theorem RowMatches.revokes {row : ApiClient} {key : KeyRecord}
    (h : RowMatches deps (some row) (some key)) :
    EntityOf deps key { row with status := .REVOKED } none where
  tenantId := h.1
  role := h.2.1
  rotates := fun s hs => by cases hs
  revokes := fun _ => rfl

theorem RowMatches.readOf {row : ApiClient} {key : KeyRecord}
    (h : RowMatches deps (some row) (some key)) : ReadOf key row where
  tenantId := h.1
  role := h.2.1
  revoked := h.2.2.1.mp

/-- A column that all three agree on. -/
theorem changed_eq {α : Type} [DecidableEq α] {entity found row x : α} (hentity : entity = x)
    (hrow : row = x) : changed entity found row = x := by
  unfold changed
  split
  · exact hrow
  · exact hentity

/-- A save leaves a revoked row revoked, unless it makes active what it has read as revoked. -/
theorem changed_revoked {entity found : ApiClientStatus}
    (hkeeps : ¬(entity = .ACTIVE ∧ found = .REVOKED)) :
    changed entity found .REVOKED = .REVOKED := by
  unfold changed
  split
  · rfl
  · next hne =>
    cases entity with
    | REVOKED => rfl
    | ACTIVE =>
      cases found with
      | REVOKED => exact absurd ⟨rfl, rfl⟩ hkeeps
      | ACTIVE => exact absurd rfl hne

/-- The save of a rotation writes the new digest, and the status as it is. -/
theorem RowMatches.saved_rotation {entity found row : ApiClient} {key : KeyRecord}
    {secret : Secret} (hrow : RowMatches deps (some row) (some key))
    (hentity : EntityOf deps key entity (some secret)) (hactive : found.status = .ACTIVE)
    (hnew : entity.hashedSecret ≠ found.hashedSecret) :
    RowMatches deps (some (entity.saved found row)) (some { key with secret }) := by
  obtain ⟨hstatus, hhash⟩ := hentity.rotates secret rfl
  have hkept : (entity.saved found row).status = row.status := by
    show changed entity.status found.status row.status = row.status
    rw [changed, hstatus, hactive, if_pos rfl]
  have hwritten : (entity.saved found row).hashedSecret = entity.hashedSecret := by
    show changed entity.hashedSecret found.hashedSecret row.hashedSecret = _
    rw [changed, if_neg hnew]
  refine ⟨changed_eq hentity.tenantId hrow.1, changed_eq hentity.role hrow.2.1, ?_, fun _ => ?_⟩
  · rw [hkept]
    exact hrow.2.2.1
  · rw [hwritten]
    exact hhash

/-- The save of a revocation leaves the client revoked. -/
theorem RowMatches.saved_revocation {entity found row : ApiClient} {key : KeyRecord}
    (hrow : RowMatches deps (some row) (some key)) (hentity : EntityOf deps key entity none)
    (hfound : ReadOf key found) :
    RowMatches deps (some (entity.saved found row)) (some { key with revoked := true }) := by
  have hrevoked : (entity.saved found row).status = .REVOKED := by
    show changed entity.status found.status row.status = .REVOKED
    rw [changed, hentity.revokes rfl]
    split
    · next heq => exact hrow.2.2.1.mpr (hfound.revoked heq.symm)
    · rfl
  refine ⟨changed_eq hentity.tenantId hrow.1, changed_eq hentity.role hrow.2.1, ?_, fun h => ?_⟩
  · exact ⟨fun _ => rfl, fun _ => hrevoked⟩
  · rw [hrevoked] at h
    cases h

theorem find_saved {clients : Clients} {entity found row : ApiClient}
    (hfind : clients.find found.id = some row) (id : Uuid) :
    (updateClient clients entity found).find id
      = if id = found.id then some (entity.saved found row) else clients.find id := by
  have hid : row.id = found.id := (clients.find_eq_some_iff.mp hfind).2
  unfold updateClient
  rw [hfind]
  show (clients.put (entity.saved found row)).find id = _
  rw [Table.find_put]
  show (if id = row.id then _ else _) = _
  rw [hid]
  split
  · next heq =>
    rw [heq, hfind]
    rfl
  · rfl

/-- The rows after a save, where the key has been changed likewise. -/
theorem Represents.saved {s : System} (h : Represents deps s r) {entity found row : ApiClient}
    {key : KeyRecord} {f : KeyRecord → KeyRecord} (hid : found.id = entity.id)
    (hfind : s.clients.find entity.id = some row) (hkey : r entity.id = some key)
    (hrow : RowMatches deps (some (entity.saved found row)) (some (f key))) (id : Uuid) :
    RowMatches deps ((updateClient s.clients entity found).find id)
      (Function.update r entity.id ((r entity.id).map f) id) := by
  rw [find_saved (hid ▸ hfind), hid]
  by_cases heq : id = entity.id
  · rw [if_pos heq, heq, Function.update_self, hkey]
    exact hrow
  · rw [if_neg heq, Function.update_of_ne heq]
    exact h.rows id

/-- The rows after a creation. -/
theorem Represents.created {s : System} (h : Represents deps s r) {clients' : Clients}
    {input : CreateApiClientInput} {env : CallEnv}
    (hinsert : s.clients.insert (input.row deps env) = some clients') (id : Uuid) :
    RowMatches deps (clients'.find id)
      (r.apply (.issue env.newId input.tenantId (input.role.getD .PARTNER) env.secret) id) := by
  rw [Table.find_insert hinsert]
  show RowMatches deps (if id = env.newId then _ else _) (Function.update r env.newId _ id)
  by_cases hid : id = env.newId
  · rw [if_pos hid, hid, Function.update_self]
    refine ⟨rfl, rfl, ⟨fun hrevoked => ?_, fun hrevoked => ?_⟩, fun _ => rfl⟩
    · cases hrevoked
    · cases hrevoked
  · rw [if_neg hid, Function.update_of_ne hid]
    exact h.rows id

/-- The id of a new row is taken by no key. -/
theorem Represents.fresh {s : System} (h : Represents deps s r) {clients' : Clients}
    {row : ApiClient} (hinsert : s.clients.insert row = some clients') : r row.id = none := by
  cases hkey : r row.id with
  | none => rfl
  | some key =>
    obtain ⟨other, hfind, -⟩ := h.exists_row hkey
    obtain ⟨hmem, hid⟩ := s.clients.find_eq_some_iff.mp hfind
    exact absurd hid (Table.key_fresh_of_insert hinsert other hmem)

/-- **One statement of a script** is what its effect does to the registry. -/
theorem Represents.step {s : System} (h : Represents deps s r) (a : Label)
    (hfresh : WritesFresh s a = true) :
    Represents deps (step deps s a) ((effect deps s a).toList.foldl KeyRegistry.apply r) := by
  cases a with
  | start c call =>
    show Represents deps (ApiClients.step deps s (.start c call)) r
    unfold ApiClients.step
    dsimp only
    split
    · exact h.moved c trivial
    · exact h
  | fail c =>
    show Represents deps (ApiClients.step deps s (.fail c)) r
    unfold ApiClients.step
    dsimp only
    split
    · exact h.moved c trivial
    · exact h.moved c trivial
    · exact h.moved c trivial
    · exact h
  | move c env =>
    have hcall := h.calls c
    simp only [ApiClients.step, effect, WritesFresh] at hfresh ⊢
    cases hstate : s.calls c with
    | idle => exact h.moved c trivial
    | finished result => exact h.moved c trivial
    | called call =>
      cases call with
      | create input =>
        simp only [callStep]
        cases hinsert : s.clients.insert (input.row deps env) with
        | none => exact h.moved c trivial
        | some clients' =>
          exact h.setCall (grows_issue (h.fresh hinsert)) (h.created hinsert) c trivial
      | rotate id =>
        simp only [callStep]
        cases hfind : s.clients.find id with
        | none => exact h.moved c trivial
        | some row =>
          obtain ⟨key, hkey, hrow⟩ := h.exists_key hfind
          have hid : row.id = id := (s.clients.find_eq_some_iff.mp hfind).2
          by_cases hactive : row.status = .ACTIVE
          · dsimp only
            rw [if_neg (not_not_intro hactive)]
            refine h.moved c ⟨key, ?_, hrow.rotates hactive⟩
            rw [← hkey, ← hid]
          · dsimp only
            rw [if_pos hactive]
            exact h.moved c trivial
      | revoke id =>
        simp only [callStep]
        cases hfind : s.clients.find id with
        | none => exact h.moved c trivial
        | some row =>
          obtain ⟨key, hkey, hrow⟩ := h.exists_key hfind
          have hid : row.id = id := (s.clients.find_eq_some_iff.mp hfind).2
          by_cases hrevoked : row.status = .REVOKED
          · dsimp only
            rw [if_pos hrevoked]
            exact h.moved c trivial
          · dsimp only
            rw [if_neg hrevoked]
            refine h.moved c ⟨key, ?_, hrow.revokes⟩
            rw [← hkey, ← hid]
    | saving entity rotated =>
      rw [hstate] at hcall
      obtain ⟨key, hkey, hentity⟩ := hcall
      obtain ⟨row, hfind, hrow⟩ := h.exists_row hkey
      have hid : row.id = entity.id := (s.clients.find_eq_some_iff.mp hfind).2
      simp only [callStep, hfind]
      exact h.moved c ⟨hid, key, hkey, hentity, hrow.readOf⟩
    | writing entity found rotated =>
      rw [hstate] at hcall
      obtain ⟨hid, key, hkey, hentity, hfound⟩ := hcall
      obtain ⟨row, hfind, hrow⟩ := h.exists_row hkey
      cases rotated with
      | some secret =>
        simp only [hstate, Bool.and_eq_true, decide_eq_true_eq] at hfresh
        apply h.setCall (grows_replace entity.id secret)
        · exact h.saved hid hfind hkey (hrow.saved_rotation hentity hfresh.1 hfresh.2)
        · trivial
      | none =>
        apply h.setCall (grows_revoke entity.id)
        · exact h.saved hid hfind hkey (hrow.saved_revocation hentity hfound)
        · trivial

/-! ## Runs -/

theorem represents_init : Represents deps .init .empty where
  rows := fun _ => trivial
  calls := fun _ => trivial

/-- A run whose rotations write fresh does to the registry what its operations do. -/
theorem Represents.exec {s : System} (h : Represents deps s r) {as : List Label}
    (hfresh : AllSteps (ApiClients.step deps) (fun s a => WritesFresh s a = true) s as) :
    Represents deps (exec (ApiClients.step deps) s as)
      ((keyOps deps s as).foldl KeyRegistry.apply r) := by
  induction as generalizing s r with
  | nil => exact h
  | cons a as ih =>
    rw [exec_cons, keyOps, List.foldl_append]
    exact ih (h.step a hfresh.1) hfresh.2

/-- The guard looks at the row, the registry at the key. -/
theorem Represents.canActivate {s : System} (h : Represents deps s r) (header : Option String)
    (correlationId : Uuid) :
    ApiClients.canActivate deps s.clients header correlationId
      = r.answer deps header correlationId := by
  unfold ApiClients.canActivate KeyRegistry.answer
  cases bearerCredential deps header with
  | none => rfl
  | some credential =>
    obtain ⟨clientId, secret⟩ := credential
    dsimp only
    cases hfind : s.clients.find clientId with
    | none =>
      have hrow := h.rows clientId
      rw [hfind] at hrow
      cases hkey : r clientId with
      | none => rfl
      | some key => rw [hkey] at hrow; exact hrow.elim
    | some row =>
      obtain ⟨key, hkey, htenant, hrole, hstatus, hhash⟩ := h.exists_key hfind
      have hid : row.id = clientId := (s.clients.find_eq_some_iff.mp hfind).2
      rw [hkey]
      dsimp only
      by_cases hrevoked : key.revoked = true
      · rw [if_pos (.inl (not_active_iff.mpr (hstatus.mpr hrevoked))), if_pos (.inl hrevoked)]
      · have hactive : row.status = .ACTIVE := by
          by_contra hne
          exact hrevoked (hstatus.mp (not_active_iff.mp hne))
        rw [Bool.not_eq_true] at hrevoked
        simp only [hactive, ne_eq, not_true_eq_false, false_or, hrevoked, Bool.false_eq_true,
          hhash hactive, htenant, hrole, hid]

end

/-- **The guard answers as a registry of keys.** In every interleaving of creations, rotations and
revocations, started, failed or cut off at any statement, in which no rotation saves over a
revocation, every request is answered as by a registry in which each creation, rotation and
revocation takes effect at once, when its statement is written: the current secret of a key lets
in, for its tenant and with its role, an earlier one does not, and nothing does once the key is
revoked. -/
theorem guard_refines_registry (deps : Deps) (as : List Label)
    (hfresh : AllSteps (step deps) (fun s a => WritesFresh s a = true) .init as) (header : Option String)
    (correlationId : Uuid) :
    canActivate deps (exec (step deps) .init as).clients header correlationId
      = ((keyOps deps .init as).foldl KeyRegistry.apply .empty).answer deps header correlationId :=
  (represents_init.exec hfresh).canActivate header correlationId

def keyDeps : Deps where
  scrypt := fun secret salt => Bytes.utf8 (salt ++ secret)
  uuid? := fun text => if text = "4b0c7a52-0000-4000-8000-000000000001" then some 1 else none

def firstSecret : CallEnv := { newId := 1, secret := { text := "first", salt := [1] } }

def secondSecret : CallEnv := { newId := 0, secret := { text := "second", salt := [2] } }

/-- A client is created, and its secret is rotated. -/
def rotatedRun : List Label :=
  [.start 0 (.create { tenantId := 9, name := "partner" }), .move 0 firstSecret,
    .start 1 (.rotate 1), .move 1 secondSecret, .move 1 secondSecret, .move 1 secondSecret]

theorem guard_refines_registry_rotatedRun :
    canActivate keyDeps (exec (step keyDeps) .init rotatedRun).clients
        (some "Bearer 4b0c7a52-0000-4000-8000-000000000001.second") 7
      = ((keyOps keyDeps .init rotatedRun).foldl KeyRegistry.apply .empty).answer keyDeps
        (some "Bearer 4b0c7a52-0000-4000-8000-000000000001.second") 7
      ∧ canActivate keyDeps (exec (step keyDeps) .init rotatedRun).clients
        (some "Bearer 4b0c7a52-0000-4000-8000-000000000001.second") 7
        = .ok { tenantId := 9, actorId := 1, role := .PARTNER, correlationId := 7 }
      ∧ canActivate keyDeps (exec (step keyDeps) .init rotatedRun).clients
        (some "Bearer 4b0c7a52-0000-4000-8000-000000000001.first") 7 = .error unauthorized :=
  ⟨guard_refines_registry keyDeps rotatedRun (by decide +kernel) _ 7, by decide +kernel,
    by decide +kernel⟩

/-! ## Revocations -/

def System.statusOf (s : System) (id : Uuid) : Option ApiClientStatus :=
  (s.clients.find id).map ApiClient.status

/-- A call saves a client as active that its save has read as revoked. -/
def Revives (s : System) : Label → Bool
  | .move c _ =>
    match s.calls c with
    | .writing entity found _ => entity.status = .ACTIVE && found.status = .REVOKED
    | _ => false
  | _ => false

section

variable {deps : Deps}

theorem statusOf_insert {clients clients' : Clients} {row : ApiClient} {id : Uuid}
    {status : ApiClientStatus} (hinsert : clients.insert row = some clients')
    (hid : (clients.find id).map ApiClient.status = some status) :
    (clients'.find id).map ApiClient.status = some status := by
  obtain ⟨old, hfind, -⟩ := Option.map_eq_some_iff.mp hid
  obtain ⟨hmem, hkey⟩ := clients.find_eq_some_iff.mp hfind
  have hne : id ≠ row.id := by
    intro heq
    exact Table.key_fresh_of_insert hinsert old hmem (hkey.trans heq)
  rw [Table.find_insert hinsert, if_neg hne]
  exact hid

/-- Only a step that revives makes a revoked client active. -/
theorem revoked_step {s : System} {a : Label} (hkeeps : Revives s a = false) {id : Uuid}
    (hid : s.statusOf id = some .REVOKED) : (step deps s a).statusOf id = some .REVOKED := by
  cases a with
  | start c call =>
    simp only [step]
    split <;> exact hid
  | fail c =>
    simp only [step]
    split <;> exact hid
  | move c env =>
    show ((callStep deps s.clients env (s.calls c)).1.find id).map _ = _
    cases hstate : s.calls c with
    | idle => exact hid
    | finished result => exact hid
    | called call =>
      cases call with
      | create input =>
        simp only [callStep]
        split
        · exact hid
        · next clients' hinsert => exact statusOf_insert hinsert hid
      | rotate id' =>
        simp only [callStep]
        split
        · exact hid
        · split <;> exact hid
      | revoke id' =>
        simp only [callStep]
        split
        · exact hid
        · split <;> exact hid
    | saving entity rotated =>
      simp only [callStep]
      split
      · exact hid
      · split
        · exact hid
        · next clients' hinsert => exact statusOf_insert hinsert hid
    | writing entity found rotated =>
      simp only [Revives, hstate, Bool.and_eq_false_iff, decide_eq_false_iff_not,
        ← not_and_or] at hkeeps
      show ((updateClient s.clients entity found).find id).map _ = _
      cases hfind : s.clients.find found.id with
      | none =>
        rw [updateClient, hfind]
        exact hid
      | some row =>
        rw [find_saved hfind]
        split
        · next heq =>
          rw [System.statusOf, heq, hfind] at hid
          have hrow : row.status = .REVOKED := Option.some.inj hid
          show some (changed entity.status found.status row.status) = some .REVOKED
          rw [hrow, changed_revoked hkeeps]
        · exact hid

theorem callStep_writing {clients : Clients} {env : CallEnv} {state : CallState}
    {entity found : ApiClient} {rotated : Option Secret}
    (h : (callStep deps clients env state).2 = .writing entity found rotated) :
    clients.find found.id = some found := by
  cases state with
  | idle => cases h
  | finished result => cases h
  | writing entity' found' rotated' => cases h
  | called call =>
    cases call with
    | create input =>
      simp only [callStep] at h
      split at h <;> cases h
    | rotate id =>
      simp only [callStep] at h
      split at h
      · cases h
      · split at h <;> cases h
    | revoke id =>
      simp only [callStep] at h
      split at h
      · cases h
      · split at h <;> cases h
  | saving entity' rotated' =>
    simp only [callStep] at h
    split at h
    · next row hfind =>
      cases h
      rw [(clients.find_eq_some_iff.mp hfind).2]
      exact hfind
    · split at h <;> cases h

/-- A save that is about to write was so before, or has read its row just now. -/
theorem calls_step {s : System} {a : Label} {c : Nat} {entity found : ApiClient}
    {rotated : Option Secret} (h : (step deps s a).calls c = .writing entity found rotated) :
    s.calls c = .writing entity found rotated ∨ s.clients.find found.id = some found := by
  have hset : ∀ (s' : System) (c' : Nat) (state : CallState),
      (s'.setCall c' state).calls c = .writing entity found rotated →
      s'.calls c = .writing entity found rotated ∨ state = .writing entity found rotated := by
    intro s' c' state h
    have hupdate : Function.update s'.calls c' state c = .writing entity found rotated := h
    by_cases hc : c = c'
    · rw [hc, Function.update_self] at hupdate
      exact .inr hupdate
    · rw [Function.update_of_ne hc] at hupdate
      exact .inl hupdate
  cases a with
  | start c' call =>
    simp only [step] at h
    split at h
    · cases hset _ _ _ h with
      | inl hbefore => exact .inl hbefore
      | inr hnow => cases hnow
    · exact .inl h
  | fail c' =>
    simp only [step] at h
    split at h
    · cases hset _ _ _ h with
      | inl hbefore => exact .inl hbefore
      | inr hnow => cases hnow
    · cases hset _ _ _ h with
      | inl hbefore => exact .inl hbefore
      | inr hnow => cases hnow
    · cases hset _ _ _ h with
      | inl hbefore => exact .inl hbefore
      | inr hnow => cases hnow
    · exact .inl h
  | move c' env =>
    cases hset _ _ _ h with
    | inl hbefore => exact .inl hbefore
    | inr hnow => exact .inr (callStep_writing hnow)

/-- What a save has read was the row at an earlier point of the run. -/
theorem found_before (as : List Label) {c : Nat} {entity found : ApiClient}
    {rotated : Option Secret}
    (hstate : (exec (step deps) .init as).calls c = .writing entity found rotated) :
    ∃ before after, as = before ++ after
      ∧ (exec (step deps) .init before).clients.find found.id = some found := by
  induction as using List.reverseRecOn with
  | nil => cases hstate
  | append_singleton as a ih =>
    rw [exec_append] at hstate
    cases calls_step hstate with
    | inl hbefore =>
      obtain ⟨before, after, has, hfind⟩ := ih hbefore
      exact ⟨before, after ++ [a], by rw [has, List.append_assoc], hfind⟩
    | inr hfind => exact ⟨as, [a], rfl, hfind⟩

/-- A step that revives makes the client active, if it is still there. -/
theorem statusOf_revived {s : System} {c : Nat} {env : CallEnv} {entity found row : ApiClient}
    {rotated : Option Secret} (hstate : s.calls c = .writing entity found rotated)
    (hactive : entity.status = .ACTIVE) (hrevoked : found.status = .REVOKED)
    (hfind : s.clients.find found.id = some row) :
    (step deps s (.move c env)).statusOf found.id = some .ACTIVE := by
  show ((callStep deps s.clients env (s.calls c)).1.find found.id).map _ = _
  rw [hstate]
  show ((updateClient s.clients entity found).find found.id).map _ = _
  rw [find_saved hfind, if_pos rfl]
  show some (changed entity.status found.status row.status) = some .ACTIVE
  rw [changed, hactive, hrevoked, if_neg (by decide)]

/-- A revocation is final: a client that is revoked stays so. -/
def RevocationsFinal (deps : Deps) (as : List Label) : Prop :=
  ∀ before later after id, as = before ++ later ++ after →
    (exec (step deps) .init before).statusOf id = some .REVOKED →
    (exec (step deps) .init (before ++ later)).statusOf id = some .REVOKED

/-- **Exactly when revocations are final.** In an interleaving of creations, rotations and
revocations no revoked client becomes active again if and only if no call saves a client as active
that its save has read as revoked: a rotation that loaded its client before the revocation, and
whose save came after it. -/
theorem revocation_final_iff (deps : Deps) (as : List Label) :
    RevocationsFinal deps as ↔ AllSteps (step deps) (fun s a => Revives s a = false) .init as := by
  constructor
  · intro hfinal
    by_contra hnot
    obtain ⟨before, a, after, has, hrevives⟩ := exists_step_of_not_allSteps hnot
    rw [Bool.not_eq_false] at hrevives
    cases a with
    | start c call => cases hrevives
    | fail c => cases hrevives
    | move c env =>
      unfold Revives at hrevives
      dsimp only at hrevives
      split at hrevives
      · next entity found rotated hstate =>
        simp only [Bool.and_eq_true, decide_eq_true_eq] at hrevives
        obtain ⟨hactive, hrevoked⟩ := hrevives
        obtain ⟨early, mid, hbefore, hfound⟩ := found_before before hstate
        -- the client was revoked when the save read it, and so it is before the write
        have hearly : (exec (step deps) .init early).statusOf found.id = some .REVOKED := by
          rw [System.statusOf, hfound]
          exact congrArg some hrevoked
        have hthen := hfinal early mid (.move c env :: after) found.id
          (by rw [has, hbefore]) hearly
        have hnow := hfinal early (mid ++ [.move c env]) after found.id
          (by rw [has, hbefore]; simp) hearly
        rw [← hbefore] at hthen
        obtain ⟨row, hrow, -⟩ := Option.map_eq_some_iff.mp hthen
        rw [← List.append_assoc, ← hbefore, exec_append] at hnow
        have hrevived : (step deps _ (.move c env)).statusOf found.id = some .ACTIVE :=
          statusOf_revived hstate hactive hrevoked hrow
        exact absurd (hnow.symm.trans hrevived) (by decide)
      · cases hrevives
  · intro hall before later after id has hid
    rw [has] at hall
    rw [exec_append]
    exact exec_inv_of_allSteps (I := fun s : System => s.statusOf id = some .REVOKED)
      (fun s a hs hkeeps => revoked_step hkeeps hs) hid hall.of_append_left.of_append_right

end

-- A rotation that loaded its client before it was revoked, and saves it after.
example : AllSteps (step keyDeps) (fun s a => Revives s a = false) .init
      [.start 0 (.create { tenantId := 9, name := "partner" }), .move 0 firstSecret,
        .start 1 (.rotate 1), .move 1 secondSecret, .start 2 (.revoke 1), .move 2 secondSecret,
        .move 2 secondSecret, .move 2 secondSecret, .move 1 secondSecret]
    ∧ ¬ AllSteps (step keyDeps) (fun s a => Revives s a = false) .init
      [.start 0 (.create { tenantId := 9, name := "partner" }), .move 0 firstSecret,
        .start 1 (.rotate 1), .move 1 secondSecret, .start 2 (.revoke 1), .move 2 secondSecret,
        .move 2 secondSecret, .move 2 secondSecret, .move 1 secondSecret,
        .move 1 secondSecret] := by
  decide +kernel

end MortgageAgent.Auth.ApiClients
