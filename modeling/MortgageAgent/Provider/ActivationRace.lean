import MortgageAgent.Provider.Promotion

/-!
# Two activations at once

`activate` reads the manifest, the latest certification, the latest approval and the activation
row, compares the row's version with the one the operator expects, and then saves. Each is a
statement of its own, outside any transaction, and the save names the row by its id only: another
activation may move the row between the comparison and the save.

* **`ActivateCall`** / **`activateStep`** — one call, cut at its statements;
  **`activateStep_rest`** — undisturbed, they are `activate`.
* **`Race`** / **`raceStep`** — two calls over one catalog, among other calls of the service.
* **`saveGuarded`** — a save that updates the row finds the version it read, and moves it.
* **`activation_lock`** — where every save is guarded, at most one of two activations that expect
  the same version returns, and the row is its.
* **`stale_save_overwrites`** — otherwise the later save overwrites the earlier.
-/

namespace MortgageAgent.Promotion

open Provider Runs

/-! ## One call -/

structure ActivateInput where
  manifestId : Uuid
  environment : String
  activatedBy : String
  expectedCurrentManifestVersion : Option Int

/-- Where an `activate` call stands: the statement it is about to make, or how it ended. -/
inductive ActivateCall where
  | readManifest
  | requireCertified (manifest : ProviderPromotionManifest)
  | requireApproved (manifest : ProviderPromotionManifest)
  | requireVersion (manifest : ProviderPromotionManifest)
  | save (manifest : ProviderPromotionManifest) (existing : Option ProviderActivation)
  | returned (activation : ProviderActivation)
  | threw (failure : ProviderFailure)
  deriving DecidableEq

def ActivateCall.isReturned : ActivateCall → Bool
  | .returned _ => true
  | _ => false

def ActivateCall.hasEnded : ActivateCall → Bool
  | .returned _ => true
  | .threw _ => true
  | _ => false

/-- The next statement of a call that has not ended. -/
def activateStep (c : Catalog) (env : Env) (input : ActivateInput) :
    ActivateCall → Catalog × ActivateCall
  | .readManifest =>
    match c.manifest input.manifestId with
    | .ok manifest => (c, .requireCertified manifest)
    | .error e => (c, .threw e)
  | .requireCertified manifest =>
    match Promotion.requireCertified c env.processNow input.manifestId input.environment with
    | .ok _ => (c, .requireApproved manifest)
    | .error e => (c, .threw e)
  | .requireApproved manifest =>
    match Promotion.requireApproved c env.processNow input.manifestId with
    | .ok _ => (c, .requireVersion manifest)
    | .error e => (c, .threw e)
  | .requireVersion manifest =>
    match Promotion.requireVersion c manifest input.expectedCurrentManifestVersion with
    | .ok existing => (c, .save manifest existing)
    | .error e => (c, .threw e)
  | .save manifest existing =>
    let entity := activationOf env.newId manifest existing input.activatedBy
    match saveActivation c existing entity with
    | .ok c' => (c', .returned entity)
    | .error e => (c, .threw e)
  | .returned activation => (c, .returned activation)
  | .threw failure => (c, .threw failure)

/-- What is left of a call, were it to run undisturbed. -/
def activateRest (c : Catalog) (env : Env) (input : ActivateInput) :
    ActivateCall → Except ProviderFailure Catalog
  | .readManifest =>
    activate c env input.manifestId input.environment input.activatedBy
      input.expectedCurrentManifestVersion
  | .requireCertified manifest => do
    Promotion.requireCertified c env.processNow input.manifestId input.environment
    Promotion.requireApproved c env.processNow input.manifestId
    let existing ← Promotion.requireVersion c manifest input.expectedCurrentManifestVersion
    saveActivation c existing (activationOf env.newId manifest existing input.activatedBy)
  | .requireApproved manifest => do
    Promotion.requireApproved c env.processNow input.manifestId
    let existing ← Promotion.requireVersion c manifest input.expectedCurrentManifestVersion
    saveActivation c existing (activationOf env.newId manifest existing input.activatedBy)
  | .requireVersion manifest => do
    let existing ← Promotion.requireVersion c manifest input.expectedCurrentManifestVersion
    saveActivation c existing (activationOf env.newId manifest existing input.activatedBy)
  | .save manifest existing =>
    saveActivation c existing (activationOf env.newId manifest existing input.activatedBy)
  | .returned _ => .ok c
  | .threw failure => .error failure

/-- The statements of a call, one after the other, are `activate`. -/
theorem activateStep_rest (c : Catalog) (env : Env) (input : ActivateInput) (call : ActivateCall) :
    activateRest (activateStep c env input call).1 env input (activateStep c env input call).2
      = activateRest c env input call := by
  cases call with
  | readManifest =>
    rw [activateStep, activateRest, activate]
    cases c.manifest input.manifestId <;> rfl
  | requireCertified manifest =>
    rw [activateStep, activateRest]
    cases Promotion.requireCertified c env.processNow input.manifestId input.environment <;> rfl
  | requireApproved manifest =>
    rw [activateStep, activateRest]
    cases Promotion.requireApproved c env.processNow input.manifestId <;> rfl
  | requireVersion manifest =>
    rw [activateStep, activateRest]
    cases Promotion.requireVersion c manifest input.expectedCurrentManifestVersion <;> rfl
  | save manifest existing =>
    simp only [activateStep, activateRest]
    cases saveActivation c existing (activationOf env.newId manifest existing input.activatedBy)
      <;> rfl
  | returned activation => rfl
  | threw failure => rfl

/-! ## Two calls -/

/-- The two calls are told apart by a `Bool`. -/
structure Race where
  catalog : Catalog
  calls : Bool → ActivateCall

inductive RaceLabel where
  /-- call `b` makes its next statement -/
  | call (b : Bool) (env : Env)
  /-- some other call of the service, as a whole -/
  | other (a : Label)

def raceStep (sha256 : String → List UInt8) (inputs : Bool → ActivateInput) (r : Race) :
    RaceLabel → Race
  | .call b env =>
    let (catalog, call) := activateStep r.catalog env (inputs b) (r.calls b)
    ⟨catalog, Function.update r.calls b call⟩
  | .other a => { r with catalog := step sha256 r.catalog a }

/-- Both calls are about to start. -/
def Race.start (catalog : Catalog) : Race := ⟨catalog, fun _ => .readManifest⟩

/-- No third activation. -/
def RaceLabel.activates : RaceLabel → Bool
  | .call _ _ => false
  | .other a =>
    match a.call with
    | .activate .. => true
    | _ => false

/-- A save that updates a row: the row still has the version that the call read, and gets another
one, unless the other call has ended. -/
def saveGuarded (r : Race) : RaceLabel → Bool
  | .call b _ =>
    match r.calls b with
    | .save manifest (some read) =>
      (r.catalog.activations.find manifest.tuple).all
          (fun stored => stored.manifestVersion = read.manifestVersion)
        && (manifest.version ≠ read.manifestVersion || (r.calls (!b)).hasEnded)
    | _ => true
  | .other _ => true

/-- Two activations that expect the same version of one tuple and target different ones. -/
structure Rivals (inputs : Bool → ActivateInput) (manifests : Bool → ProviderPromotionManifest)
    (c : Catalog) : Prop where
  found : ∀ b, c.manifests.find (inputs b).manifestId = some (manifests b)
  tuple : ∀ b, (manifests b).tuple = (manifests (!b)).tuple
  version : (manifests false).version ≠ (manifests true).version
  expected : ∀ b, (inputs b).expectedCurrentManifestVersion
    = (inputs (!b)).expectedCurrentManifestVersion

/-! ## What the other calls leave alone -/

/-- The row of the tuple was activated with this manifest. -/
def Holder (c : Catalog) (m : ProviderPromotionManifest) : Prop :=
  ∃ stored, c.activations.find m.tuple = some stored
    ∧ stored.manifestId = m.id ∧ stored.manifestVersion = m.version

theorem Saved.find {c c' : Catalog} {entity : ProviderActivation} (h : Saved c c' entity) :
    c'.activations.find entity.tuple = some entity :=
  c'.activations.find_eq_some_iff.mpr ⟨(h.mem entity).mpr (Or.inl rfl), rfl⟩

theorem Saved.find_other {c c' : Catalog} {entity stored : ProviderActivation} {tuple : Tuple}
    (h : Saved c c' entity) (hother : tuple ≠ entity.tuple)
    (hstored : c.activations.find tuple = some stored) :
    c'.activations.find tuple = some stored := by
  obtain ⟨hmem, rfl⟩ := c.activations.find_eq_some_iff.mp hstored
  exact c'.activations.find_eq_some_iff.mpr ⟨(h.mem stored).mpr (Or.inr ⟨hmem, hother⟩), rfl⟩

section
variable {sha256 : String → List UInt8} {c : Catalog} {a : Label}

/-- A manifest is never removed or changed. -/
theorem step_find_manifest {id : Uuid} {m : ProviderPromotionManifest}
    (h : c.manifests.find id = some m) : (step sha256 c a).manifests.find id = some m := by
  unfold step
  split
  · rename_i c' hperform
    cases hcall : a.call with
    | propose input =>
      rw [hcall] at hperform
      obtain ⟨manifests, hinsert, rfl⟩ := propose_ok hperform
      exact Table.find_of_insert hinsert h
    | certify manifestId environment certifiedBy decision evidenceRef expiresAt =>
      rw [hcall] at hperform
      obtain ⟨record, certifications, -, -, -, rfl⟩ := certify_ok hperform
      exact h
    | approve manifestId approvalRole approvedBy decision expiresAt =>
      rw [hcall] at hperform
      obtain ⟨manifest, record, approvals, -, -, -, -, -, rfl⟩ := approve_ok hperform
      exact h
    | activate manifestId environment activatedBy expected =>
      rw [hcall] at hperform
      obtain ⟨manifest, -, -, -, hsaved⟩ := activate_ok hperform
      rw [hsaved.manifests]
      exact h
    | deactivate providerId capability mode actorId =>
      rw [hcall] at hperform
      obtain ⟨existing, -, hsaved⟩ := deactivate_ok hperform
      rw [hsaved.manifests]
      exact h
  · exact h

/-- A call that is no activation leaves the manifest of every row; a deactivation only changes its
state. -/
theorem step_holder (ha : (RaceLabel.other a).activates = false) {m : ProviderPromotionManifest}
    (h : Holder c m) : Holder (step sha256 c a) m := by
  unfold step
  split
  · rename_i c' hperform
    cases hcall : a.call with
    | propose input =>
      rw [hcall] at hperform
      obtain ⟨manifests, -, rfl⟩ := propose_ok hperform
      exact h
    | certify manifestId environment certifiedBy decision evidenceRef expiresAt =>
      rw [hcall] at hperform
      obtain ⟨record, certifications, -, -, -, rfl⟩ := certify_ok hperform
      exact h
    | approve manifestId approvalRole approvedBy decision expiresAt =>
      rw [hcall] at hperform
      obtain ⟨manifest, record, approvals, -, -, -, -, -, rfl⟩ := approve_ok hperform
      exact h
    | activate manifestId environment activatedBy expected =>
      simp only [RaceLabel.activates, hcall] at ha
      cases ha
    | deactivate providerId capability mode actorId =>
      rw [hcall] at hperform
      obtain ⟨existing, hexisting, hsaved⟩ := deactivate_ok hperform
      obtain ⟨stored, hstored, hid, hversion⟩ := h
      have htuple := (c.activations.find_eq_some_iff.mp hexisting).2
      by_cases hsame : m.tuple = existing.tuple
      · rw [hsame, htuple, hexisting] at hstored
        cases hstored
        refine ⟨{ existing with state := .DEACTIVATED, activatedBy := actorId }, ?_, hid, hversion⟩
        rw [hsame]
        exact hsaved.find
      · exact ⟨stored, hsaved.find_other hsame hstored, hid, hversion⟩
  · exact h

end

/-! ## The invariant -/

/-- The manifest that a call has read. -/
def ActivateCall.manifest? : ActivateCall → Option ProviderPromotionManifest
  | .requireCertified manifest => some manifest
  | .requireApproved manifest => some manifest
  | .requireVersion manifest => some manifest
  | .save manifest _ => some manifest
  | _ => none

/-- The row that a call has read, once it is about to save. -/
def ActivateCall.read? : ActivateCall → Option (Option ProviderActivation)
  | .save _ existing => some existing
  | _ => none

/-- What holds of call `b`, given where it and the other stand. One that has returned holds the
row, the other has not returned, and unless that one has ended the version has moved. -/
structure CallInv (inputs : Bool → ActivateInput) (manifests : Bool → ProviderPromotionManifest)
    (c : Catalog) (b : Bool) (own other : ActivateCall) : Prop where
  found : c.manifests.find (inputs b).manifestId = some (manifests b)
  manifest : ∀ m, own.manifest? = some m → m = manifests b
  read : ∀ existing, own.read? = some existing →
    existing.map (·.manifestVersion) = (inputs b).expectedCurrentManifestVersion
  won : own.isReturned = true →
    Holder c (manifests b) ∧ other.isReturned = false
      ∧ (other.hasEnded = true
        ∨ some (manifests b).version ≠ (inputs b).expectedCurrentManifestVersion)

def RaceInv (inputs : Bool → ActivateInput) (manifests : Bool → ProviderPromotionManifest)
    (r : Race) : Prop :=
  ∀ b, CallInv inputs manifests r.catalog b (r.calls b) (r.calls (!b))

/-- A fact about both calls, when one of them has moved. -/
theorem forall_calls {calls : Bool → ActivateCall} {b : Bool} {call : ActivateCall}
    {P : Bool → ActivateCall → ActivateCall → Prop} (hown : P b call (calls (!b)))
    (hother : P (!b) (calls (!b)) call) (b' : Bool) :
    P b' (Function.update calls b call b') (Function.update calls b call (!b')) := by
  cases b <;> cases b' <;> simpa using by assumption

section
variable {sha256 : String → List UInt8} {inputs : Bool → ActivateInput}
  {manifests : Bool → ProviderPromotionManifest} {r : Race}

theorem raceInv_start {c : Catalog} (h : Rivals inputs manifests c) :
    RaceInv inputs manifests (Race.start c) := by
  intro b
  refine ⟨h.found b, ?_, ?_, ?_⟩
  · intro m hm
    cases hm
  · intro existing hexisting
    cases hexisting
  · intro hreturned
    cases hreturned

/-- A statement that writes nothing and does not return. -/
theorem RaceInv.move (hr : RaceInv inputs manifests r) {b : Bool} {call : ActivateCall}
    (hrunning : (r.calls b).hasEnded = false) (hcall : call.isReturned = false)
    (hmanifest : ∀ m, call.manifest? = some m → m = manifests b)
    (hread : ∀ existing, call.read? = some existing →
      existing.map (·.manifestVersion) = (inputs b).expectedCurrentManifestVersion) :
    RaceInv inputs manifests ⟨r.catalog, Function.update r.calls b call⟩ := by
  apply forall_calls
  · refine ⟨(hr b).found, hmanifest, hread, ?_⟩
    intro hreturned
    rw [hcall] at hreturned
    cases hreturned
  · have hother := hr (!b)
    rw [Bool.not_not] at hother
    refine ⟨hother.found, hother.manifest, hother.read, ?_⟩
    intro hreturned
    obtain ⟨hholder, -, hended⟩ := hother.won hreturned
    rw [hrunning] at hended
    exact ⟨hholder, hcall, Or.inr (hended.resolve_left (by decide))⟩

/-- A gate that passes: the call has not read the row yet. -/
theorem RaceInv.advance (hr : RaceInv inputs manifests r) {b : Bool} {call : ActivateCall}
    (hrunning : (r.calls b).hasEnded = false) (hcall : call.isReturned = false)
    (hmanifest : ∀ m, call.manifest? = some m → m = manifests b) (hread : call.read? = none) :
    RaceInv inputs manifests ⟨r.catalog, Function.update r.calls b call⟩ := by
  apply hr.move hrunning hcall hmanifest
  intro existing hexisting
  rw [hread] at hexisting
  cases hexisting

/-- A statement that throws. -/
theorem RaceInv.fail (hr : RaceInv inputs manifests r) {b : Bool}
    (hrunning : (r.calls b).hasEnded = false) (e : ProviderFailure) :
    RaceInv inputs manifests ⟨r.catalog, Function.update r.calls b (.threw e)⟩ := by
  apply hr.advance hrunning rfl _ rfl
  intro m hm
  cases hm

/-- A save behind the other's return would need a row that nobody moved. -/
theorem RaceInv.save_first (hr : RaceInv inputs manifests r) {c : Catalog}
    (hrivals : Rivals inputs manifests c) {b : Bool} {env : Env}
    {existing : Option ProviderActivation} (hcall : r.calls b = .save (manifests b) existing)
    (hguard : saveGuarded r (.call b env) = true) {c' : Catalog} {entity : ProviderActivation}
    (htuple : entity.tuple = (manifests b).tuple)
    (hsave : saveActivation r.catalog existing entity = .ok c') :
    (r.calls (!b)).isReturned = false := by
  by_contra hreturned
  rw [Bool.not_eq_false] at hreturned
  obtain ⟨⟨stored, hstored, -, hversion⟩, -, hended⟩ := (hr (!b)).won hreturned
  have hexpected := (hr b).read existing (by rw [hcall]; rfl)
  have hmoved : some (manifests !b).version ≠ (inputs !b).expectedCurrentManifestVersion := by
    rw [Bool.not_not, hcall] at hended
    exact hended.resolve_left (by simp [ActivateCall.hasEnded])
  rw [← hrivals.tuple b] at hstored
  cases existing with
  | none =>
    -- the row is there, so the insert fails
    simp only [saveActivation] at hsave
    obtain ⟨activations, hinsert, -⟩ := ok_of_bind_ok hsave
    obtain ⟨hmem, hkey⟩ := r.catalog.activations.find_eq_some_iff.mp hstored
    exact Table.key_fresh_of_insert (insert_of_inserted hinsert) stored hmem
      (hkey.trans htuple.symm)
  | some read =>
    -- the guard: the stored version is the one that was read, so it has not moved
    simp only [saveGuarded, hcall, hstored, Option.all_some, Bool.and_eq_true,
      decide_eq_true_eq] at hguard
    apply hmoved
    rw [← hrivals.expected b, ← hexpected, ← hversion, hguard.1]
    rfl

/-- A guarded save moves the version, or the other call has ended. -/
theorem RaceInv.save_moves (hr : RaceInv inputs manifests r) {b : Bool} {env : Env}
    {existing : Option ProviderActivation} (hcall : r.calls b = .save (manifests b) existing)
    (hguard : saveGuarded r (.call b env) = true) :
    (r.calls (!b)).hasEnded = true
      ∨ some (manifests b).version ≠ (inputs b).expectedCurrentManifestVersion := by
  have hexpected := (hr b).read existing (by rw [hcall]; rfl)
  rw [← hexpected]
  cases existing with
  | none =>
    right
    simp
  | some read =>
    simp only [saveGuarded, hcall, Bool.and_eq_true, Bool.or_eq_true, decide_eq_true_eq] at hguard
    rcases hguard.2 with hmoves | hended
    · right
      intro hsame
      exact hmoves (Option.some.inj hsame)
    · exact Or.inl hended

theorem RaceInv.call_step (hr : RaceInv inputs manifests r) {c : Catalog}
    (hrivals : Rivals inputs manifests c) {b : Bool} {env : Env}
    (hguard : saveGuarded r (.call b env) = true) :
    RaceInv inputs manifests (raceStep sha256 inputs r (.call b env)) := by
  have hmanifest := (hr b).manifest
  simp only [raceStep]
  cases hcall : r.calls b with
  | readManifest =>
    have hrunning : (r.calls b).hasEnded = false := by rw [hcall]; rfl
    simp only [activateStep]
    cases hfind : r.catalog.manifest (inputs b).manifestId with
    | error e => exact hr.fail hrunning _
    | ok m =>
      refine hr.advance hrunning rfl ?_ rfl
      intro m' hm'
      cases hm'
      have hm := find_of_manifest hfind
      rw [(hr b).found] at hm
      exact (Option.some.inj hm).symm
  | requireCertified m =>
    have hrunning : (r.calls b).hasEnded = false := by rw [hcall]; rfl
    rw [hcall] at hmanifest
    simp only [activateStep]
    split
    · exact hr.advance hrunning rfl hmanifest rfl
    · exact hr.fail hrunning _
  | requireApproved m =>
    have hrunning : (r.calls b).hasEnded = false := by rw [hcall]; rfl
    rw [hcall] at hmanifest
    simp only [activateStep]
    split
    · exact hr.advance hrunning rfl hmanifest rfl
    · exact hr.fail hrunning _
  | requireVersion m =>
    have hrunning : (r.calls b).hasEnded = false := by rw [hcall]; rfl
    rw [hcall] at hmanifest
    simp only [activateStep]
    split
    · rename_i existing hversion
      refine hr.move hrunning rfl hmanifest ?_
      intro existing' hexisting'
      cases hexisting'
      unfold Promotion.requireVersion at hversion
      simp only at hversion
      split at hversion
      · cases hversion
      · rename_i hsame
        cases hversion
        exact (not_not.mp hsame).symm
    · exact hr.fail hrunning _
  | save m existing =>
    have hrunning : (r.calls b).hasEnded = false := by rw [hcall]; rfl
    have hm : m = manifests b := hmanifest m (by rw [hcall]; rfl)
    subst hm
    simp only [activateStep]
    split
    · rename_i c' hsave
      have hsaved := saved_of_ok hsave
      have hfirst := hr.save_first hrivals hcall hguard rfl hsave
      have hmoves := hr.save_moves hcall hguard
      apply forall_calls
      · refine ⟨?_, ?_, ?_, fun _ => ⟨⟨_, hsaved.find, rfl, rfl⟩, hfirst, hmoves⟩⟩
        · show c'.manifests.find _ = _
          rw [hsaved.manifests]
          exact (hr b).found
        · intro m hm
          cases hm
        · intro existing' hexisting'
          cases hexisting'
      · refine ⟨?_, (hr (!b)).manifest, (hr (!b)).read, ?_⟩
        · show c'.manifests.find _ = _
          rw [hsaved.manifests]
          exact (hr (!b)).found
        · intro hreturned
          rw [hfirst] at hreturned
          cases hreturned
    · exact hr.fail hrunning _
  | returned activation =>
    rw [activateStep, ← hcall, Function.update_eq_self]
    exact hr
  | threw failure =>
    rw [activateStep, ← hcall, Function.update_eq_self]
    exact hr

theorem RaceInv.other_step (hr : RaceInv inputs manifests r) {a : Label}
    (ha : (RaceLabel.other a).activates = false) :
    RaceInv inputs manifests (raceStep sha256 inputs r (.other a)) := by
  intro b
  refine ⟨step_find_manifest (hr b).found, (hr b).manifest, (hr b).read, ?_⟩
  intro hreturned
  obtain ⟨hholder, hother⟩ := (hr b).won hreturned
  exact ⟨step_holder ha hholder, hother⟩

/-- A statement at which a call throws writes nothing. -/
theorem activateStep_threw {c : Catalog} {env : Env} {input : ActivateInput} {call : ActivateCall}
    {e : ProviderFailure} (h : (activateStep c env input call).2 = .threw e) :
    (activateStep c env input call).1 = c := by
  cases call with
  | readManifest => simp only [activateStep]; split <;> rfl
  | requireCertified m => simp only [activateStep]; split <;> rfl
  | requireApproved m => simp only [activateStep]; split <;> rfl
  | requireVersion m => simp only [activateStep]; split <;> rfl
  | save m existing =>
    simp only [activateStep] at h ⊢
    split at h
    · cases h
    · rfl
  | returned activation => rfl
  | threw failure => rfl

end

/-- **The lock holds where no save is stale.** Two activations of one tuple that expect the same
version and target different ones, among any other calls that are no activations: as long as every
save that updates the row finds the version its call read and moves it, at most one of them returns
and the row is left to it, and a call that throws has written nothing. -/
theorem activation_lock (sha256 : String → List UInt8) (inputs : Bool → ActivateInput)
    (manifests : Bool → ProviderPromotionManifest) (c : Catalog)
    (hrivals : Rivals inputs manifests c) (as : List RaceLabel)
    (hother : ∀ a ∈ as, a.activates = false)
    (hguard : AllSteps (raceStep sha256 inputs) (fun r a => saveGuarded r a = true)
      (Race.start c) as) :
    (∀ b, ((exec (raceStep sha256 inputs) (Race.start c) as).calls b).isReturned = true →
        ((exec (raceStep sha256 inputs) (Race.start c) as).calls (!b)).isReturned = false
          ∧ Holder (exec (raceStep sha256 inputs) (Race.start c) as).catalog (manifests b))
      ∧ AllSteps (raceStep sha256 inputs)
        (fun r a => ∀ b env e, a = .call b env →
          (raceStep sha256 inputs r a).calls b = .threw e →
          (raceStep sha256 inputs r a).catalog = r.catalog)
        (Race.start c) as := by
  have hsteps := (AllSteps.of_labels hother).and hguard
  have hstep : ∀ r a, RaceInv inputs manifests r → a.activates = false ∧ saveGuarded r a = true →
      RaceInv inputs manifests (raceStep sha256 inputs r a) := by
    intro r a hr ha
    cases a with
    | call b env => exact hr.call_step hrivals ha.2
    | other a => exact hr.other_step ha.1
  constructor
  · intro b hreturned
    have hend := exec_inv_of_allSteps hstep (raceInv_start hrivals) hsteps
    obtain ⟨hholder, hloser, -⟩ := (hend b).won hreturned
    exact ⟨hloser, hholder⟩
  · apply AllSteps.imp _ hsteps
    intro r a _ b env e ha hthrew
    subst ha
    simp only [raceStep, Function.update_self] at hthrew ⊢
    exact activateStep_threw hthrew

/-! ### Two operators -/

/-- A second and a third proposal for the tuple that is active under the first, each certified and
approved. -/
def rivalCatalog : Catalog :=
  exec (step manifestSha256) .empty (sandboxPromotion ++
    [⟨.propose sandboxProposal, sandboxEnv 6 60⟩,
      ⟨.propose sandboxProposal, sandboxEnv 7 70⟩,
      ⟨.certify 6 "sandbox" "cy" .PASSED "run-3" none, sandboxEnv 8 80⟩,
      ⟨.certify 7 "sandbox" "cy" .PASSED "run-4" none, sandboxEnv 9 90⟩,
      ⟨.approve 6 "compliance" "bo" .APPROVED none, sandboxEnv 10 100⟩,
      ⟨.approve 7 "compliance" "bo" .APPROVED none, sandboxEnv 11 110⟩])

/-- Both operators have read version 1. -/
def rivalInputs (b : Bool) : ActivateInput where
  manifestId := if b then 7 else 6
  environment := "sandbox"
  activatedBy := if b then "eve" else "dan"
  expectedCurrentManifestVersion := some 1

def rivalManifest (b : Bool) : ProviderPromotionManifest where
  id := if b then 7 else 6
  providerId := "plaid-income"
  capability := .INCOME
  mode := .AUTHORIZED_SANDBOX
  version := if b then 3 else 2
  adapterVersion := "1.0.0"
  endpointAllowlist := ["https://sandbox.example"]
  dataClassifications := ["income"]
  contentHash := "679144259ee4c39c6b67af1b0dc2a3463710b5fc54dbfb68af21ecc87fe76c45"
  proposedBy := "ada"
  validFrom := if b then 70 else 60
  validUntil := none
  declaredCommandClass := none

theorem rivals : Rivals rivalInputs rivalManifest rivalCatalog where
  found := by decide +kernel
  tuple := by decide
  version := by decide
  expected := by decide

/-- The four reads of a call. -/
def reads (b : Bool) : List RaceLabel := List.replicate 4 (.call b (sandboxEnv 12 120))

/-- One operator after the other: the second finds that the row has moved. -/
theorem activation_lock_oneAfterTheOther :
    ((exec (raceStep manifestSha256 rivalInputs) (Race.start rivalCatalog)
        (reads false ++ [.call false (sandboxEnv 12 120)] ++ reads true)).calls true).isReturned
      = false :=
  ((activation_lock manifestSha256 rivalInputs rivalManifest rivalCatalog rivals _
    (by decide) (by decide +kernel)).1 false (by decide +kernel)).1

/-- **A stale save overwrites.** Both operators compare the version before either saves; both
activations return, and the row is the second's. -/
theorem stale_save_overwrites :
    Rivals rivalInputs rivalManifest rivalCatalog
      ∧ ((exec (raceStep manifestSha256 rivalInputs) (Race.start rivalCatalog)
        (reads false ++ reads true ++ [.call false (sandboxEnv 12 120),
          .call true (sandboxEnv 13 130)])).calls false).isReturned = true
      ∧ ((exec (raceStep manifestSha256 rivalInputs) (Race.start rivalCatalog)
        (reads false ++ reads true ++ [.call false (sandboxEnv 12 120),
          .call true (sandboxEnv 13 130)])).calls true).isReturned = true :=
  ⟨rivals, by decide +kernel, by decide +kernel⟩

end MortgageAgent.Promotion
