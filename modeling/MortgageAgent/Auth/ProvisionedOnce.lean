import Mathlib.Data.Fintype.EquivFin
import MortgageAgent.Lib.Exclusive
import MortgageAgent.Lib.Table
import MortgageAgent.Auth.Provisioning

/-!
# One user for a subject, alone in its tenant

A user that signs up gets a tenant of its own, whoever else signs up at the same time, and a call
that loses the race for a subject leaves nothing behind. What can go wrong is the width of a
column: the email is measured before it is lowered, and lowering can lengthen it.

* **`Provisioned`** — what is promised of every state.
* **`FitsColumns`** — the condition: what a transaction inserts as a user fits its columns.
* **`ProvisionInv`** — ids, subjects and locks are exclusive; the rows are those of the start and
  of the transactions that committed.
* **`provisioned_of_fits`** — over every run whose steps meet the condition.
* **`lowered_email_throws`** — an email that outgrows its column.
-/

namespace MortgageAgent.Auth.Provisioning

open Runs

/-! ## The promise and its condition -/

def Eligible (deps : Deps) (call : ResolveCall) : Prop :=
  deps.signupEnabled = true ∧ call.isProvisionable = true

def FitsVarchar (n : Nat) (s : String) : Prop := '\x00' ∉ s.toList ∧ s.length ≤ n

/-- The subject and the normalised email fit `users`. -/
def ResolveCall.Fits (deps : Deps) (call : ResolveCall) : Prop :=
  FitsVarchar 255 call.accessClaims.sub ∧ FitsVarchar 320 (call.email deps)

/-- The statements that follow let the call return. -/
def CanReturn (deps : Deps) (s : System) (c : Nat) (call : ResolveCall) : Prop :=
  ∃ run : List Label, (∀ a ∈ run, ∃ c' env, a = .run c' env)
    ∧ ∃ result, (exec (step deps) s run).calls c = .returned call result

structure Provisioned (deps : Deps) (start : Db) (s : System) : Prop where
  oneUser : ∀ u ∈ s.db.users, ∀ v ∈ s.db.users, u.subject = v.subject → u = v
  /-- a call with provisionable claims returns the user of its subject -/
  returns : ∀ c call result, s.calls c = .returned call result → Eligible deps call →
    ∃ u ∈ s.db.users, u.subject = call.accessClaims.sub ∧ result = some u
  throws : ∀ c call e, s.calls c = .threw call e → e = .unavailable
  canReturn : ∀ c call, (s.calls c).inProgress = some call → call.Fits deps →
    CanReturn deps s c call
  /-- a new user has one membership, in a tenant of the same transaction that has no other -/
  created : ∀ u ∈ s.db.users, u ∉ start.users → ∃ p ∈ s.commits, p.user = u
    ∧ s.db.memberships.filter (fun m => m.userId = u.id) = [p.membership]
    ∧ p.membership.role = .PARTNER ∧ p.membership.tenantId = p.tenant.id
    ∧ p.tenant ∈ s.db.tenants ∧ p.tenant ∉ start.tenants
    ∧ s.db.memberships.filter (fun m => m.tenantId = p.tenant.id) = [p.membership]
  existing : ∀ u ∈ start.users, u ∈ s.db.users
    ∧ s.db.memberships.filter (fun m => m.userId = u.id)
      = start.memberships.filter (fun m => m.userId = u.id)
  /-- no tenant is left by a transaction that did not commit -/
  tenants : ∀ t ∈ s.db.tenants, t ∈ start.tenants ∨ ∃ p ∈ s.commits, p.tenant = t

def CallState.inserting : CallState → Option ResolveCall
  | .insertUser call _ => some call
  | _ => none

/-- What a transaction is about to insert as a user fits its columns. -/
def FitsColumns (deps : Deps) (s : System) : Label → Prop
  | .run c _ => ∀ call ∈ (s.calls c).inserting, call.Fits deps
  | _ => True

instance (n : Nat) (s : String) : Decidable (FitsVarchar n s) :=
  inferInstanceAs (Decidable (_ ∧ _))

instance (deps : Deps) (call : ResolveCall) : Decidable (call.Fits deps) :=
  inferInstanceAs (Decidable (_ ∧ _))

instance FitsColumns.decidable (deps : Deps) (s : System) : ∀ a, Decidable (FitsColumns deps s a)
  | .run c _ => inferInstanceAs (Decidable (∀ call ∈ (s.calls c).inserting, call.Fits deps))
  | .start _ _ => isTrue trivial
  | .fails _ => isTrue trivial
  | .unreported _ => isTrue trivial

theorem varchar_of_fits {n : Nat} {s : String} (h : FitsVarchar n s) : varchar n s = .ok s := by
  rw [varchar, if_neg h.1, if_neg (by have := h.2; omega)]

theorem newUser_of_fits {deps : Deps} {call : ResolveCall} (h : call.Fits deps) (id : Uuid) :
    newUser deps call id = .ok { id, subject := call.accessClaims.sub, email := call.email deps } := by
  rw [newUser, varchar_of_fits h.1, varchar_of_fits h.2]
  rfl

/-! ## What a call holds -/

/-- The tenant that the transaction of the call has inserted. -/
def CallState.tenantId : CallState → Option Uuid
  | .insertUser _ tenant | .insertMembership _ tenant _ => some tenant.id
  | .commit _ p => some p.tenant.id
  | _ => none

/-- The user that the transaction of the call has inserted. -/
def CallState.user : CallState → Option User
  | .insertMembership _ _ user => some user
  | .commit _ p => some p.user
  | _ => none

def CallState.userId (state : CallState) : Option Uuid := state.user.map (·.id)

def CallState.subject (state : CallState) : Option String := state.user.map (·.subject)

structure Provision.Joined (p : Provision) : Prop where
  tenant : p.membership.tenantId = p.tenant.id
  user : p.membership.userId = p.user.id
  role : p.membership.role = .PARTNER

/-- What a call knows where it stands. -/
def CallState.Ok (deps : Deps) (db : Db) : CallState → Prop
  | .idle => True
  | .lookup call | .insertTenant call | .insertUser call _ => Eligible deps call
  | .insertMembership call _ user => Eligible deps call ∧ user.subject = call.accessClaims.sub
  | .commit call p => Eligible deps call ∧ p.user.subject = call.accessClaims.sub ∧ p.Joined
  | .recover call => Eligible deps call ∧ ∃ u ∈ db.users, u.subject = call.accessClaims.sub
  | .returned call none => ¬ Eligible deps call
  | .returned call (some u) => u ∈ db.users ∧ u.subject = call.accessClaims.sub
  | .threw _ e => e = .unavailable

theorem CallState.Ok.mono {deps : Deps} {db db' : Db} {state : CallState} (h : state.Ok deps db)
    (husers : ∀ u ∈ db.users, u ∈ db'.users) : state.Ok deps db' := by
  cases state with
  | recover call =>
    obtain ⟨heligible, u, hu, hsubject⟩ := h
    exact ⟨heligible, u, husers u hu, hsubject⟩
  | returned call result =>
    cases result with
    | none => exact h
    | some u => exact ⟨husers u h.1, h.2⟩
  | idle => trivial
  | lookup call => exact h
  | insertTenant call => exact h
  | insertUser call tenant => exact h
  | insertMembership call tenant user => exact h
  | commit call p => exact h
  | threw call e => exact h

/-! ## Locks -/

/-- The locks are the subjects of the users that transactions have inserted. -/
def Locked (locks : List (Nat × String)) (calls : Nat → CallState) : Prop :=
  ∀ c subject, (c, subject) ∈ locks ↔ (calls c).subject = some subject

section Locks

variable {locks : List (Nat × String)} {calls : Nat → CallState} {c : Nat} {state : CallState}

theorem Locked.kept (h : Locked locks calls) (huser : state.user = (calls c).user) :
    Locked locks (Function.update calls c state) := by
  intro c' subject
  by_cases hc : c' = c
  · rw [hc, Function.update_self, CallState.subject, huser]
    exact h c subject
  · rw [Function.update_of_ne hc]
    exact h c' subject

theorem Locked.released (h : Locked locks calls) (huser : state.user = none) :
    Locked (locks.filter fun l => l.1 ≠ c) (Function.update calls c state) := by
  intro c' subject
  rw [List.mem_filter]
  by_cases hc : c' = c
  · rw [hc, Function.update_self, CallState.subject, huser]
    simp
  · rw [Function.update_of_ne hc, h c' subject]
    simp [hc]

theorem Locked.taken (h : Locked locks calls) (hwas : (calls c).user = none) {u : User}
    (huser : state.user = some u) :
    Locked ((c, u.subject) :: locks) (Function.update calls c state) := by
  intro c' subject
  rw [List.mem_cons]
  by_cases hc : c' = c
  · have hnot : (c, subject) ∉ locks := by
      rw [h c subject, CallState.subject, hwas]
      simp
    rw [hc, Function.update_self, CallState.subject, huser]
    simp only [Prod.mk.injEq, true_and, Option.map_some, Option.some.injEq]
    constructor
    · rintro (heq | hmem)
      · exact heq.symm
      · exact absurd hmem hnot
    · intro heq
      exact Or.inl heq.symm
  · rw [Function.update_of_ne hc, ← h c' subject]
    simp [hc]

end Locks

/-! ## The invariant -/

structure ProvisionInv (deps : Deps) (start : Db) (s : System) : Prop where
  tenants : s.db.tenants = start.tenants ++ s.commits.map (·.tenant)
  users : s.db.users = start.users ++ s.commits.map (·.user)
  memberships : s.db.memberships = start.memberships ++ s.commits.map (·.membership)
  joined : ∀ p ∈ s.commits, p.Joined
  tenantIds : Exclusive (start.ids ++ s.commits.map (·.tenant.id)) fun c => (s.calls c).tenantId
  userIds : Exclusive (start.ids ++ s.commits.map (·.user.id)) fun c => (s.calls c).userId
  subjects : Exclusive (s.db.users.map (·.subject)) fun c => (s.calls c).subject
  tenantsOnce : (s.commits.map (·.tenant.id)).Nodup ∧ ∀ p ∈ s.commits, p.tenant.id ∉ start.ids
  usersOnce : (s.commits.map (·.user.id)).Nodup ∧ ∀ p ∈ s.commits, p.user.id ∉ start.ids
  subjectsOnce : (s.db.users.map (·.subject)).Nodup
  drawn : ∀ id, id ∈ start.ids ++ s.commits.map (·.tenant.id)
    ∨ id ∈ start.ids ++ s.commits.map (·.user.id)
    ∨ (∃ c, (s.calls c).tenantId = some id) ∨ (∃ c, (s.calls c).userId = some id) → id ∈ s.drawn
  locked : Locked s.locks s.calls
  ok : ∀ c, (s.calls c).Ok deps s.db

theorem provisionInv_init (deps : Deps) {start : Db}
    (hunique : (start.users.map (·.subject)).Nodup) : ProvisionInv deps start (.init start) where
  tenants := by simp [System.init]
  users := by simp [System.init]
  memberships := by simp [System.init]
  joined := by
    intro p hp
    cases hp
  tenantIds := .none_reserved _
  userIds := .none_reserved _
  subjects := .none_reserved _
  tenantsOnce := ⟨List.nodup_nil, by intro p hp; cases hp⟩
  usersOnce := ⟨List.nodup_nil, by intro p hp; cases hp⟩
  subjectsOnce := hunique
  drawn := by
    intro id h
    simpa [System.init, CallState.tenantId, CallState.userId, CallState.user] using h
  locked := by
    intro c subject
    simp [System.init, CallState.subject, CallState.user]
  ok := fun _ => trivial

section Steps

variable {deps : Deps} {start : Db} {s : System} {c : Nat}

/-- A call moves on, holding at most what it held. -/
theorem ProvisionInv.moved (h : ProvisionInv deps start s) {state : CallState}
    (locks : List (Nat × String)) (drawn : List Uuid)
    (htenant : ∀ id, state.tenantId = some id → (s.calls c).tenantId = some id)
    (huser : ∀ u, state.user = some u → (s.calls c).user = some u)
    (hlocked : Locked locks (Function.update s.calls c state)) (hok : state.Ok deps s.db)
    (hdrawn : ∀ id ∈ s.drawn, id ∈ drawn) :
    ProvisionInv deps start ({ s with locks, drawn }.setCall c state) := by
  have hcalls {α : Type} {f : CallState → Option α}
      (hf : ∀ a, f state = some a → f (s.calls c) = some a) (c' : Nat) (a : α)
      (ha : f (Function.update s.calls c state c') = some a) : f (s.calls c') = some a := by
    by_cases hc : c' = c
    · rw [hc, Function.update_self] at ha
      rw [hc]
      exact hf a ha
    · rwa [Function.update_of_ne hc] at ha
  have huserId : ∀ id, state.userId = some id → (s.calls c).userId = some id := by
    intro id hid
    obtain ⟨u, hu, rfl⟩ := Option.map_eq_some_iff.mp hid
    exact Option.map_eq_some_iff.mpr ⟨u, huser u hu, rfl⟩
  have hsubject : ∀ a, state.subject = some a → (s.calls c).subject = some a := by
    intro a ha
    obtain ⟨u, hu, rfl⟩ := Option.map_eq_some_iff.mp ha
    exact Option.map_eq_some_iff.mpr ⟨u, huser u hu, rfl⟩
  refine ⟨h.tenants, h.users, h.memberships, h.joined, h.tenantIds.release (hcalls htenant),
    h.userIds.release (hcalls huserId), h.subjects.release (hcalls hsubject), h.tenantsOnce,
    h.usersOnce, h.subjectsOnce, ?_, hlocked, ?_⟩
  · rintro id (hid | hid | ⟨c', hid⟩ | ⟨c', hid⟩)
    · exact hdrawn id (h.drawn id (Or.inl hid))
    · exact hdrawn id (h.drawn id (Or.inr (Or.inl hid)))
    · exact hdrawn id (h.drawn id (Or.inr (Or.inr (Or.inl ⟨c', hcalls htenant c' id hid⟩))))
    · exact hdrawn id (h.drawn id (Or.inr (Or.inr (Or.inr ⟨c', hcalls huserId c' id hid⟩))))
  · intro c'
    show (Function.update s.calls c state c').Ok deps s.db
    by_cases hc : c' = c
    · rw [hc, Function.update_self]
      exact hok
    · rw [Function.update_of_ne hc]
      exact h.ok c'

/-- A call that holds nothing moves on. -/
theorem ProvisionInv.moved_none (h : ProvisionInv deps start s) {state : CallState}
    (huser : (s.calls c).user = none) (htenant : state.tenantId = none) (hnone : state.user = none)
    (hok : state.Ok deps s.db) : ProvisionInv deps start (s.setCall c state) := by
  refine h.moved s.locks s.drawn ?_ ?_ (h.locked.kept ?_) hok fun _ hid => hid
  · intro id hid
    rw [htenant] at hid
    cases hid
  · intro u hu
    rw [hnone] at hu
    cases hu
  · rw [hnone, huser]

/-- A call rolls its transaction back. -/
theorem ProvisionInv.rolledBack (h : ProvisionInv deps start s) {state : CallState}
    (htenant : state.tenantId = none) (hnone : state.user = none) (hok : state.Ok deps s.db) :
    ProvisionInv deps start ((s.release c).setCall c state) := by
  refine h.moved _ s.drawn ?_ ?_ (h.locked.released hnone) hok fun _ hid => hid
  · intro id hid
    rw [htenant] at hid
    cases hid
  · intro u hu
    rw [hnone] at hu
    cases hu

/-- What a call holds after one call has moved to a state that holds nothing of the kind. -/
theorem held_of_none {α : Type} {calls : Nat → CallState} {state : CallState} {f : CallState → Option α}
    (hnone : f state = none) (c' : Nat) (a : α)
    (ha : f (Function.update calls c state c') = some a) : f (calls c') = some a := by
  by_cases hc : c' = c
  · rw [hc, Function.update_self, hnone] at ha
    cases ha
  · rwa [Function.update_of_ne hc] at ha

/-- What a call holds after one call has moved to a state that holds the value `b`. -/
theorem held_of_some {α : Type} {calls : Nat → CallState} {state : CallState} {f : CallState → Option α}
    {b : α} (hsome : f state = some b) (c' : Nat) (a : α)
    (ha : f (Function.update calls c state c') = some a) : a = b ∨ f (calls c') = some a := by
  by_cases hc : c' = c
  · rw [hc, Function.update_self, hsome] at ha
    exact Or.inl (Option.some.inj ha).symm
  · rw [Function.update_of_ne hc] at ha
    exact Or.inr ha

theorem held_self {α : Type} (f : CallState → Option α) (calls : Nat → CallState) (c : Nat)
    (state : CallState) : f (Function.update calls c state c) = f state := by
  rw [Function.update_self]

theorem held_other {α : Type} (f : CallState → Option α) (calls : Nat → CallState) {c : Nat}
    (state : CallState) : ∀ c' ≠ c, f (Function.update calls c state c') = f (calls c') := by
  intro c' hc'
  rw [Function.update_of_ne hc']

/-- What a call holds after one call has moved to a state that holds the same. -/
theorem held_same {α : Type} {calls : Nat → CallState} {state : CallState} {f : CallState → Option α}
    (hsame : f state = f (calls c)) (c' : Nat) :
    f (Function.update calls c state c') = f (calls c') := by
  by_cases hc : c' = c
  · rw [hc, Function.update_self, hsame]
  · rw [Function.update_of_ne hc]

theorem ok_update (h : ∀ c, (s.calls c).Ok deps s.db) {state : CallState}
    (hok : state.Ok deps s.db) (c' : Nat) : (Function.update s.calls c state c').Ok deps s.db := by
  by_cases hc : c' = c
  · rw [hc, Function.update_self]
    exact hok
  · rw [Function.update_of_ne hc]
    exact h c'

/-- A transaction inserts its tenant. -/
theorem ProvisionInv.tenantInserted (h : ProvisionInv deps start s) {call : ResolveCall}
    (hc : s.calls c = .insertTenant call) {tenant : Tenant} (hfresh : tenant.id ∉ s.drawn) :
    ProvisionInv deps start
      ({ s with drawn := tenant.id :: s.drawn }.setCall c (.insertUser call tenant)) where
  tenants := h.tenants
  users := h.users
  memberships := h.memberships
  joined := h.joined
  tenantIds := by
    refine h.tenantIds.reserve (c := c) (a := tenant.id) ?_ ?_ ?_ ?_
    · exact fun hid => hfresh (h.drawn _ (Or.inl hid))
    · exact fun c' hc' => hfresh (h.drawn _ (Or.inr (Or.inr (Or.inl ⟨c', hc'⟩))))
    · exact held_self CallState.tenantId ..
    · exact held_other CallState.tenantId _ _
  userIds := h.userIds.release (held_of_none rfl)
  subjects := h.subjects.release (held_of_none rfl)
  tenantsOnce := h.tenantsOnce
  usersOnce := h.usersOnce
  subjectsOnce := h.subjectsOnce
  drawn := by
    rintro id (hid | hid | ⟨c', hid⟩ | ⟨c', hid⟩)
    · exact List.mem_cons_of_mem _ (h.drawn id (Or.inl hid))
    · exact List.mem_cons_of_mem _ (h.drawn id (Or.inr (Or.inl hid)))
    · rcases held_of_some (f := CallState.tenantId) rfl c' id hid with rfl | hold
      · exact List.mem_cons_self ..
      · exact List.mem_cons_of_mem _ (h.drawn id (Or.inr (Or.inr (Or.inl ⟨c', hold⟩))))
    · have hold := held_of_none (f := CallState.userId) rfl c' id hid
      exact List.mem_cons_of_mem _ (h.drawn id (Or.inr (Or.inr (Or.inr ⟨c', hold⟩))))
  locked := h.locked.kept (by rw [hc]; rfl)
  ok := by
    refine ok_update h.ok ?_
    have hok := h.ok c
    rwa [hc] at hok

/-- A transaction inserts its user, and has its subject in the index. -/
theorem ProvisionInv.userInserted (h : ProvisionInv deps start s) {call : ResolveCall}
    {tenant : Tenant} (hc : s.calls c = .insertUser call tenant) (user : User)
    (hsubject : user.subject = call.accessClaims.sub) (hfresh : user.id ∉ s.drawn)
    (hunlocked : ∀ c', (c', user.subject) ∉ s.locks)
    (hnew : user.subject ∉ s.db.users.map (·.subject)) :
    ProvisionInv deps start
      ({ s with
        locks := (c, user.subject) :: s.locks
        drawn := user.id :: s.drawn }.setCall c (.insertMembership call tenant user)) where
  tenants := h.tenants
  users := h.users
  memberships := h.memberships
  joined := h.joined
  tenantIds := by
    have hkeeps : CallState.tenantId (.insertMembership call tenant user) = (s.calls c).tenantId := by
      rw [hc]
      rfl
    exact h.tenantIds.release fun c' id hid => (held_same hkeeps c').symm.trans hid
  userIds := by
    refine h.userIds.reserve (c := c) (a := user.id) ?_ ?_ ?_ ?_
    · exact fun hid => hfresh (h.drawn _ (Or.inr (Or.inl hid)))
    · exact fun c' hc' => hfresh (h.drawn _ (Or.inr (Or.inr (Or.inr ⟨c', hc'⟩))))
    · exact held_self CallState.userId ..
    · exact held_other CallState.userId _ _
  subjects := by
    refine h.subjects.reserve (c := c) (a := user.subject) hnew ?_ ?_ ?_
    · exact fun c' hc' => hunlocked c' ((h.locked c' user.subject).mpr hc')
    · exact held_self CallState.subject ..
    · exact held_other CallState.subject _ _
  tenantsOnce := h.tenantsOnce
  usersOnce := h.usersOnce
  subjectsOnce := h.subjectsOnce
  drawn := by
    rintro id (hid | hid | ⟨c', hid⟩ | ⟨c', hid⟩)
    · exact List.mem_cons_of_mem _ (h.drawn id (Or.inl hid))
    · exact List.mem_cons_of_mem _ (h.drawn id (Or.inr (Or.inl hid)))
    · have hkeeps : CallState.tenantId (.insertMembership call tenant user) = (s.calls c).tenantId := by
        rw [hc]
        rfl
      have hold := (held_same hkeeps c').symm.trans hid
      exact List.mem_cons_of_mem _ (h.drawn id (Or.inr (Or.inr (Or.inl ⟨c', hold⟩))))
    · rcases held_of_some (f := CallState.userId) rfl c' id hid with rfl | hold
      · exact List.mem_cons_self ..
      · exact List.mem_cons_of_mem _ (h.drawn id (Or.inr (Or.inr (Or.inr ⟨c', hold⟩))))
  locked := h.locked.taken (by rw [hc]; rfl) rfl
  ok := by
    refine ok_update h.ok ?_
    have hok := h.ok c
    rw [hc] at hok
    exact ⟨hok, hsubject⟩

/-- A transaction commits: its rows are stored, and its lock is gone. -/
theorem ProvisionInv.stored (h : ProvisionInv deps start s) {call : ResolveCall} {p : Provision}
    (hc : s.calls c = .commit call p) {state : CallState} (htenant : state.tenantId = none)
    (huser : state.user = none) (hok : state.Ok deps (s.store p).db) :
    ProvisionInv deps start (((s.store p).release c).setCall c state) := by
  have hwas := h.ok c
  rw [hc] at hwas
  obtain ⟨-, -, hjoined⟩ := hwas
  have htenantId : (s.calls c).tenantId = some p.tenant.id := by rw [hc]; rfl
  have huserId : (s.calls c).userId = some p.user.id := by rw [hc]; rfl
  have hsubject : (s.calls c).subject = some p.user.subject := by rw [hc]; rfl
  have hnone {α : Type} {f : CallState → Option α} (hf : f state = none) :
      f (Function.update s.calls c state c) = none := (held_self f ..).trans hf
  have huserId' : state.userId = none := by rw [CallState.userId, huser]; rfl
  have hsubject' : state.subject = none := by rw [CallState.subject, huser]; rfl
  have htenants : start.ids ++ (s.commits ++ [p]).map (·.tenant.id)
      = (start.ids ++ s.commits.map (·.tenant.id)) ++ [p.tenant.id] := by simp
  have husers : start.ids ++ (s.commits ++ [p]).map (·.user.id)
      = (start.ids ++ s.commits.map (·.user.id)) ++ [p.user.id] := by simp
  have hsubjects : (s.db.users ++ [p.user]).map (·.subject)
      = s.db.users.map (·.subject) ++ [p.user.subject] := by simp
  refine ⟨?_, ?_, ?_, ?_, ?_, ?_, ?_, ?_, ?_, ?_, ?_, h.locked.released huser, ?_⟩
  · show s.db.tenants ++ [p.tenant] = start.tenants ++ (s.commits ++ [p]).map (·.tenant)
    rw [h.tenants]
    simp
  · show s.db.users ++ [p.user] = start.users ++ (s.commits ++ [p]).map (·.user)
    rw [h.users]
    simp
  · show s.db.memberships ++ [p.membership] = start.memberships ++ (s.commits ++ [p]).map (·.membership)
    rw [h.memberships]
    simp
  · intro q hq
    rcases List.mem_append.mp hq with hq | hq
    · exact h.joined q hq
    · rw [List.mem_singleton.mp hq]
      exact hjoined
  · show Exclusive (start.ids ++ (s.commits ++ [p]).map (·.tenant.id)) _
    rw [htenants]
    exact h.tenantIds.take htenantId (hnone htenant) (held_other _ _ _)
  · show Exclusive (start.ids ++ (s.commits ++ [p]).map (·.user.id)) _
    rw [husers]
    exact h.userIds.take huserId (hnone huserId') (held_other _ _ _)
  · show Exclusive ((s.db.users ++ [p.user]).map (·.subject)) _
    rw [hsubjects]
    exact h.subjects.take hsubject (hnone hsubject') (held_other _ _ _)
  · have hfree := h.tenantIds.free c _ htenantId
    rw [List.mem_append, not_or] at hfree
    refine ⟨?_, ?_⟩
    · show ((s.commits ++ [p]).map (·.tenant.id)).Nodup
      rw [List.map_append, List.map_singleton]
      exact List.nodup_append_comm.mp (List.nodup_cons.mpr ⟨hfree.2, h.tenantsOnce.1⟩)
    · intro q hq
      rcases List.mem_append.mp hq with hq | hq
      · exact h.tenantsOnce.2 q hq
      · rw [List.mem_singleton.mp hq]
        exact hfree.1
  · have hfree := h.userIds.free c _ huserId
    rw [List.mem_append, not_or] at hfree
    refine ⟨?_, ?_⟩
    · show ((s.commits ++ [p]).map (·.user.id)).Nodup
      rw [List.map_append, List.map_singleton]
      exact List.nodup_append_comm.mp (List.nodup_cons.mpr ⟨hfree.2, h.usersOnce.1⟩)
    · intro q hq
      rcases List.mem_append.mp hq with hq | hq
      · exact h.usersOnce.2 q hq
      · rw [List.mem_singleton.mp hq]
        exact hfree.1
  · show ((s.db.users ++ [p.user]).map (·.subject)).Nodup
    rw [hsubjects]
    exact h.subjects.nodup_take h.subjectsOnce hsubject
  · rintro id (hid | hid | ⟨c', hid⟩ | ⟨c', hid⟩)
    · have hid' : id ∈ start.ids ++ (s.commits ++ [p]).map (·.tenant.id) := hid
      rw [htenants, List.mem_append, List.mem_singleton] at hid'
      rcases hid' with hold | rfl
      · exact h.drawn id (Or.inl hold)
      · exact h.drawn _ (Or.inr (Or.inr (Or.inl ⟨c, htenantId⟩)))
    · have hid' : id ∈ start.ids ++ (s.commits ++ [p]).map (·.user.id) := hid
      rw [husers, List.mem_append, List.mem_singleton] at hid'
      rcases hid' with hold | rfl
      · exact h.drawn id (Or.inr (Or.inl hold))
      · exact h.drawn _ (Or.inr (Or.inr (Or.inr ⟨c, huserId⟩)))
    · have hold := held_of_none htenant c' id hid
      exact h.drawn id (Or.inr (Or.inr (Or.inl ⟨c', hold⟩)))
    · have hold := held_of_none huserId' c' id hid
      exact h.drawn id (Or.inr (Or.inr (Or.inr ⟨c', hold⟩)))
  · intro c'
    show (Function.update s.calls c state c').Ok deps (s.store p).db
    by_cases heq : c' = c
    · rw [heq, Function.update_self]
      exact hok
    · rw [Function.update_of_ne heq]
      exact (h.ok c').mono fun u hu => List.mem_append_left _ hu

/-! ## The steps -/

theorem findBySubject_eq_some {db : Db} {subject : String} {u : User}
    (h : db.findBySubject subject = some u) : u ∈ db.users ∧ u.subject = subject :=
  ⟨List.mem_of_find?_eq_some h, by simpa using List.find?_some h⟩

theorem findBySubject_eq_none {db : Db} {subject : String} :
    db.findBySubject subject = none ↔ subject ∉ db.users.map (·.subject) := by
  rw [Db.findBySubject, List.find?_eq_none, List.mem_map]
  simp

/-- The insert of a user that fits its columns. -/
theorem ProvisionInv.insertUser (h : ProvisionInv deps start s) {call : ResolveCall}
    {tenant : Tenant} (hc : s.calls c = .insertUser call tenant) {env : Env}
    (hfresh : env.newId ∉ s.drawn) (hfits : call.Fits deps) :
    ProvisionInv deps start (s.insertUser deps c env call tenant) := by
  have heligible := h.ok c
  rw [hc] at heligible
  rw [System.insertUser, newUser_of_fits hfits]
  dsimp only
  split
  · exact h
  · next hunlocked =>
    split
    · next hfound =>
      -- the winner has committed
      obtain ⟨u, hu⟩ := Option.isSome_iff_exists.mp hfound
      exact h.rolledBack rfl rfl ⟨heligible, u, findBySubject_eq_some hu⟩
    · next hnew =>
      let user : User :=
        { id := env.newId, subject := call.accessClaims.sub, email := call.email deps }
      refine h.userInserted hc user rfl hfresh ?_ ?_
      · intro c' hmem
        exact hunlocked (List.any_eq_true.mpr ⟨_, hmem, decide_eq_true rfl⟩)
      · rw [← findBySubject_eq_none]
        simpa using hnew

theorem ProvisionInv.run (h : ProvisionInv deps start s) (env : Env)
    (hfits : FitsColumns deps s (.run c env)) : ProvisionInv deps start (s.run deps c env) := by
  have hok := h.ok c
  unfold System.run
  split
  · next call hc =>
    rw [hc] at hok
    have huser : (s.calls c).user = none := by rw [hc]; rfl
    split
    · next u hfind => exact h.moved_none huser rfl rfl (findBySubject_eq_some hfind)
    · exact h.moved_none huser rfl rfl hok
  · next call hc =>
    split
    · exact h
    · next hfresh => exact h.tenantInserted hc hfresh
  · next call tenant hc =>
    split
    · exact h
    · next hfresh => exact h.insertUser hc hfresh (hfits call (by rw [hc]; rfl))
  · next call tenant user hc =>
    rw [hc] at hok
    split
    · exact h
    · refine h.moved s.locks _ ?_ ?_ (h.locked.kept ?_) ⟨hok.1, hok.2, rfl, rfl, rfl⟩
        fun _ hid => List.mem_cons_of_mem _ hid
      · intro id hid
        rw [hc]
        exact hid
      · intro u hu
        rw [hc]
        exact hu
      · rw [hc]
        rfl
  · next call p hc =>
    rw [hc] at hok
    refine h.stored hc rfl rfl ⟨?_, hok.2.1⟩
    exact List.mem_append_right _ (List.mem_singleton_self _)
  · next call hc =>
    rw [hc] at hok
    obtain ⟨-, u, hu, hsubject⟩ := hok
    have huser : (s.calls c).user = none := by rw [hc]; rfl
    cases hfind : s.db.findBySubject call.accessClaims.sub with
    | some found => exact h.moved_none huser rfl rfl (findBySubject_eq_some hfind)
    | none =>
      rw [findBySubject_eq_none] at hfind
      exact absurd (hsubject ▸ List.mem_map_of_mem hu) hfind
  · exact h

/-- **One step**, where users that are inserted fit their columns. -/
theorem ProvisionInv.step (h : ProvisionInv deps start s) {a : Label}
    (hfits : FitsColumns deps s a) : ProvisionInv deps start (step deps s a) := by
  cases a with
  | start c call =>
    simp only [Provisioning.step]
    split
    · next hidle =>
      have huser : (s.calls c).user = none := by rw [hidle]; rfl
      unfold System.start
      split
      · next u hfind => exact h.moved_none huser rfl rfl (findBySubject_eq_some hfind)
      · split
        · next heligible =>
          rw [Bool.and_eq_true] at heligible
          exact h.moved_none huser rfl rfl heligible
        · next hnot =>
          rw [Bool.and_eq_true] at hnot
          exact h.moved_none huser rfl rfl hnot
    · exact h
  | run c env => exact h.run env hfits
  | fails c =>
    simp only [Provisioning.step]
    split
    · exact h.rolledBack rfl rfl rfl
    · exact h
  | unreported c =>
    simp only [Provisioning.step]
    split
    · next call p hc => exact h.stored hc rfl rfl rfl
    · exact h

/-! ## Every call can return -/

theorem CanReturn.after {call : ResolveCall} (c' : Nat) (env : Env)
    (h : CanReturn deps (s.run deps c' env) c call) : CanReturn deps s c call := by
  obtain ⟨run, hrun, result, hreturned⟩ := h
  refine ⟨.run c' env :: run, ?_, result, hreturned⟩
  intro a ha
  rcases List.mem_cons.mp ha with rfl | ha
  · exact ⟨c', env, rfl⟩
  · exact hrun a ha

theorem CanReturn.of_returned {call : ResolveCall} {result : Option User}
    (h : s.calls c = .returned call result) : CanReturn deps s c call :=
  ⟨[], by simp, result, h⟩

theorem exists_env (s : System) : ∃ env : Env, env.newId ∉ s.drawn := by
  obtain ⟨id, hid⟩ := Infinite.exists_notMem_finset s.drawn.toFinset
  exact ⟨{ newId := id, newText := "" }, fun hmem => hid (List.mem_toFinset.mpr hmem)⟩

theorem setCall_self (s : System) (c : Nat) (state : CallState) : (s.setCall c state).calls c = state :=
  Function.update_self ..

theorem setCall_other (s : System) {c c' : Nat} (hc : c' ≠ c) (state : CallState) :
    (s.setCall c state).calls c' = s.calls c' :=
  Function.update_of_ne hc ..

theorem canReturn_of_commit {call : ResolveCall} {p : Provision}
    (hc : s.calls c = .commit call p) : CanReturn deps s c call := by
  obtain ⟨env, -⟩ := exists_env s
  have hnext : (s.run deps c env).calls c = .returned call (some p.user) := by
    rw [System.run, hc]
    exact setCall_self ..
  exact .after c env (.of_returned hnext)

theorem canReturn_of_recover {call : ResolveCall} (hc : s.calls c = .recover call) :
    CanReturn deps s c call := by
  obtain ⟨env, -⟩ := exists_env s
  have hnext : (s.run deps c env).calls c
      = .returned call (s.db.findBySubject call.accessClaims.sub) := by
    rw [System.run, hc]
    exact setCall_self ..
  exact .after c env (.of_returned hnext)

/-- A transaction that has inserted its user goes on to commit. -/
theorem canReturn_of_insertMembership {call : ResolveCall} {tenant : Tenant} {user : User}
    (hc : s.calls c = .insertMembership call tenant user) : CanReturn deps s c call := by
  obtain ⟨env, hfresh⟩ := exists_env s
  refine .after c env ?_
  have hrun : ∃ p, (s.run deps c env).calls c = .commit call p := by
    rw [System.run, hc]
    dsimp only
    rw [if_neg hfresh]
    exact ⟨_, setCall_self ..⟩
  obtain ⟨p, hp⟩ := hrun
  exact canReturn_of_commit hp

/-- An insert that no transaction stands in the way of. -/
theorem canReturn_of_unlocked {call : ResolveCall} {tenant : Tenant}
    (hc : s.calls c = .insertUser call tenant) (hfits : call.Fits deps)
    (hunlocked : ∀ c', (c', call.accessClaims.sub) ∉ s.locks) : CanReturn deps s c call := by
  obtain ⟨env, hfresh⟩ := exists_env s
  refine .after c env ?_
  have hnone : (s.locks.any fun l => l.2 = call.accessClaims.sub) = false := by
    rw [Bool.eq_false_iff]
    intro hany
    obtain ⟨l, hl, hsubject⟩ := List.any_eq_true.mp hany
    exact hunlocked l.1 (of_decide_eq_true hsubject ▸ hl)
  have hrun : s.run deps c env = s.insertUser deps c env call tenant := by
    rw [System.run, hc]
    exact if_neg hfresh
  rw [hrun, System.insertUser, newUser_of_fits hfits]
  dsimp only
  rw [hnone, if_neg (by simp)]
  split
  · exact canReturn_of_recover (setCall_self ..)
  · exact canReturn_of_insertMembership (setCall_self ..)

/-- An insert that waits for a transaction about to commit. -/
theorem ProvisionInv.canReturn_behind_commit (h : ProvisionInv deps start s) {call : ResolveCall}
    {tenant : Tenant} (hc : s.calls c = .insertUser call tenant) (hfits : call.Fits deps) {c' : Nat}
    {call' : ResolveCall} {p : Provision} (hc' : s.calls c' = .commit call' p)
    (hsubject : p.user.subject = call.accessClaims.sub) : CanReturn deps s c call := by
  obtain ⟨env, -⟩ := exists_env s
  refine .after c' env ?_
  have hne : c ≠ c' := by
    rintro rfl
    rw [hc] at hc'
    cases hc'
  have hrun : s.run deps c' env
      = ((s.store p).release c').setCall c' (.returned call' (some p.user)) := by
    rw [System.run, hc']
  rw [hrun]
  have hstill : (((s.store p).release c').setCall c' (.returned call' (some p.user))).calls c
      = .insertUser call tenant := by
    rw [setCall_other _ hne]
    exact hc
  refine canReturn_of_unlocked hstill hfits fun c'' hmem => ?_
  obtain ⟨hlock, hother⟩ := List.mem_filter.mp hmem
  have hheld : (s.calls c'').subject = some call.accessClaims.sub := (h.locked c'' _).mp hlock
  have hwinner : (s.calls c').subject = some call.accessClaims.sub := by
    rw [hc', ← hsubject]
    rfl
  have hsame := h.subjects.apart c'' c' _ hheld hwinner
  simp [hsame] at hother

/-- An insert waits at most for one other transaction. -/
theorem ProvisionInv.canReturn_of_insertUser (h : ProvisionInv deps start s) {call : ResolveCall}
    {tenant : Tenant} (hc : s.calls c = .insertUser call tenant) (hfits : call.Fits deps) :
    CanReturn deps s c call := by
  by_cases hlock : ∃ c', (c', call.accessClaims.sub) ∈ s.locks
  · obtain ⟨c', hlock⟩ := hlock
    have hheld := (h.locked c' _).mp hlock
    generalize hstate : s.calls c' = state at hheld
    cases state with
    | commit call' p => exact h.canReturn_behind_commit hc hfits hstate (Option.some.inj hheld)
    | insertMembership call' tenant' user =>
      obtain ⟨env, hfresh⟩ := exists_env s
      refine .after c' env ?_
      have hnext : (s.run deps c' env) = { s with drawn := env.newId :: s.drawn }.setCall c'
          (.commit call'
            { tenant := tenant'
              user
              membership :=
                { id := env.newId, tenantId := tenant'.id, userId := user.id, role := .PARTNER } }) := by
        rw [System.run, hstate]
        exact if_neg hfresh
      have hne : c ≠ c' := by
        rintro rfl
        rw [hc] at hstate
        cases hstate
      have hinv : ProvisionInv deps start (s.run deps c' env) := by
        refine h.run env fun call'' hinsert => ?_
        rw [hstate] at hinsert
        cases hinsert
      have hstill : (s.run deps c' env).calls c = .insertUser call tenant := by
        rw [hnext, setCall_other _ hne]
        exact hc
      have hcommit := congrArg (·.calls c') hnext
      rw [setCall_self] at hcommit
      exact hinv.canReturn_behind_commit hstill hfits hcommit (Option.some.inj hheld)
    | idle => cases hheld
    | lookup call' => cases hheld
    | insertTenant call' => cases hheld
    | insertUser call' tenant' => cases hheld
    | recover call' => cases hheld
    | returned call' result => cases hheld
    | threw call' e => cases hheld
  · exact canReturn_of_unlocked hc hfits fun c' hmem => hlock ⟨c', hmem⟩

theorem ProvisionInv.canReturn_of_insertTenant (h : ProvisionInv deps start s) {call : ResolveCall}
    (hc : s.calls c = .insertTenant call) (hfits : call.Fits deps) : CanReturn deps s c call := by
  obtain ⟨env, hfresh⟩ := exists_env s
  refine .after c env ?_
  have hinv : ProvisionInv deps start (s.run deps c env) := by
    refine h.run env fun call' hinsert => ?_
    rw [hc] at hinsert
    cases hinsert
  have hrun : ∃ tenant, (s.run deps c env).calls c = .insertUser call tenant := by
    rw [System.run, hc]
    dsimp only
    rw [if_neg hfresh]
    exact ⟨_, setCall_self ..⟩
  obtain ⟨tenant, htenant⟩ := hrun
  exact hinv.canReturn_of_insertUser htenant hfits

theorem ProvisionInv.canReturn (h : ProvisionInv deps start s) {call : ResolveCall}
    (hc : (s.calls c).inProgress = some call) (hfits : call.Fits deps) :
    CanReturn deps s c call := by
  generalize hstate : s.calls c = state at hc
  cases state with
  | lookup call' =>
    cases hc
    obtain ⟨env, -⟩ := exists_env s
    refine .after c env ?_
    have hinv : ProvisionInv deps start (s.run deps c env) := by
      refine h.run env fun call' hinsert => ?_
      rw [hstate] at hinsert
      cases hinsert
    cases hfind : s.db.findBySubject call.accessClaims.sub with
    | some found =>
      have hrun : s.run deps c env = s.setCall c (.returned call (some found)) := by
        rw [System.run, hstate]
        simp only [hfind]
      rw [hrun]
      exact .of_returned (setCall_self ..)
    | none =>
      have hrun : s.run deps c env = s.setCall c (.insertTenant call) := by
        rw [System.run, hstate]
        simp only [hfind]
      rw [hrun] at hinv ⊢
      exact hinv.canReturn_of_insertTenant (setCall_self ..) hfits
  | insertTenant call' =>
    cases hc
    exact h.canReturn_of_insertTenant hstate hfits
  | insertUser call' tenant =>
    cases hc
    exact h.canReturn_of_insertUser hstate hfits
  | insertMembership call' tenant user =>
    cases hc
    exact canReturn_of_insertMembership hstate
  | commit call' p =>
    cases hc
    exact canReturn_of_commit hstate
  | recover call' =>
    cases hc
    exact canReturn_of_recover hstate
  | idle => cases hc
  | returned call' result => cases hc
  | threw call' e => cases hc

end Steps

/-! ## What the invariant promises -/

theorem mem_ids_of_membership {db : Db} {m : TenantMembership} (hm : m ∈ db.memberships) :
    m.tenantId ∈ db.ids ∧ m.userId ∈ db.ids := by
  unfold Db.ids
  constructor
  · exact List.mem_append_right _ (List.mem_flatMap.mpr ⟨m, hm, by simp⟩)
  · exact List.mem_append_right _ (List.mem_flatMap.mpr ⟨m, hm, by simp⟩)

theorem mem_ids_of_user {db : Db} {u : User} (hu : u ∈ db.users) : u.id ∈ db.ids :=
  List.mem_append_left _ (List.mem_append_right _ (List.mem_map_of_mem hu))

theorem mem_ids_of_tenant {db : Db} {t : Tenant} (ht : t ∈ db.tenants) : t.id ∈ db.ids :=
  List.mem_append_left _ (List.mem_append_left _ (List.mem_map_of_mem ht))

/-- Of rows before the commits that none of them mentions and of commits that are told apart by a
key, the key of a commit leads to its row alone. -/
theorem filter_commits {old : List TenantMembership} {commits : List Provision}
    {key : TenantMembership → Uuid} {f : Provision → Uuid} (hkey : ∀ p ∈ commits, key p.membership = f p)
    (hold : ∀ m ∈ old, ∀ p ∈ commits, key m ≠ f p) (honce : (commits.map f).Nodup) {p : Provision}
    (hp : p ∈ commits) :
    (old ++ commits.map (·.membership)).filter (fun m => key m = f p) = [p.membership] := by
  have hnone : old.filter (fun m => key m = f p) = [] := by
    rw [List.filter_eq_nil_iff]
    intro m hm heq
    exact hold m hm p hp (of_decide_eq_true heq)
  have hcommits : (commits.map (·.membership)).filter (fun m => key m = f p)
      = (commits.filter fun q => f q = f p).map (·.membership) := by
    rw [List.filter_map]
    congr 1
    refine List.filter_congr fun q hq => ?_
    simp [hkey q hq]
  rw [List.filter_append, hnone, hcommits, List.filter_eq_singleton_of_nodup_map honce hp]
  rfl

theorem ProvisionInv.provisioned {deps : Deps} {start : Db} {s : System}
    (h : ProvisionInv deps start s) : Provisioned deps start s where
  oneUser := fun u hu v hv hsame => List.inj_on_of_nodup_map h.subjectsOnce hu hv hsame
  returns := by
    intro c call result hc heligible
    have hok := h.ok c
    rw [hc] at hok
    cases result with
    | none => exact absurd heligible hok
    | some u => exact ⟨u, hok.1, hok.2, rfl⟩
  throws := by
    intro c call e hc
    have hok := h.ok c
    rwa [hc] at hok
  canReturn := fun c call hc hfits => h.canReturn hc hfits
  created := by
    intro u hu hnew
    rw [h.users, List.mem_append] at hu
    obtain ⟨p, hp, rfl⟩ := List.mem_map.mp (hu.resolve_left hnew)
    refine ⟨p, hp, rfl, ?_, (h.joined p hp).role, (h.joined p hp).tenant, ?_, ?_, ?_⟩
    · rw [h.memberships]
      refine filter_commits (fun q hq => (h.joined q hq).user) ?_ h.usersOnce.1 hp
      intro m hm q hq heq
      exact h.usersOnce.2 q hq (heq ▸ (mem_ids_of_membership hm).2)
    · rw [h.tenants]
      exact List.mem_append_right _ (List.mem_map_of_mem hp)
    · exact fun ht => h.tenantsOnce.2 p hp (mem_ids_of_tenant ht)
    · rw [h.memberships]
      refine filter_commits (fun q hq => (h.joined q hq).tenant) ?_ h.tenantsOnce.1 hp
      intro m hm q hq heq
      exact h.tenantsOnce.2 q hq (heq ▸ (mem_ids_of_membership hm).1)
  existing := by
    intro u hu
    have hnone : (s.commits.map (·.membership)).filter (fun m => m.userId = u.id) = [] := by
      rw [List.filter_eq_nil_iff]
      intro m hm heq
      obtain ⟨p, hp, rfl⟩ := List.mem_map.mp hm
      have hid : p.user.id = u.id := (h.joined p hp).user.symm.trans (of_decide_eq_true heq)
      exact h.usersOnce.2 p hp (hid ▸ mem_ids_of_user hu)
    refine ⟨?_, ?_⟩
    · rw [h.users]
      exact List.mem_append_left _ hu
    · rw [h.memberships, List.filter_append, hnone, List.append_nil]
  tenants := by
    intro t ht
    rw [h.tenants, List.mem_append] at ht
    rcases ht with hold | hnew
    · exact Or.inl hold
    · exact Or.inr (List.mem_map.mp hnew)

/-- **Self-service provisioning.** In every interleaving of calls for any subjects and claims in
which each user that a transaction inserts fits its columns, a subject has one user, every call
with provisionable claims returns it, a new user is alone in a tenant of its own, nothing changes
for the users that were there, and no tenant is left behind. -/
theorem provisioned_of_fits (deps : Deps) (start : Db)
    (hunique : (start.users.map (·.subject)).Nodup) (run : List Label)
    (hfits : AllSteps (step deps) (FitsColumns deps) (.init start) run) :
    Provisioned deps start (exec (step deps) (.init start) run) :=
  (exec_inv_of_allSteps (fun _ _ h hs => h.step hs) (provisionInv_init deps hunique) hfits).provisioned

/-! ## Two logins at once, and an email that outgrows its column -/

/-- `'İ'.toLowerCase()` is an `i` and a dot above it. -/
def lowered (s : String) : String :=
  String.ofList (s.toList.flatMap fun c => if c = 'İ' then ['i', '\u0307'] else [c.toLower])

def signupDeps : Deps where
  signupEnabled := true
  toLowerCase := lowered

def noRows : Db where
  tenants := []
  users := []
  memberships := []

def loginWith (email : String) : ResolveCall where
  accessClaims := { sub := "subject" }
  identityClaims := some { sub := "subject", email := some email }

def envOf (id : Uuid) : Env where
  newId := id
  newText := "0f5c2b1e-6d1f-4a34-9f0e-5a2f6c1d7b90"

/-- Both calls are past both lookups before either inserts; the second loses and recovers. -/
def twoLogins : List Label :=
  [.start 0 (loginWith "Ada@Example.org"), .start 1 (loginWith "Ada@Example.org"),
    .run 0 (envOf 1), .run 1 (envOf 1), .run 0 (envOf 1), .run 1 (envOf 2), .run 0 (envOf 3),
    .run 1 (envOf 4), .run 0 (envOf 5), .run 0 (envOf 6), .run 1 (envOf 6), .run 1 (envOf 7)]

theorem provisioned_twoLogins :
    Provisioned signupDeps noRows (exec (step signupDeps) (.init noRows) twoLogins) :=
  provisioned_of_fits signupDeps noRows (by decide) twoLogins (by decide +kernel)

/-- An email that outgrows its column on the way there ends the call. -/
theorem run_throws {deps : Deps} {s : System} {c : Nat} {call : ResolveCall} {tenant : Tenant}
    (hc : s.calls c = .insertUser call tenant) {env : Env} (hfresh : env.newId ∉ s.drawn)
    (hsubject : FitsVarchar 255 call.accessClaims.sub) (hnul : '\x00' ∉ (call.email deps).toList)
    (hlong : 320 < (call.email deps).length) :
    (s.run deps c env).calls c = .threw call .stringDataRightTruncation := by
  have hemail : varchar 320 (call.email deps) = .error .stringDataRightTruncation := by
    rw [varchar, if_neg hnul, if_pos hlong]
  have huser : newUser deps call env.newId = .error .stringDataRightTruncation := by
    rw [newUser, varchar_of_fits hsubject, hemail]
    rfl
  rw [System.run, hc]
  dsimp only
  rw [if_neg hfresh, System.insertUser, huser]
  exact setCall_self ..

theorem loginWith_provisionableEmail {email : String} (hlength : jsLength email ≤ 320)
    (hpattern : isEmailPattern email = true) :
    (loginWith email).provisionableEmail = some email := if_pos ⟨rfl, hlength, hpattern⟩

/-- A first login, as far as the insert of its user. -/
def firstLogin (call : ResolveCall) : List Label :=
  [.start 0 call, .run 0 (envOf 1), .run 0 (envOf 1)]

theorem exec_firstLogin {call : ResolveCall} (h : call.isProvisionable = true) :
    ∃ tenant s, exec (step signupDeps) (.init noRows) (firstLogin call) = s
      ∧ s.calls 0 = .insertUser call tenant ∧ s.drawn = [1] := by
  have hstart : step signupDeps (.init noRows) (.start 0 call)
      = (System.init noRows).setCall 0 (.lookup call) := by
    show (if true && call.isProvisionable then _ else _) = _
    rw [h]
    rfl
  rw [firstLogin, exec_cons, hstart]
  exact ⟨_, _, rfl, rfl, rfl⟩

/-- 163 characters, and 322 when lowered. -/
def longEmail : List Char := List.replicate 159 'İ' ++ ['@', 'a', '.', 'b']

def longLogin : ResolveCall := loginWith (String.ofList longEmail)

theorem longLogin_provisionableEmail :
    longLogin.provisionableEmail = some (String.ofList longEmail) := by
  refine loginWith_provisionableEmail ?_ ?_
  · rw [jsLength, String.toList_ofList]
    decide +kernel
  · rw [isEmailPattern, String.toList_ofList]
    decide +kernel

theorem longLogin_email : (longLogin.email signupDeps).toList
    = longEmail.flatMap fun c => if c = 'İ' then ['i', '\u0307'] else [c.toLower] := by
  have htrim : ((longEmail.dropWhile isJsWhitespace).reverse.dropWhile isJsWhitespace).reverse
      = longEmail := by decide +kernel
  show (lowered _).toList = _
  rw [longLogin_provisionableEmail, Option.getD_some, jsTrim, trimWhere, String.toList_ofList,
    htrim, lowered, String.toList_ofList, String.toList_ofList]

/-- **A login whose email is 320 characters at most and provisionable throws.** -/
theorem lowered_email_throws :
    signupDeps.signupEnabled = true ∧ longLogin.isProvisionable = true
      ∧ ¬ Provisioned signupDeps noRows (exec (step signupDeps) (.init noRows)
        (firstLogin longLogin ++ [.run 0 (envOf 2)])) := by
  have hprovisionable : longLogin.isProvisionable = true := by
    rw [ResolveCall.isProvisionable, longLogin_provisionableEmail]
    rfl
  refine ⟨rfl, hprovisionable, fun h => ?_⟩
  obtain ⟨tenant, s, hs, hc, hdrawn⟩ := exec_firstLogin hprovisionable
  have hfresh : (envOf 2).newId ∉ s.drawn := by
    rw [hdrawn]
    decide
  have hnul : '\x00' ∉ (longLogin.email signupDeps).toList := by
    rw [longLogin_email]
    decide +kernel
  have hlong : 320 < (longLogin.email signupDeps).length := by
    rw [← String.length_toList, longLogin_email]
    decide +kernel
  have hsubject : FitsVarchar 255 longLogin.accessClaims.sub := by
    show FitsVarchar 255 "subject"
    decide +kernel
  have hthrew : (s.run signupDeps 0 (envOf 2)).calls 0
      = .threw longLogin .stringDataRightTruncation :=
    run_throws hc hfresh hsubject hnul hlong
  rw [exec_append, hs] at h
  cases h.throws 0 longLogin .stringDataRightTruncation hthrew

end MortgageAgent.Auth.Provisioning
