import Mathlib.Logic.Function.Basic
import MortgageAgent.Lib.Run
import MortgageAgent.Auth.Identity

/-!
# Self-service provisioning

`resolveUser` looks the subject of a login up, and where it is new creates a tenant, a user and a
membership in one transaction. Two first logins of one subject can both get past both lookups;
then the unique index on `users.subject` decides: the second insert waits for the first
transaction, fails when that commits, and the call reads the user it lost to.

* **`isProvisionable`** — the claims a user is made from.
* **`System`** / **`Label`** / **`step`** — any number of calls in any order, statement by statement.
  What a transaction has inserted is in its call until it commits; its entry in the unique index
  is a lock that the others wait for.
-/

namespace MortgageAgent.Auth.Provisioning

/-! ## Claims -/

/-- `/^[^\s@]+@[^\s@]+\.[^\s@]+$/`: no blank, one `@`, and behind it a dot that is neither first nor
last. -/
def isEmailPattern (email : String) : Bool :=
  email.toList.all (fun c => !isJsWhitespace c) &&
    match email.toList.splitOn '@' with
    | [name, domain] => !name.isEmpty && (domain.drop 1).dropLast.contains '.'
    | _ => false

structure ResolveCall where
  accessClaims : OidcClaims
  identityClaims : Option OidcClaims
  deriving DecidableEq, Repr

/-- The email to store, before it is normalised, if the claims are provisionable. -/
def ResolveCall.provisionableEmail (call : ResolveCall) : Option String := do
  let identityClaims ← call.identityClaims
  let email ← identityClaims.email
  if identityClaims.sub = call.accessClaims.sub ∧ jsLength email ≤ 320 ∧ isEmailPattern email then
    some email
  else none

def ResolveCall.isProvisionable (call : ResolveCall) : Bool := call.provisionableEmail.isSome

structure Deps where
  /-- `SELF_SERVICE_SIGNUP_ENABLED` -/
  signupEnabled : Bool
  /-- `String.prototype.toLowerCase` -/
  toLowerCase : String → String

/-- `identityClaims.email.trim().toLowerCase()`. -/
def ResolveCall.email (deps : Deps) (call : ResolveCall) : String :=
  deps.toLowerCase (jsTrim (call.provisionableEmail.getD ""))

/-! ## Rows and errors -/

/-- Ids are drawn fresh, so they need no check; `memberships` has no foreign key. -/
structure Db where
  tenants : List Tenant
  users : List User
  memberships : List TenantMembership
  deriving DecidableEq, Repr

/-- Every id that a row has or mentions. -/
def Db.ids (db : Db) : List Uuid :=
  db.tenants.map (·.id) ++ db.users.map (·.id)
    ++ db.memberships.flatMap fun m => [m.id, m.tenantId, m.userId]

def Db.findBySubject (db : Db) (subject : String) : Option User :=
  db.users.find? fun u => u.subject = subject

inductive QueryError where
  | uniqueViolation
  | stringDataRightTruncation
  | characterNotInRepertoire
  /-- the connection failed, or the process died -/
  | unavailable
  deriving DecidableEq, Repr

def QueryError.code : QueryError → Option String
  | .uniqueViolation => some "23505"
  | .stringDataRightTruncation => some "22001"
  | .characterNotInRepertoire => some "22021"
  | .unavailable => none

def isUniqueViolation (error : QueryError) : Bool := error.code = some "23505"

/-- A value for a `varchar(n)` column: characters are code points, and there is no U+0000. -/
def varchar (n : Nat) (s : String) : Except QueryError String :=
  if '\x00' ∈ s.toList then .error .characterNotInRepertoire
  else if n < s.length then .error .stringDataRightTruncation
  else .ok s

/-! ## Calls in any order -/

/-- What a transaction inserts. -/
structure Provision where
  tenant : Tenant
  user : User
  membership : TenantMembership
  deriving DecidableEq, Repr

inductive CallState where
  | idle
  /-- behind the first lookup and the checks; the transaction begins with a lookup of its own -/
  | lookup (call : ResolveCall)
  | insertTenant (call : ResolveCall)
  | insertUser (call : ResolveCall) (tenant : Tenant)
  | insertMembership (call : ResolveCall) (tenant : Tenant) (user : User)
  | commit (call : ResolveCall) (provision : Provision)
  /-- rolled back on a unique violation; the user is read outside the transaction -/
  | recover (call : ResolveCall)
  | returned (call : ResolveCall) (result : Option User)
  | threw (call : ResolveCall) (error : QueryError)
  deriving DecidableEq, Repr

structure System where
  db : Db
  /-- the entries of the index on `users.subject` that are not committed, with their calls -/
  locks : List (Nat × String)
  calls : Nat → CallState
  /-- every id that is stored or drawn -/
  drawn : List Uuid
  /-- the transactions that have committed, in order -/
  commits : List Provision

/-- What a statement takes from outside: the id it draws, and the text of a `randomUUID()`. -/
structure Env where
  newId : Uuid
  newText : String

inductive Label where
  | start (c : Nat) (call : ResolveCall)
  /-- the next statement of a call -/
  | run (c : Nat) (env : Env)
  /-- the connection of a call fails, or its process dies -/
  | fails (c : Nat)
  /-- the transaction of a call commits, and its answer does not arrive -/
  | unreported (c : Nat)

def System.setCall (s : System) (c : Nat) (state : CallState) : System :=
  { s with calls := Function.update s.calls c state }

/-- The transaction of the call is over, one way or the other. -/
def System.release (s : System) (c : Nat) : System :=
  { s with locks := s.locks.filter fun l => l.1 ≠ c }

def System.start (deps : Deps) (s : System) (c : Nat) (call : ResolveCall) : System :=
  match s.db.findBySubject call.accessClaims.sub with
  | some existing => s.setCall c (.returned call (some existing))
  | none =>
    if deps.signupEnabled && call.isProvisionable then s.setCall c (.lookup call)
    else s.setCall c (.returned call none)

/-- `catch (error)`: the transaction is rolled back. -/
def System.caught (s : System) (c : Nat) (call : ResolveCall) (error : QueryError) : System :=
  if isUniqueViolation error then (s.release c).setCall c (.recover call)
  else (s.release c).setCall c (.threw call error)

def newUser (deps : Deps) (call : ResolveCall) (id : Uuid) : Except QueryError User := do
  let subject ← varchar 255 call.accessClaims.sub
  let email ← varchar 320 (call.email deps)
  return { id, subject, email }

/-- The insert of a user: it waits for a transaction that has the subject in the index. -/
def System.insertUser (deps : Deps) (s : System) (c : Nat) (env : Env) (call : ResolveCall)
    (tenant : Tenant) : System :=
  match newUser deps call env.newId with
  | .error e => s.caught c call e
  | .ok user =>
    if s.locks.any fun l => l.2 = user.subject then s
    else if (s.db.findBySubject user.subject).isSome then s.caught c call .uniqueViolation
    else
      { s with
        locks := (c, user.subject) :: s.locks
        drawn := env.newId :: s.drawn }.setCall c (.insertMembership call tenant user)

def System.store (s : System) (p : Provision) : System :=
  { s with
    db :=
      { tenants := s.db.tenants ++ [p.tenant]
        users := s.db.users ++ [p.user]
        memberships := s.db.memberships ++ [p.membership] }
    commits := s.commits ++ [p] }

/-- The next statement of a call; an id that was drawn before is not drawn again. -/
def System.run (deps : Deps) (s : System) (c : Nat) (env : Env) : System :=
  match s.calls c with
  | .lookup call =>
    match s.db.findBySubject call.accessClaims.sub with
    | some concurrentUser => s.setCall c (.returned call (some concurrentUser))
    | none => s.setCall c (.insertTenant call)
  | .insertTenant call =>
    if env.newId ∈ s.drawn then s
    else
      { s with drawn := env.newId :: s.drawn }.setCall c (.insertUser call
        { id := env.newId
          name := "Self-service workspace " ++ String.ofList (env.newText.toList.take 8) })
  | .insertUser call tenant =>
    if env.newId ∈ s.drawn then s else s.insertUser deps c env call tenant
  | .insertMembership call tenant user =>
    if env.newId ∈ s.drawn then s
    else
      { s with drawn := env.newId :: s.drawn }.setCall c (.commit call
        { tenant
          user
          membership :=
            { id := env.newId, tenantId := tenant.id, userId := user.id, role := .PARTNER } })
  | .commit call p => ((s.store p).release c).setCall c (.returned call (some p.user))
  | .recover call => s.setCall c (.returned call (s.db.findBySubject call.accessClaims.sub))
  | _ => s

/-- The call of a state that is neither idle nor ended. -/
def CallState.inProgress : CallState → Option ResolveCall
  | .lookup call | .insertTenant call | .insertUser call _ | .insertMembership call _ _
  | .commit call _ | .recover call => some call
  | .idle | .returned _ _ | .threw _ _ => none

def step (deps : Deps) (s : System) : Label → System
  | .start c call =>
    match s.calls c with
    | .idle => s.start deps c call
    | _ => s
  | .run c env => s.run deps c env
  | .fails c =>
    match (s.calls c).inProgress with
    | some call => s.caught c call .unavailable
    | none => s
  | .unreported c =>
    match s.calls c with
    | .commit call p => (s.store p).caught c call .unavailable
    | _ => s

/-- No call yet, over any rows. -/
def System.init (db : Db) : System where
  db
  locks := []
  calls := fun _ => .idle
  drawn := db.ids
  commits := []

end MortgageAgent.Auth.Provisioning
