import MortgageAgent.Database.Schema

/-!
# Row security and tenant contexts

Every table of tenants' rows has a row security policy, which compares the row's tenant with a
setting of the transaction. `runInTenantContext` sets it, `runWithRlsBypass` sets the one that turns
the policies off, and both set it for their own transaction only, on a connection that a pool hands
from one request to the next.

The server runs any number of transactions side by side, statement by statement. A statement sees
what is committed and what its own transaction has done, and waits where it would touch a row that
another transaction has touched. Foreign keys are left out; an `UPDATE` keeps the keys of a row.

* **`Settings`**, **`policy`**, **`visible`** — the settings, the policies and their condition.
* **`Transaction.execute`** — one statement.
* **`Server`** / **`serverStep`** — the pool's connections over the committed rows.
-/

namespace MortgageAgent.Database

/-! ## Policies -/

/-- `app.current_tenant_id` and `app.bypass_rls` as `current_setting(…, true)` has them. A setting
that was never made is NULL, and one whose transaction is over is `''`. -/
structure Settings where
  currentTenantId : Option (Option Uuid) := none
  bypassRls : Option Bool := none
  deriving DecidableEq

/-- `NULLIF(current_setting('app.current_tenant_id', true), '')::uuid`. -/
def Settings.tenant (settings : Settings) : Option Uuid := settings.currentTenantId.join

/-- `current_setting('app.bypass_rls', true) = 'true'`. -/
def Settings.bypasses (settings : Settings) : Bool := settings.bypassRls = some true

inductive Policy where
  /-- the tables that are read to find out who a caller is, and `tenants` -/
  | unprotected
  | tenantColumn
  /-- the tenant is the one of the row that the row belongs to -/
  | parentRow (parent : TableName)
  deriving DecidableEq

def policy : TableName → Policy
  | .tenants | .apiClients | .tenantMemberships | .guestSandboxSessions => .unprotected
  | .conditionTransitions => .parentRow .loanConditions
  | .toolAttempts => .parentRow .agentRuns
  | .communicationApprovals => .parentRow .communicationMessages
  | _ => .tenantColumn

def TableName.isProtected (table : TableName) : Bool := policy table ≠ .unprotected

abbrev RowKey := TableName × Uuid

/-- A row, with the other columns in `γ`. -/
structure StoredRow (γ : Type) where
  table : TableName
  id : Uuid
  tenantId : Option Uuid := none
  /-- the column that the policy of the table joins by -/
  parentId : Option Uuid := none
  columns : γ
  /-- no column: the tenant in whose context the row was inserted -/
  insertedBy : Option Uuid := none
  deriving DecidableEq

variable {γ : Type}

def StoredRow.key (r : StoredRow γ) : RowKey := (r.table, r.id)

/-- The row is one of `parent` that `r` belongs to. -/
def StoredRow.isParentOf (p r : StoredRow γ) (parent : TableName) : Bool :=
  p.table = parent && r.parentId = some p.id

/-- The condition of the policies, for a row among the rows that the statement sees. -/
def visible (settings : Settings) (rows : List (StoredRow γ)) (r : StoredRow γ) : Bool :=
  settings.bypasses || match policy r.table, settings.tenant with
    | .unprotected, _ => true
    | _, none => false
    | .tenantColumn, some t => r.tenantId = some t
    | .parentRow parent, some t =>
      rows.any fun p => p.isParentOf r parent && p.tenantId = some t

/-! ## Statements -/

inductive Statement (γ : Type) where
  | select (table : TableName) (condition : StoredRow γ → Bool)
  | insert (row : StoredRow γ)
  | update (table : TableName) (condition : StoredRow γ → Bool) (columns : StoredRow γ → γ)
      (tenantId : StoredRow γ → Option Uuid)
  | delete (table : TableName) (condition : StoredRow γ → Bool)

def Statement.table : Statement γ → TableName
  | .select table _ => table
  | .insert row => row.table
  | .update table _ _ _ => table
  | .delete table _ => table

inductive Answer (γ : Type) where
  | rows (rows : List (StoredRow γ))
  /-- new row violates row-level security policy -/
  | rowSecurityViolation
  | uniqueViolation
  /-- `audit_events is append-only` -/
  | appendOnly
  | inFailedTransaction
  deriving DecidableEq

/-- The rows an answer shows. -/
def Answer.found : Answer γ → List (StoredRow γ)
  | .rows found => found
  | _ => []

/-- What a transaction has done to a row; `none` when it has deleted it. -/
structure Change (γ : Type) where
  key : RowKey
  row : Option (StoredRow γ)
  deriving DecidableEq

structure Transaction (γ : Type) where
  changes : List (Change γ) := []
  answers : List (Answer γ) := []
  aborted : Bool := false
  deriving DecidableEq

/-- The rows with the changes made to them. -/
def overlay (changes : List (Change γ)) (rows : List (StoredRow γ)) : List (StoredRow γ) :=
  (rows.filter fun r => !changes.any fun c => c.key = r.key) ++ changes.filterMap (·.row)

/-- The latest change of a row replaces the one before. -/
def recordChanges (changes new : List (Change γ)) : List (Change γ) :=
  (changes.filter fun c => !new.any fun c' => c'.key = c.key) ++ new

namespace Transaction

def answer (tx : Transaction γ) (a : Answer γ) : Transaction γ :=
  { tx with answers := tx.answers ++ [a] }

def abort (tx : Transaction γ) (a : Answer γ) : Transaction γ :=
  { tx.answer a with aborted := true }

def write (tx : Transaction γ) (new : List (Change γ)) (rows : List (StoredRow γ)) :
    Transaction γ :=
  { tx.answer (.rows rows) with changes := recordChanges tx.changes new }

/-- The rows of the table that the statement and the condition of the policy pick. -/
def found (condition : List (StoredRow γ) → StoredRow γ → Bool) (view : List (StoredRow γ))
    (table : TableName) (p : StoredRow γ → Bool) : List (StoredRow γ) :=
  view.filter fun r => r.table = table && condition view r && p r

/-- One statement. The policy's condition decides which rows it finds and which new rows it may
leave; a statement that has to wait for another transaction does nothing yet. -/
def execute (condition accepts : List (StoredRow γ) → StoredRow γ → Bool) (tenant : Option Uuid)
    (rows : List (StoredRow γ)) (locked : RowKey → Bool) (tx : Transaction γ) :
    Statement γ → Transaction γ
  | statement =>
    if tx.aborted then tx.answer .inFailedTransaction
    else
      let view := overlay tx.changes rows
      match statement with
      | .select table p => tx.answer (.rows (found condition view table p))
      | .insert row =>
        let row := { row with insertedBy := tenant }
        if !accepts view row then tx.abort .rowSecurityViolation
        else if view.any fun r => r.key = row.key then tx.abort .uniqueViolation
        else if locked row.key then tx
        else tx.write [⟨row.key, some row⟩] [row]
      | .update table p columns tenantId =>
        let targets := found condition view table p
        let updated := targets.map fun r => { r with columns := columns r, tenantId := tenantId r }
        -- the trigger `audit_events_append_only`
        if table = .auditEvents ∧ targets ≠ [] then tx.abort .appendOnly
        else if targets.any fun r => locked r.key then tx
        else if updated.any fun r => !accepts view r then tx.abort .rowSecurityViolation
        else tx.write (updated.map fun r => ⟨r.key, some r⟩) updated
      | .delete table p =>
        let targets := found condition view table p
        if table = .auditEvents ∧ targets ≠ [] then tx.abort .appendOnly
        else if targets.any fun r => locked r.key then tx
        else tx.write (targets.map fun r => ⟨r.key, none⟩) targets

/-- What the transaction leaves when it is committed; an aborted one leaves nothing. -/
def commit (tx : Transaction γ) (rows : List (StoredRow γ)) : List (StoredRow γ) :=
  if tx.aborted then rows else overlay tx.changes rows

def locks (tx : Transaction γ) (key : RowKey) : Bool := tx.changes.any fun c => c.key = key

end Transaction

/-! ## What a statement does -/

@[simp] theorem StoredRow.key_fst (r : StoredRow γ) : r.key.1 = r.table := rfl

theorem mem_overlay {changes : List (Change γ)} {rows : List (StoredRow γ)} {r : StoredRow γ} :
    r ∈ overlay changes rows ↔
      (r ∈ rows ∧ ∀ ch ∈ changes, ch.key ≠ r.key) ∨ ∃ ch ∈ changes, ch.row = some r := by
  simp [overlay, List.mem_append, List.mem_filter, List.mem_filterMap]

/-- Where all the changes leave rows that meet `p`, they may be made to those rows alone. -/
theorem filter_overlay {changes : List (Change γ)} {p : StoredRow γ → Bool}
    (h : ∀ ch ∈ changes, ∀ r ∈ ch.row, p r = true) (rows : List (StoredRow γ)) :
    (overlay changes rows).filter p = overlay changes (rows.filter p) := by
  unfold overlay
  rw [List.filter_append, List.filter_filter, List.filter_filter]
  congr 1
  · congr 1
    funext r
    exact Bool.and_comm ..
  · rw [List.filter_eq_self]
    intro r hr
    obtain ⟨ch, hch, hrow⟩ := List.mem_filterMap.mp hr
    exact h ch hch r hrow

theorem mem_recordChanges {changes new : List (Change γ)} {ch : Change γ}
    (h : ch ∈ recordChanges changes new) : ch ∈ changes ∨ ch ∈ new := by
  rcases List.mem_append.mp h with h | h
  · exact Or.inl (List.mem_of_mem_filter h)
  · exact Or.inr h

theorem of_mem_found {condition : List (StoredRow γ) → StoredRow γ → Bool}
    {view : List (StoredRow γ)} {table : TableName} {p : StoredRow γ → Bool} {r : StoredRow γ}
    (h : r ∈ Transaction.found condition view table p) :
    r ∈ view ∧ r.table = table ∧ condition view r = true := by
  simp only [Transaction.found, List.mem_filter, Bool.and_eq_true, decide_eq_true_eq] at h
  exact ⟨h.1, h.2.1.1, h.2.1.2⟩

/-- A change that a statement makes to a row of its view. -/
inductive Touches (condition accepts : List (StoredRow γ) → StoredRow γ → Bool)
    (tenant : Option Uuid) (view : List (StoredRow γ)) : Statement γ → Change γ → Prop
  | inserts (row : StoredRow γ) (haccepts : accepts view { row with insertedBy := tenant } = true) :
    Touches condition accepts tenant view (.insert row)
      ⟨row.key, some { row with insertedBy := tenant }⟩
  | updates {table : TableName} {p : StoredRow γ → Bool} {columns : StoredRow γ → γ}
      {tenantId : StoredRow γ → Option Uuid} (r : StoredRow γ) (hr : r ∈ view)
      (htable : r.table = table) (hcondition : condition view r = true)
      (haccepts : accepts view { r with columns := columns r, tenantId := tenantId r } = true) :
    Touches condition accepts tenant view (.update table p columns tenantId)
      ⟨r.key, some { r with columns := columns r, tenantId := tenantId r }⟩
  | deletes {table : TableName} {p : StoredRow γ → Bool} (r : StoredRow γ) (hr : r ∈ view)
      (htable : r.table = table) (hcondition : condition view r = true) :
    Touches condition accepts tenant view (.delete table p) ⟨r.key, none⟩

/-- **A statement changes nothing, or the rows it touches.** -/
theorem execute_changes (condition accepts : List (StoredRow γ) → StoredRow γ → Bool)
    (tenant : Option Uuid) (rows : List (StoredRow γ)) (locked : RowKey → Bool)
    (tx : Transaction γ) (statement : Statement γ) :
    (tx.execute condition accepts tenant rows locked statement).changes = tx.changes
      ∨ ∃ new, (tx.execute condition accepts tenant rows locked statement).changes
          = recordChanges tx.changes new
        ∧ ∀ ch ∈ new,
          Touches condition accepts tenant (overlay tx.changes rows) statement ch := by
  unfold Transaction.execute
  split
  · exact Or.inl rfl
  cases statement with
  | select table p => exact Or.inl rfl
  | insert row =>
    dsimp only
    split
    · exact Or.inl rfl
    · next haccepts =>
      split
      · exact Or.inl rfl
      · split
        · exact Or.inl rfl
        · refine Or.inr ⟨_, rfl, fun ch hch => ?_⟩
          rw [List.mem_singleton.mp hch]
          exact .inserts row (by simpa using haccepts)
  | update table p columns tenantId =>
    dsimp only
    split
    · exact Or.inl rfl
    · split
      · exact Or.inl rfl
      · split
        · exact Or.inl rfl
        · next haccepts =>
          refine Or.inr ⟨_, rfl, fun ch hch => ?_⟩
          obtain ⟨r', hr', rfl⟩ := List.mem_map.mp hch
          obtain ⟨r, hr, rfl⟩ := List.mem_map.mp hr'
          obtain ⟨hview, htable, hcondition⟩ := of_mem_found hr
          refine .updates r hview htable hcondition ?_
          by_contra hnot
          exact haccepts (List.any_eq_true.mpr ⟨_, hr', by simpa using hnot⟩)
  | delete table p =>
    dsimp only
    split
    · exact Or.inl rfl
    · split
      · exact Or.inl rfl
      · refine Or.inr ⟨_, rfl, fun ch hch => ?_⟩
        obtain ⟨r, hr, rfl⟩ := List.mem_map.mp hch
        obtain ⟨hview, htable, hcondition⟩ := of_mem_found hr
        exact .deletes r hview htable hcondition

/-- The rows are of the table, and the policy has let the statement through to one. -/
def LetThrough (condition accepts : List (StoredRow γ) → StoredRow γ → Bool)
    (view : List (StoredRow γ)) (table : TableName) (shown : List (StoredRow γ)) : Prop :=
  ∀ r ∈ shown, r.table = table
    ∧ ∃ r', r'.table = table ∧ (condition view r' = true ∨ accepts view r' = true)

/-- What a statement answers with. -/
theorem execute_answers (condition accepts : List (StoredRow γ) → StoredRow γ → Bool)
    (tenant : Option Uuid) (rows : List (StoredRow γ)) (locked : RowKey → Bool)
    (tx : Transaction γ) (statement : Statement γ) :
    ∀ a ∈ (tx.execute condition accepts tenant rows locked statement).answers, a ∈ tx.answers ∨
      LetThrough condition accepts (overlay tx.changes rows) statement.table a.found := by
  have hanswer : ∀ a' : Answer γ,
      LetThrough condition accepts (overlay tx.changes rows) statement.table a'.found →
      ∀ a ∈ tx.answers ++ [a'], a ∈ tx.answers
        ∨ LetThrough condition accepts (overlay tx.changes rows) statement.table a.found := by
    intro a' ha' a ha
    rcases List.mem_append.mp ha with ha | ha
    · exact Or.inl ha
    · rw [List.mem_singleton.mp ha]
      exact Or.inr ha'
  have hnone : LetThrough condition accepts (overlay tx.changes rows) statement.table [] :=
    fun r hr => by cases hr
  unfold Transaction.execute
  split
  · exact hanswer .inFailedTransaction hnone
  cases statement with
  | select table p =>
    refine hanswer (.rows _) fun r hr => ?_
    obtain ⟨-, htable, hcondition⟩ := of_mem_found hr
    exact ⟨htable, r, htable, Or.inl hcondition⟩
  | insert row =>
    dsimp only
    split
    · exact hanswer .rowSecurityViolation hnone
    · next haccepts =>
      split
      · exact hanswer .uniqueViolation hnone
      · split
        · exact fun a ha => Or.inl ha
        · refine hanswer (.rows _) fun r hr => ?_
          rw [List.mem_singleton.mp hr]
          exact ⟨rfl, { row with insertedBy := tenant }, rfl, Or.inr (by simpa using haccepts)⟩
  | update table p columns tenantId =>
    dsimp only
    split
    · exact hanswer .appendOnly hnone
    · split
      · exact fun a ha => Or.inl ha
      · split
        · exact hanswer .rowSecurityViolation hnone
        · refine hanswer (.rows _) fun r hr => ?_
          obtain ⟨r₀, hr₀, rfl⟩ := List.mem_map.mp hr
          obtain ⟨-, htable, hcondition⟩ := of_mem_found hr₀
          exact ⟨htable, r₀, htable, Or.inl hcondition⟩
  | delete table p =>
    dsimp only
    split
    · exact hanswer .appendOnly hnone
    · split
      · exact fun a ha => Or.inl ha
      · refine hanswer (.rows _) fun r hr => ?_
        obtain ⟨-, htable, hcondition⟩ := of_mem_found hr
        exact ⟨htable, r, htable, Or.inl hcondition⟩

/-! ## The server -/

structure Connection (γ : Type) where
  session : Settings := {}
  transaction : Option (Settings × Transaction γ) := none
  deriving DecidableEq

structure Server (γ : Type) where
  rows : List (StoredRow γ) := []
  connections : List (Connection γ)
  deriving DecidableEq

/-- How a transaction is begun. -/
inductive Context where
  | runInTenantContext (tenantId : Uuid)
  | runWithRlsBypass
  /-- neither helper -/
  | plain
  deriving DecidableEq

/-- `set_config(…, true)`, at the start of the transaction. -/
def Context.set (settings : Settings) : Context → Settings
  | .runInTenantContext tenantId => { settings with currentTenantId := some (some tenantId) }
  | .runWithRlsBypass => { settings with bypassRls := some true }
  | .plain => settings

/-- The session's settings when a transaction with these is over. -/
def Settings.after (session settings : Settings) : Settings where
  currentTenantId := if settings.currentTenantId = session.currentTenantId then
    session.currentTenantId else some (session.currentTenantId.getD none)
  bypassRls := if settings.bypassRls = session.bypassRls then
    session.bypassRls else some (session.bypassRls.getD false)

inductive ServerLabel (γ : Type) where
  | begin (c : Nat) (context : Context)
  | execute (c : Nat) (statement : Statement γ)
  | commit (c : Nat)
  | rollback (c : Nat)

def Connection.locks (connection : Connection γ) (key : RowKey) : Bool :=
  connection.transaction.any fun (_, tx) => tx.locks key

/-- Another connection's transaction has touched the row. -/
def Server.locked (s : Server γ) (c : Nat) (key : RowKey) : Bool :=
  (s.connections.eraseIdx c).any fun connection => connection.locks key

/-- A label that does not apply where the connection stands leaves the server as it is. -/
def serverStep (s : Server γ) : ServerLabel γ → Server γ
  | .begin c context =>
    match s.connections[c]? with
    | some ⟨session, none⟩ =>
      { s with connections := s.connections.set c ⟨session, some (context.set session, {})⟩ }
    | _ => s
  | .execute c statement =>
    match s.connections[c]? with
    | some ⟨session, some (settings, tx)⟩ =>
      let tx := tx.execute (visible settings) (visible settings) settings.tenant s.rows
        (s.locked c) statement
      { s with connections := s.connections.set c ⟨session, some (settings, tx)⟩ }
    | _ => s
  | .commit c =>
    match s.connections[c]? with
    | some ⟨session, some (settings, tx)⟩ =>
      { rows := tx.commit s.rows
        connections := s.connections.set c ⟨session.after settings, none⟩ }
    | _ => s
  | .rollback c =>
    match s.connections[c]? with
    | some ⟨session, some (settings, _)⟩ =>
      { s with connections := s.connections.set c ⟨session.after settings, none⟩ }
    | _ => s

end MortgageAgent.Database
