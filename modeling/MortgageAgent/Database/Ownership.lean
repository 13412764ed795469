import MortgageAgent.Database.TenantContext

/-!
# Whose row a row is

A row with a tenant column is the tenant's that the column names; a row of one of the three tables
without one is the tenant's whose row it belongs to. What a transaction in a tenant's context does
keeps to the tenant's own rows, so that every key has one owner and rows belong to rows of their
owner, whatever is committed and pending on the server.

* **`Server.Clean`** / **`clean_step`** — no setting outlives its transaction.
* **`Guarded`** — what is asked of a run: fresh ids, and a bypass that only reads.
* **`WellOwned`** / **`wellOwned_step`** — the invariant.
-/

namespace MortgageAgent.Database

variable {γ : Type}

/-- The transaction is in the tenant's context. -/
def Settings.serves (settings : Settings) (t : Uuid) : Bool :=
  settings.tenant = some t && !settings.bypasses

def StoredRow.isOf (r : StoredRow γ) (t : Uuid) : Bool :=
  r.table.isProtected && r.insertedBy = some t

/-! ## Sessions -/

/-- What a connection was used for is not left in its session. -/
def Server.Clean (s : Server γ) : Prop :=
  ∀ connection ∈ s.connections,
    connection.session.tenant = none ∧ connection.session.bypasses = false

section Sessions

variable {s : Server γ} {c : Nat}

/-- The session's settings do not outlast a transaction. -/
theorem after_session {session : Settings} (settings : Settings) (htenant : session.tenant = none)
    (hbypasses : session.bypasses = false) :
    (session.after settings).tenant = none ∧ (session.after settings).bypasses = false := by
  unfold Settings.tenant at htenant
  unfold Settings.bypasses at hbypasses
  unfold Settings.after Settings.tenant Settings.bypasses
  constructor
  · dsimp only
    split
    · exact htenant
    · cases hs : session.currentTenantId with
      | none => rfl
      | some x => rw [hs] at htenant; exact htenant
  · dsimp only
    split
    · exact hbypasses
    · cases hs : session.bypassRls with
      | none => rfl
      | some x => rw [hs] at hbypasses; exact hbypasses

theorem clean_set {connection : Connection γ} (h : s.Clean)
    (hc : connection.session.tenant = none ∧ connection.session.bypasses = false) :
    ∀ connection' ∈ s.connections.set c connection,
      connection'.session.tenant = none ∧ connection'.session.bypasses = false := by
  intro connection' hconnection
  rcases List.mem_or_eq_of_mem_set hconnection with hold | rfl
  · exact h _ hold
  · exact hc

/-- **No setting outlives its transaction**, whatever the connections are used for. -/
theorem clean_step (s : Server γ) (a : ServerLabel γ) (h : s.Clean) : (serverStep s a).Clean := by
  cases a with
  | begin c context =>
    dsimp only [serverStep]
    split
    · next session hc =>
      have hsession := h _ (List.mem_of_getElem? hc)
      exact clean_set h hsession
    · exact h
  | execute c statement =>
    dsimp only [serverStep]
    split
    · next session settings tx hc =>
      have hsession := h _ (List.mem_of_getElem? hc)
      exact clean_set h hsession
    · exact h
  | commit c =>
    dsimp only [serverStep]
    split
    · next session settings tx hc =>
      obtain ⟨htenant, hbypasses⟩ := h _ (List.mem_of_getElem? hc)
      exact clean_set h (after_session settings htenant hbypasses)
    · exact h
  | rollback c =>
    dsimp only [serverStep]
    split
    · next session settings tx hc =>
      obtain ⟨htenant, hbypasses⟩ := h _ (List.mem_of_getElem? hc)
      exact clean_set h (after_session settings htenant hbypasses)
    · exact h

end Sessions

/-- No rows yet, and a pool of `n` connections. -/
def Server.empty (n : Nat) : Server γ where
  connections := List.replicate n {}

theorem clean_empty (n : Nat) : (Server.empty n : Server γ).Clean := by
  intro connection hconnection
  rw [List.eq_of_mem_replicate hconnection]
  exact ⟨rfl, rfl⟩

/-! ## Ownership -/

/-- What the connection's transaction has changed, with its settings. -/
def Connection.pending (connection : Connection γ) : List (Settings × Change γ) :=
  connection.transaction.toList.flatMap fun x => x.2.changes.map fun ch => (x.1, ch)

def Server.pending (s : Server γ) : List (Settings × Change γ) :=
  s.connections.flatMap (·.pending)

/-- The rows that are committed or pending. -/
def Server.held (s : Server γ) : List (StoredRow γ) := s.rows ++ s.pending.filterMap (·.2.row)

/-- The keys that are taken, each with the tenant that has taken it. -/
def Server.claims (s : Server γ) : List (RowKey × Option Uuid) :=
  s.rows.map (fun r => (r.key, r.insertedBy)) ++ s.pending.map fun x => (x.2.key, x.1.tenant)

/-- Nobody else has a row with the key of the new row, or one that would belong to it: ids are
random. -/
def Server.Fresh (s : Server γ) (owner : Option Uuid) (row : StoredRow γ) : Prop :=
  (∀ claim ∈ s.claims, claim.1 = row.key → claim.2 = owner)
    ∧ ∀ r ∈ s.held, policy r.table = .parentRow row.table → r.parentId = some row.id →
      r.insertedBy = owner

def Statement.isSelect : Statement γ → Bool
  | .select _ _ => true
  | _ => false

def Statement.inserted : Statement γ → Option (StoredRow γ)
  | .insert row => some row
  | _ => none

/-- A transaction that bypasses the policies only reads, the tenant's own keep to the tables of
tenants' rows, and new ids are fresh. -/
def Guarded (t : Uuid) (s : Server γ) : ServerLabel γ → Prop
  | .execute c statement =>
    ∀ connection ∈ s.connections[c]?, ∀ x ∈ connection.transaction,
      (x.1.bypasses = true → statement.isSelect = true)
        ∧ (x.1.tenant = some t → statement.table.isProtected = true)
        ∧ ∀ row ∈ statement.inserted, s.Fresh x.1.tenant row
  | _ => True

instance (s : Server γ) (owner : Option Uuid) (row : StoredRow γ) :
    Decidable (s.Fresh owner row) := by
  unfold Server.Fresh
  infer_instance

instance (t : Uuid) (s : Server γ) (a : ServerLabel γ) : Decidable (Guarded t s a) := by
  cases a <;> unfold Guarded <;> infer_instance

/-- A change of a protected row is made in the context of the tenant whose row it is. -/
structure Change.InContext (t : Uuid) (settings : Settings) (ch : Change γ) : Prop where
  key : ∀ r ∈ ch.row, r.key = ch.key
  context : ch.key.1.isProtected = true → settings.tenant.isSome = true ∧ settings.bypasses = false
  owner : ch.key.1.isProtected = true → ∀ r ∈ ch.row, r.insertedBy = settings.tenant
  own : settings.tenant = some t → ch.key.1.isProtected = true

structure WellOwned (t : Uuid) (s : Server γ) : Prop where
  sessions : s.Clean
  pending : ∀ x ∈ s.pending, x.2.InContext t x.1
  /-- a key is one tenant's -/
  keys : ∀ x ∈ s.claims, ∀ y ∈ s.claims, x.1 = y.1 → x.1.1.isProtected = true → x.2 = y.2
  columns : ∀ r ∈ s.held, policy r.table = .tenantColumn → r.tenantId = r.insertedBy
  /-- what belongs to a row is its tenant's -/
  parents : ∀ r ∈ s.held, ∀ parent, policy r.table = .parentRow parent →
    ∀ x ∈ s.claims, x.1.1 = parent → r.parentId = some x.1.2 → x.2 = r.insertedBy

section Membership

variable {s : Server γ} {c : Nat} {session settings : Settings} {tx : Transaction γ}

theorem mem_pending_connection {connection : Connection γ} {x : Settings × Change γ} :
    x ∈ connection.pending ↔
      ∃ tx, connection.transaction = some (x.1, tx) ∧ x.2 ∈ tx.changes := by
  unfold Connection.pending
  cases connection.transaction with
  | none => simp
  | some y =>
    simp only [Option.toList_some, List.flatMap_singleton, List.mem_map, Option.some.injEq]
    constructor
    · rintro ⟨ch, hch, rfl⟩
      exact ⟨y.2, rfl, hch⟩
    · rintro ⟨tx, rfl, hch⟩
      exact ⟨x.2, hch, rfl⟩

theorem mem_pending {x : Settings × Change γ} : x ∈ s.pending ↔
    ∃ connection ∈ s.connections, x ∈ connection.pending := by
  simp [Server.pending, List.mem_flatMap]

theorem mem_pending_of_change (hc : s.connections[c]? = some ⟨session, some (settings, tx)⟩)
    {ch : Change γ} (hch : ch ∈ tx.changes) : (settings, ch) ∈ s.pending :=
  mem_pending.mpr ⟨_, List.mem_of_getElem? hc, mem_pending_connection.mpr ⟨tx, rfl, hch⟩⟩

theorem mem_claims {x : RowKey × Option Uuid} : x ∈ s.claims ↔
    (∃ r ∈ s.rows, (r.key, r.insertedBy) = x) ∨ ∃ y ∈ s.pending, (y.2.key, y.1.tenant) = x := by
  simp [Server.claims, List.mem_append, List.mem_map]

theorem mem_held {r : StoredRow γ} :
    r ∈ s.held ↔ r ∈ s.rows ∨ ∃ y ∈ s.pending, y.2.row = some r := by
  simp [Server.held, List.mem_append]

/-- What is pending after a step of one connection. -/
theorem mem_pending_set {rows : List (StoredRow γ)} {connection : Connection γ}
    {x : Settings × Change γ}
    (hx : x ∈ Server.pending { rows, connections := s.connections.set c connection }) :
    x ∈ s.pending ∨ x ∈ connection.pending := by
  obtain ⟨connection', hconnection, hpending⟩ := mem_pending.mp hx
  rcases List.mem_or_eq_of_mem_set hconnection with hold | rfl
  · exact Or.inl (mem_pending.mpr ⟨connection', hold, hpending⟩)
  · exact Or.inr hpending

/-- The connection's transaction is over. -/
theorem mem_pending_ended {rows : List (StoredRow γ)} : ∀ x ∈
    Server.pending { rows, connections := s.connections.set c ⟨session, none⟩ }, x ∈ s.pending := by
  intro x hx
  rcases mem_pending_set hx with hold | hnew
  · exact hold
  · cases hnew

theorem mem_held_of_view (hc : s.connections[c]? = some ⟨session, some (settings, tx)⟩)
    {r : StoredRow γ} (hr : r ∈ overlay tx.changes s.rows) : r ∈ s.held := by
  rcases mem_overlay.mp hr with ⟨hrow, -⟩ | ⟨ch, hch, hrow⟩
  · exact mem_held.mpr (Or.inl hrow)
  · exact mem_held.mpr (Or.inr ⟨_, mem_pending_of_change hc hch, hrow⟩)

/-- A protected row that a transaction finds is claimed by the tenant that inserted it. -/
theorem WellOwned.claimed {t : Uuid} (h : WellOwned t s) {r : StoredRow γ} (hr : r ∈ s.held)
    (hprotected : r.table.isProtected = true) : (r.key, r.insertedBy) ∈ s.claims := by
  rcases mem_held.mp hr with hrow | ⟨y, hy, hrow⟩
  · exact mem_claims.mpr (Or.inl ⟨r, hrow, rfl⟩)
  · have hcontext := h.pending y hy
    have hkey := hcontext.key r hrow
    have howner := hcontext.owner (by rw [← hkey]; exact hprotected) r hrow
    exact mem_claims.mpr (Or.inr ⟨y, hy, by rw [hkey, howner]⟩)

end Membership

/-! ## Who sees a row -/

theorem isProtected_iff {table : TableName} :
    table.isProtected = true ↔ policy table ≠ .unprotected := by
  unfold TableName.isProtected
  exact decide_eq_true_iff

/-- The tables that the policies join have the column themselves. -/
theorem policy_parent {table parent : TableName} (h : policy table = .parentRow parent) :
    policy parent = .tenantColumn := by
  cases table <;> cases h <;> rfl

section Visible

variable {t u : Uuid} {s : Server γ} {c : Nat} {session settings : Settings} {tx : Transaction γ}

/-- The transaction is in the context of the tenant `u`. -/
theorem serves_iff {settings : Settings} :
    settings.serves u = true ↔ settings.tenant = some u ∧ settings.bypasses = false := by
  simp [Settings.serves]

theorem visible_iff (hserves : settings.serves u = true) {rows : List (StoredRow γ)}
    {r : StoredRow γ} (hprotected : r.table.isProtected = true) :
    visible settings rows r = true ↔
      (policy r.table = .tenantColumn ∧ r.tenantId = some u)
        ∨ ∃ parent, policy r.table = .parentRow parent
          ∧ ∃ p ∈ rows, p.isParentOf r parent = true ∧ p.tenantId = some u := by
  obtain ⟨htenant, hbypasses⟩ := serves_iff.mp hserves
  have hpolicy := isProtected_iff.mp hprotected
  unfold visible
  rw [hbypasses, htenant, Bool.false_or]
  cases hp : policy r.table with
  | unprotected => exact absurd hp hpolicy
  | tenantColumn => simp
  | parentRow parent => simp [List.any_eq_true]

/-- Without the bypass, what is protected is visible in a tenant's context only. -/
theorem tenant_of_visible {rows : List (StoredRow γ)} {r : StoredRow γ}
    (hvisible : visible settings rows r = true) (hprotected : r.table.isProtected = true)
    (hbypasses : settings.bypasses = false) : ∃ u, settings.tenant = some u := by
  have hpolicy := isProtected_iff.mp hprotected
  unfold visible at hvisible
  rw [hbypasses, Bool.false_or] at hvisible
  cases htenant : settings.tenant with
  | some u => exact ⟨u, rfl⟩
  | none =>
    rw [htenant] at hvisible
    cases hp : policy r.table with
    | unprotected => exact absurd hp hpolicy
    | tenantColumn => rw [hp] at hvisible; cases hvisible
    | parentRow parent => rw [hp] at hvisible; cases hvisible

/-- The parent by which the policies show a row is the tenant's. -/
theorem WellOwned.parent_of_visible (h : WellOwned t s)
    (hc : s.connections[c]? = some ⟨session, some (settings, tx)⟩)
    (hserves : settings.serves u = true) {r : StoredRow γ} {parent : TableName}
    (hpolicy : policy r.table = .parentRow parent)
    (hvisible : visible settings (overlay tx.changes s.rows) r = true) :
    ∃ x ∈ s.claims, x.1.1 = parent ∧ r.parentId = some x.1.2 ∧ x.2 = some u := by
  have hprotected : r.table.isProtected = true :=
    isProtected_iff.mpr (by rw [hpolicy]; exact fun heq => by cases heq)
  rcases (visible_iff hserves hprotected).mp hvisible with ⟨hcolumn, -⟩ | hparent
  · rw [hpolicy] at hcolumn
    cases hcolumn
  · obtain ⟨parent', hpolicy', p, hp, hof, htenant⟩ := hparent
    rw [hpolicy] at hpolicy'
    cases hpolicy'
    obtain ⟨htable, hid⟩ : p.table = parent ∧ r.parentId = some p.id := by
      simpa [StoredRow.isParentOf] using hof
    have hheld := mem_held_of_view hc hp
    have hcolumn : policy p.table = .tenantColumn := htable ▸ policy_parent hpolicy
    have hclaimed := h.claimed hheld (isProtected_iff.mpr (by rw [hcolumn]; decide))
    exact ⟨_, hclaimed, htable, hid, by rw [← h.columns p hheld hcolumn, htenant]⟩

/-- A row that a tenant's transaction sees is the tenant's. -/
theorem WellOwned.owner (h : WellOwned t s)
    (hc : s.connections[c]? = some ⟨session, some (settings, tx)⟩)
    (hserves : settings.serves u = true) {r : StoredRow γ} (hr : r ∈ s.held)
    (hprotected : r.table.isProtected = true)
    (hvisible : visible settings (overlay tx.changes s.rows) r = true) :
    r.insertedBy = some u := by
  rcases (visible_iff hserves hprotected).mp hvisible with ⟨hpolicy, htenant⟩ | ⟨parent, hpolicy, -⟩
  · rw [← h.columns r hr hpolicy, htenant]
  · obtain ⟨x, hx, htable, hid, howner⟩ := h.parent_of_visible hc hserves hpolicy hvisible
    rw [← h.parents r hr parent hpolicy x hx htable hid, howner]

/-- The rows with a tenant column that the transaction sees are told apart by who inserted them. -/
theorem WellOwned.isOf_iff (h : WellOwned t s) {r : StoredRow γ} (hr : r ∈ s.held)
    (hpolicy : policy r.table = .tenantColumn) : r.isOf u = true ↔ r.tenantId = some u := by
  have hprotected : r.table.isProtected = true := isProtected_iff.mpr (by rw [hpolicy]; decide)
  rw [h.columns r hr hpolicy, StoredRow.isOf, hprotected]
  simp

end Visible

/-! ## The invariant is kept -/

section Invariant

variable {t : Uuid} {s s' : Server γ} {c : Nat} {session settings : Settings} {tx : Transaction γ}

theorem protected_of_parent {table parent : TableName} (h : policy table = .parentRow parent) :
    parent.isProtected = true := isProtected_iff.mpr (by rw [policy_parent h]; decide)

/-- A step after which nothing is held or pending that was not before. -/
theorem WellOwned.of_fewer (h : WellOwned t s)
    (hsessions : s'.Clean)
    (hrows : ∀ r ∈ s'.rows, r ∈ s.held) (hpending : ∀ x ∈ s'.pending, x ∈ s.pending) :
    WellOwned t s' := by
  have hheld : ∀ r ∈ s'.held, r ∈ s.held := by
    intro r hr
    rcases mem_held.mp hr with hrow | ⟨y, hy, hrow⟩
    · exact hrows r hrow
    · exact mem_held.mpr (Or.inr ⟨y, hpending y hy, hrow⟩)
  have hclaims : ∀ x ∈ s'.claims, x.1.1.isProtected = true → x ∈ s.claims := by
    intro x hx hprotected
    rcases mem_claims.mp hx with ⟨r, hr, rfl⟩ | ⟨y, hy, rfl⟩
    · exact h.claimed (hrows r hr) hprotected
    · exact mem_claims.mpr (Or.inr ⟨y, hpending y hy, rfl⟩)
  refine ⟨hsessions, fun x hx => h.pending x (hpending x hx), ?_,
    fun r hr => h.columns r (hheld r hr), ?_⟩
  · intro x hx y hy hkey hprotected
    exact h.keys x (hclaims x hx hprotected) y (hclaims y hy (hkey ▸ hprotected)) hkey hprotected
  · intro r hr parent hpolicy x hx htable hid
    have hprotected : x.1.1.isProtected = true := htable ▸ protected_of_parent hpolicy
    exact h.parents r (hheld r hr) parent hpolicy x (hclaims x hx hprotected) htable hid

/-- A change that takes no key from another tenant. -/
structure Change.Lawful (t : Uuid) (s : Server γ) (settings : Settings) (ch : Change γ) : Prop where
  inContext : ch.InContext t settings
  claim : ch.key.1.isProtected = true → ∀ x ∈ s.claims, x.1 = ch.key → x.2 = settings.tenant
  columns : ∀ r ∈ ch.row, policy r.table = .tenantColumn → r.tenantId = r.insertedBy
  parent : ∀ r ∈ ch.row, ∀ parent, policy r.table = .parentRow parent →
    ∃ x ∈ s.claims, x.1.1 = parent ∧ r.parentId = some x.1.2 ∧ x.2 = settings.tenant
  children : ∀ r ∈ s.held, policy r.table = .parentRow ch.key.1 → r.parentId = some ch.key.2 →
    r.insertedBy = settings.tenant

/-- A step that adds lawful changes to what a connection has pending. -/
theorem WellOwned.of_lawful (h : WellOwned t s) (hrows : s'.rows = s.rows)
    (hsessions : s'.Clean)
    {new : List (Change γ)} (hnew : ∀ ch ∈ new, ch.Lawful t s settings)
    (hpending : ∀ x ∈ s'.pending, x ∈ s.pending ∨ x.1 = settings ∧ x.2 ∈ new) :
    WellOwned t s' := by
  have hclaims : ∀ x ∈ s'.claims, x ∈ s.claims ∨ ∃ ch ∈ new, (ch.key, settings.tenant) = x := by
    intro x hx
    rcases mem_claims.mp hx with ⟨r, hr, rfl⟩ | ⟨y, hy, rfl⟩
    · exact Or.inl (mem_claims.mpr (Or.inl ⟨r, hrows ▸ hr, rfl⟩))
    · rcases hpending y hy with hold | ⟨hsettings, hch⟩
      · exact Or.inl (mem_claims.mpr (Or.inr ⟨y, hold, rfl⟩))
      · exact Or.inr ⟨y.2, hch, by rw [hsettings]⟩
  have hheld : ∀ r ∈ s'.held, r ∈ s.held ∨ ∃ ch ∈ new, ch.row = some r := by
    intro r hr
    rcases mem_held.mp hr with hrow | ⟨y, hy, hrow⟩
    · exact Or.inl (mem_held.mpr (Or.inl (hrows ▸ hrow)))
    · rcases hpending y hy with hold | ⟨-, hch⟩
      · exact Or.inl (mem_held.mpr (Or.inr ⟨y, hold, hrow⟩))
      · exact Or.inr ⟨y.2, hch, hrow⟩
  refine ⟨hsessions, fun x hx => ?_, fun x hx y hy hkey hprotected => ?_, fun r hr => ?_,
    fun r hr parent hpolicy x hx htable hid => ?_⟩
  · rcases hpending x hx with hold | ⟨hsettings, hch⟩
    · exact h.pending x hold
    · rw [hsettings]
      exact (hnew x.2 hch).inContext
  · rcases hclaims x hx with hx | ⟨ch, hch, rfl⟩ <;> rcases hclaims y hy with hy | ⟨ch', hch', rfl⟩
    · exact h.keys x hx y hy hkey hprotected
    · have hsame : ch'.key = x.1 := hkey.symm
      exact (hnew ch' hch').claim (by rw [hsame]; exact hprotected) x hx hkey
    · exact ((hnew ch hch).claim hprotected y hy hkey.symm).symm
    · rfl
  · rcases hheld r hr with hr | ⟨ch, hch, hrow⟩
    · exact h.columns r hr
    · exact (hnew ch hch).columns r hrow
  · rcases hheld r hr with hr | ⟨ch, hch, hrow⟩
    · rcases hclaims x hx with hx | ⟨ch, hch, rfl⟩
      · exact h.parents r hr parent hpolicy x hx htable hid
      · exact ((hnew ch hch).children r hr (htable ▸ hpolicy) hid).symm
    -- the parent of a new row was there, and is the tenant's
    · have hlawful := hnew ch hch
      have hprotected := protected_of_parent hpolicy
      have howner : r.insertedBy = settings.tenant := by
        have hkey := hlawful.inContext.key r hrow
        refine hlawful.inContext.owner ?_ r hrow
        rw [← hkey]
        exact isProtected_iff.mpr (by rw [StoredRow.key_fst, hpolicy]; exact fun heq => by cases heq)
      rw [howner]
      rcases hclaims x hx with hx | ⟨ch', hch', rfl⟩
      · obtain ⟨y, hy, hytable, hyid, hyowner⟩ := hlawful.parent r hrow parent hpolicy
        have hsame : x.1 = y.1 := by
          refine Prod.ext (htable.trans hytable.symm) ?_
          rw [hid] at hyid
          exact Option.some.inj hyid
        rw [h.keys x hx y hy hsame (htable ▸ hprotected), hyowner]
      · rfl

theorem Touches.table {condition accepts : List (StoredRow γ) → StoredRow γ → Bool}
    {tenant : Option Uuid} {view : List (StoredRow γ)} {statement : Statement γ} {ch : Change γ}
    (h : Touches condition accepts tenant view statement ch) : ch.key.1 = statement.table := by
  cases h with
  | inserts row _ => rfl
  | updates r _ htable _ _ => exact htable
  | deletes r _ htable _ => exact htable

theorem Touches.key {condition accepts : List (StoredRow γ) → StoredRow γ → Bool}
    {tenant : Option Uuid} {view : List (StoredRow γ)} {statement : Statement γ} {ch : Change γ}
    (h : Touches condition accepts tenant view statement ch) : ∀ r ∈ ch.row, r.key = ch.key := by
  intro r hr
  cases h <;> cases hr <;> rfl

/-- A change in no tenant's context is of no protected row. -/
theorem lawful_of_unprotected {ch : Change γ} (hkey : ∀ r ∈ ch.row, r.key = ch.key)
    (htable : ch.key.1.isProtected = false) (hother : settings.tenant ≠ some t) :
    ch.Lawful t s settings := by
  have hpolicy : ∀ {p : Policy}, policy ch.key.1 = p → p = .unprotected := by
    intro p hp
    rw [← hp]
    by_contra hnot
    rw [isProtected_iff.mpr hnot] at htable
    cases htable
  have hrow : ∀ r ∈ ch.row, ∀ {p : Policy}, policy r.table = p → p = .unprotected := by
    intro r hr p hp
    have htable' := congrArg Prod.fst (hkey r hr)
    exact hpolicy (htable' ▸ hp)
  have hnot : ch.key.1.isProtected ≠ true := by
    rw [htable]
    decide
  refine ⟨⟨hkey, fun hp => absurd hp hnot, fun hp => absurd hp hnot, fun h => absurd h hother⟩,
    fun hp => absurd hp hnot, fun r hr hp => ?_, fun r hr parent hp => ?_, fun r hr hp => ?_⟩
  · cases hrow r hr hp
  · cases hrow r hr hp
  · exact absurd (protected_of_parent hp) hnot

/-- The key of a tenant's row is nobody else's, and what belongs to the row is the tenant's. -/
theorem WellOwned.own_key (h : WellOwned t s) {r : StoredRow γ} (hr : r ∈ s.held)
    (hprotected : r.table.isProtected = true) {owner : Option Uuid} (howner : r.insertedBy = owner) :
    (∀ x ∈ s.claims, x.1 = r.key → x.2 = owner)
      ∧ ∀ r' ∈ s.held, policy r'.table = .parentRow r.key.1 → r'.parentId = some r.key.2 →
        r'.insertedBy = owner := by
  have hclaimed := h.claimed hr hprotected
  refine ⟨fun x hx hkey => ?_, fun r' hr' hparent hid => ?_⟩
  · rw [← howner]
    exact h.keys x hx _ hclaimed hkey (by rw [hkey]; exact hprotected)
  · rw [← howner]
    exact (h.parents r' hr' r.table hparent _ hclaimed rfl hid).symm

/-- **What a statement does is lawful**, where new ids are fresh. -/
theorem WellOwned.lawful (h : WellOwned t s)
    (hc : s.connections[c]? = some ⟨session, some (settings, tx)⟩) {statement : Statement γ}
    (hguarded : Guarded t s (.execute c statement)) {ch : Change γ}
    (hch : Touches (visible settings) (visible settings) settings.tenant
      (overlay tx.changes s.rows) statement ch) : ch.Lawful t s settings := by
  obtain ⟨hselect, hown, hfresh⟩ := hguarded _ hc _ rfl
  have hbypasses : settings.bypasses = false := by
    cases hb : settings.bypasses with
    | false => rfl
    | true =>
      have hs := hselect hb
      cases hch <;> cases hs
  cases hprotected : ch.key.1.isProtected with
  | false =>
    refine lawful_of_unprotected hch.key hprotected fun htenant => ?_
    have hp := hown htenant
    rw [← hch.table, hprotected] at hp
    cases hp
  | true =>
    obtain ⟨u, htenant⟩ : ∃ u, settings.tenant = some u := by
      cases hch with
      | inserts row haccepts => exact tenant_of_visible haccepts hprotected hbypasses
      | updates r _ _ hcondition _ => exact tenant_of_visible hcondition hprotected hbypasses
      | deletes r _ _ hcondition => exact tenant_of_visible hcondition hprotected hbypasses
    have hserves : settings.serves u = true := serves_iff.mpr ⟨htenant, hbypasses⟩
    -- a new row is visible, so it says that it is the tenant's
    have hcolumns : ∀ r : StoredRow γ, visible settings (overlay tx.changes s.rows) r = true →
        r.table.isProtected = true → policy r.table = .tenantColumn → r.tenantId = some u := by
      intro r hr hp hcolumn
      rcases (visible_iff hserves hp).mp hr with ⟨-, hid⟩ | ⟨parent, hparent, -⟩
      · exact hid
      · rw [hcolumn] at hparent
        cases hparent
    cases hch with
    | inserts row haccepts =>
      obtain ⟨hclaims, hchildren⟩ := hfresh row rfl
      refine ⟨⟨fun r hr => (by cases hr; rfl), fun _ => ⟨(by rw [htenant]; rfl), hbypasses⟩,
        fun _ r hr => (by cases hr; rfl), fun _ => hprotected⟩, fun _ x hx hkey => hclaims x hx hkey,
        fun r hr hcolumn => ?_, fun r hr parent hparent => ?_, fun r hr hparent hid => ?_⟩
      · cases hr
        exact (hcolumns _ haccepts hprotected hcolumn).trans htenant.symm
      · cases hr
        rw [htenant]
        exact h.parent_of_visible hc hserves hparent (htenant ▸ haccepts)
      · exact hchildren r hr hparent hid
    | updates r hr _ hcondition haccepts =>
      have hheld := mem_held_of_view hc hr
      have howner : r.insertedBy = settings.tenant :=
        (h.owner hc hserves hheld hprotected hcondition).trans htenant.symm
      obtain ⟨hclaims, hchildren⟩ := h.own_key hheld hprotected howner
      refine ⟨⟨fun r hr => (by cases hr; rfl), fun _ => ⟨(by rw [htenant]; rfl), hbypasses⟩,
        fun _ r hr => (by cases hr; exact howner), fun _ => hprotected⟩, fun _ => hclaims,
        fun r hr hcolumn => ?_, fun r hr parent hparent => ?_, hchildren⟩
      · cases hr
        exact (hcolumns _ haccepts hprotected hcolumn).trans (howner.trans htenant).symm
      · cases hr
        rw [htenant]
        exact h.parent_of_visible hc hserves hparent haccepts
    | deletes r hr _ hcondition =>
      have hheld := mem_held_of_view hc hr
      have howner : r.insertedBy = settings.tenant :=
        (h.owner hc hserves hheld hprotected hcondition).trans htenant.symm
      obtain ⟨hclaims, hchildren⟩ := h.own_key hheld hprotected howner
      exact ⟨⟨fun r hr => (by cases hr), fun _ => ⟨(by rw [htenant]; rfl), hbypasses⟩,
        fun _ r hr => (by cases hr), fun _ => hprotected⟩, fun _ => hclaims,
        fun r hr => (by cases hr), fun r hr => (by cases hr), hchildren⟩

/-- **The invariant is kept by every step.** -/
theorem wellOwned_step (s : Server γ) (a : ServerLabel γ) (h : WellOwned t s)
    (hguarded : Guarded t s a) : WellOwned t (serverStep s a) := by
  cases a with
  | begin c context =>
    dsimp only [serverStep]
    split
    · next session hc =>
      have hsession := h.sessions _ (List.mem_of_getElem? hc)
      refine h.of_fewer (clean_set h.sessions hsession)
        (fun r hr => mem_held.mpr (Or.inl hr)) fun x hx => ?_
      rcases mem_pending_set hx with hold | hnew
      · exact hold
      · obtain ⟨tx, htx, hch⟩ := mem_pending_connection.mp hnew
        obtain ⟨-, rfl⟩ := Prod.mk.inj (Option.some.inj htx)
        cases hch
    · exact h
  | execute c statement =>
    dsimp only [serverStep]
    split
    · next session settings tx hc =>
      have hsession := h.sessions _ (List.mem_of_getElem? hc)
      have hpending : ∀ {tx' : Transaction γ} {x : Settings × Change γ},
          x ∈ Server.pending { s with
            connections := s.connections.set c ⟨session, some (settings, tx')⟩ } →
          x ∈ s.pending ∨ x.1 = settings ∧ x.2 ∈ tx'.changes := by
        intro tx' x hx
        rcases mem_pending_set hx with hold | hnew
        · exact Or.inl hold
        · obtain ⟨tx'', htx, hch⟩ := mem_pending_connection.mp hnew
          cases htx
          exact Or.inr ⟨rfl, hch⟩
      have hold : ∀ x : Settings × Change γ, x.1 = settings → x.2 ∈ tx.changes →
          x ∈ s.pending := by
        intro x hsettings hch
        have hx := mem_pending_of_change hc hch
        rw [← hsettings] at hx
        exact hx
      rcases execute_changes (visible settings) (visible settings) settings.tenant s.rows
        (s.locked c) tx statement with hsame | ⟨new, hnew, htouches⟩
      · refine h.of_fewer (clean_set h.sessions hsession) (fun r hr => mem_held.mpr (Or.inl hr)) ?_
        intro x hx
        rcases hpending hx with hx | ⟨hsettings, hch⟩
        · exact hx
        · rw [hsame] at hch
          exact hold x hsettings hch
      · have hlawful : ∀ ch ∈ new, ch.Lawful t s settings :=
          fun ch hch => h.lawful hc hguarded (htouches ch hch)
        refine h.of_lawful rfl (clean_set h.sessions hsession) hlawful fun x hx => ?_
        rcases hpending hx with hx | ⟨hsettings, hch⟩
        · exact Or.inl hx
        · rw [hnew] at hch
          rcases mem_recordChanges hch with hch | hch
          · exact Or.inl (hold x hsettings hch)
          · exact Or.inr ⟨hsettings, hch⟩
    · exact h
  | commit c =>
    dsimp only [serverStep]
    split
    · next session settings tx hc =>
      obtain ⟨htenant, hbypasses⟩ := h.sessions _ (List.mem_of_getElem? hc)
      refine h.of_fewer (clean_set h.sessions (after_session settings htenant hbypasses))
        (fun r hr => ?_) (mem_pending_ended)
      unfold Transaction.commit at hr
      split at hr
      · exact mem_held.mpr (Or.inl hr)
      · exact mem_held_of_view hc hr
    · exact h
  | rollback c =>
    dsimp only [serverStep]
    split
    · next session settings tx hc =>
      obtain ⟨htenant, hbypasses⟩ := h.sessions _ (List.mem_of_getElem? hc)
      exact h.of_fewer (clean_set h.sessions (after_session settings htenant hbypasses))
        (fun r hr => mem_held.mpr (Or.inl hr)) mem_pending_ended
    · exact h

end Invariant

theorem pending_empty (n : Nat) : (Server.empty n : Server γ).pending = [] := by
  rw [List.eq_nil_iff_forall_not_mem]
  intro x hx
  obtain ⟨connection, hconnection, hpending⟩ := mem_pending.mp hx
  rw [List.eq_of_mem_replicate hconnection] at hpending
  cases hpending

theorem wellOwned_empty (t : Uuid) (n : Nat) : WellOwned t (Server.empty n : Server γ) := by
  have hclaims : (Server.empty n : Server γ).claims = [] := by
    unfold Server.claims
    rw [pending_empty]
    rfl
  have hheld : (Server.empty n : Server γ).held = [] := by
    unfold Server.held
    rw [pending_empty]
    rfl
  refine ⟨clean_empty n, ?_, ?_, ?_, ?_⟩
  · rw [pending_empty]
    exact fun x hx => by cases hx
  · rw [hclaims]
    exact fun x hx => by cases hx
  · rw [hheld]
    exact fun r hr => by cases hr
  · rw [hheld]
    exact fun r hr => by cases hr

end MortgageAgent.Database
