import Mathlib.Data.List.Nodup
import MortgageAgent.Lib.Reach

/-!
# Tables with foreign keys

Rows of any tables, each with a key, an owner where its table has such a column, and the keys of
the rows it refers to. A row goes in when its key is free and its references resolve. A `DELETE`
takes the rows that refer to a deleted row by a cascading foreign key along, and fails where another
kind of foreign key still points at one.

* **`Row`** — carries that its references are those of its table.
* **`Sound`** — keys are unique, references resolve, and to rows of the same owner.
* **`insert`**, **`delete`** — the statements, which keep `Sound`.
* **`deleteAll`** — statements that delete what one owner has, one after the other.
* **`Ordered`** — a decidable check of the order; **`deleteAll_of_ordered`**: then none fails, and
  nothing is left that the list of statements covers.
-/

namespace Relational

inductive OnDelete where
  | cascade
  /-- checked as the row is deleted -/
  | restrict
  /-- checked at the end of the statement -/
  | noAction
  deriving DecidableEq, Repr

/-- Rows of `child` refer to rows of `parent`. -/
structure ForeignKey (τ : Type*) where
  child : τ
  parent : τ
  onDelete : OnDelete
  nullable : Bool := false
  deriving DecidableEq, Repr

structure Schema (τ : Type*) where
  foreignKeys : List (ForeignKey τ)
  /-- the tables that have a column for the owner of a row -/
  hasOwner : τ → Bool

variable {τ κ ω : Type*}

structure Row (schema : Schema τ) (κ ω : Type*) where
  table : τ
  key : κ
  owner : Option ω
  refs : List (ForeignKey τ × κ)
  ownerColumn : owner.isSome = schema.hasOwner table
  columns : ∀ fk ∈ refs.map Prod.fst, fk ∈ schema.foreignKeys ∧ fk.child = table
  required : ∀ fk ∈ schema.foreignKeys, fk.child = table → fk.nullable = false →
    fk ∈ refs.map Prod.fst

variable {schema : Schema τ}

deriving instance DecidableEq for Row

/-- The row refers to the other one by the foreign key. -/
def Row.RefersTo (x : Row schema κ ω) (fk : ForeignKey τ) (y : Row schema κ ω) : Prop :=
  (fk, y.key) ∈ x.refs ∧ fk.parent = y.table

instance [DecidableEq τ] [DecidableEq κ] (x : Row schema κ ω) (fk : ForeignKey τ)
    (y : Row schema κ ω) : Decidable (x.RefersTo fk y) := inferInstanceAs (Decidable (_ ∧ _))

structure Sound (db : List (Row schema κ ω)) : Prop where
  keys : ∀ x ∈ db, ∀ y ∈ db, x.table = y.table → x.key = y.key → x = y
  refs : ∀ x ∈ db, ∀ r ∈ x.refs, ∃ y ∈ db, y.table = r.1.parent ∧ y.key = r.2
  owners : ∀ x ∈ db, ∀ fk, ∀ y ∈ db, x.RefersTo fk y → ∀ o, x.owner = some o → y.owner = some o

/-- Rows that must refer to a row of a table without rows of their owner are not there either. -/
theorem Sound.parent_not_mem {db : List (Row schema κ ω)} (hs : Sound db) {o : ω} {ts : List τ}
    (hcleared : ∀ x ∈ db, x.owner = some o → x.table ∉ ts) {x : Row schema κ ω}
    (hx : x ∈ db) (ho : x.owner = some o) {fk : ForeignKey τ} (hfk : fk ∈ schema.foreignKeys)
    (hchild : fk.child = x.table) (hrequired : fk.nullable = false) : fk.parent ∉ ts := by
  obtain ⟨r, hr, rfl⟩ := List.mem_map.mp (x.required fk hfk hchild hrequired)
  obtain ⟨y, hy, htable, hkey⟩ := hs.refs x hx r hr
  have howner := hs.owners x hx r.1 y hy ⟨hkey ▸ hr, htable.symm⟩ o ho
  rw [← htable]
  exact hcleared y hy howner

section Statements

/-! ## Inserting -/

variable [DecidableEq τ] [DecidableEq κ]

def resolves (db : List (Row schema κ ω)) (r : ForeignKey τ × κ) : Bool :=
  db.any fun y => y.table = r.1.parent ∧ y.key = r.2

theorem resolves_iff {db : List (Row schema κ ω)} {r : ForeignKey τ × κ} :
    resolves db r = true ↔ ∃ y ∈ db, y.table = r.1.parent ∧ y.key = r.2 := by
  simp [resolves, List.any_eq_true]

/-- `INSERT`. -/
def insert (db : List (Row schema κ ω)) (x : Row schema κ ω) : Option (List (Row schema κ ω)) :=
  if (db.any fun y => y.table = x.table ∧ y.key = x.key) || !x.refs.all (resolves db) then none
  else some (db ++ [x])

theorem insert_eq_some {db db' : List (Row schema κ ω)} {x : Row schema κ ω} :
    insert db x = some db' ↔ (∀ y ∈ db, y.table = x.table → y.key ≠ x.key)
      ∧ (∀ r ∈ x.refs, ∃ y ∈ db, y.table = r.1.parent ∧ y.key = r.2) ∧ db' = db ++ [x] := by
  have hfree : (db.any fun y => y.table = x.table ∧ y.key = x.key) = false
      ↔ ∀ y ∈ db, y.table = x.table → y.key ≠ x.key := by simp
  have hresolved : x.refs.all (resolves db) = true
      ↔ ∀ r ∈ x.refs, ∃ y ∈ db, y.table = r.1.parent ∧ y.key = r.2 := by
    simp only [List.all_eq_true, resolves_iff]
  rw [insert, ← hfree, ← hresolved]
  cases db.any fun y => y.table = x.table ∧ y.key = x.key <;>
    cases x.refs.all (resolves db) <;> simp [eq_comm]

/-- A row whose references are rows of its owner. -/
theorem Sound.insert {db db' : List (Row schema κ ω)} {x : Row schema κ ω} (h : Sound db)
    (hinsert : insert db x = some db')
    (hown : ∀ r ∈ x.refs, ∀ o, x.owner = some o →
      ∃ y ∈ db, y.table = r.1.parent ∧ y.key = r.2 ∧ y.owner = some o) : Sound db' := by
  obtain ⟨hfree, hresolved, rfl⟩ := insert_eq_some.mp hinsert
  have hnew (y : Row schema κ ω) (hy : y ∈ db) (htable : y.table = x.table)
      (hkey : y.key = x.key) : False := hfree y hy htable hkey
  refine ⟨?_, ?_, ?_⟩
  · intro y hy z hz htable hkey
    rw [List.mem_append, List.mem_singleton] at hy hz
    rcases hy with hyold | rfl <;> rcases hz with hzold | rfl
    · exact h.keys y hyold z hzold htable hkey
    · exact (hnew y hyold htable hkey).elim
    · exact (hnew z hzold htable.symm hkey.symm).elim
    · rfl
  · intro y hy r hr
    have hold : ∃ z ∈ db, z.table = r.1.parent ∧ z.key = r.2 := by
      rw [List.mem_append, List.mem_singleton] at hy
      rcases hy with hyold | rfl
      · exact h.refs y hyold r hr
      · exact hresolved r hr
    obtain ⟨z, hz, hz'⟩ := hold
    exact ⟨z, List.mem_append_left _ hz, hz'⟩
  · intro y hy fk z hz href o ho
    -- what a reference resolves to was there before, so it is not the new row
    have hresolvesTo : ∃ z' ∈ db, z'.table = fk.parent ∧ z'.key = z.key ∧ z'.owner = some o := by
      rw [List.mem_append, List.mem_singleton] at hy
      rcases hy with hyold | rfl
      · obtain ⟨z', hz', htable, hkey⟩ := h.refs y hyold _ href.1
        have hresolved' : y.RefersTo fk z' := ⟨hkey ▸ href.1, htable.symm⟩
        exact ⟨z', hz', htable, hkey, h.owners y hyold fk z' hz' hresolved' o ho⟩
      · exact hown _ href.1 o ho
    obtain ⟨z', hz', htable, hkey, howner⟩ := hresolvesTo
    rw [List.mem_append, List.mem_singleton] at hz
    rcases hz with hzold | rfl
    · rw [← h.keys z' hz' z hzold (htable.trans href.2) hkey]
      exact howner
    · exact (hnew z' hz' (htable.trans href.2) hkey).elim

variable [DecidableEq ω]

/-! ## Deleting -/

/-- `x` goes along when `y` is deleted. -/
def cascades (y x : Row schema κ ω) : Bool :=
  x.refs.any fun r => r.1.onDelete = .cascade ∧ r.1.parent = y.table ∧ r.2 = y.key

/-- What a `DELETE` of the selected rows takes away. -/
def deleted (db : List (Row schema κ ω)) (select : Row schema κ ω → Bool) :
    List (Row schema κ ω) := db.reach cascades (db.filter select)

/-- A row that keeps `y` from being deleted. -/
def blocks (gone : List (Row schema κ ω)) (x y : Row schema κ ω) : Bool :=
  x.refs.any fun r => (r.1.parent = y.table ∧ r.2 = y.key)
    && (r.1.onDelete = .restrict || (r.1.onDelete = .noAction && x ∉ gone))

/-- `DELETE`. -/
def delete (db : List (Row schema κ ω)) (select : Row schema κ ω → Bool) :
    Option (List (Row schema κ ω)) :=
  if db.any fun x => (deleted db select).any (blocks (deleted db select) x) then none
  else some (db.filter fun x => x ∉ deleted db select)

section Delete

variable {db db' : List (Row schema κ ω)} {select : Row schema κ ω → Bool}

theorem delete_eq_some (h : delete db select = some db') :
    db' = db.filter (fun x => x ∉ deleted db select)
      ∧ ∀ x ∈ db, ∀ y ∈ deleted db select, blocks (deleted db select) x y = false := by
  rw [delete] at h
  split at h
  · cases h
  · next hfree =>
    refine ⟨(Option.some.inj h).symm, fun x hx y hy => ?_⟩
    simp only [List.any_eq_true, not_exists, not_and, Bool.not_eq_true] at hfree
    exact hfree x hx y hy

theorem mem_of_delete (h : delete db select = some db') {x : Row schema κ ω} (hx : x ∈ db') :
    x ∈ db := by
  rw [(delete_eq_some h).1] at hx
  exact List.mem_of_mem_filter hx

theorem not_select_of_delete (h : delete db select = some db') {x : Row schema κ ω}
    (hx : x ∈ db') : select x = false := by
  rw [(delete_eq_some h).1, List.mem_filter] at hx
  by_contra hselect
  have hgone : x ∈ deleted db select := by
    refine List.subset_reach _ (List.mem_filter.mpr ⟨hx.1, ?_⟩)
    simpa using hselect
  simp [hgone] at hx

theorem mem_delete (h : delete db select = some db') {x : Row schema κ ω} (hx : x ∈ db)
    (hkept : x ∉ deleted db select) : x ∈ db' := by
  rw [(delete_eq_some h).1]
  exact List.mem_filter.mpr ⟨hx, by simpa using hkept⟩

theorem Sound.delete (hs : Sound db) (h : delete db select = some db') : Sound db' := by
  have hmem {x : Row schema κ ω} (hx : x ∈ db') : x ∈ db := mem_of_delete h hx
  refine ⟨fun x hx y hy => hs.keys x (hmem hx) y (hmem hy), ?_,
    fun x hx fk y hy => hs.owners x (hmem hx) fk y (hmem hy)⟩
  intro x hx r hr
  obtain ⟨y, hy, htable, hkey⟩ := hs.refs x (hmem hx) r hr
  refine ⟨y, mem_delete h hy fun hgone => ?_, htable, hkey⟩
  have hx' := hx
  rw [(delete_eq_some h).1, List.mem_filter, decide_eq_true_eq] at hx'
  by_cases hcascade : r.1.onDelete = .cascade
  · have hnext : cascades y x = true :=
      List.any_eq_true.mpr ⟨r, hr, by simp [hcascade, htable, hkey]⟩
    exact hx'.2 (List.reach_closed hgone hx'.1 hnext)
  · have hblocks : blocks (deleted db select) x y = true := by
      refine List.any_eq_true.mpr ⟨r, hr, ?_⟩
      cases haction : r.1.onDelete with
      | cascade => exact absurd haction hcascade
      | restrict => simp [htable, hkey]
      | noAction => simp [htable, hkey, hx'.2]
    rw [(delete_eq_some h).2 x (hmem hx) y hgone] at hblocks
    cases hblocks

/-- What holds of the selected rows, and of what refers to such a row by a cascading foreign key,
holds of what is deleted. -/
theorem deleted_induction {P : Row schema κ ω → Prop} (hselect : ∀ x ∈ db, select x = true → P x)
    (hcascade : ∀ y, P y → ∀ x ∈ db, ∀ fk, fk.onDelete = .cascade → x.RefersTo fk y → P x)
    {x : Row schema κ ω} (hx : x ∈ deleted db select) : P x := by
  refine List.reach_induction ?_ ?_ hx
  · intro y hy
    exact hselect y (List.mem_of_mem_filter hy) (List.mem_filter.mp hy).2
  · intro y hP x hx hnext
    obtain ⟨r, hr, hr'⟩ := List.any_eq_true.mp hnext
    obtain ⟨haction, htable, hkey⟩ := of_decide_eq_true hr'
    exact hcascade y hP x hx r.1 haction ⟨hkey ▸ hr, htable⟩

theorem mem_of_deleted {x : Row schema κ ω} (hx : x ∈ deleted db select) : x ∈ db :=
  deleted_induction (fun _ hx _ => hx) (fun _ _ _ hx _ _ _ => hx) hx

/-- Only a row that refers to another is taken along. -/
theorem mem_delete_of_not_select (h : delete db select = some db') {x : Row schema κ ω}
    (hx : x ∈ db) (hselect : select x = false) (hrefs : x.refs = []) : x ∈ db' := by
  refine mem_delete h hx fun hgone => ?_
  have heither : select x = true ∨ x.refs ≠ [] := by
    refine deleted_induction (P := fun x => select x = true ∨ x.refs ≠ []) ?_ ?_ hgone
    · exact fun _ _ hselect => Or.inl hselect
    · exact fun _ _ _ _ _ _ href => Or.inr (List.ne_nil_of_mem href.1)
  rcases heither with hselected | hrefers
  · rw [hselect] at hselected
    cases hselected
  · exact hrefers hrefs

end Delete

/-! ## Deleting what one owner has -/

inductive Statement (τ : Type*) where
  /-- the rows of a table that belong to the owner -/
  | owned (table : τ)
  /-- the rows that refer by the foreign key to a row of the owner -/
  | children (fk : ForeignKey τ)

def Statement.table : Statement τ → τ
  | .owned table => table
  | .children fk => fk.child

def Statement.selects (db : List (Row schema κ ω)) (o : ω) :
    Statement τ → Row schema κ ω → Bool
  | .owned table, x => x.table = table ∧ x.owner = some o
  | .children fk, x => x.table = fk.child ∧ db.any fun y => x.RefersTo fk y ∧ y.owner = some o

def deleteAll (o : ω) : List (Statement τ) → List (Row schema κ ω) → Option (List (Row schema κ ω))
  | [], db => some db
  | s :: rest, db => (delete db (s.selects db o)).bind (deleteAll o rest)

/-- The tables whose rows a `DELETE` from the table may take along. -/
def Schema.below (schema : Schema τ) (table : τ) : List τ :=
  (schema.foreignKeys.map ForeignKey.child).reach
    (fun parent child => schema.foreignKeys.any fun fk =>
      fk.onDelete = .cascade ∧ fk.parent = parent ∧ fk.child = child) [table]

/-- The tables where statements leave nothing of the owner. -/
def cleared : List (Statement τ) → List τ
  | [] => []
  | .owned table :: rest => table :: cleared rest
  | .children _ :: rest => cleared rest

/-- A row that could keep a row of the table, or one that goes along, from being deleted is of a
table that is cleared before. -/
def Schema.Unblocked (schema : Schema τ) (before : List τ) (table : τ) : Prop :=
  ∀ fk ∈ schema.foreignKeys, fk.parent ∈ schema.below table → fk.onDelete ≠ .cascade →
    fk.child ∈ before ∧ schema.hasOwner fk.child = true

instance (schema : Schema τ) (before : List τ) (table : τ) :
    Decidable (schema.Unblocked before table) :=
  inferInstanceAs (Decidable (∀ fk ∈ schema.foreignKeys, _ → _ → _))

def Schema.Ordered (schema : Schema τ) (before : List τ) : List (Statement τ) → Prop
  | [] => True
  | s :: rest => schema.Unblocked before s.table ∧ schema.Ordered (cleared [s] ++ before) rest

instance Schema.Ordered.decidable (schema : Schema τ) :
    ∀ before stmts, Decidable (schema.Ordered (τ := τ) before stmts)
  | _, [] => isTrue trivial
  | before, s :: rest =>
    have := Schema.Ordered.decidable schema (cleared [s] ++ before) rest
    inferInstanceAs (Decidable (_ ∧ _))

/-! ### The order is enough -/

section Order

variable {db db' : List (Row schema κ ω)} {o : ω}

theorem Statement.selects_table {s : Statement τ} {x : Row schema κ ω}
    (h : s.selects db o x = true) : x.table = s.table := by
  cases s with
  | owned table => exact (of_decide_eq_true h).1
  | children fk =>
    simp only [Statement.selects, decide_eq_true_eq] at h
    exact h.1

theorem Statement.selects_owner {s : Statement τ} (hs : Sound db) {x : Row schema κ ω}
    (hx : x ∈ db) (h : s.selects db o x = true) : ∀ o', x.owner = some o' → o' = o := by
  intro o' ho'
  cases s with
  | owned table =>
    have ho := (of_decide_eq_true h).2
    exact Option.some.inj (ho'.symm.trans ho)
  | children fk =>
    simp only [Statement.selects, decide_eq_true_eq, List.any_eq_true] at h
    obtain ⟨-, y, hy, href, ho⟩ := h
    exact Option.some.inj ((hs.owners x hx fk y hy href o' ho').symm.trans ho)

/-- What is deleted with a statement is of a table below. -/
theorem table_of_deleted {s : Statement τ} {x : Row schema κ ω}
    (hx : x ∈ deleted db (s.selects db o)) : x.table ∈ schema.below s.table := by
  refine deleted_induction (P := fun x => x.table ∈ schema.below s.table) ?_ ?_ hx
  · intro x _ hselect
    refine List.subset_reach _ ?_
    rw [Statement.selects_table hselect]
    exact List.mem_singleton_self _
  · intro y hy x _ fk hcascade href
    obtain ⟨hfk, hchild⟩ := x.columns fk (List.mem_map_of_mem href.1)
    refine List.reach_closed hy (hchild ▸ List.mem_map_of_mem hfk) ?_
    exact List.any_eq_true.mpr ⟨fk, hfk, by simp [hcascade, href.2, hchild]⟩

/-- And of no other owner. -/
theorem owner_of_deleted {s : Statement τ} (hs : Sound db) {x : Row schema κ ω}
    (hx : x ∈ deleted db (s.selects db o)) : ∀ o', x.owner = some o' → o' = o := by
  have hboth : x ∈ db ∧ ∀ o', x.owner = some o' → o' = o := by
    refine deleted_induction (P := fun x => x ∈ db ∧ ∀ o', x.owner = some o' → o' = o) ?_ ?_ hx
    · intro x hx hselect
      exact ⟨hx, Statement.selects_owner hs hx hselect⟩
    · intro y hy x hx fk _ href
      exact ⟨hx, fun o' ho' => hy.2 o' (hs.owners x hx fk y hy.1 href o' ho')⟩
  exact hboth.2

/-- Where the tables that could block are cleared, a statement succeeds. -/
theorem delete_of_unblocked (hs : Sound db) {before : List τ} {s : Statement τ}
    (hunblocked : schema.Unblocked before s.table)
    (hbefore : ∀ x ∈ db, x.owner = some o → x.table ∉ before) :
    ∃ db', delete db (s.selects db o) = some db' := by
  refine ⟨_, if_neg fun hblocked => ?_⟩
  simp only [List.any_eq_true] at hblocked
  obtain ⟨x, hx, y, hy, hblocks⟩ := hblocked
  obtain ⟨r, hr, hblocks⟩ := List.any_eq_true.mp hblocks
  simp only [Bool.and_eq_true, Bool.or_eq_true, decide_eq_true_eq] at hblocks
  obtain ⟨⟨htable, hkey⟩, haction⟩ := hblocks
  obtain ⟨hfk, hchild⟩ := x.columns r.1 (List.mem_map_of_mem hr)
  have hnotCascade : r.1.onDelete ≠ .cascade := by
    intro hcascade
    simp [hcascade] at haction
  have hbelow : r.1.parent ∈ schema.below s.table := htable ▸ table_of_deleted hy
  obtain ⟨hcleared, hhas⟩ := hunblocked r.1 hfk hbelow hnotCascade
  rw [hchild] at hcleared hhas
  obtain ⟨o', ho'⟩ := Option.isSome_iff_exists.mp (x.ownerColumn.trans hhas)
  have howner := hs.owners x hx r.1 y (mem_of_deleted hy) ⟨hkey ▸ hr, htable⟩ o' ho'
  have hsame : o' = o := owner_of_deleted hs hy o' howner
  exact hbefore x hx (hsame ▸ ho') hcleared

/-- What one statement clears stays cleared. -/
theorem cleared_of_delete {before : List τ} {s : Statement τ}
    (hdelete : delete db (s.selects db o) = some db')
    (hbefore : ∀ x ∈ db, x.owner = some o → x.table ∉ before) :
    ∀ x ∈ db', x.owner = some o → x.table ∉ cleared [s] ++ before := by
  intro x hx ho hmem
  rcases List.mem_append.mp hmem with hnow | hthen
  · cases s with
    | owned table =>
      have hselect := not_select_of_delete hdelete hx
      simp only [cleared, List.mem_singleton] at hnow
      simp [Statement.selects, hnow, ho] at hselect
    | children fk => cases hnow
  · exact hbefore x (mem_of_delete hdelete hx) ho hthen

omit [DecidableEq τ] in
theorem mem_cleared_cons {s : Statement τ} {rest : List (Statement τ)} {before : List τ} {t : τ} :
    t ∈ cleared rest ++ (cleared [s] ++ before) ↔ t ∈ cleared (s :: rest) ++ before := by
  cases s <;> simp [cleared, or_left_comm]

/-- **In order, no statement fails**, and the tables that are cleared have no row of the owner. -/
theorem deleteAll_of_ordered {stmts : List (Statement τ)} {before : List τ}
    (hordered : schema.Ordered before stmts) (hs : Sound db)
    (hbefore : ∀ x ∈ db, x.owner = some o → x.table ∉ before) :
    ∃ db', deleteAll o stmts db = some db'
      ∧ ∀ x ∈ db', x.owner = some o → x.table ∉ cleared stmts ++ before := by
  induction stmts generalizing db before with
  | nil => exact ⟨db, rfl, hbefore⟩
  | cons s rest ih =>
    obtain ⟨db₁, hdelete⟩ := delete_of_unblocked hs hordered.1 hbefore
    obtain ⟨db', hrest, hcleared⟩ :=
      ih hordered.2 (hs.delete hdelete) (cleared_of_delete hdelete hbefore)
    refine ⟨db', ?_, ?_⟩
    · rw [deleteAll, hdelete]
      exact hrest
    · intro x hx ho hmem
      exact hcleared x hx ho (mem_cleared_cons.mpr hmem)

theorem Sound.deleteAll {stmts : List (Statement τ)} (hs : Sound db)
    (h : deleteAll o stmts db = some db') : Sound db' := by
  induction stmts generalizing db with
  | nil =>
    cases h
    exact hs
  | cons s rest ih =>
    obtain ⟨db₁, hdelete, hrest⟩ := Option.bind_eq_some_iff.mp h
    exact ih (hs.delete hdelete) hrest

theorem mem_of_deleteAll {stmts : List (Statement τ)} (h : Relational.deleteAll o stmts db = some db')
    {x : Row schema κ ω} (hx : x ∈ db') : x ∈ db := by
  induction stmts generalizing db with
  | nil =>
    cases h
    exact hx
  | cons s rest ih =>
    obtain ⟨db₁, hdelete, hrest⟩ := Option.bind_eq_some_iff.mp h
    exact mem_of_delete hdelete (ih hrest)

/-- Rows of a table below none of the statements stay. -/
theorem mem_deleteAll {stmts : List (Statement τ)} (h : deleteAll o stmts db = some db')
    {x : Row schema κ ω} (hx : x ∈ db) (hnone : ∀ s ∈ stmts, x.table ∉ schema.below s.table) :
    x ∈ db' := by
  induction stmts generalizing db with
  | nil =>
    cases h
    exact hx
  | cons s rest ih =>
    obtain ⟨db₁, hdelete, hrest⟩ := Option.bind_eq_some_iff.mp h
    refine ih hrest ?_ fun s' hs' => hnone s' (List.mem_cons_of_mem _ hs')
    exact mem_delete hdelete hx fun hgone =>
      hnone s (List.mem_cons_self ..) (table_of_deleted hgone)

/-- Rows of other owners stay. -/
theorem mem_deleteAll_of_other {stmts : List (Statement τ)} (hs : Sound db)
    (h : deleteAll o stmts db = some db') {x : Row schema κ ω} (hx : x ∈ db) {o' : ω}
    (ho' : x.owner = some o') (hother : o' ≠ o) : x ∈ db' := by
  induction stmts generalizing db with
  | nil =>
    cases h
    exact hx
  | cons s rest ih =>
    obtain ⟨db₁, hdelete, hrest⟩ := Option.bind_eq_some_iff.mp h
    refine ih (hs.delete hdelete) hrest ?_
    exact mem_delete hdelete hx fun hgone => hother (owner_of_deleted hs hgone o' ho')

end Order

end Statements

end Relational
