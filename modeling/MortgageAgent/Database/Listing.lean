import Mathlib.Data.List.Sort
import Mathlib.Data.Prod.Lex
import MortgageAgent.Lib.Keyset
import MortgageAgent.Platform

/-!
# Listings, newest first

The listings of cases and of audit events are in the order of `(createdAt, id)`, descending, and
are read by keyset pagination. A column `timestamptz` counts microseconds; the `Date` that the
driver makes of it, and that a cursor holds, counts milliseconds.

* **`RowKey`** — what a listing is ordered by.
* **`Cursor`** — a row's key with its time as a `Date`; `Cursor.finds` is the condition of the next
  query.
* **`newestFirst`** — the order, a keyset for the cursors of its rows (`keyset_newestFirst`).
-/

namespace MortgageAgent

/-- A `timestamptz`, as microseconds since the epoch. -/
abbrev Timestamptz := Int

/-- The `Date` the driver makes of a column. -/
def Timestamptz.toDate (t : Timestamptz) : Instant := t / 1000

/-- The time a `Date` is as a parameter of a query. -/
def timestamptzOf (date : Instant) : Timestamptz := date * 1000

/-- What a listing is ordered by. -/
@[ext]
structure RowKey where
  createdAt : Timestamptz
  id : Uuid
  deriving DecidableEq

/-- By the time, then by the id. -/
instance : LinearOrder RowKey :=
  LinearOrder.lift' (fun k => toLex (k.createdAt, k.id)) fun _ _ h => by
    have hpair := toLex.injective h
    exact RowKey.ext (congrArg Prod.fst hpair) (congrArg Prod.snd hpair)

/-- The last row of a page, as the next query is told of it. -/
structure Cursor where
  createdAt : Instant
  id : Uuid
  deriving DecidableEq

def RowKey.cursor (k : RowKey) : Cursor := { createdAt := k.createdAt.toDate, id := k.id }

/-- `"createdAt" < :cursorCreatedAt OR ("createdAt" = :cursorCreatedAt AND id < :cursorId)`. -/
def Cursor.finds (c : Cursor) (k : RowKey) : Bool :=
  k.createdAt < timestamptzOf c.createdAt
    || (k.createdAt = timestamptzOf c.createdAt && k.id < c.id)

/-- `ORDER BY "createdAt" DESC, id DESC`. -/
def newestFirst {ρ : Type} (key : ρ → RowKey) (rows : List ρ) : List ρ :=
  rows.insertionSort fun a b => key b ≤ key a

/-- The row is found behind the other's cursor. -/
def behindCursor {ρ : Type} (key : ρ → RowKey) (a b : ρ) : Bool := (key a).cursor.finds (key b)

/-! ## The order -/

theorem RowKey.lt_iff {a b : RowKey} :
    a < b ↔ a.createdAt < b.createdAt ∨ (a.createdAt = b.createdAt ∧ a.id < b.id) :=
  Prod.Lex.toLex_lt_toLex

/-- The key a cursor stands for: that of the row, at the begin of its millisecond. -/
def Cursor.key (c : Cursor) : RowKey := { createdAt := timestamptzOf c.createdAt, id := c.id }

theorem Cursor.finds_iff {c : Cursor} {k : RowKey} : c.finds k = true ↔ k < c.key := by
  rw [RowKey.lt_iff, Cursor.finds]
  simp [Cursor.key]

theorem Cursor.finds_eq_false_iff {c : Cursor} {k : RowKey} : c.finds k = false ↔ c.key ≤ k := by
  rw [← not_lt, ← Cursor.finds_iff, Bool.not_eq_true]

/-- A cursor is no later than its row. -/
theorem RowKey.cursor_key_le (k : RowKey) : k.cursor.key ≤ k := by
  rw [← not_lt, RowKey.lt_iff]
  have hfloor : k.createdAt / 1000 * 1000 ≤ k.createdAt :=
    Int.ediv_mul_le k.createdAt (by decide)
  simp only [RowKey.cursor, Cursor.key, timestamptzOf, Timestamptz.toDate, lt_irrefl, and_false,
    or_false]
  exact not_lt.mpr hfloor

section Sorted

variable {ρ : Type} {key : ρ → RowKey} {rows : List ρ}

theorem mem_newestFirst {r : ρ} : r ∈ newestFirst key rows ↔ r ∈ rows := List.mem_insertionSort _

theorem pairwise_newestFirst : (newestFirst key rows).Pairwise fun a b => key b ≤ key a := by
  have htotal : Std.Total fun a b : ρ => key b ≤ key a := ⟨fun a b => le_total (key b) (key a)⟩
  have htrans : IsTrans ρ fun a b : ρ => key b ≤ key a := ⟨fun _ _ _ hab hbc => hbc.trans hab⟩
  exact List.pairwise_insertionSort _ rows

theorem newestFirst_nodup (hnodup : (rows.map key).Nodup) :
    ((newestFirst key rows).map key).Nodup :=
  ((List.perm_insertionSort _ rows).map key).nodup_iff.mpr hnodup

/-- No two rows with one key: the order is strict. -/
theorem pairwise_lt_newestFirst (hnodup : (rows.map key).Nodup) :
    (newestFirst key rows).Pairwise fun a b => key b < key a := by
  have hne := List.pairwise_map.mp (newestFirst_nodup hnodup)
  exact (pairwise_newestFirst.and hne).imp fun ⟨hle, hne⟩ => lt_of_le_of_ne hle (Ne.symm hne)

/-- A list in the order is the listing of its rows. -/
theorem eq_newestFirst_of_pairwise {l : List ρ} (hl : l.Pairwise fun a b => key b < key a)
    (hrows : (newestFirst key rows).Pairwise fun a b => key b < key a)
    (hmem : ∀ r, r ∈ l ↔ r ∈ rows) : l = newestFirst key rows := by
  have hirrefl : Std.Irrefl fun a b : ρ => key b < key a := ⟨fun a => lt_irrefl (key a)⟩
  have hantisymm : Std.Antisymm fun a b : ρ => key b < key a :=
    ⟨fun a b hab hba => absurd hab hba.asymm⟩
  exact hl.eq_of_mem_iff hrows fun r => (hmem r).trans mem_newestFirst.symm

/-- To filter before the order is to filter after it. -/
theorem newestFirst_filter (hnodup : (rows.map key).Nodup) (p : ρ → Bool) :
    newestFirst key (rows.filter p) = (newestFirst key rows).filter p := by
  have hsublist : ((rows.filter p).map key).Sublist (rows.map key) := List.filter_sublist.map key
  symm
  refine eq_newestFirst_of_pairwise ((pairwise_lt_newestFirst hnodup).filter p)
    (pairwise_lt_newestFirst (hnodup.sublist hsublist)) (fun r => ?_)
  rw [List.mem_filter, List.mem_filter, mem_newestFirst]

theorem keyset_newestFirst (hnodup : (rows.map key).Nodup) :
    Paging.Keyset (behindCursor key) (newestFirst key rows) where
  irrefl a _ := Cursor.finds_eq_false_iff.mpr (key a).cursor_key_le
  forward := (pairwise_lt_newestFirst hnodup).imp fun hlt =>
    Cursor.finds_eq_false_iff.mpr ((RowKey.cursor_key_le _).trans hlt.le)
  upward _ _ := (pairwise_lt_newestFirst hnodup).imp fun hlt hb =>
    Cursor.finds_iff.mpr (hlt.trans (Cursor.finds_iff.mp hb))

end Sorted

end MortgageAgent
