import Mathlib.Algebra.BigOperators.Group.List.Basic
import Mathlib.Algebra.Order.BigOperators.Group.List
import Mathlib.Data.List.Nodup
import Mathlib.Tactic.Abel

/-!
# Keyed tables

A table is a list of rows with a primary key, and the structure carries the proof that
no two rows share a key, so a table with a duplicate key cannot be built. `insert` fails
on a key that is taken, `put` replaces the row that has the new row's key, and `mapRows` and
`filter` are the bulk updates.

The lemmas say what each operation does to membership, to lookup by key and to `total`,
the sum of a quantity over the rows: accounting arguments only ever use
`total_insert` and `total_put`.
-/

/-- Where no two entries agree in `f`, those that agree with `a` are `a` alone. -/
theorem List.filter_eq_singleton_of_nodup_map {α β : Type*} [DecidableEq β] {f : α → β} {l : List α}
    (h : (l.map f).Nodup) {a : α} (ha : a ∈ l) : l.filter (fun x => f x = f a) = [a] := by
  obtain ⟨pre, post, rfl⟩ := List.append_of_mem ha
  rw [List.map_append, List.map_cons, List.nodup_append, List.nodup_cons] at h
  obtain ⟨-, ⟨hpost, -⟩, hpre⟩ := h
  have hnone (l' : List α) (hl' : ∀ x ∈ l', f x ≠ f a) : l'.filter (fun x => f x = f a) = [] := by
    rw [List.filter_eq_nil_iff]
    intro x hx heq
    exact hl' x hx (by simpa using heq)
  have hpre' : ∀ x ∈ pre, f x ≠ f a := fun x hx =>
    hpre (f x) (List.mem_map_of_mem hx) (f a) (List.mem_cons_self ..)
  have hpost' : ∀ x ∈ post, f x ≠ f a := fun x hx heq => hpost (heq ▸ List.mem_map_of_mem hx)
  rw [List.filter_append, List.filter_cons, if_pos (by simp), hnone pre hpre', hnone post hpost']
  rfl

/-- Rows with a primary key, no two with the same key. -/
@[ext]
structure Table (ρ : Type*) {κ : Type*} (key : ρ → κ) where
  rows : List ρ
  nodup : (rows.map key).Nodup

namespace Table

variable {ρ κ : Type*} {key : ρ → κ}

instance [DecidableEq ρ] : DecidableEq (Table ρ key) := fun a b =>
  decidable_of_iff (a.rows = b.rows) Table.ext_iff.symm

/-- The table with no rows. -/
def empty : Table ρ key := ⟨[], by simp⟩

@[simp] theorem empty_rows : (empty : Table ρ key).rows = [] := rfl

theorem eq_of_key_eq (t : Table ρ key) {r r' : ρ} (hr : r ∈ t.rows) (hr' : r' ∈ t.rows)
    (h : key r = key r') : r = r' :=
  List.inj_on_of_nodup_map t.nodup hr hr' h

/-- The sum of `f` over the rows. -/
def total {M : Type*} [AddCommGroup M] (t : Table ρ key) (f : ρ → M) : M :=
  (t.rows.map f).sum

/-- Summing over the rows that meet `p` is summing `f` cut off outside `p`. -/
theorem sum_filter_eq_total {M : Type*} [AddCommGroup M] (t : Table ρ key) (p : ρ → Bool)
    (f : ρ → M) : ((t.rows.filter p).map f).sum = t.total fun r => if p r then f r else 0 := by
  unfold total
  induction t.rows with
  | nil => rfl
  | cons r rs ih => cases hp : p r <;> simp [hp, ih]

theorem total_congr {M : Type*} [AddCommGroup M] (t : Table ρ key) {f g : ρ → M}
    (h : ∀ r ∈ t.rows, f r = g r) : t.total f = t.total g := by
  unfold total
  rw [List.map_congr_left h]

/-- One row counts for no more than all of them, where none counts for less than nothing. -/
theorem le_total {M : Type*} [AddCommGroup M] [PartialOrder M] [IsOrderedAddMonoid M]
    (t : Table ρ key) {f : ρ → M} (hf : ∀ x ∈ t.rows, 0 ≤ f x) {r : ρ} (hr : r ∈ t.rows) :
    f r ≤ t.total f := by
  refine List.single_le_sum ?_ _ (List.mem_map_of_mem hr)
  intro v hv
  obtain ⟨x, hx, rfl⟩ := List.mem_map.mp hv
  exact hf x hx

variable [DecidableEq κ]

/-- The row with key `k`. -/
def find (t : Table ρ key) (k : κ) : Option ρ :=
  t.rows.find? fun r => key r = k

theorem find_eq_some_iff (t : Table ρ key) {k : κ} {r : ρ} :
    t.find k = some r ↔ r ∈ t.rows ∧ key r = k := by
  constructor
  · intro h
    exact ⟨List.mem_of_find?_eq_some h, by simpa using List.find?_some h⟩
  · rintro ⟨hmem, rfl⟩
    cases hf : t.find (key r) with
    | none =>
      have := List.find?_eq_none.mp hf r hmem
      simp at this
    | some r' =>
      have hk : key r' = key r := by simpa using List.find?_some hf
      rw [t.eq_of_key_eq (List.mem_of_find?_eq_some hf) hmem hk]

theorem find_eq_none_iff (t : Table ρ key) {k : κ} :
    t.find k = none ↔ ∀ r ∈ t.rows, key r ≠ k := by
  simp [find, List.find?_eq_none]

/-! ## Insertion -/

/-- Adds a row, or fails when its key is taken. -/
def insert (t : Table ρ key) (r : ρ) : Option (Table ρ key) :=
  if h : key r ∈ t.rows.map key then none
  else some ⟨t.rows ++ [r], by
    rw [List.map_append, List.nodup_append]
    refine ⟨t.nodup, by simp, ?_⟩
    rintro a ha b hb rfl
    simp only [List.map_cons, List.map_nil, List.mem_singleton] at hb
    exact h (hb ▸ ha)⟩

theorem insert_eq_none_iff (t : Table ρ key) {r : ρ} :
    t.insert r = none ↔ ∃ x ∈ t.rows, key x = key r := by
  simp [insert, List.mem_map]

theorem rows_of_insert {t t' : Table ρ key} {r : ρ} (h : t.insert r = some t') :
    t'.rows = t.rows ++ [r] := by
  unfold insert at h
  split at h
  · cases h
  · cases h; rfl

theorem key_fresh_of_insert {t t' : Table ρ key} {r : ρ} (h : t.insert r = some t') :
    ∀ x ∈ t.rows, key x ≠ key r := by
  intro x hx hk
  unfold insert at h
  rw [dif_pos (hk ▸ List.mem_map_of_mem hx)] at h
  cases h

theorem total_insert {M : Type*} [AddCommGroup M] {t t' : Table ρ key} {r : ρ}
    (h : t.insert r = some t') (f : ρ → M) : t'.total f = t.total f + f r := by
  simp [total, rows_of_insert h]

/-- After an insert, the row is found under its key, and the others as before. -/
theorem find_insert {t t' : Table ρ key} {r : ρ} (h : t.insert r = some t') (k : κ) :
    t'.find k = if k = key r then some r else t.find k := by
  have hrows := rows_of_insert h
  split
  · next hk =>
    rw [find_eq_some_iff, hrows]
    exact ⟨by simp, hk.symm⟩
  · next hk =>
    have hlast : [r].find? (fun x => key x = k) = none := by simpa using Ne.symm hk
    rw [find, find, hrows, List.find?_append, hlast, Option.or_none]

/-- An insert leaves the rows that are there to be found. -/
theorem find_of_insert {t t' : Table ρ key} {r x : ρ} {k : κ} (h : t.insert r = some t')
    (hx : t.find k = some x) : t'.find k = some x := by
  obtain ⟨hmem, hkey⟩ := t.find_eq_some_iff.mp hx
  rw [t'.find_eq_some_iff, rows_of_insert h]
  exact ⟨List.mem_append_left _ hmem, hkey⟩

/-- Rows inserted one after the other stand behind the old ones, in their order. -/
theorem rows_of_foldlM_insert {rs : List ρ} {t t' : Table ρ key}
    (h : rs.foldlM insert t = some t') : t'.rows = t.rows ++ rs := by
  induction rs generalizing t with
  | nil =>
    cases h
    simp
  | cons r rs ih =>
    rw [List.foldlM_cons] at h
    obtain ⟨next, hinsert, hrest⟩ := Option.bind_eq_some_iff.mp h
    rw [ih hrest, rows_of_insert hinsert]
    simp

/-! ## Replacement -/

/-- Replaces the row that has the key of `r` by `r`; no row is added. -/
def put (t : Table ρ key) (r : ρ) : Table ρ key where
  rows := t.rows.map fun x => if key x = key r then r else x
  nodup := by
    rw [List.map_map]
    have hkeys : key ∘ (fun x => if key x = key r then r else x) = key := by
      funext x
      by_cases hx : key x = key r <;> simp [hx]
    rw [hkeys]
    exact t.nodup

theorem mem_put (t : Table ρ key) {r x : ρ} (hr : ∃ y ∈ t.rows, key y = key r) :
    x ∈ (t.put r).rows ↔ x = r ∨ (x ∈ t.rows ∧ key x ≠ key r) := by
  simp only [put, List.mem_map]
  constructor
  · rintro ⟨y, hy, rfl⟩
    by_cases hk : key y = key r
    · exact Or.inl (if_pos hk)
    · rw [if_neg hk]
      exact Or.inr ⟨hy, hk⟩
  · rintro (rfl | ⟨hx, hk⟩)
    · obtain ⟨y, hy, hk⟩ := hr
      exact ⟨y, hy, if_pos hk⟩
    · exact ⟨x, hx, if_neg hk⟩

/-- Putting a row back where it is changes nothing. -/
theorem put_self (t : Table ρ key) {r : ρ} (hr : r ∈ t.rows) : t.put r = t := by
  refine Table.ext ((List.map_congr_left fun x hx => ?_).trans (List.map_id _))
  by_cases hk : key x = key r
  · rw [if_pos hk]
    exact (t.eq_of_key_eq hx hr hk).symm
  · exact if_neg hk

/-- Replacing a row leaves the rows around it alone. -/
theorem rows_put (t : Table ρ key) {r r' : ρ} {pre post : List ρ}
    (hsplit : t.rows = pre ++ r :: post) (hk : key r' = key r) :
    (t.put r').rows = pre ++ r' :: post := by
  have hnodup := t.nodup
  rw [hsplit] at hnodup
  simp only [List.map_append, List.map_cons, List.nodup_append, List.nodup_cons,
    List.mem_cons, List.mem_map] at hnodup
  -- every other row keeps its key apart from `r`'s, so the replacement leaves it alone
  have hpre : pre.map (fun x => if key x = key r' then r' else x) = pre := by
    refine (List.map_congr_left fun x hx => ?_).trans (List.map_id _)
    refine if_neg fun h => ?_
    exact hnodup.2.2 _ ⟨x, hx, rfl⟩ _ (Or.inl rfl) (h.trans hk)
  have hpost : post.map (fun x => if key x = key r' then r' else x) = post := by
    refine (List.map_congr_left fun x hx => ?_).trans (List.map_id _)
    refine if_neg fun h => ?_
    exact hnodup.2.1.1 ⟨x, hx, h.trans hk⟩
  simp only [put, hsplit, List.map_append, List.map_cons, hpre, hpost, if_pos hk.symm]

/-- Replacing a row moves a total by the difference of the two rows. -/
theorem total_put {M : Type*} [AddCommGroup M] (t : Table ρ key) {r r' : ρ} (hr : r ∈ t.rows)
    (hk : key r' = key r) (f : ρ → M) : (t.put r').total f = t.total f - f r + f r' := by
  obtain ⟨pre, post, hsplit⟩ := List.append_of_mem hr
  simp only [total, t.rows_put hsplit hk, hsplit, List.map_append, List.map_cons, List.sum_append,
    List.sum_cons]
  abel

/-! ## Bulk updates -/

/-- Rewrites every row, each under its own key. -/
def mapRows (t : Table ρ key) (f : ρ → ρ) (hf : ∀ r, key (f r) = key r) : Table ρ key where
  rows := t.rows.map f
  nodup := by
    have hkeys : key ∘ f = key := funext hf
    rw [List.map_map, hkeys]
    exact t.nodup

omit [DecidableEq κ] in
@[simp] theorem mapRows_rows (t : Table ρ key) (f : ρ → ρ) (hf : ∀ r, key (f r) = key r) :
    (t.mapRows f hf).rows = t.rows.map f := rfl

theorem find_mapRows (t : Table ρ key) (f : ρ → ρ) (hf : ∀ r, key (f r) = key r) (k : κ) :
    (t.mapRows f hf).find k = (t.find k).map f := by
  simp only [find, mapRows_rows, List.find?_map]
  congr 2
  funext r
  simp [hf]

/-- After a replacement, the row is found under its key if there was one. -/
theorem find_put (t : Table ρ key) (r : ρ) (k : κ) :
    (t.put r).find k = if k = key r then (t.find k).map fun _ => r else t.find k := by
  have hput : t.put r = t.mapRows (fun x => if key x = key r then r else x)
      (fun x => by split <;> simp [*]) := rfl
  rw [hput, find_mapRows]
  cases hfind : t.find k with
  | none => simp
  | some x =>
    obtain ⟨-, hk⟩ := t.find_eq_some_iff.mp hfind
    split
    · next heq => simp [hk, heq]
    · next hne => simp [hk, hne]

/-- A replacement adds no key and drops none. -/
theorem isSome_find_put (t : Table ρ key) (r : ρ) (k : κ) :
    ((t.put r).find k).isSome = (t.find k).isSome := by
  rw [find_put]
  split
  · exact Option.isSome_map
  · rfl

/-- Keeps the rows that meet `p`. -/
def filter (t : Table ρ key) (p : ρ → Bool) : Table ρ key where
  rows := t.rows.filter p
  nodup := t.nodup.sublist (List.Sublist.map key List.filter_sublist)

theorem find_filter (t : Table ρ key) (p : ρ → Bool) (k : κ) :
    (t.filter p).find k = (t.find k).filter p := by
  ext r
  rw [Option.filter_eq_some_iff, find_eq_some_iff, find_eq_some_iff, filter, List.mem_filter]
  tauto

end Table
