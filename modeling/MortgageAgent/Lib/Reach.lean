import Mathlib.Data.List.Basic

/-!
# Reaching within a list

What is reached from some elements of a finite list along a relation, computed in rounds. A round
that finds nothing ends it; since each round takes an element off what is left, as many rounds as
the list is long are enough.

* **`List.reach`** — what is found.
* **`List.reach_closed`** — nothing of the list lies one step beyond it.
* **`List.reach_induction`** — it is the least such.
-/

namespace List

variable {α : Type*} [DecidableEq α] (next : α → α → Bool) (l : List α)

/-- What one round adds to what is found. -/
def beyond (found : List α) : List α :=
  l.filter fun x => x ∉ found && found.any fun y => next y x

def reachWithin : Nat → List α → List α
  | 0, found => found
  | n + 1, found =>
    if beyond next l found = [] then found
    else reachWithin n (found ++ beyond next l found)

def reach (start : List α) : List α := reachWithin next l l.length start

variable {next l}

theorem mem_beyond {found : List α} {x : α} :
    x ∈ beyond next l found ↔ x ∈ l ∧ x ∉ found ∧ ∃ y ∈ found, next y x = true := by
  simp [beyond, List.mem_filter, List.any_eq_true]

theorem subset_reachWithin (n : Nat) (found : List α) : found ⊆ reachWithin next l n found := by
  induction n generalizing found with
  | zero => exact fun _ hx => hx
  | succ n ih =>
    rw [reachWithin]
    split
    · exact fun _ hx => hx
    · exact fun x hx => ih _ (List.mem_append_left _ hx)

/-- A round that finds something leaves less of the list to be found. -/
theorem length_left_lt {found : List α} (h : beyond next l found ≠ []) :
    (l.filter fun x => x ∉ found ++ beyond next l found).length
      < (l.filter fun x => x ∉ found).length := by
  obtain ⟨x, hx⟩ := List.exists_mem_of_ne_nil _ h
  obtain ⟨hxl, hnot, -⟩ := mem_beyond.mp hx
  have hsub : (l.filter fun x => x ∉ found ++ beyond next l found)
      = (l.filter fun x => x ∉ found).filter fun x => x ∉ found ++ beyond next l found := by
    rw [List.filter_filter]
    refine List.filter_congr fun y _ => ?_
    by_cases hy : y ∈ found <;> simp [hy]
  rw [hsub, List.length_filter_lt_length_iff_exists]
  refine ⟨x, List.mem_filter.mpr ⟨hxl, by simpa using hnot⟩, ?_⟩
  simp [hx]

theorem reachWithin_closed {n : Nat} {found : List α}
    (h : (l.filter fun x => x ∉ found).length ≤ n) {x y : α}
    (hy : y ∈ reachWithin next l n found) (hx : x ∈ l) (hnext : next y x = true) :
    x ∈ reachWithin next l n found := by
  induction n generalizing found with
  | zero =>
    have hnone := List.length_eq_zero_iff.mp (Nat.le_zero.mp h)
    rw [List.filter_eq_nil_iff] at hnone
    show x ∈ found
    simpa using hnone x hx
  | succ n ih =>
    rw [reachWithin] at hy ⊢
    split at hy
    · next hend =>
      rw [if_pos hend]
      by_contra hnot
      have hfound : x ∈ beyond next l found := mem_beyond.mpr ⟨hx, hnot, y, hy, hnext⟩
      rw [hend] at hfound
      cases hfound
    · next hmore =>
      rw [if_neg hmore]
      have hlt := length_left_lt hmore
      exact ih (by omega) hy

/-- **Closed**: what lies one step from what is reached is reached. -/
theorem reach_closed {start : List α} {x y : α} (hy : y ∈ reach next l start) (hx : x ∈ l)
    (hnext : next y x = true) : x ∈ reach next l start :=
  reachWithin_closed (List.length_filter_le _ _) hy hx hnext

theorem subset_reach (start : List α) : start ⊆ reach next l start := subset_reachWithin _ _

theorem reachWithin_induction {P : α → Prop} {n : Nat} {found : List α}
    (hfound : ∀ x ∈ found, P x)
    (hstep : ∀ y, P y → ∀ x ∈ l, next y x = true → P x) :
    ∀ x ∈ reachWithin next l n found, P x := by
  induction n generalizing found with
  | zero => exact hfound
  | succ n ih =>
    rw [reachWithin]
    split
    · exact hfound
    · refine ih fun x hx => ?_
      rcases List.mem_append.mp hx with hx | hx
      · exact hfound x hx
      · obtain ⟨hxl, -, y, hy, hnext⟩ := mem_beyond.mp hx
        exact hstep y (hfound y hy) x hxl hnext

/-- **Least**: what holds at the start and along the relation holds of what is reached. -/
theorem reach_induction {P : α → Prop} {start : List α} (hstart : ∀ x ∈ start, P x)
    (hstep : ∀ y, P y → ∀ x ∈ l, next y x = true → P x) {x : α} (hx : x ∈ reach next l start) :
    P x :=
  reachWithin_induction hstart hstep x hx

end List
