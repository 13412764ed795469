import Mathlib.Data.List.Sort

/-!
# The best of a list

The first few of a list, once it is sorted. The relation says which of two comes first; it need not
tell all of them apart, and those it does not keep their order.

* **`best`** — the best `k`.
* **`IsBest`** — what makes a list the best `k` of another.
* **`isBest_best`** — sorting and cutting finds them.
-/

namespace Ranking

variable {α : Type*} (before : α → α → Prop) [DecidableRel before]

def best (k : Nat) (l : List α) : List α := (l.insertionSort before).take k

omit [DecidableRel before] in
/-- As many as are asked for and there, in order, and none that is left out comes before one. -/
structure IsBest (k : Nat) (chosen l : List α) : Prop where
  length : chosen.length = min k l.length
  ordered : chosen.Pairwise before
  others : ∃ rest, (chosen ++ rest).Perm l ∧ ∀ a ∈ chosen, ∀ b ∈ rest, before a b

theorem mem_of_mem_best {k : Nat} {l : List α} {a : α} (h : a ∈ best before k l) : a ∈ l :=
  (List.mem_insertionSort before).mp (List.mem_of_mem_take h)

/-- **The first of the sorted list are the best.** -/
theorem isBest_best [Std.Total before] [IsTrans α before] (k : Nat) (l : List α) :
    IsBest before k (best before k l) l := by
  have hsorted := List.pairwise_insertionSort before l
  have hsplit := List.take_append_drop k (l.insertionSort before)
  constructor
  · rw [best, List.length_take, List.length_insertionSort]
  · exact hsorted.take
  · refine ⟨(l.insertionSort before).drop k, ?_, ?_⟩
    · rw [best, hsplit]
      exact List.perm_insertionSort before l
    · rw [← hsplit] at hsorted
      exact (List.pairwise_append.mp hsorted).2.2

end Ranking
