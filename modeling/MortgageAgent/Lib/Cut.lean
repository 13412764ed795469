import Mathlib.Data.List.Basic

/-!
# Texts joined by a separator

A text is put together from parts with a separator between them. Whoever reads it has to cut it
again, and where the separator occurs in a part there is more than one way.

* **`cuts`** — all the ways to cut a text at one separator.
* **`cutsTwice`** — all the ways to cut it at two.
* **`cut_after_eq`**, **`cut_before_eq`** — two cuts with no separator after them, or none before
  them, are one.
-/

namespace Cut

variable {α : Type} [DecidableEq α]

/-- Every way to write a text as a part, the separator and another part. -/
def cuts (x : α) : List α → List (List α × List α)
  | [] => []
  | y :: ys =>
    (if y = x then [([], ys)] else []) ++ (cuts x ys).map fun p => (y :: p.1, p.2)

theorem mem_cuts {x : α} {l a b : List α} : (a, b) ∈ cuts x l ↔ l = a ++ x :: b := by
  induction l generalizing a with
  | nil => simp [cuts]
  | cons y ys ih =>
    rw [cuts, List.mem_append, List.mem_map]
    constructor
    · rintro (hhere | ⟨⟨a', b'⟩, hmem, heq⟩)
      · by_cases hy : y = x
        · rw [if_pos hy, List.mem_singleton] at hhere
          cases hhere
          rw [hy, List.nil_append]
        · rw [if_neg hy] at hhere
          cases hhere
      · cases heq
        rw [ih.mp hmem, List.cons_append]
    · intro hl
      cases a with
      | nil =>
        rw [List.nil_append] at hl
        cases hl
        rw [if_pos rfl]
        exact .inl (List.mem_singleton.mpr rfl)
      | cons z a =>
        rw [List.cons_append] at hl
        cases hl
        exact .inr ⟨(a, b), ih.mpr rfl, rfl⟩

/-- A text with the separator in it is cut at the first. -/
theorem exists_first_cut {x : α} {l : List α} (h : x ∈ l) :
    ∃ rest, l = l.takeWhile (· ≠ x) ++ x :: rest := by
  induction l with
  | nil => cases h
  | cons y ys ih =>
    by_cases hy : y = x
    · exact ⟨ys, by simp [hy]⟩
    · obtain ⟨rest, hrest⟩ := ih ((List.mem_cons.mp h).resolve_left (Ne.symm hy))
      refine ⟨rest, ?_⟩
      rw [List.takeWhile_cons_of_pos (by simpa using hy), List.cons_append, ← hrest]

/-- Every way to write a text as three parts with separators between them. -/
def cutsTwice (x : α) (l : List α) : List (List α × List α × List α) :=
  (cuts x l).flatMap fun p => (cuts x p.2).map fun q => (p.1, q.1, q.2)

theorem mem_cutsTwice {x : α} {l a b c : List α} :
    (a, b, c) ∈ cutsTwice x l ↔ l = a ++ x :: (b ++ x :: c) := by
  rw [cutsTwice, List.mem_flatMap]
  constructor
  · rintro ⟨⟨a', rest⟩, hfirst, hmem⟩
    obtain ⟨⟨b', c'⟩, hsecond, heq⟩ := List.mem_map.mp hmem
    cases heq
    have hrest : rest = b' ++ x :: c' := mem_cuts.mp hsecond
    rw [mem_cuts.mp hfirst, hrest]
  · intro hl
    exact ⟨(a, b ++ x :: c), mem_cuts.mpr hl, List.mem_map.mpr ⟨(b, c), mem_cuts.mpr rfl, rfl⟩⟩

omit [DecidableEq α] in
/-- Two cuts with no separator after them are one. -/
theorem cut_after_eq {x : α} {a b c d : List α} (hb : x ∉ b) (hd : x ∉ d)
    (h : a ++ x :: b = c ++ x :: d) : a = c ∧ b = d := by
  rcases List.append_eq_append_iff.mp h with ⟨mid, rfl, hmid⟩ | ⟨mid, rfl, hmid⟩
  · cases mid with
    | nil => exact ⟨(List.append_nil a).symm, (List.cons.inj hmid).2⟩
    | cons y mid =>
      refine absurd ?_ hb
      rw [(List.cons.inj hmid).2]
      simp
  · cases mid with
    | nil => exact ⟨List.append_nil c, (List.cons.inj hmid).2.symm⟩
    | cons y mid =>
      refine absurd ?_ hd
      rw [(List.cons.inj hmid).2]
      simp

omit [DecidableEq α] in
/-- Two cuts with no separator before them are one. -/
theorem cut_before_eq {x : α} {a b c d : List α} (ha : x ∉ a) (hc : x ∉ c)
    (h : a ++ x :: b = c ++ x :: d) : a = c ∧ b = d := by
  have hreverse : b.reverse ++ x :: a.reverse = d.reverse ++ x :: c.reverse := by
    simpa using congrArg List.reverse h
  obtain ⟨hbd, hac⟩ := cut_after_eq (by simpa using ha) (by simpa using hc) hreverse
  exact ⟨List.reverse_injective hac, List.reverse_injective hbd⟩

end Cut
