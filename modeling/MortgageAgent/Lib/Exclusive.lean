import Mathlib.Data.List.Nodup
import Mathlib.Logic.Function.Basic

/-!
# Values that are taken once

Any number of parties reserve values out of reach of each other, and later take them for good or
let them go: a lock on a key of a unique index, an id that was drawn and is not yet stored.

* **`Exclusive`** — what is reserved is not taken, and reserved by one party.
* **`Exclusive.reserve`**, **`.release`**, **`.take`** — what a party can do.
-/

/-- `reserved c` is the value that the party `c` has reserved, and `taken` is taken for good. -/
structure Exclusive {ι α : Type*} (taken : List α) (reserved : ι → Option α) : Prop where
  free : ∀ c a, reserved c = some a → a ∉ taken
  apart : ∀ c c' a, reserved c = some a → reserved c' = some a → c = c'

namespace Exclusive

variable {ι α : Type*} {taken : List α} {reserved reserved' : ι → Option α}

theorem none_reserved (taken : List α) : Exclusive taken (fun _ : ι => none) where
  free := by
    intro c a h
    cases h
  apart := by
    intro c c' a h
    cases h

/-- Parties that keep what they have, or let it go. -/
theorem release (h : Exclusive taken reserved)
    (hkept : ∀ c a, reserved' c = some a → reserved c = some a) : Exclusive taken reserved' where
  free := fun c a hc => h.free c a (hkept c a hc)
  apart := fun c c' a hc hc' => h.apart c c' a (hkept c a hc) (hkept c' a hc')

/-- A party reserves a value that is neither taken nor reserved. -/
theorem reserve (h : Exclusive taken reserved) {c : ι} {a : α} (hfree : a ∉ taken)
    (hunreserved : ∀ c', reserved c' ≠ some a) (hself : reserved' c = some a)
    (hothers : ∀ c' ≠ c, reserved' c' = reserved c') : Exclusive taken reserved' where
  free := by
    intro c' b hc'
    by_cases hc : c' = c
    · rw [hc, hself] at hc'
      cases hc'
      exact hfree
    · rw [hothers c' hc] at hc'
      exact h.free c' b hc'
  apart := by
    intro c₁ c₂ b h₁ h₂
    by_cases hc₁ : c₁ = c
    · by_cases hc₂ : c₂ = c
      · rw [hc₁, hc₂]
      · rw [hc₁, hself] at h₁
        cases h₁
        rw [hothers c₂ hc₂] at h₂
        exact absurd h₂ (hunreserved c₂)
    · rw [hothers c₁ hc₁] at h₁
      by_cases hc₂ : c₂ = c
      · rw [hc₂, hself] at h₂
        cases h₂
        exact absurd h₁ (hunreserved c₁)
      · rw [hothers c₂ hc₂] at h₂
        exact h.apart c₁ c₂ b h₁ h₂

/-- A party takes the value it has reserved. -/
theorem take (h : Exclusive taken reserved) {c : ι} {a : α} (hc : reserved c = some a)
    (hself : reserved' c = none) (hothers : ∀ c' ≠ c, reserved' c' = reserved c') :
    Exclusive (taken ++ [a]) reserved' where
  free := by
    intro c' b hc'
    have hne : c' ≠ c := by
      rintro rfl
      rw [hself] at hc'
      cases hc'
    rw [hothers c' hne] at hc'
    rw [List.mem_append, List.mem_singleton, not_or]
    refine ⟨h.free c' b hc', ?_⟩
    rintro rfl
    exact hne (h.apart c' c b hc' hc)
  apart := by
    intro c₁ c₂ b h₁ h₂
    have hkept : ∀ c', reserved' c' = some b → reserved c' = some b := by
      intro c' hc'
      by_cases heq : c' = c
      · rw [heq, hself] at hc'
        cases hc'
      · rwa [hothers c' heq] at hc'
    exact h.apart c₁ c₂ b (hkept c₁ h₁) (hkept c₂ h₂)

/-- What is taken stays without repetition. -/
theorem nodup_take (h : Exclusive taken reserved) (hnodup : taken.Nodup) {c : ι} {a : α}
    (hc : reserved c = some a) : (taken ++ [a]).Nodup :=
  List.nodup_append_comm.mp (List.nodup_cons.mpr ⟨h.free c a hc, hnodup⟩)

end Exclusive
