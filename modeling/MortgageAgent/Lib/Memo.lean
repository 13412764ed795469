import Mathlib.Data.List.Basic

/-!
# A handle made on first use

A remote handle that is costly to make is made by the first call that needs it and kept. The slot
holds the promise of the attempt under way, so that calls made meanwhile await the same one. The
promise is kept before its outcome is known: whether a failed attempt is made again depends on the
slot being emptied as it fails.

* **`Handle.get`** — a call: the promise kept, or that of a new attempt.
* **`Handle.settle`** — an attempt ends, emptying the slot or not.
* **`Handle.Inv`** — only the promise kept can be pending.
* **`Handle.Good`** — the promise kept has not failed; `good_settle` says which endings keep it so.
* **`Handle.Forgets`** — a call gets no promise that had failed before it, and one made when all
  attempts have failed starts another. `forgets_get_iff_good`: this is `Good`.
-/

namespace Memo

/-- What is known of an attempt. -/
inductive Promise (ε α : Type) where
  | pending
  | fulfilled (value : α)
  | rejected (error : ε)
  deriving DecidableEq

/-- How an attempt ends: with what, and whether it empties the slot as it does. -/
structure Ending (ε α : Type) where
  result : Except ε α
  clears : Bool

variable {ε α : Type}

def Promise.ofResult : Except ε α → Promise ε α
  | .ok value => .fulfilled value
  | .error error => .rejected error

/-- The slot, and the promises of all attempts made so far, by number. -/
structure Handle (ε α : Type) where
  slot : Option Nat := none
  promises : List (Promise ε α) := []

/-- An attempt that fails does not stay in the slot. -/
def Ending.Clean (e : Ending ε α) : Prop := ∀ error, e.result = .error error → e.clears = true

namespace Handle

/-- A new attempt, in the slot. -/
def start (h : Handle ε α) : Handle ε α :=
  ⟨some h.promises.length, h.promises ++ [.pending]⟩

/-- `if (!slot) slot = start(); return slot;` -/
def get (h : Handle ε α) : Handle ε α × Nat :=
  match h.slot with
  | some n => (h, n)
  | none => (h.start, h.promises.length)

/-- Attempt `n` ends, if it is under way. -/
def settle (h : Handle ε α) (n : Nat) (e : Ending ε α) : Handle ε α :=
  match h.promises[n]? with
  | some .pending => ⟨if e.clears then none else h.slot, h.promises.set n (.ofResult e.result)⟩
  | _ => h

def Pending (h : Handle ε α) (n : Nat) : Prop := h.promises[n]? = some .pending

/-- Every attempt made so far has failed. -/
def AllFailed (h : Handle ε α) : Prop := ∀ p ∈ h.promises, ∃ error, p = .rejected error

/-- The slot names an attempt, and every attempt under way is in it. -/
structure Inv (h : Handle ε α) : Prop where
  slot_lt : ∀ n, h.slot = some n → n < h.promises.length
  slot_of_pending : ∀ n, h.Pending n → h.slot = some n

/-- The promise kept is not that of a failed attempt. -/
def Good (h : Handle ε α) : Prop :=
  ∀ n error, h.slot = some n → h.promises[n]? ≠ some (.rejected error)

variable {h : Handle ε α}

theorem inv_empty : (⟨none, []⟩ : Handle ε α).Inv where
  slot_lt n hn := by cases hn
  slot_of_pending n hn := by cases hn

theorem good_of_slot_none (hslot : h.slot = none) : h.Good := by
  intro n error hn
  rw [hslot] at hn
  cases hn

theorem get_of_slot_some {n : Nat} (hslot : h.slot = some n) : h.get = (h, n) := by
  rw [get, hslot]

theorem get_of_slot_none (hslot : h.slot = none) : h.get = (h.start, h.promises.length) := by
  rw [get, hslot]

/-- A call after a call adds nothing: it finds the promise the first one kept. -/
theorem get_get (h : Handle ε α) : h.get.1.get = h.get := by
  cases hslot : h.slot with
  | some n => rw [get_of_slot_some hslot, get_of_slot_some hslot]
  | none => rw [get_of_slot_none hslot, get_of_slot_some rfl]

/-! ## Calls -/

theorem getElem?_start (h : Handle ε α) (n : Nat) : h.start.promises[n]? =
    if n = h.promises.length then some .pending else h.promises[n]? := by
  have hstart : h.start.promises = h.promises ++ [.pending] := rfl
  rw [hstart]
  by_cases hn : n = h.promises.length
  · rw [if_pos hn, hn, List.getElem?_concat_length]
  · rw [if_neg hn, List.getElem?_append]
    split
    · rfl
    · have hlen : h.promises.length < n := by omega
      rw [List.getElem?_eq_none (by simpa using by omega),
        List.getElem?_eq_none (by omega)]

theorem Inv.start (hinv : h.Inv) (hslot : h.slot = none) : h.start.Inv where
  slot_lt n hn := by
    obtain rfl : h.promises.length = n := Option.some.inj hn
    show h.promises.length < (h.promises ++ [Promise.pending]).length
    simp
  slot_of_pending n hn := by
    rw [Pending, getElem?_start] at hn
    by_cases hlast : n = h.promises.length
    · rw [hlast]
      rfl
    · rw [if_neg hlast] at hn
      have hkept := hinv.slot_of_pending n hn
      rw [hslot] at hkept
      cases hkept

theorem Inv.get (hinv : h.Inv) : h.get.1.Inv := by
  cases hslot : h.slot with
  | some n => rwa [get_of_slot_some hslot]
  | none =>
    rw [get_of_slot_none hslot]
    exact hinv.start hslot

theorem good_start (h : Handle ε α) : h.start.Good := by
  intro n error hn
  obtain rfl : h.promises.length = n := Option.some.inj hn
  rw [getElem?_start, if_pos rfl]
  exact fun hp => by cases hp

/-- A call leaves a failed promise where it is, and keeps no other. -/
theorem good_get : h.get.1.Good ↔ h.Good := by
  cases hslot : h.slot with
  | some n => rw [get_of_slot_some hslot]
  | none =>
    rw [get_of_slot_none hslot]
    exact iff_of_true (good_start h) (good_of_slot_none hslot)

/-! ## Endings -/

theorem settle_of_pending {n : Nat} (e : Ending ε α) (hn : h.Pending n) : h.settle n e =
    ⟨if e.clears then none else h.slot, h.promises.set n (.ofResult e.result)⟩ := by
  rw [settle, hn]

theorem settle_of_not_pending {n : Nat} (e : Ending ε α) (hn : ¬ h.Pending n) :
    h.settle n e = h := by
  rw [settle]
  split
  · exact absurd ‹_› hn
  · rfl

theorem ofResult_ne_pending (r : Except ε α) : Promise.ofResult r ≠ .pending := by
  cases r <;> exact fun heq => by cases heq

theorem Pending.lt {n : Nat} (hn : h.Pending n) : n < h.promises.length :=
  (List.getElem?_eq_some_iff.mp hn).1

/-- The promise of an attempt that ends shows how it ended. -/
theorem getElem?_settle_self {n : Nat} (e : Ending ε α) (hn : h.Pending n) :
    (h.settle n e).promises[n]? = some (.ofResult e.result) := by
  rw [settle_of_pending e hn]
  exact List.getElem?_set_self hn.lt

theorem Inv.settle (hinv : h.Inv) (n : Nat) (e : Ending ε α) : (h.settle n e).Inv := by
  by_cases hn : h.Pending n
  · rw [settle_of_pending e hn]
    refine ⟨fun m hm => ?_, fun m hm => ?_⟩
    · have hslot : h.slot = some m := by
        by_cases hclears : e.clears = true
        · rw [if_pos hclears] at hm
          cases hm
        · rwa [if_neg hclears] at hm
      rw [List.length_set]
      exact hinv.slot_lt m hslot
    · -- no other attempt is under way
      rw [Pending, List.getElem?_set] at hm
      by_cases heq : n = m
      · rw [if_pos heq, if_pos (heq ▸ hn.lt)] at hm
        exact absurd (Option.some.inj hm) (ofResult_ne_pending e.result)
      · rw [if_neg heq] at hm
        have hkept := hinv.slot_of_pending m hm
        rw [hinv.slot_of_pending n hn] at hkept
        exact absurd (Option.some.inj hkept) heq
  · rwa [settle_of_not_pending e hn]

/-- An attempt that ends leaves a failed promise in the slot just if it fails without emptying
it. -/
theorem good_settle (hinv : h.Inv) (n : Nat) (e : Ending ε α) :
    (h.settle n e).Good ↔ h.Good ∧ (h.Pending n → e.Clean) := by
  by_cases hn : h.Pending n
  · have hslot := hinv.slot_of_pending n hn
    have hgood : h.Good := by
      intro m error hm
      rw [hslot] at hm
      obtain rfl : n = m := Option.some.inj hm
      rw [show h.promises[n]? = some .pending from hn]
      exact fun hp => by cases hp
    have hself := getElem?_settle_self e hn
    rw [settle_of_pending e hn] at hself ⊢
    refine ⟨fun hafter => ⟨hgood, fun _ error herror => ?_⟩, fun hclean => ?_⟩
    · by_contra hclears
      refine hafter n error ?_ ?_
      · dsimp only
        rw [if_neg hclears, hslot]
      · rw [hself, herror, Promise.ofResult]
    · intro m error hm hfailed
      by_cases hclears : e.clears = true
      · dsimp only at hm
        rw [if_pos hclears] at hm
        cases hm
      · dsimp only at hm
        rw [if_neg hclears, hslot] at hm
        obtain rfl : n = m := Option.some.inj hm
        rw [hself] at hfailed
        cases hresult : e.result with
        | ok value =>
          rw [hresult] at hfailed
          cases hfailed
        | error error' => exact hclears (hclean.2 hn error' hresult)
  · rw [settle_of_not_pending e hn]
    exact ⟨fun hgood => ⟨hgood, fun hp => absurd hp hn⟩, fun hgood => hgood.1⟩

/-! ## What a call is owed -/

/-- What is owed to a call that found the handle `h`, left it as `h'` and awaits promise `n`, where
an attempt ends as `ends` says. The promise is not one that had failed; and if all attempts had, the
call started another, whose success is the call's. -/
def Forgets {ρ : Type} (h h' : Handle ε α) (n : Nat) (ends : ρ → Ending ε α) : Prop :=
  (∀ error, h.promises[n]? ≠ some (.rejected error)) ∧
    (h.AllFailed → h' = h.start ∧ n = h.promises.length ∧
      ∀ r value, (ends r).result = .ok value →
        (h'.settle n (ends r)).promises[n]? = some (.fulfilled value))

/-- Where all attempts have failed and none is kept, the next call starts another. -/
theorem Good.slot_of_allFailed (hgood : h.Good) (hinv : h.Inv) (hfailed : h.AllFailed) :
    h.slot = none := by
  cases hslot : h.slot with
  | none => rfl
  | some n =>
    have hlt := hinv.slot_lt n hslot
    obtain ⟨error, herror⟩ := hfailed _ (List.getElem_mem hlt)
    have hrejected : h.promises[n]? = some (.rejected error) := by
      rw [List.getElem?_eq_getElem hlt, herror]
    exact absurd hrejected (hgood n error hslot)

theorem forgets_get_iff_good {ρ : Type} (hinv : h.Inv) (ends : ρ → Ending ε α) :
    h.Forgets h.get.1 h.get.2 ends ↔ h.Good := by
  refine ⟨fun hforgets n error hn => ?_, fun hgood => ⟨fun error => ?_, fun hfailed => ?_⟩⟩
  · have hawaited := hforgets.1 error
    rwa [get_of_slot_some hn] at hawaited
  · cases hslot : h.slot with
    | some n =>
      rw [get_of_slot_some hslot]
      exact hgood n error hslot
    | none =>
      -- the promise of the new attempt is not among the old ones
      rw [get_of_slot_none hslot, List.getElem?_eq_none (Nat.le_refl _)]
      exact fun hp => by cases hp
  · rw [get_of_slot_none (hgood.slot_of_allFailed hinv hfailed)]
    refine ⟨rfl, rfl, fun r value hvalue => ?_⟩
    have hpending : h.start.Pending h.promises.length := by
      rw [Pending, getElem?_start, if_pos rfl]
    rw [getElem?_settle_self (ends r) hpending, hvalue, Promise.ofResult]

end Handle

end Memo
