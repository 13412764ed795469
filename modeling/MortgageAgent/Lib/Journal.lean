import Mathlib.Data.List.Basic

/-!
# Journals

A store that keeps a journal appends an entry for what it does. The journal is an account of a part
of the store when that part, as it is now, is what it was once with the entries since then applied
in their order.

* **`Journal`** — the entries of a store, the part they are about, and what an entry does to it.
* **`Journal.replay`** — the entries applied one after the other.
* **`Records`** — from one state to another, the journal has grown by what has happened.
* **`Records.trans`** / **`Records.view_eq`** — records compose, and replay.
* **`Records.keeps`** — a property of the part that every entry keeps is kept by what is recorded.
-/

/-- A store `σ` with a journal of entries `ε` about its part `ν`. -/
structure Journal (σ ε ν : Type*) where
  entries : σ → List ε
  view : σ → ν
  apply : ν → ε → ν

namespace Journal

variable {σ ε ν : Type*} (J : Journal σ ε ν)

def replay (v : ν) (es : List ε) : ν := es.foldl J.apply v

@[simp] theorem replay_nil (v : ν) : J.replay v [] = v := rfl

@[simp] theorem replay_cons (v : ν) (e : ε) (es : List ε) :
    J.replay v (e :: es) = J.replay (J.apply v e) es := rfl

theorem replay_append (v : ν) (es fs : List ε) :
    J.replay v (es ++ fs) = J.replay (J.replay v es) fs :=
  List.foldl_append

/-- Between the two states the journal has grown by entries that lead from the one view to the
other. -/
def Records (s s' : σ) : Prop :=
  ∃ es, J.entries s' = J.entries s ++ es ∧ J.view s' = J.replay (J.view s) es

section Records

variable {J} {s s' s'' : σ}

theorem Records.refl (s : σ) : J.Records s s := ⟨[], by simp, rfl⟩

/-- Nothing is entered, and nothing has changed. -/
theorem Records.of_eq (hentries : J.entries s' = J.entries s) (hview : J.view s' = J.view s) :
    J.Records s s' := ⟨[], by simpa using hentries, hview⟩

/-- One entry. -/
theorem Records.of_entry {e : ε} (hentries : J.entries s' = J.entries s ++ [e])
    (hview : J.view s' = J.apply (J.view s) e) : J.Records s s' := ⟨[e], hentries, hview⟩

theorem Records.trans (h : J.Records s s') (h' : J.Records s' s'') : J.Records s s'' := by
  obtain ⟨es, hentries, hview⟩ := h
  obtain ⟨fs, hentries', hview'⟩ := h'
  refine ⟨es ++ fs, ?_, ?_⟩
  · rw [hentries', hentries, List.append_assoc]
  · rw [hview', hview, replay_append]

theorem Records.grows (h : J.Records s s') : J.entries s <+: J.entries s' := by
  obtain ⟨es, hentries, -⟩ := h
  exact ⟨es, hentries.symm⟩

/-- What is recorded is the view with the new entries applied. -/
theorem Records.view_eq (h : J.Records s s') :
    J.view s' = J.replay (J.view s) ((J.entries s').drop (J.entries s).length) := by
  obtain ⟨es, hentries, hview⟩ := h
  rw [hview, hentries, List.drop_left]

/-- What every entry keeps. -/
theorem replay_keeps {I : ν → Prop} (hI : ∀ v e, I v → I (J.apply v e)) (es : List ε) {v : ν}
    (hv : I v) : I (J.replay v es) := by
  induction es generalizing v with
  | nil => exact hv
  | cons e es ih => exact ih (hI v e hv)

theorem Records.keeps {I : ν → Prop} (h : J.Records s s') (hI : ∀ v e, I v → I (J.apply v e))
    (hs : I (J.view s)) : I (J.view s') := by
  obtain ⟨es, -, hview⟩ := h
  rw [hview]
  exact replay_keeps hI es hs

end Records

end Journal
