import Mathlib.Data.List.Perm.Subperm

/-!
# Loops that follow references

A loop takes turns: each goes on with a state or ends the loop with a result. A walk is a loop that
follows references from key to key, and gives up at a key that it has visited before.

* **`Ends`** — a loop ends with a result, in so many turns.
* **`exists_ends`** / **`Ends.inv`** / **`Ends.simulate`** — the rules of loops: a measure that every
  turn lowers, an invariant, a simulation.
* **`Path`** — the rows from a key on, up to another; a chain is a path that ends with no key.
* **`Result.Holds`** — what the result of a walk says of its references.
* **`walk_ends`** — over finitely many keys a walk ends, with a result that holds.
-/

namespace Ascent

/-! ## Loops -/

section
variable {σ τ : Type*} {turn : σ → σ ⊕ τ} {s : σ} {n : Nat} {r : τ}

inductive Ends (turn : σ → σ ⊕ τ) : σ → Nat → τ → Prop where
  | last {s : σ} {r : τ} (h : turn s = .inr r) : Ends turn s 1 r
  | next {s s' : σ} {n : Nat} {r : τ} (h : turn s = .inl s') (hrest : Ends turn s' n r) :
      Ends turn s (n + 1) r

theorem Ends.pos (h : Ends turn s n r) : 0 < n := by
  cases h with
  | last => exact Nat.one_pos
  | next => exact Nat.succ_pos _

/-- A loop ends once, if it does. -/
theorem Ends.unique {n' : Nat} {r' : τ} (h : Ends turn s n r) (h' : Ends turn s n' r') :
    n = n' ∧ r = r' := by
  induction h generalizing n' with
  | last h =>
    cases h' with
    | last h' => exact ⟨rfl, Sum.inr.inj (h.symm.trans h')⟩
    | next h' => cases h.symm.trans h'
  | next h _ ih =>
    cases h' with
    | last h' => cases h.symm.trans h'
    | next h' hrest' =>
      obtain rfl := Sum.inl.inj (h.symm.trans h')
      obtain ⟨rfl, hr⟩ := ih hrest'
      exact ⟨rfl, hr⟩

/-- Where every turn lowers a measure, the loop ends. -/
theorem exists_ends {I : σ → Prop} {measure : σ → Nat}
    (hgo : ∀ s s', I s → turn s = .inl s' → I s' ∧ measure s' < measure s) (hs : I s) :
    ∃ n ≤ measure s + 1, ∃ r, Ends turn s n r := by
  induction hm : measure s using Nat.strongRecOn generalizing s with
  | ind m ih =>
    cases hturn : turn s with
    | inr r => exact ⟨1, Nat.le_add_left 1 m, r, .last hturn⟩
    | inl s' =>
      obtain ⟨hs', hlower⟩ := hgo s s' hs hturn
      rw [hm] at hlower
      obtain ⟨n, hn, r, hends⟩ := ih (measure s') hlower hs' rfl
      exact ⟨n + 1, by omega, r, .next hturn hends⟩

/-- What every turn keeps holds where the loop ends. -/
theorem Ends.inv {I : σ → Prop} {Q : τ → Prop} (h : Ends turn s n r)
    (hgo : ∀ s s', I s → turn s = .inl s' → I s')
    (hend : ∀ s r, I s → turn s = .inr r → Q r) (hs : I s) : Q r := by
  induction h with
  | last h => exact hend _ _ hs h
  | next h _ ih => exact ih (hgo _ _ hs h)

/-- A loop whose turns follow those of another ends with it. -/
theorem Ends.simulate {σ' τ' : Type*} {turn' : σ' → σ' ⊕ τ'} {R : σ → σ' → Prop} {g : τ → τ'}
    {t : σ'} (h : Ends turn s n r)
    (hgo : ∀ s s' t, R s t → turn s = .inl s' → ∃ t', turn' t = .inl t' ∧ R s' t')
    (hend : ∀ s r t, R s t → turn s = .inr r → turn' t = .inr (g r)) (hst : R s t) :
    Ends turn' t n (g r) := by
  induction h generalizing t with
  | last h => exact .last (hend _ _ t hst h)
  | next h _ ih =>
    obtain ⟨t', hturn, hst'⟩ := hgo _ _ t hst h
    exact .next hturn (ih hst')

end

/-! ## References -/

section
variable {κ ρ ε : Type*} {visit : κ → Except ε (ρ × Option κ)}

/-- The rows from a key on, up to another. A visit finds the row of a key and the key it refers to,
if any, or fails. -/
inductive Path (visit : κ → Except ε (ρ × Option κ)) : Option κ → List ρ → Option κ → Prop where
  | nil {k : Option κ} : Path visit k [] k
  | cons {k : κ} {row : ρ} {next last : Option κ} {rows : List ρ} (h : visit k = .ok (row, next))
      (hrest : Path visit next rows last) : Path visit (some k) (row :: rows) last

theorem Path.concat {k next : Option κ} {m : κ} {row : ρ} {rows : List ρ}
    (h : Path visit k rows (some m)) (hm : visit m = .ok (row, next)) :
    Path visit k (rows ++ [row]) next := by
  generalize hlast : some m = last at h
  induction h with
  | nil =>
    obtain rfl := hlast
    exact .cons hm .nil
  | cons hk _ ih => exact .cons hk (ih hlast)

/-- A path is the start of the chain. -/
theorem Path.rest {k last : Option κ} {rows chain : List ρ} (h : Path visit k rows last)
    (hchain : Path visit k chain none) :
    ∃ rest, chain = rows ++ rest ∧ Path visit last rest none := by
  induction h generalizing chain with
  | nil => exact ⟨chain, rfl, hchain⟩
  | cons hk _ ih =>
    cases hchain with
    | cons hk' hrest =>
      cases hk.symm.trans hk'
      obtain ⟨rest, rfl, hlast⟩ := ih hrest
      exact ⟨rest, rfl, hlast⟩

theorem Path.chain_unique {k : Option κ} {chain chain' : List ρ} (h : Path visit k chain none)
    (h' : Path visit k chain' none) : chain = chain' := by
  obtain ⟨rest, rfl, hrest⟩ := h.rest h'
  cases hrest
  exact (List.append_nil chain).symm

/-- No chain starts on a cycle. -/
theorem Path.not_chain_of_cycle {k : Option κ} {rows chain : List ρ} (h : Path visit k rows k)
    (hne : rows ≠ []) : ¬ Path visit k chain none := by
  intro hchain
  obtain ⟨rest, rfl, hrest⟩ := h.rest hchain
  exact hne (List.append_left_eq_self.mp (hchain.chain_unique hrest))

theorem Path.exists_of_mem {key : ρ → κ} {k last : Option κ} {rows : List ρ} {row : ρ}
    (hkey : ∀ k row next, visit k = .ok (row, next) → key row = k) (h : Path visit k rows last)
    (hmem : row ∈ rows) : ∃ before, Path visit k before (some (key row)) := by
  induction h with
  | nil => cases hmem
  | cons hk _ ih =>
    rcases List.mem_cons.mp hmem with rfl | hmem
    · rw [hkey _ _ _ hk]
      exact ⟨[], .nil⟩
    · obtain ⟨before, hbefore⟩ := ih hmem
      exact ⟨_ :: before, .cons hk hbefore⟩

/-- A chain has no key twice. -/
theorem Path.nodup {key : ρ → κ} {k : Option κ} {chain : List ρ}
    (hkey : ∀ k row next, visit k = .ok (row, next) → key row = k)
    (h : Path visit k chain none) : (chain.map key).Nodup := by
  generalize hlast : none = last at h
  induction h with
  | nil => exact List.nodup_nil
  | @cons k row next _ rows hk hrest ih =>
    rw [List.map_cons, List.nodup_cons]
    refine ⟨fun hmem => ?_, ih hlast⟩
    obtain ⟨row', hrow', hsame⟩ := List.mem_map.mp hmem
    obtain ⟨before, hbefore⟩ := hrest.exists_of_mem hkey hrow'
    rw [hsame, hkey _ _ _ hk] at hbefore
    rw [← hlast] at hrest
    exact (Path.cons hk hbefore).not_chain_of_cycle (List.cons_ne_nil _ _) (.cons hk hrest)

/-- What a walk may come to. -/
inductive Result (κ ρ ε : Type*) where
  | chain (rows : List ρ)
  | refused (k : κ) (reason : ε)
  | cycle (k : κ)

/-- What the result of a walk says of the references from its start. -/
def Result.Holds (visit : κ → Except ε (ρ × Option κ)) (start : Option κ) :
    Result κ ρ ε → Prop
  | .chain rows => Path visit start rows none
  | .refused k reason => ∃ rows, Path visit start rows (some k) ∧ visit k = .error reason
  | .cycle k => ∃ rows, Path visit start rows (some k)
      ∧ ∃ loop, loop ≠ [] ∧ Path visit (some k) loop (some k)

/-- Where there is a chain, it is the result. -/
theorem Result.Holds.eq_chain {start : Option κ} {r : Result κ ρ ε} {rows : List ρ}
    (h : r.Holds visit start) (hchain : Path visit start rows none) : r = .chain rows := by
  cases r with
  | chain rows' => rw [Path.chain_unique h hchain]
  | refused k reason =>
    obtain ⟨before, hpath, hvisit⟩ := h
    obtain ⟨rest, -, hrest⟩ := hpath.rest hchain
    cases hrest with
    | cons hvisit' => cases hvisit.symm.trans hvisit'
  | cycle k =>
    obtain ⟨before, hpath, loop, hne, hloop⟩ := h
    obtain ⟨rest, -, hrest⟩ := hpath.rest hchain
    exact absurd hrest (hloop.not_chain_of_cycle hne)

/-! ## Walks -/

variable [DecidableEq κ]

structure Walk (κ ρ : Type*) where
  rows : List ρ
  visited : List κ
  next : Option κ

def Walk.turn (visit : κ → Except ε (ρ × Option κ)) (w : Walk κ ρ) : Walk κ ρ ⊕ Result κ ρ ε :=
  match w.next with
  | none => .inr (.chain w.rows)
  | some k =>
    if k ∈ w.visited then .inr (.cycle k)
    else
      match visit k with
      | .error reason => .inr (.refused k reason)
      | .ok (row, next) => .inl { rows := w.rows ++ [row], visited := k :: w.visited, next }

/-- A turn that goes on visits a new key. -/
theorem Walk.turn_inl {w w' : Walk κ ρ} (h : w.turn visit = .inl w') :
    ∃ k row next, w.next = some k ∧ k ∉ w.visited ∧ visit k = .ok (row, next)
      ∧ w' = { rows := w.rows ++ [row], visited := k :: w.visited, next } := by
  unfold Walk.turn at h
  split at h
  · cases h
  · next k hnext =>
    split at h
    · cases h
    · next hnew =>
      split at h
      · cases h
      · next row next hvisit => exact ⟨k, row, next, hnext, hnew, hvisit, (Sum.inl.inj h).symm⟩

/-- A walk has come here from its start, and from every key that it has visited. -/
structure Walk.Sound (visit : κ → Except ε (ρ × Option κ)) (start : Option κ) (w : Walk κ ρ) :
    Prop where
  path : Path visit start w.rows w.next
  back : ∀ k ∈ w.visited, ∃ rows, rows ≠ [] ∧ Path visit (some k) rows w.next

theorem Walk.Sound.turn {start : Option κ} {w w' : Walk κ ρ} (hw : w.Sound visit start)
    (h : w.turn visit = .inl w') : w'.Sound visit start := by
  obtain ⟨k, row, next, hnext, -, hvisit, rfl⟩ := Walk.turn_inl h
  obtain ⟨hpath, hback⟩ := hw
  rw [hnext] at hpath hback
  refine ⟨hpath.concat hvisit, fun m hm => ?_⟩
  rcases List.mem_cons.mp hm with rfl | hm
  · exact ⟨[row], List.cons_ne_nil _ _, .cons hvisit .nil⟩
  · obtain ⟨rows, -, hrows⟩ := hback m hm
    exact ⟨rows ++ [row], List.append_ne_nil_of_right_ne_nil _ (List.cons_ne_nil _ _),
      hrows.concat hvisit⟩

theorem Walk.Sound.holds {start : Option κ} {w : Walk κ ρ} {r : Result κ ρ ε}
    (hw : w.Sound visit start) (h : w.turn visit = .inr r) : r.Holds visit start := by
  obtain ⟨hpath, hback⟩ := hw
  unfold Walk.turn at h
  split at h
  · next hnext =>
    obtain rfl := Sum.inr.inj h
    rwa [hnext] at hpath
  · next k hnext =>
    rw [hnext] at hpath hback
    split at h
    · next hvisited =>
      obtain rfl := Sum.inr.inj h
      exact ⟨w.rows, hpath, hback k hvisited⟩
    · split at h
      · next reason hvisit =>
        obtain rfl := Sum.inr.inj h
        exact ⟨w.rows, hpath, hvisit⟩
      · cases h

/-- The visited keys are keys that can be visited, each once. -/
structure Walk.Fresh (keys : List κ) (w : Walk κ ρ) : Prop where
  nodup : w.visited.Nodup
  known : w.visited ⊆ keys

theorem Walk.Fresh.turn {keys : List κ} {w w' : Walk κ ρ}
    (hkeys : ∀ k row next, visit k = .ok (row, next) → k ∈ keys) (hw : w.Fresh keys)
    (h : w.turn visit = .inl w') :
    w'.Fresh keys ∧ keys.length - w'.visited.length < keys.length - w.visited.length := by
  obtain ⟨k, row, next, -, hnew, hvisit, rfl⟩ := Walk.turn_inl h
  have hfresh : (k :: w.visited).Nodup := List.nodup_cons.mpr ⟨hnew, hw.nodup⟩
  have hknown : k :: w.visited ⊆ keys :=
    List.cons_subset.mpr ⟨hkeys k row next hvisit, hw.known⟩
  have hlength := (hfresh.subperm hknown).length_le
  refine ⟨⟨hfresh, hknown⟩, ?_⟩
  rw [List.length_cons] at hlength ⊢
  omega

/-- **A walk over finitely many keys ends**: it has at most one turn more than there are keys, and
its result holds. -/
theorem walk_ends {keys : List κ}
    (hkeys : ∀ k row next, visit k = .ok (row, next) → k ∈ keys) (start : Option κ) :
    ∃ n ≤ keys.length + 1, ∃ r : Result κ ρ ε,
      Ends (Walk.turn visit) { rows := [], visited := [], next := start } n r
        ∧ r.Holds visit start := by
  have hfresh : Walk.Fresh keys ({ rows := [], visited := [], next := start } : Walk κ ρ) :=
    ⟨List.nodup_nil, List.nil_subset _⟩
  have hsound : Walk.Sound visit start ({ rows := [], visited := [], next := start } : Walk κ ρ) :=
    ⟨.nil, fun k hk => absurd hk List.not_mem_nil⟩
  obtain ⟨n, hn, r, hends⟩ := exists_ends (fun _ _ hw hturn => hw.turn hkeys hturn) hfresh
  exact ⟨n, hn, r, hends, hends.inv (fun _ _ hw hturn => hw.turn hturn)
    (fun _ _ hw hturn => hw.holds hturn) hsound⟩

end

end Ascent
