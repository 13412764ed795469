import MortgageAgent.Lib.Ascent
import MortgageAgent.Policy.Grounds

/-!
# The walk to the root

`loadCoveredAncestry` follows parent codes up from a leaf, whatever the table holds: codes that no
row has, jurisdictions that are their own parents, cycles.

* **`AncestryLoop.turn`** — the loop of the resolver, with its set of visited codes and the reasons
  of its caller.
* **`CoveredChain`** — the chain from a leaf to its root.
* **`Leads`** — the loop takes the turns of a walk along `visit`.
* **`Refusal`** — why a leaf has no covered chain.
* **`ancestryLoop_answers`** — it ends, with the chain or with one reason more.
* **`loadCoveredAncestry_ok_iff`** — the function with a bounded number of turns gives its answer.
-/

namespace MortgageAgent.Policy

open Ascent

/-! ## The loop -/

structure AncestryLoop where
  ancestry : List Jurisdiction
  visited : List String
  nextCode : Option String
  /-- the caller's array -/
  unresolvedReasons : List String

/-- What is returned, `none` for null, and the caller's reasons by then. -/
abbrev AncestryAnswer := Option (List Jurisdiction) × List String

def AncestryLoop.start (leafCode : String) (unresolvedReasons : List String) : AncestryLoop where
  ancestry := []
  visited := []
  nextCode := some leafCode
  unresolvedReasons

/-- `while (nextCode)`, and one turn of the body. -/
def AncestryLoop.turn (catalog : Catalog) (s : AncestryLoop) : AncestryLoop ⊕ AncestryAnswer :=
  match s.nextCode with
  | none => .inr (some s.ancestry, s.unresolvedReasons)
  | some code =>
    if code = "" then .inr (some s.ancestry, s.unresolvedReasons)
    else if s.visited.contains code then
      .inr (none, s.unresolvedReasons
        ++ ["jurisdiction ancestry contains a cycle at \"" ++ code ++ "\""])
    else
      match catalog.jurisdictions.find code with
      | none =>
        .inr (none, s.unresolvedReasons
          ++ ["jurisdiction ancestry references unknown code \"" ++ code ++ "\""])
      | some jurisdiction =>
        if jurisdiction.coverageStatus ≠ .COVERED then
          .inr (none, s.unresolvedReasons
            ++ ["jurisdiction \"" ++ code ++ "\" does not have reviewed COVERED status"])
        else
          .inl { s with
            ancestry := s.ancestry ++ [jurisdiction]
            visited := code :: s.visited
            nextCode := jurisdiction.parentCode }

/-! ## The chain -/

variable {catalog : Catalog} {leafCode code : String} {chain : List Jurisdiction}

/-- The parent chain of a leaf, all of it covered. A blank code is no code: its chain is empty. -/
structure CoveredChain (catalog : Catalog) (leafCode : String) (chain : List Jurisdiction) :
    Prop where
  known : if leafCode = "" then chain = [] else ParentChain catalog leafCode chain
  acyclic : (chain.map Jurisdiction.code).Nodup
  covered : ∀ j ∈ chain, j.coverageStatus = .COVERED

/-- A code that the loop goes on with. -/
def truthy (code : Option String) : Option String := code.filter (· ≠ "")

theorem truthy_eq_some_iff {next : Option String} :
    truthy next = some code ↔ next = some code ∧ code ≠ "" := by
  rw [truthy, Option.filter_eq_some_iff, decide_eq_true_eq]

theorem truthy_eq_none_iff {next : Option String} : truthy next = none ↔ next.getD "" = "" := by
  cases next with
  | none => exact iff_of_true rfl rfl
  | some code => simp [truthy, Option.filter]

/-- The jurisdiction of a code with the code of its parent, or the reason against it. -/
def visit (catalog : Catalog) (code : String) : Except String (Jurisdiction × Option String) :=
  match catalog.jurisdictions.find code with
  | none => .error ("jurisdiction ancestry references unknown code \"" ++ code ++ "\"")
  | some jurisdiction =>
    if jurisdiction.coverageStatus ≠ .COVERED then
      .error ("jurisdiction \"" ++ code ++ "\" does not have reviewed COVERED status")
    else .ok (jurisdiction, truthy jurisdiction.parentCode)

theorem visit_eq_ok_iff {j : Jurisdiction} {next : Option String} :
    visit catalog code = .ok (j, next) ↔ j ∈ catalog.jurisdictions.rows ∧ j.code = code
      ∧ j.coverageStatus = .COVERED ∧ next = truthy j.parentCode := by
  rw [visit, ← and_assoc, ← catalog.jurisdictions.find_eq_some_iff]
  cases catalog.jurisdictions.find code with
  | none => exact iff_of_false (fun h => by cases h) (fun h => by cases h.1)
  | some jurisdiction =>
    by_cases hcovered : jurisdiction.coverageStatus = .COVERED
    · simp only [hcovered, ne_eq, not_true_eq_false, if_false, Except.ok.injEq, Prod.mk.injEq,
        Option.some.injEq]
      constructor
      · rintro ⟨rfl, rfl⟩
        exact ⟨rfl, hcovered, rfl⟩
      · rintro ⟨rfl, -, rfl⟩
        exact ⟨rfl, rfl⟩
    · simp only [ne_eq, hcovered, not_false_eq_true, if_true, Option.some.injEq]
      refine iff_of_false (fun h => by cases h) ?_
      rintro ⟨rfl, hc, -⟩
      exact hcovered hc

theorem path_iff (hcode : code ≠ "") :
    Path (visit catalog) (some code) chain none
      ↔ ParentChain catalog code chain ∧ ∀ j ∈ chain, j.coverageStatus = .COVERED := by
  induction chain generalizing code with
  | nil => exact iff_of_false (fun h => by cases h) (fun h => by cases h.1)
  | cons j rest ih =>
    constructor
    · intro h
      cases h with
      | cons hvisit hrest =>
        obtain ⟨hmem, rfl, hcovered, rfl⟩ := visit_eq_ok_iff.mp hvisit
        cases hnext : truthy j.parentCode with
        | none =>
          rw [hnext] at hrest
          cases hrest
          exact ⟨.root hmem (truthy_eq_none_iff.mp hnext), by simpa using hcovered⟩
        | some parent =>
          obtain ⟨hparent, hnamed⟩ := truthy_eq_some_iff.mp hnext
          rw [hnext] at hrest
          obtain ⟨hchain, hall⟩ := (ih hnamed).mp hrest
          exact ⟨.child hmem hparent hnamed hchain, List.forall_mem_cons.mpr ⟨hcovered, hall⟩⟩
    · rintro ⟨hchain, hcovered⟩
      obtain ⟨hj, hall⟩ := List.forall_mem_cons.mp hcovered
      cases hchain with
      | root hmem hroot =>
        refine .cons (visit_eq_ok_iff.mpr ⟨hmem, rfl, hj, rfl⟩) ?_
        rw [truthy_eq_none_iff.mpr hroot]
        exact .nil
      | child hmem hparent hnamed hrest =>
        refine .cons (visit_eq_ok_iff.mpr ⟨hmem, rfl, hj, rfl⟩) ?_
        rw [truthy_eq_some_iff.mpr ⟨hparent, hnamed⟩]
        exact (ih hnamed).mpr ⟨hrest, hall⟩

/-- A covered chain is a chain of visits, which has no code twice. -/
theorem coveredChain_iff :
    CoveredChain catalog leafCode chain
      ↔ Path (visit catalog) (truthy (some leafCode)) chain none := by
  by_cases hblank : leafCode = ""
  · rw [hblank, truthy_eq_none_iff.mpr rfl]
    constructor
    · rintro ⟨hknown, -, -⟩
      rw [if_pos rfl] at hknown
      rw [hknown]
      exact .nil
    · intro h
      cases h
      exact ⟨if_pos rfl ▸ rfl, List.nodup_nil, by simp⟩
  · rw [truthy_eq_some_iff.mpr ⟨rfl, hblank⟩]
    constructor
    · rintro ⟨hknown, -, hcovered⟩
      rw [if_neg hblank] at hknown
      exact (path_iff hblank).mpr ⟨hknown, hcovered⟩
    · intro h
      obtain ⟨hchain, hcovered⟩ := (path_iff hblank).mp h
      refine ⟨by rwa [if_neg hblank], h.nodup fun k j next hvisit => ?_, hcovered⟩
      exact (visit_eq_ok_iff.mp hvisit).2.1

/-! ## The loop is a walk -/

theorem AncestryLoop.turn_eq (catalog : Catalog) (s : AncestryLoop) :
    s.turn catalog =
      match truthy s.nextCode with
      | none => .inr (some s.ancestry, s.unresolvedReasons)
      | some code =>
        if s.visited.contains code then
          .inr (none, s.unresolvedReasons
            ++ ["jurisdiction ancestry contains a cycle at \"" ++ code ++ "\""])
        else
          match visit catalog code with
          | .error reason => .inr (none, s.unresolvedReasons ++ [reason])
          | .ok (jurisdiction, _) =>
            .inl { s with
              ancestry := s.ancestry ++ [jurisdiction]
              visited := code :: s.visited
              nextCode := jurisdiction.parentCode } := by
  unfold AncestryLoop.turn visit
  cases s.nextCode with
  | none => rfl
  | some code =>
    by_cases hblank : code = ""
    · rw [hblank, truthy_eq_none_iff.mpr rfl]
      exact if_pos rfl
    · rw [truthy_eq_some_iff.mpr ⟨rfl, hblank⟩]
      dsimp only
      rw [if_neg hblank]
      cases catalog.jurisdictions.find code with
      | none => rfl
      | some jurisdiction =>
        by_cases hcovered : jurisdiction.coverageStatus = .COVERED
        · simp only [hcovered, ne_eq, not_true_eq_false, if_false]
        · simp only [hcovered, ne_eq, not_false_eq_true, if_true]

/-- The walk is where the loop is. -/
structure Leads (unresolvedReasons : List String) (w : Walk String Jurisdiction)
    (s : AncestryLoop) : Prop where
  ancestry : s.ancestry = w.rows
  visited : s.visited = w.visited
  nextCode : truthy s.nextCode = w.next
  reasons : s.unresolvedReasons = unresolvedReasons

/-- What the loop returns for what the walk comes to. -/
def answerOf (unresolvedReasons : List String) :
    Ascent.Result String Jurisdiction String → AncestryAnswer
  | .chain ancestry => (some ancestry, unresolvedReasons)
  | .refused _ reason => (none, unresolvedReasons ++ [reason])
  | .cycle code => (none, unresolvedReasons
      ++ ["jurisdiction ancestry contains a cycle at \"" ++ code ++ "\""])

variable {unresolvedReasons : List String} {w w' : Walk String Jurisdiction} {s : AncestryLoop}

theorem Leads.turn_inl (h : Leads unresolvedReasons w s)
    (hturn : w.turn (visit catalog) = .inl w') :
    ∃ s', s.turn catalog = .inl s' ∧ Leads unresolvedReasons w' s' := by
  obtain ⟨code, j, next, hnext, hnew, hvisit, rfl⟩ := Walk.turn_inl hturn
  refine ⟨{ s with
    ancestry := s.ancestry ++ [j], visited := code :: s.visited, nextCode := j.parentCode }, ?_, ?_⟩
  · have hunseen : s.visited.contains code = false := by
      rw [h.visited]
      simpa using hnew
    rw [AncestryLoop.turn_eq, h.nextCode, hnext]
    dsimp only
    rw [hunseen, hvisit]
    rfl
  · obtain ⟨-, -, -, rfl⟩ := visit_eq_ok_iff.mp hvisit
    exact ⟨by rw [h.ancestry], by rw [h.visited], rfl, h.reasons⟩

theorem Leads.turn_inr {r : Ascent.Result String Jurisdiction String}
    (h : Leads unresolvedReasons w s) (hturn : w.turn (visit catalog) = .inr r) :
    s.turn catalog = .inr (answerOf unresolvedReasons r) := by
  rw [AncestryLoop.turn_eq, h.nextCode, h.ancestry, h.reasons, h.visited]
  unfold Walk.turn at hturn
  cases hnext : w.next with
  | none =>
    rw [hnext] at hturn
    obtain rfl := Sum.inr.inj hturn
    rfl
  | some code =>
    rw [hnext] at hturn
    dsimp only at hturn ⊢
    by_cases hseen : code ∈ w.visited
    · rw [if_pos hseen] at hturn
      obtain rfl := Sum.inr.inj hturn
      exact if_pos (List.contains_iff_mem.mpr hseen)
    · rw [if_neg hseen] at hturn
      rw [if_neg (fun h => hseen (List.contains_iff_mem.mp h))]
      cases hvisit : visit catalog code with
      | error reason =>
        rw [hvisit] at hturn
        obtain rfl := Sum.inr.inj hturn
        rfl
      | ok found =>
        rw [hvisit] at hturn
        cases hturn

/-! ## What it returns -/

/-- Why there is no covered chain: the leaf leads, by covered jurisdictions, to a code that no row
has, to a jurisdiction that is not covered, or to a cycle. -/
inductive Refusal (catalog : Catalog) (leafCode : String) : String → Prop where
  | unknown {code : String} {below : List Jurisdiction}
      (hleads : Path (visit catalog) (truthy (some leafCode)) below (some code))
      (hunknown : ∀ j ∈ catalog.jurisdictions.rows, j.code ≠ code) :
      Refusal catalog leafCode
        ("jurisdiction ancestry references unknown code \"" ++ code ++ "\"")
  | uncovered {j : Jurisdiction} {below : List Jurisdiction}
      (hleads : Path (visit catalog) (truthy (some leafCode)) below (some j.code))
      (hmem : j ∈ catalog.jurisdictions.rows) (huncovered : j.coverageStatus ≠ .COVERED) :
      Refusal catalog leafCode
        ("jurisdiction \"" ++ j.code ++ "\" does not have reviewed COVERED status")
  | cycle {code : String} {below loop : List Jurisdiction}
      (hleads : Path (visit catalog) (truthy (some leafCode)) below (some code))
      (hne : loop ≠ []) (hloop : Path (visit catalog) (some code) loop (some code)) :
      Refusal catalog leafCode ("jurisdiction ancestry contains a cycle at \"" ++ code ++ "\"")

/-- The chain where there is one, else null and one reason more, which says why. -/
structure Answers (catalog : Catalog) (leafCode : String) (unresolvedReasons : List String)
    (answer : AncestryAnswer) : Prop where
  chain : ∀ chain, CoveredChain catalog leafCode chain → answer = (some chain, unresolvedReasons)
  refusal : (∀ chain, ¬ CoveredChain catalog leafCode chain) →
    ∃ reason, Refusal catalog leafCode reason ∧ answer = (none, unresolvedReasons ++ [reason])

/-- The walk to the root ends, and what it comes to holds. -/
theorem exists_walk (catalog : Catalog) (leafCode : String) (unresolvedReasons : List String) :
    ∃ turns ≤ catalog.jurisdictions.rows.length + 1, ∃ r,
      Ends (AncestryLoop.turn catalog) (.start leafCode unresolvedReasons) turns
          (answerOf unresolvedReasons r)
        ∧ r.Holds (visit catalog) (truthy (some leafCode)) := by
  have hkeys : ∀ code j next, visit catalog code = .ok (j, next) →
      code ∈ catalog.jurisdictions.rows.map Jurisdiction.code := by
    intro code j next hvisit
    obtain ⟨hmem, rfl, -⟩ := visit_eq_ok_iff.mp hvisit
    exact List.mem_map_of_mem hmem
  obtain ⟨turns, hturns, r, hends, hholds⟩ := walk_ends hkeys (truthy (some leafCode))
  rw [List.length_map] at hturns
  refine ⟨turns, hturns, r, ?_, hholds⟩
  exact hends.simulate (R := Leads unresolvedReasons) (fun _ _ _ h hturn => h.turn_inl hturn)
    (fun _ _ _ h hturn => h.turn_inr hturn) ⟨rfl, rfl, rfl, rfl⟩

theorem refusal_of_visit {below : List Jurisdiction} {reason : String}
    (hleads : Path (visit catalog) (truthy (some leafCode)) below (some code))
    (hvisit : visit catalog code = .error reason) : Refusal catalog leafCode reason := by
  rw [visit] at hvisit
  split at hvisit
  · next hfind =>
    cases hvisit
    exact .unknown hleads (catalog.jurisdictions.find_eq_none_iff.mp hfind)
  · next j hfind =>
    obtain ⟨hmem, rfl⟩ := catalog.jurisdictions.find_eq_some_iff.mp hfind
    split at hvisit
    · next huncovered =>
      cases hvisit
      exact .uncovered hleads hmem huncovered
    · cases hvisit

theorem answers_of_holds {r : Ascent.Result String Jurisdiction String}
    (h : r.Holds (visit catalog) (truthy (some leafCode))) :
    Answers catalog leafCode unresolvedReasons (answerOf unresolvedReasons r) := by
  refine ⟨fun chain hchain => ?_, fun hnone => ?_⟩
  · rw [h.eq_chain (coveredChain_iff.mp hchain)]
    rfl
  · cases r with
    | chain ancestry => exact absurd (coveredChain_iff.mpr h) (hnone ancestry)
    | refused code reason =>
      obtain ⟨below, hleads, hvisit⟩ := h
      exact ⟨reason, refusal_of_visit hleads hvisit, rfl⟩
    | cycle code =>
      obtain ⟨below, hleads, loop, hne, hloop⟩ := h
      exact ⟨_, .cycle hleads hne hloop, rfl⟩

/-- **The walk to the root ends for every table and every leaf**, within one turn more than there are
jurisdictions. It returns the covered chain of the leaf, or null with one reason more where there is
none. -/
theorem ancestryLoop_answers (catalog : Catalog) (leafCode : String)
    (unresolvedReasons : List String) :
    ∃ turns ≤ catalog.jurisdictions.rows.length + 1, ∃ answer,
      Ends (AncestryLoop.turn catalog) (.start leafCode unresolvedReasons) turns answer
        ∧ Answers catalog leafCode unresolvedReasons answer := by
  obtain ⟨turns, hturns, r, hends, hholds⟩ := exists_walk catalog leafCode unresolvedReasons
  exact ⟨turns, hturns, _, hends, answers_of_holds hholds⟩

/-- The empty code is no jurisdiction, and it is not reported. -/
theorem blank_leaf_unreported :
    (∀ chain, ¬ ParentChain (stateCatalog .empty) "" chain)
      ∧ ∀ turns reason, ¬ Ends (AncestryLoop.turn (stateCatalog .empty)) (.start "" []) turns
        (none, [reason]) := by
  refine ⟨fun chain hchain => ?_, fun turns reason hends => ?_⟩
  · obtain ⟨j, hj, hcode⟩ := hchain.head_mem
    have hall : ∀ j ∈ (stateCatalog .empty).jurisdictions.rows, j.code ≠ "" := by decide
    exact hall j hj hcode
  · have hblank : Ends (AncestryLoop.turn (stateCatalog .empty)) (.start "" []) 1 (some [], []) :=
      .last rfl
    cases (hends.unique hblank).2

/-! ## The function -/

/-- The answer, from the chain that is still to come. -/
def AncestryLoop.answer (s : AncestryLoop) : Except String (List Jurisdiction) → AncestryAnswer
  | .ok ancestry => (some (s.ancestry ++ ancestry), s.unresolvedReasons)
  | .error reason => (none, s.unresolvedReasons ++ [reason])

theorem loadCoveredAncestry_eq (catalog : Catalog) (turns : Nat) (visited : List String)
    (nextCode : Option String) :
    loadCoveredAncestry catalog turns visited nextCode =
      match truthy nextCode with
      | none => .ok []
      | some code =>
        if visited.contains code then
          .error ("jurisdiction ancestry contains a cycle at \"" ++ code ++ "\"")
        else
          match visit catalog code with
          | .error reason => .error reason
          | .ok (jurisdiction, _) =>
            match turns with
            | 0 => .error ("jurisdiction ancestry contains a cycle at \"" ++ code ++ "\"")
            | turns + 1 =>
              match loadCoveredAncestry catalog turns (code :: visited) jurisdiction.parentCode with
              | .error reason => .error reason
              | .ok ancestry => .ok (jurisdiction :: ancestry) := by
  cases nextCode with
  | none => cases turns <;> rfl
  | some code =>
    by_cases hblank : code = ""
    · rw [hblank, truthy_eq_none_iff.mpr rfl]
      cases turns <;> rw [loadCoveredAncestry, if_pos rfl]
    · rw [truthy_eq_some_iff.mpr ⟨rfl, hblank⟩]
      dsimp only
      rw [visit]
      cases hfind : catalog.jurisdictions.find code with
      | none => cases turns <;> simp only [loadCoveredAncestry, if_neg hblank, hfind]
      | some jurisdiction =>
        by_cases hcovered : jurisdiction.coverageStatus = .COVERED
        · cases turns with
          | zero => simp only [loadCoveredAncestry, if_neg hblank, hfind, hcovered, ne_eq,
              not_true_eq_false, if_false]
          | succ turns =>
            cases hrest : loadCoveredAncestry catalog turns (code :: visited)
                jurisdiction.parentCode <;>
              simp only [loadCoveredAncestry, if_neg hblank, hfind, hcovered, ne_eq,
                not_true_eq_false, if_false, hrest]
        · cases turns <;> simp only [loadCoveredAncestry, if_neg hblank, hfind, hcovered, ne_eq,
            not_false_eq_true, if_true]

theorem answer_of_turn_inr {answer : AncestryAnswer} (h : s.turn catalog = .inr answer)
    (turns : Nat) :
    answer = s.answer (loadCoveredAncestry catalog turns s.visited s.nextCode) := by
  rw [AncestryLoop.turn_eq] at h
  rw [loadCoveredAncestry_eq]
  cases hnext : truthy s.nextCode with
  | none =>
    rw [hnext] at h
    obtain rfl := Sum.inr.inj h
    simp [AncestryLoop.answer]
  | some code =>
    rw [hnext] at h
    dsimp only at h ⊢
    by_cases hseen : s.visited.contains code = true
    · rw [if_pos hseen] at h ⊢
      exact (Sum.inr.inj h).symm
    · rw [if_neg hseen] at h ⊢
      cases hvisit : visit catalog code with
      | error reason =>
        rw [hvisit] at h
        exact (Sum.inr.inj h).symm
      | ok found =>
        rw [hvisit] at h
        cases h

/-- A turn that goes on leaves the answer what it is. -/
theorem answer_of_turn_inl {s' : AncestryLoop} (h : s.turn catalog = .inl s') (turns : Nat) :
    s'.answer (loadCoveredAncestry catalog turns s'.visited s'.nextCode)
      = s.answer (loadCoveredAncestry catalog (turns + 1) s.visited s.nextCode) := by
  rw [AncestryLoop.turn_eq] at h
  rw [loadCoveredAncestry_eq catalog (turns + 1)]
  cases hnext : truthy s.nextCode with
  | none =>
    rw [hnext] at h
    cases h
  | some code =>
    rw [hnext] at h
    dsimp only at h ⊢
    by_cases hseen : s.visited.contains code = true
    · rw [if_pos hseen] at h
      cases h
    · rw [if_neg hseen] at h ⊢
      cases hvisit : visit catalog code with
      | error reason =>
        rw [hvisit] at h
        cases h
      | ok found =>
        rw [hvisit] at h
        obtain rfl := Sum.inl.inj h
        dsimp only
        cases loadCoveredAncestry catalog turns (code :: s.visited) found.1.parentCode with
        | error reason => rfl
        | ok ancestry => simp [AncestryLoop.answer]

/-- With enough turns the function gives the answer of the loop. -/
theorem answer_of_ends {turns n : Nat} {answer : AncestryAnswer}
    (h : Ends (AncestryLoop.turn catalog) s n answer) (hn : n ≤ turns + 1) :
    answer = s.answer (loadCoveredAncestry catalog turns s.visited s.nextCode) := by
  induction h generalizing turns with
  | last h => exact answer_of_turn_inr h turns
  | next h hrest ih =>
    have hpos := hrest.pos
    obtain ⟨left, rfl⟩ : ∃ left, turns = left + 1 := ⟨turns - 1, by omega⟩
    rw [← answer_of_turn_inl h]
    exact ih (Nat.le_of_succ_le_succ hn)

/-- **What the function loads** is the covered chain of the leaf. -/
theorem loadCoveredAncestry_ok_iff :
    loadCoveredAncestry catalog catalog.jurisdictions.rows.length [] (some leafCode) = .ok chain
      ↔ CoveredChain catalog leafCode chain := by
  obtain ⟨turns, hturns, r, hends, hholds⟩ := exists_walk catalog leafCode []
  have hanswer := answer_of_ends hends hturns
  obtain ⟨hchain, hrefusal⟩ := @answers_of_holds catalog leafCode [] r hholds
  dsimp only [AncestryLoop.start] at hanswer
  constructor
  · intro hok
    rw [hok] at hanswer
    by_cases hany : ∃ chain', CoveredChain catalog leafCode chain'
    · obtain ⟨chain', h⟩ := hany
      have hsame := (hchain chain' h).symm.trans hanswer
      rw [AncestryLoop.answer, List.nil_append] at hsame
      rwa [← Option.some.inj (congrArg Prod.fst hsame)]
    · obtain ⟨reason, -, hnull⟩ := hrefusal fun chain' h => hany ⟨chain', h⟩
      cases hnull.symm.trans hanswer
  · intro h
    have hsame := (hchain chain h).symm.trans hanswer
    cases hload : loadCoveredAncestry catalog catalog.jurisdictions.rows.length []
      (some leafCode) with
    | error reason =>
      rw [hload] at hsame
      cases hsame
    | ok ancestry =>
      rw [hload, AncestryLoop.answer, List.nil_append] at hsame
      rw [Option.some.inj (congrArg Prod.fst hsame)]

end MortgageAgent.Policy
