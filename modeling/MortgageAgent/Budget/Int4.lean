import MortgageAgent.Budget.Lifecycle

/-!
# 32-bit sums

The conditional updates, the aggregate update and the CHECK constraint of a reservation add
`integer` columns, and a sum above `int4Max` raises 22003 where the statement was meant to
match no row. That error is no `AgentBudgetError`, so no caller classifies it.

* **`Only`** — the errors a call may end in, and how a `do` block passes them on.
* **`SumsFit`** — the sums that a `WHERE` clause evaluates, up to the first one over its limit,
  are in range. `capacityGuard` is the clause itself, and raises 22003 exactly otherwise.
-/

namespace MortgageAgent.Budget

/-- The largest value of an `integer` column. -/
def int4Max : Int := 2147483647

/-! ## Errors that a call may throw -/

/-- Every error that `x` can end in is allowed. -/
def Only {α : Type} (allowed : BudgetFailure → Prop) (x : Except BudgetFailure α) : Prop :=
  ∀ e, x = .error e → allowed e

/-- The service's own error, the only one its callers tell apart. -/
def BudgetFailure.Own (e : BudgetFailure) : Prop :=
  ∃ code message, e = .agentBudgetError code message

/-- A claim may also lose the unique key to another caller, which sends it to recovery. -/
def BudgetFailure.OwnOrUnique (e : BudgetFailure) : Prop :=
  e.Own ∨ e = .database .uniqueViolation

section Only

variable {α β : Type} {allowed : BudgetFailure → Prop}

@[simp] theorem only_ok (a : α) : Only allowed (.ok a : Except BudgetFailure α) := by
  intro e h
  cases h

@[simp] theorem only_error_iff (e : BudgetFailure) :
    Only allowed (.error e : Except BudgetFailure α) ↔ allowed e :=
  ⟨fun h => h e rfl, fun he e' h => by cases h; exact he⟩

theorem only_bind_iff {x : Except BudgetFailure α} {f : α → Except BudgetFailure β} :
    Only allowed (x >>= f) ↔ Only allowed x ∧ ∀ a, x = .ok a → Only allowed (f a) := by
  cases x with
  | ok a => exact ⟨fun h => ⟨only_ok a, fun a' ha => by cases ha; exact h⟩, fun h => h.2 a rfl⟩
  | error e =>
    refine ⟨fun h => ⟨fun e' he => ?_, fun a ha => by cases ha⟩, fun h e' he => ?_⟩
    · cases he
      exact h e rfl
    · cases he
      exact h.1 e rfl

/-- A statement that ran to a value goes on with it. -/
theorem only_sql_ok {x : Except PgError α} {a : α} (h : x = .ok a)
    {f : α → Except BudgetFailure β} : Only allowed (sql x >>= f) ↔ Only allowed (f a) := by
  subst h
  exact Iff.rfl

/-- A statement that raised an error ends the call with it. -/
theorem only_sql_error {x : Except PgError α} {e : PgError} (h : x = .error e)
    {f : α → Except BudgetFailure β} :
    Only allowed (sql x >>= f) ↔ allowed (.database e) := by
  subst h
  exact only_error_iff _

end Only

@[simp] theorem own_agentBudgetError (code : AgentBudgetFailureCode) (message : String) :
    (BudgetFailure.agentBudgetError code message).Own := ⟨code, message, rfl⟩

@[simp] theorem own_conflict (message : String) : (conflict message).Own := ⟨_, message, rfl⟩

@[simp] theorem not_own_database (e : PgError) : ¬(BudgetFailure.database e).Own := by
  rintro ⟨_, _, h⟩
  cases h

@[simp] theorem not_own_entityNotFound : ¬BudgetFailure.entityNotFound.Own := by
  rintro ⟨_, _, h⟩
  cases h

theorem ownOrUnique_database_iff (e : PgError) :
    (BudgetFailure.database e).OwnOrUnique ↔ e = .uniqueViolation := by
  simp [BudgetFailure.OwnOrUnique]

theorem ok_bind {ε α β : Type} (a : α) (f : α → Except ε β) : (Except.ok a >>= f) = f a := rfl

theorem error_bind {ε α β : Type} (e : ε) (f : α → Except ε β) :
    (Except.error e >>= f) = .error e := rfl

/-! ## Sums -/

theorem int4_of_inInt4 {v : Int} (h : inInt4 v = true) : int4 v = .ok v := if_pos h

theorem int4_of_gt {v : Int} (h : int4Max < v) : int4 v = .error .numericValueOutOfRange := by
  unfold int4Max at h
  refine if_neg ?_
  simp only [inInt4, Bool.and_eq_true, decide_eq_true_eq]
  omega

/-- A sum of non-negative columns and units is in range when it is at most `int4Max`. -/
theorem int4Add_of_le {a b : Int} (ha : 0 ≤ a) (hb : 0 ≤ b) (h : a + b ≤ int4Max) :
    int4Add a b = .ok (a + b) := by
  unfold int4Max at h
  refine int4_of_inInt4 ?_
  simp only [inInt4, Bool.and_eq_true, decide_eq_true_eq]
  omega

theorem int4Sub_of_le {a b : Int} (ha : 0 ≤ a) (hb : 0 ≤ b) (ha' : a ≤ int4Max)
    (hb' : b ≤ int4Max) : int4Sub a b = .ok (a - b) := by
  unfold int4Max at ha' hb'
  refine int4_of_inInt4 ?_
  simp only [inInt4, Bool.and_eq_true, decide_eq_true_eq]
  omega

/-- One conjunct `used + reserved + units <= limit` of a `WHERE` clause. -/
structure Capacity where
  used : Int
  reserved : Int
  units : Int
  limit : Int
  deriving DecidableEq, Repr

def Capacity.total (c : Capacity) : Int := c.used + c.reserved + c.units

/-- The claimed units fit under the limit. -/
def Capacity.Room (c : Capacity) : Prop := c.total ≤ c.limit

instance (c : Capacity) : Decidable c.Room := inferInstanceAs (Decidable (_ ≤ _))

structure Capacity.Nonneg (c : Capacity) : Prop where
  used : 0 ≤ c.used
  reserved : 0 ≤ c.reserved
  units : 0 ≤ c.units

/-- The sums of a conjunction are in range, up to the first one over its limit: from there on
nothing is evaluated. -/
def SumsFit : List Capacity → Prop
  | [] => True
  | c :: cs => c.total ≤ int4Max ∧ (c.Room → SumsFit cs)

/-- The conjunction of the capacity tests, left to right. -/
def capacityGuard : List Capacity → Except PgError Bool
  | [] => .ok true
  | c :: cs => fits c.used c.reserved c.units c.limit <&&> capacityGuard cs

theorem fits_of_le {c : Capacity} (hc : c.Nonneg) (h : c.total ≤ int4Max) :
    fits c.used c.reserved c.units c.limit = .ok (decide c.Room) := by
  unfold Capacity.total at h
  have hheld : int4Add c.used c.reserved = .ok (c.used + c.reserved) :=
    int4Add_of_le hc.used hc.reserved (by have := hc.units; omega)
  have hclaimed : int4Add (c.used + c.reserved) c.units = .ok (c.used + c.reserved + c.units) :=
    int4Add_of_le (add_nonneg hc.used hc.reserved) hc.units h
  simp only [fits, hheld, ok_bind, hclaimed]
  rfl

theorem fits_of_gt {c : Capacity} (hc : c.Nonneg) (h : int4Max < c.total) :
    fits c.used c.reserved c.units c.limit = .error .numericValueOutOfRange := by
  unfold Capacity.total at h
  by_cases hheld : c.used + c.reserved ≤ int4Max
  · have hfirst : int4Add c.used c.reserved = .ok (c.used + c.reserved) :=
      int4Add_of_le hc.used hc.reserved hheld
    have hsecond : int4Add (c.used + c.reserved) c.units = .error .numericValueOutOfRange :=
      int4_of_gt h
    simp only [fits, hfirst, ok_bind, hsecond, error_bind]
  · -- the first of the two additions is already too large
    have hfirst : int4Add c.used c.reserved = .error .numericValueOutOfRange :=
      int4_of_gt (not_le.mp hheld)
    simp only [fits, hfirst, error_bind]

/-- A conjunction whose evaluated sums are in range says whether every capacity has room. -/
theorem capacityGuard_of_sumsFit {cs : List Capacity} (hcs : ∀ c ∈ cs, c.Nonneg)
    (h : SumsFit cs) : capacityGuard cs = .ok (decide (∀ c ∈ cs, c.Room)) := by
  induction cs with
  | nil => rfl
  | cons c cs ih =>
    obtain ⟨hc, hcs⟩ := List.forall_mem_cons.mp hcs
    rw [capacityGuard, fits_of_le hc h.1]
    by_cases hroom : c.Room
    · simp only [hroom, decide_true, List.forall_mem_cons, true_and]
      exact ih hcs (h.2 hroom)
    · simp only [hroom, decide_false, List.forall_mem_cons, false_and]
      rfl

theorem capacityGuard_of_not_sumsFit {cs : List Capacity} (hcs : ∀ c ∈ cs, c.Nonneg)
    (h : ¬SumsFit cs) : capacityGuard cs = .error .numericValueOutOfRange := by
  induction cs with
  | nil => exact absurd trivial h
  | cons c cs ih =>
    obtain ⟨hc, hcs⟩ := List.forall_mem_cons.mp hcs
    rw [capacityGuard]
    by_cases hsum : c.total ≤ int4Max
    · -- the first sum is in range, so it has room and a later one is not
      obtain ⟨hroom, hrest⟩ : c.Room ∧ ¬SumsFit cs := by
        by_contra hnot
        exact h ⟨hsum, fun hroom => by_contra fun hrest => hnot ⟨hroom, hrest⟩⟩
      rw [fits_of_le hc hsum, ih hcs hrest]
      simp only [hroom, decide_true]
      rfl
    · rw [fits_of_gt hc (not_le.mp hsum)]
      rfl

/-- Where all capacities have room, every sum was evaluated and is in range. -/
theorem total_le_of_sumsFit {cs : List Capacity} (h : SumsFit cs) (hroom : ∀ c ∈ cs, c.Room) :
    ∀ c ∈ cs, c.total ≤ int4Max := by
  induction cs with
  | nil => exact fun c hc => by cases hc
  | cons c cs ih =>
    obtain ⟨hc, hcs⟩ := List.forall_mem_cons.mp hroom
    exact List.forall_mem_cons.mpr ⟨h.1, ih (h.2 hc) hcs⟩

theorem andM_true (x : Except PgError Bool) : (x <&&> .ok true) = x := by
  cases x with
  | error e => rfl
  | ok b => cases b <;> rfl

end MortgageAgent.Budget
