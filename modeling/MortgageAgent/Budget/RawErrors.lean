import MortgageAgent.Budget.CommitErrors

/-!
# Raw database errors of the budget service

Callers tell an `AgentBudgetError` apart and nothing else, so each transaction of `reserve` or
`commit` is meant to return or to throw one, with every row as it was.

* **`Classified`** — the next transaction does that.
* **`classified_iff`** — from any rows the tables can hold it does so exactly where it `Fits`:
  the 32-bit sums it forms are in range, and the rows it needs are there.
-/

namespace MortgageAgent.Budget

open Runs

/-! ## Steps of the system -/

/-- Rows the tables can hold, and claims in flight whose request was validated. -/
structure System.Stored (s : System) : Prop where
  db : s.db.Stored
  claiming : ∀ call input units, s.calls call = .claiming input units →
    validateReserve input = .ok units

/-- The transactions of `reserve` and of `commit`. -/
def Label.reservesOrCommits : Label → Bool
  | .reserveRead .. | .reserveClaim .. | .reserveRecover .. | .commit .. => true
  | _ => false

/-- The call goes on, returns, or throws the service's own error with every row as it was. -/
def Classified (s : System) (a : Label) : Prop :=
  ∀ e, (s.react a).2 = .receipt (.error e) → e.Own ∧ (step s a).db = s.db

/-- What the next transaction adds and writes is in order; a call that lost its key finds it. -/
def Fits (s : System) : Label → Prop
  | .reserveClaim call env newId => ∀ input units, s.calls call = .claiming input units →
    ClaimFits s.db env newId input units
  | .reserveRecover call _ => ∀ input units, s.calls call = .recovering input units →
    (s.db.findReservationByKey input).isSome
  | .commit _ input => CommitFits s.db input
  | _ => True

theorem classified_iff_own {s : System} {a : Label} :
    Classified s a ↔ ∀ e, (s.react a).2 = .receipt (.error e) → e.Own :=
  ⟨fun h e he => (h e he).1, fun h e he => ⟨h e he, db_eq_of_error he⟩⟩

theorem only_validateReserve (input : ReserveInput) :
    Only BudgetFailure.Own (validateReserve input) := by
  have hconflict : ∀ {α : Type} (text : String),
      Only BudgetFailure.Own (.error (conflict text) : Except BudgetFailure α) :=
    fun text => (only_error_iff _).mpr (own_conflict text)
  unfold validateReserve validateUnits
  refine only_bind_iff.mpr ⟨?_, fun _ _ => ?_⟩
  · refine only_bind_iff.mpr ⟨only_assertNonnegativeInt _ _, fun _ _ => ?_⟩
    refine only_bind_iff.mpr ⟨only_assertNonnegativeInt _ _, fun _ _ => ?_⟩
    refine only_bind_iff.mpr ⟨only_assertNonnegativeInt _ _, fun _ _ => ?_⟩
    refine only_bind_iff.mpr ⟨only_assertNonnegativeInt _ _, fun _ _ => ?_⟩
    split
    · exact hconflict _
    · exact only_ok _
  · split
    · exact hconflict _
    · exact only_ok _

/-- Both reads of the key answer from the row, whose ledger is there. -/
theorem only_replay {db : Db} (hs : db.Stored) {r : AgentBudgetReservation}
    (hr : r ∈ db.reservations.rows) (env : Env) (units : AgentBudgetUnits Int) :
    Only BudgetFailure.Own (replay db env units r) := by
  refine only_bind_iff.mpr ⟨?_, fun _ _ => ?_⟩
  · unfold assertSameUnits
    split
    · exact only_ok _
    · exact (only_error_iff _).mpr (own_conflict _)
  · obtain ⟨l, hl⟩ := Option.isSome_iff_exists.mp (hs.owner r hr)
    rw [receiptFor, hl]
    exact only_ok _

section steps

variable {s : System} {call : Nat} {env : Env}

theorem classified_reserveRead (hs : s.Stored) (input : ReserveInput) :
    Classified s (.reserveRead call env input) := by
  refine classified_iff_own.mpr fun e he => ?_
  simp only [System.react, System.reserveRead] at he
  split at he
  · split at he
    · next e' hvalid =>
      cases he
      exact only_validateReserve input e hvalid
    · next units _ =>
      split at he
      · next e' hread =>
        cases he
        unfold reservePreRead at hread
        split at hread
        · next r hfind =>
          have hr := (findReservationByKey_some hfind).1
          have honly : Only BudgetFailure.Own (do
              assertSameUnits r units
              return some (← receiptFor s.db r true env)) := by
            have hreplay := only_bind_iff.mp (only_replay hs.db hr env units)
            refine only_bind_iff.mpr ⟨hreplay.1, fun x hx => ?_⟩
            exact only_bind_iff.mpr ⟨hreplay.2 x hx, fun _ _ => only_ok _⟩
          exact honly e hread
        · cases hread
      · cases he
      · cases he
  · cases he

theorem classified_reserveClaim_iff (hs : s.Stored) (newId : Uuid) :
    Classified s (.reserveClaim call env newId) ↔ Fits s (.reserveClaim call env newId) := by
  rw [classified_iff_own]
  simp only [System.react, System.reserveClaim, Fits]
  cases hcall : s.calls call with
  | claiming input units =>
    have hvalid := validateReserve_valid (hs.claiming call input units hcall)
    have hrow : (∀ input' units', CallState.claiming input units = .claiming input' units' →
          ClaimFits s.db env newId input' units') ↔ ClaimFits s.db env newId input units :=
      ⟨fun h => h input units rfl, fun h input' units' heq => by cases heq; exact h⟩
    rw [hrow, ← only_reserveClaim_iff hs.db hvalid]
    dsimp only
    cases hclaim : reserveClaim s.db env newId input units with
    | ok result => exact iff_of_true (fun e he => by cases he) (only_ok _)
    | error e =>
      rw [only_error_iff]
      by_cases hunique : e = .database .uniqueViolation
      · subst hunique
        exact iff_of_true (fun e he => by cases he) (Or.inr rfl)
      · refine Iff.trans ?_ (or_iff_left hunique).symm
        split
        · next heq => cases heq
        · next heq =>
          cases heq
          exact absurd rfl hunique
        · next heq =>
          cases heq
          exact ⟨fun h => h e rfl, fun h e' he => by cases he; exact h⟩
  | idle => exact iff_of_true (fun e he => by cases he) fun _ _ heq => by cases heq
  | recovering input units =>
    exact iff_of_true (fun e he => by cases he) fun _ _ heq => by cases heq

theorem classified_reserveRecover_iff (hs : s.Stored) :
    Classified s (.reserveRecover call env) ↔ Fits s (.reserveRecover call env) := by
  rw [classified_iff_own]
  simp only [System.react, System.reserveRecover, Fits]
  cases hcall : s.calls call with
  | recovering input units =>
    have hrow : (∀ input' units', CallState.recovering input units = .recovering input' units' →
          (s.db.findReservationByKey input').isSome)
        ↔ (s.db.findReservationByKey input).isSome :=
      ⟨fun h => h input units rfl, fun h input' units' heq => by cases heq; exact h⟩
    rw [hrow]
    dsimp only
    cases hfind : s.db.findReservationByKey input with
    | none =>
      refine iff_of_false (fun h => ?_) (by simp)
      rw [reserveRecover, hfind] at h
      exact not_own_entityNotFound (h _ rfl)
    | some r =>
      refine iff_of_true (fun e he => ?_) (by simp)
      have hr := (findReservationByKey_some hfind).1
      rw [reserveRecover, hfind] at he
      exact only_replay hs.db hr env units e (Response.receipt.inj he)
  | idle => exact iff_of_true (fun e he => by cases he) fun _ _ heq => by cases heq
  | claiming input units =>
    exact iff_of_true (fun e he => by cases he) fun _ _ heq => by cases heq

theorem classified_commit_iff (hs : s.Stored) (input : CommitInput) :
    Classified s (.commit env input) ↔ Fits s (.commit env input) := by
  have hcommit : Only BudgetFailure.Own (commit s.db env input) ↔ _ := only_commit_iff hs.db
  rw [classified_iff_own, Fits, ← hcommit]
  simp only [System.react, System.settle]
  cases commit s.db env input with
  | ok result => exact iff_of_true (fun e he => by cases he) (only_ok _)
  | error e =>
    rw [only_error_iff]
    exact ⟨fun h => h e rfl, fun h e' he => by cases he; exact h⟩

end steps

/-- **Raw errors.** From any rows the tables can hold, a transaction of `reserve` or `commit` goes
on, returns, or throws an `AgentBudgetError` with every row unchanged, exactly where it `Fits`:
elsewhere a sum leaves the range of `integer`, or a row is missing or refused. -/
theorem classified_iff (s : System) (hs : s.Stored) (a : Label)
    (ha : a.reservesOrCommits = true) : Classified s a ↔ Fits s a := by
  cases a with
  | reserveRead call env input => exact iff_of_true (classified_reserveRead hs input) trivial
  | reserveClaim call env newId => exact classified_reserveClaim_iff hs newId
  | reserveRecover call env => exact classified_reserveRecover_iff hs
  | commit env input => exact classified_commit_iff hs input
  | _ => cases ha

/-- A ledger with room for every unit an `integer` holds, and a request for one step more than
`int4Max` units in all: each dimension fits. -/
def overflowRun : List Label :=
  let env : Env := { dbNow := 1786795200000, processNow := 1786795200000 }
  [.createOrLoad env 7
    { tenantId := 1, caseId := 3, workflowRunId := "run-1", stepLimit := .int 2147483647,
      tokenLimit := .int 2147483647, providerCallLimit := .int 10, costLimitMinorUnits := .int 100,
      currency := "USD", startedAt := 1786795000000, deadlineAt := 1786799000000 },
   .reserveRead 0 env
    { tenantId := 1, ledgerId := 7, idempotencyKey := "key", expectedVersion := 1,
      units := ⟨.int 1, .int 2147483647, .int 0, .int 0⟩ }]

/-- **The row's own sum overflows.** The claim passes its ledger's update, and the CHECK
constraint of the reservation raises 22003. -/
theorem unit_sum_raises :
    ¬ ∀ (tenants : Table Tenant Tenant.id) (run : List Label) (a : Label),
      a.reservesOrCommits = true → Classified (exec step (System.init tenants) run) a := by
  intro h
  have hclaim := h .empty overflowRun (.reserveClaim 0 ⟨1786795200000, 1786795200000, 0⟩ 9) rfl
    (.database .numericValueOutOfRange) rfl
  exact not_own_database _ hclaim.1

/-- The run leaves one new ledger and the first call at its claim. -/
theorem overflowRun_stored : (exec step (System.init .empty) overflowRun).Stored := by
  refine ⟨⟨fun l hl => ?_, fun u hu => absurd hu List.not_mem_nil,
    fun r hr => absurd hr List.not_mem_nil, fun r hr => absurd hr List.not_mem_nil⟩,
    fun call input units hcall => ?_⟩
  · obtain rfl := List.mem_singleton.mp hl
    refine ⟨rfl, by decide, fun d => ?_⟩
    cases d <;> decide
  · by_cases hcall0 : call = 0
    · subst hcall0
      cases hcall
      rfl
    · have hidle : (exec step (System.init .empty) overflowRun).calls call = .idle :=
        Function.update_of_ne hcall0 _ _
      rw [hidle] at hcall
      cases hcall

theorem classified_iff_overflowRun :
    ¬Fits (exec step (System.init .empty) overflowRun)
      (.reserveClaim 0 ⟨1786795200000, 1786795200000, 0⟩ 9) := by
  intro h
  have hclassified := (classified_iff _ overflowRun_stored _ rfl).mpr h
    (.database .numericValueOutOfRange) rfl
  exact not_own_database _ hclassified.1

end MortgageAgent.Budget
