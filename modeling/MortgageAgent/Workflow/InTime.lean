import MortgageAgent.Budget.Growth
import MortgageAgent.Lib.Rely
import MortgageAgent.Workflow.Evaluation

/-!
# An evaluation in time

An evaluation runs under the budget ledger of its workflow run, which `createOrLoad` makes for the
first evaluation of the run and returns as it is to every later one. As long as the clocks are
before that ledger's deadline, whatever else happens to the store, no check of the run's time
fails: neither the runtime's own nor the ledger's.

* **`DeadlineReason`** — the reasons of the reviews that the deadline asks for.
* **`BudgetGrows`** — what everyone does to the budget: no row goes away.
* **`InTime`** / **`evaluating`** — the setting of an evaluation whose clocks are in time.
* **`TimeLeft`** — what such an evaluation knows of its budget.
* **`evaluateConditions_assures`** — it asks for no manual review on account of the deadline.
-/

namespace MortgageAgent.Workflow

open Budget (AgentBudgetSnapshot AgentBudgetReservationReceipt Grows)
open Proc (OnReturn onReturn_bind onReturn_trivial)

/-! ## Reviews for the deadline -/

/-- How the reason of a review begins that the deadline has asked for. -/
def deadlineReasons : List String :=
  ["[BUDGET_OR_DEADLINE_EXHAUSTED] runDeadlineAt (",
    "[BUDGET_OR_DEADLINE_EXHAUSTED] DEADLINE_EXCEEDED: "]

def DeadlineReason (reason : String) : Prop :=
  ∃ start ∈ deadlineReasons, start.toList <+: reason.toList

instance (reason : String) : Decidable (DeadlineReason reason) := by
  unfold DeadlineReason
  infer_instance

section Reasons

theorem not_prefix_of_take_ne {l₁ l₂ l₃ : List Char} (k : Nat) (h₁ : k ≤ l₁.length)
    (h₂ : k ≤ l₂.length) (hne : l₁.take k ≠ l₂.take k) : ¬l₁ <+: l₂ ++ l₃ := by
  rintro ⟨t, ht⟩
  apply hne
  have htake := congrArg (List.take k) ht
  rwa [List.take_append_of_le_length h₁, List.take_append_of_le_length h₂] at htake

/-- The categories differ in their second letter. -/
theorem not_deadlineReason_of_category {category : MandatoryReviewCategory}
    (h : category ≠ .BUDGET_OR_DEADLINE_EXHAUSTED) (detail : String) :
    ¬DeadlineReason (classifyMandatoryReviewTrigger category detail).reason := by
  rintro ⟨start, hstart, hprefix⟩
  have hreason : (classifyMandatoryReviewTrigger category detail).reason.toList
      = ("[" ++ category.text).toList ++ ("] " ++ detail).toList := by
    simp [classifyMandatoryReviewTrigger, String.toList_append]
  rw [hreason] at hprefix
  revert hprefix
  apply not_prefix_of_take_ne 2 <;> revert start hstart <;> cases category <;>
    first | exact absurd rfl h | decide

theorem not_deadlineReason_of_steps :
    ¬DeadlineReason (classifyMandatoryReviewTrigger .BUDGET_OR_DEADLINE_EXHAUSTED
      "remainingStepBudget exhausted").reason := by
  decide +kernel

/-- The codes differ from the deadline's, and from the local check's text, in one letter or two. -/
theorem not_deadlineReason_of_code {code : Budget.AgentBudgetFailureCode}
    (h : code ≠ .DEADLINE_EXCEEDED) (message : String) :
    ¬DeadlineReason (classifyMandatoryReviewTrigger .BUDGET_OR_DEADLINE_EXHAUSTED
      (budgetCodeText code ++ ": " ++ message)).reason := by
  rintro ⟨start, hstart, hprefix⟩
  have hreason : (classifyMandatoryReviewTrigger .BUDGET_OR_DEADLINE_EXHAUSTED
        (budgetCodeText code ++ ": " ++ message)).reason.toList
      = ("[BUDGET_OR_DEADLINE_EXHAUSTED] " ++ budgetCodeText code).toList
        ++ (": " ++ message).toList := by
    simp [classifyMandatoryReviewTrigger, MandatoryReviewCategory.text, String.toList_append]
  rw [hreason] at hprefix
  revert hprefix
  apply not_prefix_of_take_ne 32 <;> revert start hstart <;> cases code <;>
    first | exact absurd rfl h | decide

end Reasons

/-! ## The setting of an evaluation -/

/-- Whatever happens to the budget, its rows stay. -/
def BudgetGrows (db db' : Db) : Prop := Grows db.budget db'.budget

theorem budgetGrows_of_eq {db db' : Db} (h : db'.budget = db.budget) : BudgetGrows db db' := by
  unfold BudgetGrows
  rw [h]
  exact .refl _

theorem writeCondition_budget {ref : CaseRef} {args : CreateConditionArgs} {i : Input} {db db' : Db}
    {r : CreateConditionResult} (h : writeCondition ref args i db = .ok (db', r)) :
    db'.budget = db.budget := by
  obtain ⟨conditions, c, -, -, -, -, rfl⟩ := writeCondition_ok h
  rfl

theorem setCaseStatus_budget (ref : CaseRef) (status : CaseStatus) (db : Db) :
    (db.setCaseStatus ref status).budget = db.budget := by
  unfold Db.setCaseStatus
  split <;> rfl

theorem finalizeReady_budget {ref : CaseRef} {version : Option Nat} {db db' : Db}
    (h : finalizeReadyForUnderwriting ref version db = .ok db') : db'.budget = db.budget := by
  unfold finalizeReadyForUnderwriting at h
  cases version with
  | none =>
    cases h
    exact setCaseStatus_budget ref _ db
  | some version =>
    dsimp only at h
    split at h
    · rename_i db₁ hset
      obtain ⟨c, -, -, rfl⟩ := setCaseStatusAt_some hset
      cases h
      rfl
    · cases h

instance : AllowsDecision BudgetGrows where
  refl _ := .refl _
  createOrLoad _ _ _ _ := (Budget.createOrLoad_effect _ _ _ _).grows
  claim := Budget.reserveClaim_grows
  commit := Budget.commit_grows
  release := Budget.release_grows
  markUnknown := Budget.markUnknown_grows
  manifests _ _ := .refl _
  invocations _ _ := .refl _
  agentRuns _ _ := .refl _
  opens h := budgetGrows_of_eq (writeCondition_budget h)
  readies h := budgetGrows_of_eq (finalizeReady_budget h)

/-- The clocks are before the deadline of the workflow run's ledger. -/
def InTime (ref : CaseRef) (workflowRunId : String) (i : Input) (db : Db) : Prop :=
  ∀ l ∈ db.budget.ledgers.rows, l.tenantId = ref.tenantId → l.workflowRunId = workflowRunId →
    i.env.processNow < l.deadlineAt ∧ i.env.dbNow < l.deadlineAt

instance (ref : CaseRef) (workflowRunId : String) (i : Input) (db : Db) :
    Decidable (InTime ref workflowRunId i db) := by
  unfold InTime
  infer_instance

/-- Not the ledger's own refusal for the deadline. -/
def NotLate (e : Failure) : Prop := ∀ message, e ≠ .agentBudgetError .DEADLINE_EXCEEDED message

/-- An evaluation in time, among others that keep the rows of the budget. -/
def evaluating (ref : CaseRef) (workflowRunId : String) : Setting Input Db Failure where
  others := BudgetGrows
  meets i _ db := InTime ref workflowRunId i db
  reports := NotLate
  others_refl _ := .refl _
  others_trans h h' := h.trans h'

section Evaluation

variable {ref : CaseRef} {workflowRunId : String}

/-- A ledger of the workflow run, with its deadline. -/
def Owns (ref : CaseRef) (workflowRunId : String) (ledgerId : Uuid) (deadlineAt : Instant)
    (db : Db) : Prop :=
  ∃ l ∈ db.budget.ledgers.rows, l.id = ledgerId ∧ l.tenantId = ref.tenantId
    ∧ l.workflowRunId = workflowRunId ∧ l.deadlineAt = deadlineAt

/-- The reservation is one of this ledger's. -/
def HeldIn (ledgerId reservationId : Uuid) (db : Db) : Prop :=
  ∃ r ∈ db.budget.reservations.rows, r.id = reservationId ∧ r.ledgerId = ledgerId

/-- What an evaluation that is in time knows of its budget. -/
def TimeLeft (ref : CaseRef) (workflowRunId : String) (st : AgentState) (db : Db) : Prop :=
  0 < st.remainingDurationBudgetMs
    ∧ Owns ref workflowRunId st.budgetLedgerId st.runDeadlineAt db

theorem Owns.grows {ledgerId : Uuid} {deadlineAt : Instant} {db db' : Db}
    (h : Owns ref workflowRunId ledgerId deadlineAt db) (hgrows : BudgetGrows db db') :
    Owns ref workflowRunId ledgerId deadlineAt db' := by
  obtain ⟨l, hl, hid, htenant, hrun, hdeadline⟩ := h
  obtain ⟨l', hl', hsame⟩ := hgrows.ledger l hl
  exact ⟨l', hl', hsame.id.trans hid, hsame.tenantId.trans htenant,
    hsame.workflowRunId.trans hrun, hsame.deadlineAt.trans hdeadline⟩

theorem HeldIn.grows {ledgerId reservationId : Uuid} {db db' : Db}
    (h : HeldIn ledgerId reservationId db) (hgrows : BudgetGrows db db') :
    HeldIn ledgerId reservationId db' := by
  obtain ⟨r, hr, hid, hledger⟩ := h
  obtain ⟨r', hr', hsame⟩ := hgrows.reservation r hr
  exact ⟨r', hr', hsame.id.trans hid, hsame.ledgerId.trans hledger⟩

theorem TimeLeft.grows {st : AgentState} {db db' : Db} (h : TimeLeft ref workflowRunId st db)
    (hgrows : BudgetGrows db db') : TimeLeft ref workflowRunId st db' :=
  ⟨h.1, h.2.grows hgrows⟩

theorem TimeLeft.notLate {st : AgentState} {db : Db} (h : TimeLeft ref workflowRunId st db)
    {i : Input} (hi : InTime ref workflowRunId i db) : i.env.processNow < st.runDeadlineAt := by
  obtain ⟨l, hl, -, htenant, hrun, hdeadline⟩ := h.2
  rw [← hdeadline]
  exact (hi l hl htenant hrun).1

/-- The ledger's row, as a receipt shows it in time. -/
theorem timeLeft_snapshot {ledgerId : Uuid} {deadlineAt : Instant} {db : Db} {i : Input}
    (h : Owns ref workflowRunId ledgerId deadlineAt db) (hi : InTime ref workflowRunId i db)
    {l : Budget.AgentBudgetLedger} (hl : l ∈ db.budget.ledgers.rows) (hid : l.id = ledgerId)
    (st : AgentState) :
    TimeLeft ref workflowRunId (applyBudgetSnapshot st (Budget.snapshot l i.env)) db := by
  obtain ⟨l₀, hl₀, hid₀, htenant, hrun, hdeadline⟩ := h
  have hsame : l = l₀ := db.budget.ledgers.eq_of_key_eq hl hl₀ (hid.trans hid₀.symm)
  subst hsame
  have hclock := (hi l hl htenant hrun).1
  refine ⟨?_, l, hl, rfl, htenant, hrun, rfl⟩
  show 0 < max 0 (l.deadlineAt - i.env.processNow)
  exact lt_max_of_lt_right (Int.sub_pos_of_lt hclock)

/-! ## The ledger's calls -/

/-- The code returned what `Q` says, or threw something else than the ledger's refusal for the
deadline, and then `K` still holds. -/
def Answers {α : Type} (K : Db → Prop) (Q : α → Db → Prop) : Except Failure α → Db → Prop
  | .ok a, db => Q a db
  | .error e, db => NotLate e ∧ K db

theorem notLate_ofBudget {e : Budget.BudgetFailure}
    (h : Budget.InTime (.error e : Except Budget.BudgetFailure Unit)) : NotLate (.ofBudget e) := by
  intro message he
  cases e with
  | agentBudgetError code text =>
    cases he
    exact h message rfl
  | entityNotFound => cases he
  | database error => cases he

theorem budgetCall_assures {α : Type} {Q : α → Db → Prop} {K : Db → Prop} {s : Db}
    {t : Input → Budget.Db → Except Budget.BudgetFailure (Budget.Db × α)}
    (hkeeps : (budgetCall t).Keeps BudgetGrows)
    (hK : ∀ db db', BudgetGrows db db' → K db → K db') (hs : K s)
    (hok : ∀ db i budget a, K db → t i db.budget = .ok (budget, a) →
      InTime ref workflowRunId i { db with budget } → Q a { db with budget })
    (herror : ∀ db i, K db → InTime ref workflowRunId i db → Budget.InTime (t i db.budget)) :
    (budgetCall t).Assures (evaluating ref workflowRunId) (Answers K Q) s := by
  apply Proc.assures_tx hkeeps
  · intro db i hothers hmeets
    have hdb := hK s db hothers hs
    cases ht : t i db.budget with
    | ok r =>
      simp only [ht] at hmeets ⊢
      exact hok db i _ _ hdb ht hmeets
    | error e =>
      simp only [ht] at hmeets ⊢
      refine ⟨notLate_ofBudget ?_, hdb⟩
      intro message he
      cases he
      exact herror db i hdb hmeets message ht
  · exact fun e db hothers he => ⟨he, hK s db hothers hs⟩

/-- A call that only reads. -/
theorem budgetRead_assures {α : Type} {Q : α → Db → Prop} {K : Db → Prop} {s : Db}
    {t : Input → Budget.Db → Except Budget.BudgetFailure α}
    (hK : ∀ db db', BudgetGrows db db' → K db → K db') (hs : K s)
    (hok : ∀ db i a, K db → t i db.budget = .ok a → InTime ref workflowRunId i db → Q a db)
    (herror : ∀ db i, Budget.InTime (t i db)) :
    (budgetCall fun i db => (t i db).map (db, ·)).Assures (evaluating ref workflowRunId)
      (Answers K Q) s := by
  apply budgetCall_assures (budgetRead_keeps _) hK hs
  · intro db i budget a hdb hcall hi
    cases ht : t i db.budget with
    | error e => rw [ht] at hcall; cases hcall
    | ok b =>
      rw [ht] at hcall
      cases hcall
      exact hok db i _ hdb ht hi
  · intro db i _ _ message h
    cases ht : t i db.budget with
    | error e =>
      rw [ht] at h
      cases h
      exact herror _ i message ht
    | ok b => rw [ht] at h; cases h

/-- What a receipt for a reservation of the run's ledger tells. -/
def ReceiptInTime (ref : CaseRef) (workflowRunId : String) (st : AgentState)
    (receipt : AgentBudgetReservationReceipt) (db : Db) : Prop :=
  TimeLeft ref workflowRunId (applyBudgetSnapshot st receipt.ledger) db
    ∧ HeldIn receipt.ledger.ledgerId receipt.reservationId db

section Calls

variable {st : AgentState} {s : Db} {input : Budget.ReserveInput}

/-- A receipt shows the ledger's row as it is. -/
theorem receiptInTime_of_shows (h : TimeLeft ref workflowRunId st s) {i : Input}
    (hi : InTime ref workflowRunId i s) {receipt : AgentBudgetReservationReceipt}
    (hshows : Budget.ReceiptShows st.budgetLedgerId s.budget i.env receipt) :
    ReceiptInTime ref workflowRunId st receipt s := by
  obtain ⟨l, hl, hid, hledger⟩ := hshows.shown
  constructor
  · rw [hledger]
    exact timeLeft_snapshot h.2 hi hl hid st
  · rw [hshows.ledger]
    exact hshows.reservation

/-- **`reserve`** of an evaluation in time. -/
theorem reserve_assures (h : TimeLeft ref workflowRunId st s)
    (hledger : input.ledgerId = st.budgetLedgerId) :
    (reserve input).Assures (evaluating ref workflowRunId)
      (Answers (TimeLeft ref workflowRunId st)
        (ReceiptInTime ref workflowRunId st)) s := by
  have hK : ∀ db db', BudgetGrows db db' → TimeLeft ref workflowRunId st db →
      TimeLeft ref workflowRunId st db' := fun _ _ hgrows hdb => hdb.grows hgrows
  -- the clock is before the deadline of whatever ledger the claim finds
  have hclock : ∀ (db : Db) (i : Input), TimeLeft ref workflowRunId st db →
      InTime ref workflowRunId i db → ∀ l, db.budget.findLedger input.ledgerId input.tenantId
        = some l → i.env.processNow < l.deadlineAt := by
    intro db i hdb hi l hl
    obtain ⟨hmem, hid, -⟩ := Budget.findLedger_some hl
    obtain ⟨l₀, hl₀, hid₀, htenant, hrun, -⟩ := hdb.2
    have hsame : l = l₀ :=
      db.budget.ledgers.eq_of_key_eq hmem hl₀ (hid.trans (hledger.trans hid₀.symm))
    rw [hsame]
    exact (hi l₀ hl₀ htenant hrun).1
  unfold reserve
  cases hvalid : Budget.validateReserve input with
  | error e =>
    refine ⟨notLate_ofBudget ?_, h⟩
    intro message he
    cases he
    exact Budget.inTime_validateReserve input message hvalid
  | ok units =>
    have hread : (budgetCall fun i db =>
        (Budget.reservePreRead db i.env input units).map (db, ·)).Assures
          (evaluating ref workflowRunId) (Answers (TimeLeft ref workflowRunId st)
            fun found db => TimeLeft ref workflowRunId st db ∧ ∀ receipt, found = some receipt →
              ReceiptInTime ref workflowRunId st receipt db) s := by
      apply budgetRead_assures hK h
      · intro db i found hdb hcall hi
        refine ⟨hdb, ?_⟩
        intro receipt hfound
        rw [hfound] at hcall
        obtain ⟨hshows, -⟩ := Budget.reservePreRead_shows hcall
        rw [hledger] at hshows
        exact receiptInTime_of_shows hdb hi hshows
      · intro db i
        exact Budget.inTime_reservePreRead _ _ _ _
    apply hread.bind
    · rintro found db ⟨hdb, hfound⟩
      cases found with
      | some receipt => exact hfound receipt rfl
      | none =>
        have hclaim : (budgetCall fun i db =>
            Budget.reserveClaim db i.env i.newId input units).Assures
              (evaluating ref workflowRunId) (Answers (TimeLeft ref workflowRunId st)
                (ReceiptInTime ref workflowRunId st)) db := by
          apply budgetCall_assures (budgetCall_keeps fun _ _ _ _ h => AllowsRun.claim h) hK hdb
          · intro db i budget receipt hdb hcall hi
            have hgrows : BudgetGrows db { db with budget } := Budget.reserveClaim_grows hcall
            obtain ⟨hshows, -⟩ := Budget.reserveClaim_shows hcall
            rw [hledger] at hshows
            exact receiptInTime_of_shows (hdb.grows hgrows) hi hshows
          · intro db i hdb hi
            exact Budget.inTime_reserveClaim (hclock db i hdb hi)
        apply hclaim.rescue
        · rintro e db ⟨he, hdb⟩
          split
          · apply budgetRead_assures hK hdb
            · intro db i receipt hdb hcall hi
              obtain ⟨hshows, -⟩ := Budget.reserveRecover_shows hcall
              rw [hledger] at hshows
              exact receiptInTime_of_shows hdb hi hshows
            · intro db i
              exact Budget.inTime_reserveRecover _ _ _ _
          · exact ⟨he, hdb⟩
        · exact fun _ _ hreceipt => hreceipt
    · exact fun e db he => he

/-- **`commit`** of a reservation of the run's ledger. -/
theorem commit_assures (h : TimeLeft ref workflowRunId st s) {input : Budget.CommitInput}
    (hheld : HeldIn st.budgetLedgerId input.reservationId s)
    (hmanual : input.requireUnknown = false) :
    (commit input).Assures (evaluating ref workflowRunId)
      (Answers (fun _ => True) fun receipt db => ∀ st' : AgentState,
        TimeLeft ref workflowRunId (applyBudgetSnapshot st' receipt.ledger) db) s := by
  have hcall : (commit input).Assures (evaluating ref workflowRunId)
      (Answers (fun db => TimeLeft ref workflowRunId st db
          ∧ HeldIn st.budgetLedgerId input.reservationId db)
        fun receipt db => ∀ st' : AgentState,
          TimeLeft ref workflowRunId (applyBudgetSnapshot st' receipt.ledger) db) s := by
    apply budgetCall_assures (commit_keeps _)
    · rintro db db' hgrows ⟨hdb, hheld⟩
      exact ⟨hdb.grows hgrows, hheld.grows hgrows⟩
    · exact ⟨h, hheld⟩
    · rintro db i budget receipt ⟨hdb, hheld⟩ hcommit hi st'
      have hgrows : BudgetGrows db { db with budget } := Budget.commit_grows hcommit
      obtain ⟨r, l, hr, hid, hl, hlid, hledger⟩ := Budget.commit_receipt hcommit
      obtain ⟨r₀, hr₀, hid₀, hin⟩ := hheld
      have hsame : r = r₀ := db.budget.reservations.eq_of_key_eq hr hr₀ (hid.trans hid₀.symm)
      rw [hledger]
      apply timeLeft_snapshot (hdb.grows hgrows).2 hi hl
      rw [hlid, hsame, hin]
    · intro db i _ _
      exact Budget.inTime_commit _ _ _ hmanual
  apply hcall.imp
  intro r db hr
  cases r with
  | ok receipt => exact hr
  | error e => exact ⟨hr.1, trivial⟩

end Calls

/-! ## Tools and runtime steps -/

/-- A fact about the budget's rows that no one takes back. -/
def Lasting (K : Db → Prop) : Prop := ∀ db db', BudgetGrows db db' → K db → K db'

theorem timeLeft_lasting (st : AgentState) : Lasting (TimeLeft ref workflowRunId st) :=
  fun _ _ hgrows h => h.grows hgrows

/-- The frame rule at an evaluation's setting. -/
theorem keeps_onReturn {α : Type} {p : Act α} {K : Db → Prop} {s : Db}
    (hp : p.Keeps BudgetGrows) (hK : Lasting K) (hs : K s) :
    p.Assures (evaluating ref workflowRunId) (OnReturn fun _ => K) s :=
  Proc.Keeps.onReturn hp hK hs

/-- A refusal by the ledger becomes a review, which is not for the deadline. -/
theorem onBudgetError_assures {α : Type} {p : Act α} {handler : MandatoryReviewTrigger → Act α}
    {K : Db → Prop} {Q : α → Db → Prop} {s : Db}
    (hp : p.Assures (evaluating ref workflowRunId) (Answers K Q) s)
    (hh : ∀ trigger db, ¬DeadlineReason trigger.reason →
      (handler trigger).Assures (evaluating ref workflowRunId) (OnReturn Q) db) :
    (onBudgetError p handler).Assures (evaluating ref workflowRunId) (OnReturn Q) s := by
  apply hp.rescue
  · rintro e db ⟨he, -⟩
    cases e with
    | agentBudgetError code message =>
      apply hh
      apply not_deadlineReason_of_code
      intro hcode
      rw [hcode] at he
      exact he message rfl
    | _ => trivial
  · exact fun _ _ hQ => hQ

section Tools

variable {st : AgentState} {s : Db}

theorem budgetExceeded_assures (h : TimeLeft ref workflowRunId st s) :
    (budgetExceeded st).Assures (evaluating ref workflowRunId) (OnReturn fun exceeded db =>
      TimeLeft ref workflowRunId st db
        ∧ ∀ trigger, exceeded = some trigger → ¬DeadlineReason trigger.reason) s := by
  unfold budgetExceeded
  split
  · refine ⟨h, ?_⟩
    intro trigger htrigger
    cases htrigger
    exact not_deadlineReason_of_steps
  · have hask : (Proc.ask fun i => i.env.processNow : Act Instant).Assures
        (evaluating ref workflowRunId) (OnReturn fun now db =>
          TimeLeft ref workflowRunId st db ∧ now < st.runDeadlineAt) s := by
      have hkeeps : (Proc.ask fun i => i.env.processNow : Act Instant).Keeps BudgetGrows :=
        ask_keeps _
      apply Proc.assures_tx hkeeps
      · intro db i hothers hi
        have hdb : TimeLeft ref workflowRunId st db := h.grows hothers
        exact ⟨hdb, hdb.notLate hi⟩
      · exact fun _ _ _ _ => trivial
    apply onReturn_bind hask
    rintro now db ⟨hdb, hnow⟩
    have hduration : ¬st.remainingDurationBudgetMs ≤ 0 := not_le.mpr h.1
    have hdeadline : ¬st.runDeadlineAt ≤ now := not_le.mpr hnow
    simp only [hduration, hdeadline, decide_false, Bool.or_self]
    refine ⟨hdb, ?_⟩
    intro trigger htrigger
    cases htrigger

/-- What a budgeted tool returns to the node that called it. -/
def BudgetedInTime {α : Type} (ref : CaseRef) (workflowRunId : String) :
    BudgetedToolResult α → Db → Prop
  | .ok st _, db => TimeLeft ref workflowRunId st db
  | .refused _ trigger, _ => ¬DeadlineReason trigger.reason

theorem invokeTool_assures {α : Type} {execute : Act α} {K : Db → Prop}
    (hkeeps : execute.Keeps BudgetGrows) (hK : Lasting K) (hs : K s) :
    (invokeTool execute).Assures (evaluating ref workflowRunId)
      (Answers (fun _ => True) fun _ => K) s := by
  have hbody : (execute.bind fun a => Proc.done (.ok a) : Act (Except String α)).Assures
      (evaluating ref workflowRunId) (fun _ => K) s :=
    Proc.Keeps.assures (hkeeps.bind fun _ => Proc.keeps_done _) hK hs
  apply hbody.rescue
  · intro e db hdb
    cases e with
    | stopped =>
      refine ⟨?_, trivial⟩
      intro message he
      cases he
    | _ => exact hdb
  · exact fun _ _ hdb => hdb

theorem quarantine_assures {α : Type} (ctx : RunContext) (name : String)
    (reservation : AgentBudgetReservationReceipt) :
    (quarantine ctx st name reservation : Act (BudgetedToolResult α)).Assures
      (evaluating ref workflowRunId)
      (Answers (fun _ => True) (BudgetedInTime ref workflowRunId)) s := by
  have hrefused : ∀ detail, ¬DeadlineReason
      (classifyMandatoryReviewTrigger .TOOL_EXECUTION_FAILURE detail).reason :=
    not_deadlineReason_of_category (by decide)
  unfold quarantine
  split
  · have hunknown : (markUnknown ctx.ref.tenantId reservation.reservationId).Assures
        (evaluating ref workflowRunId) (Answers (fun _ => True) fun _ _ => True) s := by
      apply budgetCall_assures (markUnknown_keeps _ _) (fun _ _ _ _ => trivial) trivial
      · exact fun _ _ _ _ _ _ _ => trivial
      · intro db i _ _
        exact Budget.inTime_markUnknown _ _ _ _
    apply hunknown.bind
    · intro unknown db _
      exact hrefused _
    · exact fun _ _ he => he
  · exact hrefused _

/-- **A budgeted tool** of an evaluation in time. -/
theorem invokeBudgetedTool_assures {α : Type} (ctx : RunContext) {tool : AgentTool α}
    (htool : tool.execute.Keeps BudgetGrows) (h : TimeLeft ref workflowRunId st s) :
    (invokeBudgetedTool ctx st tool).Assures (evaluating ref workflowRunId)
      (OnReturn (BudgetedInTime ref workflowRunId)) s := by
  apply onReturn_bind (budgetExceeded_assures h)
  rintro exceeded db ⟨hdb, hexceeded⟩
  cases exceeded with
  | some trigger => exact hexceeded trigger rfl
  | none =>
    apply onBudgetError_assures (K := fun _ => True)
    · apply (reserve_assures hdb rfl).bind
      · rintro reservation db ⟨hleft, hheld⟩
        dsimp only
        split
        · exact quarantine_assures ctx tool.name reservation
        · have hlasting : Lasting fun db => TimeLeft ref workflowRunId
                (applyBudgetSnapshot st reservation.ledger) db
              ∧ HeldIn reservation.ledger.ledgerId reservation.reservationId db :=
            fun _ _ hgrows hk => ⟨hk.1.grows hgrows, hk.2.grows hgrows⟩
          apply (invokeTool_assures htool hlasting ⟨hleft, hheld⟩).bind
          · rintro invocation db ⟨hleft, hheld⟩
            have hcommit : (commit {
                tenantId := ctx.ref.tenantId
                reservationId := reservation.reservationId
                actualCostMinorUnits := some (.int 0) }).Assures (evaluating ref workflowRunId)
                _ db := commit_assures hleft hheld rfl
            apply hcommit.bind
            · intro committed db hcommitted
              exact hcommitted _
            · exact fun _ _ he => he
          · exact fun _ _ he => he
      · exact fun _ _ he => ⟨he.1, trivial⟩
    · intro trigger db htrigger
      exact htrigger

theorem consumeBudgetedRuntimeStep_assures (ctx : RunContext) (name : String)
    (h : TimeLeft ref workflowRunId st s) :
    (consumeBudgetedRuntimeStep ctx st name).Assures (evaluating ref workflowRunId)
      (OnReturn fun r db => (∀ st', r = .ok st' → TimeLeft ref workflowRunId st' db)
        ∧ ∀ trigger, r = .error trigger → ¬DeadlineReason trigger.reason) s := by
  apply onReturn_bind (budgetExceeded_assures h)
  rintro exceeded db ⟨hdb, hexceeded⟩
  cases exceeded with
  | some trigger =>
    refine ⟨fun st' hst => (by cases hst), ?_⟩
    intro trigger' htrigger
    cases htrigger
    exact hexceeded trigger rfl
  | none =>
    apply onBudgetError_assures (K := fun _ => True)
    · apply (reserve_assures hdb rfl).bind
      · rintro reservation db ⟨hleft, hheld⟩
        have hcommit : (commit {
            tenantId := ctx.ref.tenantId
            reservationId := reservation.reservationId }).Assures (evaluating ref workflowRunId)
            _ db := commit_assures hleft hheld rfl
        apply hcommit.bind
        · intro committed db hcommitted
          refine ⟨?_, fun trigger htrigger => (by cases htrigger)⟩
          intro st' hst
          cases hst
          exact hcommitted st
        · exact fun _ _ he => he
      · exact fun _ _ he => ⟨he.1, trivial⟩
    · intro trigger db htrigger
      refine ⟨fun st' hst => (by cases hst), ?_⟩
      intro trigger' heq
      cases heq
      exact htrigger

end Tools

/-! ## The nodes -/

section Nodes

variable {st : AgentState} {s : Db}

/-- A node's end that is not a review for the deadline, or what it goes on with. -/
def NodeInTime {α : Type} (Q : α → Db → Prop) : Except NodeEnd α → Db → Prop
  | .ok a, db => Q a db
  | .error (.review _ trigger), _ => ¬DeadlineReason trigger.reason
  | .error (.awaitingInformation _), _ => True

/-- A run's result that is not a review for the deadline. -/
def ResultInTime (result : AgentRunResult) : Prop :=
  ∀ trigger, result.trigger = some trigger → ¬DeadlineReason trigger.reason

theorem resultInTime_review {trigger : MandatoryReviewTrigger} (st : AgentState)
    (h : ¬DeadlineReason trigger.reason) : ResultInTime (.ended (.review st trigger)) := by
  intro trigger' htrigger
  cases htrigger
  exact h

theorem resultInTime_proposed (st : AgentState) (action : Option ProposedAction) :
    ResultInTime (.proposedAction st action) := by
  intro trigger htrigger
  cases htrigger

theorem toolFailure_inTime (detail : String) : ¬DeadlineReason
    (classifyMandatoryReviewTrigger .TOOL_EXECUTION_FAILURE detail).reason :=
  not_deadlineReason_of_category (by decide) detail

theorem checkCompletenessNode_assures (ctx : RunContext) (h : TimeLeft ref workflowRunId st s) :
    (checkCompletenessNode ctx st).Assures (evaluating ref workflowRunId)
      (OnReturn (NodeInTime (TimeLeft ref workflowRunId))) s := by
  have htool : (checkCaseCompletenessTool ctx.ref).execute.Keeps BudgetGrows := by
    dsimp only [checkCaseCompletenessTool]
    exact query_keeps _
  apply onReturn_bind (invokeBudgetedTool_assures ctx htool h)
  intro r db hr
  cases r with
  | refused st trigger => exact hr
  | ok st invocation =>
    dsimp only
    split
    · exact toolFailure_inTime _
    · exact hr
    · trivial

/-- The planner's answer, once its reservation is committed. -/
theorem plannedState_inTime (planner : AgentPlannerPort) (record : AgentModelInvocation) {db : Db}
    (h : TimeLeft ref workflowRunId st db) :
    NodeInTime (TimeLeft ref workflowRunId) (plannedState planner st record) db := by
  unfold plannedState
  dsimp only
  split
  · exact not_deadlineReason_of_category (by decide) _
  · split
    · exact not_deadlineReason_of_category (by decide) _
    · exact h

theorem plannerFailed_assures (ctx : RunContext) (reservation : AgentBudgetReservationReceipt)
    (error : Failure) :
    (plannerFailed ctx st reservation error).Assures (evaluating ref workflowRunId)
      (OnReturn (NodeInTime (TimeLeft ref workflowRunId))) s := by
  have hcategory : plannerErrorCategory error ≠ .BUDGET_OR_DEADLINE_EXHAUSTED := by
    unfold plannerErrorCategory
    split <;> decide
  unfold plannerFailed
  split
  · apply onReturn_bind (keeps_onReturn (K := fun _ => True) (release_keeps _ _)
      (fun _ _ _ _ => trivial) trivial)
    intro released db _
    exact not_deadlineReason_of_category hcategory _
  · exact not_deadlineReason_of_category hcategory _

theorem planNextActionNode_assures (deps : RuntimeDeps) (ctx : RunContext)
    (h : TimeLeft ref workflowRunId st s) :
    (planNextActionNode deps ctx st).Assures (evaluating ref workflowRunId)
      (OnReturn (NodeInTime (TimeLeft ref workflowRunId))) s := by
  unfold planNextActionNode
  cases deps.agentPlanner with
  | none => exact h
  | some planner =>
    have hreserve : (reservePlanner ctx st planner).Assures (evaluating ref workflowRunId)
        (OnReturn (NodeInTime (ReceiptInTime ref workflowRunId st))) s := by
      apply onBudgetError_assures (K := fun _ => True)
      · apply (reserve_assures h rfl).bind
        · exact fun _ _ hreceipt => hreceipt
        · exact fun _ _ he => ⟨he.1, trivial⟩
      · exact fun _ _ htrigger => htrigger
    apply onReturn_bind hreserve
    intro reserved db hreserved
    cases reserved with
    | error reached =>
      cases reached with
      | review st trigger => exact hreserved
      | awaitingInformation st => trivial
    | ok reservation =>
      have hlasting : Lasting (ReceiptInTime ref workflowRunId st reservation) :=
        fun _ _ hgrows hk => ⟨hk.1.grows hgrows, hk.2.grows hgrows⟩
      apply onReturn_bind (keeps_onReturn (query_keeps _) hlasting hreserved)
      intro record db hreserved
      have hbody : (do
          let record ← plannerRecord deps ctx planner record
          let committed ←
            if reservation.status = .COMMITTED then pure reservation
            else commit { tenantId := ctx.ref.tenantId, reservationId := reservation.reservationId }
          return plannedState planner (applyBudgetSnapshot st committed.ledger) record :
            Act (Except NodeEnd AgentState)).Assures (evaluating ref workflowRunId)
          (OnReturn (NodeInTime (TimeLeft ref workflowRunId))) db := by
        apply onReturn_bind (keeps_onReturn (plannerRecord_keeps deps ctx planner record) hlasting
          hreserved)
        intro record db hreserved
        dsimp only
        split
        · exact plannedState_inTime planner record hreserved.1
        · have hcommit : (commit {
              tenantId := ctx.ref.tenantId
              reservationId := reservation.reservationId }).Assures
              (evaluating ref workflowRunId) _ db := commit_assures hreserved.1 hreserved.2 rfl
          apply hcommit.bind
          · intro committed db hcommitted
            exact plannedState_inTime planner record (hcommitted st)
          · exact fun _ _ _ => trivial
      apply hbody.rescue
      · intro e db _
        cases e with
        | stopped => trivial
        | _ => exact plannerFailed_assures ctx reservation _
      · exact fun _ _ hr => hr

theorem evaluatePolicyNode_assures (ctx : RunContext) (h : TimeLeft ref workflowRunId st s) :
    (evaluatePolicyNode ctx st).Assures (evaluating ref workflowRunId)
      (OnReturn (NodeInTime fun r => TimeLeft ref workflowRunId r.1)) s := by
  apply onReturn_bind (budgetExceeded_assures h)
  rintro exceeded db ⟨hdb, hexceeded⟩
  cases exceeded with
  | some trigger => exact hexceeded trigger rfl
  | none =>
    apply onReturn_bind (keeps_onReturn (query_keeps _) (timeLeft_lasting st) hdb)
    intro loanCase db hdb
    apply onReturn_bind (invokeBudgetedTool_assures ctx (answer_keeps _) hdb)
    intro r db hr
    cases r with
    | refused st trigger => exact hr
    | ok st invocation =>
      cases invocation with
      | error e => exact toolFailure_inTime _
      | ok result =>
        dsimp only
        split
        · exact not_deadlineReason_of_category (by decide) _
        · exact hr

theorem draftForCondition_assures (ctx : RunContext) (version : MatchedVersion) (reason : String)
    (conditionId : Uuid) (h : TimeLeft ref workflowRunId st s) :
    (draftForCondition ctx st version reason conditionId).Assures (evaluating ref workflowRunId)
      (OnReturn fun result _ => ResultInTime result) s := by
  apply onReturn_bind (invokeBudgetedTool_assures ctx (answer_keeps _) h)
  intro r db hr
  cases r with
  | refused st trigger => exact resultInTime_review st hr
  | ok st invocation =>
    cases invocation with
    | error e => exact resultInTime_review _ (toolFailure_inTime _)
    | ok messageId => exact resultInTime_proposed _ _

theorem openCondition_assures (ctx : RunContext) (evaluation : EvaluatePolicyResult)
    (version : MatchedVersion) (reason : String) (manifestId : Uuid)
    (h : TimeLeft ref workflowRunId st s) :
    (openCondition ctx st evaluation version reason manifestId).Assures
      (evaluating ref workflowRunId) (OnReturn fun result _ => ResultInTime result) s := by
  apply onReturn_bind (invokeBudgetedTool_assures ctx (createCondition_keeps _ _) h)
  intro r db hr
  cases r with
  | refused st trigger => exact resultInTime_review st hr
  | ok st invocation =>
    cases invocation with
    | error e => exact resultInTime_review _ (toolFailure_inTime _)
    | ok result =>
      cases result with
      | STALE_CASE_VERSION => trivial
      | CREATED id => exact draftForCondition_assures ctx version reason id hr

theorem resolveOutcomeNode_assures (deps : RuntimeDeps) (ctx : RunContext)
    (evaluation : EvaluatePolicyResult) (h : TimeLeft ref workflowRunId st s) :
    (resolveOutcomeNode deps ctx st evaluation).Assures (evaluating ref workflowRunId)
      (OnReturn fun result _ => ResultInTime result) s := by
  apply onReturn_bind (consumeBudgetedRuntimeStep_assures ctx _ h)
  rintro stepped db ⟨hok, herror⟩
  cases stepped with
  | error trigger => exact resultInTime_review st (herror trigger rfl)
  | ok stepped =>
    have hstepped := hok stepped rfl
    dsimp only
    split
    · apply onReturn_bind (keeps_onReturn (assembleManifest_keeps ..) (timeLeft_lasting stepped)
        hstepped)
      intro manifestId db _
      exact resultInTime_proposed _ _
    · apply onReturn_bind (keeps_onReturn (query_keeps _) (timeLeft_lasting stepped) hstepped)
      intro facts db hstepped
      apply onReturn_bind (keeps_onReturn (assembleManifest_keeps ..) (timeLeft_lasting stepped)
        hstepped)
      intro manifestId db hstepped
      split
      · exact resultInTime_proposed _ _
      · exact openCondition_assures ctx evaluation _ _ manifestId hstepped

theorem edge_assures {α : Type} {Q : α → Db → Prop} {node : Act (Except NodeEnd α)}
    {next : α → Act AgentRunResult}
    (hnode : node.Assures (evaluating ref workflowRunId) (OnReturn (NodeInTime Q)) s)
    (hnext : ∀ a db, Q a db → (next a).Assures (evaluating ref workflowRunId)
      (OnReturn fun result _ => ResultInTime result) db) :
    (edge node next).Assures (evaluating ref workflowRunId)
      (OnReturn fun result _ => ResultInTime result) s := by
  apply onReturn_bind hnode
  intro r db hr
  cases r with
  | ok a => exact hnext a db hr
  | error reached =>
    cases reached with
    | review st trigger => exact resultInTime_review st hr
    | awaitingInformation st =>
      intro trigger htrigger
      cases htrigger

theorem graph_assures (deps : RuntimeDeps) (ctx : RunContext)
    (h : TimeLeft ref workflowRunId st s) :
    (graph deps ctx st).Assures (evaluating ref workflowRunId)
      (OnReturn fun result _ => ResultInTime result) s := by
  have hconsent : (pure (verifyConsentNode ctx st) : Act (Except NodeEnd AgentState)).Assures
      (evaluating ref workflowRunId) (OnReturn (NodeInTime (TimeLeft ref workflowRunId))) s := by
    unfold verifyConsentNode
    split
    · exact not_deadlineReason_of_category (by decide) _
    · exact h
  apply edge_assures hconsent
  intro st db h
  apply edge_assures (checkCompletenessNode_assures ctx h)
  intro st db h
  apply edge_assures (planNextActionNode_assures deps ctx h)
  intro st db h
  apply edge_assures (evaluatePolicyNode_assures ctx h)
  rintro ⟨st, evaluation⟩ db h
  exact resolveOutcomeNode_assures deps ctx evaluation h

end Nodes

/-! ## The evaluation -/

section Activity

variable {st : AgentState} {s : Db}

/-- **`createOrLoad`** answers with the workflow run's ledger, of whatever evaluation it is. -/
theorem createOrLoad_assures {input : Budget.AgentBudgetLedgerInput}
    (htenant : input.tenantId = ref.tenantId) (hrun : input.workflowRunId = workflowRunId) :
    (createOrLoad input).Assures (evaluating ref workflowRunId) (OnReturn fun snapshot =>
      TimeLeft ref workflowRunId (initialAgentState snapshot)) s := by
  have hkeeps : (createOrLoad input).Keeps BudgetGrows := createOrLoad_keeps input
  apply Proc.assures_tx hkeeps
  · intro db i _ hi
    dsimp only at hi ⊢
    cases hload : (Budget.createOrLoad db.budget i.env i.newId input).2 with
    | error e => trivial
    | ok snapshot =>
      obtain ⟨l, hl, hl_tenant, hl_run, rfl⟩ := Budget.createOrLoad_snapshot hload
      have htenant' := hl_tenant.trans htenant
      have hrun' := hl_run.trans hrun
      have hclock := (hi l hl htenant' hrun').1
      refine ⟨?_, l, hl, rfl, htenant', hrun', rfl⟩
      show 0 < max 0 (l.deadlineAt - i.env.processNow)
      exact lt_max_of_lt_right (Int.sub_pos_of_lt hclock)
  · exact fun _ _ _ _ => trivial

theorem runAgent_assures (deps : RuntimeDeps) {ctx : RunContext} (hctx : ctx.ref = ref)
    (hrun : ctx.workflowRunId = workflowRunId) (budget : AgentRunBudget) (startedAt : Instant) :
    (runAgent deps ctx budget startedAt).Assures (evaluating ref workflowRunId)
      (OnReturn fun result _ => ResultInTime result) s := by
  have htenant : (ledgerInput ctx budget startedAt).tenantId = ref.tenantId := by
    rw [← hctx]
    rfl
  have hload : (createOrLoad (ledgerInput ctx budget startedAt)).Assures
      (evaluating ref workflowRunId) _ s := createOrLoad_assures htenant hrun
  apply onReturn_bind hload
  intro initialBudget db hleft
  apply onReturn_bind (graph_assures deps ctx hleft)
  intro result db hresult
  apply onReturn_bind (keeps_onReturn (K := fun _ => ResultInTime result)
    (persistAgentRun_keeps ctx result) (fun _ _ _ h => h) hresult)
  intro persisted db hresult
  exact hresult

/-- An answer of the activity that asks for no manual review on account of the deadline. -/
def AnswerInTime (answer : EvaluateConditionsResult) : Prop :=
  ∀ reason, answer = .REVIEW_REQUIRED reason → ¬DeadlineReason reason

theorem concludeEvaluation_assures (ctx : RunContext) {result : AgentRunResult}
    (h : ResultInTime result) :
    (concludeEvaluation ctx result).Assures (evaluating ref workflowRunId)
      (OnReturn fun answer _ => AnswerInTime answer) s := by
  cases result with
  | proposedAction st action =>
    cases action with
    | some action =>
      intro reason hreason
      cases hreason
    | none =>
      apply onReturn_bind (Q := fun _ _ => True) (Proc.assures_trivial ?_ _)
      · intro _ db _
        apply onReturn_bind (Q := fun _ _ => True) (Proc.assures_trivial ?_ _)
        · intro _ db _ reason hreason
          cases hreason
        · exact onReturn_trivial
      · exact onReturn_trivial
  | ended reached =>
    cases reached with
    | awaitingInformation st =>
      intro reason hreason
      cases hreason
      decide
    | review st trigger =>
      dsimp only [concludeEvaluation]
      cases trigger.category.route with
      | ROUTE_TO_MANUAL_REVIEW =>
        intro reason hreason
        cases hreason
        exact h trigger rfl
      | INTERRUPT_FOR_REVIEW =>
        intro reason hreason
        cases hreason

theorem evaluateCase_assures (deps : RuntimeDeps) (caseVersion : Nat) :
    (evaluateCase deps ref workflowRunId caseVersion).Assures (evaluating ref workflowRunId)
      (OnReturn fun answer _ => AnswerInTime answer) s := by
  have hread : ∀ {α : Type} {p : Act α} {db : Db}, p.Keeps BudgetGrows →
      p.Assures (evaluating ref workflowRunId) (OnReturn fun _ _ => True) db :=
    fun hp => keeps_onReturn (K := fun _ => True) hp (fun _ _ _ h => h) trivial
  apply onReturn_bind (hread (ask_keeps _))
  intro consentStatus db _
  apply onReturn_bind (hread (query_keeps _))
  intro tenant db _
  apply onReturn_bind (hread (ask_keeps _))
  intro now db _
  apply onReturn_bind (runAgent_assures deps rfl rfl _ now)
  intro result db hresult
  exact concludeEvaluation_assures _ hresult

/-- **An evaluation in time** asks for no manual review on account of the deadline. -/
theorem evaluateConditions_assures (deps : RuntimeDeps) :
    (evaluateConditions deps ref workflowRunId).Assures (evaluating ref workflowRunId)
      (OnReturn fun answer _ => AnswerInTime answer) s := by
  apply onReturn_bind (keeps_onReturn (K := fun _ => True) (query_keeps _) (fun _ _ _ h => h)
    trivial)
  intro loanCase db _
  exact evaluateCase_assures deps loanCase.version

end Activity

end Evaluation

end MortgageAgent.Workflow
