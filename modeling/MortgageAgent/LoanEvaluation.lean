import Mathlib.Algebra.Order.Round
import Mathlib.Tactic.Linarith
import MortgageAgent.Cases.CreateCase
import MortgageAgent.ModelUnderwriter
import MortgageAgent.Policy.Passages

/-!
# The evaluation of a loan

`LoanService.evaluateLoan` gathers the data of a borrower, has one of the two underwriters decide,
writes a row of `loan_applications` and returns what it has written. A row is written once; the
columns round its numbers, and refuse some of its values.

* **`runUnderwritingAgent`** — the decision, whichever provider makes it.
* **`AgentResult.Sound`** — what the columns and the officer rely on; **`agent_sound`**: any result
  has it, whatever the local model has answered.
* **`numeric`** / **`rowOf`** — the columns, and the row.
* **`evaluations_recorded`** — over any sequence of calls, every row is one of a decision that is
  sound, and each response is recorded in one row.
-/

namespace MortgageAgent.Underwriting

open Cases (loanTypeText)
open Oidc (FetchResult)
open Policy (NonBlankText)
open Workflow (LoanType)

/-! ## The agent -/

inductive DecisionProvider where
  | rules
  | ollama
  deriving DecidableEq

structure PlaidIncomeData (r : Rounding) extends Income r where
  bankAccountAge : r.Num
  incomeStability : r.Num

structure CreditData (r : Rounding) extends CreditBureauData r where
  openAccounts : Nat

structure DocumentData extends DocumentVerificationResult where
  w2Valid : Bool
  payStubValid : Bool
  bankStatementValid : Bool
  taxReturnValid : Bool

/-- What the three integrations return. -/
structure RawIntegrationData (r : Rounding) where
  plaid : PlaidIncomeData r
  credit : CreditData r
  documents : DocumentData

/-- The input, as the checks of its fields let it through. -/
structure EvaluateLoanInput (r : Rounding) where
  borrowerId : String
  requestedAmount : r.Num
  loanType : LoanType
  min_amount : 10000 ≤ requestedAmount.val

structure AgentResult (r : Rounding) where
  decision : UnderwritingDecision
  confidence : ℚ
  reasoning : String
  conditions : List String
  incomeVerified : Bool
  creditScore : r.Num
  documentsValid : Bool
  rawIntegrationData : RawIntegrationData r

inductive LoanError where
  /-- an integration has failed -/
  | integration (message : String)
  | underwriting (error : Ollama.EvaluationError)
  /-- `Failed to save loan application` -/
  | notSaved
  deriving DecidableEq

variable {r : Rounding} (t : NumberText)

def contextOf (input : EvaluateLoanInput r) (data : RawIntegrationData r) :
    UnderwritingContext r where
  requestedAmount := input.requestedAmount
  loanType := loanTypeText input.loanType
  income := data.plaid.toIncome
  credit := data.credit.toCreditBureauData
  documents := data.documents.toDocumentVerificationResult

/-- The decision of the configured provider; `reply` is what the local model would answer. -/
def decisionBy (provider : DecisionProvider) (reply : FetchResult) (ctx : UnderwritingContext r) :
    Except Ollama.EvaluationError UnderwritingModelResponse :=
  match provider with
  | .rules => .ok (evaluate r t ctx)
  | .ollama => Ollama.evaluate r t reply

def assemble (data : RawIntegrationData r) (decision : UnderwritingModelResponse) :
    AgentResult r where
  decision := decision.decision
  confidence := min 1 (max 0 decision.confidence)
  reasoning := decision.reasoning
  conditions := decision.conditions
  incomeVerified := data.plaid.employmentStatus ≠ .UNEMPLOYED ∧ 60 < data.plaid.incomeStability.val
  creditScore := data.credit.creditScore
  documentsValid := data.documents.allDocumentsValid
  rawIntegrationData := data

/-- `integrations` is what `Promise.all` of the three comes to. -/
def runUnderwritingAgent (provider : DecisionProvider) (input : EvaluateLoanInput r)
    (integrations : Except String (RawIntegrationData r)) (reply : FetchResult) :
    Except LoanError (AgentResult r) :=
  match integrations with
  | .error message => .error (.integration message)
  | .ok data =>
    match decisionBy t provider reply (contextOf input data) with
    | .error error => .error (.underwriting error)
    | .ok decision => .ok (assemble data decision)

/-! ## The row -/

inductive LoanDecisionStatus where
  | APPROVED
  | CONDITIONAL
  | DENIED
  | PENDING
  deriving DecidableEq

def UnderwritingDecision.status : UnderwritingDecision → LoanDecisionStatus
  | .APPROVED => .APPROVED
  | .CONDITIONAL => .CONDITIONAL
  | .DENIED => .DENIED

/-- The decimals that the texts of numbers are: in the order of the numbers, and exact for the safe
integers. -/
structure Printing where
  decimal : ℚ → ℚ
  mono : Monotone decimal
  integer : ∀ n : Nat, n ≤ 9007199254740991 → decimal n = n

/-- To the nearest integer, a half away from zero. -/
def roundHalfAway (q : ℚ) : ℤ := if 0 ≤ q then ⌊q + 1 / 2⌋ else -⌊-q + 1 / 2⌋

/-- A `decimal(precision, scale)` column; a number with too many digits is an error. -/
def numeric (precision scale : Nat) (q : ℚ) : Option ℚ :=
  let units := roundHalfAway (q * 10 ^ scale)
  if units.natAbs < 10 ^ precision then some (units / 10 ^ scale) else none

/-- A column of characters, none of which can be zero. -/
def textColumn (s : String) : Option String := if '\x00' ∈ s.toList then none else some s

structure LoanApplication (r : Rounding) where
  id : Uuid
  borrowerId : String
  requestedAmount : ℚ
  loanType : LoanType
  decision : LoanDecisionStatus
  confidence : Option ℚ
  reasoning : Option String
  incomeVerified : Bool
  documentsValid : Bool
  /-- a `simple-json` column -/
  conditions : Option String
  rawIntegrationData : Option (RawIntegrationData r)
  createdAt : Instant

def conditionsJson (conditions : List String) : Json := .arr (conditions.map .str)

/-- What the columns make of the application; `none` where one of them refuses its value. -/
def rowOf (p : Printing) (applicationId : Uuid) (input : EvaluateLoanInput r)
    (result : AgentResult r) (createdAt : Instant) : Option (LoanApplication r) :=
  match textColumn input.borrowerId, numeric 14 2 (p.decimal input.requestedAmount.val),
    numeric 4 3 (p.decimal result.confidence), textColumn result.reasoning with
  | some borrowerId, some requestedAmount, some confidence, some reasoning =>
    some {
      id := applicationId
      borrowerId
      requestedAmount
      loanType := input.loanType
      decision := result.decision.status
      confidence := some confidence
      reasoning := some reasoning
      incomeVerified := result.incomeVerified
      documentsValid := result.documentsValid
      conditions := some (Json.stringify (conditionsJson result.conditions))
      rawIntegrationData := some result.rawIntegrationData
      createdAt }
  | _, _, _, _ => none

/-! ## The service -/

structure LoanEvaluationResult (r : Rounding) where
  applicationId : Uuid
  decision : UnderwritingDecision
  confidence : ℚ
  reasoning : String
  incomeVerified : Bool
  creditScore : r.Num
  documentsValid : Bool
  conditions : List String
  createdAt : Instant

/-- What becomes of the statement that inserts the row: its answer may be lost. -/
inductive Saving where
  | failed
  | written (createdAt : Instant) (answered : Bool)

/-- A call, with what it meets. -/
structure EvaluateCall (r : Rounding) where
  /-- `uuidv4()` -/
  applicationId : Uuid
  provider : DecisionProvider
  input : EvaluateLoanInput r
  integrations : Except String (RawIntegrationData r)
  reply : FetchResult
  saving : Saving

def resultOf (applicationId : Uuid) (result : AgentResult r) (createdAt : Instant) :
    LoanEvaluationResult r where
  applicationId := applicationId
  decision := result.decision
  confidence := result.confidence
  reasoning := result.reasoning
  incomeVerified := result.incomeVerified
  creditScore := result.creditScore
  documentsValid := result.documentsValid
  conditions := result.conditions
  createdAt := createdAt

def saveApplication (p : Printing) (rows : List (LoanApplication r)) (call : EvaluateCall r)
    (result : AgentResult r) :
    List (LoanApplication r) × Except LoanError (LoanEvaluationResult r) :=
  match call.saving with
  | .failed => (rows, .error .notSaved)
  | .written createdAt answered =>
    match rowOf p call.applicationId call.input result createdAt with
    | none => (rows, .error .notSaved)
    | some row =>
      (rows ++ [row], if answered then .ok (resultOf call.applicationId result createdAt)
        else .error .notSaved)

def evaluateLoan (p : Printing) (rows : List (LoanApplication r)) (call : EvaluateCall r) :
    List (LoanApplication r) × Except LoanError (LoanEvaluationResult r) :=
  match runUnderwritingAgent t call.provider call.input call.integrations call.reply with
  | .error error => (rows, .error error)
  | .ok result => saveApplication p rows call result

/-- The calls in the order of their statements, and what they return. -/
def evaluateAll (p : Printing) (rows : List (LoanApplication r)) :
    List (EvaluateCall r) →
      List (LoanApplication r) × List (Except LoanError (LoanEvaluationResult r))
  | [] => (rows, [])
  | call :: calls =>
    let (rows, result) := evaluateLoan t p rows call
    let (rows, results) := evaluateAll p rows calls
    (rows, result :: results)

/-! ## What the result of an agent is -/

/-- The texts are there, and there are conditions just where the decision is conditional. -/
structure Coherent (decision : UnderwritingDecision) (reasoning : String)
    (conditions : List String) : Prop where
  conditional : decision = .CONDITIONAL ↔ conditions ≠ []
  conditions : ∀ s ∈ conditions, jsTrim s ≠ ""
  reasoning : jsTrim reasoning ≠ ""

structure AgentResult.Sound (a : AgentResult r) : Prop where
  nonneg : 0 ≤ a.confidence
  le_one : a.confidence ≤ 1
  coherent : Coherent a.decision a.reasoning a.conditions

/-! ### The rules -/

theorem nonBlank_append {s : String} (h : NonBlankText s) (u : String) : NonBlankText (s ++ u) := by
  obtain ⟨c, hc, hspace⟩ := h
  exact ⟨c, by rw [String.toList_append]; exact List.mem_append_left _ hc, hspace⟩

theorem jsTrim_ne_empty {s : String} (h : NonBlankText s) : jsTrim s ≠ "" := by
  obtain ⟨c, hc, hspace⟩ := h
  intro hempty
  have hall := Policy.trimWhere_eq_empty_iff.mp hempty c hc
  rw [hspace] at hall
  cases hall

/-- The text of a condition is not blank. -/
def Legible (x : Option Remark) : Prop := ∀ text, x = some (.condition text) → NonBlankText text

theorem legible_condition {s : String} (h : NonBlankText s) : Legible (some (.condition s)) :=
  fun text htext => by
    cases htext
    exact h

theorem legible_problem (s : String) : Legible (some (.problem s)) := by
  intro text htext
  cases htext

theorem legible_none : Legible none := by
  intro text htext
  cases htext

section Checks

variable {t} (ctx : UnderwritingContext r)

theorem scoreCheck_legible : Legible (scoreCheck r t ctx) := by
  rw [scoreCheck]
  split
  · exact legible_problem _
  · split
    · exact legible_condition ⟨'P', by decide, by decide⟩
    · exact legible_none

theorem dtiCheck_legible : Legible (dtiCheck r t ctx) := by
  rw [dtiCheck]
  split
  · exact legible_problem _
  · split
    · apply legible_condition
      apply nonBlank_append
      apply nonBlank_append
      exact ⟨'D', by decide, by decide⟩
    · exact legible_none

theorem employmentCheck_legible : Legible (employmentCheck r ctx) := by
  rw [employmentCheck]
  split
  · exact legible_problem _
  · exact legible_condition ⟨'P', by decide, by decide⟩
  · exact legible_none
  · exact legible_none

theorem ltiCheck_legible : Legible (ltiCheck r t ctx) := by
  rw [ltiCheck]
  split
  · exact legible_problem _
  · exact legible_none

theorem documentCheck_legible : Legible (documentCheck r ctx) := by
  rw [documentCheck]
  split
  · split
    · exact legible_problem _
    · apply legible_condition
      apply nonBlank_append
      exact ⟨'R', by decide, by decide⟩
  · exact legible_none

theorem derogatoryCheck_legible : Legible (derogatoryCheck r ctx) := by
  rw [derogatoryCheck]
  split
  · exact legible_problem _
  · split
    · exact legible_condition ⟨'P', by decide, by decide⟩
    · exact legible_none

theorem remarks_legible : ∀ x ∈ remarks r t ctx, Legible x := by
  simp only [remarks, List.forall_mem_cons, List.not_mem_nil, false_imp_iff, implies_true, and_true]
  exact ⟨scoreCheck_legible ctx, dtiCheck_legible ctx, employmentCheck_legible ctx,
    ltiCheck_legible ctx, documentCheck_legible ctx, derogatoryCheck_legible ctx⟩

theorem nonBlank_of_mem_conditions {l : List (Option Remark)} (h : ∀ x ∈ l, Legible x) :
    ∀ s ∈ conditions l, NonBlankText s := by
  intro s hs
  obtain ⟨x, hx, htext⟩ := List.mem_filterMap.mp hs
  match x with
  | some (.condition text) =>
    rw [← Option.some.inj htext]
    exact h _ hx text rfl
  | some (.problem _) => cases htext
  | none => cases htext

theorem evaluate_coherent :
    Coherent (evaluate r t ctx).decision (evaluate r t ctx).reasoning
      (evaluate r t ctx).conditions := by
  simp only [evaluate]
  split
  · refine ⟨by simp, List.forall_mem_nil _, jsTrim_ne_empty ?_⟩
    apply nonBlank_append
    apply nonBlank_append
    exact ⟨'A', by decide, by decide⟩
  · split
    case isTrue _ hconditions =>
      refine ⟨by simpa using List.length_pos_iff.mp hconditions, fun s hs => ?_,
        jsTrim_ne_empty ?_⟩
      · exact jsTrim_ne_empty (nonBlank_of_mem_conditions (remarks_legible ctx) s hs)
      · iterate 8 apply nonBlank_append
        exact ⟨'A', by decide, by decide⟩
    case isFalse =>
      refine ⟨by simp, List.forall_mem_nil _, jsTrim_ne_empty ?_⟩
      iterate 12 apply nonBlank_append
      exact ⟨'S', by decide, by decide⟩

end Checks

/-! ### The local model -/

theorem coherent_of_wellFormed {w : UnderwritingModelResponse} (h : Ollama.WellFormed r w) :
    Coherent w.decision w.reasoning w.conditions where
  conditional := h.conditional
  conditions := fun s hs => (h.conditions s hs).2.symm ▸ (h.conditions s hs).1
  reasoning := h.reasoning.2.symm ▸ h.reasoning.1

theorem wellFormed_of_readPayload {body : Option Json} {w : UnderwritingModelResponse}
    (h : Ollama.readPayload r t body = .ok w) : Ollama.WellFormed r w := by
  rw [Ollama.readPayload.eq_def] at h
  split at h
  · cases h
  · cases h
  · split at h
    case h_1 text _ => exact (Ollama.returned_iff_wellFormed t w).mp ⟨text, h⟩
    case h_2 => cases h

theorem decisionBy_coherent {provider : DecisionProvider} {reply : FetchResult}
    {ctx : UnderwritingContext r} {w : UnderwritingModelResponse}
    (h : decisionBy t provider reply ctx = .ok w) :
    Coherent w.decision w.reasoning w.conditions := by
  cases provider with
  | rules =>
    cases h
    exact evaluate_coherent ctx
  | ollama =>
    cases reply with
    | networkError error => cases h
    | response status body =>
      rw [decisionBy, Ollama.evaluate] at h
      split at h
      · cases h
      · exact coherent_of_wellFormed (wellFormed_of_readPayload t h)

/-- **Any result is sound**, whichever provider decides and whatever the local model answers. -/
theorem agent_sound {provider : DecisionProvider} {input : EvaluateLoanInput r}
    {integrations : Except String (RawIntegrationData r)} {reply : FetchResult} {a : AgentResult r}
    (h : runUnderwritingAgent t provider input integrations reply = .ok a) : a.Sound := by
  cases integrations with
  | error message => cases h
  | ok data =>
    rw [runUnderwritingAgent] at h
    cases hdecision : decisionBy t provider reply (contextOf input data) with
    | error error =>
      simp only [hdecision, reduceCtorEq] at h
    | ok decision =>
      simp only [hdecision, Except.ok.injEq] at h
      rw [← h]
      refine ⟨?_, min_le_left 1 _, decisionBy_coherent t hdecision⟩
      exact le_min zero_le_one (le_max_left 0 _)

/-! ## The columns -/

theorem roundHalfAway_near (q : ℚ) : |(roundHalfAway q : ℚ) - q| ≤ 1 / 2 := by
  rw [roundHalfAway, abs_le]
  split
  · have hle := Int.floor_le (q + 1 / 2)
    have hlt := Int.lt_floor_add_one (q + 1 / 2)
    constructor <;> linarith
  · have hle := Int.floor_le (-q + 1 / 2)
    have hlt := Int.lt_floor_add_one (-q + 1 / 2)
    push_cast
    constructor <;> linarith

theorem le_roundHalfAway {k : Nat} {q : ℚ} (h : (k : ℚ) ≤ q) : (k : ℤ) ≤ roundHalfAway q := by
  have hnonneg : 0 ≤ q := (Nat.cast_nonneg k).trans h
  rw [roundHalfAway, if_pos hnonneg, Int.le_floor]
  push_cast
  linarith

theorem roundHalfAway_le {k : Nat} {q : ℚ} (hnonneg : 0 ≤ q) (h : q ≤ k) :
    roundHalfAway q ≤ k := by
  rw [roundHalfAway, if_pos hnonneg, ← Int.lt_add_one_iff, Int.floor_lt]
  push_cast
  linarith

theorem numeric_eq_some {precision scale : Nat} {q v : ℚ} (h : numeric precision scale q = some v) :
    v = roundHalfAway (q * 10 ^ scale) / 10 ^ scale := by
  rw [numeric] at h
  split at h
  · exact (Option.some.inj h).symm
  · cases h

/-- A number is written within half a unit of the last place. -/
theorem numeric_near {precision scale : Nat} {q v : ℚ} (h : numeric precision scale q = some v) :
    |v - q| ≤ 1 / (2 * 10 ^ scale) := by
  have hpos : (0 : ℚ) < 10 ^ scale := by positivity
  have hnear := roundHalfAway_near (q * 10 ^ scale)
  have hscaled : v - q = ((roundHalfAway (q * 10 ^ scale) : ℚ) - q * 10 ^ scale) / 10 ^ scale := by
    rw [numeric_eq_some h, sub_div, mul_div_cancel_right₀ _ hpos.ne']
  rw [hscaled, abs_div, abs_of_pos hpos, div_le_iff₀ hpos]
  calc |(roundHalfAway (q * 10 ^ scale) : ℚ) - q * 10 ^ scale|
      ≤ 1 / 2 := hnear
    _ = 1 / (2 * 10 ^ scale) * 10 ^ scale := by
      field_simp

/-- And no further than a whole number on its way. -/
theorem le_numeric {precision scale k : Nat} {q v : ℚ} (h : numeric precision scale q = some v)
    (hk : (k : ℚ) ≤ q) : (k : ℚ) ≤ v := by
  have hpos : (0 : ℚ) < 10 ^ scale := by positivity
  have hscaled : ((k * 10 ^ scale : Nat) : ℚ) ≤ q * 10 ^ scale := by
    push_cast
    exact mul_le_mul_of_nonneg_right hk hpos.le
  have hunits : (((k * 10 ^ scale : Nat) : ℤ) : ℚ) ≤ roundHalfAway (q * 10 ^ scale) :=
    Int.cast_le.mpr (le_roundHalfAway hscaled)
  rw [numeric_eq_some h, le_div_iff₀ hpos]
  push_cast at hunits
  exact hunits

theorem numeric_le {precision scale k : Nat} {q v : ℚ} (h : numeric precision scale q = some v)
    (hnonneg : 0 ≤ q) (hk : q ≤ k) : v ≤ k := by
  have hpos : (0 : ℚ) < 10 ^ scale := by positivity
  have hscaled : q * 10 ^ scale ≤ ((k * 10 ^ scale : Nat) : ℚ) := by
    push_cast
    exact mul_le_mul_of_nonneg_right hk hpos.le
  have hunits : (roundHalfAway (q * 10 ^ scale) : ℚ) ≤ ((k * 10 ^ scale : Nat) : ℤ) :=
    Int.cast_le.mpr (roundHalfAway_le (mul_nonneg hnonneg hpos.le) hscaled)
  rw [numeric_eq_some h, div_le_iff₀ hpos]
  push_cast at hunits
  exact hunits

/-! ## The row of a result -/

/-- What every row keeps: no row is pending or lacks a value, and its conditions are read back. -/
structure LoanApplication.Sound (row : LoanApplication r) : Prop where
  amount : 10000 ≤ row.requestedAmount
  confidence : ∃ q, row.confidence = some q ∧ 0 ≤ q ∧ q ≤ 1
  decided : ∃ decision reasoning text conditions, row.decision = decision.status
    ∧ row.reasoning = some reasoning ∧ row.conditions = some text
    ∧ Json.parse text = some (conditionsJson conditions)
    ∧ Coherent decision reasoning conditions

/-- The row says what the response says, the confidence in three decimals. -/
structure LoanApplication.Records (p : Printing) (row : LoanApplication r)
    (result : LoanEvaluationResult r) : Prop where
  id : row.id = result.applicationId
  decision : row.decision = result.decision.status
  confidence : ∃ q, row.confidence = some q ∧ |q - p.decimal result.confidence| ≤ 1 / 2000
  reasoning : row.reasoning = some result.reasoning
  conditions : ∃ text, row.conditions = some text
    ∧ Json.parse text = some (conditionsJson result.conditions)
  incomeVerified : row.incomeVerified = result.incomeVerified
  documentsValid : row.documentsValid = result.documentsValid
  createdAt : row.createdAt = result.createdAt

theorem parse_conditions (conditions : List String) :
    Json.parse (Json.stringify (conditionsJson conditions)) = some (conditionsJson conditions) := by
  have hordered : (conditionsJson conditions).ownOrdered = true := by
    refine Json.allObjects_arr.mpr ?_
    simp [Json.allObjects]
  exact JsValue.parse_stringify ⟨conditionsJson conditions, hordered⟩

variable {p : Printing}

theorem textColumn_eq_some {s u : String} (h : textColumn s = some u) : u = s := by
  rw [textColumn] at h
  split at h
  · cases h
  · exact (Option.some.inj h).symm

theorem row_spec {id : Uuid} {input : EvaluateLoanInput r} {a : AgentResult r} {createdAt : Instant}
    {row : LoanApplication r} (ha : a.Sound) (h : rowOf p id input a createdAt = some row) :
    row.Sound ∧ row.Records p (resultOf id a createdAt) := by
  rw [rowOf] at h
  split at h
  case h_2 => cases h
  case h_1 _ requestedAmount confidence reasoning _ hamount hconfidence hreasoning =>
    cases h
    have hmin : ((10000 : Nat) : ℚ) ≤ p.decimal input.requestedAmount.val := by
      have hdecimal := p.mono input.min_amount
      rwa [show (10000 : ℚ) = ((10000 : Nat) : ℚ) by norm_num, p.integer 10000 (by decide)]
        at hdecimal
    have hnonneg : ((0 : Nat) : ℚ) ≤ p.decimal a.confidence := by
      have hdecimal := p.mono ha.nonneg
      rwa [show (0 : ℚ) = ((0 : Nat) : ℚ) by norm_num, p.integer 0 (by decide)] at hdecimal
    have hle : p.decimal a.confidence ≤ ((1 : Nat) : ℚ) := by
      have hdecimal := p.mono ha.le_one
      rwa [show (1 : ℚ) = ((1 : Nat) : ℚ) by norm_num, p.integer 1 (by decide)] at hdecimal
    have hnear : |confidence - p.decimal a.confidence| ≤ 1 / 2000 :=
      (numeric_near hconfidence).trans_eq (by norm_num)
    refine ⟨⟨?_, ⟨confidence, rfl, ?_, ?_⟩, ?_⟩, ?_⟩
    · exact_mod_cast le_numeric hamount hmin
    · exact_mod_cast le_numeric hconfidence hnonneg
    · exact_mod_cast numeric_le hconfidence (by exact_mod_cast hnonneg) hle
    · refine ⟨a.decision, a.reasoning, _, a.conditions, rfl, ?_, rfl, parse_conditions _,
        ha.coherent⟩
      rw [textColumn_eq_some hreasoning]
    · refine ⟨rfl, rfl, ⟨confidence, rfl, hnear⟩, ?_, ⟨_, rfl, parse_conditions _⟩, rfl, rfl, rfl⟩
      rw [textColumn_eq_some hreasoning]
      rfl

/-! ## Over the calls -/

/-- A call leaves the rows and fails, or adds a row of its own, which records what it returns. -/
def Adds (p : Printing) (rows : List (LoanApplication r)) (id : Uuid)
    (after : List (LoanApplication r) × Except LoanError (LoanEvaluationResult r)) : Prop :=
  (after.1 = rows ∧ ∃ error, after.2 = .error error)
    ∨ ∃ row : LoanApplication r, after.1 = rows ++ [row] ∧ row.id = id ∧ row.Sound
      ∧ ∀ result, after.2 = .ok result → row.Records p result

theorem saveApplication_adds (rows : List (LoanApplication r)) (call : EvaluateCall r)
    {a : AgentResult r} (ha : a.Sound) :
    Adds p rows call.applicationId (saveApplication p rows call a) := by
  rw [saveApplication]
  cases call.saving with
  | failed => exact Or.inl ⟨rfl, _, rfl⟩
  | written createdAt answered =>
    cases hrow : rowOf p call.applicationId call.input a createdAt with
    | none =>
      simp only [hrow]
      exact Or.inl ⟨rfl, _, rfl⟩
    | some row =>
      obtain ⟨hsound, hrecords⟩ := row_spec ha hrow
      simp only [hrow]
      refine Or.inr ⟨row, rfl, hrecords.id, hsound, fun result hresult => ?_⟩
      cases answered with
      | false => cases hresult
      | true => rwa [← Except.ok.inj hresult]

theorem evaluateLoan_adds (rows : List (LoanApplication r)) (call : EvaluateCall r) :
    Adds p rows call.applicationId (evaluateLoan t p rows call) := by
  rw [evaluateLoan]
  cases hrun : runUnderwritingAgent t call.provider call.input call.integrations call.reply with
  | error error => exact Or.inl ⟨rfl, error, rfl⟩
  | ok a => exact saveApplication_adds rows call (agent_sound t hrun)

/-- What the calls have left so far, and what the next ones return. -/
structure Recorded (p : Printing) (rows : List (LoanApplication r))
    (after : List (LoanApplication r) × List (Except LoanError (LoanEvaluationResult r))) :
    Prop where
  kept : rows ⊆ after.1
  sound : ∀ row ∈ after.1, row.Sound
  distinct : (after.1.map fun row => row.id).Nodup
  records : ∀ result, .ok result ∈ after.2 → ∃ row ∈ after.1, row.Records p result

/-- One call more, before the others. -/
theorem Recorded.cons {rows rows' : List (LoanApplication r)}
    {after : List (LoanApplication r) × List (Except LoanError (LoanEvaluationResult r))}
    (h : Recorded p rows' after) (hkept : rows ⊆ rows')
    {result : Except LoanError (LoanEvaluationResult r)}
    (hresult : ∀ response, result = .ok response → ∃ row ∈ rows', row.Records p response) :
    Recorded p rows (after.1, result :: after.2) where
  kept := List.Subset.trans hkept h.kept
  sound := h.sound
  distinct := h.distinct
  records := by
    intro response hresponse
    cases List.mem_cons.mp hresponse with
    | inl hfirst =>
      obtain ⟨row, hrow, hrecords⟩ := hresult response hfirst.symm
      exact ⟨row, h.kept hrow, hrecords⟩
    | inr hlater => exact h.records response hlater

theorem evaluateAll_recorded (calls : List (EvaluateCall r)) :
    ∀ rows : List (LoanApplication r), (∀ row ∈ rows, row.Sound) →
      ((rows.map fun row => row.id) ++ calls.map fun call => call.applicationId).Nodup →
      Recorded p rows (evaluateAll t p rows calls) := by
  induction calls with
  | nil =>
    intro rows hsound hdistinct
    rw [List.map_nil, List.append_nil] at hdistinct
    exact ⟨fun _ h => h, hsound, hdistinct, nofun⟩
  | cons call calls ih =>
    intro rows hsound hdistinct
    have hadds := evaluateLoan_adds t (p := p) rows call
    rw [evaluateAll]
    generalize evaluateLoan t p rows call = after at hadds
    obtain ⟨rows', result⟩ := after
    rw [List.map_cons] at hdistinct
    cases hadds with
    | inl hfailed =>
      obtain ⟨rfl, error, rfl⟩ := hfailed
      have hrest := hdistinct.sublist ((List.sublist_cons_self _ _).append_left _)
      exact (ih rows' hsound hrest).cons (fun _ h => h) nofun
    | inr hadded =>
      obtain ⟨row, rfl, hid, hrow, hrecords⟩ := hadded
      have hrows : ∀ other ∈ rows ++ [row], other.Sound := by
        intro other hother
        cases List.mem_append.mp hother with
        | inl hold => exact hsound other hold
        | inr hnew => exact List.mem_singleton.mp hnew ▸ hrow
      have hids : (((rows ++ [row]).map fun row => row.id)
          ++ calls.map fun call => call.applicationId).Nodup := by
        rw [List.map_append, List.map_singleton, hid, List.append_assoc]
        exact hdistinct
      exact (ih _ hrows hids).cons (List.subset_append_left rows [row])
        fun response hresponse => ⟨row, by simp, hrecords response hresponse⟩

theorem Recorded.existsUnique {rows : List (LoanApplication r)}
    {after : List (LoanApplication r) × List (Except LoanError (LoanEvaluationResult r))}
    (h : Recorded p rows after) {result : LoanEvaluationResult r} (hresult : .ok result ∈ after.2) :
    ∃! row, row ∈ after.1 ∧ row.Records p result := by
  obtain ⟨row, hrow, hrecords⟩ := h.records result hresult
  refine ⟨row, ⟨hrow, hrecords⟩, fun other hother => ?_⟩
  have hsame : other.id = row.id := hother.2.id.trans hrecords.id.symm
  exact List.inj_on_of_nodup_map h.distinct hother.1 hrow hsame

def exactPrinting : Printing where
  decimal q := q
  mono := monotone_id
  integer _ _ := rfl

def steadyBorrower : RawIntegrationData exactRounding where
  plaid := {
    monthlyIncome := ⟨12000, rfl⟩
    employmentStatus := .FULL_TIME
    bankAccountAge := ⟨84, rfl⟩
    incomeStability := ⟨91, rfl⟩ }
  credit := {
    creditScore := ⟨740, rfl⟩
    debtToIncomeRatio := ⟨0.32, rfl⟩
    paymentHistory := "EXCELLENT"
    derogatoryMarks := 0
    openAccounts := 6 }
  documents := {
    allDocumentsValid := true
    failedDocuments := []
    w2Valid := true
    payStubValid := true
    bankStatementValid := true
    taxReturnValid := true }

def steadyCall (applicationId : Uuid) (provider : DecisionProvider) (reply : FetchResult) :
    EvaluateCall exactRounding where
  applicationId
  provider
  input := {
    borrowerId := "B001"
    requestedAmount := ⟨450000, rfl⟩
    loanType := .CONVENTIONAL
    min_amount := by decide }
  integrations := .ok steadyBorrower
  reply
  saving := .written 0 true

/-- The rules decide, and then the local model, which cannot be reached. -/
def twoCalls : List (EvaluateCall exactRounding) :=
  [steadyCall 1 .rules (.networkError ""), steadyCall 2 .ollama (.networkError "ECONNREFUSED")]

end MortgageAgent.Underwriting
