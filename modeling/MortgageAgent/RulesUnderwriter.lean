import Mathlib.Algebra.Order.Monoid.WithTop
import MortgageAgent.Provider.PlaidIncome

/-!
# The rules underwriter

`RulesUnderwriterService.evaluate` checks an application against the limits of its programme. Each
check may find a problem or make a condition; any problem denies the application, and any condition
makes its approval conditional.

* **`Rounding`** — JavaScript's numbers: the result of an operation is the exact one, rounded, and
  infinite where it is too large.
* **`remarks`** / **`evaluate`** — the checks, and the response made of them.
* **`AtLeastAsGood`** — one application is as good as another in each respect.
* **`evaluate_mono`** — then its decision is no worse.
-/

namespace MortgageAgent.Underwriting

open Provider.Plaid (EmploymentStatus)

/-! ## Numbers -/

/-- How a result is rounded to a number: in the order of the results, and zero to itself. -/
structure Rounding where
  round : ℚ → WithTop ℚ
  mono : Monotone round
  zero : round 0 = (0 : ℚ)

/-- A finite number: one that is rounded to itself. -/
def Rounding.Num (r : Rounding) : Type := { q : ℚ // r.round q = q }

/-- A result that is known to be in range. -/
def Rounding.near (r : Rounding) (q : ℚ) : ℚ := (r.round q).untopD q

/-- `a / b`, where `b` may be infinite. -/
def Rounding.div (r : Rounding) (a : ℚ) (b : WithTop ℚ) : WithTop ℚ :=
  match b with
  | ⊤ => (0 : ℚ)
  | (b : ℚ) => r.round (a / b)

/-- The texts JavaScript makes of numbers. -/
structure NumberText where
  text : ℚ → String
  toFixed : (digits : Nat) → WithTop ℚ → String
  toLocaleString : WithTop ℚ → String

/-! ## The context -/

structure Income (r : Rounding) where
  monthlyIncome : r.Num
  employmentStatus : EmploymentStatus

structure CreditBureauData (r : Rounding) where
  creditScore : r.Num
  debtToIncomeRatio : r.Num
  paymentHistory : String
  derogatoryMarks : Nat

structure DocumentVerificationResult where
  allDocumentsValid : Bool
  failedDocuments : List String

structure UnderwritingContext (r : Rounding) where
  requestedAmount : r.Num
  loanType : String
  income : Income r
  credit : CreditBureauData r
  documents : DocumentVerificationResult

inductive UnderwritingDecision where
  | DENIED
  | CONDITIONAL
  | APPROVED
  deriving DecidableEq

structure UnderwritingModelResponse where
  decision : UnderwritingDecision
  confidence : ℚ
  reasoning : String
  conditions : List String

structure LoanThresholds where
  minScore : ℚ
  maxDti : ℚ
  maxLti : ℚ

def getLoanThresholds (loanType : String) : LoanThresholds :=
  if loanType = "FHA" then { minScore := 580, maxDti := 0.57, maxLti := 5 }
  else if loanType = "VA" then { minScore := 0, maxDti := 0.41, maxLti := 5 }
  else if loanType = "JUMBO" then { minScore := 720, maxDti := 0.38, maxLti := 4 }
  else { minScore := 620, maxDti := 0.5, maxLti := 4.5 }

/-! ## The checks -/

/-- What a check pushes to `problems` or to `conditions`. -/
inductive Remark where
  | problem (text : String)
  | condition (text : String)

variable (r : Rounding) (t : NumberText) (ctx : UnderwritingContext r)

def annualIncome : WithTop ℚ := r.round (ctx.income.monthlyIncome.val * 12)

/-- The loan-to-income ratio. -/
def lti : WithTop ℚ := r.div ctx.requestedAmount.val (annualIncome r ctx)

def scoreCheck : Option Remark :=
  let score := ctx.credit.creditScore.val
  let thresholds := getLoanThresholds ctx.loanType
  if (score : WithTop ℚ) < r.round thresholds.minScore then
    some (.problem ("Credit score " ++ t.text score ++ " is below the "
      ++ t.text thresholds.minScore ++ " minimum for " ++ ctx.loanType))
  else if (score : WithTop ℚ) < r.round 700 then
    some (.condition "Provide letter of explanation for credit score below 700")
  else none

/-- `(dti * 100).toFixed(1)`. -/
def dtiText : String := t.toFixed 1 (r.round (ctx.credit.debtToIncomeRatio.val * 100))

def dtiCheck : Option Remark :=
  let dti := ctx.credit.debtToIncomeRatio.val
  let thresholds := getLoanThresholds ctx.loanType
  if r.round thresholds.maxDti < dti then
    some (.problem ("DTI of " ++ dtiText r t ctx ++ "% exceeds "
      ++ t.toFixed 0 (r.round (r.near thresholds.maxDti * 100)) ++ "% limit for " ++ ctx.loanType))
  else if r.round 0.43 < dti then
    some (.condition ("Document compensating factors for DTI of " ++ dtiText r t ctx
      ++ "% exceeding 43%"))
  else none

def employmentCheck : Option Remark :=
  match ctx.income.employmentStatus with
  | .UNEMPLOYED => some (.problem "Borrower is currently unemployed")
  | .SELF_EMPLOYED => some (.condition "Provide 2 years CPA-prepared profit & loss statements")
  | .FULL_TIME | .PART_TIME => none

def ltiCheck : Option Remark :=
  let thresholds := getLoanThresholds ctx.loanType
  if r.round thresholds.maxLti < lti r ctx then
    some (.problem ("Loan-to-income ratio of " ++ t.toFixed 2 (lti r ctx) ++ "x exceeds "
      ++ t.text thresholds.maxLti ++ "x guideline"))
  else none

def documentCheck : Option Remark :=
  let failed := ", ".intercalate ctx.documents.failedDocuments
  if !ctx.documents.allDocumentsValid then
    if 1 < ctx.documents.failedDocuments.length then
      some (.problem ("Multiple missing documents: " ++ failed))
    else some (.condition ("Resubmit missing document(s): " ++ failed))
  else none

def derogatoryCheck : Option Remark :=
  let marks := ctx.credit.derogatoryMarks
  if 2 ≤ marks then
    some (.problem (toString marks ++ " derogatory marks exceed acceptable threshold"))
  else if marks = 1 then
    some (.condition "Provide written explanation for derogatory credit mark")
  else none

/-- What the checks find, in their order. -/
def remarks : List (Option Remark) :=
  [scoreCheck r t ctx, dtiCheck r t ctx, employmentCheck r ctx, ltiCheck r t ctx,
    documentCheck r ctx, derogatoryCheck r ctx]

/-! ## The response -/

def problems (remarks : List (Option Remark)) : List String :=
  remarks.filterMap fun
    | some (.problem text) => some text
    | _ => none

def conditions (remarks : List (Option Remark)) : List String :=
  remarks.filterMap fun
    | some (.condition text) => some text
    | _ => none

/-- `from - count * step`, kept between two bounds. -/
def loweredConfidence (start step least : ℚ) (count : Nat) : ℚ :=
  max (r.near least)
    (min (r.near start) (r.near (r.near start - r.near (count * r.near step))))

def approvedConfidence : ℚ :=
  let score := ctx.credit.creditScore.val
  let dti := ctx.credit.debtToIncomeRatio.val
  let byScore := r.near (r.near 0.78 + r.near (r.near (score - 700) / 1000))
  let byDti := r.near (byScore + r.near (r.near (r.near 0.43 - dti) * 0.5))
  min (r.near 0.99) (r.near (byDti + if ctx.documents.allDocumentsValid then r.near 0.05 else 0))

/-- `toLowerCase().replace('_', ' ')`: no status has more than one underscore. -/
def employmentWords (status : EmploymentStatus) : String :=
  String.ofList (status.text.toLower.toList.map fun c => if c = '_' then ' ' else c)

def evaluate : UnderwritingModelResponse :=
  let problems := problems (remarks r t ctx)
  let conditions := conditions (remarks r t ctx)
  let score := t.text ctx.credit.creditScore.val
  let income := t.toLocaleString (annualIncome r ctx)
  if 0 < problems.length then
    { decision := .DENIED
      confidence := loweredConfidence r 0.96 0.08 0.72 problems.length
      reasoning := "Application denied due to the following underwriting deficiencies: "
        ++ "; ".intercalate problems ++ ". Borrower may reapply after addressing these issues."
      conditions := [] }
  else if 0 < conditions.length then
    { decision := .CONDITIONAL
      confidence := loweredConfidence r 0.82 0.06 0.6 conditions.length
      reasoning := "Application is conditionally approved pending resolution of "
        ++ toString conditions.length ++ " item(s). Credit score is " ++ score ++ ", DTI is "
        ++ dtiText r t ctx ++ "%, and income qualifies at $" ++ income ++ " annually."
      conditions }
  else
    { decision := .APPROVED
      confidence := approvedConfidence r ctx
      reasoning := "Strong application: credit score " ++ score ++ " with "
        ++ ctx.credit.paymentHistory.toLower ++ " payment history, DTI of " ++ dtiText r t ctx
        ++ "% well within guidelines, verified " ++ employmentWords ctx.income.employmentStatus
        ++ " income of $" ++ income ++ "/year, and all documents validated. Loan-to-income ratio of "
        ++ t.toFixed 2 (lti r ctx) ++ "x is within program limits."
      conditions := [] }

/-! ## Better and worse -/

def UnderwritingDecision.rank : UnderwritingDecision → Nat
  | .DENIED => 0
  | .CONDITIONAL => 1
  | .APPROVED => 2

/-- How good the outcome of a check is. -/
def grade : Option Remark → Nat
  | some (.problem _) => 0
  | some (.condition _) => 1
  | none => 2

theorem grade_le_two (x : Option Remark) : grade x ≤ 2 := by
  match x with
  | some (.problem _) => exact Nat.zero_le _
  | some (.condition _) => exact one_le_two
  | none => exact le_rfl

def employmentRank : EmploymentStatus → Nat
  | .UNEMPLOYED => 0
  | .SELF_EMPLOYED => 1
  | .FULL_TIME | .PART_TIME => 2

/-- `allDocumentsValid` says what the list says. -/
def DocumentVerificationResult.Consistent (d : DocumentVerificationResult) : Prop :=
  d.allDocumentsValid = d.failedDocuments.isEmpty

/-- The second application is as good as the first in each respect. -/
structure AtLeastAsGood {r : Rounding} (a b : UnderwritingContext r) : Prop where
  loanType : b.loanType = a.loanType
  creditScore : a.credit.creditScore.val ≤ b.credit.creditScore.val
  debtToIncomeRatio : b.credit.debtToIncomeRatio.val ≤ a.credit.debtToIncomeRatio.val
  monthlyIncome : a.income.monthlyIncome.val ≤ b.income.monthlyIncome.val
  requestedAmount : b.requestedAmount.val ≤ a.requestedAmount.val
  employment : employmentRank a.income.employmentStatus ≤ employmentRank b.income.employmentStatus
  derogatoryMarks : b.credit.derogatoryMarks ≤ a.credit.derogatoryMarks
  failedDocuments : b.documents.failedDocuments.length ≤ a.documents.failedDocuments.length

/-- An application for something, with an income, whose documents are consistent. -/
structure WellFormed {r : Rounding} (a : UnderwritingContext r) : Prop where
  monthlyIncome : 0 < a.income.monthlyIncome.val
  requestedAmount : 0 < a.requestedAmount.val
  documents : a.documents.Consistent

/-! ## The decision of the remarks -/

theorem problems_eq_nil_iff {l : List (Option Remark)} :
    problems l = [] ↔ ∀ x ∈ l, grade x ≠ 0 := by
  rw [problems, List.filterMap_eq_nil_iff]
  refine forall₂_congr fun x _ => ?_
  match x with
  | some (.problem _) => simp [grade]
  | some (.condition _) => simp [grade]
  | none => simp [grade]

theorem conditions_eq_nil_iff {l : List (Option Remark)} :
    conditions l = [] ↔ ∀ x ∈ l, grade x ≠ 1 := by
  rw [conditions, List.filterMap_eq_nil_iff]
  refine forall₂_congr fun x _ => ?_
  match x with
  | some (.problem _) => simp [grade]
  | some (.condition _) => simp [grade]
  | none => simp [grade]

variable {r t}

theorem evaluate_decision (a : UnderwritingContext r) :
    (evaluate r t a).decision
      = if problems (remarks r t a) ≠ [] then .DENIED
        else if conditions (remarks r t a) ≠ [] then .CONDITIONAL
        else .APPROVED := by
  simp only [evaluate, List.length_pos_iff]
  split
  · rfl
  · split
    · rfl
    · rfl

/-- The decision is as good as the worst of the checks. -/
theorem le_rank_iff {a : UnderwritingContext r} {k : Nat} (hk : k ≤ 2) :
    k ≤ (evaluate r t a).decision.rank ↔ ∀ x ∈ remarks r t a, k ≤ grade x := by
  have hproblems := problems_eq_nil_iff (l := remarks r t a)
  have hconditions := conditions_eq_nil_iff (l := remarks r t a)
  rw [evaluate_decision]
  by_cases hp : problems (remarks r t a) = []
  · rw [if_neg (not_not.mpr hp)]
    have hzero := hproblems.mp hp
    by_cases hc : conditions (remarks r t a) = []
    · rw [if_neg (not_not.mpr hc)]
      refine iff_of_true hk (fun x hx => ?_)
      have hne := hzero x hx
      have hne' := hconditions.mp hc x hx
      omega
    · rw [if_pos hc]
      obtain ⟨x, hx, hgrade⟩ : ∃ x ∈ remarks r t a, grade x = 1 := by simpa [hconditions] using hc
      constructor
      · intro hle y hy
        have hne := hzero y hy
        have hle' : k ≤ 1 := hle
        omega
      · intro hall
        exact (hall x hx).trans hgrade.le
  · rw [if_pos hp]
    obtain ⟨x, hx, hgrade⟩ : ∃ x ∈ remarks r t a, grade x = 0 := by simpa [hproblems] using hp
    constructor
    · intro hle y _
      exact (Nat.le_zero.mp hle).symm ▸ Nat.zero_le _
    · intro hall
      exact (hall x hx).trans hgrade.le

/-- Where no check comes out worse, the decision is no worse. -/
theorem rank_le_of_forall₂ {a b : UnderwritingContext r}
    (h : List.Forall₂ (fun x y => grade x ≤ grade y) (remarks r t a) (remarks r t b)) :
    (evaluate r t a).decision.rank ≤ (evaluate r t b).decision.rank := by
  have hrank : (evaluate r t a).decision.rank ≤ 2 := by
    cases (evaluate r t a).decision <;> decide
  have ha := (le_rank_iff hrank).mp le_rfl
  rw [le_rank_iff hrank]
  clear hrank
  generalize (evaluate r t a).decision.rank = k at *
  generalize remarks r t a = l at *
  generalize remarks r t b = l' at *
  induction h with
  | nil => nofun
  | cons hxy _ ih =>
    rw [List.forall_mem_cons] at ha ⊢
    exact ⟨ha.1.trans hxy, ih ha.2⟩

/-! ## The checks, one by one -/

/-- A check against two limits, where the second application passes what the first one passes. -/
theorem grade_limits {p q p' q' : Prop} [Decidable p] [Decidable q] [Decidable p'] [Decidable q']
    {s s' u u' : String} (hp : p' → p) (hq : q' → p ∨ q) :
    grade (if p then some (.problem s) else if q then some (.condition s') else none)
      ≤ grade (if p' then some (.problem u) else if q' then some (.condition u') else none) := by
  by_cases h : p
  · rw [if_pos h]
    exact Nat.zero_le _
  · rw [if_neg h, if_neg fun h' => h (hp h')]
    by_cases hcondition : q
    · rw [if_pos hcondition]
      split
      · exact le_rfl
      · exact one_le_two
    · rw [if_neg fun h' => (hq h').elim h hcondition]
      exact grade_le_two _

variable {a b : UnderwritingContext r}

theorem scoreCheck_mono (h : AtLeastAsGood a b) :
    grade (scoreCheck r t a) ≤ grade (scoreCheck r t b) := by
  have hscore : (a.credit.creditScore.val : WithTop ℚ) ≤ b.credit.creditScore.val :=
    WithTop.coe_le_coe.mpr h.creditScore
  rw [scoreCheck, scoreCheck, h.loanType]
  exact grade_limits hscore.trans_lt fun hlt => Or.inr (hscore.trans_lt hlt)

theorem dtiCheck_mono (h : AtLeastAsGood a b) :
    grade (dtiCheck r t a) ≤ grade (dtiCheck r t b) := by
  have hdti : (b.credit.debtToIncomeRatio.val : WithTop ℚ) ≤ a.credit.debtToIncomeRatio.val :=
    WithTop.coe_le_coe.mpr h.debtToIncomeRatio
  rw [dtiCheck, dtiCheck, h.loanType]
  exact grade_limits (fun hlt => hlt.trans_le hdti) fun hlt => Or.inr (hlt.trans_le hdti)

theorem employmentCheck_mono (h : AtLeastAsGood a b) :
    grade (employmentCheck r a) ≤ grade (employmentCheck r b) := by
  have hrank (c : UnderwritingContext r) :
      grade (employmentCheck r c) = employmentRank c.income.employmentStatus := by
    rw [employmentCheck]
    cases c.income.employmentStatus <;> rfl
  rw [hrank, hrank]
  exact h.employment

theorem derogatoryCheck_mono (h : AtLeastAsGood a b) :
    grade (derogatoryCheck r a) ≤ grade (derogatoryCheck r b) := by
  have hmarks := h.derogatoryMarks
  exact grade_limits hmarks.trans' fun hone => by omega

/-- No failed document, one, or more: the check goes by their number. -/
theorem documentCheck_grade {c : UnderwritingContext r} (hc : c.documents.Consistent) :
    grade (documentCheck r c) = 2 - c.documents.failedDocuments.length := by
  rw [DocumentVerificationResult.Consistent] at hc
  rw [documentCheck, hc]
  cases c.documents.failedDocuments with
  | nil => rfl
  | cons first more =>
    cases more with
    | nil => rfl
    | cons second more =>
      simp only [List.isEmpty_cons, Bool.not_false, if_true, List.length_cons]
      rw [if_pos (by omega), grade]
      omega

theorem documentCheck_mono (h : AtLeastAsGood a b) (ha : a.documents.Consistent)
    (hb : b.documents.Consistent) :
    grade (documentCheck r a) ≤ grade (documentCheck r b) := by
  rw [documentCheck_grade ha, documentCheck_grade hb]
  exact Nat.sub_le_sub_left h.failedDocuments 2

/-- A year's income is a number that is positive, or infinite. -/
theorem annualIncome_pos {c : UnderwritingContext r} (hincome : 0 < c.income.monthlyIncome.val) :
    ((0 : ℚ) : WithTop ℚ) < annualIncome r c := by
  have hyear : r.round c.income.monthlyIncome.val ≤ annualIncome r c := r.mono (by linarith)
  rw [c.income.monthlyIncome.property] at hyear
  exact (WithTop.coe_lt_coe.mpr hincome).trans_le hyear

theorem annualIncome_mono (h : AtLeastAsGood a b) : annualIncome r a ≤ annualIncome r b :=
  r.mono (mul_le_mul_of_nonneg_right h.monthlyIncome (by norm_num))

/-- A quotient of positive numbers falls with the dividend and as the divisor grows. -/
theorem Rounding.div_le_div (r : Rounding) {x y : ℚ} {u v : WithTop ℚ} (hx : 0 ≤ x) (hxy : x ≤ y)
    (hu : ((0 : ℚ) : WithTop ℚ) < u) (huv : u ≤ v) : r.div x v ≤ r.div y u := by
  cases u with
  | top =>
    rw [top_le_iff.mp huv]
    exact le_rfl
  | coe u =>
    have hu' : 0 < u := WithTop.coe_lt_coe.mp hu
    cases v with
    | top =>
      have hquotient : r.round 0 ≤ r.round (y / u) :=
        r.mono (div_nonneg (hx.trans hxy) hu'.le)
      rwa [r.zero] at hquotient
    | coe v =>
      have hle : x / v ≤ y / u :=
        div_le_div₀ (hx.trans hxy) hxy hu' (WithTop.coe_le_coe.mp huv)
      exact r.mono hle

theorem ltiCheck_mono (h : AtLeastAsGood a b) (hincome : 0 < a.income.monthlyIncome.val)
    (hamount : 0 < b.requestedAmount.val) :
    grade (ltiCheck r t a) ≤ grade (ltiCheck r t b) := by
  have hlti : lti r b ≤ lti r a := r.div_le_div hamount.le h.requestedAmount
    (annualIncome_pos hincome) (annualIncome_mono h)
  rw [ltiCheck, ltiCheck, h.loanType]
  by_cases hhigh : r.round (getLoanThresholds a.loanType).maxLti < lti r a
  · rw [if_pos hhigh]
    exact Nat.zero_le _
  · rw [if_neg hhigh, if_neg fun hlt => hhigh (hlt.trans_le hlti)]

/-- **An application that is as good in each respect gets no worse decision.** -/
theorem evaluate_mono (r : Rounding) (t : NumberText) {a b : UnderwritingContext r}
    (ha : WellFormed a) (hb : WellFormed b) (h : AtLeastAsGood a b) :
    (evaluate r t a).decision.rank ≤ (evaluate r t b).decision.rank := by
  refine rank_le_of_forall₂ ?_
  exact .cons (scoreCheck_mono h) <| .cons (dtiCheck_mono h) <| .cons (employmentCheck_mono h)
    <| .cons (ltiCheck_mono h ha.monthlyIncome hb.requestedAmount)
    <| .cons (documentCheck_mono h ha.documents hb.documents)
    <| .cons (derogatoryCheck_mono h) .nil

/-! ## Two applications -/

/-- Exact numbers, none of them infinite. -/
def exactRounding : Rounding where
  round q := q
  mono := WithTop.coe_strictMono.monotone
  zero := rfl

def wholeText : NumberText where
  text q := toString q.num
  toFixed _ _ := ""
  toLocaleString _ := ""

/-- An application with one failed document, or with none. -/
def application (score dti : ℚ) (failedDocuments : List String) :
    UnderwritingContext exactRounding where
  requestedAmount := ⟨300000, rfl⟩
  loanType := "CONVENTIONAL"
  income := { monthlyIncome := ⟨8000, rfl⟩, employmentStatus := .FULL_TIME }
  credit := {
    creditScore := ⟨score, rfl⟩
    debtToIncomeRatio := ⟨dti, rfl⟩
    paymentHistory := "GOOD"
    derogatoryMarks := 0 }
  documents := { allDocumentsValid := failedDocuments.isEmpty, failedDocuments }

theorem evaluate_mono_application :
    (evaluate exactRounding wholeText (application 690 0.44 ["W2"])).decision.rank
      ≤ (evaluate exactRounding wholeText (application 710 0.42 [])).decision.rank :=
  evaluate_mono exactRounding wholeText
    { monthlyIncome := by norm_num [application], requestedAmount := by norm_num [application],
      documents := rfl }
    { monthlyIncome := by norm_num [application], requestedAmount := by norm_num [application],
      documents := rfl }
    { loanType := rfl
      creditScore := by norm_num [application]
      debtToIncomeRatio := by norm_num [application]
      monthlyIncome := le_rfl
      requestedAmount := le_rfl
      employment := le_rfl
      derogatoryMarks := le_rfl
      failedDocuments := Nat.zero_le _ }

end MortgageAgent.Underwriting
