import Mathlib.Algebra.Order.Field.Rat
import Mathlib.Data.Rat.Floor
import Mathlib.Tactic.FieldSimp
import Mathlib.Tactic.Linarith
import Mathlib.Tactic.NormNum
import Mathlib.Tactic.Positivity
import MortgageAgent.Provider.Finding

/-!
# Plaid bank income

`mapBankIncomeToPlaidIncomeData` makes an income finding of the sources that Plaid reports, which
the sandbox adapter's `normalize` passes on as it is. Its numbers come out of divisions, so they
are taken as exact rationals here, and the contract with them.

* **`mapBankIncomeToPlaidIncomeData`** — the mapping; `Math.sqrt` is a parameter.
* **`ExactValue`** / **`validateIncome`** — the contract for rational numbers, which agrees with
  the contract of the JSON findings (`acceptsExact_ofJson`).
* **`bankAccountAge_isInt_iff`** — when the age of the account is a whole number of months.
* **`normalize_accepted_iff`** — the finding is accepted just then.
-/

namespace MortgageAgent.Provider.Plaid

/-! ## The contract for exact numbers -/

/-- A value of a finding: a number, or a text. -/
inductive ExactValue where
  | num (q : ℚ)
  | str (s : String)

def maxSafeInteger : Nat := 9007199254740991

/-- `FieldSchema.accepts`, for the checks of an income finding. -/
def acceptsExact : FieldSchema → ExactValue → Bool
  | .int lo hi, .num q => q.isInt && q.num.natAbs ≤ maxSafeInteger && lo ≤ q
      && hi.all fun (bound : Int) => q ≤ bound
  | .number lo hi, .num q => lo ≤ q && hi.all fun (bound : Int) => q ≤ bound
  | .oneOf values, .str s => values.contains s
  | _, _ => false

def satisfiesExactly (schema : List (String × FieldSchema)) (fields : List (String × ExactValue)) :
    Bool :=
  (schema.all fun (key, field) => (fields.lookup key).any (acceptsExact field))
    && fields.all fun (key, _) => (schema.lookup key).isSome

/-- The number a JSON number is. -/
def valueOf (n : JsDecimal) : ℚ := n.mantissa * 10 ^ n.exponent

/-- `validateProviderFinding` for `INCOME`, whose schema refines nothing. -/
def validateIncome (finding : List (String × ExactValue)) (observedAt : Option Instant)
    (now : Instant) : Except ProviderError (List (String × ExactValue)) :=
  if !freshObservedAt observedAt now then
    .error (.other ("provider " ++ ProviderCapability.INCOME.text
      ++ " receipt has an invalid or stale observedAt timestamp"))
  else if !satisfiesExactly incomeSchema finding then
    .error (.other ("provider " ++ ProviderCapability.INCOME.text
      ++ " finding violates the canonical contract"))
  else .ok finding

/-! ## The mapping -/

structure HistoricalSummary where
  startDate : Day
  endDate : Day
  /-- the `amount` of each entry of `total_amounts`, if there is one -/
  totalAmounts : Option (List ℚ)

structure BankIncomeSource where
  incomeCategory : String
  payFrequency : String
  totalAmount : ℚ
  startDate : Day
  endDate : Day
  historicalSummary : List HistoricalSummary

inductive EmploymentStatus where
  | FULL_TIME
  | PART_TIME
  | SELF_EMPLOYED
  | UNEMPLOYED
  deriving DecidableEq

def EmploymentStatus.text : EmploymentStatus → String
  | .FULL_TIME => "FULL_TIME"
  | .PART_TIME => "PART_TIME"
  | .SELF_EMPLOYED => "SELF_EMPLOYED"
  | .UNEMPLOYED => "UNEMPLOYED"

structure PlaidIncomeData where
  monthlyIncome : ℚ
  employmentStatus : EmploymentStatus
  bankAccountAge : ℚ
  incomeStability : ℚ

def regularPayFrequencies : List String := ["WEEKLY", "BIWEEKLY", "SEMI_MONTHLY", "MONTHLY"]

/-- `Math.round`: half goes up. -/
def mathRound (q : ℚ) : ℤ := ⌊q + 1 / 2⌋

def monthsBetween (startDate endDate : Day) : ℚ :=
  let days : ℚ := max 1 (endDate - startDate : Int)
  max 1 (days / 30.44)

def sum (amounts : List ℚ) : ℚ := amounts.foldl (· + ·) 0

/-- The totals of the months that have one above zero. -/
def monthlyTotals (historicalSummary : List HistoricalSummary) : List ℚ :=
  (historicalSummary.map fun month => ((month.totalAmounts.getD []).head?.getD 0)).filter (0 < ·)

def computeStabilityScore (sqrt : ℚ → ℚ) (historicalSummary : List HistoricalSummary) : ℚ :=
  let totals := monthlyTotals historicalSummary
  if totals.length < 2 then (if totals.length = 1 then 100 else 0)
  else
    let mean := sum totals / totals.length
    let variance := sum (totals.map fun v => (v - mean) ^ 2) / totals.length
    let coefficientOfVariation := sqrt variance / mean
    max 0 (mathRound (100 - coefficientOfVariation * 100))

/-- `sources.map((s) => s.start_date).sort()[0]`. -/
def earliestStart (sources : List BankIncomeSource) : Option Day :=
  (sources.map (·.startDate)).min?

def mapBankIncomeToPlaidIncomeData (sqrt : ℚ → ℚ) (today : Day)
    (sources : List BankIncomeSource) : PlaidIncomeData :=
  let salarySource := sources.find? (·.incomeCategory = "SALARY")
  let gigSource := sources.find? (·.incomeCategory = "GIG_ECONOMY")
  let primary := salarySource.or gigSource
  { monthlyIncome := match primary with
      | some s => mathRound (s.totalAmount / monthsBetween s.startDate s.endDate * 100) / 100
      | none => 0
    employmentStatus :=
      if salarySource.any (regularPayFrequencies.contains ·.payFrequency) then .FULL_TIME
      else if gigSource.isSome then .SELF_EMPLOYED
      else .UNEMPLOYED
    bankAccountAge := match earliestStart sources with
      | some earliest => monthsBetween earliest today
      | none => 0
    incomeStability := match primary with
      | some s => computeStabilityScore sqrt s.historicalSummary
      | none => 0 }

/-- The finding as an object. -/
def PlaidIncomeData.fields (d : PlaidIncomeData) : List (String × ExactValue) :=
  [("monthlyIncome", .num d.monthlyIncome),
   ("employmentStatus", .str d.employmentStatus.text),
   ("bankAccountAge", .num d.bankAccountAge),
   ("incomeStability", .num d.incomeStability)]

/-- `PlaidIncomeSandboxAdapter.normalize`. -/
def normalize (payload : List (String × ExactValue)) : List (String × ExactValue) := payload

/-! ## The two contracts agree -/

theorem valueOf_of_nonneg {n : JsDecimal} (h : 0 ≤ n.exponent) :
    valueOf n = (n.mantissa * 10 ^ n.exponent.toNat : ℤ) := by
  have hexponent : n.exponent = (n.exponent.toNat : ℤ) := (Int.toNat_of_nonneg h).symm
  rw [valueOf, hexponent, zpow_natCast, Int.toNat_natCast]
  push_cast
  rfl

theorem valueOf_of_neg {n : JsDecimal} (h : ¬ 0 ≤ n.exponent) :
    valueOf n * (10 ^ (-n.exponent).toNat : ℤ) = n.mantissa := by
  have hexponent : n.exponent = -((-n.exponent).toNat : ℤ) := by omega
  rw [valueOf]
  conv_lhs => rw [hexponent]
  rw [neg_neg, Int.toNat_natCast, zpow_neg, zpow_natCast]
  push_cast
  field_simp

theorem leInt_iff (n : JsDecimal) (v : Int) : n.leInt v = true ↔ valueOf n ≤ v := by
  by_cases h : 0 ≤ n.exponent
  · rw [valueOf_of_nonneg h, JsDecimal.leInt, if_pos h, decide_eq_true_iff, Int.cast_le]
  · have hpos : (0 : ℚ) < (10 ^ (-n.exponent).toNat : ℤ) := by positivity
    rw [JsDecimal.leInt, if_neg h, decide_eq_true_iff, ← mul_le_mul_iff_left₀ hpos,
      valueOf_of_neg h]
    exact_mod_cast Iff.rfl

theorem geInt_iff (n : JsDecimal) (v : Int) : n.geInt v = true ↔ v ≤ valueOf n := by
  by_cases h : 0 ≤ n.exponent
  · rw [valueOf_of_nonneg h, JsDecimal.geInt, if_pos h, decide_eq_true_iff, Int.cast_le]
  · have hpos : (0 : ℚ) < (10 ^ (-n.exponent).toNat : ℤ) := by positivity
    rw [JsDecimal.geInt, if_neg h, decide_eq_true_iff, ← mul_le_mul_iff_left₀ hpos,
      valueOf_of_neg h]
    exact_mod_cast Iff.rfl

theorem isInt_iff (q : ℚ) : q.isInt = true ↔ ∃ z : ℤ, q = z := by
  rw [Rat.isInt, beq_iff_eq, Rat.den_eq_one_iff]
  constructor
  · exact fun h => ⟨q.num, h.symm⟩
  · rintro ⟨z, rfl⟩
    rfl

/-- The digits are the shortest, so a number with digits after the point is no integer. -/
theorem isInteger_iff (n : JsDecimal) : n.isInteger = true ↔ (valueOf n).isInt = true := by
  rw [isInt_iff, JsDecimal.isInteger, decide_eq_true_iff]
  constructor
  · exact fun h => ⟨_, valueOf_of_nonneg h⟩
  · rintro ⟨z, hz⟩
    by_contra hneg
    have hmantissa := valueOf_of_neg hneg
    rw [hz] at hmantissa
    have hdigits : z * 10 ^ (-n.exponent).toNat = n.mantissa := by exact_mod_cast hmantissa
    obtain ⟨k, hk⟩ : ∃ k, (-n.exponent).toNat = k + 1 :=
      Nat.exists_eq_succ_of_ne_zero (by omega)
    rw [hk, pow_succ, ← mul_assoc] at hdigits
    have hten : n.mantissa % 10 = 0 := by
      rw [← hdigits]
      exact Int.mul_emod_left _ _
    rcases n.shortest with hshortest | ⟨-, hzero⟩
    · exact hshortest hten
    · omega

theorem isSafeInteger_eq (n : JsDecimal) :
    n.isSafeInteger = ((valueOf n).isInt && (valueOf n).num.natAbs ≤ maxSafeInteger) := by
  have hint := isInteger_iff n
  rw [JsDecimal.isSafeInteger]
  cases hinteger : n.isInteger with
  | false =>
    rw [hinteger] at hint
    have hnot : (valueOf n).isInt = false := by
      rw [← Bool.not_eq_true, ← hint]
      exact Bool.false_ne_true
    rw [hnot]
    rfl
  | true =>
    have hnum : (valueOf n).num = n.mantissa * 10 ^ n.exponent.toNat := by
      rw [valueOf_of_nonneg (decide_eq_true_iff.mp hinteger)]
      exact Rat.num_intCast _
    rw [hnum, hint.mp hinteger]
    rfl

/-- On the numbers that JSON has, the exact contract is the contract. -/
theorem acceptsExact_ofJson (f : FieldSchema) (n : JsDecimal) :
    acceptsExact f (.num (valueOf n)) = f.accepts (.num n) := by
  have hge (v : Int) : n.geInt v = decide ((v : ℚ) ≤ valueOf n) :=
    Bool.eq_iff_iff.mpr ((geInt_iff n v).trans decide_eq_true_iff.symm)
  have hle : n.leInt = fun v : Int => decide (valueOf n ≤ (v : ℚ)) :=
    funext fun v => Bool.eq_iff_iff.mpr ((leInt_iff n v).trans decide_eq_true_iff.symm)
  cases f with
  | bool => rfl
  | int lo hi => rw [acceptsExact, FieldSchema.accepts, isSafeInteger_eq, hge, hle]
  | number lo hi => rw [acceptsExact, FieldSchema.accepts, hge, hle]
  | oneOf values => rfl
  | nonemptyStrings => rfl

/-! ## The numbers of the finding -/

/-- The days are whole, and a month is 761/25 of them. -/
theorem monthsBetween_eq (startDate endDate : Day) :
    monthsBetween startDate endDate
      = max 1 (((max 1 (endDate - startDate) : ℤ) : ℚ) * 25 / 761) := by
  rw [monthsBetween]
  push_cast
  congr 1
  ring

theorem one_le_monthsBetween (startDate endDate : Day) : 1 ≤ monthsBetween startDate endDate :=
  le_max_left ..

theorem monthsBetween_of_le {startDate endDate : Day} (h : endDate - startDate ≤ 30) :
    monthsBetween startDate endDate = 1 := by
  have hdays : ((max 1 (endDate - startDate) : ℤ) : ℚ) ≤ 30 := by
    exact_mod_cast max_le (by decide) h
  rw [monthsBetween_eq, max_eq_left_iff]
  linarith

theorem monthsBetween_of_lt {startDate endDate : Day} (h : 30 < endDate - startDate) :
    monthsBetween startDate endDate = ((endDate - startDate : ℤ) : ℚ) * 25 / 761 := by
  have hdays : (31 : ℚ) ≤ ((endDate - startDate : ℤ) : ℚ) := by exact_mod_cast h
  have hone : 1 ≤ endDate - startDate := le_trans (by decide) h.le
  rw [monthsBetween_eq, max_eq_right hone, max_eq_right_iff]
  linarith

theorem dvd_of_mul_eq {days months : ℤ} (h : days * 25 = months * 761) : 761 ∣ days := by
  omega

/-- Only so many days are a whole number of months. -/
theorem monthsBetween_isInt_iff (startDate endDate : Day) :
    (monthsBetween startDate endDate).isInt = true ↔
      endDate - startDate ≤ 30 ∨ 761 ∣ endDate - startDate := by
  rw [isInt_iff]
  by_cases h : endDate - startDate ≤ 30
  · exact iff_of_true ⟨1, by rw [monthsBetween_of_le h]; rfl⟩ (Or.inl h)
  · rw [monthsBetween_of_lt (not_le.mp h), or_iff_right h]
    generalize endDate - startDate = days at *
    constructor
    · rintro ⟨z, hz⟩
      have hdays : days * 25 = z * 761 := by
        rw [div_eq_iff (by norm_num)] at hz
        exact_mod_cast hz
      exact dvd_of_mul_eq hdays
    · rintro ⟨months, rfl⟩
      refine ⟨months * 25, ?_⟩
      push_cast
      ring

theorem sum_nonneg {amounts : List ℚ} (h : ∀ a ∈ amounts, 0 ≤ a) : 0 ≤ sum amounts := by
  have hfold : ∀ (start : ℚ), 0 ≤ start → 0 ≤ amounts.foldl (· + ·) start := by
    induction amounts with
    | nil => exact fun _ hstart => hstart
    | cons a amounts ih =>
      intro start hstart
      rw [List.foldl_cons]
      exact ih (fun b hb => h b (List.mem_cons_of_mem a hb)) _
        (add_nonneg hstart (h a (List.mem_cons_self ..)))
  exact hfold 0 le_rfl

/-- `Math.sqrt` gives no negative number for a number that is none. -/
def RootNonneg (sqrt : ℚ → ℚ) : Prop := ∀ q, 0 ≤ q → 0 ≤ sqrt q

theorem mathRound_nonneg {q : ℚ} (h : 0 ≤ q) : 0 ≤ mathRound q :=
  Int.floor_nonneg.mpr (by linarith)

theorem mathRound_le {q : ℚ} {bound : ℤ} (h : q ≤ bound) : mathRound q ≤ bound := by
  rw [mathRound, ← Int.lt_add_one_iff, Int.floor_lt]
  push_cast
  linarith

theorem computeStabilityScore_mem {sqrt : ℚ → ℚ} (hsqrt : RootNonneg sqrt)
    (historicalSummary : List HistoricalSummary) :
    0 ≤ computeStabilityScore sqrt historicalSummary
      ∧ computeStabilityScore sqrt historicalSummary ≤ 100 := by
  rw [computeStabilityScore]
  split
  · split <;> norm_num
  · have hmean : 0 ≤ sum (monthlyTotals historicalSummary)
        / (monthlyTotals historicalSummary).length := by
      refine div_nonneg (sum_nonneg fun a ha => ?_) (Nat.cast_nonneg _)
      exact (of_decide_eq_true (List.mem_filter.mp ha).2).le
    generalize sum (monthlyTotals historicalSummary) / (monthlyTotals historicalSummary).length
      = mean at *
    have hvariance : 0 ≤ sum ((monthlyTotals historicalSummary).map fun v => (v - mean) ^ 2)
        / (monthlyTotals historicalSummary).length := by
      refine div_nonneg (sum_nonneg fun a ha => ?_) (Nat.cast_nonneg _)
      obtain ⟨v, -, rfl⟩ := List.mem_map.mp ha
      exact sq_nonneg _
    have hvariation := div_nonneg (hsqrt _ hvariance) hmean
    have hround : mathRound (100 - sqrt (sum ((monthlyTotals historicalSummary).map
        fun v => (v - mean) ^ 2) / (monthlyTotals historicalSummary).length) / mean * 100) ≤ 100 :=
      mathRound_le (by push_cast; linarith)
    refine ⟨le_max_left .., max_le (by norm_num) ?_⟩
    exact_mod_cast hround

/-- A `Date` is at most a hundred million days away from the epoch. -/
def ValidDate (day : Day) : Prop := -100000000 ≤ day ∧ day ≤ 100000000

instance (day : Day) : Decidable (ValidDate day) :=
  inferInstanceAs (Decidable (-100000000 ≤ day ∧ day ≤ 100000000))

theorem monthsBetween_le {startDate endDate : Day} (hstart : ValidDate startDate)
    (hend : ValidDate endDate) : monthsBetween startDate endDate ≤ 10000000 := by
  have hspan : endDate - startDate ≤ 200000000 := by
    have h : endDate - startDate ≤ 100000000 - -100000000 := Int.sub_le_sub hend.2 hstart.1
    exact h
  have hdays : ((max 1 (endDate - startDate) : ℤ) : ℚ) ≤ 200000000 := by
    exact_mod_cast max_le (by decide) hspan
  rw [monthsBetween_eq]
  exact max_le (by norm_num) (by linarith)

theorem natAbs_num_le {q : ℚ} (hint : q.isInt = true) (hnonneg : 0 ≤ q) {bound : Nat}
    (hbound : q ≤ bound) : q.num.natAbs ≤ bound := by
  obtain ⟨z, rfl⟩ := (isInt_iff q).mp hint
  have hz : 0 ≤ z := by exact_mod_cast hnonneg
  have hle : z ≤ bound := by exact_mod_cast hbound
  rw [Rat.num_intCast]
  omega

theorem validateIncome_ok_iff {finding : List (String × ExactValue)} {observedAt : Option Instant}
    {now : Instant} (hfresh : freshObservedAt observedAt now = true) :
    validateIncome finding observedAt now = .ok finding ↔
      satisfiesExactly incomeSchema finding = true := by
  rw [validateIncome, hfresh]
  cases satisfiesExactly incomeSchema finding with
  | false => exact iff_of_false (fun h => by cases h) Bool.false_ne_true
  | true => exact iff_of_true rfl rfl

/-- What the schema asks of an income finding with these four fields. -/
theorem satisfiesExactly_fields_iff (d : PlaidIncomeData) :
    satisfiesExactly incomeSchema d.fields = true ↔
      0 ≤ d.monthlyIncome
        ∧ (d.bankAccountAge.isInt = true ∧ d.bankAccountAge.num.natAbs ≤ maxSafeInteger
            ∧ 0 ≤ d.bankAccountAge)
        ∧ 0 ≤ d.incomeStability ∧ d.incomeStability ≤ 100 := by
  have hstatus : d.employmentStatus.text = "FULL_TIME" ∨ d.employmentStatus.text = "PART_TIME"
      ∨ d.employmentStatus.text = "SELF_EMPLOYED" ∨ d.employmentStatus.text = "UNEMPLOYED" := by
    cases d.employmentStatus <;> decide
  simp [satisfiesExactly, incomeSchema, PlaidIncomeData.fields, List.lookup_cons, acceptsExact, hstatus,
    and_assoc]

section Accepted

variable {sqrt : ℚ → ℚ} {today : Day} {sources : List BankIncomeSource}

theorem monthlyIncome_nonneg (hamounts : ∀ s ∈ sources, 0 ≤ s.totalAmount) :
    0 ≤ (mapBankIncomeToPlaidIncomeData sqrt today sources).monthlyIncome := by
  rw [mapBankIncomeToPlaidIncomeData]
  dsimp only
  split
  · rename_i s hs
    have hmem : s ∈ sources := by
      rcases Option.or_eq_some_iff.mp hs with hs | ⟨-, hs⟩
      · exact List.mem_of_find?_eq_some hs
      · exact List.mem_of_find?_eq_some hs
    have hmonths := one_le_monthsBetween s.startDate s.endDate
    have hrate : 0 ≤ s.totalAmount / monthsBetween s.startDate s.endDate * 100 :=
      mul_nonneg (div_nonneg (hamounts s hmem) (by linarith)) (by norm_num)
    have hround : (0 : ℚ) ≤ (mathRound
        (s.totalAmount / monthsBetween s.startDate s.endDate * 100) : ℤ) := by
      exact_mod_cast mathRound_nonneg hrate
    exact div_nonneg hround (by norm_num)
  · exact le_rfl

theorem incomeStability_mem (hsqrt : RootNonneg sqrt) :
    0 ≤ (mapBankIncomeToPlaidIncomeData sqrt today sources).incomeStability
      ∧ (mapBankIncomeToPlaidIncomeData sqrt today sources).incomeStability ≤ 100 := by
  rw [mapBankIncomeToPlaidIncomeData]
  dsimp only
  split
  · exact computeStabilityScore_mem hsqrt _
  · norm_num

/-- The whole months of the account are few enough to be a safe integer. -/
theorem bankAccountAge_iff (hdates : ∀ s ∈ sources, ValidDate s.startDate)
    (htoday : ValidDate today) :
    ((mapBankIncomeToPlaidIncomeData sqrt today sources).bankAccountAge.isInt = true
      ∧ (mapBankIncomeToPlaidIncomeData sqrt today sources).bankAccountAge.num.natAbs
          ≤ maxSafeInteger
      ∧ 0 ≤ (mapBankIncomeToPlaidIncomeData sqrt today sources).bankAccountAge) ↔
      ∀ earliest ∈ earliestStart sources, today - earliest ≤ 30 ∨ 761 ∣ today - earliest := by
  rw [mapBankIncomeToPlaidIncomeData]
  dsimp only
  cases hearliest : earliestStart sources with
  | none => exact iff_of_true ⟨rfl, Nat.zero_le _, le_rfl⟩ nofun
  | some earliest =>
    have hmem : earliest ∈ sources.map (·.startDate) := List.min?_mem hearliest
    obtain ⟨s, hs, hstart⟩ := List.mem_map.mp hmem
    have hnonneg := zero_le_one.trans (one_le_monthsBetween earliest today)
    have hbound : monthsBetween earliest today ≤ maxSafeInteger :=
      (monthsBetween_le (hstart ▸ hdates s hs) htoday).trans (by norm_num [maxSafeInteger])
    constructor
    · rintro ⟨hint, -, -⟩ e ⟨⟩
      exact (monthsBetween_isInt_iff earliest today).mp hint
    · intro hwhole
      have hint := (monthsBetween_isInt_iff earliest today).mpr (hwhole earliest rfl)
      exact ⟨hint, natAbs_num_le hint hnonneg hbound, hnonneg⟩

/-- **A finding of Plaid's sources passes the contract** exactly if there are no sources, or the
oldest is at most 30 days old, or its age in days is a multiple of 761, 25 months. -/
theorem normalize_accepted_iff {observedAt : Option Instant} {now : Instant}
    (hsqrt : RootNonneg sqrt) (hamounts : ∀ s ∈ sources, 0 ≤ s.totalAmount)
    (hdates : ∀ s ∈ sources, ValidDate s.startDate) (htoday : ValidDate today)
    (hfresh : freshObservedAt observedAt now = true) :
    validateIncome (normalize (mapBankIncomeToPlaidIncomeData sqrt today sources).fields)
        observedAt now
      = .ok (mapBankIncomeToPlaidIncomeData sqrt today sources).fields ↔
      ∀ earliest ∈ earliestStart sources, today - earliest ≤ 30 ∨ 761 ∣ today - earliest := by
  rw [normalize, validateIncome_ok_iff hfresh, satisfiesExactly_fields_iff,
    bankAccountAge_iff hdates htoday, and_iff_right (monthlyIncome_nonneg hamounts),
    and_iff_left (incomeStability_mem hsqrt)]

end Accepted

/-- A root that is exact for squares. -/
def rootOfSquare (q : ℚ) : ℚ := Nat.sqrt q.num.toNat / Nat.sqrt q.den

theorem rootOfSquare_nonneg : RootNonneg rootOfSquare := fun _ _ =>
  div_nonneg (Nat.cast_nonneg _) (Nat.cast_nonneg _)

/-- A salary of 12000 that began so many days before the epoch day 20667, 2026-08-02. -/
def salary (days : Int) : BankIncomeSource where
  incomeCategory := "SALARY"
  payFrequency := "MONTHLY"
  totalAmount := 12000
  startDate := 20667 - days
  endDate := 20666
  historicalSummary := [
    { startDate := 20605, endDate := 20634, totalAmounts := some [6000] },
    { startDate := 20635, endDate := 20665, totalAmounts := some [6000] }]

theorem salary_accepted_new : validateIncome
    (normalize (mapBankIncomeToPlaidIncomeData rootOfSquare 20667 [salary 20]).fields) (some 5) 7
      = .ok (mapBankIncomeToPlaidIncomeData rootOfSquare 20667 [salary 20]).fields :=
  (normalize_accepted_iff rootOfSquare_nonneg (by simp [salary]) (by decide) (by decide)
    (by decide)).mpr (by decide)

/-- **A salary of ten months** gives an age of 300 / 30.44 months, which is no integer. -/
theorem salary_refused : ¬ ∀ (sqrt : ℚ → ℚ) (today : Day) (sources : List BankIncomeSource)
    (observedAt : Option Instant) (now : Instant), RootNonneg sqrt →
    (∀ s ∈ sources, 0 ≤ s.totalAmount) → (∀ s ∈ sources, ValidDate s.startDate) →
    (∀ s ∈ sources, s.startDate ≤ today) → ValidDate today →
    freshObservedAt observedAt now = true →
    validateIncome (normalize (mapBankIncomeToPlaidIncomeData sqrt today sources).fields)
      observedAt now = .ok (mapBankIncomeToPlaidIncomeData sqrt today sources).fields := by
  intro haccepted
  have h := haccepted rootOfSquare 20667 [salary 300] (some 5) 7 rootOfSquare_nonneg
    (by simp [salary]) (by decide) (by simp [salary]) (by decide) (by decide)
  rw [normalize, validateIncome_ok_iff (by decide)] at h
  revert h
  decide +kernel

end MortgageAgent.Provider.Plaid
