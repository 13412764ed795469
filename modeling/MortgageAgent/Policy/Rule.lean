import MortgageAgent.Lib.Json
import MortgageAgent.Platform

/-!
# The policy rule DSL

`parsePolicyRule` reads a stored DSL document. Each check either yields its value or records
an issue under the path it looked at; the document is returned once every part that the code
asks for is there, and is rejected with all recorded issues otherwise.

* **`Checked`** — a value that may be missing, with the issues recorded on the way.
* **`parsePolicyRule`** — the parser, part by part as in the source.
* **`PolicyRuleDocument.toJson`** — the document as a snapshot stores it.
* **`evaluatePolicyRule`** — a rule against the facts of a case.
-/

namespace MortgageAgent.Policy

/-! ## Documents -/

structure PolicyRuleApplicability where
  jurisdictions : List String
  product : String
  lifecycleEvents : List String
  effectiveFrom : String
  transitionRule : Option String
  deriving DecidableEq

/-- The one condition operator, `difference_percent`. -/
structure PolicyRuleCondition where
  left : String
  right : String
  greaterThan : JsDecimal
  deriving DecidableEq

structure PolicyRuleOutcome where
  condition : String
  route : String
  deriving DecidableEq

structure PolicyRuleDocument where
  id : String
  version : String
  applicability : PolicyRuleApplicability
  when : PolicyRuleCondition
  outcome : PolicyRuleOutcome
  deriving DecidableEq

structure PolicyDslIssue where
  path : String
  message : String
  deriving DecidableEq, Repr

/-- What the policy services take from their runtime: SHA-256 in hexadecimal, and whether
`Date.parse` makes sense of a text. -/
structure Deps where
  sha256 : String → String
  dateParses : String → Bool

/-! ## Checks -/

/-- What a check returned, and the issues it pushed. -/
structure Checked (α : Type) where
  value : Option α
  issues : List PolicyDslIssue := []

def Checked.ok {α : Type} (a : α) : Checked α := { value := some a }

def Checked.issue {α : Type} (path message : String) : Checked α :=
  { value := none, issues := [{ path, message }] }

/-- `raw[key]`; nothing is `undefined`. -/
def field (fields : List (String × Json)) (key : String) : Option Json :=
  Json.get? fields key

def requireString (value : Option Json) (path : String) : Checked String :=
  match value with
  | some (.str s) =>
    if (jsTrim s).isEmpty then .issue path "must be a non-empty string" else .ok s
  | _ => .issue path "must be a non-empty string"

/-- The strings of an array that holds nothing else, none of them blank. -/
def nonBlankStrings : List Json → Option (List String)
  | [] => some []
  | .str s :: rest =>
    if (jsTrim s).isEmpty then none else (nonBlankStrings rest).map (s :: ·)
  | _ :: _ => none

def requireStringArray (value : Option Json) (path : String) : Checked (List String) :=
  match value with
  | some (.arr (item :: items)) =>
    match nonBlankStrings (item :: items) with
    | some strings => .ok strings
    | none => .issue path "every element must be a non-empty string"
  | _ => .issue path "must be a non-empty array of strings"

def requireIsoDate (deps : Deps) (value : Option Json) (path : String) : Checked String :=
  match value with
  | some (.str s) =>
    if deps.dateParses s then .ok s else .issue path "must be an ISO 8601 date-time string"
  | _ => .issue path "must be an ISO 8601 date-time string"

/-- A number of a JSON document is finite. -/
def requireFiniteNumber (value : Option Json) (path : String) : Checked JsDecimal :=
  match value with
  | some (.num n) => .ok n
  | _ => .issue path "must be a finite number"

/-- `/^\d+\.\d+\.\d+$/.test(s)`. -/
def isSemver (s : String) : Bool :=
  let parts := s.toList.splitOn '.'
  parts.length = 3 && parts.all fun digits => !digits.isEmpty && digits.all Char.isDigit

def requireSemver (value : Option Json) : Checked String :=
  match value with
  | some (.str s) =>
    if isSemver s then .ok s
    else .issue "rule.version" "must be a semver string, e.g. \"1.0.0\""
  | _ => .issue "rule.version" "must be a semver string, e.g. \"1.0.0\""

/-! ## The parser -/

/-- An optional string: absent is fine, and a bad one is recorded. -/
def optionalString (value : Option Json) (path : String) : Checked String :=
  match value with
  | none => { value := none }
  | some v => requireString (some v) path

/-- The transition rule may be missing from the result whether it was absent or bad. -/
def parseApplicability (deps : Deps) (raw : Option Json) : Checked PolicyRuleApplicability :=
  match raw with
  | some (.obj fields) =>
    let jurisdictions :=
      requireStringArray (field fields "jurisdictions") "rule.applicability.jurisdictions"
    let product := requireString (field fields "product") "rule.applicability.product"
    let lifecycleEvents :=
      requireStringArray (field fields "lifecycle_events") "rule.applicability.lifecycle_events"
    let effectiveFrom :=
      requireIsoDate deps (field fields "effective_from") "rule.applicability.effective_from"
    let transitionRule :=
      optionalString (field fields "transition_rule") "rule.applicability.transition_rule"
    { value := do
        return {
          jurisdictions := ← jurisdictions.value
          product := ← product.value
          lifecycleEvents := ← lifecycleEvents.value
          effectiveFrom := ← effectiveFrom.value
          transitionRule := transitionRule.value }
      issues := jurisdictions.issues ++ product.issues ++ lifecycleEvents.issues
        ++ effectiveFrom.issues ++ transitionRule.issues }
  | _ => .issue "rule.applicability" "must be an object"

def parseDifferencePercent (body : Json) : Checked PolicyRuleCondition :=
  match body with
  | .obj fields =>
    let left := requireString (field fields "left") "rule.when.difference_percent.left"
    let right := requireString (field fields "right") "rule.when.difference_percent.right"
    let greaterThan :=
      requireFiniteNumber (field fields "greater_than") "rule.when.difference_percent.greater_than"
    { value := do
        return {
          left := ← left.value
          right := ← right.value
          greaterThan := ← greaterThan.value }
      issues := left.issues ++ right.issues ++ greaterThan.issues }
  | _ => .issue "rule.when.difference_percent" "must be an object"

def parseWhen (raw : Option Json) : Checked PolicyRuleCondition :=
  match raw with
  | some (.obj [(operator, body)]) =>
    if operator = "difference_percent" then parseDifferencePercent body
    else .issue "rule.when" ("unrecognized condition operator \"" ++ operator ++ "\"")
  | some (.obj _) => .issue "rule.when" "must have exactly one condition operator key"
  | _ => .issue "rule.when" "must be an object"

def parseOutcome (raw : Option Json) : Checked PolicyRuleOutcome :=
  match raw with
  | some (.obj fields) =>
    let condition := requireString (field fields "condition") "rule.outcome.condition"
    let route := requireString (field fields "route") "rule.outcome.route"
    { value := do return { condition := ← condition.value, route := ← route.value }
      issues := condition.issues ++ route.issues }
  | _ => .issue "rule.outcome" "must be an object"

def parseRuleFields (deps : Deps) (ruleRaw : List (String × Json)) : Checked PolicyRuleDocument :=
  let id := requireString (field ruleRaw "id") "rule.id"
  let version := requireSemver (field ruleRaw "version")
  let applicability := parseApplicability deps (field ruleRaw "applicability")
  let condition := parseWhen (field ruleRaw "when")
  let outcome := parseOutcome (field ruleRaw "outcome")
  { value := do
      return {
        id := ← id.value
        version := ← version.value
        applicability := ← applicability.value
        when := ← condition.value
        outcome := ← outcome.value }
    issues := id.issues ++ version.issues ++ applicability.issues ++ condition.issues
      ++ outcome.issues }

/-- The document, or the issues of `PolicyDslValidationError`. -/
def parsePolicyRule (deps : Deps) (raw : Json) :
    Except (List PolicyDslIssue) PolicyRuleDocument :=
  let notARule := [{ path := "rule", message := "must be an object with a \"rule\" key" }]
  match raw with
  | .obj fields =>
    match field fields "rule" with
    | some (.obj ruleRaw) =>
      match parseRuleFields deps ruleRaw with
      | { value := some document, .. } => .ok document
      | { value := none, issues } => .error issues
    | _ => .error notARule
  | _ => .error notARule

/-! ## Documents as JSON -/

def PolicyRuleApplicability.toJson (a : PolicyRuleApplicability) : Json :=
  .obj ([("jurisdictions", .arr (a.jurisdictions.map .str)), ("product", .str a.product),
    ("lifecycleEvents", .arr (a.lifecycleEvents.map .str)),
    ("effectiveFrom", .str a.effectiveFrom)]
    ++ a.transitionRule.toList.map fun r => ("transitionRule", .str r))

def PolicyRuleCondition.toJson (c : PolicyRuleCondition) : Json :=
  .obj [("kind", .str "difference_percent"), ("left", .str c.left), ("right", .str c.right),
    ("greaterThan", .num c.greaterThan)]

def PolicyRuleOutcome.toJson (o : PolicyRuleOutcome) : Json :=
  .obj [("condition", .str o.condition), ("route", .str o.route)]

def PolicyRuleDocument.toJson (d : PolicyRuleDocument) : Json :=
  .obj [("id", .str d.id), ("version", .str d.version),
    ("applicability", d.applicability.toJson), ("when", d.when.toJson),
    ("outcome", d.outcome.toJson)]

/-! ## Evaluating a rule -/

/-- The floating-point arithmetic of `difference_percent`. -/
structure FactArithmetic where
  /-- `(Math.abs(right - left) / Math.abs(left)) * 100`, or nothing for `Infinity` -/
  differencePercent : (left right : JsDecimal) → Option JsDecimal
  /-- `toFixed(2)` -/
  toFixed2 : Option JsDecimal → String

/-- The facts a rule is evaluated against; a fact that is `undefined` is left out. -/
structure PolicyFactContext where
  application : List (String × Json)
  evidence : List (String × Json)

def PolicyFactContext.toJson (context : PolicyFactContext) : Json :=
  .obj [("application", .obj context.application), ("evidence", .obj context.evidence)]

/-- `current[segment]`, for an object that has it. -/
def factMember (current : Json) (segment : String) : Option Json :=
  match current with
  | .obj fields => field fields segment
  | _ => none

/-- Follows a dotted path through the facts to a number. -/
def resolveFactPath (context : PolicyFactContext) (path : String) : Option JsDecimal :=
  let segments := (path.toList.splitOn '.').map String.ofList
  match segments.foldlM factMember context.toJson with
  | some (.num n) => some n
  | _ => none

structure RuleEvaluation where
  matched : Bool
  reason : String
  deriving DecidableEq

def evaluateCondition (arith : FactArithmetic) (condition : PolicyRuleCondition)
    (context : PolicyFactContext) : RuleEvaluation :=
  match resolveFactPath context condition.left, resolveFactPath context condition.right with
  | some left, some right =>
    if left = .zero then
      { matched := false
        reason := "cannot evaluate: \"" ++ condition.left
          ++ "\" is 0, percent difference is undefined" }
    else
      let differencePercent := arith.differencePercent left right
      -- `Infinity` is greater than every threshold
      let matched := differencePercent.all fun d => condition.greaterThan.lt d
      { matched
        reason := "difference_percent(" ++ condition.left ++ "=" ++ left.text ++ ", "
          ++ condition.right ++ "=" ++ right.text ++ ") = "
          ++ arith.toFixed2 differencePercent ++ "% " ++ (if matched then ">" else "<=") ++ " "
          ++ condition.greaterThan.text ++ "%" }
  | _, _ =>
    { matched := false
      reason := "cannot evaluate: missing or non-numeric fact(s) for \"" ++ condition.left
        ++ "\" and/or \"" ++ condition.right ++ "\"" }

/-- A matched rule carries its own outcome block, which the callers read from the rule. -/
def evaluatePolicyRule (arith : FactArithmetic) (rule : PolicyRuleDocument)
    (context : PolicyFactContext) : RuleEvaluation :=
  evaluateCondition arith rule.when context

end MortgageAgent.Policy
