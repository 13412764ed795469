import MortgageAgent.Policy.Rule

/-!
# The documents the rule parser accepts

Every check of the parser either returns a value or pushes an issue, and a document is returned when
all values are there. One check may push an issue and is not asked for its value: that of the
transition rule, which is optional.

* **`Decides`** — a check that returns the value with a given property, or an issue if there is
  none.
* **`RuleOf`** — the document a JSON value says, its transition rule apart.
* **`recordedIssues`** — all that the checks push.
* **`ParsesFully`** — accepted exactly if no issue is pushed, every field carried, every issue
  reported. **`parsesFully_iff`**: so it is, but for a bad transition rule in a document that is
  good otherwise.
-/

namespace MortgageAgent.Policy

/-! ## What a document says -/

def NonBlank (s : String) : Prop := (jsTrim s).isEmpty = false

instance (s : String) : Decidable (NonBlank s) := inferInstanceAs (Decidable (_ = _))

/-- The member of an object. -/
def member (raw : Option Json) (key : String) : Option Json :=
  match raw with
  | some (.obj fields) => field fields key
  | _ => none

/-- A string that is not blank. -/
def IsString (raw : Option Json) (s : String) : Prop := raw = some (.str s) ∧ NonBlank s

/-- Strings that are not blank, one or more. -/
def IsStrings (raw : Option Json) (strings : List String) : Prop :=
  raw = some (.arr (strings.map .str)) ∧ strings ≠ [] ∧ ∀ s ∈ strings, NonBlank s

/-- The applicability, its transition rule apart. -/
structure ApplicabilityOf (deps : Deps) (raw : Option Json) (a : PolicyRuleApplicability) :
    Prop where
  jurisdictions : IsStrings (member raw "jurisdictions") a.jurisdictions
  product : IsString (member raw "product") a.product
  lifecycleEvents : IsStrings (member raw "lifecycle_events") a.lifecycleEvents
  effectiveFrom : member raw "effective_from" = some (.str a.effectiveFrom)
    ∧ deps.dateParses a.effectiveFrom = true

structure ComparisonOf (raw : Option Json) (c : PolicyRuleCondition) : Prop where
  left : IsString (member raw "left") c.left
  right : IsString (member raw "right") c.right
  greaterThan : member raw "greater_than" = some (.num c.greaterThan)

/-- One operator, and it is `difference_percent`. -/
def ConditionOf (raw : Option Json) (c : PolicyRuleCondition) : Prop :=
  ∃ body, raw = some (.obj [("difference_percent", body)]) ∧ ComparisonOf (some body) c

structure OutcomeOf (raw : Option Json) (o : PolicyRuleOutcome) : Prop where
  condition : IsString (member raw "condition") o.condition
  route : IsString (member raw "route") o.route

/-- The document that `raw.rule` says, its transition rule apart. -/
structure RuleOf (deps : Deps) (rule : Option Json) (document : PolicyRuleDocument) : Prop where
  id : IsString (member rule "id") document.id
  version : member rule "version" = some (.str document.version)
    ∧ isSemver document.version = true
  applicability : ApplicabilityOf deps (member rule "applicability") document.applicability
  when : ConditionOf (member rule "when") document.when
  outcome : OutcomeOf (member rule "outcome") document.outcome

/-- The transition rule of a document. -/
def transitionRule (raw : Json) : Option Json :=
  member (member (member (some raw) "rule") "applicability") "transition_rule"

/-- A transition rule is there that is no string, or a blank one. -/
def BadTransition (transition : Option Json) : Prop :=
  ∃ v, transition = some v ∧ ∀ s, ¬ IsString (some v) s

/-! ## Checks -/

/-- The check returns the one value with the property `P`, or pushes an issue if there is none. -/
structure Decides {α : Type} (c : Checked α) (P : α → Prop) : Prop where
  value : ∀ a, c.value = some a ↔ P a
  issues : c.issues = [] ↔ ∃ a, P a

theorem Decides.ok {α : Type} {P : α → Prop} {a : α} (ha : P a) (hone : ∀ b, P b → b = a) :
    Decides (.ok a) P where
  value b := ⟨fun h => Option.some.inj h ▸ ha, fun h => congrArg some (hone b h).symm⟩
  issues := iff_of_true rfl ⟨a, ha⟩

theorem Decides.issue {α : Type} {P : α → Prop} {path message : String} (hnone : ∀ a, ¬ P a) :
    Decides (.issue path message) P where
  value a := iff_of_false (fun h => by cases h) (hnone a)
  issues := iff_of_false (fun h => by cases h) fun ⟨a, ha⟩ => hnone a ha

theorem requireString_decides (value : Option Json) (path : String) :
    Decides (requireString value path) (IsString value) := by
  unfold requireString
  split
  · next s =>
    split
    · next hblank =>
      refine .issue fun b hb => ?_
      obtain ⟨heq, hnonBlank⟩ := hb
      cases heq
      rw [NonBlank, hblank] at hnonBlank
      cases hnonBlank
    · next hblank =>
      refine .ok ⟨rfl, Bool.eq_false_iff.mpr hblank⟩ fun b hb => ?_
      cases hb.1
      rfl
  · next hother => exact .issue fun b hb => hother b hb.1

theorem nonBlankStrings_eq_some_iff {items : List Json} {strings : List String} :
    nonBlankStrings items = some strings
      ↔ items = strings.map .str ∧ ∀ s ∈ strings, NonBlank s := by
  induction items generalizing strings with
  | nil =>
    rw [nonBlankStrings]
    cases strings with
    | nil => simp
    | cons s strings => simp
  | cons item items ih =>
    cases item with
    | str s =>
      rw [nonBlankStrings]
      split
      · next hblank =>
        refine iff_of_false (fun h => by cases h) ?_
        rintro ⟨heq, hall⟩
        cases strings with
        | nil => cases heq
        | cons s' strings =>
          cases heq
          have hnonBlank := hall s (List.mem_cons_self ..)
          rw [NonBlank, hblank] at hnonBlank
          cases hnonBlank
      · next hblank =>
        have hs : NonBlank s := Bool.eq_false_iff.mpr hblank
        cases strings with
        | nil => simp
        | cons s' strings =>
          rw [Option.map_eq_some_iff]
          constructor
          · rintro ⟨rest, hrest, heq⟩
            cases heq
            obtain ⟨rfl, hall⟩ := ih.mp hrest
            exact ⟨rfl, List.forall_mem_cons.mpr ⟨hs, hall⟩⟩
          · rintro ⟨heq, hall⟩
            cases heq
            exact ⟨strings, ih.mpr ⟨rfl, (List.forall_mem_cons.mp hall).2⟩, rfl⟩
    | _ =>
      refine iff_of_false (fun h => by cases h) ?_
      rintro ⟨heq, -⟩
      cases strings <;> cases heq

theorem requireStringArray_decides (value : Option Json) (path : String) :
    Decides (requireStringArray value path) (IsStrings value) := by
  unfold requireStringArray
  split
  · next item items =>
    cases hstrings : nonBlankStrings (item :: items) with
    | some strings =>
      obtain ⟨heq, hall⟩ := nonBlankStrings_eq_some_iff.mp hstrings
      refine .ok ⟨by rw [heq], ?_, hall⟩ fun strings' h => ?_
      · rintro rfl
        cases heq
      · obtain ⟨heq', -, hall'⟩ := h
        have hsame := nonBlankStrings_eq_some_iff.mpr
          ⟨Json.arr.inj (Option.some.inj heq'), hall'⟩
        rw [hstrings] at hsame
        exact (Option.some.inj hsame).symm
    | none =>
      refine .issue fun strings h => ?_
      obtain ⟨heq, -, hall⟩ := h
      have hsome := nonBlankStrings_eq_some_iff.mpr
        ⟨Json.arr.inj (Option.some.inj heq), hall⟩
      rw [hstrings] at hsome
      cases hsome
  · next hother =>
    refine .issue fun strings h => ?_
    obtain ⟨heq, hne, -⟩ := h
    cases strings with
    | nil => exact hne rfl
    | cons s strings => exact hother _ _ heq

theorem requireIsoDate_decides (deps : Deps) (value : Option Json) (path : String) :
    Decides (requireIsoDate deps value path)
      fun s => value = some (.str s) ∧ deps.dateParses s = true := by
  unfold requireIsoDate
  split
  · next s =>
    split
    · next hdate =>
      refine .ok ⟨rfl, hdate⟩ fun b hb => ?_
      cases hb.1
      rfl
    · next hdate =>
      refine .issue fun b hb => ?_
      obtain ⟨heq, hparses⟩ := hb
      cases heq
      exact hdate hparses
  · next hother => exact .issue fun b hb => hother b hb.1

theorem requireFiniteNumber_decides (value : Option Json) (path : String) :
    Decides (requireFiniteNumber value path) fun n => value = some (.num n) := by
  unfold requireFiniteNumber
  split
  · next n =>
    refine .ok rfl fun b hb => ?_
    cases hb
    rfl
  · next hother => exact .issue fun b hb => hother b hb

theorem requireSemver_decides (value : Option Json) :
    Decides (requireSemver value) fun s => value = some (.str s) ∧ isSemver s = true := by
  unfold requireSemver
  split
  · next s =>
    split
    · next hsemver =>
      refine .ok ⟨rfl, hsemver⟩ fun b hb => ?_
      cases hb.1
      rfl
    · next hsemver =>
      refine .issue fun b hb => ?_
      obtain ⟨heq, hparses⟩ := hb
      cases heq
      exact hsemver hparses
  · next hother => exact .issue fun b hb => hother b hb.1

/-- The issue of an optional string is that of a bad one. -/
theorem optionalString_issues (value : Option Json) (path : String) :
    (optionalString value path).issues = [] ↔ ¬ BadTransition value := by
  cases value with
  | none => exact iff_of_true rfl fun ⟨v, hv, _⟩ => by cases hv
  | some v =>
    have hiff := (requireString_decides (some v) path).issues
    rw [optionalString, hiff]
    refine ⟨fun ⟨s, hs⟩ ⟨v', hv', hbad⟩ => ?_, fun hgood => ?_⟩
    · cases hv'
      exact hbad s hs
    · by_contra hnone
      exact hgood ⟨v, rfl, fun s hs => hnone ⟨s, hs⟩⟩

/-- A good transition rule is carried. -/
theorem optionalString_value {value : Option Json} (hgood : ¬ BadTransition value) (path : String) :
    value = (optionalString value path).value.map .str := by
  cases value with
  | none => rfl
  | some v =>
    obtain ⟨s, hs⟩ := (requireString_decides (some v) path).issues.mp
      ((optionalString_issues (some v) path).mpr hgood)
    rw [optionalString, ((requireString_decides (some v) path).value s).mpr hs]
    exact hs.1

/-- A bad one is dropped. -/
theorem optionalString_bad {value : Option Json} (hbad : BadTransition value) (path : String) :
    (optionalString value path).value = none := by
  obtain ⟨v, rfl, hnone⟩ := hbad
  refine Option.eq_none_iff_forall_ne_some.mpr fun s hs => ?_
  exact hnone s (((requireString_decides (some v) path).value s).mp hs)

/-! ## Records -/

theorem member_eq_some {raw : Option Json} {key : String} {v : Json}
    (h : member raw key = some v) : ∃ fields, raw = some (.obj fields) := by
  unfold member at h
  split at h
  · exact ⟨_, rfl⟩
  · cases h

theorem parseOutcome_decides (raw : Option Json) : Decides (parseOutcome raw) (OutcomeOf raw) := by
  unfold parseOutcome
  split
  · next fields =>
    have hcondition := requireString_decides (field fields "condition") "rule.outcome.condition"
    have hroute := requireString_decides (field fields "route") "rule.outcome.route"
    refine ⟨fun o => ?_, ?_⟩
    · simp only [Option.bind_eq_bind, Option.bind_eq_some_iff, Option.pure_def, Option.some.injEq,
        hcondition.value, hroute.value]
      constructor
      · rintro ⟨condition, hc, route, hr, rfl⟩
        exact ⟨hc, hr⟩
      · intro h
        exact ⟨_, h.condition, _, h.route, rfl⟩
    · rw [List.append_eq_nil_iff, hcondition.issues, hroute.issues]
      constructor
      · rintro ⟨⟨condition, hc⟩, route, hr⟩
        exact ⟨⟨condition, route⟩, hc, hr⟩
      · rintro ⟨o, h⟩
        exact ⟨⟨_, h.condition⟩, _, h.route⟩
  · next hother =>
    refine .issue fun o h => ?_
    obtain ⟨fields, hraw⟩ := member_eq_some h.condition.1
    exact hother fields hraw

theorem parseDifferencePercent_decides (body : Json) :
    Decides (parseDifferencePercent body) (ComparisonOf (some body)) := by
  unfold parseDifferencePercent
  split
  · next fields =>
    have hleft := requireString_decides (field fields "left") "rule.when.difference_percent.left"
    have hright :=
      requireString_decides (field fields "right") "rule.when.difference_percent.right"
    have hgreater := requireFiniteNumber_decides (field fields "greater_than")
      "rule.when.difference_percent.greater_than"
    refine ⟨fun c => ?_, ?_⟩
    · simp only [Option.bind_eq_bind, Option.bind_eq_some_iff, Option.pure_def, Option.some.injEq,
        hleft.value, hright.value, hgreater.value]
      constructor
      · rintro ⟨left, hl, right, hr, greaterThan, hg, rfl⟩
        exact ⟨hl, hr, hg⟩
      · intro h
        exact ⟨_, h.left, _, h.right, _, h.greaterThan, rfl⟩
    · rw [List.append_eq_nil_iff, List.append_eq_nil_iff, hleft.issues, hright.issues,
        hgreater.issues]
      constructor
      · rintro ⟨⟨⟨left, hl⟩, right, hr⟩, greaterThan, hg⟩
        exact ⟨⟨left, right, greaterThan⟩, hl, hr, hg⟩
      · rintro ⟨c, h⟩
        exact ⟨⟨⟨_, h.left⟩, _, h.right⟩, _, h.greaterThan⟩
  · next hother =>
    refine .issue fun c h => ?_
    obtain ⟨fields, hraw⟩ := member_eq_some h.left.1
    exact hother fields (Option.some.inj hraw)

theorem parseWhen_decides (raw : Option Json) : Decides (parseWhen raw) (ConditionOf raw) := by
  unfold parseWhen
  split
  · next operator body =>
    split
    · next hoperator =>
      have hbody := parseDifferencePercent_decides body
      rw [hoperator]
      refine ⟨fun c => ?_, ?_⟩
      · rw [hbody.value]
        refine ⟨fun h => ⟨body, rfl, h⟩, fun ⟨body', heq, h⟩ => ?_⟩
        cases heq
        exact h
      · rw [hbody.issues]
        refine ⟨fun ⟨c, h⟩ => ⟨c, body, rfl, h⟩, fun ⟨c, body', heq, h⟩ => ?_⟩
        cases heq
        exact ⟨c, h⟩
    · next hoperator =>
      refine .issue fun c ⟨body', heq, _⟩ => ?_
      cases heq
      exact hoperator rfl
  · next fields hother =>
    refine .issue fun c ⟨body', heq, _⟩ => ?_
    cases heq
    exact hother _ _ rfl
  · next hother =>
    refine .issue fun c ⟨body', heq, _⟩ => ?_
    exact hother _ heq

/-- The applicability is returned without regard to the issue of its transition rule. -/
theorem parseApplicability_value (deps : Deps) (raw : Option Json) (a : PolicyRuleApplicability) :
    (parseApplicability deps raw).value = some a ↔ ApplicabilityOf deps raw a
      ∧ a.transitionRule = (optionalString (member raw "transition_rule")
        "rule.applicability.transition_rule").value := by
  unfold parseApplicability
  split
  · next fields =>
    have hjurisdictions := requireStringArray_decides (field fields "jurisdictions")
      "rule.applicability.jurisdictions"
    have hproduct := requireString_decides (field fields "product") "rule.applicability.product"
    have hevents := requireStringArray_decides (field fields "lifecycle_events")
      "rule.applicability.lifecycle_events"
    have hfrom := requireIsoDate_decides deps (field fields "effective_from")
      "rule.applicability.effective_from"
    simp only [Option.bind_eq_bind, Option.bind_eq_some_iff, Option.pure_def, Option.some.injEq,
      hjurisdictions.value, hproduct.value, hevents.value, hfrom.value]
    constructor
    · rintro ⟨jurisdictions, hj, product, hp, events, he, from_, hf, rfl⟩
      exact ⟨⟨hj, hp, he, hf⟩, rfl⟩
    · rintro ⟨h, htransition⟩
      refine ⟨_, h.jurisdictions, _, h.product, _, h.lifecycleEvents, _, h.effectiveFrom, ?_⟩
      rw [← show a.transitionRule = (optionalString (field fields "transition_rule") _).value
        from htransition]
  · next hother =>
    refine iff_of_false (fun h => by cases h) fun h => ?_
    obtain ⟨fields, hraw⟩ := member_eq_some h.1.product.1
    exact hother fields hraw

theorem parseApplicability_issues (deps : Deps) (raw : Option Json) :
    (parseApplicability deps raw).issues = [] ↔ (∃ a, ApplicabilityOf deps raw a)
      ∧ ¬ BadTransition (member raw "transition_rule") := by
  unfold parseApplicability
  split
  · next fields =>
    have hjurisdictions := requireStringArray_decides (field fields "jurisdictions")
      "rule.applicability.jurisdictions"
    have hproduct := requireString_decides (field fields "product") "rule.applicability.product"
    have hevents := requireStringArray_decides (field fields "lifecycle_events")
      "rule.applicability.lifecycle_events"
    have hfrom := requireIsoDate_decides deps (field fields "effective_from")
      "rule.applicability.effective_from"
    simp only [List.append_eq_nil_iff, hjurisdictions.issues, hproduct.issues, hevents.issues,
      hfrom.issues, optionalString_issues]
    refine and_congr_left' ?_
    constructor
    · rintro ⟨⟨⟨⟨jurisdictions, hj⟩, product, hp⟩, events, he⟩, from_, hf⟩
      exact ⟨⟨jurisdictions, product, events, from_, none⟩, hj, hp, he, hf⟩
    · rintro ⟨a, h⟩
      exact ⟨⟨⟨⟨_, h.jurisdictions⟩, _, h.product⟩, _, h.lifecycleEvents⟩, _, h.effectiveFrom⟩
  · next hother =>
    refine iff_of_false (fun h => by cases h) fun ⟨⟨a, h⟩, _⟩ => ?_
    obtain ⟨fields, hraw⟩ := member_eq_some h.product.1
    exact hother fields hraw

/-! ## The document -/

theorem parseRuleFields_value (deps : Deps) (ruleRaw : List (String × Json))
    (document : PolicyRuleDocument) :
    (parseRuleFields deps ruleRaw).value = some document
      ↔ RuleOf deps (some (.obj ruleRaw)) document ∧ document.applicability.transitionRule
        = (optionalString (member (field ruleRaw "applicability") "transition_rule")
          "rule.applicability.transition_rule").value := by
  have hid := requireString_decides (field ruleRaw "id") "rule.id"
  have hversion := requireSemver_decides (field ruleRaw "version")
  have hwhen := parseWhen_decides (field ruleRaw "when")
  have houtcome := parseOutcome_decides (field ruleRaw "outcome")
  unfold parseRuleFields
  simp only [Option.bind_eq_bind, Option.bind_eq_some_iff, Option.pure_def, Option.some.injEq,
    hid.value, hversion.value, hwhen.value, houtcome.value, parseApplicability_value]
  constructor
  · rintro ⟨id, hi, version, hv, applicability, ⟨ha, htransition⟩, condition, hc, outcome, ho, rfl⟩
    exact ⟨⟨hi, hv, ha, hc, ho⟩, htransition⟩
  · rintro ⟨h, htransition⟩
    exact ⟨_, h.id, _, h.version, _, ⟨h.applicability, htransition⟩, _, h.when, _, h.outcome, rfl⟩

theorem parseRuleFields_issues (deps : Deps) (ruleRaw : List (String × Json)) :
    (parseRuleFields deps ruleRaw).issues = []
      ↔ (∃ document, RuleOf deps (some (.obj ruleRaw)) document)
        ∧ ¬ BadTransition (member (field ruleRaw "applicability") "transition_rule") := by
  have hid := requireString_decides (field ruleRaw "id") "rule.id"
  have hversion := requireSemver_decides (field ruleRaw "version")
  have hwhen := parseWhen_decides (field ruleRaw "when")
  have houtcome := parseOutcome_decides (field ruleRaw "outcome")
  unfold parseRuleFields
  simp only [List.append_eq_nil_iff, hid.issues, hversion.issues, hwhen.issues, houtcome.issues,
    parseApplicability_issues]
  constructor
  · rintro ⟨⟨⟨⟨⟨id, hi⟩, version, hv⟩, ⟨applicability, ha⟩, htransition⟩, condition, hc⟩,
      outcome, ho⟩
    exact ⟨⟨⟨id, version, applicability, condition, outcome⟩, hi, hv, ha, hc, ho⟩, htransition⟩
  · rintro ⟨⟨document, h⟩, htransition⟩
    exact ⟨⟨⟨⟨⟨_, h.id⟩, _, h.version⟩, ⟨_, h.applicability⟩, htransition⟩, _, h.when⟩,
      _, h.outcome⟩

/-- All that the checks of a document push. -/
def recordedIssues (deps : Deps) (raw : Json) : List PolicyDslIssue :=
  match member (some raw) "rule" with
  | some (.obj ruleRaw) => (parseRuleFields deps ruleRaw).issues
  | _ => [{ path := "rule", message := "must be an object with a \"rule\" key" }]

/-- A document is returned exactly if no check pushes an issue, and it carries every field; whatever
issue is pushed, the input is rejected with it. -/
structure ParsesFully (deps : Deps) (raw : Json) : Prop where
  accepts : (∃ document, parsePolicyRule deps raw = .ok document) ↔ recordedIssues deps raw = []
  carries : ∀ document, parsePolicyRule deps raw = .ok document →
    RuleOf deps (member (some raw) "rule") document
      ∧ transitionRule raw = document.applicability.transitionRule.map .str
  reports : ∀ issue ∈ recordedIssues deps raw,
    ∃ issues, parsePolicyRule deps raw = .error issues ∧ issue ∈ issues

/-- The parser returns what the fields give, or throws all that was pushed. -/
theorem parsePolicyRule_cases (deps : Deps) (raw : Json) :
    (∃ ruleRaw, member (some raw) "rule" = some (.obj ruleRaw) ∧ parsePolicyRule deps raw
        = match (parseRuleFields deps ruleRaw).value with
          | some document => .ok document
          | none => .error (parseRuleFields deps ruleRaw).issues)
      ∨ (∀ ruleRaw, member (some raw) "rule" ≠ some (.obj ruleRaw))
        ∧ parsePolicyRule deps raw = .error (recordedIssues deps raw) := by
  cases hrule : member (some raw) "rule" with
  | none =>
    refine .inr ⟨(fun _ h => by cases h), ?_⟩
    rw [recordedIssues, hrule]
    unfold parsePolicyRule
    split
    · next fields =>
      rw [show field fields "rule" = none from hrule]
    · rfl
  | some rule =>
    obtain ⟨fields, hraw⟩ := member_eq_some hrule
    obtain rfl := Option.some.inj hraw
    have hfield : field fields "rule" = some rule := hrule
    cases rule with
    | obj ruleRaw =>
      refine .inl ⟨ruleRaw, rfl, ?_⟩
      unfold parsePolicyRule
      simp only [hfield]
      split
      · next hvalue => rw [hvalue]
      · next hvalue => rw [hvalue]
    | _ =>
      refine .inr ⟨(fun _ h => by cases h), ?_⟩
      rw [recordedIssues, hrule]
      unfold parsePolicyRule
      simp only [hfield]

/-- A value that is not an object says no document. -/
theorem RuleOf.obj {deps : Deps} {rule : Option Json} {document : PolicyRuleDocument}
    (h : RuleOf deps rule document) : ∃ ruleRaw, rule = some (.obj ruleRaw) :=
  member_eq_some h.id.1

/-- The document with another transition rule. -/
def PolicyRuleDocument.withTransition (document : PolicyRuleDocument) (rule : Option String) :
    PolicyRuleDocument :=
  { document with applicability := { document.applicability with transitionRule := rule } }

/-- The transition rule is apart from what a value says. -/
theorem RuleOf.withTransition {deps : Deps} {rule : Option Json} {document : PolicyRuleDocument}
    (h : RuleOf deps rule document) (transition : Option String) :
    RuleOf deps rule (document.withTransition transition) where
  id := h.id
  version := h.version
  applicability :=
    { jurisdictions := h.applicability.jurisdictions
      product := h.applicability.product
      lifecycleEvents := h.applicability.lifecycleEvents
      effectiveFrom := h.applicability.effectiveFrom }
  when := h.when
  outcome := h.outcome

/-- **The parser is faithful to its issues** exactly where no transition rule is bad in a document
that is good otherwise. -/
theorem parsesFully_iff (deps : Deps) (raw : Json) :
    ParsesFully deps raw
      ↔ ¬ ((∃ document, RuleOf deps (member (some raw) "rule") document)
        ∧ BadTransition (transitionRule raw)) := by
  rcases parsePolicyRule_cases deps raw with ⟨ruleRaw, hrule, hparse⟩ | ⟨hnone, hparse⟩
  · have hissues : recordedIssues deps raw = (parseRuleFields deps ruleRaw).issues := by
      rw [recordedIssues, hrule]
    have htransition : transitionRule raw
        = member (field ruleRaw "applicability") "transition_rule" := by
      rw [transitionRule, hrule]
      rfl
    rw [hrule, htransition]
    constructor
    · rintro hfully ⟨⟨document, hdocument⟩, hbad⟩
      -- the document is returned without its transition rule
      have hvalue := (parseRuleFields_value deps ruleRaw (document.withTransition none)).mpr
        ⟨hdocument.withTransition none, (optionalString_bad hbad _).symm⟩
      rw [hvalue] at hparse
      have hnil := hfully.accepts.mp ⟨_, hparse⟩
      rw [hissues, parseRuleFields_issues] at hnil
      exact hnil.2 hbad
    · intro hgood
      have hvalue_of (document : PolicyRuleDocument)
          (h : (parseRuleFields deps ruleRaw).value = some document) :
          ¬ BadTransition (member (field ruleRaw "applicability") "transition_rule") :=
        fun hbad => hgood ⟨⟨document, ((parseRuleFields_value ..).mp h).1⟩, hbad⟩
      cases hvalue : (parseRuleFields deps ruleRaw).value with
      | some document =>
        rw [hvalue] at hparse
        obtain ⟨hdocument, hcarried⟩ := (parseRuleFields_value ..).mp hvalue
        have htransitionGood := hvalue_of document hvalue
        have hnil : recordedIssues deps raw = [] := by
          rw [hissues, parseRuleFields_issues]
          exact ⟨⟨document, hdocument⟩, htransitionGood⟩
        refine ⟨iff_of_true ⟨document, hparse⟩ hnil, fun document' h => ?_, fun issue h => ?_⟩
        · rw [hparse] at h
          cases h
          rw [hrule, htransition, hcarried]
          exact ⟨hdocument, optionalString_value htransitionGood _⟩
        · rw [hnil] at h
          cases h
      | none =>
        rw [hvalue] at hparse
        have hne : recordedIssues deps raw ≠ [] := by
          rw [hissues, Ne, parseRuleFields_issues]
          rintro ⟨⟨document, hdocument⟩, htransitionGood⟩
          have hsome := (parseRuleFields_value deps ruleRaw (document.withTransition _)).mpr
            ⟨hdocument.withTransition _, rfl⟩
          rw [hvalue] at hsome
          cases hsome
        refine ⟨iff_of_false (fun ⟨_, h⟩ => ?_) hne, fun document h => ?_, fun issue h => ?_⟩
        · rw [hparse] at h
          cases h
        · rw [hparse] at h
          cases h
        · rw [hissues] at h
          exact ⟨_, hparse, h⟩
  · refine iff_of_true ⟨iff_of_false (fun ⟨_, h⟩ => ?_) ?_, fun document h => ?_,
      fun issue h => ⟨_, hparse, h⟩⟩ ?_
    · rw [hparse] at h
      cases h
    · rw [recordedIssues]
      split
      · exact absurd ‹_› (hnone _)
      · exact List.cons_ne_nil _ _
    · rw [hparse] at h
      cases h
    · rintro ⟨⟨document, h⟩, -⟩
      obtain ⟨ruleRaw, hrule⟩ := h.obj
      exact hnone ruleRaw hrule

/-- The rule of the income discrepancy, with more fields of its applicability. -/
def incomeDsl (more : List (String × Json)) : Json :=
  .obj [("rule", .obj [
    ("id", .str "income_discrepancy"), ("version", .str "1.0.0"),
    ("applicability", .obj ([
      ("jurisdictions", .arr [.str "US"]), ("product", .str "CONVENTIONAL"),
      ("lifecycle_events", .arr [.str "UNDERWRITING_REVIEW"]),
      ("effective_from", .str "2026-01-01T00:00:00Z")] ++ more)),
    ("when", .obj [("difference_percent", .obj [
      ("left", .str "application.statedMonthlyIncome"),
      ("right", .str "evidence.verifiedMonthlyIncome"),
      ("greater_than", .num (.scaled 25 0))])]),
    ("outcome", .obj [
      ("condition", .str "INCOME_DISCREPANCY"), ("route", .str "HUMAN_REVIEW")])])]

def plainDeps : Deps where
  sha256 := id
  dateParses _ := true

/-- A transition rule that is no string is recorded, and the document is accepted without it. -/
theorem bad_transition_accepted :
    ¬ ParsesFully plainDeps (incomeDsl [("transition_rule", .arr [.str "evaluation_as_of_effective_date"])]) := by
  intro hfully
  have hnil := hfully.accepts.mp ⟨_, rfl⟩
  revert hnil
  decide +kernel

end MortgageAgent.Policy
