import Mathlib.Data.List.Infix
import MortgageAgent.Platform

/-!
# Rendering and classifying a communication

`classifyCommunication` renders a template with the supplied variables and decides whether the
result may be sent as `ROUTINE`. Every condition that fails adds a reason, and a message with a
reason is `PROTECTED`.

* **`renderTemplate`** — the placeholders `{{name}}` of a body, replaced from left to right.
* **`classifyCommunication`** — the class, its reasons and the rendered content.
* **`routine_of_classify`** — what a routine outcome vouches for.
-/

namespace MortgageAgent.Communications

/-! ## Rows and inputs -/

inductive CommunicationClassification where
  | PROTECTED
  | ROUTINE
  deriving DecidableEq, Repr

def CommunicationClassification.text : CommunicationClassification → String
  | .PROTECTED => "PROTECTED"
  | .ROUTINE => "ROUTINE"

inductive CommunicationTemplateStatus where
  | DRAFT
  | APPROVED
  | RETIRED
  deriving DecidableEq, Repr

def CommunicationTemplateStatus.text : CommunicationTemplateStatus → String
  | .DRAFT => "DRAFT"
  | .APPROVED => "APPROVED"
  | .RETIRED => "RETIRED"

/-- `communication_templates`. -/
structure CommunicationTemplate where
  id : Uuid
  tenantId : Uuid
  templateKey : String
  version : String
  channel : String
  locale : String
  recipientRelationship : String
  bodyTemplate : String
  allowedVariables : List String
  attachmentsAllowed : Bool := false
  status : CommunicationTemplateStatus := .DRAFT
  deriving DecidableEq

structure DraftCommunicationInput where
  recipientRelationship : String
  channel : String
  locale : String
  templateKey : Option String := none
  templateVersion : Option String := none
  /-- `variables`: own keys, in the order in which `Object.keys` lists them -/
  variableValues : List (String × String)
  freeformContent : Option String := none
  hasAttachments : Bool
  deriving DecidableEq

structure ClassificationOutcome where
  classification : CommunicationClassification
  reasons : List String
  renderedContent : String
  templateId : Option Uuid
  deriving DecidableEq

/-! ## `communication-render.ts` -/

/-- `\w`. -/
def isWordChar (c : Char) : Bool :=
  ('A' ≤ c && c ≤ 'Z') || ('a' ≤ c && c ≤ 'z') || ('0' ≤ c && c ≤ '9') || c = '_'

/-- The key of a match of `/\{\{(\w+)\}\}/` at the start of the text. -/
def matchPlaceholder : List Char → Option (List Char)
  | '{' :: '{' :: rest =>
    match rest.takeWhile isWordChar, rest.dropWhile isWordChar with
    | c :: key, '}' :: '}' :: _ => some (c :: key)
    | _, _ => none
  | _ => none

/-- What `Object.prototype` has under a key, as text: `key in variables` finds it too. -/
def inheritedText (key : String) : Option String :=
  if ["constructor", "toString", "toLocaleString", "valueOf", "hasOwnProperty", "isPrototypeOf",
      "propertyIsEnumerable", "__defineGetter__", "__defineSetter__", "__lookupGetter__",
      "__lookupSetter__"].contains key then
    some ("function " ++ (if key = "constructor" then "Object" else key) ++ "() \x7b [native code] \x7d")
  else if key = "__proto__" then some "[object Object]"
  else none

/-- `key in variables`, with the text of `variables[key]`. -/
def variableText (variableValues : List (String × String)) (key : String) : Option String :=
  (variableValues.lookup key).or (inheritedText key)

/-- `bodyTemplate.replace(PLACEHOLDER_PATTERN, …)`: the content, and the keys that are missing. The
first `skip` characters belong to the match before. -/
def replacePlaceholders (variableValues : List (String × String)) :
    (skip : Nat) → List Char → List Char × List String
  | _, [] => ([], [])
  | skip + 1, _ :: rest => replacePlaceholders variableValues skip rest
  | 0, c :: rest =>
    match matchPlaceholder (c :: rest) with
    | some key =>
      let (content, missing) := replacePlaceholders variableValues (key.length + 3) rest
      match variableText variableValues (String.ofList key) with
      | some value => (value.toList ++ content, missing)
      | none => ("\x7b\x7b".toList ++ key ++ "\x7d\x7d".toList ++ content, String.ofList key :: missing)
    | none =>
      let (content, missing) := replacePlaceholders variableValues 0 rest
      (c :: content, missing)

structure RenderResult where
  content : String
  missingVariables : List String
  unknownVariables : List String
  deriving DecidableEq

def renderTemplate (bodyTemplate : String) (allowedVariables : List String)
    (variableValues : List (String × String)) : RenderResult :=
  let (content, missingVariables) := replacePlaceholders variableValues 0 bodyTemplate.toList
  { content := String.ofList content
    missingVariables
    unknownVariables := (variableValues.map Prod.fst).filter fun key => !allowedVariables.contains key }

example : renderTemplate "Dear \x7b\x7bname\x7d\x7d, \x7b\x7b\x7bamount\x7d\x7d due \x7b\x7bday\x7d\x7d." ["name", "amount"]
      [("name", "Ann"), ("amount", "5"), ("note", "")]
    = { content := "Dear Ann, \x7b5 due \x7b\x7bday\x7d\x7d."
        missingVariables := ["day"]
        unknownVariables := ["note"] } := by decide

/-! ## `communication-classifier.ts` -/

def NEGATIVE_IMPLICATION_KEYWORDS : List String :=
  ["denied", "denial", "reject", "ineligible", "ineligibility", "adverse", "not approved",
    "unable to approve", "disqualif", "cannot proceed", "terminated", "cancel"]

/-- `toLowerCase`, as far as it produces ASCII: the letters A to Z, the Kelvin sign, and the
dotted capital I, which keeps its dot as a combining character. -/
def lowerChar (c : Char) : List Char :=
  if c.val = 0x212A then ['k']
  else if c.val = 0x130 then ['i', Char.ofNat 0x307]
  else [c.toLower]

def findNegativeImplication (variableValues : List (String × String)) : Option String :=
  (variableValues.find? fun (_, value) =>
    let lower := value.toList.flatMap lowerChar
    NEGATIVE_IMPLICATION_KEYWORDS.any fun keyword => decide (keyword.toList <:+: lower)).map Prod.fst

/-- The conditions on a template that was found, each with the reason it adds. -/
def templateReasons (input : DraftCommunicationInput) (templateKey templateVersion : String)
    (template : CommunicationTemplate) (rendered : RenderResult) : List String :=
  let reason (condition : Bool) (text : String) : List String := if condition then [text] else []
  reason (template.status ≠ .APPROVED)
      ("template \"" ++ templateKey ++ "\"@" ++ templateVersion ++ " is not APPROVED (status: "
        ++ template.status.text ++ ")")
    ++ reason (template.channel ≠ input.channel)
      ("channel \"" ++ input.channel ++ "\" does not match the approved template's channel \""
        ++ template.channel ++ "\"")
    ++ reason (template.locale ≠ input.locale)
      ("locale \"" ++ input.locale ++ "\" is not supported by this template (approved for \""
        ++ template.locale ++ "\")")
    ++ reason (template.recipientRelationship ≠ input.recipientRelationship)
      ("recipient relationship \"" ++ input.recipientRelationship
        ++ "\" does not match the approved template's \"" ++ template.recipientRelationship ++ "\"")
    ++ reason (input.hasAttachments && !template.attachmentsAllowed)
      "attachments are not allowed by this template"
    ++ reason (rendered.missingVariables ≠ [])
      ("failed variable validation: missing value(s) for "
        ++ ", ".intercalate rendered.missingVariables)
    ++ reason (rendered.unknownVariables ≠ [])
      ("failed variable validation: unexpected variable(s) "
        ++ ", ".intercalate rendered.unknownVariables ++ " not declared by this template")
    ++ match findNegativeImplication input.variableValues with
      -- an empty key is falsy, and is not reported
      | some key =>
        reason (key ≠ "")
          ("negative or ambiguous implication detected in variable \"" ++ key ++ "\"")
      | none => []

/-- A string that is there and not empty. -/
def truthy (s : Option String) : Option String := s.filter (· ≠ "")

def classifyCommunication (input : DraftCommunicationInput)
    (template : Option CommunicationTemplate) : Except String ClassificationOutcome :=
  match input.freeformContent with
  | some content =>
    .ok
      { classification := .PROTECTED
        reasons := ["free-form material text"]
        renderedContent := content
        templateId := none }
  | none =>
    match truthy input.templateKey, truthy input.templateVersion with
    | some templateKey, some templateVersion =>
      match template with
      | none =>
        .ok
          { classification := .PROTECTED
            reasons := ["referenced template \"" ++ templateKey ++ "\"@" ++ templateVersion
              ++ " not found"]
            renderedContent := ""
            templateId := none }
      | some template =>
        let rendered :=
          renderTemplate template.bodyTemplate template.allowedVariables input.variableValues
        let reasons := templateReasons input templateKey templateVersion template rendered
        .ok
          { classification := if reasons.length = 0 then .ROUTINE else .PROTECTED
            reasons
            renderedContent := rendered.content
            templateId := some template.id }
    | _, _ =>
      .error ("classifyCommunication requires either freeformContent or a templateKey and "
        ++ "templateVersion")

/-- **What a routine outcome vouches for**: an approved template for this channel, locale and
recipient, every placeholder filled, no variable beyond the template's, and the content is the
rendering of that template. -/
structure Routine (input : DraftCommunicationInput) (template : CommunicationTemplate)
    (outcome : ClassificationOutcome) : Prop where
  notFreeform : input.freeformContent = none
  approved : template.status = .APPROVED
  channel : template.channel = input.channel
  locale : template.locale = input.locale
  recipient : template.recipientRelationship = input.recipientRelationship
  attachments : input.hasAttachments = true → template.attachmentsAllowed = true
  filled : (renderTemplate template.bodyTemplate template.allowedVariables
    input.variableValues).missingVariables = []
  declared : ∀ key ∈ input.variableValues.map Prod.fst, key ∈ template.allowedVariables
  content : outcome.renderedContent = (renderTemplate template.bodyTemplate
    template.allowedVariables input.variableValues).content

theorem routine_of_classify {input : DraftCommunicationInput}
    {template : Option CommunicationTemplate} {outcome : ClassificationOutcome}
    (h : classifyCommunication input template = .ok outcome)
    (hroutine : outcome.classification = .ROUTINE) :
    ∃ t, template = some t ∧ outcome.templateId = some t.id ∧ Routine input t outcome := by
  unfold classifyCommunication at h
  split at h
  · cases h
    cases hroutine
  next hfreeform =>
  split at h
  swap
  · cases h
  next templateKey templateVersion _ _ =>
  split at h
  · cases h
    cases hroutine
  next t =>
  cases h
  simp only at hroutine
  split at hroutine
  swap
  · cases hroutine
  next hnone =>
  -- no reason was added, so every condition came out well
  simp only [List.length_eq_zero_iff, templateReasons, List.append_eq_nil_iff] at hnone
  obtain ⟨⟨⟨⟨⟨⟨⟨hstatus, hchannel⟩, hlocale⟩, hrecipient⟩, hattachments⟩, hmissing⟩, hunknown⟩, -⟩ :=
    hnone
  have hempty {condition : Bool} {text : String} (hif : (if condition then [text] else []) = []) :
      condition = false := by
    cases condition with
    | false => rfl
    | true => cases hif
  refine ⟨t, rfl, rfl, hfreeform, ?_, ?_, ?_, ?_, ?_, ?_, ?_, rfl⟩
  · simpa using hempty hstatus
  · simpa using hempty hchannel
  · simpa using hempty hlocale
  · simpa using hempty hrecipient
  · simpa using hempty hattachments
  · simpa using hempty hmissing
  · intro key hkey
    have hunknown' := hempty hunknown
    by_contra hundeclared
    have hlisted : key ∈ (renderTemplate t.bodyTemplate t.allowedVariables
        input.variableValues).unknownVariables := by
      simp only [renderTemplate, List.mem_filter]
      exact ⟨hkey, by simpa using hundeclared⟩
    simp only [ne_eq, decide_not, Bool.not_eq_false', decide_eq_true_eq] at hunknown'
    rw [hunknown'] at hlisted
    cases hlisted

end MortgageAgent.Communications
