import Mathlib.Data.List.DropRight
import MortgageAgent.Lib.JsonObject
import MortgageAgent.RemoteHandle
import MortgageAgent.RulesUnderwriter

/-!
# The model underwriter

`OllamaUnderwriterService.evaluate` asks a local model for the decision. The model answers with a
text, which has to be the JSON of a response; the service takes a code fence off it, reads it, and
checks each field. What the model is told is no part of this: it may answer anything.

* **`cleaned`** — the text without a fence and without space at its ends.
* **`readResponse`** / **`parseModelResponse`** — the checks, each with its error.
* **`evaluate`** — what comes of the reply of the provider.
* **`Layout`** — how a model may set an object: space and fences before and behind it.
* **`parseModelResponse_write`** — an object is read however it is set, unless space stands outside
  a fence.
* **`returned_iff_wellFormed`** — the responses that some text is read as are the well-formed ones.
-/

namespace MortgageAgent.Underwriting.Ollama

open Oidc (FetchResult isOk property)
open Provider.Plaid (valueOf)

variable (r : Rounding) (t : NumberText)

/-! ## Texts of values -/

/-- `String` of the number that is written. -/
def numberText (q : ℚ) : String :=
  match r.round |q| with
  | ⊤ => if q < 0 then "-Infinity" else "Infinity"
  | (magnitude : ℚ) =>
    if q < 0 ∧ magnitude ≠ 0 then "-" ++ t.text magnitude else t.text magnitude

mutual

/-- `String(value)`; `none` is the `TypeError` of an object whose own `toString` is no function. -/
def stringOf : Json → Option String
  | .null => some "null"
  | .bool b => some (if b then "true" else "false")
  | .num n => some (numberText r t (valueOf n))
  | .str s => some s
  | .arr items => (itemTexts items).map (",".intercalate ·)
  | .obj fields => if (Json.get? fields "toString").isSome then none else some "[object Object]"

/-- The texts that `join` puts between the commas. -/
def itemTexts : List Json → Option (List String)
  | [] => some []
  | .null :: items => (itemTexts items).map ("" :: ·)
  | item :: items =>
    match stringOf item with
    | none => none
    | some text => (itemTexts items).map (text :: ·)

end

/-! ## The checks of a response -/

inductive EvaluationError where
  | InternalServerErrorException (message : String)
  | TypeError
  deriving DecidableEq

def invalidFormat : EvaluationError :=
  .InternalServerErrorException "AI underwriting engine returned an invalid response format"

/-- The error of a decision that is none. -/
def invalidDecision (value : Option Json) : EvaluationError :=
  match value with
  | none => .InternalServerErrorException "Invalid decision value from AI: undefined"
  | some value =>
    match stringOf r t value with
    | none => .TypeError
    | some text => .InternalServerErrorException ("Invalid decision value from AI: " ++ text)

def decisionText : UnderwritingDecision → String
  | .APPROVED => "APPROVED"
  | .CONDITIONAL => "CONDITIONAL"
  | .DENIED => "DENIED"

/-- A text that is one of `validDecisions`. -/
def decisionOf : Option Json → Option UnderwritingDecision
  | some (.str s) => [.APPROVED, .CONDITIONAL, .DENIED].find? fun d => decisionText d = s
  | _ => none

/-- A number of the range, as it is rounded. -/
def confidenceOf : Option Json → Option ℚ
  | some (.num n) =>
    match r.round (valueOf n) with
    | ⊤ => none
    | (q : ℚ) => if q < 0 ∨ 1 < q then none else some q
  | _ => none

/-- A text that is not blank, trimmed. -/
def trimmedText : Option Json → Option String
  | some (.str s) => if jsTrim s = "" then none else some (jsTrim s)
  | _ => none

/-- The same of each item. -/
def trimmedTexts : List Json → Option (List String)
  | [] => some []
  | item :: items =>
    match trimmedText (some item) with
    | none => none
    | some text => (trimmedTexts items).map (text :: ·)

def conditionsOf : Option Json → Option (List String)
  | some (.arr items) => trimmedTexts items
  | _ => none

/-- A check that has found nothing throws. -/
def orThrow {α : Type} (found : Option α) (error : EvaluationError) : Except EvaluationError α :=
  match found with
  | some a => .ok a
  | none => .error error

/-- What `parseModelResponse` makes of the fields of an object. -/
def readResponse (fields : List (String × Json)) :
    Except EvaluationError UnderwritingModelResponse := do
  let field := Json.get? fields
  let decision ← orThrow (decisionOf (field "decision")) (invalidDecision r t (field "decision"))
  let confidence ← orThrow (confidenceOf r (field "confidence"))
    (.InternalServerErrorException "Invalid confidence value from AI")
  let reasoning ← orThrow (trimmedText (field "reasoning"))
    (.InternalServerErrorException "Missing reasoning from AI")
  let conditions ← orThrow (conditionsOf (field "conditions"))
    (.InternalServerErrorException "Missing conditions array from AI")
  if (decision = .CONDITIONAL ∧ conditions = []) ∨ (decision ≠ .CONDITIONAL ∧ conditions ≠ []) then
    .error (.InternalServerErrorException "Conditions do not match the AI underwriting decision")
  else .ok { decision, confidence, reasoning, conditions }

/-! ## The text of the message -/

/-- Three backticks. -/
def fence : List Char := ['\x60', '\x60', '\x60']

/-- `(?:json)?`, in any case. -/
def skipLanguage (cs : List Char) : List Char :=
  if (cs.take 4).map Char.toLower = ['j', 's', 'o', 'n'] then cs.drop 4 else cs

/-- The fence at the start of the text, and the space behind it. -/
def removeOpening (cs : List Char) : List Char :=
  if cs.take 3 = fence then (skipLanguage (cs.drop 3)).dropWhile isJsWhitespace else cs

/-- The fence at the end of the text, and the space before it. -/
def removeClosing (cs : List Char) : List Char :=
  if cs.reverse.take 3 = fence then
    ((cs.reverse.drop 3).dropWhile isJsWhitespace).reverse
  else cs

def cleaned (rawText : String) : String :=
  jsTrim (String.ofList (removeClosing (removeOpening rawText.toList)))

/-- What follows `JSON.parse`; nothing is its exception. -/
def readParsed : Option Json → Except EvaluationError UnderwritingModelResponse
  | some (.obj fields) => readResponse r t fields
  | _ => .error invalidFormat

def parseModelResponse (rawText : String) : Except EvaluationError UnderwritingModelResponse :=
  readParsed r t (Json.parse (cleaned rawText))

/-! ## The reply of the provider -/

/-- `payload.message?.content` -/
def messageContent (payload : Json) : Option Json :=
  match property payload "message" with
  | some (.obj message) => Json.get? message "content"
  | _ => none

def readPayload : Option Json → Except EvaluationError UnderwritingModelResponse
  | none => .error (.InternalServerErrorException "Local AI provider returned invalid JSON")
  -- `payload.message` of `null`
  | some .null => .error .TypeError
  | some payload =>
    match messageContent payload with
    | some (.str text) => parseModelResponse r t text
    | _ => .error (.InternalServerErrorException "Local AI provider returned no message content")

def evaluate : FetchResult → Except EvaluationError UnderwritingModelResponse
  | .networkError _ => .error (.InternalServerErrorException
      "Local AI provider is unavailable; start Ollama or use DECISION_PROVIDER=rules")
  | .response status body =>
    if !isOk status then
      .error (.InternalServerErrorException "Local AI provider returned an error response")
    else readPayload r t body

/-! ## How an answer is set -/

/-- A run of space. -/
abbrev Space : Type := { cs : List Char // ∀ c ∈ cs, isJsWhitespace c = true }

def Space.none : Space := ⟨[], nofun⟩

theorem Space.reverse_mem (space : Space) : ∀ c ∈ space.val.reverse, isJsWhitespace c = true :=
  fun c hc => space.property c (List.mem_reverse.mp hc)

def Space.reverse (space : Space) : Space := ⟨space.val.reverse, space.reverse_mem⟩

/-- The language behind an opening fence: none, or `json` in any case. -/
abbrev Language : Type := { cs : List Char // cs = [] ∨ cs.map Char.toLower = ['j', 's', 'o', 'n'] }

/-- An object of the engine. -/
structure JsObject where
  fields : List (String × Json)
  ownOrdered : (Json.obj fields).ownOrdered = true

def JsObject.value (v : JsObject) : JsValue := ⟨.obj v.fields, v.ownOrdered⟩

/-- What stands before and behind an object in the text of the model. -/
structure Layout where
  before : Space
  /-- the language and the space of the opening fence -/
  opening : Option (Language × Space)
  /-- the space before the closing fence -/
  closing : Option Space
  after : Space

def Layout.openingText (l : Layout) : List Char :=
  match l.opening with
  | none => []
  | some (language, space) => fence ++ language.val ++ space.val

def Layout.closingText (l : Layout) : List Char :=
  match l.closing with
  | none => []
  | some space => space.val ++ fence

def Layout.write (l : Layout) (v : JsObject) : String :=
  String.ofList (l.before.val ++ l.openingText ++ (Json.stringify v.value.val).toList
    ++ l.closingText ++ l.after.val)

/-- No space stands outside a fence. -/
def Layout.Tight (l : Layout) : Prop :=
  (l.opening.isSome = true → l.before.val = []) ∧ (l.closing.isSome = true → l.after.val = [])

instance (l : Layout) : Decidable l.Tight :=
  inferInstanceAs (Decidable ((_ → _) ∧ (_ → _)))

/-- What is left before an object when the text is cleaned. -/
def Layout.leftBefore (l : Layout) : List Char := if l.before.val = [] then [] else l.openingText

def Layout.leftBehind (l : Layout) : List Char := if l.after.val = [] then [] else l.closingText

/-! ## Trimming -/

/-- The text does not start with space. -/
def Flush (cs : List Char) : Prop := ∀ c rest, cs = c :: rest → isJsWhitespace c = false

theorem flush_cons {c : Char} (h : isJsWhitespace c = false) (cs : List Char) : Flush (c :: cs) :=
  fun _ _ heq => (List.cons.inj heq).1 ▸ h

theorem Flush.append {cs : List Char} (h : Flush cs) (hne : cs ≠ []) (rest : List Char) :
    Flush (cs ++ rest) := by
  cases cs with
  | nil => exact absurd rfl hne
  | cons c cs => exact flush_cons (h c cs rfl) _

theorem dropWhile_space (space : Space) {cs : List Char} (h : Flush cs) :
    (space.val ++ cs).dropWhile isJsWhitespace = cs := (Json.while_append cs space.property h).2

theorem jsTrim_space_append (s s' : Space) {cs : List Char} (hne : cs ≠ []) (hstart : Flush cs)
    (hend : Flush cs.reverse) : jsTrim (String.ofList (s.val ++ cs ++ s'.val)) = String.ofList cs := by
  have hdrop : (s.val ++ cs ++ s'.val).dropWhile isJsWhitespace = cs ++ s'.val := by
    rw [List.append_assoc]
    exact dropWhile_space s (hstart.append hne s'.val)
  have hback : (s'.val.reverse ++ cs.reverse).dropWhile isJsWhitespace = cs.reverse :=
    dropWhile_space s'.reverse hend
  rw [jsTrim, trimWhere, String.toList_ofList, hdrop, List.reverse_append, hback,
    List.reverse_reverse]

theorem flush_dropWhile (cs : List Char) : Flush (cs.dropWhile isJsWhitespace) := by
  intro c rest h
  have hhead := List.head?_dropWhile_not isJsWhitespace cs
  rw [h] at hhead
  simpa using hhead

theorem jsTrim_jsTrim (s : String) : jsTrim (jsTrim s) = jsTrim s := by
  let start := s.toList.dropWhile isJsWhitespace
  let core := (start.reverse.dropWhile isJsWhitespace).reverse
  show jsTrim (String.ofList core) = String.ofList core
  by_cases hne : core = []
  · rw [hne]
    decide
  · have hend : Flush core.reverse := by
      rw [List.reverse_reverse]
      exact flush_dropWhile start.reverse
    have hstart : Flush core := by
      intro c rest hcore
      obtain ⟨tail, htail⟩ : core <+: start := List.rdropWhile_prefix isJsWhitespace start
      rw [hcore] at htail
      exact flush_dropWhile s.toList c (rest ++ tail) htail.symm
    have htrim := jsTrim_space_append .none .none hne hstart hend
    rwa [Space.none, List.nil_append, List.append_nil] at htrim

/-! ## The fences are taken off -/

theorem removeOpening_of_head {cs : List Char} (h : ∀ c rest, cs = c :: rest → c ≠ '\x60') :
    removeOpening cs = cs := by
  rw [removeOpening, if_neg]
  intro hfence
  cases cs with
  | nil => exact absurd hfence (by decide)
  | cons c rest => exact h c rest rfl (List.cons.inj hfence).1

theorem removeClosing_of_last {cs : List Char} (h : ∀ c rest, cs.reverse = c :: rest → c ≠ '\x60') :
    removeClosing cs = cs := by
  rw [removeClosing, if_neg]
  intro hfence
  cases hcs : cs.reverse with
  | nil =>
    rw [hcs] at hfence
    exact absurd hfence (by decide)
  | cons c rest =>
    rw [hcs] at hfence
    exact h c rest hcs (List.cons.inj hfence).1

/-- No text starts with a backtick behind space. -/
theorem head_ne_backtick (space : Space) {cs : List Char}
    (h : space.val = [] → ∀ c rest, cs = c :: rest → c ≠ '\x60') :
    ∀ c rest, space.val ++ cs = c :: rest → c ≠ '\x60' := by
  cases hspace : space.val with
  | nil => exact h hspace
  | cons d space' =>
    have hd : isJsWhitespace d = true := space.property d (by rw [hspace]; exact List.mem_cons_self)
    rintro c rest heq rfl
    rw [(List.cons.inj heq).1] at hd
    exact absurd hd (by decide)

theorem toLower_eq_j {c : Char} (h : c.toLower = 'j') : c = 'j' ∨ c = 'J' := by
  by_cases hupper : c.val ≥ 'A'.val ∧ c.val ≤ 'Z'.val
  · right
    have hlower : c.toLower.val = c.val + 32 := congrArg Char.val (dif_pos hupper)
    have hle : c.val.toNat ≤ 90 := UInt32.le_iff_toNat_le.mp hupper.2
    have hval : (c.val.toNat + 32) % 2 ^ 32 = 106 :=
      calc (c.val.toNat + 32) % 2 ^ 32 = (c.val + 32).toNat := (UInt32.toNat_add c.val 32).symm
        _ = c.toLower.val.toNat := by rw [hlower]
        _ = 106 := by rw [h]; rfl
    apply Char.ext
    apply UInt32.toNat_inj.mp
    show c.val.toNat = 74
    omega
  · left
    have hlower : c.toLower = c := dif_neg hupper
    rw [← hlower, h]

theorem skipLanguage_of_head {c : Char} (hlower : c ≠ 'j') (hupper : c ≠ 'J') (cs : List Char) :
    skipLanguage (c :: cs) = c :: cs := by
  rw [skipLanguage, if_neg]
  intro hjson
  cases toLower_eq_j (List.cons.inj hjson).1 with
  | inl h => exact hlower h
  | inr h => exact hupper h

theorem skipLanguage_append (language : Language) (space : Space) (cs : List Char) :
    skipLanguage (language.val ++ (space.val ++ '\x7b' :: cs)) = space.val ++ '\x7b' :: cs := by
  obtain ⟨language, hlanguage⟩ := language
  cases hlanguage with
  | inl hnone =>
    -- what follows the fence is space or the brace, and so no letter
    obtain ⟨space, hspace⟩ := space
    show skipLanguage (language ++ (space ++ '\x7b' :: cs)) = space ++ '\x7b' :: cs
    rw [hnone, List.nil_append]
    cases space with
    | nil => exact skipLanguage_of_head (by decide) (by decide) cs
    | cons c space =>
      have hc : isJsWhitespace c = true := hspace c List.mem_cons_self
      refine skipLanguage_of_head ?_ ?_ _
      · rintro rfl
        exact absurd hc (by decide)
      · rintro rfl
        exact absurd hc (by decide)
  | inr hjson =>
    have hlength : language.length = 4 := by
      have hlength := congrArg List.length hjson
      rwa [List.length_map] at hlength
    rw [skipLanguage, List.take_left' hlength, if_pos hjson, List.drop_left' hlength]

theorem removeOpening_fence (language : Language) (space : Space) (cs : List Char) :
    removeOpening (fence ++ language.val ++ space.val ++ '\x7b' :: cs) = '\x7b' :: cs := by
  have hassoc : fence ++ language.val ++ space.val ++ '\x7b' :: cs
      = fence ++ (language.val ++ (space.val ++ '\x7b' :: cs)) := by
    simp only [List.append_assoc]
  rw [hassoc, removeOpening, if_pos (show List.take 3 (fence ++ _) = fence from rfl)]
  show (skipLanguage (language.val ++ (space.val ++ '\x7b' :: cs))).dropWhile isJsWhitespace = _
  rw [skipLanguage_append]
  exact dropWhile_space space (flush_cons (by decide) cs)

theorem removeClosing_fence (space : Space) {cs : List Char} (h : Flush cs.reverse) :
    removeClosing (cs ++ (space.val ++ fence)) = cs := by
  have hreverse : (cs ++ (space.val ++ fence)).reverse
      = fence ++ (space.val.reverse ++ cs.reverse) := by
    simp [fence]
  rw [removeClosing, hreverse, if_pos (show List.take 3 (fence ++ _) = fence from rfl)]
  show ((space.val.reverse ++ cs.reverse).dropWhile isJsWhitespace).reverse = cs
  rw [show space.val.reverse = space.reverse.val from rfl, dropWhile_space space.reverse h,
    List.reverse_reverse]

theorem removeOpening_write (l : Layout) (cs : List Char) :
    ∃ space : Space, removeOpening (l.before.val ++ l.openingText ++ '\x7b' :: cs)
      = space.val ++ (l.leftBefore ++ '\x7b' :: cs) := by
  cases hopening : l.opening with
  | none =>
    have htext : l.openingText = [] := by rw [Layout.openingText, hopening]
    refine ⟨l.before, ?_⟩
    rw [Layout.leftBefore, htext, ite_self, List.append_nil, List.nil_append]
    exact removeOpening_of_head (head_ne_backtick l.before fun _ _ _ heq =>
      (List.cons.inj heq).1 ▸ show '\x7b' ≠ '\x60' by decide)
  | some fenced =>
    obtain ⟨language, space⟩ := fenced
    have htext : l.openingText = fence ++ language.val ++ space.val := by
      rw [Layout.openingText, hopening]
    by_cases hempty : l.before.val = []
    · refine ⟨.none, ?_⟩
      rw [Layout.leftBefore, if_pos hempty, htext, hempty]
      exact removeOpening_fence language space cs
    · refine ⟨l.before, ?_⟩
      rw [Layout.leftBefore, if_neg hempty, List.append_assoc]
      exact removeOpening_of_head (head_ne_backtick l.before fun h => absurd h hempty)

theorem removeClosing_write (l : Layout) (cs : List Char) :
    ∃ space : Space, removeClosing (cs ++ ['\x7d'] ++ l.closingText ++ l.after.val)
      = cs ++ ['\x7d'] ++ l.leftBehind ++ space.val := by
  have hreverse : (cs ++ ['\x7d']).reverse = '\x7d' :: cs.reverse := List.reverse_concat
  cases hclosing : l.closing with
  | none =>
    have htext : l.closingText = [] := by rw [Layout.closingText, hclosing]
    refine ⟨l.after, ?_⟩
    rw [Layout.leftBehind, htext, ite_self, List.append_nil]
    apply removeClosing_of_last
    rw [List.reverse_append, hreverse]
    exact head_ne_backtick l.after.reverse fun _ _ _ heq =>
      (List.cons.inj heq).1 ▸ show '\x7d' ≠ '\x60' by decide
  | some space =>
    have htext : l.closingText = space.val ++ fence := by rw [Layout.closingText, hclosing]
    by_cases hempty : l.after.val = []
    · refine ⟨.none, ?_⟩
      rw [Layout.leftBehind, if_pos hempty, htext, hempty, List.append_nil, List.append_nil]
      exact (removeClosing_fence space (hreverse ▸ flush_cons (by decide) _)).trans
        (List.append_nil _).symm
    · refine ⟨l.after, ?_⟩
      rw [Layout.leftBehind, if_neg hempty]
      apply removeClosing_of_last
      rw [List.reverse_append]
      exact head_ne_backtick l.after.reverse fun h => absurd (List.reverse_eq_nil_iff.mp h) hempty

/-- The text of an object, between its braces. -/
theorem chars_braces (fields : List (String × Json)) :
    ∃ cs, Json.chars (.obj fields) = '\x7b' :: cs ++ ['\x7d'] :=
  ⟨_, Json.chars_obj fields⟩

/-- What is left before an object starts with a backtick, if anything is. -/
theorem leftBefore_cases (l : Layout) : l.leftBefore = [] ∨ ∃ cs, l.leftBefore = '\x60' :: cs := by
  rw [Layout.leftBefore, Layout.openingText]
  split
  · exact Or.inl rfl
  · split
    · exact Or.inl rfl
    · exact Or.inr ⟨_, rfl⟩

/-- And what is left behind it ends with one. -/
theorem leftBehind_cases (l : Layout) :
    l.leftBehind = [] ∨ ∃ cs, l.leftBehind = cs ++ ['\x60'] := by
  rw [Layout.leftBehind, Layout.closingText]
  split
  · exact Or.inl rfl
  · split
    · exact Or.inl rfl
    · rename_i space _
      exact Or.inr ⟨space.val ++ ['\x60', '\x60'],
        (List.append_assoc space.val ['\x60', '\x60'] ['\x60']).symm⟩

/-- **What is left of a text when it is cleaned.** -/
theorem cleaned_write (l : Layout) (v : JsObject) :
    cleaned (l.write v)
      = String.ofList (l.leftBefore ++ Json.chars (.obj v.fields) ++ l.leftBehind) := by
  obtain ⟨cs, hchars⟩ := chars_braces v.fields
  obtain ⟨start, hopening⟩ := removeOpening_write l (cs ++ ['\x7d'] ++ l.closingText ++ l.after.val)
  obtain ⟨rest, hclosing⟩ := removeClosing_write l (start.val ++ (l.leftBefore ++ '\x7b' :: cs))
  have htext : (l.write v).toList = l.before.val ++ l.openingText
      ++ '\x7b' :: (cs ++ ['\x7d'] ++ l.closingText ++ l.after.val) := by
    rw [Layout.write, String.toList_ofList, Json.stringify, String.toList_ofList, JsObject.value,
      hchars]
    simp only [List.append_assoc, List.cons_append]
  have hassoc : start.val ++ (l.leftBefore
        ++ '\x7b' :: (cs ++ ['\x7d'] ++ l.closingText ++ l.after.val))
      = start.val ++ (l.leftBefore ++ '\x7b' :: cs) ++ ['\x7d'] ++ l.closingText ++ l.after.val := by
    simp only [List.append_assoc, List.cons_append]
  have hcore : start.val ++ (l.leftBefore ++ '\x7b' :: cs) ++ ['\x7d'] ++ l.leftBehind ++ rest.val
      = start.val ++ (l.leftBefore ++ Json.chars (.obj v.fields) ++ l.leftBehind) ++ rest.val := by
    rw [hchars]
    simp only [List.append_assoc, List.cons_append]
  rw [cleaned, htext, hopening, hassoc, hclosing, hcore]
  apply jsTrim_space_append
  · rw [hchars]
    simp
  · rw [hchars]
    cases leftBefore_cases l with
    | inl hbefore =>
      rw [hbefore]
      exact flush_cons (by decide) _
    | inr hbefore =>
      obtain ⟨before, hbefore⟩ := hbefore
      rw [hbefore]
      exact flush_cons (by decide) _
  · rw [hchars]
    cases leftBehind_cases l with
    | inl hbehind =>
      rw [hbehind, List.append_nil, ← List.append_assoc, List.reverse_concat]
      exact flush_cons (by decide) _
    | inr hbehind =>
      obtain ⟨behind, hbehind⟩ := hbehind
      rw [hbehind, ← List.append_assoc, List.reverse_concat]
      exact flush_cons (by decide) _

/-! ## An object is read however it is set -/

theorem tight_iff (l : Layout) : l.Tight ↔ l.leftBefore = [] ∧ l.leftBehind = [] := by
  rw [Layout.Tight, Layout.leftBefore, Layout.leftBehind, Layout.openingText, Layout.closingText]
  cases l.opening <;> cases l.closing <;> simp [fence]

/-- A value does not start with a backtick. -/
theorem parse_backtick (cs : List Char) : Json.parse (String.ofList ('\x60' :: cs)) = none := by
  rw [Json.parse, Json.parseText, String.toList_ofList]
  rfl

theorem parse_left (l : Layout) (v : JsObject) :
    Json.parse (String.ofList (l.leftBefore ++ Json.chars (.obj v.fields) ++ l.leftBehind))
      = if l.Tight then some (.obj v.fields) else none := by
  cases leftBefore_cases l with
  | inr hbefore =>
    obtain ⟨cs, hbefore⟩ := hbefore
    have hloose : ¬ l.Tight := fun htight => by
      have hnil := ((tight_iff l).mp htight).1
      rw [hbefore] at hnil
      cases hnil
    rw [if_neg hloose, hbefore]
    exact parse_backtick _
  | inl hbefore =>
    rw [hbefore, List.nil_append, Json.parse, Json.parseText_obj_append]
    cases leftBehind_cases l with
    | inl hbehind =>
      rw [hbehind, if_pos ((tight_iff l).mpr ⟨hbefore, hbehind⟩)]
      show some (Json.normalize Json.fromEntries (.obj v.fields)) = _
      rw [Json.normalize_fromEntries v.ownOrdered]
    | inr hbehind =>
      obtain ⟨cs, hbehind⟩ := hbehind
      have hloose : ¬ l.Tight := fun htight => by
        have hnil := ((tight_iff l).mp htight).2
        rw [hbehind] at hnil
        simp at hnil
      -- the backtick is no space of JSON
      have hrest : Json.skipSpace (cs ++ ['\x60']) ≠ [] := by
        intro hnil
        have hspace := List.dropWhile_eq_nil_iff.mp hnil '\x60' (by simp)
        exact absurd hspace (by decide)
      rw [hbehind, if_neg hrest, if_neg hloose]
      rfl

/-- **An object is read however it is set, unless space stands outside a fence**: whatever space,
fences and language stand around an object in the text of the model, its fields are what is read;
but behind space an opening fence stays in the text, as a closing one does before space, and the
text is refused. -/
theorem parseModelResponse_write (l : Layout) (v : JsObject) :
    parseModelResponse r t (l.write v)
      = if l.Tight then readResponse r t v.fields else .error invalidFormat := by
  rw [parseModelResponse, cleaned_write, parse_left]
  by_cases htight : l.Tight
  · rw [if_pos htight, if_pos htight]
    rfl
  · rw [if_neg htight, if_neg htight]
    rfl

/-! ## What is returned -/

/-- A text that is not blank, and has no space at its ends. -/
def Trimmed (s : String) : Prop := s ≠ "" ∧ jsTrim s = s

/-- A response as its type describes it. -/
structure WellFormed (w : UnderwritingModelResponse) : Prop where
  /-- the confidence is the number of some text -/
  number : ∃ n : JsDecimal, r.round (valueOf n) = w.confidence
  nonneg : 0 ≤ w.confidence
  le_one : w.confidence ≤ 1
  reasoning : Trimmed w.reasoning
  conditions : ∀ s ∈ w.conditions, Trimmed s
  conditional : w.decision = .CONDITIONAL ↔ w.conditions ≠ []

theorem decisionOf_text (d : UnderwritingDecision) :
    decisionOf (some (.str (decisionText d))) = some d := by
  cases d <;> decide

variable {r}

theorem confidenceOf_eq_some {value : Option Json} {q : ℚ} (h : confidenceOf r value = some q) :
    ∃ n, r.round (valueOf n) = q ∧ 0 ≤ q ∧ q ≤ 1 := by
  match value with
  | some (.num n) =>
    rw [confidenceOf] at h
    cases hround : r.round (valueOf n) with
    | top =>
      rw [hround] at h
      cases h
    | coe c =>
      rw [hround] at h
      by_cases hout : c < 0 ∨ 1 < c
      · simp only [if_pos hout, reduceCtorEq] at h
      · simp only [if_neg hout, Option.some.injEq] at h
        rw [not_or, not_lt, not_lt, h] at hout
        exact ⟨n, by rw [hround, h], hout⟩

theorem confidenceOf_num {n : JsDecimal} {q : ℚ} (hround : r.round (valueOf n) = q)
    (hnonneg : 0 ≤ q) (hle : q ≤ 1) : confidenceOf r (some (.num n)) = some q := by
  rw [confidenceOf, hround]
  exact if_neg (not_or.mpr ⟨not_lt.mpr hnonneg, not_lt.mpr hle⟩)

theorem trimmed_of_trimmedText {value : Option Json} {s : String} (h : trimmedText value = some s) :
    Trimmed s := by
  match value with
  | some (.str u) =>
    by_cases hblank : jsTrim u = ""
    · rw [trimmedText, if_pos hblank] at h
      cases h
    · rw [trimmedText, if_neg hblank] at h
      rw [← Option.some.inj h]
      exact ⟨hblank, jsTrim_jsTrim u⟩

theorem trimmedText_of_trimmed {s : String} (h : Trimmed s) :
    trimmedText (some (.str s)) = some s := by
  rw [trimmedText, h.2, if_neg h.1]

theorem trimmed_of_trimmedTexts {items : List Json} : ∀ {texts : List String},
    trimmedTexts items = some texts → ∀ s ∈ texts, Trimmed s := by
  induction items with
  | nil =>
    intro texts h s hs
    rw [← Option.some.inj h] at hs
    cases hs
  | cons item items ih =>
    intro texts h
    rw [trimmedTexts] at h
    cases htext : trimmedText (some item) with
    | none => simp only [htext, reduceCtorEq] at h
    | some text =>
      simp only [htext, Option.map_eq_some_iff] at h
      obtain ⟨rest, hrest, rfl⟩ := h
      exact List.forall_mem_cons.mpr ⟨trimmed_of_trimmedText htext, ih hrest⟩

theorem trimmedTexts_of_trimmed {texts : List String} (h : ∀ s ∈ texts, Trimmed s) :
    trimmedTexts (texts.map .str) = some texts := by
  induction texts with
  | nil => rfl
  | cons text texts ih =>
    obtain ⟨htext, htexts⟩ := List.forall_mem_cons.mp h
    rw [List.map_cons, trimmedTexts, trimmedText_of_trimmed htext, ih htexts]
    rfl

theorem trimmed_of_conditionsOf {value : Option Json} {texts : List String}
    (h : conditionsOf value = some texts) : ∀ s ∈ texts, Trimmed s := by
  match value with
  | some (.arr items) => exact trimmed_of_trimmedTexts h

theorem orThrow_eq_ok {α : Type} {found : Option α} {error : EvaluationError} {a : α}
    (h : orThrow found error = .ok a) : found = some a := by
  match found with
  | some b =>
    cases h
    rfl

theorem wellFormed_of_readResponse {fields : List (String × Json)} {w : UnderwritingModelResponse}
    (h : readResponse r t fields = .ok w) : WellFormed r w := by
  obtain ⟨decision, -, h⟩ := ok_of_bind_ok h
  obtain ⟨confidence, hconfidence, h⟩ := ok_of_bind_ok h
  obtain ⟨reasoning, hreasoning, h⟩ := ok_of_bind_ok h
  obtain ⟨conditions, hconditions, h⟩ := ok_of_bind_ok h
  split at h
  case isTrue => cases h
  case isFalse hmatch =>
    cases h
    obtain ⟨n, hround, hnonneg, hle⟩ :=
      confidenceOf_eq_some (orThrow_eq_ok hconfidence)
    refine ⟨⟨n, hround⟩, hnonneg, hle, trimmed_of_trimmedText (orThrow_eq_ok hreasoning), ?_, ?_⟩
    · exact trimmed_of_conditionsOf (orThrow_eq_ok hconditions)
    · show decision = .CONDITIONAL ↔ conditions ≠ []
      constructor
      · exact fun hdecision hnil => hmatch (Or.inl ⟨hdecision, hnil⟩)
      · intro hne
        by_contra hdecision
        exact hmatch (Or.inr ⟨hdecision, hne⟩)

/-! ## Every response is read from some text -/

/-- The object of a response, the confidence as it is written. -/
def responseFields (w : UnderwritingModelResponse) (n : JsDecimal) : List (String × Json) :=
  [("decision", .str (decisionText w.decision)), ("confidence", .num n),
    ("reasoning", .str w.reasoning), ("conditions", .arr (w.conditions.map .str))]

theorem responseFields_ownOrdered (w : UnderwritingModelResponse) (n : JsDecimal) :
    (Json.obj (responseFields w n)).ownOrdered = true := by
  have hdecision : Json.arrayIndex? "decision" = none := by decide +kernel
  have hconfidence : Json.arrayIndex? "confidence" = none := by decide +kernel
  have hreasoning : Json.arrayIndex? "reasoning" = none := by decide +kernel
  have hconditions : Json.arrayIndex? "conditions" = none := by decide +kernel
  refine Json.allObjects_obj.mpr ⟨?_, ?_⟩
  · simp [responseFields, Json.DistinctKeys, Json.OwnBefore, hdecision, hconfidence, hreasoning,
      hconditions]
  · have hitems : Json.allObjects (fun fields => decide (Json.DistinctKeys fields)
        && decide (fields.Pairwise Json.OwnBefore)) (.arr (w.conditions.map .str)) = true := by
      refine Json.allObjects_arr.mpr ?_
      simp [Json.allObjects]
    simpa [responseFields, Json.allObjects] using hitems

theorem orThrow_some_bind {α β : Type} (a : α) (error : EvaluationError)
    (f : α → Except EvaluationError β) : orThrow (some a) error >>= f = f a := rfl

theorem readResponse_responseFields {w : UnderwritingModelResponse} {n : JsDecimal}
    (h : WellFormed r w) (hround : r.round (valueOf n) = w.confidence) :
    readResponse r t (responseFields w n) = .ok w := by
  have hdecision : Json.get? (responseFields w n) "decision"
      = some (.str (decisionText w.decision)) := rfl
  have hconfidence : Json.get? (responseFields w n) "confidence" = some (.num n) := rfl
  have hreasoning : Json.get? (responseFields w n) "reasoning" = some (.str w.reasoning) := rfl
  have hconditions : Json.get? (responseFields w n) "conditions"
      = some (.arr (w.conditions.map .str)) := rfl
  have hmatch : ¬ ((w.decision = .CONDITIONAL ∧ w.conditions = [])
      ∨ (w.decision ≠ .CONDITIONAL ∧ w.conditions ≠ [])) := by
    rw [not_or]
    exact ⟨fun hbare => h.conditional.mp hbare.1 hbare.2,
      fun hidle => hidle.1 (h.conditional.mpr hidle.2)⟩
  simp only [readResponse, hdecision, hconfidence, hreasoning, hconditions, decisionOf_text,
    confidenceOf_num hround h.nonneg h.le_one, trimmedText_of_trimmed h.reasoning, conditionsOf,
    trimmedTexts_of_trimmed h.conditions, orThrow_some_bind, if_neg hmatch]

theorem wellFormed_of_readParsed {parsed : Option Json} {w : UnderwritingModelResponse}
    (h : readParsed r t parsed = .ok w) : WellFormed r w := by
  match parsed with
  | some (.obj fields) => exact wellFormed_of_readResponse t h

/-- **The responses that some text is read as are the well-formed ones.** -/
theorem returned_iff_wellFormed (w : UnderwritingModelResponse) :
    (∃ rawText, parseModelResponse r t rawText = .ok w) ↔ WellFormed r w := by
  constructor
  · intro h
    obtain ⟨rawText, h⟩ := h
    exact wellFormed_of_readParsed t h
  · intro h
    obtain ⟨n, hround⟩ := h.number
    let v : JsObject := ⟨responseFields w n, responseFields_ownOrdered w n⟩
    let l : Layout := ⟨.none, none, none, .none⟩
    refine ⟨l.write v, ?_⟩
    rw [parseModelResponse_write, if_pos (by decide)]
    exact readResponse_responseFields t h hround

end MortgageAgent.Underwriting.Ollama
