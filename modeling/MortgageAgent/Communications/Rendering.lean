import MortgageAgent.Communications.Classifier

/-!
# What a template is rendered to

A body is a text with placeholders in it. Rendering is meant to fill those that have a supplied
value and to leave the others in sight, and a message is routine only where none is left.
`key in variables` also finds what every object inherits, and there the two differ.

* **`Segments`** — a body, cut into characters and placeholders.
* **`RendersSupplied`** / **`RoutineFilled`** — what rendering and a routine outcome promise.
* **`replacePlaceholders_of_segments`** — what rendering does, over the segments.
* **`rendering_iff`** — when the promise is kept.
-/

namespace MortgageAgent.Communications

/-! ## The parts of a body -/

inductive Segment where
  | char (c : Char)
  | placeholder (key : List Char)
  deriving DecidableEq

def IsKey (key : List Char) : Prop := key ≠ [] ∧ ∀ c ∈ key, isWordChar c = true

def Segment.chars : Segment → List Char
  | .char c => [c]
  | .placeholder key => '{' :: '{' :: (key ++ ['}', '}'])

/-- From left to right; a character is one that no placeholder starts at. -/
inductive Segments : List Char → List Segment → Prop
  | nil : Segments [] []
  | char {c : Char} {rest : List Char} {segments : List Segment}
      (hnone : ∀ key more, IsKey key → c :: rest ≠ (Segment.placeholder key).chars ++ more)
      (hrest : Segments rest segments) : Segments (c :: rest) (.char c :: segments)
  | placeholder {key rest : List Char} {segments : List Segment} (hkey : IsKey key)
      (hrest : Segments rest segments) :
      Segments ((Segment.placeholder key).chars ++ rest) (.placeholder key :: segments)

/-- The text of the segments, with the value of a placeholder in its place where it has one. -/
def fill (value : String → Option String) (segments : List Segment) : List Char :=
  segments.flatMap fun
    | .char c => [c]
    | .placeholder key =>
      match value (String.ofList key) with
      | some text => text.toList
      | none => (Segment.placeholder key).chars

/-- The keys of the placeholders, in their order. -/
def placeholders (segments : List Segment) : List String :=
  segments.filterMap fun
    | .char _ => none
    | .placeholder key => some (String.ofList key)

def unfilled (value : String → Option String) (segments : List Segment) : List String :=
  (placeholders segments).filter fun key => (value key).isNone

/-! ## The promise -/

/-- A placeholder is filled exactly where its key is one of the supplied variables. -/
def RendersSupplied (bodyTemplate : String) (allowedVariables : List String)
    (variableValues : List (String × String)) : Prop :=
  ∃ segments, Segments bodyTemplate.toList segments
    ∧ (renderTemplate bodyTemplate allowedVariables variableValues).content
      = String.ofList (fill (variableValues.lookup ·) segments)
    ∧ (renderTemplate bodyTemplate allowedVariables variableValues).missingVariables
      = unfilled (variableValues.lookup ·) segments

/-- A routine outcome means that every placeholder has a supplied value, and an allowed key. -/
def RoutineFilled (input : DraftCommunicationInput) (template : CommunicationTemplate) : Prop :=
  ∀ outcome, classifyCommunication input (some template) = .ok outcome →
    outcome.classification = .ROUTINE →
    ∀ segments, Segments template.bodyTemplate.toList segments → ∀ key ∈ placeholders segments,
      (∃ text, (key, text) ∈ input.variableValues) ∧ key ∈ template.allowedVariables

/-- A placeholder whose key is not supplied is not the name of something every object inherits. -/
def NoneInherited (bodyTemplate : String) (variableValues : List (String × String)) : Prop :=
  ∀ segments, Segments bodyTemplate.toList segments → ∀ key ∈ placeholders segments,
    variableValues.lookup key = none → inheritedText key = none

/-! ## A body has one reading -/

theorem isWordChar_brace : isWordChar '}' = false := by decide

theorem takeWhile_key {key : List Char} (hkey : IsKey key) (more : List Char) :
    (key ++ '}' :: more).takeWhile isWordChar = key := by
  rw [List.takeWhile_append_of_pos hkey.2, List.takeWhile_cons_of_neg (by simp [isWordChar_brace]),
    List.append_nil]

theorem dropWhile_key {key : List Char} (hkey : IsKey key) (more : List Char) :
    (key ++ '}' :: more).dropWhile isWordChar = '}' :: more := by
  rw [List.dropWhile_append_of_pos hkey.2, List.dropWhile_cons_of_neg (by simp [isWordChar_brace])]

theorem placeholder_chars_append (key more : List Char) :
    (Segment.placeholder key).chars ++ more = '{' :: '{' :: (key ++ '}' :: '}' :: more) := by
  simp [Segment.chars]

theorem placeholder_inj {key key' more more' : List Char} (hkey : IsKey key) (hkey' : IsKey key')
    (h : (Segment.placeholder key).chars ++ more = (Segment.placeholder key').chars ++ more') :
    key = key' ∧ more = more' := by
  simp only [placeholder_chars_append, List.cons.injEq, true_and] at h
  have hsame := congrArg (List.takeWhile isWordChar) h
  rw [takeWhile_key hkey, takeWhile_key hkey'] at hsame
  subst hsame
  simpa using h

theorem exists_segments (text : List Char) : ∃ segments, Segments text segments := by
  -- on the length: a placeholder takes more than its first character off
  induction hlength : text.length using Nat.strongRecOn generalizing text with
  | ind n ih =>
    cases text with
    | nil => exact ⟨[], .nil⟩
    | cons c rest =>
      by_cases hplaceholder : ∃ key more, IsKey key ∧
          c :: rest = (Segment.placeholder key).chars ++ more
      · obtain ⟨key, more, hkey, htext⟩ := hplaceholder
        have hshort : more.length < n := by
          rw [← hlength, htext, List.length_append]
          exact Nat.lt_add_of_pos_left (by simp [Segment.chars])
        obtain ⟨segments, hmore⟩ := ih more.length hshort more rfl
        exact ⟨.placeholder key :: segments, htext ▸ .placeholder hkey hmore⟩
      · have hshort : rest.length < n := by
          rw [← hlength]
          exact Nat.lt_succ_self _
        obtain ⟨segments, hrest⟩ := ih rest.length hshort rest rfl
        refine ⟨.char c :: segments, .char (fun key more hkey htext => ?_) hrest⟩
        exact hplaceholder ⟨key, more, hkey, htext⟩

theorem Segments.of_placeholder {text key rest : List Char} {segments : List Segment}
    (h : Segments text segments) (hkey : IsKey key)
    (htext : text = (Segment.placeholder key).chars ++ rest) :
    ∃ segments', segments = .placeholder key :: segments' ∧ Segments rest segments' := by
  cases h with
  | nil => simp [Segment.chars] at htext
  | char hnone _ => exact absurd htext (hnone key rest hkey)
  | placeholder hkey' hrest =>
    obtain ⟨rfl, rfl⟩ := placeholder_inj hkey' hkey htext
    exact ⟨_, rfl, hrest⟩

theorem Segments.unique {text : List Char} {segments segments' : List Segment}
    (h : Segments text segments) (h' : Segments text segments') : segments = segments' := by
  induction h generalizing segments' with
  | nil =>
    cases h' with
    | nil => rfl
  | char hnone _ ih =>
    cases h' with
    | char _ hrest' => rw [ih hrest']
    | placeholder hkey' _ => exact absurd rfl (hnone _ _ hkey')
  | placeholder hkey _ ih =>
    obtain ⟨more, rfl, hmore⟩ := h'.of_placeholder hkey rfl
    rw [ih hmore]

/-! ## What rendering does -/

theorem matchPlaceholder_placeholder {key : List Char} (hkey : IsKey key) (more : List Char) :
    matchPlaceholder ((Segment.placeholder key).chars ++ more) = some key := by
  rw [placeholder_chars_append, matchPlaceholder, takeWhile_key hkey, dropWhile_key hkey]
  cases key with
  | nil => exact absurd rfl hkey.1
  | cons c key => rfl

theorem placeholder_of_matchPlaceholder {text key : List Char}
    (h : matchPlaceholder text = some key) :
    IsKey key ∧ ∃ more, text = (Segment.placeholder key).chars ++ more := by
  unfold matchPlaceholder at h
  split at h
  swap
  · cases h
  next rest =>
  split at h
  swap
  · cases h
  next c key' more htake hdrop =>
  obtain rfl := Option.some.inj h
  refine ⟨⟨List.cons_ne_nil _ _, ?_⟩, more, ?_⟩
  · rw [← htake]
    exact List.all_eq_true.mp List.all_takeWhile
  · rw [placeholder_chars_append, ← htake, ← hdrop, List.takeWhile_append_dropWhile]

/-- What belongs to a match is passed over. -/
theorem replacePlaceholders_skip (variableValues : List (String × String))
    (passed rest : List Char) :
    replacePlaceholders variableValues passed.length (passed ++ rest)
      = replacePlaceholders variableValues 0 rest := by
  induction passed with
  | nil => rfl
  | cons c passed ih => exact ih

theorem replacePlaceholders_of_segments (variableValues : List (String × String))
    {text : List Char} {segments : List Segment} (h : Segments text segments) :
    replacePlaceholders variableValues 0 text =
      (fill (variableText variableValues) segments,
        unfilled (variableText variableValues) segments) := by
  induction h with
  | nil => rfl
  | @char c rest segments hnone _ ih =>
    have hmatch : matchPlaceholder (c :: rest) = none := by
      by_contra hsome
      obtain ⟨key, hkey⟩ := Option.ne_none_iff_exists'.mp hsome
      obtain ⟨hkey, more, htext⟩ := placeholder_of_matchPlaceholder hkey
      exact hnone key more hkey htext
    rw [replacePlaceholders, hmatch]
    simp only [ih]
    rfl
  | @placeholder key rest segments hkey _ ih =>
    have hmatch := matchPlaceholder_placeholder hkey rest
    have hlength : key.length + 3 = ('{' :: (key ++ ['}', '}'])).length := by simp
    have hskip := replacePlaceholders_skip variableValues ('{' :: (key ++ ['}', '}'])) rest
    rw [Segment.chars] at hmatch ⊢
    rw [List.cons_append] at hmatch ⊢
    rw [replacePlaceholders, hmatch]
    simp only [hlength, hskip, ih]
    cases hvalue : variableText variableValues (String.ofList key) with
    | some value => simp [fill, unfilled, placeholders, hvalue]
    | none => simp [fill, unfilled, placeholders, hvalue, Segment.chars]

/-! ## When the promise is kept -/

theorem variableText_eq_lookup {variableValues : List (String × String)} {key : String}
    (h : variableValues.lookup key = none → inheritedText key = none) :
    variableText variableValues key = variableValues.lookup key := by
  cases hlookup : variableValues.lookup key with
  | some value => rw [variableText, hlookup, Option.some_or]
  | none => rw [variableText, hlookup, Option.none_or, h hlookup]

/-- Only the values of the placeholders matter. -/
theorem fill_congr {value value' : String → Option String} {segments : List Segment}
    (h : ∀ key ∈ placeholders segments, value key = value' key) :
    fill value segments = fill value' segments := by
  refine List.flatMap_congr fun segment hsegment => ?_
  cases segment with
  | char c => rfl
  | placeholder key =>
    have hkey : String.ofList key ∈ placeholders segments :=
      List.mem_filterMap.mpr ⟨_, hsegment, rfl⟩
    simp only [h _ hkey]

theorem mem_unfilled_iff {value : String → Option String} {segments : List Segment} {key : String} :
    key ∈ unfilled value segments ↔ key ∈ placeholders segments ∧ value key = none := by
  rw [unfilled, List.mem_filter, Option.isNone_iff_eq_none]

theorem unfilled_congr {value value' : String → Option String} {segments : List Segment}
    (h : ∀ key ∈ placeholders segments, value key = value' key) :
    unfilled value segments = unfilled value' segments :=
  List.filter_congr fun key hkey => by rw [h key hkey]

theorem rendersSupplied_iff {bodyTemplate : String} {allowedVariables : List String}
    {variableValues : List (String × String)} :
    RendersSupplied bodyTemplate allowedVariables variableValues
      ↔ NoneInherited bodyTemplate variableValues := by
  constructor
  · rintro ⟨segments, hsegments, -, hmissing⟩ segments' hsegments' key hkey hlookup
    obtain rfl := hsegments.unique hsegments'
    simp only [renderTemplate, replacePlaceholders_of_segments variableValues hsegments] at hmissing
    -- a key without a value is among the missing, so rendering has found nothing under it
    have hlisted : key ∈ unfilled (variableValues.lookup ·) segments :=
      mem_unfilled_iff.mpr ⟨hkey, hlookup⟩
    rw [← hmissing] at hlisted
    have hnone := (mem_unfilled_iff.mp hlisted).2
    rwa [variableText, hlookup, Option.none_or] at hnone
  · intro h
    obtain ⟨segments, hsegments⟩ := exists_segments bodyTemplate.toList
    have hvalue : ∀ key ∈ placeholders segments,
        variableText variableValues key = variableValues.lookup key :=
      fun key hkey => variableText_eq_lookup (h segments hsegments key hkey)
    refine ⟨segments, hsegments, ?_, ?_⟩
    · simp only [renderTemplate, replacePlaceholders_of_segments variableValues hsegments]
      rw [fill_congr hvalue]
    · simp only [renderTemplate, replacePlaceholders_of_segments variableValues hsegments]
      rw [unfilled_congr hvalue]

theorem mem_of_lookup_eq_some {variableValues : List (String × String)} {key text : String}
    (h : variableValues.lookup key = some text) : (key, text) ∈ variableValues := by
  obtain ⟨before, after, rfl, -⟩ := List.lookup_eq_some_iff.mp h
  simp

theorem routineFilled_of_rendersSupplied {input : DraftCommunicationInput}
    {template : CommunicationTemplate}
    (h : RendersSupplied template.bodyTemplate template.allowedVariables input.variableValues) :
    RoutineFilled input template := by
  intro outcome hclassify hroutine segments' hsegments' key hkey
  obtain ⟨segments, hsegments, -, hmissing⟩ := h
  obtain rfl := hsegments.unique hsegments'
  obtain ⟨t, ht, -, hvouched⟩ := routine_of_classify hclassify hroutine
  obtain rfl := Option.some.inj ht
  rw [hvouched.filled] at hmissing
  cases hlookup : input.variableValues.lookup key with
  | none =>
    have hlisted : key ∈ unfilled (input.variableValues.lookup ·) segments :=
      mem_unfilled_iff.mpr ⟨hkey, hlookup⟩
    rw [← hmissing] at hlisted
    cases hlisted
  | some text =>
    have hsupplied := mem_of_lookup_eq_some hlookup
    exact ⟨⟨text, hsupplied⟩, hvouched.declared key (List.mem_map_of_mem hsupplied)⟩

/-- **Rendering keeps its promise exactly where no placeholder falls back on an inherited name**,
and a routine outcome then says that every placeholder was filled. -/
theorem rendering_iff (bodyTemplate : String) (allowedVariables : List String)
    (variableValues : List (String × String)) :
    (RendersSupplied bodyTemplate allowedVariables variableValues
        ∧ ∀ input template, input.variableValues = variableValues →
          template.bodyTemplate = bodyTemplate → template.allowedVariables = allowedVariables →
          RoutineFilled input template)
      ↔ NoneInherited bodyTemplate variableValues := by
  rw [← rendersSupplied_iff]
  constructor
  · intro h
    exact h.1
  · intro h
    refine ⟨h, ?_⟩
    rintro input template rfl rfl rfl
    exact routineFilled_of_rendersSupplied h

/-! ### A placeholder that nothing was supplied for -/

def appraisalTemplate : CommunicationTemplate where
  id := 1
  tenantId := 7
  templateKey := "appraisal"
  version := "1"
  channel := "EMAIL"
  locale := "en-US"
  recipientRelationship := "BORROWER"
  bodyTemplate := "\x7b\x7bvalueOf\x7d\x7d"
  allowedVariables := ["valueOf"]
  status := .APPROVED

def appraisalInput : DraftCommunicationInput where
  recipientRelationship := "BORROWER"
  channel := "EMAIL"
  locale := "en-US"
  templateKey := some "appraisal"
  templateVersion := some "1"
  variableValues := []
  hasAttachments := false

example : (renderTemplate appraisalTemplate.bodyTemplate ["valueOf"] []).content
    = "function valueOf() \x7b [native code] \x7d" := by decide

/-- It is filled with the text of a function, and the message is routine. -/
theorem inherited_is_routine :
    ¬ RendersSupplied appraisalTemplate.bodyTemplate ["valueOf"] []
      ∧ ¬ RoutineFilled appraisalInput appraisalTemplate := by
  have hbody : appraisalTemplate.bodyTemplate.toList
      = (Segment.placeholder "valueOf".toList).chars ++ [] := by decide
  have hword : "valueOf".toList.all isWordChar = true := by decide
  have hkey : IsKey "valueOf".toList := ⟨by decide, List.all_eq_true.mp hword⟩
  have hsegments : Segments appraisalTemplate.bodyTemplate.toList
      [.placeholder "valueOf".toList] := by
    rw [hbody]
    exact .placeholder hkey .nil
  constructor
  · intro h
    have hnone := rendersSupplied_iff.mp h _ hsegments "valueOf" (by decide) (by decide)
    exact absurd hnone (by decide)
  · intro h
    obtain ⟨⟨text, htext⟩, -⟩ := h _ rfl (by decide) _ hsegments "valueOf" (by decide)
    cases htext

end MortgageAgent.Communications
