import MortgageAgent.Policy.Overlap
import MortgageAgent.Policy.ResearchQueue

/-!
# Research is asked for once

As long as the same things are unresolved, resolving again is meant to find the research queued.
The reasons are what tells requests apart. Those against the jurisdictions, the sources and the
rows do not depend on when it is asked. The one for an overlap ends with the instant it is asked
about, and counts rows.

* **`Alike`** — the same is unresolved at two calls.
* **`Steady`** — the reasons for the overlaps show the same.
* **`requestInput_eq_iff`** — two calls that are alike ask for the same exactly if they are steady.
* **`enqueuesOnce_iff`** — and so for any number of them.
-/

namespace MortgageAgent.Policy.ResearchQueue

open Runs
open Research (PolicyResearchTrigger PolicyResearchStatus)

/-! ## The same is unresolved -/

variable {deps : Policy.Deps} {digest : Digest} {catalog : Catalog} {codes : List String}
  {context : PolicyResolutionContext}

/-- The resolution asks for review. -/
def Reviewed (deps : Policy.Deps) (catalog : Catalog) (context : PolicyResolutionContext)
    (call : Call) : Prop :=
  ∃ result, resolve deps catalog (contextAt context call.asOf) call.now = .ok result
    ∧ result.status = .REVIEW_REQUIRED

/-- The same sources of the chain are fresh. -/
def SameSources (catalog : Catalog) (codes : List String) (a b : Call) : Prop :=
  ∀ source ∈ catalog.sources.rows, source.jurisdictionCode ∈ codes →
    (SourceFresh catalog a.now source ↔ SourceFresh catalog b.now source)

/-- The same rules overlap, with the same versions. -/
def SameOverlaps (catalog : Catalog) (codes : List String) (context : PolicyResolutionContext)
    (a b : Call) : Prop :=
  ∀ ruleId,
    (TwoRows catalog codes (contextAt context a.asOf) ruleId
      ↔ TwoRows catalog codes (contextAt context b.asOf) ruleId)
    ∧ (TwoRows catalog codes (contextAt context a.asOf) ruleId → ∀ v, v.ruleId = ruleId →
      (InForce catalog codes (contextAt context a.asOf) v
        ↔ InForce catalog codes (contextAt context b.asOf) v))

/-- The chain of the jurisdiction, up to the first that is not known or not covered. -/
def chainOf (catalog : Catalog) (context : PolicyResolutionContext) :
    Except String (List Jurisdiction) :=
  loadCoveredAncestry catalog catalog.jurisdictions.rows.length [] (some context.jurisdictionCode)

/-- The reasons against the sources of the chain. -/
def sourceReasons (catalog : Catalog) (codes : List String) (call : Call) : List String :=
  (validateSourceFreshness catalog codes call.now).1

/-- The same is unresolved at both. What is missing of the chain and of its sources does not change
with the call; overlaps are looked for where the sources are in order. -/
def Alike (catalog : Catalog) (context : PolicyResolutionContext) (a b : Call) : Prop :=
  ∀ chain, chainOf catalog context = .ok chain →
    SameSources catalog (chain.map Jurisdiction.code) a b
      ∧ (sourceReasons catalog (chain.map Jurisdiction.code) a = [] →
        SameOverlaps catalog (chain.map Jurisdiction.code) context a b)

/-! ## What the reasons show -/

/-- How many rows put a version of the rule in force. -/
def rowCount (catalog : Catalog) (codes : List String) (context : PolicyResolutionContext)
    (ruleId : String) : Nat :=
  ((candidates catalog codes context).filter fun v => v.ruleId = ruleId).length

/-- What of the number of rows and of the instant is left when the reason is cut. -/
def shownTail (ruleId : String) (rows : Nat) (asOf : Instant) : CodeUnits :=
  (Json.utf16 (toString rows ++ " overlapping released versions effective as of "
    ++ toISOString asOf)).take
      (MAX_REASON_CHARS - (Json.utf16 ("rule \"" ++ ruleId ++ "\" has ")).length)

/-- Where a rule overlaps, its reason shows the same number of rows and the same instant. -/
def Steady (catalog : Catalog) (context : PolicyResolutionContext) (a b : Call) : Prop :=
  ∀ chain, chainOf catalog context = .ok chain →
    sourceReasons catalog (chain.map Jurisdiction.code) a = [] →
    ∀ ruleId, TwoRows catalog (chain.map Jurisdiction.code) (contextAt context a.asOf) ruleId →
      shownTail ruleId
          (rowCount catalog (chain.map Jurisdiction.code) (contextAt context a.asOf) ruleId) a.asOf
        = shownTail ruleId
          (rowCount catalog (chain.map Jurisdiction.code) (contextAt context b.asOf) ruleId) b.asOf

/-! ## Sources -/

theorem checkSource_ok_iff {sources : List PolicySource} {source : PolicySource} {now : Instant}
    (hsource : source ∈ sources) :
    (∃ deadline, checkSource (newestRevisions catalog sources) now source = .ok deadline)
      ↔ SourceFresh catalog now source := by
  constructor
  · rintro ⟨deadline, h⟩
    exact checkSource_ok hsource h
  · rintro ⟨hpositive, latest, hmem, hid, hlatest, hfresh⟩
    have hread : latest ∈ catalog.revisions.rows.filter
        fun r => sources.any fun s => s.id = r.policySourceId := by
      refine List.mem_filter.mpr ⟨hmem, List.any_eq_true.mpr ⟨source, hsource, ?_⟩⟩
      rw [hid, decide_eq_true_eq]
    rw [checkSource]
    cases hfind : (newestRevisions catalog sources).find? fun r => r.policySourceId = source.id with
    | none =>
      rw [List.find?_eq_none] at hfind
      exact absurd (decide_eq_true hid)
        (hfind latest ((List.mem_insertionSort _).mpr hread))
    | some revision =>
      obtain ⟨-, -, hnewest⟩ := find?_insertionSort hfind
      have hle := hnewest latest hread (decide_eq_true hid)
      have hfresh' : now < revision.recordedAt + source.freshnessObjectiveHours * hourMs :=
        lt_of_lt_of_le hfresh (Int.add_le_add_right hle _)
      refine ⟨revision.recordedAt + source.freshnessObjectiveHours * hourMs, ?_⟩
      dsimp only
      rw [if_neg (not_le.mpr hpositive), if_neg (not_le.mpr hfresh')]

/-- The reason against a source does not say when it was checked. -/
theorem checkReason_eq {revisions : List PolicySourceRevision} {source : PolicySource}
    {now now' : Instant}
    (h : (∃ deadline, checkSource revisions now source = .ok deadline)
      ↔ ∃ deadline, checkSource revisions now' source = .ok deadline) :
    checkReason (checkSource revisions now source)
      = checkReason (checkSource revisions now' source) := by
  unfold checkSource at h ⊢
  generalize revisions.find? (fun r => r.policySourceId = source.id) = found at h ⊢
  cases found with
  | none => rfl
  | some revision =>
    dsimp only at h ⊢
    by_cases hpositive : source.freshnessObjectiveHours ≤ 0
    · rw [if_pos hpositive, if_pos hpositive]
    · simp only [if_neg hpositive] at h ⊢
      by_cases hstale : revision.recordedAt + source.freshnessObjectiveHours * hourMs ≤ now
      · by_cases hstale' : revision.recordedAt + source.freshnessObjectiveHours * hourMs ≤ now'
        · rw [if_pos hstale, if_pos hstale']
        · obtain ⟨_, hok⟩ := h.mpr ⟨_, if_neg hstale'⟩
          rw [if_pos hstale] at hok
          cases hok
      · by_cases hstale' : revision.recordedAt + source.freshnessObjectiveHours * hourMs ≤ now'
        · obtain ⟨_, hok⟩ := h.mp ⟨_, if_neg hstale⟩
          rw [if_pos hstale'] at hok
          cases hok
        · rw [if_neg hstale, if_neg hstale']

theorem sourceReasons_eq {a b : Call} (h : SameSources catalog codes a b) :
    sourceReasons catalog codes a = sourceReasons catalog codes b := by
  unfold sourceReasons validateSourceFreshness
  dsimp only
  rw [List.filterMap_map, List.filterMap_map]
  congr 1
  refine List.filterMap_congr fun source hsource => checkReason_eq ?_
  obtain ⟨hmem, hcode⟩ := List.mem_filter.mp hsource
  rw [checkSource_ok_iff hsource, checkSource_ok_iff hsource]
  exact h source hmem (List.contains_iff_mem.mp hcode)

/-! ## Rows and overlaps -/

theorem resolveApplicabilityInstant_at (row : PolicyApplicability)
    (context : PolicyResolutionContext) (t t' : Instant) :
    (∃ reason, resolveApplicabilityInstant row (contextAt context t) = .error reason
        ∧ resolveApplicabilityInstant row (contextAt context t') = .error reason)
      ∨ ∃ i i', resolveApplicabilityInstant row (contextAt context t) = .ok i
        ∧ resolveApplicabilityInstant row (contextAt context t') = .ok i' := by
  unfold resolveApplicabilityInstant
  cases row.transitionRule with
  | none => exact Or.inr ⟨t, t', rfl, rfl⟩
  | some rule =>
    dsimp only
    split
    · exact Or.inr ⟨t, t', rfl, rfl⟩
    · split
      · have hat (t : Instant) :
            (contextAt context t).applicationReceivedAt = context.applicationReceivedAt := rfl
        rw [hat, hat]
        cases context.applicationReceivedAt with
        | none => exact Or.inl ⟨_, rfl, rfl⟩
        | some i => exact Or.inr ⟨i, i, rfl, rfl⟩
      · split
        · exact Or.inr ⟨t, t', rfl, rfl⟩
        · exact Or.inl ⟨_, rfl, rfl⟩

theorem classifyVersion_reason? (row : PolicyApplicability) (version : PolicyVersion)
    (instant : Instant) : (classifyVersion row version instant).reason? = none := by
  rw [classifyVersion]
  split
  · rfl
  · split <;> rfl

/-- The reasons against the rows do not depend on the instant asked about. -/
theorem rowReasons_eq (catalog : Catalog) (codes : List String) (context : PolicyResolutionContext)
    (t t' : Instant) :
    (rowOutcomes catalog codes (contextAt context t)).filterMap RowOutcome.reason?
      = (rowOutcomes catalog codes (contextAt context t')).filterMap RowOutcome.reason? := by
  have hrows : applicabilityRows catalog codes (contextAt context t)
      = applicabilityRows catalog codes (contextAt context t') := rfl
  rw [rowOutcomes, rowOutcomes, hrows, List.filterMap_map, List.filterMap_map]
  refine List.filterMap_congr fun row _ => ?_
  simp only [Function.comp_apply, classifyRow]
  cases catalog.versions.find row.policyVersionId with
  | none => rfl
  | some version =>
    dsimp only
    by_cases hreleased : version.releaseStatus = .RELEASED
    · rw [if_neg (not_not.mpr hreleased), if_neg (not_not.mpr hreleased)]
      rcases resolveApplicabilityInstant_at row context t t' with
        ⟨reason, herror, herror'⟩ | ⟨i, i', hok, hok'⟩
      · rw [herror, herror']
      · rw [hok, hok']
        dsimp only
        rw [classifyVersion_reason?, classifyVersion_reason?]
    · rw [if_pos hreleased, if_pos hreleased]

/-- The rules with more than one candidate. -/
def overlapping (catalog : Catalog) (codes : List String) (context : PolicyResolutionContext) :
    List String :=
  ((candidatesByRuleId (candidates catalog codes context)).filter fun b => 1 < b.2.length).map
    Prod.fst

theorem mem_overlapping {ruleId : String} :
    ruleId ∈ overlapping catalog codes context ↔ TwoRows catalog codes context ruleId := by
  rw [← mem_overlapReasons, overlapReasons_eq, overlapping]
  constructor
  · intro h
    obtain ⟨b, hb, rfl⟩ := List.mem_map.mp h
    exact ⟨b.2.length, List.mem_map_of_mem hb⟩
  · rintro ⟨n, h⟩
    obtain ⟨b, hb, heq⟩ := List.mem_map.mp h
    rw [← overlapReason_inj heq]
    exact List.mem_map_of_mem hb

theorem overlapping_nodup (catalog : Catalog) (codes : List String)
    (context : PolicyResolutionContext) : (overlapping catalog codes context).Nodup :=
  (candidatesByRuleId_grouped _).keys_nodup.sublist (List.filter_sublist.map _)

theorem overlapReasons_eq_map (asOf : Instant) :
    overlapReasons asOf (candidatesByRuleId (candidates catalog codes context))
      = (overlapping catalog codes context).map fun ruleId =>
        overlapReason ruleId (rowCount catalog codes context ruleId) asOf := by
  rw [overlapReasons_eq, overlapping, List.map_map]
  refine List.map_congr_left fun b hb => ?_
  have hbucket := ((candidatesByRuleId_grouped _).bucket b (List.mem_of_mem_filter hb)).1
  rw [Function.comp_apply, rowCount, hbucket]

/-! ## Texts -/

theorem utf16_append (s t : String) : Json.utf16 (s ++ t) = Json.utf16 s ++ Json.utf16 t := by
  simp [Json.utf16]

theorem mem_utf16_quote {s : String} (h : 34 ∈ Json.utf16 s) : '"' ∈ s.toList := by
  obtain ⟨c, hc, hunit⟩ := List.mem_flatMap.mp h
  split at hunit
  · have hquote : c = '"' := Char.toNat_inj.mp (List.mem_singleton.mp hunit).symm
    rwa [← hquote]
  · simp only [List.mem_cons, List.not_mem_nil, or_false] at hunit
    omega

theorem quote_not_mem_padded (width n : Nat) : '"' ∉ (padded width n).toList := by
  rw [padded, String.toList_ofList, List.mem_append, not_or]
  refine ⟨fun hmem => ?_, Json.not_mem_toString (by decide) n⟩
  exact absurd (List.eq_of_mem_replicate hmem) (by decide)

theorem quote_not_mem_toISOString (t : Instant) : '"' ∉ (toISOString t).toList := by
  delta toISOString
  obtain ⟨year, month, day⟩ := civilDate (utcDay t)
  have hyear : '"' ∉ (if 0 ≤ year ∧ year ≤ 9999 then padded 4 year.natAbs
      else (if year < 0 then "-" else "+") ++ padded 6 year.natAbs).toList := by
    split
    · exact quote_not_mem_padded _ _
    · split <;> simp [quote_not_mem_padded]
  simp [hyear, quote_not_mem_padded]

theorem quote_not_mem_shownTail (ruleId : String) (rows : Nat) (asOf : Instant) :
    34 ∉ shownTail ruleId rows asOf := by
  intro hmem
  have hquote := mem_utf16_quote (List.mem_of_mem_take hmem)
  rw [String.toList_append, String.toList_append, List.mem_append, List.mem_append] at hquote
  rcases hquote with (hrows | htext) | hasOf
  · exact Json.not_mem_toString (by decide) rows hrows
  · exact absurd htext (by decide)
  · exact quote_not_mem_toISOString asOf hasOf

/-- What comes before the number of rows. -/
def reasonHead (ruleId : String) : CodeUnits := Json.utf16 ("rule \"" ++ ruleId ++ "\" has ")

theorem cutReason_overlapReason (ruleId : String) (rows : Nat) (asOf : Instant) :
    cutReason (overlapReason ruleId rows asOf)
      = (reasonHead ruleId).take MAX_REASON_CHARS ++ shownTail ruleId rows asOf := by
  have htext : overlapReason ruleId rows asOf = ("rule \"" ++ ruleId ++ "\" has ")
      ++ (toString rows ++ " overlapping released versions effective as of "
        ++ toISOString asOf) := by
    simp [overlapReason, String.append_assoc]
  rw [cutReason, htext, utf16_append, List.take_append, shownTail, reasonHead]

/-- A cut that leaves something of the number leaves all of the rule's id. -/
theorem ruleId_of_cut {r r' : String} {n n' : Nat} {t t' : Instant}
    (hr : (reasonHead r).length < MAX_REASON_CHARS)
    (hr' : (reasonHead r').length < MAX_REASON_CHARS)
    (h : cutReason (overlapReason r n t) = cutReason (overlapReason r' n' t')) : r = r' := by
  -- the quotation mark behind the id is the last one
  have hsplit (r : String) :
      reasonHead r = Json.utf16 ("rule \"" ++ r) ++ 34 :: Json.utf16 " has " := by
    rw [reasonHead, utf16_append]
    rfl
  have hafter (r : String) (n : Nat) (t : Instant) :
      34 ∉ Json.utf16 " has " ++ shownTail r n t := by
    rw [List.mem_append, not_or]
    exact ⟨by decide, quote_not_mem_shownTail r n t⟩
  rw [cutReason_overlapReason, cutReason_overlapReason, List.take_of_length_le (Nat.le_of_lt hr),
    List.take_of_length_le (Nat.le_of_lt hr'), hsplit, hsplit, List.append_assoc,
    List.append_assoc, List.cons_append, List.cons_append] at h
  have hid := Json.utf16_injective (Cut.cut_after_eq (hafter r n t) (hafter r' n' t') h).1
  exact (String.append_right_inj _).mp hid

/-! ## Lists -/

/-- Two ways to write the members of a list, where a member that is written in two ways is not
mistaken for another. -/
theorem map_eq_of_map_perm {ρ τ : Type} [DecidableEq τ] {l : List ρ} {f g : ρ → τ}
    (hown : ∀ r ∈ l, ∀ r' ∈ l, f r ≠ g r → g r' = f r → f r' = f r)
    (h : (l.map f).Perm (l.map g)) : ∀ r ∈ l, f r = g r := by
  intro r hr
  by_contra hne
  obtain ⟨before, after, rfl⟩ := List.append_of_mem hr
  have hfewer : ∀ rest ⊆ before ++ r :: after,
      rest.countP (fun r' => g r' == f r) ≤ rest.countP fun r' => f r' == f r := by
    intro rest hrest
    refine List.countP_mono_left fun r' hr' hg => ?_
    exact beq_iff_eq.mpr (hown r hr r' (hrest hr') hne (beq_iff_eq.mp hg))
  have hbefore := hfewer before (List.subset_append_left ..)
  have hafter := hfewer after fun x hx => List.mem_append_right _ (List.mem_cons_of_mem _ hx)
  have hcount := h.count_eq (f r)
  rw [List.count_eq_countP, List.count_eq_countP, List.countP_map, List.countP_map,
    List.countP_append, List.countP_append, List.countP_cons_of_pos (by simp),
    List.countP_cons_of_neg (by simpa using Ne.symm hne)] at hcount
  simp only [Function.comp_def] at hcount
  omega

theorem distinct_nodup (l : List String) : (distinct l).Nodup := by
  induction l with
  | nil => exact List.nodup_nil
  | cons value rest ih =>
    rw [distinct, List.nodup_cons]
    exact ⟨by simp, ih.filter _⟩

theorem mem_distinct {l : List String} {s : String} : s ∈ distinct l ↔ s ∈ l := by
  induction l with
  | nil => exact Iff.rfl
  | cons value rest ih =>
    rw [distinct, List.mem_cons, List.mem_filter, ih, List.mem_cons, decide_eq_true_eq]
    by_cases hs : s = value
    · simp [hs]
    · simp [hs]

/-- Requests do not see the order of their reasons. -/
theorem normalizedReasons_eq_iff {l l' : List String} :
    normalizedReasons l = normalizedReasons l'
      ↔ ((distinct l).map cutReason).Perm ((distinct l').map cutReason) := by
  have hsorted (l : List String) := List.perm_insertionSort (· ≤ ·) ((distinct l).map cutReason)
  constructor
  · intro h
    rw [normalizedReasons, normalizedReasons] at h
    exact (hsorted l).symm.trans (h ▸ hsorted l')
  · intro h
    exact List.Perm.eq_of_pairwise' (List.pairwise_insertionSort (· ≤ ·) _)
      (List.pairwise_insertionSort (· ≤ ·) _) ((hsorted l).trans (h.trans (hsorted l').symm))

/-! ## What is asked for -/

theorem infix_intercalate {sep x : List Char} {parts : List (List Char)} (h : x ∈ parts) :
    x <:+: sep.intercalate parts := by
  induction parts with
  | nil => cases h
  | cons first rest ih =>
    cases rest with
    | nil =>
      rw [List.mem_singleton.mp h, List.intercalate_singleton]
    | cons second rest =>
      rw [List.intercalate_cons_cons]
      rcases List.mem_cons.mp h with rfl | hrest
      · exact ⟨[], sep ++ sep.intercalate (second :: rest), by simp⟩
      · exact (ih hrest).trans (List.suffix_append _ _).isInfix

theorem classifyTrigger_of_overlap {reasons : List String} {ruleId : String} {rows : Nat}
    {asOf : Instant} (h : overlapReason ruleId rows asOf ∈ reasons) :
    classifyTrigger reasons = some .APPLICABILITY_CONFLICT := by
  have hreason : (overlapReason ruleId rows asOf).toList <:+: (" ".intercalate reasons).toList := by
    rw [String.toList_intercalate]
    exact infix_intercalate (List.mem_map_of_mem h)
  have hphrase : "overlapping released versions".toList
      <:+: (overlapReason ruleId rows asOf).toList := by
    refine ⟨("rule \"" ++ ruleId ++ "\" has " ++ toString rows ++ " ").toList,
      (" effective as of " ++ toISOString asOf).toList, ?_⟩
    simp [overlapReason]
  have hlower : "overlapping released versions".toList
      <:+: (" ".intercalate reasons).toList.flatMap Communications.lowerChar := by
    obtain ⟨before, after, htext⟩ := hphrase.trans hreason
    refine ⟨before.flatMap Communications.lowerChar, after.flatMap Communications.lowerChar, ?_⟩
    rw [← htext, List.flatMap_append, List.flatMap_append]
    congr 2
  unfold classifyTrigger
  dsimp only
  rw [if_pos (decide_eq_true hlower)]

/-- What is asked for with these reasons. -/
def askedInput (context : PolicyResolutionContext) (reasons : List String) :
    Option FingerprintInput :=
  (unresolvedRequest context reasons).map fingerprintInput

/-- What is asked for where rules overlap. -/
def conflictInput (context : PolicyResolutionContext) (reasons : List String) :
    FingerprintInput where
  trigger := .APPLICABILITY_CONFLICT
  jurisdictionCode := context.jurisdictionCode
  productCode := some context.productCode
  lifecycleEvent := some context.lifecycleEvent
  sourceId := none
  sourceRevisionId := none
  unresolvedReasons := normalizedReasons reasons

theorem askedInput_of_overlap {reasons : List String} {ruleId : String} {rows : Nat}
    {asOf : Instant} (h : overlapReason ruleId rows asOf ∈ reasons) :
    askedInput context reasons = some (conflictInput context reasons) := by
  rw [askedInput, unresolvedRequest, classifyTrigger_of_overlap h]
  rfl

/-- The reasons against the rows. -/
def rowReasons (catalog : Catalog) (codes : List String) (context : PolicyResolutionContext) :
    List String :=
  (rowOutcomes catalog codes context).filterMap RowOutcome.reason?

/-- The reason for one overlap. -/
def reasonAt (catalog : Catalog) (codes : List String) (context : PolicyResolutionContext)
    (asOf : Instant) (ruleId : String) : String :=
  overlapReason ruleId (rowCount catalog codes (contextAt context asOf) ruleId) asOf

/-- The reasons of a resolution that asks for review. -/
def unresolvedAt (catalog : Catalog) (context : PolicyResolutionContext) (call : Call) :
    List String :=
  match chainOf catalog context with
  | .error reason => [reason]
  | .ok chain =>
    match sourceReasons catalog (chain.map Jurisdiction.code) call with
    | [] =>
      rowReasons catalog (chain.map Jurisdiction.code) (contextAt context call.asOf)
        ++ (overlapping catalog (chain.map Jurisdiction.code) (contextAt context call.asOf)).map
          (reasonAt catalog (chain.map Jurisdiction.code) context call.asOf)
    | reasons => reasons

theorem requestInput_of_reviewed {call : Call} (h : Reviewed deps catalog context call) :
    requestInput deps catalog context call = askedInput context (unresolvedAt catalog context call)
    := by
  obtain ⟨result, hresult, hstatus⟩ := h
  have hreasons : result.unresolvedReasons = unresolvedAt catalog context call := by
    have hcode : loadCoveredAncestry catalog catalog.jurisdictions.rows.length []
        (some (contextAt context call.asOf).jurisdictionCode) = chainOf catalog context := rfl
    unfold resolve at hresult
    rw [hcode] at hresult
    unfold unresolvedAt
    cases hchain : chainOf catalog context with
    | error reason =>
      rw [hchain] at hresult
      cases hresult
      rfl
    | ok chain =>
      rw [hchain] at hresult
      dsimp only at hresult ⊢
      unfold sourceReasons
      generalize validateSourceFreshness catalog (chain.map Jurisdiction.code) call.now = fresh
        at hresult ⊢
      obtain ⟨reasons, deadline⟩ := fresh
      cases reasons with
      | cons reason rest =>
        cases hresult
        rfl
      | nil =>
        rw [resolveRows_reasons hresult]
        dsimp only
        rw [rowReasons]
        exact congrArg _ (overlapReasons_eq_map call.asOf)
  rw [requestInput, hresult]
  dsimp only
  rw [if_pos hstatus, hreasons]
  rfl

/-! ## When the same is asked for -/

theorem cutReason_of_long {ruleId : String} (h : MAX_REASON_CHARS ≤ (reasonHead ruleId).length)
    (rows : Nat) (asOf : Instant) :
    cutReason (overlapReason ruleId rows asOf) = (reasonHead ruleId).take MAX_REASON_CHARS := by
  have hnothing : MAX_REASON_CHARS - (Json.utf16 ("rule \"" ++ ruleId ++ "\" has ")).length = 0 :=
    Nat.sub_eq_zero_of_le h
  rw [cutReason_overlapReason, shownTail, hnothing, List.take_zero, List.append_nil]

theorem distinct_append_perm {rows overlaps : List String} (hnodup : overlaps.Nodup)
    (hother : ∀ reason ∈ overlaps, reason ∉ rows) :
    (distinct (rows ++ overlaps)).Perm (distinct rows ++ overlaps) := by
  refine (List.perm_ext_iff_of_nodup (distinct_nodup _) ?_).mpr fun reason => ?_
  · refine List.nodup_append.mpr ⟨distinct_nodup _, hnodup, ?_⟩
    rintro reason hrow _ hoverlap rfl
    exact hother reason hoverlap (mem_distinct.mp hrow)
  · rw [mem_distinct, List.mem_append, List.mem_append, mem_distinct]

theorem reasonAt_nodup (catalog : Catalog) (codes : List String) (context : PolicyResolutionContext)
    (asOf : Instant) :
    ((overlapping catalog codes (contextAt context asOf)).map
      (reasonAt catalog codes context asOf)).Nodup :=
  (overlapping_nodup ..).map_on fun _ _ _ _ h => overlapReason_inj h

theorem reasonAt_not_mem_rowReasons {asOf : Instant} {reason : String}
    (h : reason ∈ (overlapping catalog codes (contextAt context asOf)).map
      (reasonAt catalog codes context asOf)) :
    reason ∉ rowReasons catalog codes (contextAt context asOf) := by
  intro hrow
  obtain ⟨ruleId, -, rfl⟩ := List.mem_map.mp h
  have hhead := rowOutcomes_reason hrow
  rw [reasonAt, head?_overlapReason] at hhead
  exact absurd hhead (by decide)

/-- Among the reasons of two calls it is those for the overlaps that can differ. -/
theorem normalizedReasons_at_iff {t t' : Instant}
    (h : (overlapping catalog codes (contextAt context t)).Perm
      (overlapping catalog codes (contextAt context t'))) :
    normalizedReasons (rowReasons catalog codes (contextAt context t)
        ++ (overlapping catalog codes (contextAt context t)).map (reasonAt catalog codes context t))
      = normalizedReasons (rowReasons catalog codes (contextAt context t')
        ++ (overlapping catalog codes (contextAt context t')).map
          (reasonAt catalog codes context t'))
      ↔ ∀ ruleId ∈ overlapping catalog codes (contextAt context t),
        cutReason (reasonAt catalog codes context t ruleId)
          = cutReason (reasonAt catalog codes context t' ruleId) := by
  have hperm (t : Instant) := (distinct_append_perm (reasonAt_nodup catalog codes context t)
    fun _ => reasonAt_not_mem_rowReasons).map cutReason
  have hrows : rowReasons catalog codes (contextAt context t)
      = rowReasons catalog codes (contextAt context t') := rowReasons_eq catalog codes context t t'
  rw [normalizedReasons_eq_iff, (hperm t).congr_left, (hperm t').congr_right, hrows,
    List.map_append, List.map_append, List.perm_append_left_iff, List.map_map, List.map_map,
    Function.comp_def, Function.comp_def, ← (h.map _).congr_right]
  constructor
  · intro hsame
    refine map_eq_of_map_perm ?_ hsame
    intro r _ r' _ hne hcross
    simp only [reasonAt] at hne hcross ⊢
    by_cases hr' : (reasonHead r').length < MAX_REASON_CHARS
    · by_cases hr : (reasonHead r).length < MAX_REASON_CHARS
      · rw [ruleId_of_cut hr' hr hcross]
      · rw [cutReason_of_long (Nat.le_of_not_lt hr), cutReason_of_long (Nat.le_of_not_lt hr)] at hne
        exact absurd rfl hne
    · rw [← hcross, cutReason_of_long (Nat.le_of_not_lt hr'),
        cutReason_of_long (Nat.le_of_not_lt hr')]
  · intro hsame
    have hmap := List.map_congr_left hsame
    exact List.Perm.of_eq hmap

theorem overlapping_perm {a b : Call} (h : SameOverlaps catalog codes context a b) :
    (overlapping catalog codes (contextAt context a.asOf)).Perm
      (overlapping catalog codes (contextAt context b.asOf)) := by
  refine (List.perm_ext_iff_of_nodup (overlapping_nodup ..) (overlapping_nodup ..)).mpr ?_
  intro ruleId
  rw [mem_overlapping, mem_overlapping]
  exact (h ruleId).1

/-- What is asked for once the sources are in order. -/
theorem unresolvedAt_of_fresh {chain : List Jurisdiction} {call : Call}
    (hchain : chainOf catalog context = .ok chain)
    (hfresh : sourceReasons catalog (chain.map Jurisdiction.code) call = []) :
    unresolvedAt catalog context call
      = rowReasons catalog (chain.map Jurisdiction.code) (contextAt context call.asOf)
        ++ (overlapping catalog (chain.map Jurisdiction.code) (contextAt context call.asOf)).map
          (reasonAt catalog (chain.map Jurisdiction.code) context call.asOf) := by
  simp only [unresolvedAt, hchain, hfresh]

theorem askedInput_of_overlapping {ruleId : String} {asOf : Instant}
    (h : ruleId ∈ overlapping catalog codes (contextAt context asOf)) (rows : List String) :
    askedInput context (rows ++ (overlapping catalog codes (contextAt context asOf)).map
        (reasonAt catalog codes context asOf))
      = some (conflictInput context (rows
          ++ (overlapping catalog codes (contextAt context asOf)).map
            (reasonAt catalog codes context asOf))) :=
  askedInput_of_overlap (List.mem_append_right _
    (List.mem_map_of_mem (f := reasonAt catalog codes context asOf) h))

/-- A reason is cut the same exactly if it shows the same. -/
theorem cutReason_reasonAt_iff {t t' : Instant} {ruleId : String} :
    cutReason (reasonAt catalog codes context t ruleId)
        = cutReason (reasonAt catalog codes context t' ruleId)
      ↔ shownTail ruleId (rowCount catalog codes (contextAt context t) ruleId) t
        = shownTail ruleId (rowCount catalog codes (contextAt context t') ruleId) t' := by
  rw [reasonAt, reasonAt, cutReason_overlapReason, cutReason_overlapReason,
    List.append_cancel_left_eq]

/-- With the sources in order, the same is asked for exactly if the overlaps show the same. -/
theorem askedInput_eq_iff {t t' : Instant}
    (h : (overlapping catalog codes (contextAt context t)).Perm
      (overlapping catalog codes (contextAt context t'))) :
    (∀ i ∈ askedInput context (rowReasons catalog codes (contextAt context t)
          ++ (overlapping catalog codes (contextAt context t)).map
            (reasonAt catalog codes context t)),
        ∀ j ∈ askedInput context (rowReasons catalog codes (contextAt context t')
          ++ (overlapping catalog codes (contextAt context t')).map
            (reasonAt catalog codes context t')), i = j)
      ↔ ∀ ruleId, TwoRows catalog codes (contextAt context t) ruleId →
        shownTail ruleId (rowCount catalog codes (contextAt context t) ruleId) t
          = shownTail ruleId (rowCount catalog codes (contextAt context t') ruleId) t' := by
  have hshown : (∀ ruleId, TwoRows catalog codes (contextAt context t) ruleId →
        shownTail ruleId (rowCount catalog codes (contextAt context t) ruleId) t
          = shownTail ruleId (rowCount catalog codes (contextAt context t') ruleId) t')
      ↔ ∀ ruleId ∈ overlapping catalog codes (contextAt context t),
        cutReason (reasonAt catalog codes context t ruleId)
          = cutReason (reasonAt catalog codes context t' ruleId) := by
    refine forall_congr' fun ruleId => ?_
    rw [mem_overlapping, cutReason_reasonAt_iff]
  rw [hshown, ← normalizedReasons_at_iff h]
  by_cases hany : ∃ ruleId, ruleId ∈ overlapping catalog codes (contextAt context t)
  · obtain ⟨ruleId, hruleId⟩ := hany
    rw [askedInput_of_overlapping hruleId, askedInput_of_overlapping (h.mem_iff.mp hruleId)]
    simp [conflictInput]
  · have hnone : overlapping catalog codes (contextAt context t) = [] :=
      List.eq_nil_iff_forall_not_mem.mpr fun ruleId hruleId => hany ⟨ruleId, hruleId⟩
    have hnone' : overlapping catalog codes (contextAt context t') = [] :=
      List.Perm.nil_eq (hnone ▸ h) |>.symm
    have hrows : rowReasons catalog codes (contextAt context t)
        = rowReasons catalog codes (contextAt context t') :=
      rowReasons_eq catalog codes context t t'
    rw [hnone, hnone', hrows]
    exact iff_of_true (fun i hi j hj => Option.mem_unique hi hj) rfl

/-- **Two calls that leave the same unresolved ask for the same exactly if they are steady.** -/
theorem requestInput_eq_iff {a b : Call} (ha : Reviewed deps catalog context a)
    (hb : Reviewed deps catalog context b) (halike : Alike catalog context a b) :
    (∀ i ∈ requestInput deps catalog context a, ∀ j ∈ requestInput deps catalog context b, i = j)
      ↔ Steady catalog context a b := by
  have hequal {x y : Option FingerprintInput} (h : x = y) : ∀ i ∈ x, ∀ j ∈ y, i = j := by
    intro i hi j hj
    exact Option.mem_unique (h ▸ hi) hj
  rw [requestInput_of_reviewed ha, requestInput_of_reviewed hb]
  cases hchain : chainOf catalog context with
  | error reason =>
    refine iff_of_true (hequal ?_) fun chain hok => ?_
    · simp only [unresolvedAt, hchain]
    · rw [hchain] at hok
      cases hok
  | ok chain =>
    obtain ⟨hsources, hoverlaps⟩ := halike chain hchain
    have hsame := sourceReasons_eq hsources
    cases hfresh : sourceReasons catalog (chain.map Jurisdiction.code) a with
    | cons reason rest =>
      refine iff_of_true (hequal ?_) fun chain' hok hnone => ?_
      · rw [hfresh] at hsame
        simp only [unresolvedAt, hchain, hfresh, ← hsame]
      · rw [hchain] at hok
        obtain rfl := Except.ok.inj hok
        rw [hfresh] at hnone
        cases hnone
    | nil =>
      have hfresh' := hsame.symm.trans hfresh
      rw [unresolvedAt_of_fresh hchain hfresh, unresolvedAt_of_fresh hchain hfresh',
        askedInput_eq_iff (overlapping_perm (hoverlaps hfresh))]
      constructor
      · intro hshown chain' hok _
        rw [hchain] at hok
        obtain rfl := Except.ok.inj hok
        exact hshown
      · intro hsteady
        exact hsteady chain hchain hfresh

/-- **Resolutions that leave the same unresolved queue one run at most** exactly if any two of them
are steady. -/
theorem enqueuesOnce_iff (hdigest : Function.Injective digest) {calls : List Call}
    (hreviewed : ∀ a ∈ calls, Reviewed deps catalog context a)
    (halike : ∀ a ∈ calls, ∀ b ∈ calls, Alike catalog context a b) :
    EnqueuesOnce deps digest catalog context calls
      ↔ ∀ a ∈ calls, ∀ b ∈ calls, Steady catalog context a b := by
  rw [enqueuesOnce_iff_same hdigest]
  refine forall₂_congr fun a ha => forall₂_congr fun b hb => ?_
  exact requestInput_eq_iff (hreviewed a ha) (hreviewed b hb) (halike a ha b hb)

/-- Calls about one instant are steady. -/
theorem Steady.of_asOf_eq {a b : Call} (h : a.asOf = b.asOf) : Steady catalog context a b := by
  intro chain _ _ ruleId _
  rw [h]

/-! ### A version that overlaps with itself -/

/-- The JSON text of an input determines it, here with the code units of its reasons as numbers. -/
def inputJson (input : FingerprintInput) : Json :=
  .arr [.str input.trigger.text, .str input.jurisdictionCode,
    .arr (input.productCode.toList.map .str), .arr (input.lifecycleEvent.toList.map .str),
    .arr (input.sourceId.toList.map fun id => .str (toString id)),
    .arr (input.sourceRevisionId.toList.map fun id => .str (toString id)),
    .arr (input.unresolvedReasons.map fun reason =>
      .arr (reason.map fun unit => .str (toString unit)))]

theorem toList_inj {α : Type} {x y : Option α} (h : x.toList = y.toList) : x = y := by
  cases x <;> cases y <;> simp_all

theorem inputJson_injective : Function.Injective inputJson := by
  intro input input' h
  obtain ⟨trigger, jurisdiction, product, event, source, revision, reasons⟩ := input
  obtain ⟨trigger', jurisdiction', product', event', source', revision', reasons'⟩ := input'
  have hstr : Function.Injective Json.str := fun _ _ h => Json.str.inj h
  have hnumber : Function.Injective fun n : Nat => Json.str (toString n) :=
    fun _ _ h => Json.toString_inj (Json.str.inj h)
  have hreason : Function.Injective fun reason : CodeUnits =>
      Json.arr (reason.map fun unit => .str (toString unit)) :=
    fun _ _ h => hnumber.list_map (Json.arr.inj h)
  simp only [inputJson, Json.arr.injEq, Json.str.injEq, List.cons.injEq, and_true] at h
  obtain ⟨htrigger, hjurisdiction, hproduct, hevent, hsource, hrevision, hreasons⟩ := h
  have htext : trigger = trigger' := by
    revert htrigger
    cases trigger <;> cases trigger' <;> decide
  rw [htext, hjurisdiction, toList_inj (hstr.list_map hproduct), toList_inj (hstr.list_map hevent),
    toList_inj (hnumber.list_map hsource), toList_inj (hnumber.list_map hrevision),
    hreason.list_map hreasons]

/-- What is asked for when the version of `stateRow` overlaps with itself at instant 0. -/
def stateInput : FingerprintInput where
  trigger := .APPLICABILITY_CONFLICT
  jurisdictionCode := "US-CA"
  productCode := some "CONVENTIONAL"
  lifecycleEvent := some "UNDERWRITING_REVIEW"
  sourceId := none
  sourceRevisionId := none
  unresolvedReasons := [Json.utf16 (overlapReason "income_discrepancy" 2 0)]

/-- Has the digest of `stateInput`. -/
def sampleDigest : Digest := fun input =>
  if input = stateInput then "2bfa7f386c3155cfb29ae75c1c9763e2cc45a03494eac3a9f3e0fed1c7aae9cb"
  else Json.stringify (inputJson input)

theorem sampleDigest_injective : Function.Injective sampleDigest := by
  have hother (input : FingerprintInput) :
      Json.stringify (inputJson input)
        ≠ "2bfa7f386c3155cfb29ae75c1c9763e2cc45a03494eac3a9f3e0fed1c7aae9cb" := by
    intro h
    have hchar := congrArg (fun text => text.toList.head?) h
    revert hchar
    simp [Json.stringify, inputJson, Json.chars]
  intro input input' h
  unfold sampleDigest at h
  split at h
  · next hinput =>
    split at h
    · next hinput' => rw [hinput, hinput']
    · exact absurd h.symm (hother input')
  · split at h
    · exact absurd h (hother input)
    · exact inputJson_injective (Json.stringify_injective h)

/-- A version attached at a state and at its country. -/
def twiceCatalog : Catalog := stateCatalog ⟨[stateRow 1 "US", stateRow 2 "US-CA"], by decide⟩

theorem twice_inForceBy {t t' : Instant} {row : PolicyApplicability} {v : PolicyVersion}
    (ht' : 0 ≤ t')
    (h : InForceBy twiceCatalog codes (contextAt (stateContext "US-CA") t) row v) :
    InForceBy twiceCatalog codes (contextAt (stateContext "US-CA") t') row v := by
  have hrule : row.transitionRule = none := by
    have hall : ∀ row ∈ twiceCatalog.applicability.rows, row.transitionRule = none := by decide
    exact hall row h.row_mem
  have hversion : v.effectiveFrom = 0 ∧ v.effectiveTo = none := by
    have hone : twiceCatalog.versions.rows
        = [⟨10, "income_discrepancy", "1.0.0", incomeDsl [], 0, none, .RELEASED⟩] := rfl
    have hmem := h.version_mem
    rw [hone, List.mem_singleton] at hmem
    rw [hmem]
    exact ⟨rfl, rfl⟩
  obtain ⟨hfrom, hto⟩ := hversion
  refine ⟨⟨h.row_mem, ⟨h.applies.jurisdiction, h.applies.product, h.applies.event⟩, h.version_mem,
    h.attached, h.released⟩, t', ?_, ?_, ?_⟩
  · rw [hrule]
    exact SelectsInstant.none rfl
  · rw [hfrom]
    exact ht'
  · rw [hto]
    rintro e ⟨⟩

/-- It is unresolved at all instants since it took effect. -/
theorem twice_alike {a b : Call} (ha : 0 ≤ a.asOf) (hb : 0 ≤ b.asOf) (hnow : a.now = b.now) :
    Alike twiceCatalog (stateContext "US-CA") a b := by
  intro chain _
  have hforce (row : PolicyApplicability) (v : PolicyVersion) :
      InForceBy twiceCatalog (chain.map Jurisdiction.code)
          (contextAt (stateContext "US-CA") a.asOf) row v
        ↔ InForceBy twiceCatalog (chain.map Jurisdiction.code)
          (contextAt (stateContext "US-CA") b.asOf) row v :=
    ⟨twice_inForceBy hb, twice_inForceBy ha⟩
  refine ⟨fun source _ _ => by rw [hnow], fun _ ruleId => ⟨?_, fun _ v _ => ?_⟩⟩
  · simp only [TwoRows, hforce]
  · simp only [InForce, hforce]

theorem twice_resolved {t : Instant} (h : t = 0 ∨ t = 1) :
    resolve plainDeps twiceCatalog (contextAt (stateContext "US-CA") t) 0
      = .ok (reviewRequired [overlapReason "income_discrepancy" 2 t]) := by
  rcases h with rfl | rfl <;> decide +kernel

theorem twice_reviewed {call : Call} (hasOf : call.asOf = 0 ∨ call.asOf = 1) (hnow : call.now = 0) :
    Reviewed plainDeps twiceCatalog (stateContext "US-CA") call := by
  rw [Reviewed, hnow]
  exact ⟨_, twice_resolved hasOf, rfl⟩

theorem twice_requestInput {call : Call} (hasOf : call.asOf = 0 ∨ call.asOf = 1)
    (hnow : call.now = 0) :
    requestInput plainDeps twiceCatalog (stateContext "US-CA") call
      = some (conflictInput (stateContext "US-CA")
        [overlapReason "income_discrepancy" 2 call.asOf]) := by
  rw [requestInput, hnow, twice_resolved hasOf]
  exact askedInput_of_overlap (List.mem_singleton_self _)

theorem enqueuesOnce_twice :
    EnqueuesOnce plainDeps sampleDigest twiceCatalog (stateContext "US-CA")
      [⟨0, 0, 0⟩, ⟨0, 0, 1⟩] := by
  have hzero : ∀ call ∈ [(⟨0, 0, 0⟩ : Call), ⟨0, 0, 1⟩], call.asOf = 0 ∧ call.now = 0 := by decide
  refine (enqueuesOnce_iff sampleDigest_injective ?_ ?_).mpr ?_
  · intro a ha
    exact twice_reviewed (Or.inl (hzero a ha).1) (hzero a ha).2
  · intro a ha b hb
    exact twice_alike (hzero a ha).1.ge (hzero b hb).1.ge ((hzero a ha).2.trans (hzero b hb).2.symm)
  · intro a ha b hb
    exact Steady.of_asOf_eq ((hzero a ha).1.trans (hzero b hb).1.symm)

/-- Asked about a millisecond later, it is researched once more. -/
theorem overlap_asked_twice :
    (∀ a ∈ [(⟨0, 0, 0⟩ : Call), ⟨1, 0, 1⟩],
      Reviewed plainDeps twiceCatalog (stateContext "US-CA") a)
    ∧ (∀ a ∈ [(⟨0, 0, 0⟩ : Call), ⟨1, 0, 1⟩], ∀ b ∈ [(⟨0, 0, 0⟩ : Call), ⟨1, 0, 1⟩],
      Alike twiceCatalog (stateContext "US-CA") a b)
    ∧ ¬ EnqueuesOnce plainDeps sampleDigest twiceCatalog (stateContext "US-CA")
      [⟨0, 0, 0⟩, ⟨1, 0, 1⟩] := by
  have hcalls : ∀ call ∈ [(⟨0, 0, 0⟩ : Call), ⟨1, 0, 1⟩],
      (call.asOf = 0 ∨ call.asOf = 1) ∧ 0 ≤ call.asOf ∧ call.now = 0 := by decide
  refine ⟨fun a ha => twice_reviewed (hcalls a ha).1 (hcalls a ha).2.2, fun a ha b hb => ?_, ?_⟩
  · exact twice_alike (hcalls a ha).2.1 (hcalls b hb).2.1
      ((hcalls a ha).2.2.trans (hcalls b hb).2.2.symm)
  · intro honce
    have hsame := (enqueuesOnce_iff_same sampleDigest_injective).mp honce
      ⟨0, 0, 0⟩ (List.mem_cons_self ..)
      ⟨1, 0, 1⟩ (List.mem_cons_of_mem _ (List.mem_singleton_self _))
      _ (twice_requestInput (Or.inl rfl) rfl) _ (twice_requestInput (Or.inr rfl) rfl)
    have hreasons := congrArg FingerprintInput.unresolvedReasons hsame
    revert hreasons
    decide +kernel

end MortgageAgent.Policy.ResearchQueue
