import MortgageAgent.Policy.Evaluation

/-!
# How long a resolution stays valid

A resolution depends on time in three ways: a source goes stale, a version comes into effect,
a version goes out of effect. Each leaves an instant among those whose earliest is
`revalidateAfter`.

* **`resolve_resolved`** — what a resolution without reasons consists of.
* **`classifyRow_stable`** — a row is read the same way until its boundary.
* **`resolve_stable`** — before `revalidateAfter`, on an unchanged catalog, the resolver selects
  the same versions at every later evaluation time.
-/

namespace MortgageAgent.Policy

/-! ## Earliest instants -/

theorem earliest_foldl (instants : List Instant) (e : Instant) :
    ∃ m, instants.foldl (fun e t => match e with
        | none => some t
        | some e => if t < e then some t else some e) (some e) = some m
      ∧ m ≤ e ∧ ∀ t ∈ instants, m ≤ t := by
  -- on the list, for any instant kept so far: the fold keeps the smaller one.
  induction instants generalizing e with
  | nil => exact ⟨e, rfl, le_refl e, by simp⟩
  | cons t ts ih =>
    obtain ⟨m, hm, hle, hall⟩ := ih (if t < e then t else e)
    refine ⟨m, ?_, ?_, ?_⟩
    · rw [← hm, List.foldl_cons]
      congr 1
      dsimp only
      split <;> rfl
    · split at hle
      · next ht => exact le_of_lt (lt_of_le_of_lt hle ht)
      · exact hle
    · intro x hx
      rcases List.mem_cons.mp hx with rfl | hx
      · split at hle
        · exact hle
        · next ht => exact le_trans hle (not_lt.mp ht)
      · exact hall x hx

/-- The earliest instant is there when there is one, and is not after any. -/
theorem earliest_le {instants : List Instant} {t : Instant} (ht : t ∈ instants) :
    ∃ e, earliest instants = some e ∧ e ≤ t := by
  cases instants with
  | nil => cases ht
  | cons x xs =>
    obtain ⟨m, hm, hle, hall⟩ := earliest_foldl xs x
    refine ⟨m, hm, ?_⟩
    rcases List.mem_cons.mp ht with rfl | ht
    · exact hle
    · exact hall t ht

/-! ## What a resolution consists of -/

/-- The rows of the context's chain, as the resolver classifies them. -/
def rowOutcomes (catalog : Catalog) (jurisdictionCodes : List String)
    (context : PolicyResolutionContext) : List RowOutcome :=
  (applicabilityRows catalog jurisdictionCodes context).map (classifyRow catalog context)

theorem resolveRows_resolved {deps : Deps} {catalog : Catalog} {codes : List String}
    {context : PolicyResolutionContext} {deadline : Option Instant} {r : PolicyResolutionResult}
    (h : resolveRows deps catalog codes context deadline = .ok r) (hr : r.status = .RESOLVED) :
    let outcomes := rowOutcomes catalog codes context
    let buckets := candidatesByRuleId (outcomes.filterMap RowOutcome.version?)
    selectVersions deps buckets = .ok r.versions
      ∧ outcomes.filterMap RowOutcome.reason? = []
      ∧ buckets.filter (fun b => 1 < b.2.length) = []
      ∧ r.revalidateAfter
        = earliest (deadline.toList ++ outcomes.filterMap RowOutcome.boundary?) := by
  intro outcomes buckets
  unfold resolveRows at h
  dsimp only at h
  -- a rule that does not parse, a reason for review, and the result.
  split at h
  · cases h
  · next versions hselect =>
    split at h
    · cases h
      cases hr
    · next hreasons =>
      cases h
      rw [not_not, List.append_eq_nil_iff, overlapReasons, List.map_eq_nil_iff] at hreasons
      exact ⟨hselect, hreasons.1, hreasons.2, rfl⟩

theorem resolveRows_of {deps : Deps} {catalog : Catalog} {codes : List String}
    {context : PolicyResolutionContext} {versions : List ResolvedPolicyVersionRef}
    (deadline : Option Instant)
    (hselect : selectVersions deps (candidatesByRuleId
      ((rowOutcomes catalog codes context).filterMap RowOutcome.version?)) = .ok versions)
    (hreasons : (rowOutcomes catalog codes context).filterMap RowOutcome.reason? = [])
    (hoverlap : (candidatesByRuleId ((rowOutcomes catalog codes context).filterMap
      RowOutcome.version?)).filter (fun b => 1 < b.2.length) = []) :
    ∃ r, resolveRows deps catalog codes context deadline = .ok r ∧ r.status = .RESOLVED
      ∧ r.versions = versions := by
  unfold rowOutcomes at hselect hreasons hoverlap
  unfold resolveRows
  simp only [hselect, hreasons, overlapReasons, hoverlap, List.map_nil, List.append_nil,
    ne_eq, not_true_eq_false, if_false]
  exact ⟨_, rfl, rfl, rfl⟩

theorem resolve_resolved {deps : Deps} {catalog : Catalog} {context : PolicyResolutionContext}
    {k : Instant} {r : PolicyResolutionResult} (h : resolve deps catalog context k = .ok r)
    (hr : r.status = .RESOLVED) :
    ∃ ancestry deadline,
      loadCoveredAncestry catalog catalog.jurisdictions.rows.length []
        (some context.jurisdictionCode) = .ok ancestry
      ∧ validateSourceFreshness catalog (ancestry.map Jurisdiction.code) k = ([], deadline)
      ∧ resolveRows deps catalog (ancestry.map Jurisdiction.code) context deadline = .ok r := by
  unfold resolve at h
  split at h
  · cases h
    cases hr
  · next ancestry hancestry =>
    split at h
    · next deadline hfresh => exact ⟨ancestry, deadline, hancestry, hfresh, h⟩
    · cases h
      cases hr

/-! ## Sources -/

/-- A source that is fresh is fresh until its deadline. -/
theorem checkSource_stable {revisions : List PolicySourceRevision} {source : PolicySource}
    {k t deadline : Instant} (h : checkSource revisions k source = .ok deadline)
    (ht : t < deadline) : checkSource revisions t source = .ok deadline := by
  unfold checkSource at h ⊢
  split at h
  · cases h
  · split at h
    · cases h
    · next hpositive =>
      split at h
      · cases h
      · cases h
        -- the deadline depends on the revision alone; only the comparison with the clock moves.
        rw [if_neg hpositive, if_neg (not_le.mpr ht)]

/-- All sources stay fresh until the earliest deadline. -/
theorem validateSourceFreshness_stable {catalog : Catalog} {codes : List String} {k t : Instant}
    {deadline : Option Instant} (h : validateSourceFreshness catalog codes k = ([], deadline))
    (ht : ∀ e, deadline = some e → t < e) :
    validateSourceFreshness catalog codes t = ([], deadline) := by
  unfold validateSourceFreshness at h ⊢
  simp only [Prod.mk.injEq, List.append_eq_nil_iff] at h
  obtain ⟨⟨hregistered, hnone⟩, hearliest⟩ := h
  -- no check failed, so each returned its deadline, and that is still to come
  have hchecks : (sourcesOf catalog codes).map
        (checkSource (newestRevisions catalog (sourcesOf catalog codes)) t)
      = (sourcesOf catalog codes).map
        (checkSource (newestRevisions catalog (sourcesOf catalog codes)) k) := by
    refine List.map_congr_left fun source hsource => ?_
    cases hcheck : checkSource (newestRevisions catalog (sourcesOf catalog codes)) k source with
    | error reason =>
      have hmem : reason ∈ ((sourcesOf catalog codes).map
          (checkSource (newestRevisions catalog (sourcesOf catalog codes)) k)).filterMap
          checkReason :=
        List.mem_filterMap.mpr ⟨_, List.mem_map_of_mem hsource, by rw [hcheck]; rfl⟩
      rw [hnone] at hmem
      cases hmem
    | ok d =>
      have hmem : d ∈ ((sourcesOf catalog codes).map
          (checkSource (newestRevisions catalog (sourcesOf catalog codes)) k)).filterMap
          Except.toOption :=
        List.mem_filterMap.mpr ⟨_, List.mem_map_of_mem hsource, by rw [hcheck]; rfl⟩
      obtain ⟨e, he, hle⟩ := earliest_le hmem
      have hlt := ht e (hearliest.symm.trans he)
      exact checkSource_stable hcheck (lt_of_lt_of_le hlt hle)
  simp only [hchecks, hregistered, hnone, hearliest, List.append_nil]

/-! ## Rows -/

/-- A row is read either at the evaluation time, and then it knows its schedule, or at an
instant that the evaluation time does not move. -/
theorem applicabilityInstant_cases {row : PolicyApplicability} {context : PolicyResolutionContext}
    {i : Instant} (h : resolveApplicabilityInstant row context = .ok i) (a : Instant) :
    (schedules row = true ∧ i = context.asOf
        ∧ resolveApplicabilityInstant row { context with asOf := a } = .ok a)
      ∨ (schedules row = false
        ∧ resolveApplicabilityInstant row { context with asOf := a } = .ok i) := by
  unfold resolveApplicabilityInstant at h ⊢
  cases hrule : row.transitionRule with
  | none =>
    simp only [hrule, Except.ok.injEq] at h ⊢
    exact .inl ⟨by simp [schedules, hrule], h.symm, trivial⟩
  -- blank is as good as none; by receipt, the evaluation time does not enter; by evaluation time.
  | some rule =>
    simp only [hrule] at h ⊢
    split at h
    · next hblank =>
      subst hblank
      cases h
      exact .inl ⟨by simp [schedules, hrule]; decide, rfl, rfl⟩
    · next hblank =>
      rw [if_neg hblank]
      split at h
      · next hreceived =>
        rw [if_pos hreceived]
        exact .inr ⟨by simp [schedules, hrule, hreceived], h⟩
      · next hreceived =>
        rw [if_neg hreceived]
        split at h
        · next hasOf =>
          cases h
          rw [if_pos hasOf]
          exact .inl ⟨by simp [schedules, hrule, hreceived], rfl, rfl⟩
        · cases h

/-- A version on a schedule is read the same way until its boundary. -/
theorem classifyVersion_stable {row : PolicyApplicability} {version : PolicyVersion}
    {i a : Instant} (hrow : schedules row = true) (hle : i ≤ a)
    (hlt : ∀ t, (classifyVersion row version i).boundary? = some t → a < t) :
    (classifyVersion row version a).version? = (classifyVersion row version i).version? := by
  unfold classifyVersion at hlt ⊢
  simp only [hrow, if_true] at hlt ⊢
  by_cases hfrom : version.effectiveFrom > i
  · -- not yet in effect, and not before its boundary
    rw [if_pos hfrom] at hlt ⊢
    rw [if_pos (hlt _ rfl)]
  · rw [if_neg hfrom] at hlt ⊢
    rw [if_neg (not_lt.mpr (le_trans (not_lt.mp hfrom) hle))]
    cases hto : version.effectiveTo with
    | none => rfl
    | some t =>
      simp only [hto, Option.any_some, decide_eq_true_eq] at hlt ⊢
      by_cases hover : t ≤ i
      · -- over, and over for good
        rw [if_pos hover, if_pos (le_trans hover hle)]
      · rw [if_neg hover] at hlt ⊢
        rw [if_neg (not_le.mpr (hlt t rfl))]

theorem classifyVersion_reason (row : PolicyApplicability) (version : PolicyVersion)
    (i : Instant) : (classifyVersion row version i).reason? = none := by
  unfold classifyVersion
  split
  · rfl
  · split <;> rfl

/-- **A row is read the same way until its boundary.** -/
theorem classifyRow_stable {catalog : Catalog} {context : PolicyResolutionContext}
    {row : PolicyApplicability} {a : Instant}
    (hreason : (classifyRow catalog context row).reason? = none) (hle : context.asOf ≤ a)
    (hlt : ∀ t, (classifyRow catalog context row).boundary? = some t → a < t) :
    (classifyRow catalog { context with asOf := a } row).reason? = none
      ∧ (classifyRow catalog { context with asOf := a } row).version?
        = (classifyRow catalog context row).version? := by
  unfold classifyRow at hreason hlt ⊢
  cases hversion : catalog.versions.find row.policyVersionId with
  | none => exact ⟨rfl, rfl⟩
  | some version =>
    simp only [hversion] at hreason hlt ⊢
    split
    · exact ⟨rfl, rfl⟩
    · next hreleased =>
      rw [if_neg hreleased] at hreason hlt
      cases hinstant : resolveApplicabilityInstant row context with
      | error reason =>
        rw [hinstant] at hreason
        cases hreason
      | ok i =>
        rw [hinstant] at hlt
        -- the row follows the clock and has a boundary, or reads the receipt of the application.
        rcases applicabilityInstant_cases hinstant a with ⟨hrow, rfl, hlater⟩ | ⟨-, hlater⟩
        · rw [hlater]
          exact ⟨classifyVersion_reason row version a, classifyVersion_stable hrow hle hlt⟩
        · rw [hlater]
          exact ⟨classifyVersion_reason row version i, rfl⟩

/-! ## The resolver -/

/-- All rows are read the same way before the first boundary. -/
theorem rowOutcomes_stable {catalog : Catalog} {codes : List String}
    {context : PolicyResolutionContext} {a : Instant}
    (hreasons : (rowOutcomes catalog codes context).filterMap RowOutcome.reason? = [])
    (hle : context.asOf ≤ a)
    (hlt : ∀ t ∈ (rowOutcomes catalog codes context).filterMap RowOutcome.boundary?, a < t) :
    (rowOutcomes catalog codes { context with asOf := a }).filterMap RowOutcome.reason? = []
      ∧ (rowOutcomes catalog codes { context with asOf := a }).filterMap RowOutcome.version?
        = (rowOutcomes catalog codes context).filterMap RowOutcome.version? := by
  -- row by row: no row gave a reason, and each boundary is still to come.
  have hrow : ∀ row ∈ applicabilityRows catalog codes context,
      (classifyRow catalog { context with asOf := a } row).reason? = none
        ∧ (classifyRow catalog { context with asOf := a } row).version?
          = (classifyRow catalog context row).version? := by
    intro row hmem
    refine classifyRow_stable ?_ hle fun t ht => ?_
    · exact List.filterMap_eq_nil_iff.mp hreasons _ (List.mem_map_of_mem hmem)
    · exact hlt t (List.mem_filterMap.mpr ⟨_, List.mem_map_of_mem hmem, ht⟩)
  constructor
  · refine List.filterMap_eq_nil_iff.mpr fun outcome houtcome => ?_
    obtain ⟨row, hmem, rfl⟩ := List.mem_map.mp houtcome
    exact (hrow row hmem).1
  · unfold rowOutcomes
    rw [List.filterMap_map, List.filterMap_map]
    exact List.filterMap_congr fun row hmem => (hrow row hmem).2

/-- **Before `revalidateAfter` the resolver selects what it selected.** On an unchanged catalog,
a context that was resolved is resolved to the same versions at every later evaluation time and
every instant of knowledge before the boundary. -/
theorem resolve_stable {deps : Deps} {catalog : Catalog} {context : PolicyResolutionContext}
    {k a now : Instant} {r : PolicyResolutionResult}
    (h : resolve deps catalog context k = .ok r) (hr : r.status = .RESOLVED)
    (hle : context.asOf ≤ a) (ha : a ≤ now) (hlt : ∀ t, r.revalidateAfter = some t → now < t) :
    ∃ r', resolve deps catalog { context with asOf := a } now = .ok r' ∧ r'.status = .RESOLVED
      ∧ r'.versions = r.versions := by
  obtain ⟨ancestry, deadline, hancestry, hfresh, hrows⟩ := resolve_resolved h hr
  obtain ⟨hselect, hreasons, hoverlap, hrevalidate⟩ := resolveRows_resolved hrows hr
  -- every instant that went into `revalidateAfter` is still to come
  have hcoming : ∀ t ∈ deadline.toList ++ (rowOutcomes catalog (ancestry.map Jurisdiction.code)
      context).filterMap RowOutcome.boundary?, now < t := by
    intro t ht
    obtain ⟨e, he, hle⟩ := earliest_le ht
    exact lt_of_lt_of_le (hlt e (hrevalidate.trans he)) hle
  have hfresh' := validateSourceFreshness_stable hfresh (t := now) fun e he =>
    hcoming e (List.mem_append_left _ (by simp [he]))
  obtain ⟨hreasons', hversions⟩ := rowOutcomes_stable (a := a) hreasons hle fun t ht =>
    lt_of_le_of_lt ha (hcoming t (List.mem_append_right _ ht))
  -- the same candidates, so the same selection and the same overlaps: none.
  rw [← hversions] at hselect hoverlap
  obtain ⟨r', hr', hstatus, hsame⟩ := resolveRows_of deadline hselect hreasons' hoverlap
  refine ⟨r', ?_, hstatus, hsame⟩
  unfold resolve
  rw [hancestry]
  simp only [hfresh']
  exact hr'

/-- A binding's deadline is not after the resolution's. -/
theorem nextRevalidationDeadline_le {r : PolicyResolutionResult} {t : Instant}
    (h : r.revalidateAfter = some t) (now : Instant) : nextRevalidationDeadline now r ≤ t := by
  unfold nextRevalidationDeadline
  rw [h]
  dsimp only
  split
  · exact le_refl t
  · next hmax => exact not_lt.mp hmax

end MortgageAgent.Policy
