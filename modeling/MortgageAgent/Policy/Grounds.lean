import Mathlib.Data.List.Forall2
import Mathlib.Data.List.Induction
import MortgageAgent.Policy.RuleForm
import MortgageAgent.Policy.Validity

/-!
# What a resolution rests on

The resolver collects reasons and leaves rows out as it goes. Here is what it decides, without the
loops: a chain of known and covered jurisdictions, sources within their freshness objectives, and
the versions that the applicability rows put in force.

* **`ParentChain`**, **`SourceFresh`**, **`SelectsInstant`** — the relations a resolution rests on,
  and **`Grounds`**, all it needs.
* **`InForceBy`** — a row puts a version in force.
* **`Grouped`** — the candidates by rule: each bucket holds all candidates of its rule.
* **`Exact`** — the versions selected are those in force, one for a rule.
* **`resolve_sound`** — a resolution without reasons has its grounds and is exact.
-/

namespace MortgageAgent.Policy

/-! ## Grounds -/

/-- The jurisdiction of a code and its parents, up to one that has none. A blank parent code is no
parent. -/
inductive ParentChain (catalog : Catalog) : String → List Jurisdiction → Prop where
  | root {j : Jurisdiction} (hmem : j ∈ catalog.jurisdictions.rows)
      (hroot : j.parentCode.getD "" = "") : ParentChain catalog j.code [j]
  | child {j : Jurisdiction} {parent : String} {chain : List Jurisdiction}
      (hmem : j ∈ catalog.jurisdictions.rows) (hparent : j.parentCode = some parent)
      (hnamed : parent ≠ "") (hrest : ParentChain catalog parent chain) :
      ParentChain catalog j.code (j :: chain)

/-- The latest revision of the source is within its freshness objective, which is positive. -/
def SourceFresh (catalog : Catalog) (now : Instant) (source : PolicySource) : Prop :=
  0 < source.freshnessObjectiveHours ∧ ∃ latest ∈ catalog.revisions.rows,
    latest.policySourceId = source.id
      ∧ (∀ r ∈ catalog.revisions.rows, r.policySourceId = source.id →
        r.recordedAt ≤ latest.recordedAt)
      ∧ now < latest.recordedAt + source.freshnessObjectiveHours * hourMs

/-- The instant a transition rule selects. A rule that is not supported selects none, nor does one
whose date is missing. -/
inductive SelectsInstant (context : PolicyResolutionContext) : Option String → Instant → Prop where
  | none {rule : Option String} (hrule : rule.getD "" = "") : SelectsInstant context rule context.asOf
  | applicationReceived {t : Instant} (hreceived : context.applicationReceivedAt = some t) :
      SelectsInstant context (some applicationReceivedRule) t
  | evaluationAsOf : SelectsInstant context (some evaluationAsOfRule) context.asOf

/-- The row is for a jurisdiction of the chain, and the product and event of the context. -/
structure AppliesTo (codes : List String) (context : PolicyResolutionContext)
    (row : PolicyApplicability) : Prop where
  jurisdiction : row.jurisdictionCode ∈ codes
  product : row.productCode = context.productCode
  event : row.lifecycleEvent = context.lifecycleEvent

/-- An applicable row of a released version. -/
structure Attaches (catalog : Catalog) (codes : List String) (context : PolicyResolutionContext)
    (row : PolicyApplicability) (version : PolicyVersion) : Prop where
  row_mem : row ∈ catalog.applicability.rows
  applies : AppliesTo codes context row
  version_mem : version ∈ catalog.versions.rows
  attached : row.policyVersionId = version.id
  released : version.releaseStatus = .RELEASED

/-- In effect at an instant: from the first on, up to the second. -/
def PolicyVersion.EffectiveAt (version : PolicyVersion) (t : Instant) : Prop :=
  version.effectiveFrom ≤ t ∧ ∀ e, version.effectiveTo = some e → t < e

/-- The version is in effect at the instant selected for the row. -/
structure InForceBy (catalog : Catalog) (codes : List String) (context : PolicyResolutionContext)
    (row : PolicyApplicability) (version : PolicyVersion) : Prop
    extends Attaches catalog codes context row version where
  effective : ∃ t, SelectsInstant context row.transitionRule t ∧ version.EffectiveAt t

/-- Some row puts the version in force. -/
def InForce (catalog : Catalog) (codes : List String) (context : PolicyResolutionContext)
    (version : PolicyVersion) : Prop :=
  ∃ row, InForceBy catalog codes context row version

/-- All that a resolution needs of the catalog. -/
structure Grounds (catalog : Catalog) (context : PolicyResolutionContext) (now : Instant)
    (chain : List Jurisdiction) : Prop where
  known : ParentChain catalog context.jurisdictionCode chain
  covered : ∀ j ∈ chain, j.coverageStatus = .COVERED
  sourced : ∀ j ∈ chain, ∃ source ∈ catalog.sources.rows, source.jurisdictionCode = j.code
  fresh : ∀ source ∈ catalog.sources.rows, source.jurisdictionCode ∈ chain.map Jurisdiction.code →
    SourceFresh catalog now source
  dated : ∀ row version, Attaches catalog (chain.map Jurisdiction.code) context row version →
    ∃ t, SelectsInstant context row.transitionRule t

/-- The versions selected are those in force, one for a rule. -/
structure Exact (deps : Deps) (catalog : Catalog) (codes : List String)
    (context : PolicyResolutionContext) (refs : List ResolvedPolicyVersionRef) : Prop where
  in_force : ∀ ref ∈ refs, ∃ version, InForce catalog codes context version ∧
    toRef deps version = .ok ref
  complete : ∀ version, InForce catalog codes context version →
    ∃ ref ∈ refs, toRef deps version = .ok ref
  one_per_rule : (refs.map ResolvedPolicyVersionRef.ruleId).Nodup

/-! ## The chain -/

theorem loadCoveredAncestry_sound {catalog : Catalog} {turns : Nat} {visited : List String}
    {code : String} {ancestry : List Jurisdiction}
    (h : loadCoveredAncestry catalog turns visited (some code) = .ok ancestry) (hcode : code ≠ "") :
    ParentChain catalog code ancestry ∧ ∀ j ∈ ancestry, j.coverageStatus = .COVERED := by
  -- on the turns: each reads one jurisdiction of the chain.
  induction turns generalizing visited code ancestry with
  | zero =>
    simp only [loadCoveredAncestry, if_neg hcode] at h
    split at h
    · cases h
    · split at h
      · cases h
      · split at h <;> cases h
  | succ turns ih =>
    simp only [loadCoveredAncestry, if_neg hcode] at h
    split at h
    · cases h
    · split at h
      · cases h
      · next j hfind =>
        obtain ⟨hmem, rfl⟩ := catalog.jurisdictions.find_eq_some_iff.mp hfind
        split at h
        · cases h
        · next hcovered =>
          rw [not_not] at hcovered
          split at h
          · cases h
          · next rest hrest =>
            cases h
            by_cases hroot : j.parentCode.getD "" = ""
            · have hnil : rest = [] := by
                cases hparent : j.parentCode with
                | none =>
                  rw [hparent, loadCoveredAncestry] at hrest
                  exact (Except.ok.inj hrest).symm
                | some parent =>
                  rw [hparent] at hroot hrest
                  rw [loadCoveredAncestry, if_pos (show parent = "" from hroot)] at hrest
                  exact (Except.ok.inj hrest).symm
              rw [hnil]
              exact ⟨.root hmem hroot, by simpa using hcovered⟩
            · cases hparent : j.parentCode with
              | none =>
                rw [hparent] at hroot
                exact absurd rfl hroot
              | some parent =>
                rw [hparent] at hroot hrest
                obtain ⟨hchain, hall⟩ := ih hrest hroot
                refine ⟨.child hmem hparent hroot hchain, fun i hi => ?_⟩
                rcases List.mem_cons.mp hi with rfl | hi
                · exact hcovered
                · exact hall i hi

/-! ## Sources -/

theorem checkSource_ok {catalog : Catalog} {sources : List PolicySource} {source : PolicySource}
    {now deadline : Instant} (hsource : source ∈ sources)
    (h : checkSource (newestRevisions catalog sources) now source = .ok deadline) :
    SourceFresh catalog now source := by
  unfold checkSource at h
  split at h
  · cases h
  · next latest hfind =>
    obtain ⟨hmem, hid, hlatest⟩ := find?_insertionSort hfind
    split at h
    · cases h
    · next hpositive =>
      split at h
      · cases h
      · next hfresh =>
        refine ⟨by omega, latest, List.mem_of_mem_filter hmem, of_decide_eq_true hid, ?_,
          not_le.mp hfresh⟩
        intro r hr hrid
        refine hlatest r (List.mem_filter.mpr ⟨hr, ?_⟩) (decide_eq_true hrid)
        exact List.any_eq_true.mpr ⟨source, hsource, decide_eq_true hrid.symm⟩

theorem validateSourceFreshness_sound {catalog : Catalog} {codes : List String} {now : Instant}
    {deadline : Option Instant} (h : validateSourceFreshness catalog codes now = ([], deadline)) :
    (∀ code ∈ codes, ∃ source ∈ catalog.sources.rows, source.jurisdictionCode = code)
      ∧ ∀ source ∈ catalog.sources.rows, source.jurisdictionCode ∈ codes →
        SourceFresh catalog now source := by
  have hreasons := congrArg Prod.fst h
  simp only [validateSourceFreshness, List.append_eq_nil_iff, List.map_eq_nil_iff] at hreasons
  obtain ⟨hregistered, hchecked⟩ := hreasons
  constructor
  · intro code hcode
    have hany := List.filter_eq_nil_iff.mp hregistered code hcode
    rw [Bool.not_eq_true, Bool.not_eq_false', List.any_eq_true] at hany
    obtain ⟨source, hsource, heq⟩ := hany
    exact ⟨source, List.mem_of_mem_filter hsource, of_decide_eq_true heq⟩
  · intro source hmem hcode
    have hsource : source ∈ sourcesOf catalog codes :=
      List.mem_filter.mpr ⟨hmem, List.contains_iff_mem.mpr hcode⟩
    cases hcheck : checkSource (newestRevisions catalog (sourcesOf catalog codes)) now source with
    | error reason =>
      have hnone := List.filterMap_eq_nil_iff.mp hchecked _ (List.mem_map_of_mem hsource)
      rw [hcheck] at hnone
      cases hnone
    | ok d => exact checkSource_ok hsource hcheck

/-! ## Rows -/

theorem resolveApplicabilityInstant_iff {row : PolicyApplicability}
    {context : PolicyResolutionContext} {t : Instant} :
    resolveApplicabilityInstant row context = .ok t
      ↔ SelectsInstant context row.transitionRule t := by
  unfold resolveApplicabilityInstant
  constructor
  · intro h
    split at h
    · next hrule =>
      cases h
      rw [hrule]
      exact .none rfl
    · next rule hrule =>
      rw [hrule]
      split at h
      · next hblank =>
        cases h
        exact .none hblank
      · split at h
        · next happlication =>
          rw [happlication]
          split at h
          · cases h
          · next hreceived =>
            cases h
            exact .applicationReceived hreceived
        · split at h
          · next hevaluation =>
            cases h
            rw [hevaluation]
            exact .evaluationAsOf
          · cases h
  · generalize row.transitionRule = rule
    intro h
    cases h with
    | none hrule =>
      cases rule with
      | none => rfl
      | some rule => exact if_pos hrule
    | applicationReceived hreceived =>
      show (if applicationReceivedRule = "" then _ else _) = _
      rw [if_neg (by decide), if_pos rfl, hreceived]
    | evaluationAsOf =>
      show (if evaluationAsOfRule = "" then _ else _) = _
      rw [if_neg (by decide), if_neg (by decide), if_pos rfl]

theorem mem_applicabilityRows {catalog : Catalog} {codes : List String}
    {context : PolicyResolutionContext} {row : PolicyApplicability} :
    row ∈ applicabilityRows catalog codes context
      ↔ row ∈ catalog.applicability.rows ∧ AppliesTo codes context row := by
  rw [applicabilityRows, List.mem_filter]
  refine and_congr_right fun _ => ⟨fun h => ?_, fun h => ?_⟩
  · simp only [Bool.and_eq_true, List.contains_iff_mem, decide_eq_true_eq] at h
    exact ⟨h.1.1, h.1.2, h.2⟩
  · simp only [Bool.and_eq_true, List.contains_iff_mem, decide_eq_true_eq]
    exact ⟨⟨h.jurisdiction, h.product⟩, h.event⟩

/-- A row of a version that is released is read at the instant its rule selects; any other row is
skipped. -/
theorem classifyRow_eq {catalog : Catalog} {codes : List String}
    {context : PolicyResolutionContext} {row : PolicyApplicability}
    (hrow : row ∈ applicabilityRows catalog codes context) :
    (∃ version, Attaches catalog codes context row version ∧ classifyRow catalog context row
        = match resolveApplicabilityInstant row context with
          | .error reason => .unresolved reason
          | .ok instant => classifyVersion row version instant)
      ∨ (∀ version, ¬ Attaches catalog codes context row version)
        ∧ classifyRow catalog context row = .skip := by
  obtain ⟨hmem, happlies⟩ := mem_applicabilityRows.mp hrow
  have hattached (version : PolicyVersion) (h : Attaches catalog codes context row version) :
      catalog.versions.find row.policyVersionId = some version :=
    catalog.versions.find_eq_some_iff.mpr ⟨h.version_mem, h.attached.symm⟩
  rw [classifyRow]
  cases hfind : catalog.versions.find row.policyVersionId with
  | none =>
    refine .inr ⟨fun version h => ?_, rfl⟩
    have hsome := hattached version h
    rw [hfind] at hsome
    cases hsome
  | some version =>
    by_cases hreleased : version.releaseStatus = .RELEASED
    · obtain ⟨hversion, hid⟩ := catalog.versions.find_eq_some_iff.mp hfind
      refine .inl ⟨version, ⟨hmem, happlies, hversion, hid.symm, hreleased⟩, ?_⟩
      exact if_neg (not_not.mpr hreleased)
    · refine .inr ⟨fun version' h => hreleased ?_, if_pos hreleased⟩
      have hsome := hattached version' h
      rw [hfind] at hsome
      rw [Option.some.inj hsome]
      exact h.released

theorem Attaches.unique {catalog : Catalog} {codes : List String}
    {context : PolicyResolutionContext} {row : PolicyApplicability} {v v' : PolicyVersion}
    (h : Attaches catalog codes context row v) (h' : Attaches catalog codes context row v') :
    v = v' :=
  catalog.versions.eq_of_key_eq h.version_mem h'.version_mem (h.attached.symm.trans h'.attached)

theorem SelectsInstant.unique {context : PolicyResolutionContext} {row : PolicyApplicability}
    {t t' : Instant} (h : SelectsInstant context row.transitionRule t)
    (h' : SelectsInstant context row.transitionRule t') : t = t' := by
  have hok := resolveApplicabilityInstant_iff.mpr h
  rw [resolveApplicabilityInstant_iff.mpr h'] at hok
  exact (Except.ok.inj hok).symm

theorem classifyVersion_version? {row : PolicyApplicability} {version v : PolicyVersion}
    {t : Instant} : (classifyVersion row version t).version? = some v
      ↔ v = version ∧ version.EffectiveAt t := by
  rw [classifyVersion, PolicyVersion.EffectiveAt]
  by_cases hfrom : version.effectiveFrom > t
  · rw [if_pos hfrom]
    refine iff_of_false (fun h => by cases h) fun h => ?_
    exact absurd h.2.1 (not_le.mpr hfrom)
  · rw [if_neg hfrom]
    by_cases hto : (version.effectiveTo.any fun e => e ≤ t) = true
    · rw [if_pos hto]
      obtain ⟨e, he, hle⟩ := Option.any_eq_true _ _ |>.mp hto
      refine iff_of_false (fun h => by cases h) fun h => ?_
      exact absurd (h.2.2 e he) (not_lt.mpr (of_decide_eq_true hle))
    · rw [if_neg hto]
      refine ⟨fun h => ⟨(Option.some.inj h).symm, not_lt.mp hfrom, fun e he => ?_⟩, fun h => ?_⟩
      · rw [Option.any_eq_true] at hto
        exact not_le.mp fun hle => hto ⟨e, he, decide_eq_true hle⟩
      · rw [h.1]
        rfl

/-- A row is a candidate exactly if it puts its version in force. -/
theorem classifyRow_version? {catalog : Catalog} {codes : List String}
    {context : PolicyResolutionContext} {row : PolicyApplicability} {v : PolicyVersion}
    (hrow : row ∈ applicabilityRows catalog codes context) :
    (classifyRow catalog context row).version? = some v
      ↔ InForceBy catalog codes context row v := by
  rcases classifyRow_eq hrow with ⟨version, hattaches, heq⟩ | ⟨hnone, heq⟩
  · rw [heq]
    cases hinstant : resolveApplicabilityInstant row context with
    | error reason =>
      refine iff_of_false (fun h => by cases h) fun h => ?_
      obtain ⟨t, ht, -⟩ := h.effective
      rw [resolveApplicabilityInstant_iff.mpr ht] at hinstant
      cases hinstant
    | ok t =>
      have hselects := resolveApplicabilityInstant_iff.mp hinstant
      dsimp only
      rw [classifyVersion_version?]
      constructor
      · rintro ⟨rfl, heffective⟩
        exact ⟨hattaches, t, hselects, heffective⟩
      · intro h
        obtain rfl := h.toAttaches.unique hattaches
        obtain ⟨t', ht', heffective⟩ := h.effective
        rw [hselects.unique ht']
        exact ⟨rfl, heffective⟩
  · rw [heq]
    exact iff_of_false (fun h => by cases h) fun h => hnone v h.toAttaches

/-- A row gives no reason exactly if the rule of the released version it attaches selects an
instant. -/
theorem classifyRow_reason? {catalog : Catalog} {codes : List String}
    {context : PolicyResolutionContext} {row : PolicyApplicability}
    (hrow : row ∈ applicabilityRows catalog codes context) :
    (classifyRow catalog context row).reason? = none
      ↔ ∀ v, Attaches catalog codes context row v →
        ∃ t, SelectsInstant context row.transitionRule t := by
  rcases classifyRow_eq hrow with ⟨version, hattaches, heq⟩ | ⟨hnone, heq⟩
  · rw [heq]
    cases hinstant : resolveApplicabilityInstant row context with
    | error reason =>
      refine iff_of_false (fun h => by cases h) fun h => ?_
      obtain ⟨t, ht⟩ := h version hattaches
      rw [resolveApplicabilityInstant_iff.mpr ht] at hinstant
      cases hinstant
    | ok t =>
      refine iff_of_true ?_ fun v _ => ⟨t, resolveApplicabilityInstant_iff.mp hinstant⟩
      dsimp only
      rw [classifyVersion]
      split
      · rfl
      · split <;> rfl
  · rw [heq]
    exact iff_of_true rfl fun v h => absurd h (hnone v)

/-! ## Candidates by rule -/

/-- The versions of the rows that put one in force, row by row. -/
def candidates (catalog : Catalog) (codes : List String) (context : PolicyResolutionContext) :
    List PolicyVersion :=
  (rowOutcomes catalog codes context).filterMap RowOutcome.version?

theorem mem_candidates {catalog : Catalog} {codes : List String}
    {context : PolicyResolutionContext} {v : PolicyVersion} :
    v ∈ candidates catalog codes context ↔ InForce catalog codes context v := by
  rw [candidates, rowOutcomes, List.filterMap_map, List.mem_filterMap]
  constructor
  · rintro ⟨row, hrow, hv⟩
    exact ⟨row, (classifyRow_version? hrow).mp hv⟩
  · rintro ⟨row, h⟩
    have hrow := mem_applicabilityRows.mpr ⟨h.row_mem, h.applies⟩
    exact ⟨row, hrow, (classifyRow_version? hrow).mpr h⟩

/-- The buckets hold the candidates by rule, all of them. -/
structure Grouped (versions : List PolicyVersion) (buckets : List (String × List PolicyVersion)) :
    Prop where
  keys_nodup : (buckets.map Prod.fst).Nodup
  bucket : ∀ b ∈ buckets, b.2 = versions.filter (fun v => v.ruleId = b.1) ∧ b.2 ≠ []
  complete : ∀ v ∈ versions, v.ruleId ∈ buckets.map Prod.fst

/-- One more version joins those of its rule, and no others. -/
theorem filter_rule_concat (versions : List PolicyVersion) (version : PolicyVersion)
    (key : String) : (versions ++ [version]).filter (fun v => v.ruleId = key)
      = versions.filter (fun v => v.ruleId = key)
        ++ if version.ruleId = key then [version] else [] := by
  rw [List.filter_append]
  congr 1
  by_cases hkey : version.ruleId = key
  · rw [if_pos hkey, List.filter_eq_self.mpr (by simpa using hkey)]
  · rw [if_neg hkey, List.filter_eq_nil_iff.mpr (by simpa using hkey)]

theorem Grouped.push {versions : List PolicyVersion}
    {buckets : List (String × List PolicyVersion)} (h : Grouped versions buckets)
    (version : PolicyVersion) :
    Grouped (versions ++ [version]) (pushCandidate buckets version) := by
  unfold pushCandidate
  by_cases hany : (buckets.any fun b => b.1 = version.ruleId) = true
  · rw [if_pos hany]
    have hkeys : (buckets.map fun b =>
        if b.1 = version.ruleId then (b.1, b.2 ++ [version]) else b).map Prod.fst
        = buckets.map Prod.fst := by
      rw [List.map_map]
      refine List.map_congr_left fun b _ => ?_
      rw [Function.comp_apply]
      split <;> rfl
    refine ⟨by rw [hkeys]; exact h.keys_nodup, fun b' hb' => ?_, fun v hv => ?_⟩
    · obtain ⟨b, hb, rfl⟩ := List.mem_map.mp hb'
      obtain ⟨heq, hne⟩ := h.bucket b hb
      rw [filter_rule_concat]
      by_cases hkey : b.1 = version.ruleId
      · rw [if_pos hkey, if_pos hkey.symm, heq]
        exact ⟨rfl, by simp⟩
      · rw [if_neg hkey, if_neg fun h' => hkey h'.symm, List.append_nil]
        exact ⟨heq, hne⟩
    · rw [hkeys]
      rcases List.mem_append.mp hv with hv | hv
      · exact h.complete v hv
      · rw [List.mem_singleton.mp hv]
        obtain ⟨b, hb, hkey⟩ := List.any_eq_true.mp hany
        exact List.mem_map.mpr ⟨b, hb, of_decide_eq_true hkey⟩
  · rw [if_neg hany]
    have hnew : version.ruleId ∉ buckets.map Prod.fst := by
      intro hmem
      obtain ⟨b, hb, hkey⟩ := List.mem_map.mp hmem
      exact hany (List.any_eq_true.mpr ⟨b, hb, decide_eq_true hkey⟩)
    refine ⟨?_, fun b hb => ?_, fun v hv => ?_⟩
    · rw [List.map_append, List.map_singleton, List.nodup_append]
      refine ⟨h.keys_nodup, List.nodup_singleton _, fun a ha b hb hab => ?_⟩
      rw [hab, List.mem_singleton.mp hb] at ha
      exact hnew ha
    · rw [filter_rule_concat]
      rcases List.mem_append.mp hb with hb | hb
      · -- an older bucket: its rule is not that of the new version
        obtain ⟨heq, hne⟩ := h.bucket b hb
        have hkey : version.ruleId ≠ b.1 := by
          intro hkey
          exact hnew (hkey ▸ List.mem_map_of_mem hb)
        rw [if_neg hkey, List.append_nil]
        exact ⟨heq, hne⟩
      · rw [List.mem_singleton.mp hb]
        refine ⟨?_, by simp⟩
        have hnone : versions.filter (fun v => v.ruleId = version.ruleId) = [] := by
          refine List.filter_eq_nil_iff.mpr fun v hv hkey => hnew ?_
          rw [← of_decide_eq_true hkey]
          exact h.complete v hv
        dsimp only
        rw [hnone, List.nil_append, if_pos rfl]
    · rw [List.map_append, List.mem_append]
      rcases List.mem_append.mp hv with hv | hv
      · exact .inl (h.complete v hv)
      · rw [List.mem_singleton.mp hv]
        exact .inr (List.mem_singleton.mpr rfl)

theorem candidatesByRuleId_grouped (versions : List PolicyVersion) :
    Grouped versions (candidatesByRuleId versions) := by
  -- the loop takes the candidates from the front: on what it has taken so far.
  induction versions using List.reverseRecOn with
  | nil =>
    exact ⟨List.nodup_nil, fun b hb => absurd hb List.not_mem_nil,
      fun v hv => absurd hv List.not_mem_nil⟩
  | append_singleton versions version ih =>
    rw [candidatesByRuleId, List.foldl_append]
    exact ih.push version

/-! ## Selection -/

theorem toRef_ruleId {deps : Deps} {version : PolicyVersion} {ref : ResolvedPolicyVersionRef}
    (h : toRef deps version = .ok ref) : ref.ruleId = version.ruleId := by
  rw [toRef] at h
  split at h
  · cases h
  · cases h
    rfl

/-- The bucket of a rule with one candidate gives that version. -/
def Selects (deps : Deps) (b : String × List PolicyVersion) (ref : ResolvedPolicyVersionRef) :
    Prop :=
  ∃ v, b = (v.ruleId, [v]) ∧ toRef deps v = .ok ref

theorem selectVersions_forall₂ {deps : Deps} {buckets : List (String × List PolicyVersion)}
    {refs : List ResolvedPolicyVersionRef} (h : selectVersions deps buckets = .ok refs)
    (hone : ∀ b ∈ buckets, ∃ v : PolicyVersion, b = (v.ruleId, [v])) :
    List.Forall₂ (Selects deps) buckets refs := by
  induction buckets generalizing refs with
  | nil =>
    cases h
    exact .nil
  | cons b buckets ih =>
    obtain ⟨v, rfl⟩ := hone _ (List.mem_cons_self ..)
    rw [selectVersions] at h
    cases href : toRef deps v with
    | error issues =>
      rw [href] at h
      cases h
    | ok ref =>
      rw [href] at h
      cases hrest : selectVersions deps buckets with
      | error issues =>
        rw [hrest] at h
        cases h
      | ok rest =>
        rw [hrest] at h
        cases h
        exact .cons ⟨v, rfl, href⟩ (ih hrest fun b hb => hone b (List.mem_cons_of_mem _ hb))

theorem forall₂_mem_left {α β : Type} {R : α → β → Prop} {as : List α} {bs : List β} {a : α}
    (h : List.Forall₂ R as bs) (ha : a ∈ as) : ∃ b ∈ bs, R a b := by
  induction h with
  | nil => cases ha
  | cons hR _ ih =>
    rcases List.mem_cons.mp ha with rfl | ha
    · exact ⟨_, List.mem_cons_self .., hR⟩
    · obtain ⟨b, hb, hab⟩ := ih ha
      exact ⟨b, List.mem_cons_of_mem _ hb, hab⟩

/-- The versions of a rule are in the bucket of that rule; where it holds one version, it holds
that. -/
theorem Grouped.singleton {versions : List PolicyVersion}
    {buckets : List (String × List PolicyVersion)} (h : Grouped versions buckets)
    (hoverlap : buckets.filter (fun b => 1 < b.2.length) = []) {b : String × List PolicyVersion}
    (hb : b ∈ buckets) : ∃ v ∈ versions, b = (v.ruleId, [v]) := by
  obtain ⟨heq, hne⟩ := h.bucket b hb
  have hlen : ¬ 1 < b.2.length := by simpa using List.filter_eq_nil_iff.mp hoverlap b hb
  have hpos : 0 < b.2.length := List.length_pos_iff.mpr hne
  obtain ⟨v, hv⟩ := List.length_eq_one_iff.mp (show b.2.length = 1 by omega)
  have hmem : v ∈ versions.filter (fun v => v.ruleId = b.1) := by
    rw [← heq, hv]
    exact List.mem_singleton.mpr rfl
  have hkey := of_decide_eq_true (List.mem_filter.mp hmem).2
  exact ⟨v, List.mem_of_mem_filter hmem, Prod.ext hkey.symm hv⟩

/-- With no bucket of two versions, the versions selected are exact. -/
theorem selectVersions_exact {deps : Deps} {catalog : Catalog} {codes : List String}
    {context : PolicyResolutionContext} {refs : List ResolvedPolicyVersionRef}
    (h : selectVersions deps (candidatesByRuleId (candidates catalog codes context)) = .ok refs)
    (hoverlap : (candidatesByRuleId (candidates catalog codes context)).filter
      (fun b => 1 < b.2.length) = []) : Exact deps catalog codes context refs := by
  have hgrouped := candidatesByRuleId_grouped (candidates catalog codes context)
  generalize candidatesByRuleId (candidates catalog codes context) = buckets at *
  have hone : ∀ b ∈ buckets, ∃ v ∈ candidates catalog codes context, b = (v.ruleId, [v]) :=
    fun b hb => hgrouped.singleton hoverlap hb
  have hselected : List.Forall₂ (Selects deps) buckets refs := by
    refine selectVersions_forall₂ h fun b hb => ?_
    obtain ⟨v, -, hv⟩ := hone b hb
    exact ⟨v, hv⟩
  refine ⟨fun ref href => ?_, fun version hversion => ?_, ?_⟩
  · obtain ⟨b, hb, v, hv, htoRef⟩ := forall₂_mem_left hselected.flip href
    obtain ⟨v', hcandidate, hv'⟩ := hone b hb
    rw [hv] at hv'
    have hsame : v = v' := List.singleton_inj.mp (congrArg Prod.snd hv')
    exact ⟨v, mem_candidates.mp (hsame ▸ hcandidate), htoRef⟩
  · have hcandidate := mem_candidates.mpr hversion
    obtain ⟨b, hb, hkey⟩ := List.mem_map.mp (hgrouped.complete version hcandidate)
    obtain ⟨ref, href, v, hv, htoRef⟩ := forall₂_mem_left hselected hb
    -- the bucket holds the version, and holds one
    have hmem : version ∈ b.2 := by
      rw [(hgrouped.bucket b hb).1]
      exact List.mem_filter.mpr ⟨hcandidate, decide_eq_true hkey.symm⟩
    rw [hv, List.mem_singleton] at hmem
    rw [hmem]
    exact ⟨ref, href, htoRef⟩
  · have hkeys : List.Forall₂ (· = ·) (buckets.map Prod.fst)
        (refs.map ResolvedPolicyVersionRef.ruleId) := by
      rw [List.forall₂_map_left_iff, List.forall₂_map_right_iff]
      refine hselected.imp fun b ref hselects => ?_
      obtain ⟨v, rfl, htoRef⟩ := hselects
      exact (toRef_ruleId htoRef).symm
    rw [List.forall₂_eq_eq_eq] at hkeys
    rw [← hkeys]
    exact hgrouped.keys_nodup

/-! ## The resolver -/

/-- A resolution without reasons has its grounds, and selects the versions in force. -/
def FailClosed (deps : Deps) (catalog : Catalog) (context : PolicyResolutionContext)
    (now : Instant) : Prop :=
  ∀ r, resolve deps catalog context now = .ok r → r.status = .RESOLVED →
    ∃ chain, Grounds catalog context now chain
      ∧ Exact deps catalog (chain.map Jurisdiction.code) context r.versions

theorem ParentChain.head_mem {catalog : Catalog} {code : String} {chain : List Jurisdiction}
    (h : ParentChain catalog code chain) : ∃ j ∈ catalog.jurisdictions.rows, j.code = code := by
  cases h with
  | root hmem => exact ⟨_, hmem, rfl⟩
  | child hmem => exact ⟨_, hmem, rfl⟩

/-! ### A state and its country -/

/-- A row that attaches version 10. -/
def stateRow (id : Uuid) (code : String) : PolicyApplicability where
  id
  policyVersionId := 10
  jurisdictionCode := code
  productCode := "CONVENTIONAL"
  lifecycleEvent := "UNDERWRITING_REVIEW"
  transitionRule := none

/-- Both jurisdictions are covered and have a source whose revision is of instant 0; version 10 is
released. -/
def stateCatalog (applicability : Table PolicyApplicability PolicyApplicability.id) : Catalog where
  jurisdictions := ⟨[⟨"US", none, .COVERED⟩, ⟨"US-CA", some "US", .COVERED⟩], by decide⟩
  sources := ⟨[⟨1, "Federal", "US", 24⟩, ⟨2, "State", "US-CA", 24⟩], by decide⟩
  revisions := ⟨[⟨1, 1, 0⟩, ⟨2, 2, 0⟩], by decide⟩
  versions := ⟨[⟨10, "income_discrepancy", "1.0.0", incomeDsl [], 0, none, .RELEASED⟩], by simp⟩
  applicability

def stateContext (code : String) : PolicyResolutionContext where
  jurisdictionCode := code
  productCode := "CONVENTIONAL"
  lifecycleEvent := "UNDERWRITING_REVIEW"
  asOf := 0
  applicationReceivedAt := none

/-- **The resolver fails closed** for every jurisdiction that is named. -/
theorem resolve_failClosed (deps : Deps) (catalog : Catalog) (context : PolicyResolutionContext)
    (now : Instant) (hnamed : context.jurisdictionCode ≠ "") :
    FailClosed deps catalog context now := by
  intro r hr hresolved
  obtain ⟨chain, deadline, hchain, hfresh, hrows⟩ := resolve_resolved hr hresolved
  obtain ⟨hselect, hreasons, hoverlap, -⟩ := resolveRows_resolved hrows hresolved
  obtain ⟨hknown, hcovered⟩ := loadCoveredAncestry_sound hchain hnamed
  obtain ⟨hsourced, hsources⟩ := validateSourceFreshness_sound hfresh
  have hdated : ∀ row version, Attaches catalog (chain.map Jurisdiction.code) context row version →
      ∃ t, SelectsInstant context row.transitionRule t := by
    intro row version hattaches
    have hrow := mem_applicabilityRows.mpr ⟨hattaches.row_mem, hattaches.applies⟩
    have hnone := List.filterMap_eq_nil_iff.mp hreasons _ (List.mem_map_of_mem hrow)
    exact (classifyRow_reason? hrow).mp hnone version hattaches
  exact ⟨chain, ⟨hknown, hcovered, fun j hj => hsourced _ (List.mem_map_of_mem hj), hsources,
    hdated⟩, selectVersions_exact hselect hoverlap⟩

theorem resolve_failClosed_state :
    ((resolve plainDeps (stateCatalog ⟨[stateRow 1 "US"], by decide⟩) (stateContext "US-CA")
        0).toOption.map fun r => (r.status, r.versions.map (·.policyVersionId)))
      = some (.RESOLVED, [10])
    ∧ FailClosed plainDeps (stateCatalog ⟨[stateRow 1 "US"], by decide⟩) (stateContext "US-CA") 0 :=
  ⟨by decide +kernel, resolve_failClosed _ _ _ _ (by decide)⟩

/-- A blank code ends the chain before it begins: it is resolved, to no versions, though there is no
such jurisdiction. -/
theorem blank_jurisdiction_resolved :
    ¬ FailClosed plainDeps (stateCatalog .empty) (stateContext "") 0 := by
  intro hclosed
  obtain ⟨chain, hgrounds, -⟩ := hclosed
    { status := .RESOLVED, versions := [], unresolvedReasons := [] } (by decide +kernel) rfl
  obtain ⟨j, hj, hcode⟩ := hgrounds.known.head_mem
  have hall : ∀ j ∈ (stateCatalog .empty).jurisdictions.rows, j.code ≠ "" := by decide
  exact hall j hj hcode

end MortgageAgent.Policy
