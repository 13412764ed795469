import MortgageAgent.Lib.Cut
import MortgageAgent.Lib.JsonParse
import MortgageAgent.Policy.Grounds

/-!
# Overlapping versions

The resolver counts the candidates of a rule row by row: a rule with two candidates is reported as
having overlapping versions. Two rows may attach one version, at a state and at its country for
instance, and then the version overlaps with itself.

* **`OverlapsAreDistinct`** — a rule is reported only if two versions of it are in force.
* **`Reached`** — the resolver gets as far as the report.
* **`SelfOverlap`** — two rows put one version in force, and no other version of its rule is.
* **`overlapsAreDistinct_iff`** — the first holds exactly where a resolver that is reached finds no
  such version.
-/

namespace MortgageAgent.Policy

/-! ## The report -/

/-- The reason that a rule has overlapping versions, so many of them. -/
def overlapReason (ruleId : String) (n : Nat) (asOf : Instant) : String :=
  "rule \"" ++ ruleId ++ "\" has " ++ toString n
    ++ " overlapping released versions effective as of " ++ toISOString asOf

theorem overlapReasons_eq (asOf : Instant) (buckets : List (String × List PolicyVersion)) :
    overlapReasons asOf buckets = (buckets.filter fun b => 1 < b.2.length).map fun b =>
      overlapReason b.1 b.2.length asOf := rfl

/-- The reason names its rule. -/
theorem overlapReason_inj {r r' : String} {n n' : Nat} {asOf : Instant}
    (h : overlapReason r n asOf = overlapReason r' n' asOf) : r = r' := by
  have hlist := congrArg String.toList h
  simp only [overlapReason, String.toList_append, List.append_cancel_right_eq] at hlist
  have hhas : "\" has ".toList = "\" has".toList ++ [' '] := rfl
  simp only [hhas, List.append_assoc, List.append_cancel_left_eq, List.singleton_append] at hlist
  -- the count is what follows the last blank
  rw [← List.append_assoc, ← List.append_assoc] at hlist
  have hblank : ' '.isDigit = false := by decide
  have hcut := (Cut.cut_after_eq (Json.not_mem_toString hblank n) (Json.not_mem_toString hblank n')
    hlist).1
  exact String.toList_inj.mp (List.append_cancel_right hcut)

/-! ## Other reasons -/

/-- No other reason begins as this one does. -/
theorem head?_overlapReason (r : String) (n : Nat) (asOf : Instant) :
    (overlapReason r n asOf).toList.head? = some 'r' := by
  simp [overlapReason]

theorem loadCoveredAncestry_reason {catalog : Catalog} {turns : Nat} {visited : List String}
    {nextCode : Option String} {reason : String}
    (h : loadCoveredAncestry catalog turns visited nextCode = .error reason) :
    reason.toList.head? = some 'j' := by
  induction turns generalizing visited nextCode with
  | zero =>
    cases nextCode with
    | none => cases h
    | some code =>
      simp only [loadCoveredAncestry] at h
      split at h
      · cases h
      · split at h
        · cases h
          simp
        · split at h
          · cases h
            simp
          · split at h
            · cases h
              simp
            · cases h
              simp
  | succ turns ih =>
    cases nextCode with
    | none => cases h
    | some code =>
      simp only [loadCoveredAncestry] at h
      split at h
      · cases h
      · split at h
        · cases h
          simp
        · split at h
          · cases h
            simp
          · split at h
            · cases h
              simp
            · split at h
              · next reason' hrest =>
                cases h
                exact ih hrest
              · cases h

theorem checkSource_reason {revisions : List PolicySourceRevision} {now : Instant}
    {source : PolicySource} {reason : String}
    (h : checkSource revisions now source = .error reason) :
    reason.toList.head? = some 'p' := by
  unfold checkSource at h
  split at h
  · cases h
    simp
  · split at h
    · cases h
      simp
    · split at h
      · cases h
        simp
      · cases h

theorem validateSourceFreshness_reason {catalog : Catalog} {codes : List String} {now : Instant}
    {reason : String} (h : reason ∈ (validateSourceFreshness catalog codes now).1) :
    reason.toList.head? ≠ some 'r' := by
  rcases List.mem_append.mp h with hunregistered | hcheck
  · obtain ⟨code, -, rfl⟩ := List.mem_map.mp hunregistered
    simp
  · obtain ⟨check, hmem, hreason⟩ := List.mem_filterMap.mp hcheck
    obtain ⟨source, -, rfl⟩ := List.mem_map.mp hmem
    cases hsource : checkSource (newestRevisions catalog (sourcesOf catalog codes)) now source with
    | ok deadline =>
      rw [hsource] at hreason
      cases hreason
    | error reason' =>
      rw [hsource] at hreason
      cases hreason
      rw [checkSource_reason hsource]
      decide

theorem resolveApplicabilityInstant_reason {row : PolicyApplicability}
    {context : PolicyResolutionContext} {reason : String}
    (h : resolveApplicabilityInstant row context = .error reason) :
    reason.toList.head? = some 'p' := by
  unfold resolveApplicabilityInstant at h
  split at h
  · cases h
  · split at h
    · cases h
    · split at h
      · split at h
        · cases h
          simp
        · cases h
      · split at h
        · cases h
        · cases h
          simp

theorem rowOutcomes_reason {catalog : Catalog} {codes : List String}
    {context : PolicyResolutionContext} {reason : String}
    (h : reason ∈ (rowOutcomes catalog codes context).filterMap RowOutcome.reason?) :
    reason.toList.head? = some 'p' := by
  obtain ⟨outcome, houtcome, hreason⟩ := List.mem_filterMap.mp h
  obtain ⟨row, hrow, rfl⟩ := List.mem_map.mp houtcome
  rcases classifyRow_eq hrow with ⟨version, -, heq⟩ | ⟨-, heq⟩
  · rw [heq] at hreason
    cases hinstant : resolveApplicabilityInstant row context with
    | error reason' =>
      rw [hinstant] at hreason
      cases hreason
      exact resolveApplicabilityInstant_reason hinstant
    | ok t =>
      rw [hinstant] at hreason
      dsimp only at hreason
      rw [classifyVersion] at hreason
      split at hreason
      · cases hreason
      · split at hreason <;> cases hreason
  · rw [heq] at hreason
    cases hreason

/-! ## Counting rows -/

/-- What a list without repetitions gives twice comes from two of its members. -/
theorem one_lt_length_filterMap {α β : Type} {l : List α} (hl : l.Nodup) (f : α → Option β) :
    1 < (l.filterMap f).length
      ↔ ∃ a ∈ l, ∃ a' ∈ l, a ≠ a' ∧ (f a).isSome = true ∧ (f a').isSome = true := by
  have hnodup : (l.filter fun a => (f a).isSome).Nodup := hl.filter _
  have hmem (a : α) : a ∈ l.filter (fun a => (f a).isSome) ↔ a ∈ l ∧ (f a).isSome = true :=
    List.mem_filter
  rw [List.length_filterMap_eq_countP, List.countP_eq_length_filter]
  constructor
  · intro hlen
    generalize l.filter (fun a => (f a).isSome) = m at hnodup hmem hlen
    match m, hlen with
    | a :: a' :: rest, _ =>
      have hne : a ≠ a' := fun heq => (List.nodup_cons.mp hnodup).1 (heq ▸ List.mem_cons_self ..)
      obtain ⟨ha, hfa⟩ := (hmem a).mp (List.mem_cons_self ..)
      obtain ⟨ha', hfa'⟩ := (hmem a').mp (List.mem_cons_of_mem _ (List.mem_cons_self ..))
      exact ⟨a, ha, a', ha', hne, hfa, hfa'⟩
  · rintro ⟨a, ha, a', ha', hne, hfa, hfa'⟩
    have hpair : [a, a'] ⊆ l.filter fun a => (f a).isSome := by
      intro x hx
      rcases List.mem_cons.mp hx with rfl | hx
      · exact (hmem x).mpr ⟨ha, hfa⟩
      · rw [List.mem_singleton.mp hx]
        exact (hmem a').mpr ⟨ha', hfa'⟩
    have hsub : List.Subperm [a, a'] (l.filter fun a => (f a).isSome) :=
      List.Nodup.subperm (by simpa using hne) hpair
    exact hsub.length_le

/-- Two rows put versions of the rule in force. -/
def TwoRows (catalog : Catalog) (codes : List String) (context : PolicyResolutionContext)
    (ruleId : String) : Prop :=
  ∃ row v row' v', row ≠ row' ∧ InForceBy catalog codes context row v ∧ v.ruleId = ruleId
    ∧ InForceBy catalog codes context row' v' ∧ v'.ruleId = ruleId

/-- A rule has two candidates exactly if two rows put versions of it in force. -/
theorem one_lt_length_candidates {catalog : Catalog} {codes : List String}
    {context : PolicyResolutionContext} {ruleId : String} :
    1 < ((candidates catalog codes context).filter fun v => v.ruleId = ruleId).length
      ↔ TwoRows catalog codes context ruleId := by
  have hrows : (applicabilityRows catalog codes context).Nodup :=
    (List.Nodup.of_map _ catalog.applicability.nodup).filter _
  have hgives (row : PolicyApplicability) (hrow : row ∈ applicabilityRows catalog codes context) :
      ((classifyRow catalog context row).version?.filter fun v => v.ruleId = ruleId).isSome = true
        ↔ ∃ v, InForceBy catalog codes context row v ∧ v.ruleId = ruleId := by
    rw [Option.isSome_iff_exists]
    refine exists_congr fun v => ?_
    rw [Option.filter_eq_some_iff, classifyRow_version? hrow, decide_eq_true_eq]
  rw [candidates, rowOutcomes, List.filterMap_map, List.filter_filterMap,
    one_lt_length_filterMap hrows]
  constructor
  · rintro ⟨row, hrow, row', hrow', hne, hgive, hgive'⟩
    obtain ⟨v, hv, hrule⟩ := (hgives row hrow).mp hgive
    obtain ⟨v', hv', hrule'⟩ := (hgives row' hrow').mp hgive'
    exact ⟨row, v, row', v', hne, hv, hrule, hv', hrule'⟩
  · rintro ⟨row, v, row', v', hne, hv, hrule, hv', hrule'⟩
    have hrow := mem_applicabilityRows.mpr ⟨hv.row_mem, hv.applies⟩
    have hrow' := mem_applicabilityRows.mpr ⟨hv'.row_mem, hv'.applies⟩
    exact ⟨row, hrow, row', hrow', hne, (hgives row hrow).mpr ⟨v, hv, hrule⟩,
      (hgives row' hrow').mpr ⟨v', hv', hrule'⟩⟩

/-! ## Reaching the report -/

/-- The only row that puts a version of the rule in force. -/
def Alone (catalog : Catalog) (codes : List String) (context : PolicyResolutionContext)
    (version : PolicyVersion) : Prop :=
  InForce catalog codes context version ∧ ¬ TwoRows catalog codes context version.ruleId

/-- The resolver gets as far as its report: the chain is covered, its sources are fresh, and the
rules that are selected parse. -/
structure Reached (deps : Deps) (catalog : Catalog) (context : PolicyResolutionContext)
    (now : Instant) (chain : List Jurisdiction) : Prop where
  covered : loadCoveredAncestry catalog catalog.jurisdictions.rows.length []
    (some context.jurisdictionCode) = .ok chain
  fresh : (validateSourceFreshness catalog (chain.map Jurisdiction.code) now).1 = []
  parses : ∀ version, Alone catalog (chain.map Jurisdiction.code) context version →
    ∃ rule, parsePolicyRule deps version.dsl = .ok rule

theorem toRef_ok_iff {deps : Deps} {version : PolicyVersion} :
    (∃ ref, toRef deps version = .ok ref) ↔ ∃ rule, parsePolicyRule deps version.dsl = .ok rule := by
  rw [toRef]
  cases parsePolicyRule deps version.dsl with
  | error issues =>
    constructor
    · rintro ⟨ref, h⟩
      cases h
    · rintro ⟨rule, h⟩
      cases h
  | ok rule => exact iff_of_true ⟨_, rfl⟩ ⟨_, rfl⟩

theorem selectVersions_ok_iff {deps : Deps} {buckets : List (String × List PolicyVersion)} :
    (∃ refs, selectVersions deps buckets = .ok refs)
      ↔ ∀ b ∈ buckets, ∀ v, b.2 = [v] → ∃ ref, toRef deps v = .ok ref := by
  induction buckets with
  | nil => exact iff_of_true ⟨[], rfl⟩ fun b hb => absurd hb List.not_mem_nil
  | cons b buckets ih =>
    rw [List.forall_mem_cons, ← ih]
    obtain ⟨key, versions⟩ := b
    match versions with
    | [v] =>
      rw [selectVersions]
      cases href : toRef deps v with
      | error issues =>
        constructor
        · rintro ⟨refs, h⟩
          cases h
        · rintro ⟨h, -⟩
          obtain ⟨ref, h⟩ := h v rfl
          rw [href] at h
          cases h
      | ok ref =>
        constructor
        · rintro ⟨refs, h⟩
          refine ⟨fun v' hv' => ?_, ?_⟩
          · rw [← List.singleton_inj.mp hv']
            exact ⟨ref, href⟩
          · cases hrest : selectVersions deps buckets with
            | error issues =>
              rw [hrest] at h
              cases h
            | ok rest => exact ⟨rest, rfl⟩
        · rintro ⟨-, rest, hrest⟩
          rw [hrest]
          exact ⟨ref :: rest, rfl⟩
    | [] => exact (and_iff_right fun v h => by cases h).symm
    | _ :: _ :: _ => exact (and_iff_right fun v h => by cases h).symm

/-- The rule is read of each version that is alone in force for its rule. -/
theorem selectVersions_candidates_iff {deps : Deps} {catalog : Catalog} {codes : List String}
    {context : PolicyResolutionContext} :
    (∃ refs, selectVersions deps (candidatesByRuleId (candidates catalog codes context)) = .ok refs)
      ↔ ∀ version, Alone catalog codes context version →
        ∃ rule, parsePolicyRule deps version.dsl = .ok rule := by
  have hgrouped := candidatesByRuleId_grouped (candidates catalog codes context)
  rw [selectVersions_ok_iff]
  constructor
  · rintro h version ⟨hforce, halone⟩
    have hcandidate := mem_candidates.mpr hforce
    obtain ⟨b, hb, hkey⟩ := List.mem_map.mp (hgrouped.complete version hcandidate)
    have hbucket := (hgrouped.bucket b hb).1
    have hmem : version ∈ b.2 := by
      rw [hbucket]
      exact List.mem_filter.mpr ⟨hcandidate, decide_eq_true hkey.symm⟩
    have hlen : b.2.length = 1 := by
      rw [← hkey, ← one_lt_length_candidates, ← hbucket] at halone
      have hpos := List.length_pos_of_mem hmem
      omega
    obtain ⟨v, hv⟩ := List.length_eq_one_iff.mp hlen
    rw [hv, List.mem_singleton] at hmem
    rw [hmem]
    exact toRef_ok_iff.mp (h b hb v hv)
  · intro h b hb v hv
    have hbucket := (hgrouped.bucket b hb).1
    have hmem : v ∈ (candidates catalog codes context).filter fun w => w.ruleId = b.1 := by
      rw [← hbucket, hv]
      exact List.mem_singleton.mpr rfl
    have hkey : v.ruleId = b.1 := of_decide_eq_true (List.mem_filter.mp hmem).2
    refine toRef_ok_iff.mpr (h v ⟨mem_candidates.mp (List.mem_of_mem_filter hmem), ?_⟩)
    rw [hkey, ← one_lt_length_candidates, ← hbucket, hv]
    exact Nat.lt_irrefl 1

/-! ## The resolver's report -/

theorem resolveRows_reasons {deps : Deps} {catalog : Catalog} {codes : List String}
    {context : PolicyResolutionContext} {deadline : Option Instant} {r : PolicyResolutionResult}
    (h : resolveRows deps catalog codes context deadline = .ok r) :
    r.unresolvedReasons = (rowOutcomes catalog codes context).filterMap RowOutcome.reason?
      ++ overlapReasons context.asOf (candidatesByRuleId (candidates catalog codes context)) := by
  unfold resolveRows at h
  dsimp only at h
  split at h
  · cases h
  · split at h
    · cases h
      rfl
    · next hreasons =>
      cases h
      exact (not_not.mp hreasons).symm

theorem resolveRows_ok {deps : Deps} {catalog : Catalog} {codes : List String}
    {context : PolicyResolutionContext} {refs : List ResolvedPolicyVersionRef}
    (deadline : Option Instant)
    (h : selectVersions deps (candidatesByRuleId (candidates catalog codes context)) = .ok refs) :
    ∃ r, resolveRows deps catalog codes context deadline = .ok r := by
  unfold candidates rowOutcomes at h
  unfold resolveRows
  simp only [h]
  split
  · exact ⟨_, rfl⟩
  · exact ⟨_, rfl⟩

/-- A rule is reported where two rows put versions of it in force. -/
theorem mem_overlapReasons {catalog : Catalog} {codes : List String}
    {context : PolicyResolutionContext} {ruleId : String} :
    (∃ n, overlapReason ruleId n context.asOf
        ∈ overlapReasons context.asOf (candidatesByRuleId (candidates catalog codes context)))
      ↔ TwoRows catalog codes context ruleId := by
  have hgrouped := candidatesByRuleId_grouped (candidates catalog codes context)
  rw [← one_lt_length_candidates]
  simp only [overlapReasons_eq, List.mem_map, List.mem_filter, decide_eq_true_eq]
  constructor
  · rintro ⟨n, b, ⟨hb, hlen⟩, heq⟩
    rw [(hgrouped.bucket b hb).1, overlapReason_inj heq] at hlen
    exact hlen
  · intro hlen
    obtain ⟨v, hv⟩ := List.exists_mem_of_length_pos (Nat.lt_trans Nat.zero_lt_one hlen)
    obtain ⟨hcandidate, hrule⟩ := List.mem_filter.mp hv
    obtain ⟨b, hb, hkey⟩ := List.mem_map.mp (hgrouped.complete v hcandidate)
    have hrule' : b.1 = ruleId := hkey.trans (of_decide_eq_true hrule)
    refine ⟨b.2.length, b, ⟨hb, ?_⟩, by rw [hrule']⟩
    rw [(hgrouped.bucket b hb).1, hrule']
    exact hlen

/-- The resolver reports a rule exactly if it is reached and two rows put versions of it in
force. -/
theorem resolve_reports_iff {deps : Deps} {catalog : Catalog} {context : PolicyResolutionContext}
    {now : Instant} {ruleId : String} :
    (∃ r n, resolve deps catalog context now = .ok r
        ∧ overlapReason ruleId n context.asOf ∈ r.unresolvedReasons)
      ↔ ∃ chain, Reached deps catalog context now chain
        ∧ TwoRows catalog (chain.map Jurisdiction.code) context ruleId := by
  unfold resolve
  constructor
  · rintro ⟨r, n, hr, hreason⟩
    split at hr
    · next reason hchain =>
      cases hr
      have hhead := loadCoveredAncestry_reason hchain
      rw [← List.mem_singleton.mp hreason, head?_overlapReason] at hhead
      exact absurd hhead (by decide)
    · next chain hchain =>
      split at hr
      · next deadline hfresh =>
        rw [resolveRows_reasons hr] at hreason
        have hselect : ∃ refs, selectVersions deps (candidatesByRuleId
            (candidates catalog (chain.map Jurisdiction.code) context)) = .ok refs := by
          unfold resolveRows at hr
          dsimp only at hr
          split at hr
          · cases hr
          · exact ⟨_, ‹_›⟩
        refine ⟨chain, ⟨hchain, congrArg Prod.fst hfresh, selectVersions_candidates_iff.mp hselect⟩,
          mem_overlapReasons.mp ⟨n, ?_⟩⟩
        rcases List.mem_append.mp hreason with hrow | hoverlap
        · have hhead := rowOutcomes_reason hrow
          rw [head?_overlapReason] at hhead
          exact absurd hhead (by decide)
        · exact hoverlap
      · next reasons deadline hfresh =>
        cases hr
        have hmem : overlapReason ruleId n context.asOf ∈ (validateSourceFreshness catalog
            (chain.map Jurisdiction.code) now).1 := by
          rw [hfresh]
          exact hreason
        exact absurd (head?_overlapReason ..) (validateSourceFreshness_reason hmem)
  · rintro ⟨chain, hreached, htwo⟩
    obtain ⟨n, hn⟩ := mem_overlapReasons.mpr htwo
    obtain ⟨refs, hrefs⟩ := selectVersions_candidates_iff.mpr hreached.parses
    rw [hreached.covered]
    dsimp only
    have hfresh := hreached.fresh
    generalize validateSourceFreshness catalog (chain.map Jurisdiction.code) now = checked at *
    obtain ⟨reasons, deadline⟩ := checked
    obtain rfl : reasons = [] := hfresh
    obtain ⟨r, hr⟩ := resolveRows_ok deadline hrefs
    refine ⟨r, n, hr, ?_⟩
    rw [resolveRows_reasons hr]
    exact List.mem_append_right _ hn

/-! ## Distinct versions -/

/-- A rule is reported only if two versions of it are in force on the jurisdiction's chain. -/
def OverlapsAreDistinct (deps : Deps) (catalog : Catalog) (context : PolicyResolutionContext)
    (now : Instant) : Prop :=
  ∀ r ruleId n, resolve deps catalog context now = .ok r →
    overlapReason ruleId n context.asOf ∈ r.unresolvedReasons →
    ∃ chain, ParentChain catalog context.jurisdictionCode chain ∧ ∃ v v', v ≠ v'
      ∧ v.ruleId = ruleId ∧ InForce catalog (chain.map Jurisdiction.code) context v
      ∧ v'.ruleId = ruleId ∧ InForce catalog (chain.map Jurisdiction.code) context v'

/-- Two rows put one version in force, and no other version of its rule is. -/
def SelfOverlap (catalog : Catalog) (codes : List String) (context : PolicyResolutionContext) :
    Prop :=
  ∃ row row' version, row ≠ row' ∧ InForceBy catalog codes context row version
    ∧ InForceBy catalog codes context row' version
    ∧ ∀ v, InForce catalog codes context v → v.ruleId = version.ruleId → v = version

/-- The code names a jurisdiction, and it one parent or none. -/
theorem ParentChain.unique {catalog : Catalog} {code : String} {chain chain' : List Jurisdiction}
    (h : ParentChain catalog code chain) (h' : ParentChain catalog code chain') :
    chain = chain' := by
  induction h generalizing chain' with
  | @root j hmem hroot =>
    generalize hcode : j.code = code at h'
    cases h' with
    | root hmem' =>
      rw [catalog.jurisdictions.eq_of_key_eq hmem hmem' hcode]
    | child hmem' hparent' hnamed' =>
      obtain rfl := catalog.jurisdictions.eq_of_key_eq hmem hmem' hcode
      rw [hparent'] at hroot
      exact absurd hroot hnamed'
  | @child j parent chain hmem hparent hnamed _ ih =>
    generalize hcode : j.code = code at h'
    cases h' with
    | root hmem' hroot' =>
      obtain rfl := catalog.jurisdictions.eq_of_key_eq hmem hmem' hcode
      rw [hparent] at hroot'
      exact absurd hroot' hnamed
    | child hmem' hparent' _ hrest' =>
      obtain rfl := catalog.jurisdictions.eq_of_key_eq hmem hmem' hcode
      rw [hparent] at hparent'
      obtain rfl := Option.some.inj hparent'
      rw [ih hrest']

theorem loadCoveredAncestry_blank (catalog : Catalog) (turns : Nat) (visited : List String) :
    loadCoveredAncestry catalog turns visited (some "") = .ok [] := by
  cases turns with
  | zero => rw [loadCoveredAncestry, if_pos rfl]
  | succ turns => rw [loadCoveredAncestry, if_pos rfl]

/-- A chain with a row on it is that of a jurisdiction that is named. -/
theorem InForceBy.parentChain {deps : Deps} {catalog : Catalog} {context : PolicyResolutionContext}
    {now : Instant} {chain : List Jurisdiction} {row : PolicyApplicability} {v : PolicyVersion}
    (h : InForceBy catalog (chain.map Jurisdiction.code) context row v)
    (hreached : Reached deps catalog context now chain) :
    ParentChain catalog context.jurisdictionCode chain := by
  refine (loadCoveredAncestry_sound hreached.covered fun hblank => ?_).1
  have hnil := hreached.covered
  rw [hblank, loadCoveredAncestry_blank] at hnil
  have hon := h.applies.jurisdiction
  rw [← Except.ok.inj hnil] at hon
  cases hon

/-- **A rule is reported only for two of its versions** exactly where a resolver that is reached
finds no version that overlaps only with itself. -/
theorem overlapsAreDistinct_iff (deps : Deps) (catalog : Catalog)
    (context : PolicyResolutionContext) (now : Instant) :
    OverlapsAreDistinct deps catalog context now
      ↔ ∀ chain, Reached deps catalog context now chain →
        ¬ SelfOverlap catalog (chain.map Jurisdiction.code) context := by
  constructor
  · rintro hdistinct chain hreached ⟨row, row', version, hne, hrow, hrow', honly⟩
    have htwo : TwoRows catalog (chain.map Jurisdiction.code) context version.ruleId :=
      ⟨row, version, row', version, hne, hrow, rfl, hrow', rfl⟩
    obtain ⟨r, n, hr, hreason⟩ := resolve_reports_iff.mpr ⟨chain, hreached, htwo⟩
    obtain ⟨chain', hchain', v, v', hvv', hv, hforce, hv', hforce'⟩ := hdistinct r _ n hr hreason
    obtain rfl := (hrow.parentChain hreached).unique hchain'
    exact hvv' ((honly v hforce hv).trans (honly v' hforce' hv').symm)
  · intro hnone r ruleId n hr hreason
    obtain ⟨chain, hreached, htwo⟩ := resolve_reports_iff.mp ⟨r, n, hr, hreason⟩
    obtain ⟨row, v, row', v', hne, hrow, hv, hrow', hv'⟩ := htwo
    by_contra hsame
    have hchain := hrow.parentChain hreached
    -- any two versions of the rule are one, so the two rows attach it
    have honly : ∀ w, InForce catalog (chain.map Jurisdiction.code) context w →
        w.ruleId = ruleId → w = v := by
      intro w hforce hw
      by_contra hwv
      exact hsame ⟨chain, hchain, w, v, hwv, hw, hforce, hv, row, hrow⟩
    obtain rfl := honly v' ⟨row', hrow'⟩ hv'
    refine hnone chain hreached ⟨row, row', v', hne, hrow, hrow', fun w hforce hw => ?_⟩
    exact honly w hforce (hw.trans hv)

/-- A version attached at a state and at its country is reported as overlapping. -/
theorem attached_twice_reported : ¬ OverlapsAreDistinct plainDeps
    (stateCatalog ⟨[stateRow 1 "US", stateRow 2 "US-CA"], by decide⟩) (stateContext "US-CA") 0 := by
  intro hdistinct
  obtain ⟨chain, -, v, v', hne, -, ⟨row, hv⟩, -, ⟨row', hv'⟩⟩ := hdistinct
    (reviewRequired [overlapReason "income_discrepancy" 2 0]) "income_discrepancy" 2
    (by decide +kernel) (List.mem_singleton_self _)
  -- the catalog has one version
  have hone : (stateCatalog ⟨[stateRow 1 "US", stateRow 2 "US-CA"], by decide⟩).versions.rows
      = [⟨10, "income_discrepancy", "1.0.0", incomeDsl [], 0, none, .RELEASED⟩] := rfl
  have hmem := hv.version_mem
  have hmem' := hv'.version_mem
  rw [hone, List.mem_singleton] at hmem hmem'
  exact hne (hmem.trans hmem'.symm)

end MortgageAgent.Policy
