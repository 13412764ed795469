import MortgageAgent.Lib.JsonText
import MortgageAgent.Policy.Binding
import MortgageAgent.Policy.Validity

/-!
# Reuse answers what the resolver would

The fast path answers from a snapshot that an earlier call stored. What it answers is what the
resolver would have returned: the binding is dropped at the first instant at which the resolver
could have changed its mind, and the snapshot holds what was resolved, because the digest of the
binding is the digest of both.

* **`versionIds_of_digestText`** — equal digest texts, equal policy versions.
* **`NoCollision`** — SHA-256 tells the texts of the run apart.
* **`reuse_sound`** — the versions that the fast path answers with are those that the resolver
  would select.
-/

namespace MortgageAgent.Policy

open Runs

/-! ## What a digest text determines -/

/-- The ids of the versions of a resolution. -/
def PolicyResolutionResult.versionIds (r : PolicyResolutionResult) : List Uuid :=
  r.versions.map ResolvedPolicyVersionRef.policyVersionId

theorem policyVersionId_of_canonical {v v' : ResolvedPolicyVersionRef}
    (h : v.toJson.canonical = v'.toJson.canonical) : v.policyVersionId = v'.policyVersionId := by
  -- the field of one object is a field of the other, with the same text.
  obtain ⟨text, hmem, htext⟩ := Json.canonical_obj_field h (k := "policyVersionId")
    (List.mem_cons_self ..)
  have hfield : text = .str (toString v'.policyVersionId) := by
    simpa using hmem
  rw [hfield] at htext
  exact (Json.toString_inj (Json.canonical_str_inj htext)).symm

/-- The sorted ids can be read off the text. -/
theorem sortedIds_of_digestText {r r' : PolicyResolutionResult}
    (h : digestText r = digestText r') :
    (snapshotVersions r).map ResolvedPolicyVersionRef.policyVersionId
      = (snapshotVersions r').map ResolvedPolicyVersionRef.policyVersionId := by
  obtain ⟨items, hmem, hitems⟩ := Json.canonical_obj_field h (k := "versions")
    (v := .arr ((snapshotVersions r).map ResolvedPolicyVersionRef.toJson)) (by simp)
  have hfield : items = .arr ((snapshotVersions r').map ResolvedPolicyVersionRef.toJson) := by
    simpa using hmem
  rw [hfield] at hitems
  have htexts := Json.canonical_arr_inj hitems
  rw [List.map_map, List.map_map] at htexts
  -- the id is a function of the text of its entry
  obtain ⟨idOfText, hid⟩ := (Function.factorsThrough_iff
    ResolvedPolicyVersionRef.policyVersionId).mp fun v v' (hv : (Json.canonical
      ∘ ResolvedPolicyVersionRef.toJson) v = (Json.canonical ∘ ResolvedPolicyVersionRef.toJson) v') =>
      policyVersionId_of_canonical hv
  have hmap (vs : List ResolvedPolicyVersionRef) :
      vs.map (idOfText ∘ Json.canonical ∘ ResolvedPolicyVersionRef.toJson)
        = (vs.map (Json.canonical ∘ ResolvedPolicyVersionRef.toJson)).map idOfText :=
    List.map_map.symm
  rw [hid, hmap, hmap, htexts]

theorem mem_versionIds {r : PolicyResolutionResult} {id : Uuid} :
    id ∈ r.versionIds
      ↔ id ∈ (snapshotVersions r).map ResolvedPolicyVersionRef.policyVersionId := by
  simp [PolicyResolutionResult.versionIds, snapshotVersions]

/-- **Equal digest texts, equal policy versions.** -/
theorem versionIds_of_digestText {r r' : PolicyResolutionResult}
    (h : digestText r = digestText r') (id : Uuid) : id ∈ r.versionIds ↔ id ∈ r'.versionIds := by
  rw [mem_versionIds, mem_versionIds, sortedIds_of_digestText h]

/-! ## Digests -/

def Event.resolution? : Event → Option PolicyResolutionResult
  | .resolved _ _ _ _ _ r => some r
  | _ => none

/-- The texts that were hashed. -/
def hashedTexts (log : List Event) : List String :=
  (log.filterMap Event.resolution?).map digestText

/-- SHA-256 tells the texts that were hashed apart. -/
def NoCollision (deps : Deps) (log : List Event) : Prop :=
  ∀ t ∈ hashedTexts log, ∀ t' ∈ hashedTexts log, deps.sha256 t = deps.sha256 t' → t = t'

instance (deps : Deps) (log : List Event) : Decidable (NoCollision deps log) :=
  inferInstanceAs (Decidable (∀ t ∈ hashedTexts log, ∀ t' ∈ hashedTexts log,
    deps.sha256 t = deps.sha256 t' → t = t'))

/-- Resolutions that are all the same have one text. -/
theorem noCollision_of_same {deps : Deps} {log : List Event} {n : Nat} {r : PolicyResolutionResult}
    (h : log.filterMap Event.resolution? = List.replicate n r) : NoCollision deps log := by
  have htext : ∀ t ∈ hashedTexts log, t = digestText r := by
    intro t ht
    rw [hashedTexts, h, List.map_replicate] at ht
    exact List.eq_of_mem_replicate ht
  intro t ht t' ht' _
  rw [htext t ht, htext t' ht']

/-- Two resolutions with different digests. -/
theorem noCollision_of_apart {deps : Deps} {log : List Event} {a b : PolicyResolutionResult}
    (h : log.filterMap Event.resolution? = [a, b])
    (hne : computeDigest deps a ≠ computeDigest deps b) : NoCollision deps log := by
  have htexts : hashedTexts log = [digestText a, digestText b] := by
    rw [hashedTexts, h]
    rfl
  unfold NoCollision
  rw [htexts]
  simp only [List.forall_mem_cons, List.not_mem_nil, false_implies, implies_true, and_true,
    true_and]
  exact ⟨fun heq => absurd heq hne, fun heq => absurd heq.symm hne⟩

theorem mem_hashedTexts {log : List Event} {c : Nat} {context : PolicyResolutionContext}
    {k : Instant} {catalog : Catalog} {g : Nat} {r : PolicyResolutionResult}
    (h : Event.resolved c context k catalog g r ∈ log) : digestText r ∈ hashedTexts log :=
  List.mem_map_of_mem (List.mem_filterMap.mpr ⟨_, h, rfl⟩)

/-- A digest stands for one text. -/
theorem DigestOf.text_eq {deps : Deps} {log : List Event} {resolution : PolicyResolutionResult}
    {digest : String} (h : DigestOf deps log resolution digest) (hcollision : NoCollision deps log)
    {c : Nat} {context : PolicyResolutionContext} {k : Instant} {catalog : Catalog} {g : Nat}
    {r : PolicyResolutionResult} (hr : Event.resolved c context k catalog g r ∈ log)
    (hdigest : digest = computeDigest deps r) : digestText r = digestText resolution := by
  obtain ⟨c', context', k', catalog', g', r', hr', hdigest', htext⟩ := h
  rw [htext]
  exact hcollision _ (mem_hashedTexts hr) _ (mem_hashedTexts hr') (hdigest.symm.trans hdigest')

/-! ## Reuse -/

/-- **The fast path answers what the resolver would.** A call resolved `context` on a catalog and
bound it; another call with the same context at a later evaluation time reuses that binding on
the same catalog. Asked at that evaluation time and that instant, the resolver resolves, and to
the versions of the snapshot that was read back. -/
theorem reuse_sound (deps : Deps) (release : ReleaseDb) (run : List Label)
    (hcollision : NoCollision deps (exec (step deps) (System.init release) run).log)
    {c₁ c₂ : Nat} {context : PolicyResolutionContext} {k now₁ a₂ now₂ : Instant}
    {catalog : Catalog} {g : Nat} {r : PolicyResolutionResult} {b : CasePolicyBinding}
    {snapshot : CasePolicySnapshot}
    (hresolved : Event.resolved c₁ context k catalog g r
      ∈ (exec (step deps) (System.init release) run).log)
    (hstored : Event.stored c₁ now₁ b ∈ (exec (step deps) (System.init release) run).log)
    (hreused : Event.reused c₂ { context with asOf := a₂ } now₂ catalog b snapshot
      ∈ (exec (step deps) (System.init release) run).log)
    (hle : context.asOf ≤ a₂) (hnow : a₂ ≤ now₂) :
    ∃ r', resolve deps catalog { context with asOf := a₂ } now₂ = .ok r'
      ∧ r'.status = .RESOLVED
      ∧ ∀ id, id ∈ r'.versionIds ↔ id ∈ (reconstructResolution snapshot).versionIds := by
  have htraced := traced deps release run
  -- the binding carries the digest and the deadline of this call's one resolution
  obtain ⟨context', k', catalog', g', r₁, hr₁, hstatus, hdigest, hdeadline⟩ :=
    htraced.events _ hstored
  cases resolved_once deps release run hresolved hr₁
  obtain ⟨hbefore, hdigestOf⟩ := htraced.events _ hreused
  -- the fast path was taken before the binding's deadline, which is not after the resolution's.
  have hcoming : ∀ t, r.revalidateAfter = some t → now₂ < t := by
    intro t ht
    rw [hdeadline] at hbefore
    exact lt_of_lt_of_le hbefore (nextRevalidationDeadline_le ht now₁)
  obtain ⟨r', hr', hstatus', hversions⟩ :=
    resolve_stable (htraced.events _ hresolved) hstatus hle hnow hcoming
  refine ⟨r', hr', hstatus', fun id => ?_⟩
  -- the snapshot's resolution has the digest of this one, and no two texts of the run share it.
  have htext := hdigestOf.text_eq hcollision hresolved hdigest
  rw [← versionIds_of_digestText htext id, PolicyResolutionResult.versionIds, hversions]
  rfl

/-! ### A case evaluated twice -/

/-- SHA-256 of the two texts that the runs below hash: a resolution without versions, and the one
of `underwriting`. -/
def digestDeps : Deps where
  sha256 s :=
    if s = "\x7b\"status\":\"RESOLVED\",\"unresolvedReasons\":[],\"versions\":[]\x7d" then
      "4dc66763153456a89d918e26d5ce98cadb380307070cdd48542e74eadf9f8792"
    else "19953c1a8b688d586e34fcd82d6eaa1f984ec023a143cdf398d894f888735e38"
  dateParses := sampleDeps.dateParses

/-- One covered jurisdiction, with a fresh source and a released rule for underwriting. -/
def coveredDb : ReleaseDb where
  catalog :=
    { jurisdictions := ⟨[⟨"US", none, .COVERED⟩], by decide⟩
      sources := ⟨[⟨1, "selling guide", "US", 720⟩], by decide⟩
      revisions := ⟨[⟨2, 1, 1786791600000⟩], by decide⟩
      versions := ⟨[incomeVariance .RELEASED], by decide⟩
      applicability := ⟨[⟨3, 7, "US", "CONVENTIONAL_MORTGAGE", "UNDERWRITING_REVIEW", none⟩],
        by decide⟩ }
  generation := 0
  approvals := .empty

def underwriting (asOf : Instant) : PolicyResolutionContext where
  jurisdictionCode := "US"
  productCode := "CONVENTIONAL_MORTGAGE"
  lifecycleEvent := "UNDERWRITING_REVIEW"
  asOf := asOf
  applicationReceivedAt := none

def caseCall (context : PolicyResolutionContext) : EvaluateCall := ⟨100, 200, context⟩

def evaluationEnv (now : Instant) (newId : Uuid) : Env := ⟨now, now, newId⟩

/-- Call `c` runs `n` of its transactions. -/
def evaluates (c n : Nat) (env : Env) : List Label :=
  List.replicate n (.evaluate c env)

/-- The first call resolves and binds; the second comes a minute later. -/
def reuseRun : List Label :=
  .startEvaluate 0 (caseCall (underwriting 1786795200000))
    :: evaluates 0 4 (evaluationEnv 1786795200000 50)
    ++ .startEvaluate 1 (caseCall (underwriting 1786795260000))
    :: evaluates 1 2 (evaluationEnv 1786795260000 51)

def underwritingResolution : PolicyResolutionResult :=
  (resolve digestDeps coveredDb.catalog (underwriting 1786795200000)
    1786795200000).toOption.getD (reviewRequired [])

def underwritingSnapshot : CasePolicySnapshot :=
  newSnapshot digestDeps (evaluationEnv 1786795200000 50)
    (caseCall (underwriting 1786795200000)) underwritingResolution

def underwritingBinding : CasePolicyBinding :=
  newBinding digestDeps (evaluationEnv 1786795200000 50)
    (caseCall (underwriting 1786795200000)) 0 1786795200000 underwritingResolution
    underwritingSnapshot

theorem reuse_sound_reuseRun :
    NoCollision digestDeps (exec (step digestDeps) (System.init coveredDb) reuseRun).log
      ∧ (reconstructResolution underwritingSnapshot).versionIds = [7]
      ∧ ∃ r', resolve digestDeps coveredDb.catalog (underwriting 1786795260000) 1786795260000
          = .ok r'
        ∧ r'.status = .RESOLVED
        ∧ ∀ id, id ∈ r'.versionIds ↔ id ∈ (reconstructResolution underwritingSnapshot).versionIds := by
  have hcollision :
      NoCollision digestDeps (exec (step digestDeps) (System.init coveredDb) reuseRun).log :=
    noCollision_of_same (n := 1) (r := underwritingResolution) (by decide +kernel)
  refine ⟨hcollision, by decide +kernel, ?_⟩
  exact reuse_sound digestDeps coveredDb reuseRun hcollision (b := underwritingBinding)
    (r := underwritingResolution) (List.mem_of_getElem? (i := 0) rfl)
    (List.mem_of_getElem? (i := 1) rfl) (List.mem_of_getElem? (i := 3) rfl) (by decide) (by decide)

end MortgageAgent.Policy
