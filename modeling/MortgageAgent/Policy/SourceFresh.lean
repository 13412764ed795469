import Mathlib.Data.List.Chain
import MortgageAgent.Lib.Run
import MortgageAgent.Policy.SourceMonitor

/-!
# How long a monitored source stays fresh

The resolver judges a source by the instant at which its newest revision was recorded, and a check
that finds nothing new records none. So a check keeps its source fresh only if it finds a change.

* **`ReportsExceeded`** — the resolver turns a source down as stale.
* **`FreshAfter`** — what is promised of a sequence of checks; **`Monitored`** — the sequences it is
  promised of.
* **`KeepsFresh`** — the condition on one check.
* **`fresh_after_iff`** — the promise holds all along a sequence just where every check meets it.
* **`unchanged_source_exceeds`** — one check of a source that did not change.
-/

namespace MortgageAgent.Policy.Monitor

open Runs

/-! ## The promise and its condition -/

def exceededReason (source : PolicySource) (deadline : Instant) : String :=
  "policy source \"" ++ source.name ++ "\" exceeded its freshness objective at "
    ++ toISOString deadline

/-- `resolve` turns to the source, and finds that it exceeded its freshness objective. -/
def ReportsExceeded (catalog : Catalog) (context : PolicyResolutionContext)
    (knowledgeAsOf : Instant) (source : PolicySource) : Prop :=
  ∃ ancestry, loadCoveredAncestry catalog catalog.jurisdictions.rows.length []
      (some context.jurisdictionCode) = .ok ancestry
    ∧ source ∈ sourcesOf catalog (ancestry.map Jurisdiction.code)
    ∧ ∃ deadline, Policy.checkSource
        (newestRevisions catalog (sourcesOf catalog (ancestry.map Jurisdiction.code)))
        knowledgeAsOf source = .error (exceededReason source deadline)

/-- It turns to the sources of the chain of jurisdictions. -/
def Reaches (rest : Catalog) (context : PolicyResolutionContext) (source : PolicySource) : Prop :=
  ∃ ancestry, loadCoveredAncestry rest rest.jurisdictions.rows.length []
      (some context.jurisdictionCode) = .ok ancestry
    ∧ source.jurisdictionCode ∈ ancestry.map Jurisdiction.code

def MonitoredSource.objective (source : MonitoredSource) : Int :=
  source.freshnessObjectiveHours * hourMs

def Check.isOf (c : Check) (source : MonitoredSource) : Prop := c.connector.sourceId = source.id

instance (c : Check) (source : MonitoredSource) : Decidable (c.isOf source) :=
  inferInstanceAs (Decidable (_ = _))

/-- The rows at an instant, when the checks up to it are done. -/
def dbAt (start : Db) (run : List Check) (t : Instant) : Db :=
  exec step start (run.filter fun c => c.now ≤ t)

/-- From any check of the source until one objective after any other. -/
def FreshAfter (start : Db) (rest : Catalog) (context : PolicyResolutionContext)
    (source : MonitoredSource) (run : List Check) : Prop :=
  ∀ c ∈ run, c.isOf source → ∀ c' ∈ run, c'.isOf source → ∀ t, c.now ≤ t →
    t < c'.now + source.objective →
    ¬ ReportsExceeded ((dbAt start run t).catalog rest) context t source.toPolicySource

def Succeeded (db : Db) (c : Check) : Prop :=
  ∃ r, result db c = some r ∧ (r.outcome = .no_change ∨ r.outcome = .new_revision)

/-- Checks of any sources in the order of time, those of the source successful and less than its
objective apart. -/
structure Monitored (start : Db) (source : MonitoredSource) (run : List Check) : Prop where
  stored : source ∈ start.sources.rows
  connector : source.retrievalMode = .CONNECTOR
  positive : 0 < source.freshnessObjectiveHours
  ordered : run.Pairwise fun c d => c.now ≤ d.now
  succeeded : AllSteps step (fun db c => c.isOf source → Succeeded db c) start run
  gaps : (run.filter fun c => c.isOf source).IsChain fun c d => d.now < c.now + source.objective

/-- The connector has an update, and its content is not taken for schema drift. -/
def Check.findsChange (db : Db) (c : Check) : Bool :=
  match c.connector.checkForUpdate
    ((latestRevision db c.connector.sourceId).map (·.checksum)) with
  | .ok { changed := true, update := some update } => detectSchemaDrift update.content = []
  | _ => false

/-- A check of the source finds a change, or comes before any revision, or no later than one. -/
def KeepsFresh (source : MonitoredSource) (db : Db) (c : Check) : Prop :=
  c.isOf source → c.findsChange db = true ∨ db.revisionsOf source.id = []
    ∨ ∃ r ∈ db.revisionsOf source.id, c.now ≤ r.recordedAt

/-! ## The resolver's turn -/

/-- The three reasons of a check begin alike and go on with different words. -/
theorem append_ne_exceededReason {source : PolicySource} {deadline : Instant} {rest : String}
    (h : rest.toList.take 3 ≠ ['"', ' ', 'e']) :
    "policy source \"" ++ source.name ++ rest ≠ exceededReason source deadline := by
  intro heq
  delta exceededReason at heq
  have hlist := congrArg String.toList heq
  simp only [String.toList_append, List.append_assoc, List.append_cancel_left_eq] at hlist
  refine h ?_
  rw [hlist]
  rfl

/-- A source exceeds its objective if it has revisions, and all are too old. -/
theorem checkSource_exceeded_iff {catalog : Catalog} {sources : List PolicySource}
    {source : PolicySource} (hsource : source ∈ sources) (hpositive : 0 < source.freshnessObjectiveHours)
    {t : Instant} :
    (∃ deadline, Policy.checkSource (newestRevisions catalog sources) t source
        = .error (exceededReason source deadline))
      ↔ (∃ r ∈ catalog.revisions.rows, r.policySourceId = source.id)
        ∧ ∀ r ∈ catalog.revisions.rows, r.policySourceId = source.id →
          r.recordedAt + source.freshnessObjectiveHours * hourMs ≤ t := by
  have hread (r : PolicySourceRevision) (hr : r ∈ catalog.revisions.rows)
      (hid : r.policySourceId = source.id) :
      r ∈ catalog.revisions.rows.filter fun r => sources.any fun s => s.id = r.policySourceId := by
    refine List.mem_filter.mpr ⟨hr, List.any_eq_true.mpr ⟨source, hsource, ?_⟩⟩
    rw [hid, decide_eq_true_eq]
  rw [Policy.checkSource]
  cases hfind : (newestRevisions catalog sources).find? fun r => r.policySourceId = source.id with
  | none =>
    refine iff_of_false ?_ ?_
    · rintro ⟨deadline, heq⟩
      exact append_ne_exceededReason (by decide) (Except.error.inj heq)
    · rintro ⟨⟨r, hr, hid⟩, -⟩
      rw [List.find?_eq_none] at hfind
      exact hfind r ((List.mem_insertionSort _).mpr (hread r hr hid)) (by simpa using hid)
  | some newest =>
    obtain ⟨hmem, hid, hnewest⟩ := find?_insertionSort hfind
    dsimp only
    rw [if_neg (by omega)]
    constructor
    · rintro ⟨deadline, heq⟩
      split at heq
      · next hold =>
        refine ⟨⟨newest, List.mem_of_mem_filter hmem, of_decide_eq_true hid⟩, fun r hr hrid => ?_⟩
        have hle := hnewest r (hread r hr hrid) (decide_eq_true hrid)
        show r.recordedAt + _ ≤ _
        have hle' : (r.recordedAt : Int) ≤ newest.recordedAt := hle
        have hold' : (newest.recordedAt : Int) + source.freshnessObjectiveHours * hourMs ≤ t := hold
        exact le_trans (Int.add_le_add_right hle' _) hold'
      · cases heq
    · rintro ⟨-, hall⟩
      have hold := hall newest (List.mem_of_mem_filter hmem) (of_decide_eq_true hid)
      rw [if_pos hold]
      exact ⟨_, rfl⟩

/-- The walk reads jurisdictions only. -/
theorem loadCoveredAncestry_catalog (db : Db) (rest : Catalog) (turns : Nat) (visited : List String)
    (nextCode : Option String) :
    loadCoveredAncestry (db.catalog rest) turns visited nextCode
      = loadCoveredAncestry rest turns visited nextCode := by
  induction turns generalizing visited nextCode with
  | zero =>
    cases nextCode with
    | none => rfl
    | some code =>
      simp only [loadCoveredAncestry]
      rfl
  | succ turns ih =>
    cases nextCode with
    | none => rfl
    | some code =>
      simp only [loadCoveredAncestry, ih]
      rfl

theorem reportsExceeded_iff {db : Db} {rest : Catalog} {context : PolicyResolutionContext}
    {source : MonitoredSource} (hstored : source ∈ db.sources.rows)
    (hpositive : 0 < source.freshnessObjectiveHours) {t : Instant} :
    ReportsExceeded (db.catalog rest) context t source.toPolicySource
      ↔ Reaches rest context source.toPolicySource ∧ db.revisionsOf source.id ≠ []
        ∧ ∀ r ∈ db.revisionsOf source.id, r.recordedAt + source.objective ≤ t := by
  have hrevisions (P : PolicySourceRevision → Prop) :
      (∀ r ∈ (db.catalog rest).revisions.rows, r.policySourceId = source.id → P r)
        ↔ ∀ r ∈ db.revisionsOf source.id, P r.toPolicySourceRevision := by
    simp [Db.catalog, Db.revisionsOf]
  have hany : (∃ r ∈ (db.catalog rest).revisions.rows, r.policySourceId = source.id)
      ↔ db.revisionsOf source.id ≠ [] := by
    simp [Db.catalog, Db.revisionsOf, List.filter_eq_nil_iff]
  have hexceeded {sources : List PolicySource} (hsource : source.toPolicySource ∈ sources) :
      (∃ deadline, Policy.checkSource (newestRevisions (db.catalog rest) sources) t
          source.toPolicySource = .error (exceededReason source.toPolicySource deadline))
        ↔ (∃ r ∈ (db.catalog rest).revisions.rows, r.policySourceId = source.id)
          ∧ ∀ r ∈ (db.catalog rest).revisions.rows, r.policySourceId = source.id →
            r.recordedAt + source.objective ≤ t :=
    checkSource_exceeded_iff hsource hpositive
  constructor
  · rintro ⟨ancestry, hancestry, hsource, hreported⟩
    obtain ⟨hsome, hall⟩ := (hexceeded hsource).mp hreported
    rw [loadCoveredAncestry_catalog] at hancestry
    refine ⟨⟨ancestry, hancestry, ?_⟩, hany.mp hsome, (hrevisions _).mp hall⟩
    simpa using (List.mem_filter.mp hsource).2
  · rintro ⟨⟨ancestry, hancestry, hcode⟩, hsome, hall⟩
    have hsource : source.toPolicySource
        ∈ sourcesOf (db.catalog rest) (ancestry.map Jurisdiction.code) :=
      List.mem_filter.mpr ⟨List.mem_map_of_mem hstored, by simpa using hcode⟩
    refine ⟨ancestry, ?_, hsource, ?_⟩
    · rw [loadCoveredAncestry_catalog]
      exact hancestry
    · exact (hexceeded hsource).mpr ⟨hany.mpr hsome, (hrevisions _).mpr hall⟩

/-- What the turn finds is among the reasons of `resolve`. -/
theorem ReportsExceeded.mem_unresolvedReasons {catalog : Catalog}
    {context : PolicyResolutionContext} {t : Instant} {source : PolicySource}
    (h : ReportsExceeded catalog context t source) (deps : Deps) :
    ∃ r deadline, resolve deps catalog context t = .ok r
      ∧ exceededReason source deadline ∈ r.unresolvedReasons := by
  obtain ⟨ancestry, hancestry, hsource, deadline, hcheck⟩ := h
  have hmem : exceededReason source deadline
      ∈ (validateSourceFreshness catalog (ancestry.map Jurisdiction.code) t).1 := by
    refine List.mem_append_right _ (List.mem_filterMap.mpr ⟨_, List.mem_map_of_mem hsource, ?_⟩)
    rw [hcheck]
    rfl
  rw [resolve, hancestry]
  dsimp only
  split
  · next heq =>
    rw [heq] at hmem
    cases hmem
  · next reasons _ _ heq =>
    rw [heq] at hmem
    exact ⟨_, deadline, rfl, hmem⟩

/-! ## What a check does -/

theorem not_succeeded_of_outcome {db : Db} {c : Check} {r : PolicySourceMonitorResult}
    (h : result db c = some r) (hfailed : r.outcome = .error ∨ r.outcome = .schema_drift) :
    ¬ Succeeded db c := by
  rintro ⟨r', hr', houtcome⟩
  obtain rfl : r = r' := Option.some.inj (h.symm.trans hr')
  rcases hfailed with hfailed | hfailed <;> rw [hfailed] at houtcome <;>
    exact houtcome.elim (fun h => by cases h) (fun h => by cases h)

/-- A check that succeeds records a revision if it finds a change, and else changes nothing. -/
theorem step_cases (db : Db) (c : Check) :
    (step db c = db ∧ (c.findsChange db = true → ¬ Succeeded db c))
      ∨ ∃ r : RecordedRevision, c.findsChange db = true ∧ r.policySourceId = c.connector.sourceId
        ∧ r.recordedAt = c.now ∧ ∃ revisions, db.revisions.insert r = some revisions
          ∧ step db c = { db with revisions } := by
  have hout : (step db c, result db c) = checkSource db c.now c.newId c.connector := rfl
  unfold checkSource at hout
  cases hfind : db.sources.find c.connector.sourceId with
  | none =>
    rw [hfind] at hout
    obtain ⟨hstep, hresult⟩ := Prod.mk.inj hout
    exact Or.inl ⟨hstep, fun _ => not_succeeded_of_outcome hresult (Or.inl rfl)⟩
  | some source =>
    rw [hfind] at hout
    have hid : source.id = c.connector.sourceId := (db.sources.find_eq_some_iff.mp hfind).2
    dsimp only at hout
    split at hout
    · obtain ⟨hstep, hresult⟩ := Prod.mk.inj hout
      exact Or.inl ⟨hstep, fun _ => not_succeeded_of_outcome hresult (Or.inl rfl)⟩
    · rw [hid] at hout
      unfold Check.findsChange
      generalize c.connector.checkForUpdate
        ((latestRevision db c.connector.sourceId).map (·.checksum)) = answer at hout ⊢
      split at hout
      · obtain ⟨hstep, hresult⟩ := Prod.mk.inj hout
        exact Or.inl ⟨hstep, fun _ => not_succeeded_of_outcome hresult (Or.inl rfl)⟩
      · next update =>
        dsimp only
        split at hout
        · next hdrift =>
          obtain ⟨hstep, hresult⟩ := Prod.mk.inj hout
          exact Or.inl ⟨hstep, fun _ => not_succeeded_of_outcome hresult (Or.inr rfl)⟩
        · next hfits =>
          rw [not_not] at hfits
          split at hout
          · obtain ⟨hstep, hresult⟩ := Prod.mk.inj hout
            refine Or.inl ⟨hstep, fun _ => ?_⟩
            rintro ⟨r, hr, -⟩
            rw [hresult] at hr
            cases hr
          · next revisions hinsert =>
            obtain ⟨hstep, hresult⟩ := Prod.mk.inj hout
            exact Or.inr ⟨_, decide_eq_true hfits, rfl, rfl, revisions, hinsert, hstep⟩
      · next hnone =>
        obtain ⟨hstep, hresult⟩ := Prod.mk.inj hout
        refine Or.inl ⟨hstep, fun hfinds => ?_⟩
        split at hfinds
        · next update heq => exact (hnone update (Except.ok.inj heq)).elim
        · cases hfinds

section Steps

variable {db : Db} {c : Check} {source : MonitoredSource}

theorem step_sources (db : Db) (c : Check) : (step db c).sources = db.sources := by
  rcases step_cases db c with ⟨hstep, -⟩ | ⟨r, -, -, -, revisions, -, hstep⟩
  · rw [hstep]
  · rw [hstep]

theorem exec_sources (db : Db) (run : List Check) : (exec step db run).sources = db.sources := by
  induction run generalizing db with
  | nil => rfl
  | cons c rest ih =>
    rw [exec_cons, ih]
    exact step_sources db c

theorem revisionsOf_insert {r : RecordedRevision} {revisions : Table RecordedRevision fun r => r.id}
    (h : db.revisions.insert r = some revisions) (id : Uuid) :
    ({ db with revisions } : Db).revisionsOf id
      = db.revisionsOf id ++ [r].filter fun r => r.policySourceId = id := by
  rw [Db.revisionsOf, Table.rows_of_insert h, List.filter_append]
  rfl

theorem revisionsOf_step_other (h : ¬ c.isOf source) :
    (step db c).revisionsOf source.id = db.revisionsOf source.id := by
  rcases step_cases db c with ⟨hstep, -⟩ | ⟨r, -, hid, -, revisions, hinsert, hstep⟩
  · rw [hstep]
  · have hnot : (decide (r.policySourceId = source.id)) = false :=
      decide_eq_false fun heq => h (hid.symm.trans heq)
    rw [hstep, revisionsOf_insert hinsert, List.filter_cons, hnot]
    simp

theorem revisionsOf_step_unchanged (h : c.findsChange db = false) : step db c = db := by
  rcases step_cases db c with ⟨hstep, -⟩ | ⟨r, hfinds, -⟩
  · exact hstep
  · rw [h] at hfinds
    cases hfinds

/-- A check that finds a change records it at its own instant. -/
theorem revisionsOf_step_change (hof : c.isOf source) (hsucceeded : Succeeded db c)
    (h : c.findsChange db = true) :
    ∃ r ∈ (step db c).revisionsOf source.id, r.recordedAt = c.now := by
  rcases step_cases db c with ⟨-, hfailed⟩ | ⟨r, -, hid, hnow, revisions, hinsert, hstep⟩
  · exact absurd hsucceeded (hfailed h)
  · refine ⟨r, ?_, hnow⟩
    rw [hstep, revisionsOf_insert hinsert]
    refine List.mem_append_right _ (List.mem_filter.mpr ⟨List.mem_singleton_self r, ?_⟩)
    exact decide_eq_true (hid.trans hof)

theorem revisionsOf_exec_other {run : List Check} (h : ∀ c ∈ run, ¬ c.isOf source) :
    (exec step db run).revisionsOf source.id = db.revisionsOf source.id := by
  induction run generalizing db with
  | nil => rfl
  | cons c rest ih =>
    rw [exec_cons, ih fun d hd => h d (List.mem_cons_of_mem _ hd)]
    exact revisionsOf_step_other (h c (List.mem_cons_self ..))

/-- After a check that keeps its source fresh there is no revision, or one as recent. -/
theorem KeepsFresh.after (h : KeepsFresh source db c) (hof : c.isOf source)
    (hsucceeded : Succeeded db c) :
    (step db c).revisionsOf source.id = []
      ∨ ∃ r ∈ (step db c).revisionsOf source.id, c.now ≤ r.recordedAt := by
  cases hfinds : c.findsChange db with
  | true =>
    obtain ⟨r, hr, hnow⟩ := revisionsOf_step_change hof hsucceeded hfinds
    exact Or.inr ⟨r, hr, hnow ▸ le_refl _⟩
  | false =>
    rw [revisionsOf_step_unchanged hfinds]
    rcases h hof with hchange | hothers
    · rw [hfinds] at hchange
      cases hchange
    · exact hothers

end Steps

/-! ## Sequences of checks -/

/-- The last element with a property. -/
theorem exists_last {α : Type} {l : List α} {p : α → Prop} (h : ∃ x ∈ l, p x) :
    ∃ before x after, l = before ++ x :: after ∧ p x ∧ ∀ y ∈ after, ¬ p y := by
  induction l with
  | nil => simp at h
  | cons a l ih =>
    by_cases hl : ∃ x ∈ l, p x
    · obtain ⟨before, x, after, rfl, hx, hafter⟩ := ih hl
      exact ⟨a :: before, x, after, rfl, hx, hafter⟩
    · obtain ⟨x, hx, hpx⟩ := h
      rcases List.mem_cons.mp hx with rfl | hx
      · exact ⟨[], x, l, rfl, hpx, fun y hy hpy => hl ⟨y, hy, hpy⟩⟩
      · exact absurd ⟨x, hx, hpx⟩ hl

/-- Checks in the order of time, split at an instant. -/
theorem split_at {run : List Check} (h : run.Pairwise fun c d => c.now ≤ d.now) (t : Instant) :
    run = (run.filter fun c => c.now ≤ t) ++ run.filter fun c => ¬ c.now ≤ t := by
  induction run with
  | nil => rfl
  | cons c rest ih =>
    obtain ⟨hc, hrest⟩ := List.pairwise_cons.mp h
    by_cases hle : c.now ≤ t
    · rw [List.filter_cons_of_pos (by simpa using hle), List.filter_cons_of_neg (by simpa using hle),
        List.cons_append, ← ih hrest]
    · have hlate : ∀ d ∈ c :: rest, ¬ d.now ≤ t := by
        intro d hd hdt
        rcases List.mem_cons.mp hd with rfl | hd
        · exact hle hdt
        · exact hle (le_trans (hc d hd) hdt)
      rw [List.filter_eq_nil_iff.mpr fun d hd => by simpa using hlate d hd,
        List.filter_eq_self.mpr fun d hd => by simpa using hlate d hd, List.nil_append]

section Sequences

variable {start : Db} {rest : Catalog} {context : PolicyResolutionContext}
  {source : MonitoredSource} {run : List Check}

theorem Monitored.reported_iff (h : Monitored start source run) {t : Instant} :
    ReportsExceeded ((dbAt start run t).catalog rest) context t source.toPolicySource
      ↔ Reaches rest context source.toPolicySource ∧ (dbAt start run t).revisionsOf source.id ≠ []
        ∧ ∀ r ∈ (dbAt start run t).revisionsOf source.id, r.recordedAt + source.objective ≤ t := by
  refine reportsExceeded_iff ?_ h.positive
  rw [dbAt, exec_sources]
  exact h.stored

/-- The next check of the source comes before its objective is over. -/
theorem Monitored.next_before (h : Monitored start source run) {before after : List Check}
    {d : Check} (hrun : run = before ++ d :: after) (hd : d.isOf source) {c : Check}
    (hc : c ∈ after) (hof : c.isOf source) :
    ∃ e ∈ after, e.isOf source ∧ e.now < d.now + source.objective := by
  have hgaps := h.gaps
  rw [hrun, List.filter_append, List.filter_cons_of_pos (by simpa using hd)] at hgaps
  cases hlater : after.filter fun c => c.isOf source with
  | nil =>
    rw [List.filter_eq_nil_iff] at hlater
    exact absurd (decide_eq_true hof) (hlater c hc)
  | cons e later =>
    rw [hlater, List.isChain_split] at hgaps
    have he : e ∈ after.filter fun c => c.isOf source := by
      rw [hlater]
      exact List.mem_cons_self ..
    obtain ⟨hmem, heof⟩ := List.mem_filter.mp he
    exact ⟨e, hmem, of_decide_eq_true heof, (List.isChain_cons_cons.mp hgaps.2).1⟩

/-- Where every check keeps the source fresh, no turn of the resolver finds it stale. -/
theorem freshAfter_of_keepsFresh (h : Monitored start source run)
    (hkeeps : AllSteps step (KeepsFresh source) start run) :
    FreshAfter start rest context source run := by
  intro c hc hof c' hc' hof' t hct htc' hreported
  obtain ⟨-, hsome, hold⟩ := h.reported_iff.mp hreported
  have hsplit := split_at h.ordered t
  -- the last check of the source up to the instant
  have hup : ∃ x ∈ run.filter fun c => c.now ≤ t, x.isOf source :=
    ⟨c, List.mem_filter.mpr ⟨hc, decide_eq_true hct⟩, hof⟩
  obtain ⟨before, d, after, hpre, hd, hnone⟩ := exists_last hup
  have hrun : run = before ++ d :: (after ++ run.filter fun c => ¬ c.now ≤ t) := by
    rw [hpre, List.append_assoc] at hsplit
    exact hsplit
  have hstate : (dbAt start run t).revisionsOf source.id
      = (step (exec step start before) d).revisionsOf source.id := by
    rw [dbAt, hpre, exec_append, exec_cons, revisionsOf_exec_other hnone]
  rw [hstate] at hsome hold
  have hkeepsd : KeepsFresh source (exec step start before) d := by
    rw [hrun] at hkeeps
    exact hkeeps.of_append_right.1
  have hsucceeded : Succeeded (exec step start before) d := by
    have hall := h.succeeded
    rw [hrun] at hall
    exact hall.of_append_right.1 hd
  have hlt : t < d.now + source.objective := by
    have hordered := h.ordered
    rw [hrun, List.pairwise_append] at hordered
    by_cases hle : c'.now ≤ t
    · -- no check of the source comes between `d` and the instant
      have hmem : c' ∈ before ++ d :: after := by
        rw [← hpre]
        exact List.mem_filter.mpr ⟨hc', decide_eq_true hle⟩
      have hfirst : c'.now ≤ d.now := by
        rcases List.mem_append.mp hmem with hearlier | hlater
        · exact hordered.2.2 c' hearlier d (List.mem_cons_self ..)
        · rcases List.mem_cons.mp hlater with rfl | hlater
          · exact le_refl _
          · exact absurd hof' (hnone c' hlater)
      exact lt_of_lt_of_le htc' (Int.add_le_add_right hfirst _)
    · have hlate : c' ∈ after ++ run.filter fun c => ¬ c.now ≤ t :=
        List.mem_append_right _ (List.mem_filter.mpr ⟨hc', by simpa using hle⟩)
      obtain ⟨e, he, heof, hbefore⟩ := h.next_before hrun hd hlate hof'
      rcases List.mem_append.mp he with hafter | hpost
      · exact absurd heof (hnone e hafter)
      · have hlater : ¬ e.now ≤ t := of_decide_eq_true (List.mem_filter.mp hpost).2
        exact lt_trans (lt_of_not_ge hlater) hbefore
  rcases hkeepsd.after hd hsucceeded with hempty | ⟨r, hr, hrecent⟩
  · exact hsome hempty
  · have hstale := hold r hr
    have hle : (d.now : Int) + source.objective ≤ r.recordedAt + source.objective :=
      Int.add_le_add_right hrecent _
    exact absurd (lt_of_lt_of_le hlt (le_trans hle hstale)) (lt_irrefl _)

/-- A check that does not keep its source fresh is followed by a turn that finds it stale. -/
theorem not_freshAfter_of_not_keepsFresh {before : List Check} {c : Check}
    (h : Monitored start source (before ++ [c])) (hreaches : Reaches rest context source.toPolicySource)
    (hnot : ¬ KeepsFresh source (exec step start before) c) :
    ¬ FreshAfter start rest context source (before ++ [c]) := by
  intro hfresh
  simp only [KeepsFresh, Classical.not_imp, not_or, not_exists, not_and, not_le] at hnot
  obtain ⟨hof, hfinds, hsome, hold⟩ := hnot
  have hc : c ∈ before ++ [c] := List.mem_append_right _ (List.mem_singleton_self c)
  have hpositive : 0 < source.objective := by
    have := h.positive
    have hhour : hourMs = 3600000 := rfl
    rw [MonitoredSource.objective, hhour]
    omega
  -- the last instant of the objective
  have hlast : c.now ≤ c.now + source.objective - 1 :=
    Int.le_sub_one_of_lt (Int.lt_add_of_pos_right _ hpositive)
  have hstate : dbAt start (before ++ [c]) (c.now + source.objective - 1)
      = exec step start before := by
    have hall : (before ++ [c]).filter (fun d => d.now ≤ c.now + source.objective - 1)
        = before ++ [c] := by
      refine List.filter_eq_self.mpr fun d hd => decide_eq_true (le_trans ?_ hlast)
      rcases List.mem_append.mp hd with hearlier | hsame
      · exact (List.pairwise_append.mp h.ordered).2.2 d hearlier c (List.mem_singleton_self c)
      · rw [List.mem_singleton.mp hsame]
    rw [dbAt, hall, exec_append, exec_cons, exec_nil,
      revisionsOf_step_unchanged (by simpa using hfinds)]
  refine hfresh c hc hof c hc hof _ hlast (sub_one_lt _) ?_
  refine h.reported_iff.mpr ⟨hreaches, ?_, ?_⟩
  · rw [hstate]
    exact hsome
  · rw [hstate]
    intro r hr
    exact Int.le_sub_one_of_lt (Int.add_lt_add_right (hold r hr) _)

/-- **Fresh sources.** All along a sequence of successful checks, less than the objective apart, the
resolver never finds the source stale until one objective after the last check, if and only if it
does not turn to the source at all, or each check finds a change, or comes before any revision, or
no later than one. -/
theorem fresh_after_iff (rest : Catalog) (context : PolicyResolutionContext)
    (h : Monitored start source run) :
    (∀ before, before <+: run → FreshAfter start rest context source before)
      ↔ ¬ Reaches rest context source.toPolicySource
        ∨ AllSteps step (KeepsFresh source) start run := by
  have hupTo {before : List Check} (hbefore : before <+: run) : Monitored start source before := by
    obtain ⟨after, rfl⟩ := hbefore
    have hgaps := h.gaps
    rw [List.filter_append] at hgaps
    exact ⟨h.stored, h.connector, h.positive, (List.pairwise_append.mp h.ordered).1,
      h.succeeded.of_append_left, hgaps.left_of_append⟩
  constructor
  · intro hfresh
    by_contra hneither
    rw [not_or, not_not] at hneither
    obtain ⟨hreaches, hnot⟩ := hneither
    obtain ⟨before, c, after, hrun, hc⟩ := exists_step_of_not_allSteps hnot
    have hsplit : before ++ [c] <+: run := ⟨after, by rw [hrun, List.append_assoc]; rfl⟩
    exact not_freshAfter_of_not_keepsFresh (hupTo hsplit) hreaches hc (hfresh _ hsplit)
  · intro hor before hbefore
    have hmonitored := hupTo hbefore
    obtain ⟨after, rfl⟩ := hbefore
    rcases hor with hunreached | hkeeps
    · intro c _ _ c' _ _ t _ _ hreported
      exact hunreached (hmonitored.reported_iff.mp hreported).1
    · exact freshAfter_of_keepsFresh hmonitored hkeeps.of_append_left

end Sequences

/-! ## A bulletin -/

def bulletinSource : MonitoredSource where
  id := 1
  name := "Demo bulletin"
  jurisdictionCode := "US-CA"
  freshnessObjectiveHours := 24
  retrievalMode := .CONNECTOR

def bulletinCatalog : Catalog where
  jurisdictions := ⟨[{ code := "US-CA", parentCode := none, coverageStatus := .COVERED }], by decide⟩
  sources := .empty
  revisions := .empty
  versions := .empty
  applicability := .empty

def bulletinContext : PolicyResolutionContext where
  jurisdictionCode := "US-CA"
  productCode := "CONVENTIONAL"
  lifecycleEvent := "UNDERWRITING_REVIEW"
  asOf := 0
  applicationReceivedAt := none

def bulletin (checksum : String) : PolicySourceConnectorUpdate where
  checksum
  publishedAt := 0
  content := .obj [("summary", .str "Synthetic bulletin")]

/-- The first revision was recorded at the instant 0. -/
def bulletinDb : Db where
  sources := ⟨[bulletinSource], by decide⟩
  revisions := ⟨[
    { id := 1
      policySourceId := 1
      recordedAt := 0
      checksum := "v1"
      publishedAt := 0
      content := (bulletin "v1").content }], by decide⟩

/-- A check some hours later, when the bulletin has the checksum. -/
def bulletinCheck (hours : Int) (newId : Uuid) (checksum : String) : Check where
  now := hours * hourMs
  newId
  connector := demoConnector 1 (.ok (bulletin checksum))

theorem bulletin_reached : Reaches bulletinCatalog bulletinContext bulletinSource.toPolicySource :=
  ⟨[{ code := "US-CA", parentCode := none, coverageStatus := .COVERED }], by decide +kernel,
    by decide +kernel⟩

/-- A bulletin that changes with every check. -/
theorem fresh_after_changes :
    FreshAfter bulletinDb bulletinCatalog bulletinContext bulletinSource
      [bulletinCheck 23 2 "v2", bulletinCheck 46 3 "v3"] := by
  have hmonitored : Monitored bulletinDb bulletinSource
      [bulletinCheck 23 2 "v2", bulletinCheck 46 3 "v3"] :=
    { stored := List.mem_singleton_self _
      connector := rfl
      positive := by decide
      ordered := by simp [bulletinCheck, hourMs]
      succeeded :=
        ⟨fun _ => ⟨_, rfl, Or.inr rfl⟩, fun _ => ⟨_, rfl, Or.inr rfl⟩, trivial⟩
      gaps := by simp [bulletinCheck, Check.isOf, demoConnector, bulletinSource,
        MonitoredSource.objective, hourMs] }
  refine (fresh_after_iff bulletinCatalog bulletinContext hmonitored).mpr (Or.inr ?_) _
    List.prefix_rfl
  exact ⟨fun _ => Or.inl (by decide +kernel), fun _ => Or.inl (by decide +kernel), trivial⟩

/-- **A bulletin that does not change** is stale a day after its last revision, in the middle of the
day that follows the check. -/
theorem unchanged_source_exceeds :
    ¬ ∀ (start : Db) (rest : Catalog) (context : PolicyResolutionContext)
      (source : MonitoredSource) (run : List Check), Monitored start source run →
      FreshAfter start rest context source run := by
  intro hfresh
  have hmonitored : Monitored bulletinDb bulletinSource ([] ++ [bulletinCheck 12 2 "v1"]) :=
    { stored := List.mem_singleton_self _
      connector := rfl
      positive := by decide
      ordered := by simp
      succeeded := ⟨fun _ => ⟨_, rfl, Or.inl rfl⟩, trivial⟩
      gaps := by simp [bulletinCheck, Check.isOf, demoConnector, bulletinSource] }
  refine not_freshAfter_of_not_keepsFresh hmonitored bulletin_reached ?_
    (hfresh _ bulletinCatalog bulletinContext _ _ hmonitored)
  intro hkeeps
  rcases hkeeps rfl with hfinds | hempty | ⟨r, hr, hrecent⟩
  · revert hfinds
    decide +kernel
  · cases hempty
  · obtain rfl := List.mem_singleton.mp hr
    revert hrecent
    decide +kernel

end MortgageAgent.Policy.Monitor
