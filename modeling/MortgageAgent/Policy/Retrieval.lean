import Mathlib.Algebra.Order.Ring.Rat
import MortgageAgent.Lib.Ranking
import MortgageAgent.Policy.Passages
import MortgageAgent.Policy.ResearchQueue
import MortgageAgent.Policy.SourceMonitor

/-!
# Retrieval

`PolicyResearchService.retrieve` reads the revision that a run names, or else the newest revision
of each source of the run's jurisdiction, cuts them into passages, and keeps the passages that have
the most terms of the query.

* **`tokenize`**, **`revisionsFor`**, **`retrieve`** — as the service has them.
* **`Quotes`** — where in the sources an excerpt stands.
* **`revisionsFor_newest`** — one revision of each source is read, and there is no newer one.
* **`quotes_of_mem_retrieve`** — every excerpt stands where it says.
* **`isBest_retrieve`** — and no passage that is left out ranks before one that is kept.
-/

namespace MortgageAgent.Policy.Retrieval

open Monitor (RecordedRevision)
open Research (SourceExcerpt)
open ResearchQueue (CodeUnits QueuedRun)

/-! ## Terms -/

/-- `toLowerCase`, as far as the pattern of a term reads it: beyond ASCII, two characters have an
ASCII letter in lower case. -/
def lowerUnit (u : Nat) : List Nat :=
  if 0x41 ≤ u ∧ u ≤ 0x5A then [u + 0x20]
  else if u = 0x130 then [0x69, 0x307]
  else if u = 0x212A then [0x6B]
  else [u]

/-- `[a-z0-9_]` -/
def isTermUnit (u : Nat) : Bool :=
  (0x61 ≤ u && u ≤ 0x7A) || (0x30 ≤ u && u ≤ 0x39) || u = 0x5F

/-- `match(/[a-z0-9_]{2,}/g)`, with the run of term units up to here, backwards. -/
def termsFrom (run : List Nat) : List Nat → List (List Nat)
  | [] => if 2 ≤ run.length then [run.reverse] else []
  | u :: rest =>
    if isTermUnit u then termsFrom (u :: run) rest
    else if 2 ≤ run.length then run.reverse :: termsFrom [] rest
    else termsFrom [] rest

def tokenize (value : CodeUnits) : List CodeUnits :=
  (termsFrom [] (value.flatMap lowerUnit)).eraseDups

example : tokenize (Json.utf16 "A DTI of 43%: see DTI_max, a.") =
    ["dti", "of", "43", "see", "dti_max"].map Json.utf16 := by decide

/-- The share of the query's terms that the passage has. -/
def relevance (queryTerms : List CodeUnits) (excerpt : CodeUnits) : ℚ :=
  if queryTerms = [] then 0
  else (queryTerms.filter fun term => (tokenize excerpt).contains term).length / queryTerms.length

/-! ## Order -/

/-- `localeCompare`: a consistent comparison of all strings. -/
structure Collation where
  le : String → String → Bool
  total : ∀ a b, le a b = true ∨ le b a = true
  trans : ∀ a b c, le a b = true → le b c = true → le a c = true

/-- The comparison of the sort: the higher score, and then the location. -/
def ranksBefore (c : Collation) (a b : SourceExcerpt) : Prop :=
  b.relevanceScore < a.relevanceScore
    ∨ (a.relevanceScore = b.relevanceScore ∧ c.le a.location b.location = true)

instance (c : Collation) : DecidableRel (ranksBefore c) := fun _ _ =>
  inferInstanceAs (Decidable (_ ∨ (_ ∧ _)))

instance (c : Collation) : Std.Total (ranksBefore c) where
  total a b := by
    rcases lt_trichotomy a.relevanceScore b.relevanceScore with hlt | heq | hgt
    · exact Or.inr (Or.inl hlt)
    · cases c.total a.location b.location with
      | inl hle => exact Or.inl (Or.inr ⟨heq, hle⟩)
      | inr hle => exact Or.inr (Or.inr ⟨heq.symm, hle⟩)
    · exact Or.inl (Or.inl hgt)

instance (c : Collation) : IsTrans SourceExcerpt (ranksBefore c) where
  trans a b d hab hbd := by
    cases hab with
    | inl hab =>
      cases hbd with
      | inl hbd => exact Or.inl (hbd.trans hab)
      | inr hbd => exact Or.inl (hbd.1 ▸ hab)
    | inr hab =>
      cases hbd with
      | inl hbd => exact Or.inl (hab.1.symm ▸ hbd)
      | inr hbd => exact Or.inr ⟨hab.1.trans hbd.1, c.trans _ _ _ hab.2 hbd.2⟩

/-! ## Revisions -/

/-- The content as `JSON.parse` builds it from the column. -/
def readRevision (revision : RecordedRevision) : RevisionContent where
  id := revision.id
  checksum := revision.checksum
  content := ⟨Json.normalize Json.fromEntries revision.content,
    Json.wellFormed_normalize_fromEntries revision.content⟩

/-- `latestBySource`: of each source, the revision that comes first. -/
def latestBySource (revisions : List RecordedRevision) : List RecordedRevision :=
  revisions.foldl
    (fun latest revision =>
      if latest.any fun r => r.policySourceId = revision.policySourceId then latest
      else latest ++ [revision])
    []

/-- `ORDER BY "recordedAt" DESC`. -/
def newestFirst (revisions : List RecordedRevision) : List RecordedRevision :=
  revisions.insertionSort fun a b => b.recordedAt ≤ a.recordedAt

def revisionsFor (db : Monitor.Db) (run : QueuedRun) : List RecordedRevision :=
  match run.policySourceRevisionId with
  | some revisionId => (db.revisions.find revisionId).toList
  | none =>
    let sources := db.sources.rows.filter fun s => s.jurisdictionCode = run.jurisdictionCode
    if sources.length = 0 then []
    else latestBySource (newestFirst (db.revisions.rows.filter fun r =>
      sources.any fun s => s.id = r.policySourceId))

/-! ## Excerpts -/

/-- A string as the driver sends it: half of a surrogate pair goes out as U+FFFD. -/
def storedText : CodeUnits → List Char
  | [] => []
  | [u] => if u < 0xD800 ∨ 0xE000 ≤ u then [Char.ofNat u] else ['\uFFFD']
  | u :: l :: rest =>
    if u < 0xD800 ∨ 0xE000 ≤ u then Char.ofNat u :: storedText (l :: rest)
    -- a high half and its low half are one character.
    else if u < 0xDC00 ∧ 0xDC00 ≤ l ∧ l < 0xE000 then
      Char.ofNat (0x10000 + (u - 0xD800) * 0x400 + (l - 0xDC00)) :: storedText rest
    else '\uFFFD' :: storedText (l :: rest)

def excerptOf (queryTerms : List CodeUnits) (passage : Passage) : SourceExcerpt where
  policySourceRevisionId := passage.policySourceRevisionId
  sourceChecksum := passage.sourceChecksum
  location := passage.location
  excerpt := String.ofList (storedText passage.excerpt)
  relevanceScore := relevance queryTerms passage.excerpt

/-- Every passage, with its score. -/
def scoredPassages (db : Monitor.Db) (run : QueuedRun) : List SourceExcerpt :=
  (revisionsFor db run).flatMap fun revision =>
    (passagesOf (readRevision revision)).map (excerptOf (tokenize run.researchQuery))

def MAX_CITATIONS : Int := 6

/-- `POLICY_RESEARCH_MAX_CITATIONS`, in its bounds. -/
def maxCitations (configured : Int) : Nat := (min (max configured 1) MAX_CITATIONS).toNat

def retrieve (c : Collation) (configured : Int) (db : Monitor.Db) (run : QueuedRun) :
    List SourceExcerpt :=
  Ranking.best (ranksBefore c) (maxCitations configured) (scoredPassages db run)

/-! ## What is retrieved -/

variable {c : Collation} {configured : Int} {db : Monitor.Db} {run : QueuedRun}

theorem maxCitations_bounds (configured : Int) :
    1 ≤ maxCitations configured ∧ maxCitations configured ≤ 6 := by
  unfold maxCitations MAX_CITATIONS
  omega

/-- **No passage that is left out ranks before one that is kept.** -/
theorem isBest_retrieve (c : Collation) (configured : Int) (db : Monitor.Db) (run : QueuedRun) :
    Ranking.IsBest (ranksBefore c) (maxCitations configured) (retrieve c configured db run)
      (scoredPassages db run) :=
  Ranking.isBest_best (ranksBefore c) _ _

/-- The excerpt stands where it says: it is a piece of a string of a recorded revision, under the
keys and indices that lead to it, and the checksum is that of the revision. -/
def Quotes (db : Monitor.Db) (e : SourceExcerpt) : Prop :=
  ∃ revision ∈ db.revisions.rows, e.policySourceRevisionId = revision.id
    ∧ e.sourceChecksum = revision.checksum
    ∧ ∃ path text, (path, text) ∈ strings (readRevision revision).content.val
      ∧ ∃ index piece, (chunkText text)[index]? = some piece
        ∧ e.location = "$" ++ pathText path ++ "#" ++ toString (index + 1)
        ∧ e.excerpt = String.ofList (storedText piece)

theorem Quotes.later {db' : Monitor.Db} {e : SourceExcerpt} (h : Quotes db e)
    (hrows : db.revisions.rows ⊆ db'.revisions.rows) : Quotes db' e := by
  obtain ⟨revision, hmem, hquoted⟩ := h
  exact ⟨revision, hrows hmem, hquoted⟩

/-- What has been kept of the revisions that came first. -/
structure Latest (seen latest : List RecordedRevision) : Prop where
  subset : latest ⊆ seen
  distinct : (latest.map (·.policySourceId)).Nodup
  newest : ∀ r ∈ seen, ∃ l ∈ latest, l.policySourceId = r.policySourceId
    ∧ r.recordedAt ≤ l.recordedAt

theorem latest_latestBySource {revisions : List RecordedRevision}
    (h : revisions.Pairwise fun a b => b.recordedAt ≤ a.recordedAt) :
    Latest revisions (latestBySource revisions) := by
  induction revisions using List.reverseRecOn with
  | nil => exact ⟨List.Subset.refl _, List.nodup_nil, fun _ hr => absurd hr List.not_mem_nil⟩
  | append_singleton seen revision ih =>
    obtain ⟨hseen, -, hlater⟩ := List.pairwise_append.mp h
    obtain ⟨hsubset, hdistinct, hnewest⟩ := ih hseen
    -- the list is newest first: nothing that follows is newer than what has been kept.
    have hsame : ∀ l ∈ latestBySource seen, revision.recordedAt ≤ l.recordedAt :=
      fun l hl => hlater l (hsubset hl) revision (List.mem_singleton_self _)
    have hfold : latestBySource (seen ++ [revision]) =
        if (latestBySource seen).any fun r => r.policySourceId = revision.policySourceId then
          latestBySource seen
        else latestBySource seen ++ [revision] := List.foldl_concat ..
    rw [hfold]
    split
    · next hany =>
      obtain ⟨l, hl, hsource⟩ := List.any_eq_true.mp hany
      refine ⟨fun x hx => List.mem_append_left _ (hsubset hx), hdistinct, ?_⟩
      intro r hr
      cases List.mem_append.mp hr with
      | inl hold => exact hnewest r hold
      | inr hnew =>
        rw [List.mem_singleton.mp hnew]
        exact ⟨l, hl, of_decide_eq_true hsource, hsame l hl⟩
    · next hnone =>
      constructor
      · intro x hx
        cases List.mem_append.mp hx with
        | inl hold => exact List.mem_append_left _ (hsubset hold)
        | inr hnew => exact List.mem_append_right _ hnew
      · rw [List.map_append, List.nodup_append]
        refine ⟨hdistinct, List.nodup_singleton _, ?_⟩
        intro source hsource source' hsource' heq
        obtain ⟨l, hl, rfl⟩ := List.mem_map.mp hsource
        rw [List.map_singleton, List.mem_singleton] at hsource'
        exact hnone (List.any_eq_true.mpr ⟨l, hl, decide_eq_true (heq.trans hsource')⟩)
      · intro r hr
        cases List.mem_append.mp hr with
        | inl hold =>
          obtain ⟨l, hl, hnewer⟩ := hnewest r hold
          exact ⟨l, List.mem_append_left _ hl, hnewer⟩
        | inr hnew =>
          rw [List.mem_singleton.mp hnew]
          exact ⟨revision, List.mem_append_right _ (List.mem_singleton_self _), rfl, le_refl _⟩

theorem latest_newestFirst (revisions : List RecordedRevision) :
    Latest revisions (latestBySource (newestFirst revisions)) := by
  have htotal : Std.Total fun a b : RecordedRevision => b.recordedAt ≤ a.recordedAt :=
    ⟨fun a b => le_total b.recordedAt a.recordedAt⟩
  have htrans : IsTrans RecordedRevision fun a b => b.recordedAt ≤ a.recordedAt :=
    ⟨fun _ _ _ hab hbd => hbd.trans hab⟩
  obtain ⟨hsubset, hdistinct, hnewest⟩ :=
    latest_latestBySource (List.pairwise_insertionSort _ revisions)
  constructor
  · exact fun r hr => (List.mem_insertionSort _).mp (hsubset hr)
  · exact hdistinct
  · exact fun r hr => hnewest r ((List.mem_insertionSort _).mpr hr)

/-- The rows of the run's jurisdiction. -/
def revisionsUnder (db : Monitor.Db) (run : QueuedRun) : List RecordedRevision :=
  db.revisions.rows.filter fun r => db.sources.rows.any fun s =>
    s.jurisdictionCode = run.jurisdictionCode && s.id = r.policySourceId

/-- **Without a revision of its own, a run reads the newest one of each source** of its
jurisdiction. -/
theorem revisionsFor_newest (hnone : run.policySourceRevisionId = none) :
    Latest (revisionsUnder db run) (revisionsFor db run) := by
  have hunder : revisionsUnder db run = db.revisions.rows.filter fun r =>
      (db.sources.rows.filter fun s => s.jurisdictionCode = run.jurisdictionCode).any fun s =>
        s.id = r.policySourceId := by
    unfold revisionsUnder
    simp only [List.any_filter]
  rw [hunder]
  unfold revisionsFor
  rw [hnone]
  dsimp only
  split
  · next hempty =>
    rw [List.length_eq_zero_iff.mp hempty]
    refine ⟨List.nil_subset _, List.nodup_nil, ?_⟩
    intro r hr
    exact absurd (List.mem_filter.mp hr).2 Bool.false_ne_true
  · exact latest_newestFirst _

theorem mem_of_mem_revisionsFor {r : RecordedRevision} (h : r ∈ revisionsFor db run) :
    r ∈ db.revisions.rows := by
  cases hnamed : run.policySourceRevisionId with
  | none => exact (List.mem_filter.mp ((revisionsFor_newest hnamed).subset h)).1
  | some revisionId =>
    rw [revisionsFor, hnamed] at h
    exact (db.revisions.find_eq_some_iff.mp (Option.mem_toList.mp h)).1

theorem mem_passagesAt {revision : RevisionContent} {flat : FlatText} {p : Passage}
    (h : p ∈ passagesAt revision flat) :
    p.policySourceRevisionId = revision.id ∧ p.sourceChecksum = revision.checksum
      ∧ ∃ index, (chunkText flat.text)[index]? = some p.excerpt
        ∧ p.location = flat.location ++ "#" ++ toString (index + 1) := by
  obtain ⟨piece, hpiece, hp⟩ := List.mem_map.mp h
  rw [← hp]
  exact ⟨rfl, rfl, piece.2, List.mem_zipIdx_iff_getElem?.mp hpiece, rfl⟩

/-- A passage stands at its location. -/
theorem passage_located {revision : RevisionContent} {p : Passage}
    (h : p ∈ passagesOf revision) :
    p.policySourceRevisionId = revision.id ∧ p.sourceChecksum = revision.checksum
      ∧ ∃ path text, (path, text) ∈ strings revision.content.val
        ∧ ∃ index, (chunkText text)[index]? = some p.excerpt
          ∧ p.location = "$" ++ pathText path ++ "#" ++ toString (index + 1) := by
  rw [(partitionsStrings revision).passages] at h
  obtain ⟨entry, hstring, hp⟩ := List.mem_flatMap.mp h
  obtain ⟨hid, hchecksum, index, hpiece, hlocation⟩ := mem_passagesAt hp
  exact ⟨hid, hchecksum, entry.1, entry.2, hstring, index, hpiece, hlocation⟩

theorem quotes_of_mem_scoredPassages {e : SourceExcerpt} (h : e ∈ scoredPassages db run) :
    Quotes db e := by
  obtain ⟨revision, hrevision, he⟩ := List.mem_flatMap.mp h
  obtain ⟨p, hp, rfl⟩ := List.mem_map.mp he
  obtain ⟨hid, hchecksum, path, text, hstring, index, hpiece, hlocation⟩ := passage_located hp
  exact ⟨revision, mem_of_mem_revisionsFor hrevision, hid, hchecksum, path, text, hstring, index,
    p.excerpt, hpiece, hlocation, rfl⟩

/-- **Every excerpt stands where it says.** -/
theorem quotes_of_mem_retrieve {e : SourceExcerpt} (h : e ∈ retrieve c configured db run) :
    Quotes db e :=
  quotes_of_mem_scoredPassages (Ranking.mem_of_mem_best _ h)

/-- A run that names a revision finds in it, from then on, what it has found once. -/
theorem retrieve_of_named {db' : Monitor.Db} {revisionId : Uuid}
    (hnamed : run.policySourceRevisionId = some revisionId)
    (hfound : db'.revisions.find revisionId = db.revisions.find revisionId) :
    retrieve c configured db' run = retrieve c configured db run := by
  have hrevisions : revisionsFor db' run = revisionsFor db run := by
    unfold revisionsFor
    rw [hnamed]
    dsimp only
    rw [hfound]
  rw [retrieve, retrieve, scoredPassages, scoredPassages, hrevisions]

end MortgageAgent.Policy.Retrieval
