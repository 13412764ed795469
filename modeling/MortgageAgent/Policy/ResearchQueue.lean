import Mathlib.Data.List.Lex
import MortgageAgent.Lib.Run
import MortgageAgent.Communications.Classifier
import MortgageAgent.Policy.Research
import MortgageAgent.Policy.Resolver

/-!
# Queueing research

`PolicyResearchService.request` queues a run under a fingerprint of what is asked for, and the
fingerprint is unique in the queue: the same request is queued once. `resolve` asks for research
with the reasons it could not get past, so that what is one request is decided by their texts.

* **`request`**, **`requestForUnresolvedResolution`**, **`classifyTrigger`** — as the service has
  them.
* **`requestInput`** / **`queueStep`** — what one resolution asks for, and does to the queue.
* **`enqueuesOnce_iff_same`** — a run of resolutions queues one research run at most exactly if all
  of them ask for the same.
-/

namespace MortgageAgent.Policy.ResearchQueue

open Runs
open Communications (lowerChar)
open Research (PolicyResearchTrigger PolicyResearchStatus)

/-! ## Requests -/

/-- A string, or what `slice` leaves of one, by its code units. -/
abbrev CodeUnits := List Nat

structure PolicyResearchRequest where
  trigger : PolicyResearchTrigger
  jurisdictionCode : String
  productCode : Option String := none
  lifecycleEvent : Option String := none
  unresolvedReasons : List String
  policySourceId : Option Uuid := none
  policySourceRevisionId : Option Uuid := none

structure FingerprintInput where
  trigger : PolicyResearchTrigger
  jurisdictionCode : String
  productCode : Option String
  lifecycleEvent : Option String
  sourceId : Option Uuid
  sourceRevisionId : Option Uuid
  unresolvedReasons : List CodeUnits
  deriving DecidableEq

/-- `policy_research_runs`, as far as a request sets it; what processing sets starts as null. -/
structure QueuedRun where
  trigger : PolicyResearchTrigger
  jurisdictionCode : String
  productCode : Option String
  lifecycleEvent : Option String
  policySourceId : Option Uuid
  policySourceRevisionId : Option Uuid
  /-- `UQ_policy_research_runs_fingerprint` -/
  requestFingerprint : String
  unresolvedReasons : List CodeUnits
  researchQuery : CodeUnits
  status : PolicyResearchStatus
  attempts : Nat
  deriving DecidableEq

/-- The runs, in the order in which they were inserted. -/
abbrev QueuedRuns := Table QueuedRun QueuedRun.requestFingerprint

def MAX_QUERY_CHARS : Nat := 1500

def MAX_REASON_CHARS : Nat := 500

/-- `[...new Set(values)]`. -/
def distinct : List String → List String
  | [] => []
  | value :: rest => value :: (distinct rest).filter (· ≠ value)

/-- `reason.slice(0, 500)`. -/
def cutReason (reason : String) : CodeUnits := (Json.utf16 reason).take MAX_REASON_CHARS

/-- `sort()` goes by code units. -/
def normalizedReasons (unresolvedReasons : List String) : List CodeUnits :=
  ((distinct unresolvedReasons).map cutReason).insertionSort (· ≤ ·)

def fingerprintInput (request : PolicyResearchRequest) : FingerprintInput where
  trigger := request.trigger
  jurisdictionCode := request.jurisdictionCode
  productCode := request.productCode
  lifecycleEvent := request.lifecycleEvent
  sourceId := request.policySourceId
  sourceRevisionId := request.policySourceRevisionId
  unresolvedReasons := normalizedReasons request.unresolvedReasons

/-- A part of the query for a value that is there and not empty. -/
def queryPart (label : String) (value : Option String) : CodeUnits :=
  if value.getD "" = "" then [] else Json.utf16 (label ++ value.getD "" ++ ".")

def buildResearchQuery (input : FingerprintInput) : CodeUnits :=
  let signals := (Json.utf16 "; ").intercalate input.unresolvedReasons
  let parts := [
    Json.utf16 ("Policy research trigger: " ++ input.trigger.text ++ "."),
    Json.utf16 ("Jurisdiction: " ++ input.jurisdictionCode ++ "."),
    queryPart "Product: " input.productCode,
    queryPart "Lifecycle event: " input.lifecycleEvent,
    Json.utf16 "Resolver signals: " ++ (if signals = [] then Json.utf16 "none" else signals)
      ++ Json.utf16 ".",
    Json.utf16 "Retrieve only source passages relevant to reviewing this governance issue."]
  (Json.utf16 " ").intercalate (parts.filter (· ≠ []))

/-- SHA-256 of the JSON text of the input, in hexadecimal. -/
abbrev Digest := FingerprintInput → String

def queuedRun (digest : Digest) (input : FingerprintInput) : QueuedRun where
  trigger := input.trigger
  jurisdictionCode := input.jurisdictionCode
  productCode := input.productCode
  lifecycleEvent := input.lifecycleEvent
  policySourceId := input.sourceId
  policySourceRevisionId := input.sourceRevisionId
  requestFingerprint := digest input
  unresolvedReasons := input.unresolvedReasons
  researchQuery := (buildResearchQuery input).take MAX_QUERY_CHARS
  status := .QUEUED
  attempts := 0

/-- The queue, and the run the caller gets. The lookup has seen the first `seen` rows: others may
have been inserted since, and then the insert runs into the unique index and the row that is there
is read back. -/
def request (digest : Digest) (runs : QueuedRuns) (seen : Nat) (request : PolicyResearchRequest) :
    QueuedRuns × Option QueuedRun :=
  let input := fingerprintInput request
  match (runs.rows.take seen).find? fun run => run.requestFingerprint = digest input with
  | some existing => (runs, some existing)
  | none =>
    match runs.insert (queuedRun digest input) with
    | some runs => (runs, some (queuedRun digest input))
    | none => (runs, runs.find (digest input))

/-! ## Unresolved resolutions -/

def classifyTrigger (unresolvedReasons : List String) : Option PolicyResearchTrigger :=
  let reasons := (" ".intercalate unresolvedReasons).toList.flatMap lowerChar
  let includes (text : String) : Bool := decide (text.toList <:+: reasons)
  if includes "overlapping released versions" then some .APPLICABILITY_CONFLICT
  else if includes "exceeded its freshness objective" then some .SOURCE_FRESHNESS_EXPIRED
  else if includes "does not have reviewed covered status"
      || includes "has no registered policy source" || includes "has no recorded revision" then
    some .COVERAGE_GAP
  else none

/-- What is asked for on behalf of a resolution, if anything. -/
def unresolvedRequest (context : PolicyResolutionContext) (unresolvedReasons : List String) :
    Option PolicyResearchRequest :=
  (classifyTrigger unresolvedReasons).map fun trigger =>
    { trigger
      jurisdictionCode := context.jurisdictionCode
      productCode := some context.productCode
      lifecycleEvent := some context.lifecycleEvent
      unresolvedReasons }

def requestForUnresolvedResolution (digest : Digest) (runs : QueuedRuns) (seen : Nat)
    (context : PolicyResolutionContext) (unresolvedReasons : List String) : QueuedRuns :=
  match unresolvedRequest context unresolvedReasons with
  | none => runs
  | some asked => (request digest runs seen asked).1

/-- One call of `resolve`: the instant it is asked about and that of the clock, and how much of the
queue its lookup sees. -/
structure Call where
  asOf : Instant
  now : Instant
  seen : Nat

def contextAt (context : PolicyResolutionContext) (asOf : Instant) : PolicyResolutionContext :=
  { context with asOf }

/-- The call, as far as the queue goes. -/
def queueStep (deps : Policy.Deps) (digest : Digest) (catalog : Catalog)
    (context : PolicyResolutionContext) (runs : QueuedRuns) (call : Call) : QueuedRuns :=
  match resolve deps catalog (contextAt context call.asOf) call.now with
  | .ok result =>
    if result.status = .REVIEW_REQUIRED then
      requestForUnresolvedResolution digest runs call.seen (contextAt context call.asOf)
        result.unresolvedReasons
    else runs
  | .error _ => runs

/-! ## What a run of resolutions queues -/

variable {deps : Policy.Deps} {digest : Digest} {catalog : Catalog}
  {context : PolicyResolutionContext}

/-- What the call asks for, if anything. -/
def requestInput (deps : Policy.Deps) (catalog : Catalog) (context : PolicyResolutionContext)
    (call : Call) : Option FingerprintInput :=
  match resolve deps catalog (contextAt context call.asOf) call.now with
  | .ok result =>
    if result.status = .REVIEW_REQUIRED then
      (unresolvedRequest (contextAt context call.asOf) result.unresolvedReasons).map
        fingerprintInput
    else none
  | .error _ => none

/-- A request is queued unless it is there already, whatever its lookup has seen. -/
theorem rows_request (digest : Digest) (runs : QueuedRuns) (seen : Nat)
    (asked : PolicyResearchRequest) :
    (request digest runs seen asked).1.rows =
      if digest (fingerprintInput asked) ∈ runs.rows.map QueuedRun.requestFingerprint then runs.rows
      else runs.rows ++ [queuedRun digest (fingerprintInput asked)] := by
  unfold request
  dsimp only
  generalize fingerprintInput asked = input
  split
  · next existing hfind =>
    have hmem : existing ∈ runs.rows := List.mem_of_mem_take (List.mem_of_find?_eq_some hfind)
    have hkey := List.find?_some hfind
    rw [if_pos]
    rw [← of_decide_eq_true hkey]
    exact List.mem_map_of_mem hmem
  · split
    · next runs' hinsert =>
      rw [Table.rows_of_insert hinsert, if_neg]
      intro hmem
      obtain ⟨run, hrun, hkey⟩ := List.mem_map.mp hmem
      exact Table.key_fresh_of_insert hinsert run hrun hkey
    · next hinsert =>
      obtain ⟨run, hrun, hkey⟩ := runs.insert_eq_none_iff.mp hinsert
      rw [if_pos]
      exact List.mem_map.mpr ⟨run, hrun, hkey⟩

theorem rows_queueStep (runs : QueuedRuns) (call : Call) :
    (queueStep deps digest catalog context runs call).rows =
      match requestInput deps catalog context call with
      | none => runs.rows
      | some input =>
        if digest input ∈ runs.rows.map QueuedRun.requestFingerprint then runs.rows
        else runs.rows ++ [queuedRun digest input] := by
  unfold queueStep requestInput
  split
  · split
    · unfold requestForUnresolvedResolution
      split
      · next hnone => rw [hnone]; rfl
      · next asked hasked => rw [hasked]; exact rows_request ..
    · rfl
  · rfl

/-- However often and at whatever instants, over whatever is in the queue: one new run at most. -/
def EnqueuesOnce (deps : Policy.Deps) (digest : Digest) (catalog : Catalog)
    (context : PolicyResolutionContext) (calls : List Call) : Prop :=
  ∀ runs : QueuedRuns,
    (exec (queueStep deps digest catalog context) runs calls).rows.length ≤ runs.rows.length + 1

def Has (digest : Digest) (runs : QueuedRuns) (input : FingerprintInput) : Prop :=
  digest input ∈ runs.rows.map QueuedRun.requestFingerprint

theorem Has.queueStep {runs : QueuedRuns} {input : FingerprintInput} (h : Has digest runs input)
    (call : Call) : Has digest (queueStep deps digest catalog context runs call) input := by
  unfold Has
  rw [rows_queueStep]
  split
  · exact h
  · split
    · exact h
    · rw [List.map_append, List.mem_append]
      exact Or.inl h

theorem has_queueStep {runs : QueuedRuns} {call : Call} {input : FingerprintInput}
    (h : requestInput deps catalog context call = some input) :
    Has digest (queueStep deps digest catalog context runs call) input := by
  unfold Has
  rw [rows_queueStep, h]
  dsimp only
  split
  · next hthere => exact hthere
  · rw [List.map_append, List.mem_append]
    exact Or.inr (List.mem_singleton_self _)

/-- Whatever is asked for in a run is in the queue after it. -/
theorem has_exec {calls : List Call} {runs : QueuedRuns} {call : Call} {input : FingerprintInput}
    (hcall : call ∈ calls) (h : requestInput deps catalog context call = some input) :
    Has digest (exec (queueStep deps digest catalog context) runs calls) input := by
  induction calls generalizing runs with
  | nil => cases hcall
  | cons first rest ih =>
    rw [exec_cons]
    rcases List.mem_cons.mp hcall with rfl | hrest
    · exact exec_inv (I := fun runs => Has digest runs input)
        (fun runs call hhas => hhas.queueStep call) (has_queueStep h) rest
    · exact ih hrest

/-- The queue as it was, or with one more run. -/
def OneMore (digest : Digest) (input : FingerprintInput) (start runs : QueuedRuns) : Prop :=
  runs.rows = start.rows ∨ runs.rows = start.rows ++ [queuedRun digest input]

theorem OneMore.queueStep {input : FingerprintInput} {start runs : QueuedRuns} {call : Call}
    (h : OneMore digest input start runs)
    (hsame : ∀ asked ∈ requestInput deps catalog context call, asked = input) :
    OneMore digest input start (queueStep deps digest catalog context runs call) := by
  unfold OneMore
  rw [rows_queueStep]
  cases hasked : requestInput deps catalog context call with
  | none => exact h
  | some asked =>
    obtain rfl := hsame asked hasked
    dsimp only
    split
    · exact h
    · next hfresh =>
      rcases h with h | h
      · exact Or.inr (by rw [h])
      · refine absurd ?_ hfresh
        rw [h, List.map_append, List.mem_append]
        exact Or.inr (List.mem_singleton_self _)

/-- Two inputs that are asked for in one run are in an empty queue after it. -/
theorem eq_of_enqueuesOnce (hdigest : Function.Injective digest) {calls : List Call} {a b : Call}
    {i j : FingerprintInput} (honce : EnqueuesOnce deps digest catalog context calls)
    (ha : a ∈ calls) (hb : b ∈ calls) (hi : requestInput deps catalog context a = some i)
    (hj : requestInput deps catalog context b = some j) : i = j := by
  have hlength := honce .empty
  have hhasi : Has digest (exec (queueStep deps digest catalog context) .empty calls) i :=
    has_exec ha hi
  have hhasj : Has digest (exec (queueStep deps digest catalog context) .empty calls) j :=
    has_exec hb hj
  unfold Has at hhasi hhasj
  generalize exec (queueStep deps digest catalog context) .empty calls = runs at *
  obtain ⟨run, hrun, hi⟩ := List.mem_map.mp hhasi
  obtain ⟨run', hrun', hj⟩ := List.mem_map.mp hhasj
  have hsame : run = run' := by
    match hrows : runs.rows, hlength with
    | [only], _ =>
      rw [hrows, List.mem_singleton] at hrun hrun'
      rw [hrun, hrun']
    | [], _ =>
      rw [hrows] at hrun
      cases hrun
    | _ :: _ :: _, hlength => simp at hlength
  refine hdigest ?_
  rw [← hi, ← hj, hsame]

/-- A run that asks for one input only adds one row at most. -/
theorem enqueuesOnce_of_same {calls : List Call} {input : FingerprintInput}
    (hsame : ∀ call ∈ calls, ∀ asked ∈ requestInput deps catalog context call, asked = input) :
    EnqueuesOnce deps digest catalog context calls := by
  intro runs
  have hend : OneMore digest input runs
      (exec (queueStep deps digest catalog context) runs calls) :=
    exec_inv_of_allSteps (fun s a hs ha => hs.queueStep ha) (Or.inl rfl) (AllSteps.of_labels hsame)
  rcases hend with hend | hend
  · rw [hend]
    exact Nat.le_succ _
  · rw [hend, List.length_append, List.length_singleton]

/-- **One run at most is queued exactly if all resolutions ask for the same.** -/
theorem enqueuesOnce_iff_same (hdigest : Function.Injective digest) {calls : List Call} :
    EnqueuesOnce deps digest catalog context calls
      ↔ ∀ a ∈ calls, ∀ b ∈ calls, ∀ i ∈ requestInput deps catalog context a,
        ∀ j ∈ requestInput deps catalog context b, i = j := by
  constructor
  · intro honce a ha b hb i hi j hj
    exact eq_of_enqueuesOnce hdigest honce ha hb hi hj
  · intro hsame
    by_cases hany : ∃ call ∈ calls, ∃ input, requestInput deps catalog context call = some input
    · obtain ⟨call, hcall, input, hinput⟩ := hany
      exact enqueuesOnce_of_same fun b hb j hj => hsame b hb call hcall j hj input hinput
    · -- nothing is asked for
      have hnone : ∀ call ∈ calls, ∀ asked ∈ requestInput deps catalog context call,
          asked = fingerprintInput ⟨.COVERAGE_GAP, "", none, none, [], none, none⟩ :=
        fun call hcall asked hasked => absurd ⟨call, hcall, asked, hasked⟩ hany
      exact enqueuesOnce_of_same hnone

end MortgageAgent.Policy.ResearchQueue
