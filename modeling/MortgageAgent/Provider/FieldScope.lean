import MortgageAgent.Provider.Access
import MortgageAgent.Provider.Submission

/-!
# Field-bound authorization

A finding is cut down to the fields of the grant before it is stored and returned. A later
dispatch of the same logical operation is answered from the stored row, and there nothing is cut:
the row holds what the *earlier* grant permitted.

* **`fitsFields`** — every top-level key of an object finding is permitted.
* **`widerReplay`** — the step reads a succeeded row that holds more than its request permits.
* **`DispatchState.Scoped`** — the invariant of one call: it is about its own request, and a
  finding in its hands fits.
* **`finding_fits_iff`** — a call that returns a finding returns one that fits exactly when it did
  not replay a wider row.
* **`replay_exceeds_fields`** — it may replay one.
-/

namespace MortgageAgent.Provider

open Runs

/-! ## The law and its condition -/

/-- Every top-level key of an object finding is permitted; without a list of fields all are. -/
def fitsFields (permittedFields : Option (List String)) : Json → Bool
  | .obj fields => permittedFields.all fun allowed => fields.all fun (key, _) => allowed.contains key
  | _ => true

theorem fitsFields_filter (finding : Json) (permittedFields : Option (List String)) :
    fitsFields permittedFields (filterToPermittedFields finding permittedFields) = true := by
  cases permittedFields with
  | none => cases finding <;> rfl
  | some allowed =>
    cases finding with
    | obj fields => simp [fitsFields, filterToPermittedFields]
    | _ => rfl

/-- The row that the step finds for its request has succeeded, and the finding stored in it has a
field the request does not permit. -/
def widerReplay (deps : Deps) (s : System) (d : Nat) : Label → Bool
  | .dispatch d' _ => d' = d && match s.dispatches d with
    | .prepareRead p adapter _ grantId =>
      match s.db.findByKey (PrepareIntentInput.ofParams p adapter grantId).key with
      | some existing => existing.state = .SUCCEEDED && match toIntentValue deps existing with
        | .ok intent => !intent.normalizedFinding.all (fitsFields p.permittedFields)
        | .error _ => false
      | none => false
    | _ => false
  | _ => false

/-! ## One call -/

/-- The finding that the call has in hand, or has returned. -/
def DispatchState.finding? : DispatchState → Option Json
  | .markSucceeded _ _ finding => some finding
  | .finished (.ok finding) => some finding
  | _ => none

/-- The row that the call has read and will go on with. -/
def DispatchState.refreshes? : DispatchState → Option ProviderOperationIntent
  | .prepareRefresh _ _ _ _ existing => some existing
  | _ => none

/-- The call is one for this request, and what it has in hand fits. -/
structure DispatchState.Scoped (p : DispatchProviderRequestParams) (state : DispatchState) :
    Prop where
  started : state ≠ .idle
  request : ∀ q, state.request = some q → q = p
  prepared : ∀ existing, state.refreshes? = some existing → existing.state = .PREPARED
  fits : ∀ finding, state.finding? = some finding → fitsFields p.permittedFields finding = true

/-- A point of the call with nothing in hand yet. -/
theorem scoped_of_request {p : DispatchProviderRequestParams} {state : DispatchState}
    (hstarted : state ≠ .idle) (hrequest : ∀ q, state.request = some q → q = p)
    (hrefreshes : state.refreshes? = none) (hfinding : state.finding? = none) :
    state.Scoped p := by
  refine ⟨hstarted, hrequest, fun existing h => ?_, fun finding h => ?_⟩
  · rw [hrefreshes] at h
    cases h
  · rw [hfinding] at h
    cases h

/-- A point behind the call's last check, with no finding in hand. -/
theorem scoped_of_none {p : DispatchProviderRequestParams} {state : DispatchState}
    (hstarted : state ≠ .idle) (hrequest : state.request = none)
    (hrefreshes : state.refreshes? = none) (hfinding : state.finding? = none) :
    state.Scoped p := by
  refine scoped_of_request hstarted (fun q h => ?_) hrefreshes hfinding
  rw [hrequest] at h
  cases h

/-- The call has a finding in hand that fits. -/
theorem scoped_of_finding {p : DispatchProviderRequestParams} {state : DispatchState}
    {finding : Json} (hstarted : state ≠ .idle) (hrequest : state.request = none)
    (hrefreshes : state.refreshes? = none) (hfinding : state.finding? = some finding)
    (hfits : fitsFields p.permittedFields finding = true) : state.Scoped p := by
  refine ⟨hstarted, fun q h => ?_, fun existing h => ?_, fun found h => ?_⟩
  · rw [hrequest] at h
    cases h
  · rw [hrefreshes] at h
    cases h
  · rw [hfinding] at h
    cases h
    exact hfits

theorem scoped_error (p : DispatchProviderRequestParams) (e : ProviderFailure) :
    DispatchState.Scoped p (.finished (.error e)) :=
  scoped_of_none nofun rfl rfl rfl

/-- What `prepare` has found is replayed only if it has succeeded. -/
theorem afterPrepare_scoped {deps : Deps} {p : DispatchProviderRequestParams}
    {adapter : ProviderAdapter} {decisionId : Option Uuid} {grantId : Uuid}
    {entity : ProviderOperationIntent}
    (h : ∀ intent, toIntentValue deps entity = .ok intent → entity.state = .SUCCEEDED →
      intent.normalizedFinding.all (fitsFields p.permittedFields) = true) :
    (afterPrepare deps p adapter decisionId grantId entity).Scoped p := by
  unfold afterPrepare
  split
  · exact scoped_error p _
  next intent hintent =>
  have hstate : intent.state = entity.state := (toIntentValue_ok hintent).2.2
  split
  · next hsucceeded =>
    have hfits := h intent hintent (hstate ▸ hsucceeded)
    split
    · exact scoped_error p _
    next finding hfinding =>
    rw [hfinding] at hfits
    exact scoped_of_finding nofun rfl rfl rfl hfits
  · split
    · exact scoped_error p _
    · exact scoped_of_request nofun (fun q hq => (Option.some.inj hq).symm) rfl rfl

/-- A row that has not succeeded is not replayed. -/
theorem afterPrepare_scoped_prepared {deps : Deps} {p : DispatchProviderRequestParams}
    {adapter : ProviderAdapter} {decisionId : Option Uuid} {grantId : Uuid}
    {entity : ProviderOperationIntent} (h : entity.state = .PREPARED) :
    (afterPrepare deps p adapter decisionId grantId entity).Scoped p := by
  refine afterPrepare_scoped fun intent _ hsucceeded => ?_
  rw [h] at hsucceeded
  cases hsucceeded

theorem afterConsent_scoped (p : DispatchProviderRequestParams) (adapter : ProviderAdapter)
    (consentRecordId : Uuid) : (afterConsent p adapter consentRecordId).Scoped p := by
  have hown (q : DispatchProviderRequestParams) (hq : some p = some q) : q = p :=
    (Option.some.inj hq).symm
  unfold afterConsent
  split
  · split
    · exact scoped_of_request nofun hown rfl rfl
    · split
      · exact scoped_of_request nofun hown rfl rfl
      · exact scoped_error p _
  · exact scoped_of_request nofun hown rfl rfl

theorem prepareRead_row {deps : Deps} {db : Db} {input : PrepareIntentInput}
    {next : PrepareNext} (h : prepareRead deps db input = .ok next) :
    next = .insert ∨ ∃ existing, db.findByKey input.key = some existing
      ∧ (next = .refresh existing ∧ existing.state = .PREPARED ∨ next = .reuse existing) := by
  unfold prepareRead at h
  split at h
  · cases h; exact Or.inl rfl
  next existing hfound =>
  unfold prepareReuse at h
  split at h
  · cases h
  · split at h
    · next hprepared => cases h; exact Or.inr ⟨existing, hfound, Or.inl ⟨rfl, hprepared⟩⟩
    · cases h; exact Or.inr ⟨existing, hfound, Or.inr rfl⟩

/-- **One transaction of the call.** -/
theorem dispatchStep_scoped {deps : Deps} {s : System} {d : Nat} {env : Env}
    {p : DispatchProviderRequestParams} (h : (s.dispatches d).Scoped p)
    (hnarrow : widerReplay deps s d (.dispatch d env) = false) :
    (dispatchStep deps s.db env (s.dispatches d)).state.Scoped p := by
  simp only [widerReplay, decide_true, Bool.true_and] at hnarrow
  have hcase := dispatchStep_case deps s.db env (s.dispatches d)
  generalize dispatchStep deps s.db env (s.dispatches d) = move at hcase ⊢
  generalize s.dispatches d = state at h hnarrow hcase
  have hrequest := h.request
  cases hcase with
  | waits _ _ => exact h
  | refused _ e _ => exact scoped_error p e
  | consented q adapter record _ =>
    obtain rfl : q = p := hrequest q rfl
    exact afterConsent_scoped q adapter _
  | readsPrepared q adapter decisionId grantId existing hread =>
    obtain hinsert | ⟨_, -, ⟨hrefresh, hprepared⟩ | hreuse⟩ := prepareRead_row hread
    · cases hinsert
    · cases hrefresh
      refine ⟨nofun, hrequest, fun row hrow => ?_, fun found hfound => ?_⟩
      · cases hrow
        exact hprepared
      · cases hfound
    · cases hreuse
  | readsOther q adapter decisionId grantId existing hread =>
    obtain rfl : q = p := hrequest q rfl
    obtain hinsert | ⟨_, hfound, ⟨hrefresh, -⟩ | hreuse⟩ := prepareRead_row hread
    · cases hinsert
    · cases hrefresh
    · cases hreuse
      refine afterPrepare_scoped fun intent hintent hsucceeded => ?_
      simpa [hfound, hintent, hsucceeded] using hnarrow
  | inserted q adapter decisionId grantId db' entity hinsert =>
    obtain rfl : q = p := hrequest q rfl
    exact afterPrepare_scoped_prepared (prepareInsert_ok hinsert).1
  | refreshed q adapter decisionId grantId existing =>
    obtain rfl : q = p := hrequest q rfl
    exact afterPrepare_scoped_prepared (h.prepared existing rfl)
  | unauthorized _ intent failure _ => exact scoped_of_none nofun rfl rfl rfl
  | authorizationFailed _ _ _ _ => exact scoped_error p _
  | authorizationStuck _ _ _ _ => exact scoped_error p _
  | succeeded intent receipt finding _ _ =>
    exact scoped_of_finding nofun rfl rfl rfl (h.fits finding rfl)
  | successLost _ _ _ _ _ => exact scoped_of_none nofun rfl rfl rfl
  | failed _ _ _ _ _ => exact scoped_error p _
  | failureStuck _ _ _ _ _ => exact scoped_error p _
  | lost _ _ _ _ => exact scoped_error p _
  | lossStuck _ _ _ _ => exact scoped_error p _
  -- the call goes on, with nothing in hand yet
  | _ => exact scoped_of_request nofun hrequest rfl rfl

/-- A receipt is cut down to the fields of the call's own grant, which are those it asked for. -/
theorem dispatchReturn_scoped {db : Db} {env : Env} {outcome : SubmitOutcome}
    {p : DispatchProviderRequestParams} {state : DispatchState} (hgranted : state.Granted db)
    (h : state.Scoped p) : (dispatchReturn env outcome state).1.Scoped p := by
  cases state with
  | awaiting q adapter intent grant =>
    obtain rfl : q = p := h.request q rfl
    cases outcome with
    | receipt receipt =>
      simp only [dispatchReturn]
      split
      · next finding _ =>
        obtain ⟨env', consentRecordId, decisionId, rfl⟩ := hgranted
        exact scoped_of_finding (fun hidle => by cases hidle) rfl rfl rfl (fitsFields_filter finding q.permittedFields)
      · exact scoped_of_none (fun hidle => by cases hidle) rfl rfl rfl
    | threw e => exact scoped_of_none (fun hidle => by cases hidle) rfl rfl rfl
  | _ => exact h

theorem dispatchStoreFails_scoped {p : DispatchProviderRequestParams} {state : DispatchState}
    (h : state.Scoped p) : (dispatchStoreFails state).Scoped p := by
  cases state with
  | submit q adapter intent grant => exact h
  | awaiting q adapter intent grant => exact h
  | idle => exact h
  | finished result => exact h
  | _ => exact scoped_of_none nofun rfl rfl rfl

/-- **Any step of the platform keeps the call in scope**, unless it replays a wider row. -/
theorem step_scoped {deps : Deps} {s : System} {d : Nat} {p : DispatchProviderRequestParams}
    (hgranted : s.Granted) (h : (s.dispatches d).Scoped p) {a : Label}
    (hnarrow : widerReplay deps s d a = false) : ((step deps s a).dispatches d).Scoped p := by
  by_cases hown : a.ofDispatch = some d
  · cases a with
    | startDispatch d' q =>
      cases hown
      simp only [step]
      split
      · next hidle => exact absurd hidle h.started
      · exact h
    | dispatch d' env =>
      cases hown
      simp only [step, System.setDispatch, Function.update_self]
      exact dispatchStep_scoped h hnarrow
    | submitReturns d' env outcome =>
      cases hown
      simp only [step, System.setDispatch, Function.update_self]
      exact dispatchReturn_scoped (hgranted d) h
    | storeFails d' =>
      cases hown
      simp only [step, System.setDispatch, Function.update_self]
      exact dispatchStoreFails_scoped h
    | crash d' =>
      cases hown
      simp only [step, System.setDispatch, Function.update_self]
      exact scoped_of_none (fun hidle => by cases hidle) rfl rfl rfl
    | _ => cases hown
  · have hsame : (step deps s a).dispatches d = s.dispatches d :=
      dispatch_frame deps d [a] (by simpa using hown)
    rwa [hsame]

/-! ## What a call returns -/

/-- A wider row is the call's answer, if it has one. -/
theorem widerReplay_result {deps : Deps} {s : System} {d : Nat}
    {p : DispatchProviderRequestParams} (h : (s.dispatches d).Scoped p) {a : Label}
    (hwider : widerReplay deps s d a = true) :
    ∃ result, (step deps s a).dispatches d = .finished result
      ∧ ∀ finding, result = .ok finding → fitsFields p.permittedFields finding = false := by
  cases a with
  | dispatch d' env =>
    obtain ⟨hd, hwider⟩ := Bool.and_eq_true_iff.mp hwider
    obtain rfl := of_decide_eq_true hd
    simp only [step, System.setDispatch, Function.update_self]
    have hrequest := h.request
    generalize s.dispatches d' = state at hwider hrequest
    cases state with
    | prepareRead q adapter decisionId grantId =>
      obtain rfl : q = p := hrequest q rfl
      simp only at hwider
      split at hwider
      · next existing hfound =>
        obtain ⟨hsucceeded, hwider⟩ := Bool.and_eq_true_iff.mp hwider
        have hsucceeded := of_decide_eq_true hsucceeded
        simp only [dispatchStep, prepareRead, hfound, prepareReuse]
        by_cases hconflict : existing.caseId ≠ (PrepareIntentInput.ofParams q adapter grantId).caseId
            ∨ existing.requestFingerprint
              ≠ (PrepareIntentInput.ofParams q adapter grantId).requestFingerprint deps
            ∨ existing.effectClass ≠ (PrepareIntentInput.ofParams q adapter grantId).effectClass
        · rw [if_pos hconflict]
          exact ⟨_, rfl, fun found hfound => by cases hfound⟩
        rw [if_neg hconflict, if_neg (by rw [hsucceeded]; decide)]
        split at hwider
        · next intent hintent =>
          have hstate : intent.state = .SUCCEEDED := (toIntentValue_ok hintent).2.2 ▸ hsucceeded
          simp only [afterPrepare, hintent, hstate, if_true]
          split
          · exact ⟨_, rfl, fun found hfound => by cases hfound⟩
          next finding hfinding =>
          refine ⟨_, rfl, fun found hfound => ?_⟩
          cases hfound
          simpa [hfinding] using hwider
        · cases hwider
      · cases hwider
    | _ => cases hwider
  | _ => cases hwider

/-- What has returned has returned. -/
theorem finished_exec {deps : Deps} {d : Nat} {result : Except ProviderFailure Json}
    (run : List Label) {s : System} (h : s.dispatches d = .finished result) :
    (exec (step deps) s run).dispatches d = .finished result
      ∨ (exec (step deps) s run).dispatches d = .crashed := by
  refine exec_inv (I := fun t : System => t.dispatches d = .finished result
    ∨ t.dispatches d = .crashed) (fun t a ht => ?_) (Or.inl h) run
  by_cases hown : a.ofDispatch = some d
  · cases a with
    | startDispatch d' p =>
      cases hown
      simp only [step]
      rcases ht with ht | ht <;> simp [ht]
    | dispatch d' env =>
      cases hown
      simp only [step, System.setDispatch, Function.update_self]
      rcases ht with ht | ht <;> simp [ht, dispatchStep]
    | submitReturns d' env outcome =>
      cases hown
      simp only [step, System.setDispatch, Function.update_self]
      rcases ht with ht | ht <;> simp [ht, dispatchReturn]
    | storeFails d' =>
      cases hown
      simp only [step, System.setDispatch, Function.update_self]
      rcases ht with ht | ht <;> simp [ht, dispatchStoreFails]
    | crash d' =>
      cases hown
      exact Or.inr (Function.update_self ..)
    | _ => cases hown
  · have hsame : (step deps t a).dispatches d = t.dispatches d :=
      dispatch_frame deps d [a] (by simpa using hown)
    rwa [hsame]

/-- The rest of a call that is in scope: it returns a finding that fits exactly when none of its
steps replays a wider row. -/
theorem scoped_exec {deps : Deps} {d : Nat} {p : DispatchProviderRequestParams}
    {finding : Json} (run : List Label) {s : System} (hgranted : s.Granted)
    (hscoped : (s.dispatches d).Scoped p)
    (hfinished : (exec (step deps) s run).dispatches d = .finished (.ok finding)) :
    fitsFields p.permittedFields finding = true
      ↔ AllSteps (step deps) (fun t a => widerReplay deps t d a = false) s run := by
  induction run generalizing s with
  | nil =>
    have hend : s.dispatches d = .finished (.ok finding) := hfinished
    exact iff_of_true (hscoped.fits finding (by rw [hend]; rfl)) trivial
  | cons a run ih =>
    cases hwider : widerReplay deps s d a with
    | false =>
      rw [ih (hgranted.step a) (step_scoped hgranted hscoped hwider) hfinished]
      exact ⟨fun hrest => ⟨hwider, hrest⟩, fun hall => hall.2⟩
    | true =>
      -- the row just replayed is what the call returns, and it does not fit
      obtain ⟨result, hresult, hnot⟩ := widerReplay_result hscoped hwider
      have hreturned : result = .ok finding := by
        rcases finished_exec run hresult with hkept | hcrashed
        · rw [exec_cons, hkept] at hfinished
          cases hfinished
          rfl
        · rw [exec_cons, hcrashed] at hfinished
          cases hfinished
      refine iff_of_false ?_ fun hall => ?_
      · rw [hnot finding hreturned]
        exact Bool.false_ne_true
      · rw [hall.1] at hwider
        cases hwider

/-- **A call returns what it may, unless it replays a wider row.** After every history, and
whatever happens during the call: the finding it returns has only permitted fields if and only if
no step of the call finds its operation succeeded with a stored finding that has others. -/
theorem finding_fits_iff (deps : Deps) (db : Db) (history run : List Label) (d : Nat)
    (p : DispatchProviderRequestParams) (finding : Json)
    (hidle : (exec (step deps) (System.init db) history).dispatches d = .idle)
    (hfinished : (exec (step deps) (System.init db)
      (history ++ .startDispatch d p :: run)).dispatches d = .finished (.ok finding)) :
    fitsFields p.permittedFields finding = true
      ↔ AllSteps (step deps) (fun s a => widerReplay deps s d a = false)
          (exec (step deps) (System.init db) (history ++ [.startDispatch d p])) run := by
  have hgranted := granted_exec deps db (history ++ [.startDispatch d p])
  refine scoped_exec run hgranted ?_ ?_
  · have hstart : (exec (step deps) (System.init db) (history ++ [.startDispatch d p])).dispatches d
        = dispatchStart deps p := by
      simp only [exec_append, exec_cons, exec_nil, step, hidle, System.setDispatch,
        Function.update_self]
    rw [hstart]
    unfold dispatchStart
    split
    · exact scoped_error p _
    · split
      · exact scoped_error p _
      · exact scoped_of_request (fun hidle => by cases hidle) (fun q hq => (Option.some.inj hq).symm) rfl rfl
  · rwa [← exec_append, List.append_assoc]

/-! ### A borrower's income report, asked for twice -/

/-- Dispatch 0 has asked for every field, and the report has come back. -/
def succeededRun : List Label :=
  untilMarkDispatched ++ runs 0 2 20
    ++ [.submitReturns 0 (envAt 20) (.receipt incomeReceipt), .dispatch 0 (envAt 20)]

def monthlyIncomeRequest : DispatchProviderRequestParams :=
  { incomeRequest with permittedFields := some ["monthlyIncome"] }

/-- Asked for first, the one field is all that comes back. -/
theorem finding_fits_monthlyIncome :
    fitsFields (some ["monthlyIncome"]) (.obj [("monthlyIncome", .num ⟨5, 3, by decide⟩)])
      = true := by
  refine (finding_fits_iff incomeDeps consentedDb []
    (runs 0 10 20 ++ [.submitReturns 0 (envAt 20) (.receipt incomeReceipt), .dispatch 0 (envAt 20)])
    0 monthlyIncomeRequest _ rfl rfl).mpr ?_
  decide

/-- **A stored finding is replayed whole.** Asked for after dispatch 0 has succeeded, the one
permitted field comes back with three others. -/
theorem replay_exceeds_fields :
    ¬ ∀ (deps : Deps) (db : Db) (history run : List Label) (d : Nat)
      (p : DispatchProviderRequestParams) (finding : Json),
      (exec (step deps) (System.init db) history).dispatches d = .idle →
      (exec (step deps) (System.init db) (history ++ .startDispatch d p :: run)).dispatches d
        = .finished (.ok finding) →
      fitsFields p.permittedFields finding = true := by
  intro h
  have hfits := h incomeDeps consentedDb succeededRun (runs 1 4 21) 1 monthlyIncomeRequest
    incomeReceipt.payload rfl rfl
  revert hfits
  decide

end MortgageAgent.Provider
