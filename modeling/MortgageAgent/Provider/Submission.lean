import MortgageAgent.Provider.Simulation

/-!
# What holds of every provider operation

The protocol's invariants, brought back to the platform along whole runs.

* **`submitted_once`** — a logical operation reaches its provider at most once.
* **`failures_explained`** — a dispatch records `FAILED_FINAL` only for what the provider did
  not do, as long as no dispatch refuses an operation that another one has dispatched and no
  accepted receipt meets a failing store.
* **`never_stranded`** — an operation that nobody works on can be moved by somebody, as long as
  no owner of a dispatched operation disappears before it has recorded an outcome.

`refused_while_submitted` and `crashed_while_dispatched` are runs on which the two conditions
fail, and what then happens.
-/

namespace MortgageAgent.Provider

open Runs

/-! ## One submission -/

/-- What holds of the view after every run. -/
theorem submitInv_exec (deps : Deps) (db : Db) (run : List Label) :
    (exec (step deps) (System.init db) run).Linked
      ∧ SubmitInv (exec (step deps) (System.init db) run).view := by
  refine exec_inv (I := fun s : System => s.Linked ∧ SubmitInv s.view) ?_ ?_ run
  · rintro s a ⟨hlinked, hI⟩
    exact ⟨hlinked.step a, hI.move (step_simulates deps hlinked a)⟩
  · refine ⟨linked_init db, ?_⟩
    constructor <;> simp [System.init, System.view, Db.row, DispatchState.role, Table.find]

/-- **One submission for each operation.** Whatever dispatches, sweeps, operators, dispositions,
adapters, crashes and store failures do, the adapter's `submit` is called at most once for a
tenant, provider, capability and logical operation key. -/
theorem submitted_once (deps : Deps) (db : Db) (run : List Label) (key : OperationKey) :
    (exec (step deps) (System.init db) run).log.countP (Event.submitsKey key) ≤ 1 :=
  (submitInv_exec deps db run).2.once_per_key key

/-! ## Failures -/

/-- Every failure that a dispatch recorded is one: nothing was submitted, or the adapter
rejected the request, or its receipt did not pass; and no accepted receipt was recorded as a
failure. -/
def FailuresExplained (log : List Event) : Prop :=
  (∀ id, .failedFinal id ∈ log → (∀ key, .submitted id key ∉ log)
      ∨ .returned id .rejected ∈ log ∨ .returned id .receiptRefused ∈ log)
    ∧ ∀ id, .returned id .receiptAccepted ∈ log → .failedFinal id ∉ log

/-- The step is neither a failed authorization that hits an operation already dispatched, nor a
store failure at the write of an accepted receipt. -/
def RecordsFaithfully (s : System) (a : Label) : Prop :=
  stepKind s a ≠ .refusesDispatched ∧ stepKind s a ≠ .losesSuccess

instance (s : System) (a : Label) : Decidable (RecordsFaithfully s a) :=
  inferInstanceAs (Decidable (_ ∧ _))

theorem outcomeInv_init (db : Db) : OutcomeInv (System.init db).view := by
  constructor <;> simp [System.init, System.view, DispatchState.role, Role.owned]

/-- **Failures are explained.** -/
theorem failures_explained (deps : Deps) (db : Db) (run : List Label)
    (h : AllSteps (step deps) RecordsFaithfully (System.init db) run) :
    FailuresExplained (exec (step deps) (System.init db) run).log := by
  -- the three travel together: outcomes lean on submissions, and both on the simulation.
  have hI : OutcomeInv (exec (step deps) (System.init db) run).view := by
    refine (exec_inv_of_allSteps
      (I := fun s : System => s.Linked ∧ SubmitInv s.view ∧ OutcomeInv s.view) ?_ ?_ h).2.2
    · rintro s a ⟨hlinked, hS, hI⟩ ⟨hrefuse, hlose⟩
      have hmove := step_simulates deps hlinked a
      exact ⟨hlinked.step a, hS.move hmove, hI.move hS hmove hrefuse hlose⟩
    · obtain ⟨hlinked, hS⟩ := submitInv_exec deps db []
      exact ⟨hlinked, hS, outcomeInv_init db⟩
  exact ⟨hI.explained, fun id hid => hI.accepted hid⟩

/-! ### A borrower's income report -/

/-- The income simulator, whose `normalize` is the identity; the digest of the one request of
the runs below. -/
def incomeDeps : Deps where
  registry := fun
    | .INCOME, .SIMULATOR => some
        { providerId := "plaid-simulator"
          effectClass := .REUSABLE_LOOKUP
          normalize := fun payload _ _ => .ok payload }
    | _, _ => none
  sha256 := fun _ => "eb825426782b6979afb5980230aa26ac2919d4e6df050f1dba45e01120e01570"
  encrypt := fun iv value aad => .obj [("iv", .str (toString iv)), ("aad", .str aad),
    ("ciphertext", value)]
  decrypt := fun
    | .obj [_, ("aad", .str aad), ("ciphertext", value)], aad' =>
      if aad = aad' then .ok value else .error (.decryption "authentication failed")
    | _, _ => .error (.decryption "malformed envelope")
  receiptJson := fun receipt => .obj [("payload", receipt.payload)]

def incomeRequest : DispatchProviderRequestParams where
  tenantId := 1
  caseId := 3
  borrowerSubjectId := "borrower-1"
  capability := .INCOME
  request := .obj [("borrowerId", .str "borrower-1")]
  purposeCode := "UNDERWRITING"
  permittedDataClasses := ["INCOME"]

def incomeConsent : ConsentRecord where
  id := 5
  tenantId := 1
  caseId := 3
  permittedPurposes := ["UNDERWRITING"]
  permittedDataClasses := ["INCOME"]
  grantedAt := 1786795000000

/-- One case, whose borrower has consented. -/
def consentedDb : Db where
  intents := .empty
  grants := .empty
  consents := ⟨[incomeConsent], by decide⟩
  decisions := .empty
  adapterStatus := .empty
  activations := .empty
  holds := .empty
  evidence := .empty
  tasks := .empty

def envAt (newId : Uuid) : Env where
  dbNow := 1786795200000
  processNow := 1786795200000
  newId := newId
  randomUUID := newId + 1000
  iv := newId

/-- Dispatch `d` runs `n` of its transactions; `newId` is the id of a row it inserts. -/
def runs (d n : Nat) (newId : Uuid) : List Label :=
  List.replicate n (.dispatch d (envAt newId))

/-- Dispatch 0 prepares intent 20 and passes every check. -/
def untilMarkDispatched : List Label :=
  .startDispatch 0 incomeRequest :: runs 0 8 20

/-- The adapter rejects what dispatch 0 submitted. -/
def rejectedRun : List Label :=
  untilMarkDispatched ++ runs 0 2 20
    ++ [.submitReturns 0 (envAt 20) (.threw (.syntheticRejection "borrower not found")),
      .dispatch 0 (envAt 20)]

theorem failures_explained_rejectedRun :
    AllSteps (step incomeDeps) RecordsFaithfully (System.init consentedDb) rejectedRun
      ∧ Event.failedFinal 20 ∈ (exec (step incomeDeps) (System.init consentedDb) rejectedRun).log
      ∧ FailuresExplained (exec (step incomeDeps) (System.init consentedDb) rejectedRun).log :=
  ⟨by decide, by decide, failures_explained incomeDeps consentedDb rejectedRun (by decide)⟩

def incomeReceipt : SynchronousProviderReceipt where
  payload := .obj [("monthlyIncome", .num (.scaled 5 3)), ("employmentStatus", .str "FULL_TIME"),
    ("bankAccountAge", .num (.scaled 24 0)), ("incomeStability", .num (.scaled 9 1))]
  observedAt := some 1786795200000

/-- Two dispatches of one operation: the borrower revokes the consent after dispatch 0 has
passed its checks and before dispatch 1 makes them. Dispatch 0 submits, dispatch 1 records its
refusal, and the receipt comes back. -/
def refusedWhileSubmittedRun : List Label :=
  untilMarkDispatched ++ .startDispatch 1 incomeRequest :: runs 1 6 21
    ++ [.revokeConsent (envAt 30) 1 3 none, .dispatch 1 (envAt 21)]
    ++ runs 0 2 20 ++ [.dispatch 1 (envAt 21), .submitReturns 0 (envAt 20) (.receipt incomeReceipt)]

/-- **A dispatch records the failure of another's submission.** -/
theorem refused_while_submitted :
    ¬ ∀ (deps : Deps) (db : Db) (run : List Label),
      FailuresExplained (exec (step deps) (System.init db) run).log := by
  intro h
  refine (h incomeDeps consentedDb refusedWhileSubmittedRun).2 20 ?_ ?_ <;> decide

/-! ## Stranded operations -/

/-- Some dispatch works on the intent. -/
def System.inProgress (s : System) (id : Uuid) : Prop :=
  ∃ d, (s.dispatches d).role.operation = some id

/-- The intent is settled, or waits for a dispatch, or the sweep or an operator can move it. -/
def Recoverable (s : System) (i : ProviderOperationIntent) : Prop :=
  i.state.terminal = true ∨ i.state = .PREPARED
    ∨ (∃ env db', markReconciling s.db env i.tenantId i.id = .ok db')
    ∨ ∀ env outcome resolvedBy resolutionNote, ∃ db',
        resolveManually s.db env i.tenantId i.id outcome resolvedBy resolutionNote = .ok db'

/-- Every later dispatch is blocked, every manual resolution is refused, and so is `DELETE` or
`ANONYMIZE` under every task that covers the intent. -/
structure Stranded (deps : Deps) (s : System) (i : ProviderOperationIntent) : Prop where
  dispatch : ∀ p adapter decisionId grantId, ∃ e,
    afterPrepare deps p adapter decisionId grantId i = .finished (.error e)
  manual : ∀ env outcome resolvedBy resolutionNote, ∃ e,
    resolveManually s.db env i.tenantId i.id outcome resolvedBy resolutionNote = .error e
  disposition : ∀ tenantId task, task.affects tenantId i = true →
    unsettledIntents s.db tenantId task ≠ []

/-- The step is neither the crash of a dispatch that has marked its intent `DISPATCHED` and not
yet recorded an outcome, nor a store failure at its record of one. -/
def KeepsOwner (s : System) (a : Label) : Prop :=
  stepKind s a ≠ .abandons

instance (s : System) (a : Label) : Decidable (KeepsOwner s a) :=
  inferInstanceAs (Decidable (_ ≠ _))

theorem ownerInv_exec {deps : Deps} {db : Db} {run : List Label}
    (h : AllSteps (step deps) KeepsOwner (System.init db) run) :
    OwnerInv (exec (step deps) (System.init db) run).view := by
  refine (exec_inv_of_allSteps (I := fun s : System => s.Linked ∧ OwnerInv s.view) ?_ ?_ h).2
  · rintro s a ⟨hlinked, hI⟩ hk
    exact ⟨hlinked.step a, hI.move (step_simulates deps hlinked a) hk⟩
  · exact ⟨linked_init db, fun id key hrow => by cases hrow⟩

theorem findIntent_of_mem {db : Db} {i : ProviderOperationIntent} (hi : i ∈ db.intents.rows) :
    db.findIntent i.tenantId i.id = some i := by
  rw [Db.findIntent, db.intents.find_eq_some_iff.mpr ⟨hi, rfl⟩]
  simp

/-- An operator settles whatever is ambiguous. -/
theorem resolveManually_of_state {s : System} {i : ProviderOperationIntent}
    (hi : i ∈ s.db.intents.rows) (hstate : i.state = .OUTCOME_UNKNOWN ∨ i.state = .RECONCILING)
    (env : Env) (outcome : ManualOutcome) (resolvedBy resolutionNote : String) :
    ∃ db', resolveManually s.db env i.tenantId i.id outcome resolvedBy resolutionNote
      = .ok db' := by
  rw [resolveManually, findIntent_of_mem hi]
  exact ⟨_, if_pos hstate⟩

/-- The task of a settled intent alone has nothing unsettled. -/
theorem disposition_of_settled {s : System} {i : ProviderOperationIntent}
    (hi : i ∈ s.db.intents.rows) (hstate : i.unsettled = false) :
    ∃ task, task.affects i.tenantId i = true ∧ unsettledIntents s.db i.tenantId task = [] := by
  -- a review whose snapshot names this intent and nothing else.
  let task : DataDispositionTask :=
    { id := 0
      tenantId := i.tenantId
      caseId := i.caseId
      reason := "consent revoked"
      triggeringConsentRecordId := none
      affectedEvidenceFactIds := []
      affectedProviderIntentIds := [i.id] }
  refine ⟨task, by simp [task, DataDispositionTask.affects], ?_⟩
  rw [unsettledIntents, List.filter_eq_nil_iff]
  intro x hx haffects
  rw [Bool.and_eq_true] at haffects
  have hid : x.id = i.id := by
    simpa [task, DataDispositionTask.affects] using (Bool.and_eq_true_iff.mp haffects.1).2
  obtain rfl := s.db.intents.eq_of_key_eq hx hi hid
  rw [hstate] at haffects
  cases haffects.2

/-- **Nothing is stranded.** In every state reached by a run in which every owner of a
dispatched operation records an outcome, an intent that no dispatch works on is recoverable. -/
theorem never_stranded (deps : Deps) (db : Db) (run : List Label)
    (h : AllSteps (step deps) KeepsOwner (System.init db) run) :
    let s := exec (step deps) (System.init db) run
    ∀ i ∈ s.db.intents.rows, ¬ s.inProgress i.id → Recoverable s i ∧ ¬ Stranded deps s i := by
  intro s i hi hidle
  -- no review of it is refused.
  have hsettled (hs : i.unsettled = false) : ¬ Stranded deps s i := by
    intro hstranded
    obtain ⟨task, haffects, hnone⟩ := disposition_of_settled hi hs
    exact hstranded.disposition i.tenantId task haffects hnone
  -- an operator may settle it.
  have hambiguous (hs : i.state = .OUTCOME_UNKNOWN ∨ i.state = .RECONCILING) :
      Recoverable s i ∧ ¬ Stranded deps s i := by
    refine ⟨Or.inr (Or.inr (Or.inr (resolveManually_of_state hi hs))), fun hstranded => ?_⟩
    obtain ⟨e, he⟩ := hstranded.manual (envAt 0) .SUCCEEDED "" ""
    obtain ⟨db', hdb'⟩ := resolveManually_of_state hi hs (envAt 0) .SUCCEEDED "" ""
    rw [hdb'] at he
    cases he
  cases hstate : i.state with
  | DISPATCHED =>
    -- a dispatched row has an owner, which works on it
    obtain ⟨d, hd⟩ := ownerInv_exec h i.id i.key
      (row_eq_some_iff.mpr ⟨i, hi, rfl, rfl, hstate⟩)
    exact absurd ⟨d, Role.operation_of_owned hd⟩ hidle
  | PREPARED =>
    exact ⟨Or.inr (Or.inl hstate), hsettled (by simp [ProviderOperationIntent.unsettled, hstate])⟩
  | OUTCOME_UNKNOWN => exact hambiguous (Or.inl hstate)
  | RECONCILING => exact hambiguous (Or.inr hstate)
  | _ =>
    exact ⟨Or.inl (by rw [hstate]; rfl),
      hsettled (by simp [ProviderOperationIntent.unsettled, hstate])⟩

/-- A dispatch that a run does not move stays where it is. -/
theorem dispatch_frame (deps : Deps) (d : Nat) (run : List Label) {s : System}
    (h : ∀ a ∈ run, a.ofDispatch ≠ some d) :
    (exec (step deps) s run).dispatches d = s.dispatches d := by
  refine (exec_inv_of_allSteps
    (I := fun s' : System => s'.dispatches d = s.dispatches d)
    (G := fun _ a => a.ofDispatch ≠ some d) ?_ rfl ?_)
  · intro s' a hs' ha
    rw [← hs']
    cases a with
    | startDispatch d' p =>
      simp only [step]
      split
      · exact Function.update_of_ne (fun hd => ha (by rw [hd]; rfl)) _ _
      · rfl
    | dispatch d' env => exact Function.update_of_ne (fun hd => ha (by rw [hd]; rfl)) _ _
    | submitReturns d' env outcome =>
      exact Function.update_of_ne (fun hd => ha (by rw [hd]; rfl)) _ _
    | storeFails d' => exact Function.update_of_ne (fun hd => ha (by rw [hd]; rfl)) _ _
    | crash d' => exact Function.update_of_ne (fun hd => ha (by rw [hd]; rfl)) _ _
    -- the labels of sweeps, operators and dispositions move no dispatch at all.
    | _ => exact congrFun (step_frame rfl).1 d
  · exact .of_labels h

/-- Only dispatch 0 has moved, and it is over. -/
theorem not_inProgress {deps : Deps} {db : Db} {run : List Label} {id : Uuid}
    (honly : ∀ a ∈ run, a.ofDispatch.all (· = 0) = true)
    (hover : ((exec (step deps) (System.init db) run).dispatches 0).role = .out) :
    ¬ (exec (step deps) (System.init db) run).inProgress id := by
  rintro ⟨d, hd⟩
  by_cases h0 : d = 0
  · rw [h0, hover] at hd
    cases hd
  · -- any other dispatch is still where it was at the start.
    rw [dispatch_frame deps d run ?_] at hd
    · cases hd
    · intro a ha heq
      have := honly a ha
      rw [heq] at this
      exact h0 (by simpa using this)

/-- The adapter fails without saying what became of the request. -/
def ambiguousRun : List Label :=
  untilMarkDispatched ++ runs 0 2 20
    ++ [.submitReturns 0 (envAt 20) (.threw (.other "socket hang up")), .dispatch 0 (envAt 20)]

theorem never_stranded_ambiguousRun :
    let s := exec (step incomeDeps) (System.init consentedDb) ambiguousRun
    AllSteps (step incomeDeps) KeepsOwner (System.init consentedDb) ambiguousRun
      ∧ ∃ i ∈ s.db.intents.rows, i.state = .OUTCOME_UNKNOWN ∧ ¬ s.inProgress i.id
        ∧ Recoverable s i ∧ ¬ Stranded incomeDeps s i := by
  intro s
  have hsteps : AllSteps (step incomeDeps) KeepsOwner (System.init consentedDb) ambiguousRun := by
    decide
  have hrow : ∃ i ∈ s.db.intents.rows, i.state = .OUTCOME_UNKNOWN := by decide
  obtain ⟨i, hi, hstate⟩ := hrow
  have hidle : ¬ s.inProgress i.id := not_inProgress (by decide) rfl
  exact ⟨hsteps, i, hi, hstate, hidle,
    never_stranded incomeDeps consentedDb ambiguousRun hsteps i hi hidle⟩

/-- A dispatched row that no dispatch has in hand. -/
theorem dispatched_stranded (deps : Deps) {s : System} {i : ProviderOperationIntent}
    (hi : i ∈ s.db.intents.rows) (hstate : i.state = .DISPATCHED) :
    ¬ Recoverable s i ∧ Stranded deps s i := by
  have hmanual (env : Env) (outcome : ManualOutcome) (resolvedBy resolutionNote : String) :
      ∃ e, resolveManually s.db env i.tenantId i.id outcome resolvedBy resolutionNote
        = .error e := by
    rw [resolveManually, findIntent_of_mem hi]
    exact ⟨_, if_neg (by simp [hstate])⟩
  refine ⟨?_, ?_, hmanual, ?_⟩
  · -- not settled, not `PREPARED`; the sweep and an operator start from `OUTCOME_UNKNOWN` or later.
    rintro (h | h | ⟨env, db', h⟩ | h)
    · rw [hstate] at h
      cases h
    · rw [hstate] at h
      cases h
    · rw [markReconciling, transition, findIntent_of_mem hi] at h
      simp [hstate] at h
    · obtain ⟨db', hok⟩ := h (envAt 0) .SUCCEEDED "" ""
      obtain ⟨e, herror⟩ := hmanual (envAt 0) .SUCCEEDED "" ""
      rw [hok] at herror
      cases herror
  · intro p adapter decisionId grantId
    unfold afterPrepare
    split
    · exact ⟨_, rfl⟩
    · next intent hintent =>
      -- `afterPrepare` replays a success and goes on with a `PREPARED` row; it throws otherwise.
      obtain ⟨-, -, hsame⟩ := toIntentValue_ok hintent
      rw [hsame, hstate]
      exact ⟨_, rfl⟩
  · intro tenantId task haffects hnone
    rw [unsettledIntents, List.filter_eq_nil_iff] at hnone
    exact hnone i hi (by simp [haffects, ProviderOperationIntent.unsettled, hstate])

/-- Once nobody has a dispatched row in hand, it stays dispatched along every continuation. -/
theorem abandoned_forever (deps : Deps) {s : System} (hlinked : s.Linked) {id : Uuid}
    {key : OperationKey} (h : Abandoned s.view id key) (run : List Label) :
    Abandoned (exec (step deps) s run).view id key := by
  refine (exec_inv (I := fun s : System => s.Linked ∧ Abandoned s.view id key) ?_
    ⟨hlinked, h⟩ run).2
  rintro s a ⟨hlinked, h⟩
  exact ⟨hlinked.step a, h.move (step_simulates deps hlinked a)⟩

/-- Dispatch 0 marks its intent `DISPATCHED`, and its process dies. -/
def crashedRun : List Label :=
  untilMarkDispatched ++ [.dispatch 0 (envAt 20), .crash 0]

/-- **A crash strands the operation**, and whatever happens next it stays stranded. -/
theorem crashed_while_dispatched :
    (¬ ∀ (deps : Deps) (db : Db) (run : List Label),
      let s := exec (step deps) (System.init db) run
      ∀ i ∈ s.db.intents.rows, ¬ s.inProgress i.id → Recoverable s i ∧ ¬ Stranded deps s i)
    ∧ ∀ run, let s := exec (step incomeDeps) (System.init consentedDb) (crashedRun ++ run)
      ∃ i ∈ s.db.intents.rows, ¬ s.inProgress i.id ∧ ¬ Recoverable s i
        ∧ Stranded incomeDeps s i := by
  have hlater (run : List Label) :
      let s := exec (step incomeDeps) (System.init consentedDb) (crashedRun ++ run)
      ∃ i ∈ s.db.intents.rows, ¬ s.inProgress i.id ∧ ¬ Recoverable s i
        ∧ Stranded incomeDeps s i := by
    have hrow : ∃ i ∈ (exec (step incomeDeps) (System.init consentedDb) crashedRun).db.intents.rows,
        i.state = .DISPATCHED := by decide
    obtain ⟨i, hi, hstate⟩ := hrow
    have hidle : ¬ (exec (step incomeDeps) (System.init consentedDb) crashedRun).inProgress i.id :=
      not_inProgress (by decide) rfl
    -- the owner is gone with the row in `DISPATCHED`: nothing takes it up in any continuation.
    have habandoned : Abandoned
        (exec (step incomeDeps) (System.init consentedDb) crashedRun).view i.id i.key :=
      ⟨row_eq_some_iff.mpr ⟨i, hi, rfl, rfl, hstate⟩, fun d hd => hidle ⟨d, hd⟩⟩
    have hlinked := (submitInv_exec incomeDeps consentedDb crashedRun).1
    obtain ⟨hrow, hrole⟩ := abandoned_forever incomeDeps hlinked habandoned run
    rw [← exec_append] at hrow hrole
    obtain ⟨j, hj, hid, -, hdispatched⟩ := row_eq_some_iff.mp hrow
    exact ⟨j, hj, fun ⟨d, hd⟩ => hrole d (hid ▸ hd), dispatched_stranded incomeDeps hj hdispatched⟩
  refine ⟨fun h => ?_, hlater⟩
  obtain ⟨i, hi, hidle, hnot, -⟩ := hlater []
  exact hnot (h incomeDeps consentedDb (crashedRun ++ []) i hi hidle).1

end MortgageAgent.Provider
