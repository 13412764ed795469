import MortgageAgent.Provider.Access
import MortgageAgent.Provider.Submission

/-!
# The gates in front of a submission

Four independent rows can stop a dispatch: the kill switch of its adapter, the activation of its
mode, the case's most recent consent and, for a consumer report, the supplied permissible-purpose
decision. Their defaults differ (no switch row means *on*, no activation row means *off*), and
they are read at different points of the call, all of them before `prepare` looks at the intents.

* **`GateShut`** — the gate refuses the request, at an instant.
* **`Label.reopens`** — the only steps that may undo that.
* **`shut_persists`** — so a shut gate stays shut along every other step.
* **`Waits`** — the points of a dispatch in front of a shut gate, with `gateRank` counting the
  reads that are left.
* **`shut_gate_refuses`** — a call that starts behind a shut gate throws, whatever it is given
  and whatever intents exist: it submits nothing and moves no intent.
-/

namespace MortgageAgent.Provider

open Runs

/-! ## Shut gates -/

inductive Gate where
  | killSwitch
  | activation
  | consent
  | purpose
  deriving DecidableEq, Repr

/-- The decision was made for this request. -/
structure PermissiblePurposeDecision.InContext (d : PermissiblePurposeDecision)
    (context : PermissiblePurposeContext) : Prop where
  tenantId : d.tenantId = context.tenantId
  caseId : d.caseId = context.caseId
  borrowerSubjectId : d.borrowerSubjectId = context.borrowerSubjectId
  capability : d.capability = context.capability
  purposeCode : d.purposeCode = context.purposeCode
  dataClasses : context.permittedDataClasses.all (d.permittedDataClasses.contains ·) = true
  mode : d.syntheticOnly = true → context.mode = .SIMULATOR

/-- The row behind the gate refuses the request at `now`. -/
def GateShut (db : Db) (now : Instant) (p : DispatchProviderRequestParams)
    (adapter : ProviderAdapter) : Gate → Prop
  -- switched off: a missing row would be on.
  | .killSwitch => ∃ row ∈ db.adapterStatus.rows,
      row.key = (adapter.providerId, p.capability, p.mode) ∧ row.state = .DISABLED
  -- never activated, or deactivated.
  | .activation => p.mode ≠ .SIMULATOR ∧ ∀ row ∈ db.activations.rows,
      row.key = (adapter.providerId, p.capability, p.mode) → row.state = .DEACTIVATED
  | .consent => ∀ c, mostRecentRecord db p.tenantId p.caseId = some c →
      c.revokedAt.isSome = true ∨ (∃ t, c.expiresAt = some t ∧ t ≤ now)
        ∨ c.covers p.purposeCode p.permittedDataClasses = false
  | .purpose => p.capability = .CREDIT ∧ ∃ decision ∈ db.decisions.rows,
      p.permissiblePurposeDecisionId = some decision.id
        ∧ (decision.revokedAt.isSome = true ∨ decision.expiresAt ≤ now
          ∨ ¬ decision.InContext p.purposeContext)

/-- Enabling, activating, granting or deciding anew. -/
def Label.reopens (p : DispatchProviderRequestParams) (adapter : ProviderAdapter) (g : Gate) :
    Label → Prop
  | .setAdapterStatus status => g = .killSwitch
      ∧ status.key = (adapter.providerId, p.capability, p.mode) ∧ status.state = .ACTIVE
  | .setActivation activation => g = .activation
      ∧ activation.key = (adapter.providerId, p.capability, p.mode) ∧ activation.state = .ACTIVE
  | .grantConsent record => g = .consent
      ∧ record.tenantId = p.tenantId ∧ record.caseId = p.caseId
  | .decidePurpose decision => g = .purpose ∧ p.permissiblePurposeDecisionId = some decision.id
  | _ => False

theorem mostRecentRecord_congr {db db' : Db} (h : db'.consents = db.consents)
    (tenantId caseId : Uuid) :
    mostRecentRecord db' tenantId caseId = mostRecentRecord db tenantId caseId := by
  simp only [mostRecentRecord, newestConsents, h]

/-- A gate only looks at its own table. -/
theorem GateShut.congr {db db' : Db} {now : Instant} {p : DispatchProviderRequestParams}
    {adapter : ProviderAdapter} {g : Gate} (h : SameAccess db db')
    (hshut : GateShut db now p adapter g) : GateShut db' now p adapter g := by
  cases g with
  | killSwitch => simpa only [GateShut, h.adapterStatus] using hshut
  | activation => simpa only [GateShut, h.activations] using hshut
  | consent => simpa only [GateShut, mostRecentRecord_congr h.consents] using hshut
  | purpose => simpa only [GateShut, h.decisions] using hshut

/-- A record of another case does not become the case's most recent one. -/
theorem mostRecentRecord_grant {db db' : Db} {record : ConsentRecord} {tenantId caseId : Uuid}
    (h : grantForCase db record = .ok db')
    (hother : ¬ (record.tenantId = tenantId ∧ record.caseId = caseId)) :
    mostRecentRecord db' tenantId caseId = mostRecentRecord db tenantId caseId := by
  unfold grantForCase at h
  split at h
  · next consents hinsert =>
    cases h
    have hrows : consents.rows = db.consents.rows ++ [record] := Table.rows_of_insert hinsert
    have hdropped : [record].filter (fun c => c.tenantId = tenantId && c.caseId = caseId) = [] := by
      rw [List.filter_eq_nil_iff]
      intro c hc hmatch
      obtain rfl := List.mem_singleton.mp hc
      exact hother (by simpa using hmatch)
    simp only [mostRecentRecord, newestConsents, hrows, List.filter_append, hdropped,
      List.append_nil]
  · cases h

/-- Behind a revocation, whichever case it was for, the most recent record of a case is revoked,
or it is the one it was before and not the one that the revocation picked. -/
theorem mostRecentRecord_of_revoke {db db' : Db} {env : Env} {tenantId caseId : Uuid}
    {reason : Option String} (h : revokeConsent db env tenantId caseId reason = .ok db')
    {tenantId' caseId' : Uuid} {c : ConsentRecord}
    (hc : mostRecentRecord db' tenantId' caseId' = some c) :
    c.revokedAt.isSome = true ∨ mostRecentRecord db tenantId' caseId' = some c
      ∧ (newestConsents db tenantId caseId).find? (·.revokedAt.isNone) ≠ some c := by
  obtain ⟨active, tasks, hactive, -, hdb'⟩ := revokeConsent_ok h
  have hmem : active ∈ db.consents.rows :=
    (mem_newestConsents.mp (List.mem_of_find?_eq_some hactive)).1
  rw [mostRecentRecord, newestConsents_put (congrArg Db.consents hdb') hmem rfl rfl rfl rfl,
    List.head?_map, Option.map_eq_some_iff] at hc
  obtain ⟨c₀, hc₀, rfl⟩ := hc
  split
  · exact Or.inl rfl
  next hid =>
  refine Or.inr ⟨hc₀, fun hpicked => hid ?_⟩
  rw [hactive] at hpicked
  cases hpicked
  rfl

/-- Revoking a record of any case leaves a shut consent gate shut. -/
theorem consent_shut_of_revoke {db db' : Db} {env : Env} {tenantId caseId : Uuid}
    {reason : Option String} {now : Instant} {p : DispatchProviderRequestParams}
    {adapter : ProviderAdapter} (h : revokeConsent db env tenantId caseId reason = .ok db')
    (hshut : GateShut db now p adapter .consent) : GateShut db' now p adapter .consent := by
  intro c hc
  rcases mostRecentRecord_of_revoke h hc with hrevoked | ⟨hbefore, -⟩
  · exact Or.inl hrevoked
  · exact hshut c hbefore

theorem purpose_shut_of_decided {db db' : Db} {now : Instant}
    {p : DispatchProviderRequestParams} {adapter : ProviderAdapter}
    (hrows : ∀ d ∈ db.decisions.rows, p.permissiblePurposeDecisionId = some d.id →
      d ∈ db'.decisions.rows)
    (hshut : GateShut db now p adapter .purpose) : GateShut db' now p adapter .purpose := by
  obtain ⟨hcredit, decision, hmem, hid, hrefused⟩ := hshut
  exact ⟨hcredit, decision, hrows decision hmem hid, hid, hrefused⟩

/-- A transaction of a dispatch reopens nothing. -/
theorem shut_of_dispatchStep {deps : Deps} {db : Db} {env : Env} {state : DispatchState}
    {now : Instant} {p : DispatchProviderRequestParams} {adapter : ProviderAdapter} {g : Gate}
    (hshut : GateShut db now p adapter g) :
    GateShut (dispatchStep deps db env state).db now p adapter g := by
  generalize hdb' : (dispatchStep deps db env state).db = db'
  have haccess : DispatchAccess db db' state := hdb' ▸ dispatchStep_access deps db env state
  cases haccess with
  | same hsame => exact hshut.congr hsame
  | decided decision hinsert hgrants hconsents hstatus hactivations =>
    cases g with
    | killSwitch => simpa only [GateShut, hstatus] using hshut
    | activation => simpa only [GateShut, hactivations] using hshut
    | consent => simpa only [GateShut, mostRecentRecord_congr hconsents] using hshut
    | purpose =>
      refine purpose_shut_of_decided (fun d hd _ => ?_) hshut
      rw [Table.rows_of_insert hinsert]
      exact List.mem_append_left _ hd
  | granted env hinsert hconsents hdecisions hstatus hactivations =>
    cases g with
    | killSwitch => simpa only [GateShut, hstatus] using hshut
    | activation => simpa only [GateShut, hactivations] using hshut
    | consent => simpa only [GateShut, mostRecentRecord_congr hconsents] using hshut
    | purpose => simpa only [GateShut, hdecisions] using hshut

/-- **A shut gate stays shut** along every step that does not reopen it. -/
theorem shut_persists {deps : Deps} {s : System} {a : Label} {now : Instant}
    {p : DispatchProviderRequestParams} {adapter : ProviderAdapter} {g : Gate}
    (hshut : GateShut s.db now p adapter g) (ha : ¬ a.reopens p adapter g) :
    GateShut (step deps s a).db now p adapter g := by
  cases htouch : a.touchesAccess with
  | false => exact hshut.congr (step_sameAccess htouch)
  | true =>
    cases a with
    | dispatch d env => exact shut_of_dispatchStep hshut
    | grantConsent record =>
      simp only [step, System.tryDb]
      cases hgrant : grantForCase s.db record with
      | error e => exact hshut
      | ok db' =>
        cases g with
        | consent =>
          have hother : ¬ (record.tenantId = p.tenantId ∧ record.caseId = p.caseId) :=
            fun hcase => ha ⟨rfl, hcase.1, hcase.2⟩
          intro c hc
          exact hshut c (by rwa [mostRecentRecord_grant hgrant hother] at hc)
        | _ =>
          obtain ⟨consents, -, rfl⟩ := grantForCase_ok hgrant
          exact hshut
    | revokeConsent env tenantId caseId reason =>
      simp only [step, System.tryDb]
      cases hrevoke : revokeConsent s.db env tenantId caseId reason with
      | error e => exact hshut
      | ok db' =>
        cases g with
        | consent => exact consent_shut_of_revoke hrevoke hshut
        | _ =>
          obtain ⟨active, tasks, -, -, rfl⟩ := revokeConsent_ok hrevoke
          exact hshut
    | decidePurpose decision =>
      cases g with
      | purpose =>
        refine purpose_shut_of_decided (fun d hd hid => ?_) hshut
        -- the new row has another id than the supplied decision
        refine mem_upsert.mpr (Or.inr ⟨hd, fun hsame => ha ⟨rfl, ?_⟩⟩)
        rw [hid, hsame]
      | _ => exact hshut
    | setAdapterStatus status =>
      cases g with
      | killSwitch =>
        obtain ⟨row, hrow, hkey, hstate⟩ := hshut
        by_cases hsame : row.key = status.key
        · -- a row written over the switch is not `ACTIVE`, so it is `DISABLED`
          refine ⟨status, mem_upsert.mpr (Or.inl rfl), hsame ▸ hkey, ?_⟩
          cases hstatus : status.state with
          | DISABLED => rfl
          | ACTIVE => exact absurd ⟨rfl, hsame ▸ hkey, hstatus⟩ ha
        · exact ⟨row, mem_upsert.mpr (Or.inr ⟨hrow, hsame⟩), hkey, hstate⟩
      | _ => exact hshut
    | setActivation activation =>
      cases g with
      | activation =>
        refine ⟨hshut.1, fun row hrow hkey => ?_⟩
        rcases mem_upsert.mp hrow with rfl | ⟨hold, -⟩
        · cases hstate : row.state with
          | DEACTIVATED => rfl
          | ACTIVE => exact absurd ⟨rfl, hkey, hstate⟩ ha
        · exact hshut.2 row hold hkey
      | _ => exact hshut
    | _ => cases htouch

/-! ## In front of a shut gate -/

theorem isActive_of_shut {db : Db} {now : Instant} {p : DispatchProviderRequestParams}
    {adapter : ProviderAdapter} (hshut : GateShut db now p adapter .killSwitch) :
    isActive db adapter.providerId p.capability p.mode = false := by
  obtain ⟨row, hrow, hkey, hstate⟩ := hshut
  rw [isActive, db.adapterStatus.find_eq_some_iff.mpr ⟨hrow, hkey⟩]
  simp [hstate]

theorem isActivated_of_shut {db : Db} {now : Instant} {p : DispatchProviderRequestParams}
    {adapter : ProviderAdapter} (hshut : GateShut db now p adapter .activation) :
    isActivated db adapter.providerId p.capability p.mode = false := by
  rw [isActivated]
  split
  · rfl
  · next row hrow =>
    obtain ⟨hmem, hkey⟩ := db.activations.find_eq_some_iff.mp hrow
    simp [hshut.2 row hmem hkey]

theorem activeRecord_of_shut {db : Db} {now now' : Instant} {p : DispatchProviderRequestParams}
    {adapter : ProviderAdapter} (hshut : GateShut db now p adapter .consent) (hnow : now ≤ now') :
    activeRecordForPurpose db now' p.tenantId p.caseId p.purposeCode p.permittedDataClasses
      = none := by
  rw [activeRecordForPurpose, Option.filter_eq_none_iff]
  intro c hc hvalid
  obtain ⟨hforce, hcovers⟩ := Bool.and_eq_true_iff.mp hvalid
  obtain ⟨hunrevoked, hunexpired⟩ := Bool.and_eq_true_iff.mp hforce
  rcases hshut c hc with hrevoked | ⟨t, ht, hle⟩ | hmissing
  · rw [Option.isNone_iff_eq_none] at hunrevoked
    rw [hunrevoked] at hrevoked
    cases hrevoked
  · have hexpired : t ≤ now' := le_trans hle hnow
    simp [ht, hexpired] at hunexpired
  · rw [hmissing] at hcovers
    cases hcovers

theorem validatePurpose_of_shut {db : Db} {now now' : Instant}
    {p : DispatchProviderRequestParams} {adapter : ProviderAdapter}
    (hshut : GateShut db now p adapter .purpose) (hnow : now ≤ now') {id : Uuid}
    (hid : p.permissiblePurposeDecisionId = some id) :
    ∃ reason, validatePurpose db now' id p.purposeContext = some reason := by
  obtain ⟨-, decision, hmem, hdecision, hrefused⟩ := hshut
  obtain rfl : id = decision.id := Option.some.inj (hid.symm.trans hdecision)
  rw [validatePurpose, db.decisions.find_eq_some_iff.mpr ⟨hmem, rfl⟩]
  dsimp only
  split
  · exact ⟨_, rfl⟩
  next hscope =>
  split
  · exact ⟨_, rfl⟩
  split
  · exact ⟨_, rfl⟩
  next hcurrent =>
  split
  · exact ⟨_, rfl⟩
  next hmode =>
  -- every check passed, so the decision is current and about this request
  exfalso
  rcases hrefused with hrevoked | hexpired | hcontext
  · exact hcurrent (Or.inl hrevoked)
  · exact hcurrent (Or.inr (le_trans hexpired hnow))
  · push Not at hscope
    obtain ⟨htenant, hcase, hborrower, hcapability, hcode, hclasses⟩ := hscope
    refine hcontext ⟨htenant, hcase, hborrower, hcapability, hcode, hclasses, fun hsynthetic => ?_⟩
    by_contra hlive
    exact hmode ⟨hsynthetic, hlive⟩

/-- The points of the dispatch `p` from which gate `g` has still to be passed. -/
def Waits (g : Gate) (p : DispatchProviderRequestParams) (adapter : ProviderAdapter) :
    DispatchState → Prop
  | .killSwitch p' adapter' => p' = p ∧ adapter' = adapter
  | .activation p' adapter' => p' = p ∧ adapter' = adapter ∧ g ≠ .killSwitch
  | .consent p' adapter' => p' = p ∧ adapter' = adapter ∧ g ≠ .killSwitch ∧ g ≠ .activation
  | .validatePurpose p' adapter' _ id =>
    p' = p ∧ adapter' = adapter ∧ g = .purpose ∧ p.permissiblePurposeDecisionId = some id
  | _ => False

/-- The call has thrown, or its process has died. -/
def DispatchState.Over : DispatchState → Prop
  | .finished (.error _) => True
  | .crashed => True
  | _ => False

/-- The reads that are left before the last gate. -/
def gateRank : DispatchState → Nat
  | .killSwitch _ _ => 4
  | .activation _ _ => 3
  | .consent _ _ => 2
  | .validatePurpose _ _ _ _ => 1
  | _ => 0

/-- **One read in front of a shut gate** writes nothing, and leads to the next read or out. -/
theorem waits_dispatchStep {deps : Deps} {db : Db} {env : Env} {now : Instant}
    {p : DispatchProviderRequestParams} {adapter : ProviderAdapter} {g : Gate}
    {state : DispatchState} (hshut : GateShut db now p adapter g) (hnow : now ≤ env.processNow)
    (h : Waits g p adapter state) :
    ∃ next, dispatchStep deps db env state = ⟨db, next, []⟩
      ∧ (Waits g p adapter next ∨ ∃ e, next = .finished (.error e))
      ∧ gateRank next < gateRank state := by
  cases state with
  | killSwitch p' adapter' =>
    obtain ⟨rfl, rfl⟩ := h
    simp only [dispatchStep]
    split
    · exact ⟨_, rfl, Or.inr ⟨_, rfl⟩, by simp [gateRank]⟩
    next hactive =>
    -- the switch is on, so it is another gate that is shut
    have hg : g ≠ .killSwitch := by
      rintro rfl
      rw [isActive_of_shut hshut] at hactive
      exact hactive rfl
    split
    · exact ⟨_, rfl, Or.inl ⟨rfl, rfl, hg⟩, by simp [gateRank]⟩
    next hmode =>
    have hg' : g ≠ .activation := by
      rintro rfl
      exact hmode hshut.1
    exact ⟨_, rfl, Or.inl ⟨rfl, rfl, hg, hg'⟩, by simp [gateRank]⟩
  | activation p' adapter' =>
    obtain ⟨rfl, rfl, hg⟩ := h
    simp only [dispatchStep]
    split
    · next hactivated =>
      have hg' : g ≠ .activation := by
        rintro rfl
        rw [isActivated_of_shut hshut] at hactivated
        cases hactivated
      exact ⟨_, rfl, Or.inl ⟨rfl, rfl, hg, hg'⟩, by simp [gateRank]⟩
    · exact ⟨_, rfl, Or.inr ⟨_, rfl⟩, by simp [gateRank]⟩
  | consent p' adapter' =>
    obtain ⟨rfl, rfl, hg, hg'⟩ := h
    simp only [dispatchStep]
    split
    · exact ⟨_, rfl, Or.inr ⟨_, rfl⟩, by simp [gateRank]⟩
    next record hrecord =>
    -- the consent is good: what is left is the decision of a consumer report
    obtain rfl : g = .purpose := by
      cases g with
      | killSwitch => exact absurd rfl hg
      | activation => exact absurd rfl hg'
      | consent =>
        rw [activeRecord_of_shut hshut hnow] at hrecord
        cases hrecord
      | purpose => rfl
    obtain ⟨hcredit, decision, -, hid, -⟩ := hshut
    refine ⟨_, rfl, Or.inl ?_, ?_⟩
    · rw [afterConsent, if_pos hcredit, hid]
      exact ⟨rfl, rfl, rfl, hid⟩
    · rw [afterConsent, if_pos hcredit, hid]
      simp [gateRank]
  | validatePurpose p' adapter' consentRecordId id =>
    obtain ⟨rfl, rfl, rfl, hid⟩ := h
    obtain ⟨reason, hreason⟩ := validatePurpose_of_shut hshut hnow hid
    simp only [dispatchStep, hreason]
    exact ⟨_, rfl, Or.inr ⟨_, rfl⟩, by simp [gateRank]⟩
  | _ => cases h

/-! ## Along a run -/

/-- The call `d` is over, or stands in front of its shut gate. -/
def Refusing (deps : Deps) (p : DispatchProviderRequestParams) (g : Gate) (now : Instant)
    (s : System) (d : Nat) : Prop :=
  (s.dispatches d).Over
    ∨ ∃ adapter, deps.registry p.capability p.mode = some adapter
      ∧ GateShut s.db now p adapter g ∧ Waits g p adapter (s.dispatches d)

/-- The transactions of call `d`, whether they commit or fail. -/
def Label.advances (d : Nat) : Label → Bool
  | .dispatch d' _ => d' = d
  | .storeFails d' => d' = d
  | _ => false

/-- What a step of a run must not do: reopen the gate, or let the call read an earlier clock. -/
structure KeepsShut (deps : Deps) (p : DispatchProviderRequestParams) (g : Gate) (now : Instant)
    (d : Nat) (a : Label) : Prop where
  closed : ∀ adapter, deps.registry p.capability p.mode = some adapter → ¬ a.reopens p adapter g
  clock : ∀ env, a = .dispatch d env → now ≤ env.processNow

/-- What one step does to a refusing call: it goes on refusing, nothing is written or submitted
in its name, and each of its own transactions brings it closer to its end. -/
structure RefusingStep (deps : Deps) (p : DispatchProviderRequestParams) (g : Gate)
    (now : Instant) (s : System) (d : Nat) (a : Label) : Prop where
  refusing : Refusing deps p g now (step deps s a) d
  silent : a.ofDispatch = some d →
    (step deps s a).db.intents = s.db.intents ∧ (step deps s a).log = s.log
  alive : a ≠ .crash d → s.dispatches d ≠ .crashed → (step deps s a).dispatches d ≠ .crashed
  rank : gateRank ((step deps s a).dispatches d)
    ≤ gateRank (s.dispatches d) - if a.advances d then 1 else 0

/-- A step that leaves the call where it is leaves it refusing. -/
theorem refusing_of_same {deps : Deps} {p : DispatchProviderRequestParams} {g : Gate}
    {now : Instant} {s : System} {d : Nat} {a : Label} (h : Refusing deps p g now s d)
    (ha : KeepsShut deps p g now d a) (hadvances : a.advances d = false)
    (hsame : (step deps s a).dispatches d = s.dispatches d)
    (hsilent : a.ofDispatch = some d →
      (step deps s a).db.intents = s.db.intents ∧ (step deps s a).log = s.log) :
    RefusingStep deps p g now s d a := by
  constructor
  · rcases h with hover | ⟨adapter, hadapter, hshut, hwaits⟩
    · exact Or.inl (hsame ▸ hover)
    · exact Or.inr ⟨adapter, hadapter, shut_persists hshut (ha.closed adapter hadapter),
        hsame ▸ hwaits⟩
  · exact hsilent
  · intro _ hcrashed
    rwa [hsame]
  · rw [hsame, hadvances]
    simp

/-- A call that is over stays where it is when it is moved again. -/
theorem over_dispatchStep {deps : Deps} {db : Db} {env : Env} {state : DispatchState}
    (h : state.Over) : dispatchStep deps db env state = ⟨db, state, []⟩ := by
  cases state with
  | finished result => rfl
  | crashed => rfl
  | _ => cases h

theorem gateRank_of_over {state : DispatchState} (h : state.Over) : gateRank state = 0 := by
  cases state with
  | finished result => rfl
  | crashed => rfl
  | _ => cases h

theorem refusing_not_awaiting {deps : Deps} {p : DispatchProviderRequestParams} {g : Gate}
    {now : Instant} {s : System} {d : Nat} (h : Refusing deps p g now s d) (env : Env)
    (outcome : SubmitOutcome) :
    dispatchReturn env outcome (s.dispatches d) = (s.dispatches d, []) := by
  rcases h with hover | ⟨adapter, -, -, hwaits⟩
  · cases hstate : s.dispatches d <;> rw [hstate] at hover <;> first | rfl | cases hover
  · cases hstate : s.dispatches d <;> rw [hstate] at hwaits <;> first | rfl | cases hwaits

theorem refusing_not_idle {deps : Deps} {p : DispatchProviderRequestParams} {g : Gate}
    {now : Instant} {s : System} {d : Nat} (h : Refusing deps p g now s d) :
    s.dispatches d ≠ .idle := by
  intro hidle
  rcases h with hover | ⟨adapter, -, -, hwaits⟩
  · rw [hidle] at hover; cases hover
  · rw [hidle] at hwaits; cases hwaits

/-- The next transaction of the refusing call itself. -/
theorem refusing_dispatch {deps : Deps} {p : DispatchProviderRequestParams} {g : Gate}
    {now : Instant} {s : System} {d : Nat} {env : Env} (h : Refusing deps p g now s d)
    (ha : KeepsShut deps p g now d (.dispatch d env)) :
    RefusingStep deps p g now s d (.dispatch d env) := by
  have hadvances : (Label.dispatch d env).advances d = true := by simp [Label.advances]
  -- wherever the call stands, its transaction writes no row and logs nothing
  have hmove : ∃ next, dispatchStep deps s.db env (s.dispatches d) = ⟨s.db, next, []⟩
      ∧ (next.Over ∨ ∃ adapter, deps.registry p.capability p.mode = some adapter
        ∧ GateShut s.db now p adapter g ∧ Waits g p adapter next)
      ∧ (s.dispatches d ≠ .crashed → next ≠ .crashed)
      ∧ gateRank next ≤ gateRank (s.dispatches d) - 1 := by
    rcases h with hover | ⟨adapter, hadapter, hshut, hwaits⟩
    · exact ⟨_, over_dispatchStep hover, Or.inl hover, id, by simp [gateRank_of_over hover]⟩
    · obtain ⟨next, hstep, hnext, hrank⟩ :=
        waits_dispatchStep hshut (ha.clock env rfl) hwaits
      refine ⟨next, hstep, ?_, ?_, by omega⟩
      · rcases hnext with hnext | ⟨e, rfl⟩
        · exact Or.inr ⟨adapter, hadapter, hshut, hnext⟩
        · exact Or.inl trivial
      · rintro - rfl
        rcases hnext with hnext | ⟨e, he⟩
        · cases hnext
        · cases he
  obtain ⟨next, hstep, hnext, halive, hrank⟩ := hmove
  have hs' : step deps s (.dispatch d env) = s.setDispatch d next := by
    simp only [step, hstep, List.append_nil]
  have hd : (step deps s (.dispatch d env)).dispatches d = next := by
    rw [hs']
    exact Function.update_self ..
  constructor
  · rw [Refusing, hd, hs']
    exact hnext
  · intro _
    rw [hs']
    exact ⟨rfl, rfl⟩
  · intro _ hcrashed
    rw [hd]
    exact halive hcrashed
  · rw [hd, hadvances]
    exact hrank

/-- **A call behind a shut gate goes on refusing**, whoever moves. -/
theorem refusing_step {deps : Deps} {p : DispatchProviderRequestParams} {g : Gate}
    {now : Instant} {s : System} {d : Nat} {a : Label} (h : Refusing deps p g now s d)
    (ha : KeepsShut deps p g now d a) : RefusingStep deps p g now s d a := by
  by_cases hown : a.ofDispatch = some d
  · cases a with
    | startDispatch d' p' =>
      obtain rfl : d' = d := Option.some.inj hown
      -- the slot is taken: nothing starts
      have hs' : step deps s (.startDispatch d' p') = s := by
        simp only [step]
        split
        · next hidle => exact absurd hidle (refusing_not_idle h)
        · rfl
      exact refusing_of_same h ha rfl (by rw [hs']) fun _ => by rw [hs']; exact ⟨rfl, rfl⟩
    | dispatch d' env =>
      obtain rfl : d' = d := Option.some.inj hown
      exact refusing_dispatch h ha
    | submitReturns d' env outcome =>
      obtain rfl : d' = d := Option.some.inj hown
      have hs' : step deps s (.submitReturns d' env outcome)
          = s.setDispatch d' (s.dispatches d') := by
        simp only [step, refusing_not_awaiting h env outcome, List.append_nil]
      refine refusing_of_same h ha rfl ?_ fun _ => by rw [hs']; exact ⟨rfl, rfl⟩
      rw [hs']
      exact Function.update_self ..
    | storeFails d' =>
      obtain rfl : d' = d := Option.some.inj hown
      -- the failure of a read is thrown to the caller; a call that is over stays over
      have hfailed : (dispatchStoreFails (s.dispatches d')).Over
          ∧ (s.dispatches d' ≠ .crashed → dispatchStoreFails (s.dispatches d') ≠ .crashed) := by
        rcases h with hover | ⟨adapter, -, -, hwaits⟩
        · cases hstate : s.dispatches d' <;> rw [hstate] at hover <;>
            first | exact ⟨hover, id⟩ | cases hover
        · cases hstate : s.dispatches d' <;> rw [hstate] at hwaits <;>
            first | exact absurd hwaits id | exact ⟨trivial, fun _ hcrashed => by cases hcrashed⟩
      have hd : (step deps s (.storeFails d')).dispatches d'
          = dispatchStoreFails (s.dispatches d') := Function.update_self ..
      constructor
      · exact Or.inl (hd ▸ hfailed.1)
      · exact fun _ => ⟨rfl, rfl⟩
      · intro _ hcrashed
        rw [hd]
        exact hfailed.2 hcrashed
      · rw [hd, gateRank_of_over hfailed.1]
        exact Nat.zero_le _
    | crash d' =>
      obtain rfl : d' = d := Option.some.inj hown
      have hd : (step deps s (.crash d')).dispatches d' = .crashed := Function.update_self ..
      constructor
      · exact Or.inl (hd ▸ trivial)
      · exact fun _ => ⟨rfl, rfl⟩
      · exact fun hcrash => absurd rfl hcrash
      · rw [hd]
        exact Nat.zero_le _
    | _ => cases hown
  · have hadvances : a.advances d = false := by
      cases a with
      | dispatch d' env => exact decide_eq_false fun hd => hown (by rw [hd]; rfl)
      | storeFails d' => exact decide_eq_false fun hd => hown (by rw [hd]; rfl)
      | _ => rfl
    refine refusing_of_same h ha hadvances ?_ fun hown' => absurd hown' hown
    exact dispatch_frame deps d [a] (by simpa using hown)

/-- The transactions of call `d` use up the reads it has left. -/
theorem refusing_exec {deps : Deps} {p : DispatchProviderRequestParams} {g : Gate}
    {now : Instant} {d : Nat} {run : List Label} {s : System} (h : Refusing deps p g now s d)
    (hrun : ∀ a ∈ run, KeepsShut deps p g now d a) :
    Refusing deps p g now (exec (step deps) s run) d
      ∧ AllSteps (step deps) (fun t a => a.ofDispatch = some d →
          (step deps t a).db.intents = t.db.intents ∧ (step deps t a).log = t.log) s run
      ∧ (.crash d ∉ run → s.dispatches d ≠ .crashed →
          (exec (step deps) s run).dispatches d ≠ .crashed
          ∧ gateRank ((exec (step deps) s run).dispatches d)
            ≤ gateRank (s.dispatches d) - run.countP (Label.advances d)) := by
  induction run generalizing s with
  | nil => exact ⟨h, trivial, fun _ hcrashed => ⟨hcrashed, Nat.le_refl _⟩⟩
  | cons a run ih =>
    have hstep := refusing_step h (hrun a (List.mem_cons_self ..))
    obtain ⟨hend, hsilent, halive⟩ :=
      ih hstep.refusing fun b hb => hrun b (List.mem_cons_of_mem a hb)
    refine ⟨hend, ⟨hstep.silent, hsilent⟩, fun hcrash hcrashed => ?_⟩
    have hne : a ≠ .crash d := fun ha => hcrash (ha ▸ List.mem_cons_self ..)
    obtain ⟨hcrashed', hrank⟩ :=
      halive (fun hb => hcrash (List.mem_cons_of_mem a hb)) (hstep.alive hne hcrashed)
    refine ⟨hcrashed', ?_⟩
    have hrank' := hstep.rank
    rw [exec_cons, List.countP_cons]
    omega

/-- **The gates fail closed.** A dispatch that starts when one of its gates is shut, and whose
gate nobody reopens, never submits and never moves an intent, whatever the request is, whatever
intents exist and whoever else is at work. After its four reads at most it has thrown, unless its
process died. -/
theorem shut_gate_refuses (deps : Deps) (s : System) (d : Nat)
    (p : DispatchProviderRequestParams) (g : Gate) (now : Instant) (run : List Label)
    (hidle : s.dispatches d = .idle)
    (hshut : ∀ adapter, deps.registry p.capability p.mode = some adapter →
      GateShut s.db now p adapter g)
    (hrun : ∀ a ∈ run, KeepsShut deps p g now d a) :
    let s' := exec (step deps) s (.startDispatch d p :: run)
    AllSteps (step deps) (fun t a => a.ofDispatch = some d →
        (step deps t a).db.intents = t.db.intents ∧ (step deps t a).log = t.log)
        s (.startDispatch d p :: run)
      ∧ (∀ result, s'.dispatches d = .finished result → ∃ e, result = .error e)
      ∧ (.crash d ∉ run → 4 ≤ run.countP (Label.advances d) →
          ∃ e, s'.dispatches d = .finished (.error e)) := by
  have hstart : step deps s (.startDispatch d p) = s.setDispatch d (dispatchStart deps p) := by
    simp only [step, hidle]
  have hd : (s.setDispatch d (dispatchStart deps p)).dispatches d = dispatchStart deps p :=
    Function.update_self ..
  -- the prologue throws, or the call stands before the kill switch
  have hfirst : Refusing deps p g now (s.setDispatch d (dispatchStart deps p)) d
      ∧ dispatchStart deps p ≠ .crashed := by
    rw [Refusing, hd]
    unfold dispatchStart
    split
    · exact ⟨Or.inl trivial, fun hcrashed => by cases hcrashed⟩
    next adapter hadapter =>
    split
    · exact ⟨Or.inl trivial, fun hcrashed => by cases hcrashed⟩
    · exact ⟨Or.inr ⟨adapter, hadapter, hshut adapter hadapter, rfl, rfl⟩,
        fun hcrashed => by cases hcrashed⟩
  obtain ⟨hend, hsilent, halive⟩ := refusing_exec hfirst.1 hrun
  intro s'
  have hs' : s' = exec (step deps) (s.setDispatch d (dispatchStart deps p)) run := by
    show exec (step deps) (step deps s (.startDispatch d p)) run = _
    rw [hstart]
  refine ⟨⟨fun _ => ?_, ?_⟩, ?_, ?_⟩
  · rw [hstart]
    exact ⟨rfl, rfl⟩
  · rwa [hstart]
  · intro result hresult
    rw [← hs'] at hend
    rcases hend with hover | ⟨adapter, -, -, hwaits⟩
    · rw [hresult] at hover
      cases result with
      | error e => exact ⟨e, rfl⟩
      | ok finding => cases hover
    · rw [hresult] at hwaits
      cases hwaits
  · intro hcrash hsteps
    obtain ⟨hcrashed, hrank⟩ := halive hcrash (by rw [hd]; exact hfirst.2)
    rw [← hs'] at hend hcrashed hrank
    have hrank4 : gateRank ((s.setDispatch d (dispatchStart deps p)).dispatches d) ≤ 4 := by
      cases (s.setDispatch d (dispatchStart deps p)).dispatches d <;> simp [gateRank]
    have hzero : gateRank (s'.dispatches d) = 0 := by omega
    rcases hend with hover | ⟨adapter, -, -, hwaits⟩
    · cases hstate : s'.dispatches d with
      | finished result =>
        rw [hstate] at hover
        cases result with
        | error e => exact ⟨e, rfl⟩
        | ok finding => cases hover
      | crashed => exact absurd hstate hcrashed
      | _ => rw [hstate] at hover; cases hover
    · cases hstate : s'.dispatches d <;> rw [hstate] at hwaits hzero <;>
        first | exact absurd hwaits id | cases hzero

/-- The borrower of `consentedDb` has revoked, after one dispatch has prepared intent 20. -/
def revokedSystem : System :=
  exec (step incomeDeps) (System.init consentedDb)
    (untilMarkDispatched ++ [.revokeConsent (envAt 30) 1 3 none])

/-- A second dispatch of the same operation finds the consent revoked. -/
theorem shut_gate_refuses_revoked :
    (mostRecentRecord revokedSystem.db 1 3).any (·.revokedAt.isSome) = true
      ∧ ∃ e, (exec (step incomeDeps) revokedSystem
          (.startDispatch 1 incomeRequest :: runs 1 4 21)).dispatches 1 = .finished (.error e) := by
  have hrevoked : (mostRecentRecord revokedSystem.db 1 3).all (·.revokedAt.isSome) = true := by
    decide
  refine ⟨by decide, (shut_gate_refuses incomeDeps revokedSystem 1 incomeRequest .consent
    1786795200000 (runs 1 4 21) ?_ ?_ ?_).2.2 ?_ ?_⟩
  · rfl
  · intro adapter _ c hc
    have hc' : mostRecentRecord revokedSystem.db 1 3 = some c := hc
    rw [hc'] at hrevoked
    exact Or.inl hrevoked
  · intro a ha
    obtain rfl := List.eq_of_mem_replicate ha
    refine ⟨fun adapter _ => id, fun env henv => ?_⟩
    cases henv
    exact le_refl _
  · intro ha
    cases List.eq_of_mem_replicate ha
  · decide

end MortgageAgent.Provider
