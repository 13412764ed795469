import MortgageAgent.Webhook.Endpoint

/-!
# Endpoints that are edited at once

A save writes the row as the call loaded it, and what other calls have committed in between is
gone: a revocation, or the attempts counted in the rate window.

* **`FreshSave`** — the save of an `update` finds status and rate window as the call loaded them.
* **`disabled_step`**, **`updateKeepsCounters`** — what a step with a fresh save keeps.
* **`edits_keep`** — in every run whose saves are fresh, a disabled endpoint stays disabled and no
  `update` takes back what was counted.

`stale_update_overwrites` has a run on which an `update` revives an endpoint, and one on which it
clears a window.
-/

namespace MortgageAgent.Webhook

open Runs

def EndpointSystem.statusOf (s : EndpointSystem) (id : Uuid) : Option WebhookEndpointStatus :=
  (s.endpoints.find id).map WebhookEndpoint.status

/-- The window is not set back, and its count does not fall. -/
def NotDecreased (before after : WebhookEndpoint) : Prop :=
  ∀ t, before.rateWindowStartedAt = some t →
    ∃ t', after.rateWindowStartedAt = some t'
      ∧ (t < t' ∨ (t = t' ∧ before.rateWindowAttempts ≤ after.rateWindowAttempts))

/-- The save of an `update` takes back nothing of what was counted for the endpoint. -/
def UpdateKeepsCounters (s : EndpointSystem) (a : EndpointLabel) : Prop :=
  ∀ c env dto loaded, a = .edit c env → s.edits c = .savingUpdate dto loaded →
    ∀ before, s.endpoints.find loaded.id = some before →
      ∃ after, (endpointStep s a).endpoints.find loaded.id = some after ∧ NotDecreased before after

/-- The row has the status and the rate window it had when it was loaded. -/
def WebhookEndpoint.SameState (row loaded : WebhookEndpoint) : Prop :=
  row.status = loaded.status ∧ row.rateWindowStartedAt = loaded.rateWindowStartedAt
    ∧ row.rateWindowAttempts = loaded.rateWindowAttempts

instance (row loaded : WebhookEndpoint) : Decidable (row.SameState loaded) := by
  unfold WebhookEndpoint.SameState
  infer_instance

/-- An `update` saves over the status and the rate window that it loaded. -/
def FreshSave (s : EndpointSystem) : EndpointLabel → Bool
  | .edit c _ =>
    match s.edits c with
    | .savingUpdate _ loaded => (s.endpoints.find loaded.id).all fun row => row.SameState loaded
    | _ => true
  | _ => true

theorem sameState_of_freshSave {s : EndpointSystem} {c : Nat} {env : EditEnv}
    {dto : UpdateWebhookEndpointDto} {loaded row : WebhookEndpoint}
    (hfresh : FreshSave s (.edit c env) = true) (hedit : s.edits c = .savingUpdate dto loaded)
    (hrow : s.endpoints.find loaded.id = some row) : row.SameState loaded := by
  rw [FreshSave, hedit] at hfresh
  have hall : (s.endpoints.find loaded.id).all (fun row => row.SameState loaded) = true := hfresh
  rw [hrow] at hall
  simpa using hall

/-! ## Statuses -/

/-- A reservation changes the rate window of one row, and no status. -/
theorem statusOf_reserve (s : EndpointSystem) (tenantId endpointId : Uuid) (now : Instant)
    (id : Uuid) :
    (endpointStep s (.reserve tenantId endpointId now)).statusOf id = s.statusOf id := by
  show ((reserveOutboundAttempt s.endpoints tenantId endpointId now).1.find id).map _ = _
  unfold reserveOutboundAttempt
  cases hfind : findEndpoint s.endpoints tenantId endpointId with
  | none => rfl
  | some e =>
    obtain ⟨hfound, -⟩ := Option.filter_eq_some_iff.mp hfind
    obtain ⟨hmem, -⟩ := s.endpoints.find_eq_some_iff.mp hfound
    dsimp only
    split
    · rw [Table.find_put]
      split
      · next hid =>
        have hrow : s.endpoints.find id = some e := s.endpoints.find_eq_some_iff.mpr ⟨hmem, hid.symm⟩
        simp [EndpointSystem.statusOf, hrow, WebhookEndpoint.counted]
      · rfl
    · rfl

/-- A new row has an id that no row had. -/
theorem statusOf_insert {endpoints endpoints' : Endpoints} {e : WebhookEndpoint} {id : Uuid}
    {status : WebhookEndpointStatus} (hinsert : endpoints.insert e = some endpoints')
    (hid : (endpoints.find id).map WebhookEndpoint.status = some status) :
    (endpoints'.find id).map WebhookEndpoint.status = some status := by
  obtain ⟨row, hfind, -⟩ := Option.map_eq_some_iff.mp hid
  obtain ⟨hmem, hkey⟩ := endpoints.find_eq_some_iff.mp hfind
  have hne : id ≠ e.id := by
    rintro rfl
    exact Table.key_fresh_of_insert hinsert row hmem hkey
  rw [Table.find_insert hinsert, if_neg hne]
  exact hid

/-- A save gives the row the status of the entity, and leaves the others alone. -/
theorem statusOf_put {endpoints : Endpoints} {e : WebhookEndpoint} {id : Uuid}
    (hid : (endpoints.find id).map WebhookEndpoint.status = some .DISABLED)
    (hsaved : ∀ row, endpoints.find e.id = some row → row.status = .DISABLED →
      e.status = .DISABLED) :
    ((endpoints.put e).find id).map WebhookEndpoint.status = some .DISABLED := by
  rw [Table.find_put]
  split
  · next heq =>
    subst heq
    obtain ⟨row, hfind, hstatus⟩ := Option.map_eq_some_iff.mp hid
    rw [hfind]
    exact congrArg some (hsaved row hfind hstatus)
  · exact hid

/-- **A disabled endpoint stays disabled** in a step whose save is fresh. -/
theorem disabled_step (s : EndpointSystem) (a : EndpointLabel) (hfresh : FreshSave s a = true)
    {id : Uuid} (hid : s.statusOf id = some .DISABLED) :
    (endpointStep s a).statusOf id = some .DISABLED := by
  cases a with
  | start c call blocked =>
    simp only [endpointStep]
    split <;> exact hid
  | editFails c => exact hid
  | reserve tenantId endpointId now =>
    rw [statusOf_reserve]
    exact hid
  | edit c env =>
    show ((editStep s.endpoints env (s.edits c)).1.find id).map _ = _
    cases hedit : s.edits c with
    | idle => exact hid
    | finished result => exact hid
    | loading call =>
      cases call with
      | create tenantId dto =>
        simp only [editStep]
        split
        · exact hid
        · next endpoints' hinsert => exact statusOf_insert hinsert hid
      | update tenantId id' dto =>
        simp only [editStep]
        split <;> exact hid
      | disable tenantId id' =>
        simp only [editStep]
        split <;> exact hid
    | savingUpdate dto loaded =>
      refine statusOf_put (e := dto.apply loaded) hid fun row hrow hdisabled => ?_
      have hsame := sameState_of_freshSave hfresh hedit hrow
      exact hsame.1.symm.trans hdisabled
    | savingDisable loaded => exact statusOf_put (e := loaded.disabled) hid fun _ _ _ => rfl

/-! ## Counters -/

theorem NotDecreased.refl (e : WebhookEndpoint) : NotDecreased e e :=
  fun t ht => ⟨t, ht, Or.inr ⟨rfl, le_refl _⟩⟩

/-- A save over the window that was loaded leaves it as it is. -/
theorem updateKeepsCounters (s : EndpointSystem) (a : EndpointLabel)
    (hfresh : FreshSave s a = true) : UpdateKeepsCounters s a := by
  rintro c env dto loaded rfl hedit before hbefore
  have hsame := sameState_of_freshSave hfresh hedit hbefore
  refine ⟨dto.apply loaded, ?_, ?_⟩
  · have hput : (endpointStep s (.edit c env)).endpoints = s.endpoints.put (dto.apply loaded) := by
      simp [endpointStep, hedit, editStep, EndpointSystem.setEdit]
    rw [hput, Table.find_put, hbefore]
    exact if_pos rfl
  · have hstart : (dto.apply loaded).rateWindowStartedAt = before.rateWindowStartedAt :=
      hsame.2.1.symm
    have hcount : (dto.apply loaded).rateWindowAttempts = before.rateWindowAttempts :=
      hsame.2.2.symm
    intro t ht
    exact ⟨t, hstart.trans ht, Or.inr ⟨rfl, hcount.ge⟩⟩

/-- **Revocations and counts survive the edits.** In every interleaving of `create`, `update`,
`disable` and reservations whose updates save over the status and the rate window they loaded, an
endpoint that has become disabled never is active again, and no `update` takes back what was
counted. -/
theorem edits_keep (endpoints : Endpoints) (run : List EndpointLabel)
    (h : AllSteps endpointStep (fun s a => FreshSave s a = true) (.init endpoints) run) :
    AllSteps endpointStep UpdateKeepsCounters (.init endpoints) run
      ∧ ∀ before after id, run = before ++ after →
        (exec endpointStep (.init endpoints) before).statusOf id = some .DISABLED →
        (exec endpointStep (.init endpoints) run).statusOf id ≠ some .ACTIVE := by
  refine ⟨h.imp updateKeepsCounters, ?_⟩
  rintro before after id rfl hid
  rw [exec_append]
  have hdisabled := exec_inv_of_allSteps (I := fun s : EndpointSystem => s.statusOf id = some .DISABLED)
    (fun s a hs hfresh => disabled_step s a hfresh hs) hid h.of_append_right
  rw [hdisabled]
  nofun

/-! ### One endpoint -/

def partnerEndpoint : WebhookEndpoint where
  id := 1
  tenantId := 9
  targetUrl := "https://partner.example.com/webhooks/mortgage-agent"
  secret := "00ff"
  eventTypes := ["loan_case.created"]
  status := .ACTIVE
  outboundRateLimitPerMinute := 60
  rateWindowStartedAt := none
  rateWindowAttempts := 0

def partnerEndpoints : Endpoints := ⟨[partnerEndpoint], by decide⟩

def editEnv : EditEnv where
  newId := 2
  secret := "11ee"

/-- A new limit, and nothing else. -/
def limitDto : UpdateWebhookEndpointDto where
  targetUrl := none
  eventTypes := none
  outboundRateLimitPerMinute := some 30

/-- Call 0 loads the row for a new limit. -/
def loadedUpdate : List EndpointLabel := [.start 0 (.update 9 1 limitDto) none, .edit 0 editEnv]

/-- Call 1 disables the endpoint. -/
def disableRun : List EndpointLabel :=
  [.start 1 (.disable 9 1) none, .edit 1 editEnv, .edit 1 editEnv]

theorem edits_keep_oneAfterTheOther :
    AllSteps endpointStep (fun s a => FreshSave s a = true) (.init partnerEndpoints)
        (.reserve 9 1 1786795200000 :: loadedUpdate ++ .edit 0 editEnv :: disableRun)
      ∧ (exec endpointStep (.init partnerEndpoints)
        (.reserve 9 1 1786795200000 :: loadedUpdate ++ .edit 0 editEnv :: disableRun)).statusOf 1
        ≠ some .ACTIVE :=
  ⟨by decide, (edits_keep partnerEndpoints _ (by decide)).2
    (.reserve 9 1 1786795200000 :: loadedUpdate ++ .edit 0 editEnv :: disableRun) [] 1
    (List.append_nil _).symm (by decide)⟩

/-- **A late save revives a disabled endpoint**, and **a late save clears the window** of an
attempt that was reserved after the load. -/
theorem stale_update_overwrites :
    (¬ ∀ (endpoints : Endpoints) (before after : List EndpointLabel) (id : Uuid),
      (exec endpointStep (.init endpoints) before).statusOf id = some .DISABLED →
      (exec endpointStep (.init endpoints) (before ++ after)).statusOf id ≠ some .ACTIVE)
    ∧ ¬ ∀ (endpoints : Endpoints) (run : List EndpointLabel),
      AllSteps endpointStep UpdateKeepsCounters (.init endpoints) run := by
  constructor
  · intro h
    exact h partnerEndpoints (loadedUpdate ++ disableRun) [.edit 0 editEnv] 1 (by decide) (by decide)
  · intro h
    have hlast := (h partnerEndpoints
      ((loadedUpdate ++ [.reserve 9 1 1786795200000]) ++ [.edit 0 editEnv])).of_append_right
    have hcounted : (exec endpointStep (.init partnerEndpoints)
        (loadedUpdate ++ [.reserve 9 1 1786795200000])).endpoints.find 1
        = some (partnerEndpoint.counted 1786795200000) := by decide
    obtain ⟨after, hafter, hkept⟩ :=
      hlast.1 0 editEnv limitDto partnerEndpoint rfl rfl _ hcounted
    obtain ⟨t, ht, -⟩ := hkept 1786795200000 rfl
    -- the row is the one that was loaded, with the new limit and no window.
    have hsaved : (endpointStep (exec endpointStep (.init partnerEndpoints)
        (loadedUpdate ++ [.reserve 9 1 1786795200000])) (.edit 0 editEnv)).endpoints.find 1
        = some (limitDto.apply partnerEndpoint) := by decide
    have heq : after = limitDto.apply partnerEndpoint := Option.some.inj (hafter.symm.trans hsaved)
    rw [heq] at ht
    cases ht

end MortgageAgent.Webhook
