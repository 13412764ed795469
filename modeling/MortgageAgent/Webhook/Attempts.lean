import MortgageAgent.Webhook.FanOut

/-!
# The attempts of a delivery

An attempt is computed from the delivery as the scan read it, and written back by id. Where two
executions attempt one delivery at once, the second write is of a list that does not have the
first attempt, and of a status that does not know it.

* **`DeliveryOk`** — attempts numbered from 1, at most five, all but the last failed, and the status
  the last one gives.
* **`AttemptAlone`** — an attempt finds the delivery as the scan read it, and no other execution
  between an attempt on it and the write.
* **`AttemptInv`** — then every execution about to write writes after what is stored.
* **`attempts_recorded`** — over every run whose attempts are alone: every POST is recorded, there
  are at most five, and what is final stays.

`overlapping_attempts_lost` has two executions attempt one delivery.
-/

namespace MortgageAgent.Webhook

open Runs

/-! ## One delivery -/

/-- The status a list of attempts stands for. -/
def statusOf (attempts : List WebhookDeliveryAttempt) : WebhookDeliveryStatus :=
  match attempts.getLast? with
  | none => .PENDING
  | some last => statusAfter last

structure DeliveryOk (d : WebhookDelivery) : Prop where
  numbered : d.attempts.map WebhookDeliveryAttempt.attemptNumber = List.range' 1 d.attempts.length
  bounded : d.attempts.length ≤ maxAttempts
  failedBefore : ∀ a ∈ d.attempts.dropLast, a.outcome = .FAILED
  status : d.status = statusOf d.attempts

theorem statusAfter_eq_pending {a : WebhookDeliveryAttempt} (h : statusAfter a = .PENDING) :
    a.outcome = .FAILED ∧ a.attemptNumber < maxAttempts := by
  unfold statusAfter at h
  split at h
  · cases h
  · next hnot =>
    split at h
    · cases h
    · next hnumber =>
      refine ⟨?_, by omega⟩
      cases houtcome : a.outcome with
      | FAILED => rfl
      | SUCCEEDED => exact absurd houtcome hnot

/-- The number of the last attempt is their count. -/
theorem DeliveryOk.last_number {d : WebhookDelivery} (h : DeliveryOk d)
    {init : List WebhookDeliveryAttempt} {last : WebhookDeliveryAttempt}
    (hsplit : d.attempts = init ++ [last]) : last.attemptNumber = d.attempts.length := by
  have hnumbered := h.numbered
  rw [hsplit] at hnumbered ⊢
  rw [List.map_append, List.length_append, List.length_singleton, List.range'_concat] at hnumbered
  have hlast := List.append_inj_right' hnumbered rfl
  have hnumber : last.attemptNumber = 1 + 1 * init.length := by simpa using hlast
  rw [hnumber, List.length_append, List.length_singleton]
  omega

/-- While a delivery is pending all its attempts have failed, and there is room for one more. -/
theorem DeliveryOk.pending {d : WebhookDelivery} (h : DeliveryOk d) (hpending : d.status = .PENDING) :
    (∀ a ∈ d.attempts, a.outcome = .FAILED) ∧ d.attempts.length < maxAttempts := by
  have hstatus := h.status
  rw [hpending] at hstatus
  rcases List.eq_nil_or_concat d.attempts with hnil | ⟨init, last, hsplit⟩
  · rw [hnil]
    exact ⟨nofun, by decide⟩
  · rw [List.concat_eq_append] at hsplit
    have hlast : statusAfter last = .PENDING := by
      rw [hsplit, statusOf, List.getLast?_concat] at hstatus
      exact hstatus.symm
    obtain ⟨hfailed, hnumber⟩ := statusAfter_eq_pending hlast
    have hbefore := h.failedBefore
    rw [hsplit, List.dropLast_concat] at hbefore
    refine ⟨?_, h.last_number hsplit ▸ hnumber⟩
    intro a ha
    rw [hsplit] at ha
    rcases List.mem_append.mp ha with hinit | hend
    · exact hbefore a hinit
    · rw [List.mem_singleton.mp hend]
      exact hfailed

/-- **One more attempt on a pending delivery.** -/
theorem DeliveryOk.settle {d scanned : WebhookDelivery} {now : Instant}
    {attempt : WebhookDeliveryAttempt} (h : DeliveryOk d) (hpending : d.status = .PENDING)
    (hattempts : d.attempts = scanned.attempts)
    (hnumber : attempt.attemptNumber = scanned.attempts.length + 1) :
    DeliveryOk (Webhook.settle now scanned attempt d) := by
  obtain ⟨hfailed, hroom⟩ := h.pending hpending
  have hnumbered := h.numbered
  rw [hattempts] at hfailed hroom hnumbered
  refine ⟨?_, ?_, ?_, ?_⟩
  · show (scanned.attempts ++ [attempt]).map _ = List.range' 1 (scanned.attempts ++ [attempt]).length
    rw [List.map_append, hnumbered, List.length_append, List.length_singleton, List.range'_concat]
    simp only [List.map_cons, List.map_nil, hnumber]
    congr 2
    omega
  · show (scanned.attempts ++ [attempt]).length ≤ maxAttempts
    rw [List.length_append, List.length_singleton]
    omega
  · show ∀ a ∈ (scanned.attempts ++ [attempt]).dropLast, a.outcome = .FAILED
    rw [List.dropLast_concat]
    exact hfailed
  · show statusAfter attempt = Webhook.statusOf (scanned.attempts ++ [attempt])
    rw [Webhook.statusOf, List.getLast?_concat]

/-! ## What is asked of the attempts -/

def System.postsOf (s : System) (deliveryId : Uuid) : List Post :=
  s.posts.filter fun p => p.deliveryId = deliveryId

/-- Every POST of the delivery is among its attempts, in order; the last one may still be on its
way there. -/
def System.RecordsPosts (s : System) (d : WebhookDelivery) : Prop :=
  ((s.postsOf d.id).map Post.attempt).Sublist d.attempts
    ∨ ∃ e tick delivery rest attempt, s.dispatches e = .writing tick delivery rest attempt
      ∧ delivery.id = d.id
      ∧ ((s.postsOf d.id).map Post.attempt).Sublist (d.attempts ++ [attempt])

structure System.AttemptsKept (s : System) : Prop where
  recorded : ∀ d ∈ s.db.deliveries.rows, s.RecordsPosts d
  atMostFive : ∀ deliveryId, (s.postsOf deliveryId).length ≤ maxAttempts

/-- A delivery that has succeeded, or finally failed, keeps its status and its attempts. -/
def FinalKept (deps : Deps) (s : System) (a : Label) : Prop :=
  ∀ d ∈ s.db.deliveries.rows, d.status ≠ .PENDING →
    ∃ d' ∈ (step deps s a).db.deliveries.rows,
      d'.id = d.id ∧ d'.status = d.status ∧ d'.attempts = d.attempts

/-- The row is still pending, with the attempts the scan read. -/
def DispatchDb.AsScanned (db : DispatchDb) (scanned : WebhookDelivery) : Bool :=
  (db.deliveries.find scanned.id).any fun d =>
    d.status = .PENDING && d.attempts = scanned.attempts

/-- An attempt finds the delivery as it was scanned, and nobody else between an attempt on it and
the write of that attempt. -/
def AttemptAlone (s : System) : Label → Bool
  | .dispatch e _ =>
    match s.dispatches e with
    | .posting _ delivery _ _ _ =>
      s.db.AsScanned delivery
        && (List.range s.started).all fun e' => !(s.dispatches e').writes delivery.id
    | _ => true
  | _ => true

/-- No execution ends between an attempt and the write of it. -/
def Recorded (s : System) : Label → Bool
  | .stop e =>
    match s.dispatches e with
    | .writing _ _ _ _ => false
    | _ => true
  | _ => true

/-! ## The invariant -/

/-- Rows a fan-out is about to insert are new. -/
def CreatesNew : DispatchState → Prop
  | .fanningOut _ _ _ _ _ created => ∀ d ∈ created, d.attempts = [] ∧ d.status = .PENDING
  | _ => True

/-- The stored row an execution about to write will write after. -/
def DispatchDb.WritesNext (db : DispatchDb) : DispatchState → Prop
  | .writing _ delivery _ attempt =>
    (∃ d ∈ db.deliveries.rows, d.id = delivery.id ∧ d.status = .PENDING
        ∧ d.attempts = delivery.attempts)
      ∧ attempt.attemptNumber = delivery.attempts.length + 1
  | _ => True

structure AttemptInv (s : System) : Prop where
  rows : ∀ d ∈ s.db.deliveries.rows, DeliveryOk d
  creates : ∀ e, CreatesNew (s.dispatches e)
  writers : ∀ e, s.db.WritesNext (s.dispatches e)
  alone : ∀ e e' deliveryId, (s.dispatches e).writes deliveryId = true →
    (s.dispatches e').writes deliveryId = true → e = e'
  started : ∀ e, s.started ≤ e → (s.dispatches e).over = true

theorem AttemptInv.lt_started {s : System} (h : AttemptInv s) {e : Nat} {deliveryId : Uuid}
    (hwrites : (s.dispatches e).writes deliveryId = true) : e < s.started := by
  by_contra hnot
  have hover := h.started e (by omega)
  cases hstate : s.dispatches e with
  | writing tick delivery rest attempt =>
    rw [hstate] at hover
    cases hover
  | _ =>
    rw [hstate] at hwrites
    cases hwrites

theorem writes_iff {state : DispatchState} {deliveryId : Uuid} :
    state.writes deliveryId = true ↔ ∃ tick delivery rest attempt,
      state = .writing tick delivery rest attempt ∧ delivery.id = deliveryId := by
  constructor
  · intro h
    cases state with
    | writing tick delivery rest attempt =>
      exact ⟨tick, delivery, rest, attempt, rfl, by simpa [DispatchState.writes] using h⟩
    | _ => cases h
  · rintro ⟨tick, delivery, rest, attempt, rfl, hid⟩
    simpa [DispatchState.writes] using hid

/-- What an execution is about to insert has ids that no row has. -/
theorem fresh_of_created {db db' : DispatchDb} {created : List WebhookDelivery}
    (h : db.insertDeliveries created = some db') {d : WebhookDelivery} (hd : d ∈ created) :
    ∀ old ∈ db.deliveries.rows, old.id ≠ d.id := by
  intro old hold hid
  have hnodup := db'.deliveries.nodup
  rw [(insertDeliveries_rows h).2, List.map_append] at hnodup
  exact (List.nodup_append.mp hnodup).2.2 _ (List.mem_map_of_mem hold) _ (List.mem_map_of_mem hd) hid

/-- The rows after a statement: those there were, perhaps deferred or settled, and new ones. -/
inductive RowOrigin (db : DispatchDb) (state : DispatchState) : WebhookDelivery → Prop where
  | created {tick : Tick} {event : OutboxEvent} {rest : List OutboxEvent}
      {found : List WebhookEndpoint} {created : List WebhookDelivery} {d : WebhookDelivery}
      (hstate : state = .fanningOut tick event rest found [] created) (h : d ∈ created)
      (hfresh : ∀ old ∈ db.deliveries.rows, old.id ≠ d.id) : RowOrigin db state d
  | kept {d d' : WebhookDelivery} (h : d ∈ db.deliveries.rows) (hid : d'.id = d.id)
      (hstatus : d'.status = d.status) (hattempts : d'.attempts = d.attempts)
      (hother : state.writes d.id = false) : RowOrigin db state d'
  | settled {tick : Tick} {delivery d : WebhookDelivery} {rest : List WebhookDelivery}
      {attempt : WebhookDeliveryAttempt} (hstate : state = .writing tick delivery rest attempt)
      (h : d ∈ db.deliveries.rows) (hid : d.id = delivery.id) :
      RowOrigin db state (Webhook.settle tick.now delivery attempt d)

/-- **Where a row comes from.** -/
theorem DbEffect.rowOrigin {db db' : DispatchDb} {state : DispatchState}
    (h : DbEffect db state db') {d : WebhookDelivery} (hd : d ∈ db'.deliveries.rows) :
    RowOrigin db state d := by
  cases h with
  | same _ hno => exact .kept hd rfl rfl rfl (hno d.id)
  | created tick event rest found created db' h =>
    have hrows := hd
    rw [(insertDeliveries_rows h).2] at hrows
    rcases List.mem_append.mp hrows with hold | hnew
    · exact .kept hold rfl rfl rfl rfl
    · exact .created rfl hnew (fresh_of_created h hnew)
  | published tick event rest found => exact .kept hd rfl rfl rfl rfl
  | deferred tick delivery rest =>
    obtain ⟨old, hold, rfl⟩ := List.mem_map.mp hd
    split <;> exact .kept hold rfl rfl rfl rfl
  | settled tick delivery rest attempt =>
    obtain ⟨old, hold, rfl⟩ := List.mem_map.mp hd
    split
    · next hid => exact .settled rfl hold hid
    · next hid => exact .kept hold rfl rfl rfl (by simpa [DispatchState.writes] using Ne.symm hid)

/-- Where a row goes to: it stays, unless it is the one whose attempt is written. -/
theorem DbEffect.rowKept {db db' : DispatchDb} {state : DispatchState} (h : DbEffect db state db')
    {d : WebhookDelivery} (hd : d ∈ db.deliveries.rows) (hother : state.writes d.id = false) :
    ∃ d' ∈ db'.deliveries.rows, d'.id = d.id ∧ d'.status = d.status ∧ d'.attempts = d.attempts := by
  cases h with
  | same => exact ⟨d, hd, rfl, rfl, rfl⟩
  | created tick event rest found created db' h =>
    refine ⟨d, ?_, rfl, rfl, rfl⟩
    rw [(insertDeliveries_rows h).2]
    exact List.mem_append_left _ hd
  | published tick event rest found => exact ⟨d, hd, rfl, rfl, rfl⟩
  | deferred tick delivery rest =>
    refine ⟨_, List.mem_map_of_mem hd, ?_⟩
    split <;> exact ⟨rfl, rfl, rfl⟩
  | settled tick delivery rest attempt =>
    refine ⟨_, List.mem_map_of_mem hd, ?_⟩
    have hne : ¬ d.id = delivery.id := by
      intro hid
      simp [DispatchState.writes, hid] at hother
    rw [if_neg hne]
    exact ⟨rfl, rfl, rfl⟩

/-- Every row stays, under its id and for its endpoint. -/
theorem DbEffect.endpointKept {db db' : DispatchDb} {state : DispatchState}
    (h : DbEffect db state db') {d : WebhookDelivery} (hd : d ∈ db.deliveries.rows) :
    ∃ d' ∈ db'.deliveries.rows, d'.id = d.id ∧ d'.webhookEndpointId = d.webhookEndpointId := by
  cases h with
  | same => exact ⟨d, hd, rfl, rfl⟩
  | created tick event rest found created db' h =>
    refine ⟨d, ?_, rfl, rfl⟩
    rw [(insertDeliveries_rows h).2]
    exact List.mem_append_left _ hd
  | published tick event rest found => exact ⟨d, hd, rfl, rfl⟩
  | deferred tick delivery rest =>
    refine ⟨_, List.mem_map_of_mem hd, ?_⟩
    split <;> exact ⟨rfl, rfl⟩
  | settled tick delivery rest attempt =>
    refine ⟨_, List.mem_map_of_mem hd, ?_⟩
    split <;> exact ⟨rfl, rfl⟩

theorem DbEffect.idKept {db db' : DispatchDb} {state : DispatchState} (h : DbEffect db state db')
    {d : WebhookDelivery} (hd : d ∈ db.deliveries.rows) : ∃ d' ∈ db'.deliveries.rows, d'.id = d.id := by
  obtain ⟨d', hd', hid, -⟩ := h.endpointKept hd
  exact ⟨d', hd', hid⟩

theorem AttemptInv.writer_row {s : System} (h : AttemptInv s) {e : Nat} {tick : Tick}
    {delivery d : WebhookDelivery} {rest : List WebhookDelivery} {attempt : WebhookDeliveryAttempt}
    (hstate : s.dispatches e = .writing tick delivery rest attempt)
    (hd : d ∈ s.db.deliveries.rows) (hid : d.id = delivery.id) :
    d.status = .PENDING ∧ d.attempts = delivery.attempts
      ∧ attempt.attemptNumber = delivery.attempts.length + 1 := by
  have hwrites := h.writers e
  rw [hstate] at hwrites
  obtain ⟨⟨row, hrow, hrowId, hpending, hattempts⟩, hnumber⟩ := hwrites
  have hsame : d = row := s.db.deliveries.eq_of_key_eq hd hrow (hid.trans hrowId.symm)
  subst hsame
  exact ⟨hpending, hattempts, hnumber⟩

theorem DeliveryOk.congr {d d' : WebhookDelivery} (h : DeliveryOk d) (hstatus : d'.status = d.status)
    (hattempts : d'.attempts = d.attempts) : DeliveryOk d' where
  numbered := by
    rw [hattempts]
    exact h.numbered
  bounded := by
    rw [hattempts]
    exact h.bounded
  failedBefore := by
    rw [hattempts]
    exact h.failedBefore
  status := by
    rw [hattempts, hstatus]
    exact h.status

/-- **Every row stays well formed.** -/
theorem AttemptInv.rows_dispatch {s : System} {e : Nat} {db' : DispatchDb} (h : AttemptInv s)
    (heffect : DbEffect s.db (s.dispatches e) db') : ∀ d ∈ db'.deliveries.rows, DeliveryOk d := by
  intro d hd
  cases heffect.rowOrigin hd with
  | created hstate hmem hfresh =>
    have hcreates := h.creates e
    rw [hstate] at hcreates
    obtain ⟨hattempts, hstatus⟩ := hcreates d hmem
    refine ⟨?_, ?_, ?_, ?_⟩
    · rw [hattempts]
      rfl
    · rw [hattempts]
      exact Nat.zero_le _
    · rw [hattempts]
      nofun
    · rw [hattempts, hstatus]
      rfl
  | kept hold hid hstatus hattempts hother => exact (h.rows _ hold).congr hstatus hattempts
  | settled hstate hold hid =>
    obtain ⟨hpending, hattempts, hnumber⟩ := h.writer_row hstate hold hid
    exact (h.rows _ hold).settle hpending hattempts hnumber

/-- What another execution is about to write after is left alone. -/
theorem AttemptInv.writers_other {s : System} {e e' : Nat} {db' : DispatchDb} (h : AttemptInv s)
    (heffect : DbEffect s.db (s.dispatches e) db') (he : e' ≠ e) :
    db'.WritesNext (s.dispatches e') := by
  have hwriters := h.writers e'
  cases hstate : s.dispatches e' with
  | writing tick delivery rest attempt =>
    rw [hstate] at hwriters
    obtain ⟨⟨d, hd, hid, hpending, hattempts⟩, hnumber⟩ := hwriters
    have hother : (s.dispatches e).writes d.id = false := by
      rw [Bool.eq_false_iff]
      intro hwrites
      have hsame := h.alone e e' d.id hwrites (writes_iff.mpr ⟨_, _, _, _, hstate, hid.symm⟩)
      exact he hsame.symm
    obtain ⟨d', hd', hid', hstatus', hattempts'⟩ := heffect.rowKept hd hother
    exact ⟨⟨d', hd', hid'.trans hid, hstatus'.trans hpending, hattempts'.trans hattempts⟩, hnumber⟩
  | _ => trivial

/-! ## The next state -/

theorem writes_nextEvent (tick : Tick) (events : List OutboxEvent) (deliveryId : Uuid) :
    (nextEvent tick events).writes deliveryId = false := by
  cases events <;> rfl

theorem writes_nextDelivery (tick : Tick) (due : List WebhookDelivery) (deliveryId : Uuid) :
    (nextDelivery tick due).writes deliveryId = false := by
  cases due <;> rfl

theorem createsNew_next {db : DispatchDb} (endpoints : Endpoints) (env : DispatchEnv)
    {state : DispatchState} (h : CreatesNew state) :
    CreatesNew (dispatchStep db endpoints env state).2.2 := by
  cases hnext : (dispatchStep db endpoints env state).2.2 with
  | fanningOut tick event rest found remaining created =>
    rcases fanningOut_next hnext with ⟨-, rfl⟩ | ⟨endpoint, before, hstate, rfl⟩
    · exact nofun
    · rw [hstate] at h
      intro d hd
      rcases mem_fanOutTo hd with hold | ⟨rfl, -⟩
      · exact h d hold
      · exact ⟨rfl, rfl⟩
  | _ => trivial

/-- **Only an attempt leads to a write**, of that attempt. -/
theorem posting_of_writes {db : DispatchDb} {endpoints : Endpoints} {env : DispatchEnv}
    {state : DispatchState} {tick : Tick} {delivery : WebhookDelivery}
    {rest : List WebhookDelivery} {attempt : WebhookDeliveryAttempt}
    (h : (dispatchStep db endpoints env state).2.2 = .writing tick delivery rest attempt) :
    (∃ endpoint event, state = .posting tick delivery rest endpoint event)
      ∧ attempt = attemptOf tick.now delivery env.answer := by
  have hno : ∀ state' : DispatchState, state'.writes delivery.id = false →
      state' ≠ .writing tick delivery rest attempt := by
    rintro state' hwrites rfl
    simp [DispatchState.writes] at hwrites
  cases state with
  | posting tick' delivery' rest' endpoint event =>
    cases h
    exact ⟨⟨endpoint, event, rfl⟩, rfl⟩
  | fanningOut tick' event rest' found remaining created =>
    cases remaining with
    | cons endpoint remaining => cases h
    | nil =>
      simp only [dispatchStep] at h
      split at h <;> cases h
  | findingEndpoint tick' delivery' rest' =>
    simp only [dispatchStep] at h
    split at h <;> cases h
  | reserving tick' delivery' rest' endpoint =>
    simp only [dispatchStep] at h
    split at h <;> cases h
  | findingEvent tick' delivery' rest' endpoint =>
    simp only [dispatchStep] at h
    split at h <;> cases h
  | scanningEvents now => exact absurd h (hno _ (writes_nextEvent _ _ _))
  | publishing tick' event rest' found => exact absurd h (hno _ (writes_nextEvent _ _ _))
  | scanningDue tick' => exact absurd h (hno _ (writes_nextDelivery _ _ _))
  | deferring tick' delivery' rest' => exact absurd h (hno _ (writes_nextDelivery _ _ _))
  | writing tick' delivery' rest' attempt' => exact absurd h (hno _ (writes_nextDelivery _ _ _))
  | findingEndpoints tick' event rest' => cases h
  | idle => cases h
  | finished result => cases h

theorem writesNext_of_not_writes {db : DispatchDb} {state : DispatchState}
    (h : ∀ deliveryId, state.writes deliveryId = false) : db.WritesNext state := by
  cases state with
  | writing tick delivery rest attempt =>
    have hself := h delivery.id
    simp [DispatchState.writes] at hself
  | _ => trivial

/-- What `AttemptAlone` says of an attempt. -/
theorem alone_of_posting {s : System} {e : Nat} {env : DispatchEnv} {tick : Tick}
    {delivery : WebhookDelivery} {rest : List WebhookDelivery} {endpoint : WebhookEndpoint}
    {event : OutboxEvent} (halone : AttemptAlone s (.dispatch e env) = true)
    (hstate : s.dispatches e = .posting tick delivery rest endpoint event) :
    (∃ d ∈ s.db.deliveries.rows, d.id = delivery.id ∧ d.status = .PENDING
        ∧ d.attempts = delivery.attempts)
      ∧ ∀ e' < s.started, (s.dispatches e').writes delivery.id = false := by
  rw [AttemptAlone, hstate] at halone
  have hboth : s.db.AsScanned delivery = true
      ∧ (List.range s.started).all (fun e' => !(s.dispatches e').writes delivery.id) = true := by
    simpa using halone
  obtain ⟨hscanned, hnone⟩ := hboth
  constructor
  · unfold DispatchDb.AsScanned at hscanned
    cases hfind : s.db.deliveries.find delivery.id with
    | none =>
      rw [hfind] at hscanned
      cases hscanned
    | some d =>
      rw [hfind] at hscanned
      obtain ⟨hmem, hid⟩ := s.db.deliveries.find_eq_some_iff.mp hfind
      have hcolumns : d.status = .PENDING ∧ d.attempts = delivery.attempts := by
        simpa using hscanned
      exact ⟨d, hmem, hid, hcolumns⟩
  · intro e' he'
    have hnot := List.all_eq_true.mp hnone e' (List.mem_range.mpr he')
    simpa using hnot

/-! ## Every run -/

/-- The states after a statement of execution `e`. -/
theorem dispatches_dispatch (deps : Deps) (s : System) (e : Nat) (env : DispatchEnv) (e' : Nat) :
    (s.dispatch deps e env).dispatches e'
      = if e' = e then (dispatchStep s.db s.endpoints.endpoints env (s.dispatches e)).2.2
        else s.dispatches e' := by
  simp [System.dispatch, Function.update_apply]

/-- An execution that is not under way stays over. -/
theorem over_dispatch {deps : Deps} {s : System} {e : Nat} {env : DispatchEnv}
    (h : ∀ e', s.started ≤ e' → (s.dispatches e').over = true) (e' : Nat)
    (hnot : s.started ≤ e') : ((s.dispatch deps e env).dispatches e').over = true := by
  rw [dispatches_dispatch]
  split
  · next he =>
    have hover := h e (he ▸ hnot)
    rw [dispatchStep_over hover]
    exact hover
  · exact h e' hnot

/-- A POST is outside the database. -/
theorem db_of_posting {deps : Deps} {s : System} {e : Nat} {env : DispatchEnv} {tick : Tick}
    {delivery : WebhookDelivery} {rest : List WebhookDelivery} {endpoint : WebhookEndpoint}
    {event : OutboxEvent} (h : s.dispatches e = .posting tick delivery rest endpoint event) :
    (s.dispatch deps e env).db = s.db := by
  show (dispatchStep s.db s.endpoints.endpoints env (s.dispatches e)).1 = s.db
  rw [h]
  rfl

theorem AttemptInv.dispatch {deps : Deps} {s : System} {e : Nat} {env : DispatchEnv}
    (h : AttemptInv s) (halone : AttemptAlone s (.dispatch e env) = true) :
    AttemptInv (s.dispatch deps e env) := by
  have heffect := dispatchStep_effect s.db s.endpoints.endpoints env (s.dispatches e)
  -- if the execution is about to write next, it is alone with the delivery.
  have hwrite : ∀ deliveryId,
      (dispatchStep s.db s.endpoints.endpoints env (s.dispatches e)).2.2.writes deliveryId = true →
      ∀ e', (s.dispatches e').writes deliveryId = false := by
    intro deliveryId hwrites e'
    obtain ⟨tick, delivery, rest, attempt, hnext, rfl⟩ := writes_iff.mp hwrites
    obtain ⟨⟨endpoint, event, hstate⟩, -⟩ := posting_of_writes hnext
    rw [Bool.eq_false_iff]
    intro hother
    have hbound := h.lt_started hother
    rw [(alone_of_posting halone hstate).2 e' hbound] at hother
    cases hother
  refine ⟨h.rows_dispatch heffect, ?_, ?_, ?_, ?_⟩
  · intro e'
    rw [dispatches_dispatch]
    split
    · exact createsNew_next _ _ (h.creates e)
    · exact h.creates e'
  · intro e'
    rw [dispatches_dispatch]
    split
    · cases hnext : (dispatchStep s.db s.endpoints.endpoints env (s.dispatches e)).2.2 with
      | writing tick delivery rest attempt =>
        obtain ⟨⟨endpoint, event, hstate⟩, hattempt⟩ := posting_of_writes hnext
        rw [db_of_posting hstate]
        exact ⟨(alone_of_posting halone hstate).1, by rw [hattempt]; rfl⟩
      | _ => trivial
    · next hne => exact h.writers_other heffect hne
  · intro e₁ e₂ deliveryId hw₁ hw₂
    rw [dispatches_dispatch] at hw₁ hw₂
    split at hw₁
    · next h₁ =>
      split at hw₂
      · next h₂ => exact h₁.trans h₂.symm
      · rw [hwrite deliveryId hw₁ e₂] at hw₂
        cases hw₂
    · split at hw₂
      · rw [hwrite deliveryId hw₂ e₁] at hw₁
        cases hw₁
      · exact h.alone e₁ e₂ deliveryId hw₁ hw₂
  · exact over_dispatch h.started

/-- An execution that starts or ends writes nothing. -/
theorem AttemptInv.setDispatch {s : System} {e : Nat} {state : DispatchState} (h : AttemptInv s)
    (hcreates : CreatesNew state) (hwrites : ∀ deliveryId, state.writes deliveryId = false)
    (hstarted : s.started ≤ e → state.over = true) : AttemptInv (s.setDispatch e state) := by
  have hstates : ∀ e', (s.setDispatch e state).dispatches e' = if e' = e then state
      else s.dispatches e' := fun e' => by simp [System.setDispatch, Function.update_apply]
  refine ⟨h.rows, ?_, ?_, ?_, ?_⟩
  · intro e'
    rw [hstates]
    split
    · exact hcreates
    · exact h.creates e'
  · intro e'
    rw [hstates]
    split
    · exact writesNext_of_not_writes hwrites
    · exact h.writers e'
  · intro e₁ e₂ deliveryId hw₁ hw₂
    rw [hstates] at hw₁ hw₂
    split at hw₁
    · rw [hwrites] at hw₁
      cases hw₁
    · split at hw₂
      · rw [hwrites] at hw₂
        cases hw₂
      · exact h.alone e₁ e₂ deliveryId hw₁ hw₂
  · intro e' hnot
    rw [hstates]
    split
    · next he => exact hstarted (he ▸ hnot)
    · exact h.started e' hnot

theorem attemptInv_step (deps : Deps) (s : System) (a : Label) (h : AttemptInv s)
    (halone : AttemptAlone s a = true) : AttemptInv (step deps s a) := by
  cases a with
  | append event =>
    simp only [step]
    split
    · exact h
    · exact ⟨h.rows, h.creates, h.writers, h.alone, h.started⟩
  | endpoint a => exact ⟨h.rows, h.creates, h.writers, h.alone, h.started⟩
  | dispatch e env => exact h.dispatch halone
  | stop e => exact h.setDispatch trivial (fun _ => rfl) fun _ => rfl
  | start now =>
    -- the new execution is the one numbered `started`, which counts as started from here on.
    have hstates : ∀ e', (step deps s (.start now)).dispatches e'
        = if e' = s.started then .scanningEvents now else s.dispatches e' := fun e' => by
      simp [step, System.setDispatch, Function.update_apply]
    refine ⟨h.rows, ?_, ?_, ?_, ?_⟩
    · intro e'
      rw [hstates]
      split
      · trivial
      · exact h.creates e'
    · intro e'
      rw [hstates]
      split
      · trivial
      · exact h.writers e'
    · intro e₁ e₂ deliveryId hw₁ hw₂
      rw [hstates] at hw₁ hw₂
      split at hw₁
      · cases hw₁
      · split at hw₂
        · cases hw₂
        · exact h.alone e₁ e₂ deliveryId hw₁ hw₂
    · intro e' hnot
      have hlater : s.started + 1 ≤ e' := hnot
      rw [hstates, if_neg (by omega)]
      exact h.started e' (by omega)

theorem attemptInv_init (endpoints : Endpoints) : AttemptInv (.init endpoints) where
  rows _ hd := by cases hd
  creates _ := trivial
  writers _ := trivial
  alone _ _ _ hwrites := by cases hwrites
  started _ _ := rfl

/-- **What is final stays.** -/
theorem AttemptInv.finalKept {deps : Deps} {s : System} (h : AttemptInv s) (a : Label) :
    FinalKept deps s a := by
  intro d hd hfinal
  cases a with
  | append event =>
    simp only [step]
    split <;> exact ⟨d, hd, rfl, rfl, rfl⟩
  | endpoint a => exact ⟨d, hd, rfl, rfl, rfl⟩
  | start now => exact ⟨d, hd, rfl, rfl, rfl⟩
  | stop e => exact ⟨d, hd, rfl, rfl, rfl⟩
  | dispatch e env =>
    refine (dispatchStep_effect s.db s.endpoints.endpoints env (s.dispatches e)).rowKept hd ?_
    rw [Bool.eq_false_iff]
    intro hwrites
    obtain ⟨tick, delivery, rest, attempt, hstate, hid⟩ := writes_iff.mp hwrites
    exact hfinal (h.writer_row hstate hd hid.symm).1

/-! ## Every POST is recorded -/

structure RecordInv (s : System) : Prop where
  recorded : ∀ d ∈ s.db.deliveries.rows, s.RecordsPosts d
  known : ∀ p ∈ s.posts, ∃ d ∈ s.db.deliveries.rows, d.id = p.deliveryId

theorem posts_dispatch (deps : Deps) (s : System) (e : Nat) (env : DispatchEnv)
    (deliveryId : Uuid) :
    (s.dispatch deps e env).postsOf deliveryId = s.postsOf deliveryId
      ++ ((s.dispatches e).post? deps env.answer).toList.filter fun p => p.deliveryId = deliveryId :=
  List.filter_append _ _

/-- A POST is for the delivery of an attempt, and has the record of the attempt. -/
theorem post_of_posting {deps : Deps} {state : DispatchState} {answer : PostAnswer} {p : Post}
    (h : state.post? deps answer = some p) :
    ∃ tick delivery rest endpoint event, state = .posting tick delivery rest endpoint event
      ∧ p = postOf deps tick.now delivery endpoint event answer := by
  cases state with
  | posting tick delivery rest endpoint event =>
    refine ⟨tick, delivery, rest, endpoint, event, rfl, ?_⟩
    cases answer <;> first | cases h; rfl | cases h
  | _ => cases h

/-- What is recorded stays recorded where nothing is sent and nothing is written. -/
theorem System.RecordsPosts.later {s s' : System} {d d' : WebhookDelivery} (h : s.RecordsPosts d)
    (hid : d'.id = d.id) (hattempts : d'.attempts = d.attempts)
    (hposts : s'.postsOf d.id = s.postsOf d.id)
    (hwriters : ∀ e, (s.dispatches e).writes d.id = true → s'.dispatches e = s.dispatches e) :
    s'.RecordsPosts d' := by
  unfold System.RecordsPosts
  rw [hid, hattempts, hposts]
  rcases h with hall | ⟨e, tick, delivery, rest, attempt, hstate, hdelivery, hlast⟩
  · exact Or.inl hall
  · have hwrites := writes_iff.mpr ⟨tick, delivery, rest, attempt, hstate, hdelivery⟩
    exact Or.inr ⟨e, tick, delivery, rest, attempt, (hwriters e hwrites).trans hstate, hdelivery,
      hlast⟩

/-- **An attempt is on its way to the record** as soon as it is made. -/
theorem RecordInv.posting {deps : Deps} {s : System} {e : Nat} {env : DispatchEnv} {tick : Tick}
    {delivery d : WebhookDelivery} {rest : List WebhookDelivery} {endpoint : WebhookEndpoint}
    {event : OutboxEvent} (h : RecordInv s) (hattempt : AttemptInv s)
    (halone : AttemptAlone s (.dispatch e env) = true)
    (hstate : s.dispatches e = .posting tick delivery rest endpoint event)
    (hd : d ∈ s.db.deliveries.rows) (hid : d.id = delivery.id) :
    (s.dispatch deps e env).RecordsPosts d := by
  obtain ⟨-, hnone⟩ := alone_of_posting halone hstate
  -- nobody is about to write, so all that was sent is in the list.
  have hbefore : ((s.postsOf d.id).map Post.attempt).Sublist d.attempts := by
    rcases h.recorded d hd with hall | ⟨e', tick', delivery', rest', attempt', hwriting, hid', -⟩
    · exact hall
    · have hwrites := writes_iff.mpr ⟨tick', delivery', rest', attempt', hwriting, hid'⟩
      rw [hid, hnone e' (hattempt.lt_started hwrites)] at hwrites
      cases hwrites
  refine Or.inr ⟨e, tick, delivery, rest, attemptOf tick.now delivery env.answer, ?_, hid.symm, ?_⟩
  · rw [dispatches_dispatch, if_pos rfl, hstate]
    rfl
  · rw [posts_dispatch, List.map_append]
    refine hbefore.append ?_
    cases hpost : (s.dispatches e).post? deps env.answer with
    | none => exact List.nil_sublist _
    | some p =>
      obtain ⟨tick', delivery', rest', endpoint', event', hposting, rfl⟩ := post_of_posting hpost
      rw [hstate] at hposting
      cases hposting
      exact (List.filter_sublist.map Post.attempt)

/-- **A write puts the attempt on record.** -/
theorem RecordInv.settled {deps : Deps} {s : System} {e : Nat} {env : DispatchEnv} {tick : Tick}
    {delivery d : WebhookDelivery} {rest : List WebhookDelivery} {attempt : WebhookDeliveryAttempt}
    (h : RecordInv s) (hattempt : AttemptInv s)
    (hstate : s.dispatches e = .writing tick delivery rest attempt)
    (hd : d ∈ s.db.deliveries.rows) (hid : d.id = delivery.id) :
    (s.dispatch deps e env).RecordsPosts (Webhook.settle tick.now delivery attempt d) := by
  have hattempts := (hattempt.writer_row hstate hd hid).2.1
  refine Or.inl ?_
  show (((s.dispatch deps e env).postsOf d.id).map Post.attempt).Sublist
    (delivery.attempts ++ [attempt])
  rw [posts_dispatch, hstate, ← hattempts]
  show ((s.postsOf d.id ++ []).map Post.attempt).Sublist _
  rw [List.append_nil]
  rcases h.recorded d hd with hall | ⟨e', tick', delivery', rest', attempt', hwriting, hid', hlast⟩
  · exact hall.trans (List.sublist_append_left _ _)
  · -- the one about to write is this execution.
    have hwrites := writes_iff.mpr ⟨tick', delivery', rest', attempt', hwriting, hid'⟩
    have hsame := hattempt.alone e' e d.id hwrites
      (writes_iff.mpr ⟨tick, delivery, rest, attempt, hstate, hid.symm⟩)
    rw [hsame, hstate] at hwriting
    cases hwriting
    exact hlast

/-- An execution that is not at the delivery sends nothing for it and leaves its writer alone. -/
theorem RecordInv.elsewhere {deps : Deps} {s : System} {e : Nat} {env : DispatchEnv}
    {d d' : WebhookDelivery} (h : RecordInv s) (hd : d ∈ s.db.deliveries.rows)
    (hother : (s.dispatches e).writes d.id = false)
    (hposting : ∀ tick delivery rest endpoint event,
      s.dispatches e = .posting tick delivery rest endpoint event → d.id ≠ delivery.id)
    (hid : d'.id = d.id) (hattempts : d'.attempts = d.attempts) :
    (s.dispatch deps e env).RecordsPosts d' := by
  refine (h.recorded d hd).later hid hattempts ?_ ?_
  · rw [posts_dispatch]
    cases hpost : (s.dispatches e).post? deps env.answer with
    | none => exact List.append_nil _
    | some p =>
      obtain ⟨tick, delivery, rest, endpoint, event, hstate, rfl⟩ := post_of_posting hpost
      have hne := hposting tick delivery rest endpoint event hstate
      have hskip : (postOf deps tick.now delivery endpoint event env.answer).deliveryId ≠ d.id :=
        hne.symm
      simp [hskip]
  · intro e' hwrites
    rw [dispatches_dispatch, if_neg]
    rintro rfl
    rw [hother] at hwrites
    cases hwrites

/-- **What is on record stays**, and a new row has nothing to record. -/
theorem RecordInv.dispatch {deps : Deps} {s : System} {e : Nat} {env : DispatchEnv}
    (h : RecordInv s) (hattempt : AttemptInv s)
    (halone : AttemptAlone s (.dispatch e env) = true) : RecordInv (s.dispatch deps e env) := by
  have heffect := dispatchStep_effect s.db s.endpoints.endpoints env (s.dispatches e)
  refine ⟨?_, ?_⟩
  · intro d hd
    cases heffect.rowOrigin hd with
    | created hstate hmem hfresh =>
      -- nothing was ever sent under its id.
      have hnone : (s.dispatch deps e env).postsOf d.id = [] := by
        rw [posts_dispatch, hstate]
        show s.postsOf d.id ++ [] = []
        rw [List.append_nil]
        refine List.filter_eq_nil_iff.mpr fun p hp => ?_
        obtain ⟨old, hold, hid⟩ := h.known p hp
        simpa [← hid] using hfresh old hold
      refine Or.inl ?_
      rw [hnone]
      exact List.nil_sublist _
    | kept hold hid hstatus hattempts hother =>
      by_cases hposting : ∃ tick delivery rest endpoint event,
          s.dispatches e = .posting tick delivery rest endpoint event ∧ d.id = delivery.id
      · obtain ⟨tick, delivery, rest, endpoint, event, hstate, hdelivery⟩ := hposting
        exact h.posting hattempt halone hstate (db_of_posting hstate ▸ hd) hdelivery
      · refine h.elsewhere hold hother ?_ hid hattempts
        intro tick delivery rest endpoint event hstate hdelivery
        exact hposting ⟨tick, delivery, rest, endpoint, event, hstate, hid.trans hdelivery⟩
    | settled hstate hold hid => exact h.settled hattempt hstate hold hid
  · intro p hp
    have hrow : ∃ d ∈ s.db.deliveries.rows, d.id = p.deliveryId := by
      rcases List.mem_append.mp hp with hold | hnew
      · exact h.known p hold
      · obtain ⟨tick, delivery, rest, endpoint, event, hstate, rfl⟩ :=
          post_of_posting (Option.mem_toList.mp hnew)
        obtain ⟨⟨d, hd, hid, -⟩, -⟩ := alone_of_posting halone hstate
        exact ⟨d, hd, hid⟩
    obtain ⟨d, hd, hid⟩ := hrow
    obtain ⟨d', hd', hid'⟩ := heffect.idKept hd
    exact ⟨d', hd', hid'.trans hid⟩

theorem recordInv_step (deps : Deps) (s : System) (a : Label)
    (h : AttemptInv s ∧ RecordInv s) (halone : AttemptAlone s a = true ∧ Recorded s a = true) :
    AttemptInv (step deps s a) ∧ RecordInv (step deps s a) := by
  refine ⟨attemptInv_step deps s a h.1 halone.1, ?_⟩
  obtain ⟨hattempt, hrecord⟩ := h
  cases a with
  | append event =>
    simp only [step]
    split <;> exact ⟨hrecord.recorded, hrecord.known⟩
  | endpoint a => exact ⟨hrecord.recorded, hrecord.known⟩
  | dispatch e env => exact hrecord.dispatch hattempt halone.1
  | start now =>
    refine ⟨fun d hd => (hrecord.recorded d hd).later rfl rfl rfl ?_, hrecord.known⟩
    intro e hwrites
    have hlt := hattempt.lt_started hwrites
    simp [step, System.setDispatch, Function.update_of_ne (Nat.ne_of_lt hlt)]
  | stop e =>
    refine ⟨fun d hd => (hrecord.recorded d hd).later rfl rfl rfl ?_, hrecord.known⟩
    intro e' hwrites
    -- the execution that ends has nothing to write.
    have hne : e' ≠ e := by
      rintro rfl
      obtain ⟨tick, delivery, rest, attempt, hstate, -⟩ := writes_iff.mp hwrites
      have hrecorded := halone.2
      rw [Recorded, hstate] at hrecorded
      cases hrecorded
    simp [step, System.setDispatch, Function.update_of_ne hne]

theorem recordInv_init (endpoints : Endpoints) : RecordInv (.init endpoints) where
  recorded _ hd := by cases hd
  known _ hp := by cases hp

theorem RecordInv.attemptsKept {s : System} (hrecord : RecordInv s) (hattempt : AttemptInv s) :
    s.AttemptsKept where
  recorded := hrecord.recorded
  atMostFive deliveryId := by
    by_cases hrow : ∃ d ∈ s.db.deliveries.rows, d.id = deliveryId
    · obtain ⟨d, hd, rfl⟩ := hrow
      rcases hrecord.recorded d hd with hall | ⟨e, tick, delivery, rest, attempt, hstate, hid, hlast⟩
      · have hle := hall.length_le
        rw [List.length_map] at hle
        exact hle.trans (hattempt.rows d hd).bounded
      · -- the delivery is pending, so there was room for the attempt.
        have hpending := (hattempt.writer_row hstate hd hid.symm).1
        have hroom := ((hattempt.rows d hd).pending hpending).2
        have hle := hlast.length_le
        rw [List.length_map, List.length_append, List.length_singleton] at hle
        omega
    · have hnone : s.postsOf deliveryId = [] := by
        refine List.filter_eq_nil_iff.mpr fun p hp => ?_
        obtain ⟨d, hd, hid⟩ := hrecord.known p hp
        have hne : d.id ≠ deliveryId := fun heq => hrow ⟨d, hd, heq⟩
        simpa [← hid] using hne
      rw [hnone]
      exact Nat.zero_le _

/-- **Attempts are recorded.** In every run of any number of executions in which each attempt finds
its delivery as the scan read it and alone, and is followed by its write: every POST is among the
attempts of its delivery, there are at most five, and a delivery that has succeeded or finally
failed keeps its status and its attempts. -/
theorem attempts_recorded (deps : Deps) (endpoints : Endpoints) (run : List Label)
    (h : AllSteps (step deps) (fun s a => AttemptAlone s a = true ∧ Recorded s a = true)
      (.init endpoints) run) :
    (exec (step deps) (.init endpoints) run).AttemptsKept
      ∧ AllSteps (step deps) (FinalKept deps) (.init endpoints) run := by
  have hinit := And.intro (attemptInv_init endpoints) (recordInv_init endpoints)
  have hinv := exec_inv_of_allSteps (recordInv_step deps) hinit h
  refine ⟨hinv.2.attemptsKept hinv.1, ?_⟩
  exact allSteps_of_inv_of_allSteps (recordInv_step deps) (fun s a hs _ => hs.1.finalKept a) hinit h

/-! ### Two ticks at one delivery -/

/-- A tick that fails, and a later one that succeeds. -/
def twoTicks : List Label :=
  .append caseCreated :: .start 1786795200000 :: dispatches 0 11 20 (.responded 503)
    ++ .start 1786795260000 :: dispatches 1 7 21 (.responded 200)

theorem attempts_recorded_twoTicks :
    AllSteps (step sampleDeps) (fun s a => AttemptAlone s a = true ∧ Recorded s a = true)
        (.init partnerEndpoints) twoTicks
      ∧ (exec (step sampleDeps) (.init partnerEndpoints) twoTicks).AttemptsKept :=
  ⟨by decide, (attempts_recorded sampleDeps partnerEndpoints twoTicks (by decide)).1⟩

def Label.isStop : Label → Bool
  | .stop _ => true
  | _ => false

/-- Execution 0 is waiting for its receiver when execution 1 scans, attempts and is answered 503;
execution 0 is answered 200 and writes, and then execution 1 writes. -/
def overlappingAttempts : List Label :=
  .append caseCreated :: .start 1786795200000 :: dispatches 0 10 20 (.responded 200)
    ++ .start 1786795205000 :: dispatches 1 6 21 (.responded 503)
    ++ dispatches 0 1 20 (.responded 200)

/-- What the two executions are answered, as they record it. -/
def attempted (answer : PostAnswer) (now : Instant) : WebhookDeliveryAttempt :=
  attemptOf now (newDelivery 20 caseCreated partnerEndpoint) answer

theorem eq_of_two_of_two {α : Type} {a b c : α} (h : List.Sublist [a, b] [b, c]) : a = b := by
  have heq := h.eq_of_length (by simp)
  exact (List.cons.inj heq).1

/-- **Of two overlapping attempts one is lost**, and a delivery that has succeeded is pending
again. -/
theorem overlapping_attempts_lost :
    (¬ ∀ (deps : Deps) (endpoints : Endpoints) (run : List Label),
      (run.all fun a => !a.isStop) = true →
      (exec (step deps) (.init endpoints) run).AttemptsKept)
    ∧ ¬ ∀ (deps : Deps) (endpoints : Endpoints) (run : List Label),
      (run.all fun a => !a.isStop) = true →
      AllSteps (step deps) (FinalKept deps) (.init endpoints) run := by
  let last : Label := .dispatch 1 (dispatchEnv 21 (.responded 503))
  let before := exec (step sampleDeps) (.init partnerEndpoints) overlappingAttempts
  let after := exec (step sampleDeps) (.init partnerEndpoints) (overlappingAttempts ++ [last])
  have hrow : ∃ d ∈ after.db.deliveries.rows, d.id = 20 ∧ d.status = .PENDING
      ∧ d.attempts = [attempted (.responded 503) 1786795205000] := by decide
  constructor
  · intro h
    have hkept := h sampleDeps partnerEndpoints (overlappingAttempts ++ [last]) (by decide)
    obtain ⟨d, hd, hid, -, hattempts⟩ := hrow
    have hposts : (after.postsOf 20).map Post.attempt
        = [attempted (.responded 200) 1786795200000, attempted (.responded 503) 1786795205000] := by
      decide
    have hne : attempted (.responded 200) 1786795200000 ≠ attempted (.responded 503) 1786795205000 := by
      decide
    rcases hkept.recorded d hd with hall | ⟨e, tick, delivery, rest, attempt, -, -, hlast⟩
    · rw [hid, hposts, hattempts] at hall
      have hle := hall.length_le
      simp at hle
    · rw [hid, hposts, hattempts] at hlast
      exact hne (eq_of_two_of_two hlast)
  · intro h
    have hlaw := (h sampleDeps partnerEndpoints (overlappingAttempts ++ [last])
      (by decide)).of_append_right.1
    have hsucceeded : ∃ d ∈ before.db.deliveries.rows, d.id = 20 ∧ d.status = .SUCCEEDED := by decide
    obtain ⟨d, hd, hid, hstatus⟩ := hsucceeded
    obtain ⟨d', hd', hid', hstatus', -⟩ := hlaw d hd (by rw [hstatus]; decide)
    obtain ⟨row, hmem, hrowId, hpending, -⟩ := hrow
    have hafter : (step sampleDeps before last).db.deliveries = after.db.deliveries := by
      show _ = (exec (step sampleDeps) (.init partnerEndpoints) (overlappingAttempts ++ [last])).db.deliveries
      rw [exec_append]
      rfl
    have hmem' : row ∈ (step sampleDeps before last).db.deliveries.rows := hafter ▸ hmem
    have hsame : d' = row := (step sampleDeps before last).db.deliveries.eq_of_key_eq hd' hmem'
      ((hid'.trans hid).trans hrowId.symm)
    rw [hsame, hpending, hstatus] at hstatus'
    cases hstatus'

end MortgageAgent.Webhook
