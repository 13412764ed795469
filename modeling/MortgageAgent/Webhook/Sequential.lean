import MortgageAgent.Webhook.Attempts

/-!
# One execution at a time

Where no execution starts before the last one has ended, whether it finished, failed or died, no
two look at one pair or attempt one delivery at once. Edits of endpoints, new events and rate-limit
deferrals may come at any time, and an execution may end between any two statements.

* **`Sequential`** — an execution starts when every earlier one is over.
* **`SequentialInv`** — the deliveries an execution still holds are stored as it scanned them, and
  the pairs it is about to insert have no row.
* **`SequentialInv.fresh`**, **`SequentialInv.attemptAlone`** — so its fan-outs are fresh and its
  attempts alone.
* **`sequential_deliveries`** — the life of every delivery, over every such run.
-/

namespace MortgageAgent.Webhook

open Runs

/-- An execution starts only when every earlier one is over. -/
def Sequential (s : System) : Label → Bool
  | .start _ => (List.range s.started).all fun e => (s.dispatches e).over
  | _ => true

/-! ## What is asked of the deliveries -/

/-- The life of a delivery, read from its row. -/
structure DeliveryLife (d : WebhookDelivery) : Prop where
  numbered : d.attempts.map WebhookDeliveryAttempt.attemptNumber = List.range' 1 d.attempts.length
  bounded : d.attempts.length ≤ maxAttempts
  succeeded : d.status = .SUCCEEDED
    ↔ ∃ last, d.attempts.getLast? = some last ∧ last.outcome = .SUCCEEDED
  failedFinal : d.status = .FAILED_FINAL
    ↔ d.attempts.length = maxAttempts ∧ ∀ a ∈ d.attempts, a.outcome = .FAILED
  pending : d.status = .PENDING
    ↔ d.attempts.length < maxAttempts ∧ ∀ a ∈ d.attempts, a.outcome = .FAILED

/-- A request is sent only for a delivery that is pending. -/
def PostsPending (deps : Deps) (s : System) : Label → Prop
  | .dispatch e env => ∀ p, (s.dispatches e).post? deps env.answer = some p →
      ∀ d ∈ s.db.deliveries.rows, d.id = p.deliveryId → d.status = .PENDING
  | _ => True

/-- The status of a well-formed delivery, by its attempts. -/
theorem DeliveryOk.life {d : WebhookDelivery} (h : DeliveryOk d) : DeliveryLife d := by
  have hstatus := h.status
  rcases List.eq_nil_or_concat d.attempts with hnil | ⟨init, last, hsplit⟩
  · have hpending : d.status = .PENDING := by
      rw [hstatus, hnil]
      rfl
    refine ⟨h.numbered, h.bounded, ?_, ?_, ?_⟩
    · rw [hpending, hnil]
      exact ⟨nofun, nofun⟩
    · rw [hpending, hnil]
      exact ⟨nofun, fun hfive => absurd hfive.1 (by decide)⟩
    · rw [hpending, hnil]
      exact ⟨fun _ => ⟨by decide, nofun⟩, fun _ => rfl⟩
  · rw [List.concat_eq_append] at hsplit
    have hlast := h.last_number hsplit
    have hbefore := h.failedBefore
    have hall : (∀ a ∈ d.attempts, a.outcome = .FAILED) ↔ last.outcome = .FAILED := by
      rw [hsplit, List.dropLast_concat] at hbefore
      rw [hsplit]
      constructor
      · intro hfailed
        exact hfailed last (by simp)
      · intro hfailed a ha
        rcases List.mem_append.mp ha with hinit | hend
        · exact hbefore a hinit
        · rw [List.mem_singleton.mp hend]
          exact hfailed
    have hget : d.attempts.getLast? = some last := by
      rw [hsplit]
      exact List.getLast?_concat
    have hafter : d.status = statusAfter last := by
      rw [hstatus, statusOf, hget]
    have hbounded := h.bounded
    have hsucceeded : (∃ a, some last = some a ∧ a.outcome = .SUCCEEDED) ↔ last.outcome = .SUCCEEDED := by
      simp
    refine ⟨h.numbered, h.bounded, ?_, ?_, ?_⟩
    · rw [hafter, hget, hsucceeded]
      unfold statusAfter
      cases last.outcome <;> grind
    · rw [hafter, hall]
      unfold statusAfter
      cases last.outcome <;> grind
    · rw [hafter, hall]
      unfold statusAfter
      cases last.outcome <;> grind

/-! ## What an execution holds -/

/-- The deliveries an execution has scanned and has not finished with. -/
def DispatchState.held : DispatchState → List WebhookDelivery
  | .findingEndpoint _ delivery rest | .reserving _ delivery rest _ | .deferring _ delivery rest
  | .findingEvent _ delivery rest _ | .posting _ delivery rest _ _ | .writing _ delivery rest _ =>
    delivery :: rest
  | _ => []

theorem held_nextEvent (tick : Tick) (events : List OutboxEvent) :
    (nextEvent tick events).held = [] := by
  cases events <;> rfl

theorem held_nextDelivery (tick : Tick) (due : List WebhookDelivery) :
    (nextDelivery tick due).held = due := by
  cases due <;> rfl

theorem held_of_over {state : DispatchState} (h : state.over = true) : state.held = [] := by
  cases state with
  | idle => rfl
  | finished result => rfl
  | _ => cases h

/-- What an execution holds after a statement: nothing, what it held, what it held but for the
first, or what its scan found. -/
inductive HeldNext (db : DispatchDb) (env : DispatchEnv) (state : DispatchState) :
    List WebhookDelivery → Prop where
  | nothing : HeldNext db env state []
  | same (h : ∀ deliveryId, state.writes deliveryId = false) : HeldNext db env state state.held
  | tail (delivery : WebhookDelivery) (rest : List WebhookDelivery)
      (h : state.held = delivery :: rest)
      (hwrites : ∀ deliveryId, state.writes deliveryId = true → delivery.id = deliveryId) :
      HeldNext db env state rest
  | scanned (tick : Tick) (h : state = .scanningDue tick) :
      HeldNext db env state (dueDeliveries db env.scanOrder tick.now)

theorem heldNext (db : DispatchDb) (endpoints : Endpoints) (env : DispatchEnv)
    (state : DispatchState) :
    HeldNext db env state (dispatchStep db endpoints env state).2.2.held := by
  cases state with
  | idle => exact .nothing
  | finished result => exact .nothing
  | scanningEvents now =>
    show HeldNext _ _ _ (nextEvent _ _).held
    rw [held_nextEvent]
    exact .nothing
  | findingEndpoints tick event rest => exact .nothing
  | fanningOut tick event rest found remaining created =>
    cases remaining with
    | cons endpoint remaining => exact .nothing
    | nil =>
      simp only [dispatchStep]
      split <;> exact .nothing
  | publishing tick event rest found =>
    show HeldNext _ _ _ (nextEvent _ _).held
    rw [held_nextEvent]
    exact .nothing
  | scanningDue tick =>
    show HeldNext _ _ _ (nextDelivery _ _).held
    rw [held_nextDelivery]
    exact .scanned tick rfl
  | findingEndpoint tick delivery rest =>
    simp only [dispatchStep]
    split
    · exact .nothing
    · exact .same fun _ => rfl
  | reserving tick delivery rest endpoint =>
    simp only [dispatchStep]
    split <;> exact .same fun _ => rfl
  | deferring tick delivery rest =>
    show HeldNext _ _ _ (nextDelivery _ _).held
    rw [held_nextDelivery]
    refine .tail delivery rest rfl fun _ hwrites => ?_
    cases hwrites
  | findingEvent tick delivery rest endpoint =>
    simp only [dispatchStep]
    split
    · exact .nothing
    · exact .same fun _ => rfl
  | posting tick delivery rest endpoint event => exact .same fun _ => rfl
  | writing tick delivery rest attempt =>
    show HeldNext _ _ _ (nextDelivery _ _).held
    rw [held_nextDelivery]
    exact .tail delivery rest rfl fun _ hwrites => by simpa [DispatchState.writes] using hwrites

/-- The delivery is stored as pending, with the attempts it was scanned with. -/
def DispatchDb.Aligned (db : DispatchDb) (scanned : WebhookDelivery) : Prop :=
  ∃ d ∈ db.deliveries.rows, d.id = scanned.id ∧ d.status = .PENDING
    ∧ d.attempts = scanned.attempts

theorem asScanned_of_aligned {db : DispatchDb} {scanned : WebhookDelivery}
    (h : db.Aligned scanned) : db.AsScanned scanned = true := by
  obtain ⟨d, hd, hid, hstatus, hattempts⟩ := h
  have hfind : db.deliveries.find scanned.id = some d := db.deliveries.find_eq_some_iff.mpr ⟨hd, hid⟩
  simp [DispatchDb.AsScanned, hfind, hstatus, hattempts]

/-- The scan returns pending rows. -/
theorem mem_dueDeliveries {db : DispatchDb} {scanOrder : Uuid → Nat} {now : Instant}
    {d : WebhookDelivery} (h : d ∈ dueDeliveries db scanOrder now) :
    d ∈ db.deliveries.rows ∧ d.status = .PENDING := by
  have hsorted := List.mem_of_mem_take h
  have hfilter := (List.mem_insertionSort _).mp hsorted
  obtain ⟨hrow, hdue⟩ := List.mem_filter.mp hfilter
  unfold WebhookDelivery.due at hdue
  exact ⟨hrow, by simpa using (Bool.and_eq_true_iff.mp hdue).1⟩

/-- They are aligned, and each is returned once. -/
theorem dueDeliveries_aligned (db : DispatchDb) (scanOrder : Uuid → Nat) (now : Instant) :
    (∀ d ∈ dueDeliveries db scanOrder now, db.Aligned d)
      ∧ ((dueDeliveries db scanOrder now).map WebhookDelivery.id).Nodup := by
  constructor
  · intro d hd
    obtain ⟨hrow, hpending⟩ := mem_dueDeliveries hd
    exact ⟨d, hrow, rfl, hpending, rfl⟩
  · have hrows := db.deliveries.nodup
    have hfilter := hrows.sublist (List.Sublist.map WebhookDelivery.id
      (List.filter_sublist (p := fun d : WebhookDelivery => d.due now)))
    have hsorted := ((List.perm_insertionSort (fun a b : WebhookDelivery =>
      scanOrder a.id ≤ scanOrder b.id) _).map WebhookDelivery.id).nodup_iff.mpr hfilter
    exact hsorted.sublist ((List.take_sublist _ _).map WebhookDelivery.id)

/-- What is held stays aligned, but for the delivery an attempt is written on. -/
theorem DbEffect.aligned {db db' : DispatchDb} {state : DispatchState} (h : DbEffect db state db')
    {scanned : WebhookDelivery} (haligned : db.Aligned scanned)
    (hother : state.writes scanned.id = false) : db'.Aligned scanned := by
  obtain ⟨d, hd, hid, hstatus, hattempts⟩ := haligned
  obtain ⟨d', hd', hid', hstatus', hattempts'⟩ := h.rowKept hd (hid ▸ hother)
  exact ⟨d', hd', hid'.trans hid, hstatus'.trans hstatus, hattempts'.trans hattempts⟩

theorem HeldNext.nodup {db : DispatchDb} {env : DispatchEnv} {state : DispatchState}
    {held : List WebhookDelivery} (h : HeldNext db env state held)
    (hnodup : (state.held.map WebhookDelivery.id).Nodup) : (held.map WebhookDelivery.id).Nodup := by
  cases h with
  | nothing => exact List.nodup_nil
  | same => exact hnodup
  | tail delivery rest hheld =>
    rw [hheld] at hnodup
    exact (List.nodup_cons.mp hnodup).2
  | scanned tick => exact (dueDeliveries_aligned db env.scanOrder tick.now).2

/-- **What is held next is aligned next.** -/
theorem DbEffect.aligned_next {db db' : DispatchDb} {env : DispatchEnv} {state : DispatchState}
    (h : DbEffect db state db') {held : List WebhookDelivery} (hnext : HeldNext db env state held)
    (haligned : ∀ d ∈ state.held, db.Aligned d)
    (hnodup : (state.held.map WebhookDelivery.id).Nodup) : ∀ d ∈ held, db'.Aligned d := by
  intro d hd
  cases hnext with
  | nothing => cases hd
  | same hno => exact h.aligned (haligned d hd) (hno d.id)
  | tail delivery rest hheld hwrites =>
    rw [hheld] at haligned hnodup
    refine h.aligned (haligned d (List.mem_cons_of_mem _ hd)) ?_
    rw [Bool.eq_false_iff]
    intro hwritten
    -- the one written is the one left behind, and each is held once.
    have hsame := hwrites d.id hwritten
    exact (List.nodup_cons.mp hnodup).1 (hsame ▸ List.mem_map_of_mem hd)
  | scanned tick hstate =>
    refine h.aligned ((dueDeliveries_aligned db env.scanOrder tick.now).1 d hd) ?_
    rw [hstate]
    rfl

/-- The pairs an execution is about to insert have no row. -/
def CreatesFresh (db : DispatchDb) : DispatchState → Prop
  | .fanningOut _ _ _ _ _ created => ∀ d ∈ created, ∀ d' ∈ db.deliveries.rows, d'.pair ≠ d.pair
  | _ => True

/-- **A fan-out inserts what it did not find.** -/
theorem createsFresh_next {db : DispatchDb} (endpoints : Endpoints) (env : DispatchEnv)
    {state : DispatchState} (h : CreatesFresh db state) :
    CreatesFresh (dispatchStep db endpoints env state).1
      (dispatchStep db endpoints env state).2.2 := by
  cases hnext : (dispatchStep db endpoints env state).2.2 with
  | fanningOut tick event rest found remaining created =>
    rcases fanningOut_next hnext with ⟨-, rfl⟩ | ⟨endpoint, before, rfl, rfl⟩
    · exact nofun
    · intro d hd d' hd'
      rcases mem_fanOutTo hd with hold | ⟨rfl, hnone⟩
      · exact h d hold d' hd'
      · exact hnone d' (List.mem_append_left _ hd')
  | _ => trivial

theorem createsFresh_of_over (db : DispatchDb) {state : DispatchState} (h : state.over = true) :
    CreatesFresh db state := by
  cases state with
  | idle => trivial
  | finished result => trivial
  | _ => cases h

/-! ## The invariant -/

structure SequentialInv (s : System) : Prop where
  fanOut : FanOutInv s
  attempt : AttemptInv s
  one : ∀ e e', (s.dispatches e).over = false → (s.dispatches e').over = false → e = e'
  aligned : ∀ e, ∀ d ∈ (s.dispatches e).held, s.db.Aligned d
  nodup : ∀ e, ((s.dispatches e).held.map WebhookDelivery.id).Nodup
  creates : ∀ e, CreatesFresh s.db (s.dispatches e)

theorem over_of_writes {state : DispatchState} {deliveryId : Uuid}
    (h : state.writes deliveryId = true) : state.over = false := by
  obtain ⟨tick, delivery, rest, attempt, rfl, -⟩ := writes_iff.mp h
  rfl

/-- The fan-outs of a sequential run are fresh. -/
theorem SequentialInv.fresh {s : System} (h : SequentialInv s) (a : Label) :
    FreshFanOut s a = true := by
  cases a with
  | dispatch e env =>
    have hcreates := h.creates e
    cases hstate : s.dispatches e with
    | fanningOut tick event rest found remaining created =>
      rw [hstate] at hcreates
      rw [FreshFanOut, hstate]
      cases remaining with
      | nil => simpa [CreatesFresh] using hcreates
      | cons endpoint remaining => rfl
    | _ => rw [FreshFanOut, hstate]
  | _ => rfl

/-- The attempts of a sequential run are alone. -/
theorem SequentialInv.attemptAlone {s : System} (h : SequentialInv s) (a : Label) :
    AttemptAlone s a = true := by
  cases a with
  | dispatch e env =>
    cases hstate : s.dispatches e with
    | posting tick delivery rest endpoint event =>
      have hmem : delivery ∈ (s.dispatches e).held := by
        rw [hstate]
        exact List.mem_cons_self
      have hscanned := asScanned_of_aligned (h.aligned e delivery hmem)
      have hnone : ∀ e', (s.dispatches e').writes delivery.id = false := by
        intro e'
        rw [Bool.eq_false_iff]
        intro hwrites
        -- an execution that writes is under way, and so is this one: it is this one.
        have hsame := h.one e' e (over_of_writes hwrites) (by rw [hstate]; rfl)
        rw [hsame, hstate] at hwrites
        cases hwrites
      rw [AttemptAlone, hstate]
      simp [hscanned, hnone]
    | _ => rw [AttemptAlone, hstate]
  | _ => rfl

/-- Where one execution moves, the others are over or see the same rows. -/
theorem SequentialInv.others {s : System} (h : SequentialInv s) (env : DispatchEnv) {e e' : Nat}
    (hne : e' ≠ e) :
    (s.dispatches e').over = true
      ∨ (dispatchStep s.db s.endpoints.endpoints env (s.dispatches e)).1 = s.db := by
  cases hover : (s.dispatches e').over with
  | true => exact Or.inl rfl
  | false =>
    right
    have hmoved : (s.dispatches e).over = true := by
      by_contra hrunning
      exact hne (h.one e' e hover (Bool.eq_false_iff.mpr hrunning))
    rw [dispatchStep_over hmoved]

theorem SequentialInv.dispatch {deps : Deps} {s : System} (h : SequentialInv s) (e : Nat)
    (env : DispatchEnv) : SequentialInv (s.dispatch deps e env) := by
  have heffect := dispatchStep_effect s.db s.endpoints.endpoints env (s.dispatches e)
  have hdb : (s.dispatch deps e env).db
      = (dispatchStep s.db s.endpoints.endpoints env (s.dispatches e)).1 := rfl
  refine ⟨h.fanOut.dispatch (h.fresh _), h.attempt.dispatch (h.attemptAlone _), ?_, ?_, ?_, ?_⟩
  · intro e₁ e₂ hrunning₁ hrunning₂
    -- an execution under way after the step was under way before.
    have hbefore : ∀ e', ((s.dispatch deps e env).dispatches e').over = false →
        (s.dispatches e').over = false := by
      intro e' hrunning
      rw [dispatches_dispatch] at hrunning
      split at hrunning
      · next he =>
        subst he
        by_contra hover
        rw [dispatchStep_over (by simpa using hover)] at hrunning
        exact hover hrunning
      · exact hrunning
    exact h.one e₁ e₂ (hbefore e₁ hrunning₁) (hbefore e₂ hrunning₂)
  · intro e' d hd
    rw [dispatches_dispatch] at hd
    rw [hdb]
    split at hd
    · exact heffect.aligned_next (heldNext s.db s.endpoints.endpoints env (s.dispatches e))
        (h.aligned e) (h.nodup e) d hd
    · next hne =>
      rcases h.others env hne with hover | hsame
      · rw [held_of_over hover] at hd
        cases hd
      · rw [hsame]
        exact h.aligned e' d hd
  · intro e'
    rw [dispatches_dispatch]
    split
    · exact (heldNext s.db s.endpoints.endpoints env (s.dispatches e)).nodup (h.nodup e)
    · exact h.nodup e'
  · intro e'
    rw [dispatches_dispatch, hdb]
    split
    · exact createsFresh_next _ _ (h.creates e)
    · next hne =>
      rcases h.others env hne with hover | hsame
      · exact createsFresh_of_over _ hover
      · rw [hsame]
        exact h.creates e'

/-- An execution that starts or ends holds nothing. -/
theorem SequentialInv.setDispatch {s : System} (h : SequentialInv s) (e : Nat)
    (state : DispatchState) (hheld : state.held = []) (hcreates : CreatesFresh s.db state) :
    (∀ e', ∀ d ∈ ((s.setDispatch e state).dispatches e').held, s.db.Aligned d)
      ∧ (∀ e', (((s.setDispatch e state).dispatches e').held.map WebhookDelivery.id).Nodup)
      ∧ ∀ e', CreatesFresh s.db ((s.setDispatch e state).dispatches e') := by
  have hstates : ∀ e', (s.setDispatch e state).dispatches e'
      = if e' = e then state else s.dispatches e' := fun e' => Function.update_apply ..
  refine ⟨?_, ?_, ?_⟩
  · intro e' d hd
    rw [hstates] at hd
    split at hd
    · rw [hheld] at hd
      cases hd
    · exact h.aligned e' d hd
  · intro e'
    rw [hstates]
    split
    · rw [hheld]
      exact List.nodup_nil
    · exact h.nodup e'
  · intro e'
    rw [hstates]
    split
    · exact hcreates
    · exact h.creates e'

theorem sequentialInv_step (deps : Deps) (s : System) (a : Label) (h : SequentialInv s)
    (hsequential : Sequential s a = true) : SequentialInv (step deps s a) := by
  have hfanOut := fanOutInv_step deps s a h.fanOut (h.fresh a)
  have hattempt := attemptInv_step deps s a h.attempt (h.attemptAlone a)
  cases a with
  | append event =>
    simp only [step] at hfanOut hattempt ⊢
    split
    · exact h
    · next events hinsert =>
      rw [hinsert] at hfanOut hattempt
      exact ⟨hfanOut, hattempt, h.one, h.aligned, h.nodup, h.creates⟩
  | endpoint a => exact ⟨hfanOut, hattempt, h.one, h.aligned, h.nodup, h.creates⟩
  | dispatch e env => exact h.dispatch e env
  | start now =>
    obtain ⟨haligned, hnodup, hcreates⟩ :=
      h.setDispatch s.started (.scanningEvents now) rfl trivial
    refine ⟨hfanOut, hattempt, ?_, haligned, hnodup, hcreates⟩
    -- all earlier executions are over, so the new one is the only one.
    have hnew : ∀ e, ((step deps s (.start now)).dispatches e).over = false → e = s.started := by
      intro e hrunning
      by_contra hne
      have hstate : (step deps s (.start now)).dispatches e = s.dispatches e :=
        Function.update_of_ne hne _ _
      rw [hstate] at hrunning
      have hover : (s.dispatches e).over = true := by
        by_cases hlt : e < s.started
        · exact List.all_eq_true.mp hsequential e (List.mem_range.mpr hlt)
        · exact h.attempt.started e (by omega)
      rw [hover] at hrunning
      cases hrunning
    intro e e' hrunning hrunning'
    rw [hnew e hrunning, hnew e' hrunning']
  | stop e =>
    obtain ⟨haligned, hnodup, hcreates⟩ :=
      h.setDispatch e (.finished (.error .storeUnavailable)) rfl trivial
    refine ⟨hfanOut, hattempt, ?_, haligned, hnodup, hcreates⟩
    have hbefore : ∀ e', ((step deps s (.stop e)).dispatches e').over = false →
        (s.dispatches e').over = false := by
      intro e' hrunning
      have hstate : (step deps s (.stop e)).dispatches e'
          = if e' = e then .finished (.error .storeUnavailable) else s.dispatches e' :=
        Function.update_apply ..
      rw [hstate] at hrunning
      split at hrunning
      · cases hrunning
      · exact hrunning
    intro e₁ e₂ hrunning₁ hrunning₂
    exact h.one e₁ e₂ (hbefore e₁ hrunning₁) (hbefore e₂ hrunning₂)

theorem sequentialInv_init (endpoints : Endpoints) : SequentialInv (.init endpoints) where
  fanOut := fanOutInv_init endpoints
  attempt := attemptInv_init endpoints
  one _ _ hrunning := by cases hrunning
  aligned _ _ hd := by cases hd
  nodup _ := List.nodup_nil
  creates _ := trivial

/-- **What is attempted is pending.** -/
theorem SequentialInv.postsPending {deps : Deps} {s : System} (h : SequentialInv s) (a : Label) :
    PostsPending deps s a := by
  cases a with
  | dispatch e env =>
    intro p hpost d hd hid
    obtain ⟨tick, delivery, rest, endpoint, event, hstate, rfl⟩ := post_of_posting hpost
    have hmem : delivery ∈ (s.dispatches e).held := by
      rw [hstate]
      exact List.mem_cons_self
    obtain ⟨row, hrow, hrowId, hpending, -⟩ := h.aligned e delivery hmem
    have hsame : d = row := s.db.deliveries.eq_of_key_eq hd hrow (hid.trans hrowId.symm)
    rw [hsame]
    exact hpending
  | _ => trivial

/-- **The life of a delivery.** In every run whose executions do not overlap, whatever their clocks,
the answers of the receivers, the edits of endpoints, the deferrals, and the statements at which
executions died: a published event has one delivery for each endpoint its fan-out found, and at
most one for any other; the attempts of a delivery are numbered and at most five, and say what its
status is; and a request is sent only for a pending delivery. -/
theorem sequential_deliveries (deps : Deps) (endpoints : Endpoints) (run : List Label)
    (h : AllSteps (step deps) (fun s a => Sequential s a = true) (.init endpoints) run) :
    (exec (step deps) (.init endpoints) run).OneDeliveryEach
      ∧ (∀ d ∈ (exec (step deps) (.init endpoints) run).db.deliveries.rows, DeliveryLife d)
      ∧ AllSteps (step deps) (PostsPending deps) (.init endpoints) run := by
  have hinit := sequentialInv_init endpoints
  have hinv := exec_inv_of_allSteps (sequentialInv_step deps) hinit h
  refine ⟨hinv.fanOut.oneDeliveryEach, fun d hd => (hinv.attempt.rows d hd).life, ?_⟩
  exact allSteps_of_inv_of_allSteps (sequentialInv_step deps) (fun s a hs _ => hs.postsPending a)
    hinit h

/-- The first tick dies before it publishes, the second between its request and the write, and the
third is answered 200. -/
def crashingTicks : List Label :=
  .append caseCreated :: .start 1786795200000 :: dispatches 0 4 20 (.responded 200)
    ++ .stop 0 :: .start 1786795205000 :: dispatches 1 10 21 (.responded 503)
    ++ .stop 1 :: .start 1786795210000 :: dispatches 2 7 22 (.responded 200)

theorem sequential_deliveries_crashingTicks :
    AllSteps (step sampleDeps) (fun s a => Sequential s a = true) (.init partnerEndpoints)
        crashingTicks
      ∧ (exec (step sampleDeps) (.init partnerEndpoints) crashingTicks).OneDeliveryEach :=
  ⟨by decide, (sequential_deliveries sampleDeps partnerEndpoints crashingTicks (by decide)).1⟩

end MortgageAgent.Webhook
