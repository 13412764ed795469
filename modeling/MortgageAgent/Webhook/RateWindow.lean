import MortgageAgent.Webhook.Endpoint

/-!
# The outbound rate window

An endpoint row keeps one window and one counter for all its calls, and a dispatch tick reserves
with the time it started at, so calls may come for a minute before the stored one.

* **`KeepsWindow`** — such a call finds the counter full, and leaves the row alone.
* **`reserved_le_limit`** — in a run of such calls no minute is served above the limit.
* **`limit_lt_reserved`** — a call that breaks the rule for a minute that has been served hands it a
  whole limit again, on top of what it had.
-/

namespace MortgageAgent.Webhook

open Runs

/-! ## Calls on one endpoint -/

/-- The rows after a `reserveOutboundAttempt` at `now`. -/
def reserveStep (tenantId endpointId : Uuid) (endpoints : Endpoints) (now : Instant) : Endpoints :=
  (reserveOutboundAttempt endpoints tenantId endpointId now).1

/-- The call is in the minute, and returns `reserved = true`. -/
def reservedIn (tenantId endpointId : Uuid) (minute : Instant) (endpoints : Endpoints)
    (now : Instant) : Bool :=
  (reserveOutboundAttempt endpoints tenantId endpointId now).2 && windowStart now = minute

/-- A call in a minute before the stored one finds no room. -/
def KeepsWindow (tenantId endpointId : Uuid) (endpoints : Endpoints) (now : Instant) : Prop :=
  ∀ e startedAt, findEndpoint endpoints tenantId endpointId = some e →
    e.rateWindowStartedAt = some startedAt → windowStart now < startedAt →
      e.outboundRateLimitPerMinute ≤ e.rateWindowAttempts

section calls

variable {tenantId endpointId : Uuid} {endpoints : Endpoints} {e : WebhookEndpoint} {now : Instant}

theorem findEndpoint_some (h : findEndpoint endpoints tenantId endpointId = some e) :
    endpoints.find endpointId = some e ∧ e.id = endpointId ∧ e.tenantId = tenantId := by
  obtain ⟨hfind, htenant⟩ := Option.filter_eq_some_iff.mp h
  exact ⟨hfind, (endpoints.find_eq_some_iff.mp hfind).2, by simpa using htenant⟩

/-- A reservation with room counts in the row. -/
theorem reserve_of_room (he : findEndpoint endpoints tenantId endpointId = some e)
    (hroom : e.hasRoom (windowStart now) = true) :
    (reserveOutboundAttempt endpoints tenantId endpointId now).2 = true
      ∧ findEndpoint (reserveStep tenantId endpointId endpoints now) tenantId endpointId
        = some (e.counted (windowStart now)) := by
  obtain ⟨hfind, hid, htenant⟩ := findEndpoint_some he
  have hreserve : reserveOutboundAttempt endpoints tenantId endpointId now
      = (endpoints.put (e.counted (windowStart now)), true) := by
    simp only [reserveOutboundAttempt, he, hroom, if_true]
  refine ⟨by rw [hreserve], ?_⟩
  have hkey : endpointId = (e.counted (windowStart now)).id := hid.symm
  rw [reserveStep, hreserve, findEndpoint, Table.find_put, if_pos hkey, hfind]
  simp [WebhookEndpoint.counted, htenant]

theorem reserve_of_no_room (he : findEndpoint endpoints tenantId endpointId = some e)
    (hroom : e.hasRoom (windowStart now) = false) :
    (reserveOutboundAttempt endpoints tenantId endpointId now).2 = false
      ∧ reserveStep tenantId endpointId endpoints now = endpoints := by
  have hreserve : reserveOutboundAttempt endpoints tenantId endpointId now = (endpoints, false) := by
    simp only [reserveOutboundAttempt, he, hroom, Bool.false_eq_true, if_false]
  exact ⟨by rw [hreserve], by rw [reserveStep, hreserve]⟩

end calls

/-! ## What a minute has left -/

/-- The attempts that a minute can still be served: none before the stored window, what the
counter leaves in it, and the limit after it. -/
def WebhookEndpoint.attemptsLeft (e : WebhookEndpoint) (minute : Instant) : Nat :=
  match e.rateWindowStartedAt with
  | none => e.outboundRateLimitPerMinute.toNat
  | some startedAt =>
    if minute < startedAt then 0
    else if minute = startedAt then (e.outboundRateLimitPerMinute - e.rateWindowAttempts).toNat
    else e.outboundRateLimitPerMinute.toNat

/-- What the endpoint's row has left for the minute; nothing without a row. -/
def attemptsLeft (tenantId endpointId : Uuid) (minute : Instant) (endpoints : Endpoints) : Nat :=
  ((findEndpoint endpoints tenantId endpointId).map fun e => e.attemptsLeft minute).getD 0

/-- Counting an attempt takes one from its own minute, and gives none to another, unless it goes
back behind the stored window. -/
theorem attemptsLeft_counted {e : WebhookEndpoint} (hlimit : 1 ≤ e.outboundRateLimitPerMinute)
    {start : Instant} (hroom : e.hasRoom start = true)
    (hkeeps : ∀ startedAt, e.rateWindowStartedAt = some startedAt → startedAt ≤ start)
    (minute : Instant) :
    (e.counted start).attemptsLeft minute + (if start = minute then 1 else 0)
      ≤ e.attemptsLeft minute := by
  unfold WebhookEndpoint.hasRoom at hroom
  have hleft : (e.counted start).attemptsLeft minute
      = if minute < start then 0
        else if minute = start then (e.outboundRateLimitPerMinute
          - if e.windowPassed start then 1 else e.rateWindowAttempts + 1).toNat
        else e.outboundRateLimitPerMinute.toNat := rfl
  rw [hleft, WebhookEndpoint.attemptsLeft]
  cases hstarted : e.rateWindowStartedAt with
  | none =>
    have hpassed : e.windowPassed start = true := by simp [WebhookEndpoint.windowPassed, hstarted]
    simp only [hpassed, if_true]
    rcases lt_trichotomy minute start with h | rfl | h
    · simp [h, h.ne']
    · simp only [lt_irrefl, if_false, if_true]
      omega
    · simp [not_lt.mpr h.le, h.ne, h.ne']
  | some startedAt =>
    have hpassed : e.windowPassed start = decide (startedAt < start) := by
      simp [WebhookEndpoint.windowPassed, hstarted]
    rw [hpassed] at hroom ⊢
    rcases (hkeeps startedAt hstarted).lt_or_eq with hlt | rfl
    · -- a new window: its minute has lost one, the minutes before it all they had
      simp only [hlt, decide_true, if_true]
      rcases lt_trichotomy minute start with h | rfl | h
      · simp [h, h.ne']
      · simp only [lt_irrefl, if_false, if_true, not_lt.mpr hlt.le, hlt.ne']
        omega
      · simp [not_lt.mpr h.le, h.ne, h.ne', not_lt.mpr (hlt.trans h).le, (hlt.trans h).ne']
    · -- the stored window: the counter had room
      simp only [lt_irrefl, decide_false, Bool.false_or, decide_eq_true_eq] at hroom
      simp only [lt_irrefl, decide_false, Bool.false_eq_true, if_false]
      rcases lt_trichotomy minute startedAt with h | rfl | h
      · simp [h, h.ne']
      · simp only [lt_irrefl, if_false, if_true]
        omega
      · simp [not_lt.mpr h.le, h.ne, h.ne']

/-! ## Runs of calls -/

/-- The endpoint is there, with a limit its CHECK constraint allows. -/
def Limited (tenantId endpointId : Uuid) (limit : Int) (endpoints : Endpoints) : Prop :=
  ∃ e, findEndpoint endpoints tenantId endpointId = some e ∧ e.outboundRateLimitPerMinute = limit
    ∧ 1 ≤ limit

theorem limited_step {tenantId endpointId : Uuid} {limit : Int} (endpoints : Endpoints)
    (now : Instant) (h : Limited tenantId endpointId limit endpoints) :
    Limited tenantId endpointId limit (reserveStep tenantId endpointId endpoints now) := by
  obtain ⟨e, he, hlimit, hpos⟩ := h
  cases hroom : e.hasRoom (windowStart now) with
  | true => exact ⟨_, (reserve_of_room he hroom).2, hlimit, hpos⟩
  | false =>
    rw [(reserve_of_no_room he hroom).2]
    exact ⟨e, he, hlimit, hpos⟩

/-- A call that keeps the window takes what it is granted from its own minute. -/
theorem attemptsLeft_step {tenantId endpointId : Uuid} {limit : Int} (minute : Instant)
    (endpoints : Endpoints) (now : Instant) (h : Limited tenantId endpointId limit endpoints)
    (hkeeps : KeepsWindow tenantId endpointId endpoints now) :
    attemptsLeft tenantId endpointId minute (reserveStep tenantId endpointId endpoints now)
        + (if reservedIn tenantId endpointId minute endpoints now then 1 else 0)
      ≤ attemptsLeft tenantId endpointId minute endpoints := by
  obtain ⟨e, he, hlimit, hpos⟩ := h
  cases hroom : e.hasRoom (windowStart now) with
  | true =>
    obtain ⟨hreserved, hrow⟩ := reserve_of_room he hroom
    -- a call with room is not behind the stored window
    have hforward : ∀ startedAt, e.rateWindowStartedAt = some startedAt →
        startedAt ≤ windowStart now := by
      intro startedAt hstarted
      by_contra hback
      have hfull := hkeeps e startedAt he hstarted (not_le.mp hback)
      simp only [WebhookEndpoint.hasRoom, WebhookEndpoint.windowPassed, hstarted, Option.all_some,
        decide_eq_false (not_lt.mpr (not_le.mp hback).le), Bool.false_or,
        decide_eq_true_eq] at hroom
      exact absurd hroom (not_lt.mpr hfull)
    have hcounted := attemptsLeft_counted (hlimit ▸ hpos) hroom hforward minute
    simpa [attemptsLeft, he, hrow, reservedIn, hreserved] using hcounted
  | false =>
    obtain ⟨hrefused, hsame⟩ := reserve_of_no_room he hroom
    simp [hsame, reservedIn, hrefused]

theorem attemptsLeft_le_limit {e : WebhookEndpoint} (hattempts : 0 ≤ e.rateWindowAttempts)
    (minute : Instant) : e.attemptsLeft minute ≤ e.outboundRateLimitPerMinute.toNat := by
  unfold WebhookEndpoint.attemptsLeft
  split
  · exact le_refl _
  · split
    · exact Nat.zero_le _
    · split
      · omega
      · exact le_refl _

/-- **The rate limit.** In a run of calls on one endpoint in which a call for a minute before the
stored window finds the counter full, each UTC minute is served at most the limit. -/
theorem reserved_le_limit (tenantId endpointId : Uuid) (endpoints : Endpoints)
    (e : WebhookEndpoint) (he : findEndpoint endpoints tenantId endpointId = some e)
    (hlimit : 1 ≤ e.outboundRateLimitPerMinute) (hattempts : 0 ≤ e.rateWindowAttempts)
    (nows : List Instant)
    (hkeeps : AllSteps (reserveStep tenantId endpointId) (KeepsWindow tenantId endpointId) endpoints
      nows) (minute : Instant) :
    (countSteps (reserveStep tenantId endpointId) (reservedIn tenantId endpointId minute) endpoints
      nows : Int) ≤ e.outboundRateLimitPerMinute := by
  have hleft := countSteps_le_of_measure
    (I := Limited tenantId endpointId e.outboundRateLimitPerMinute)
    (m := attemptsLeft tenantId endpointId minute) limited_step (attemptsLeft_step minute)
    ⟨e, he, rfl, hlimit⟩ hkeeps
  have hstart : attemptsLeft tenantId endpointId minute endpoints = e.attemptsLeft minute := by
    simp [attemptsLeft, he]
  have hfirst := attemptsLeft_le_limit hattempts minute
  rw [hstart] at hleft
  omega

/-! ## Going back -/

/-- Calls in the stored minute are all served while the counter has room for them. -/
theorem countSteps_fill {tenantId endpointId : Uuid} {minute : Instant}
    (hminute : windowStart minute = minute) (n : Nat) :
    ∀ {endpoints : Endpoints} {e : WebhookEndpoint},
      findEndpoint endpoints tenantId endpointId = some e → e.rateWindowStartedAt = some minute →
      e.rateWindowAttempts + n ≤ e.outboundRateLimitPerMinute →
        countSteps (reserveStep tenantId endpointId) (reservedIn tenantId endpointId minute)
          endpoints (List.replicate n minute) = n := by
  induction n with
  | zero => intros; rfl
  | succ n ih =>
    intro endpoints e he hstarted hroom
    have hpassed : e.windowPassed minute = false := by
      simp [WebhookEndpoint.windowPassed, hstarted]
    have hhas : e.hasRoom (windowStart minute) = true := by
      simp only [hminute, WebhookEndpoint.hasRoom, hpassed, Bool.false_or, decide_eq_true_eq]
      omega
    obtain ⟨hreserved, hrow⟩ := reserve_of_room he hhas
    have hrest := ih hrow (by simp [WebhookEndpoint.counted, hminute])
      (by simp only [WebhookEndpoint.counted, hminute, hpassed]; simp; omega)
    rw [List.replicate_succ, countSteps, hrest]
    simp [reservedIn, hreserved, hminute, Nat.add_comm]

/-- A call for an earlier minute that is granted hands a minute its whole limit again. -/
theorem limit_le_reserved {tenantId endpointId : Uuid} {endpoints : Endpoints} {e : WebhookEndpoint}
    {minute now : Instant} (he : findEndpoint endpoints tenantId endpointId = some e)
    (hminute : windowStart minute = minute) (hback : windowStart now < minute)
    (hroom : e.rateWindowAttempts < e.outboundRateLimitPerMinute) :
    e.outboundRateLimitPerMinute.toNat ≤ countSteps (reserveStep tenantId endpointId)
      (reservedIn tenantId endpointId minute) endpoints
      (now :: List.replicate e.outboundRateLimitPerMinute.toNat minute) := by
  cases hn : e.outboundRateLimitPerMinute.toNat with
  | zero => exact Nat.zero_le _
  | succ n =>
    -- the call behind the window is granted, and stores its own minute
    have hhas : e.hasRoom (windowStart now) = true := by simp [WebhookEndpoint.hasRoom, hroom]
    obtain ⟨-, hrow⟩ := reserve_of_room he hhas
    -- so the next call in the minute opens a new window
    have hpassed : (e.counted (windowStart now)).windowPassed minute = true := by
      simp [WebhookEndpoint.windowPassed, WebhookEndpoint.counted, hback]
    have hnext : (e.counted (windowStart now)).hasRoom (windowStart minute) = true := by
      simp [hminute, WebhookEndpoint.hasRoom, hpassed]
    obtain ⟨hreserved, hnextRow⟩ := reserve_of_room hrow hnext
    have hfill := countSteps_fill hminute n hnextRow
      (by rw [hminute]; rfl)
      (by
        rw [hminute, WebhookEndpoint.counted, if_pos hpassed]
        change 1 + (n : Int) ≤ e.outboundRateLimitPerMinute
        omega)
    rw [countSteps, List.replicate_succ, countSteps, hfill]
    simp only [reservedIn, hreserved, hminute, decide_true, Bool.and_self, if_true]
    omega

/-- **The rule is needed.** After a run that has served a minute and then breaks the rule for it,
calls in the minute go on to exceed the limit. -/
theorem limit_lt_reserved {tenantId endpointId : Uuid} {endpoints : Endpoints}
    {nows : List Instant} {e : WebhookEndpoint} {minute now : Instant}
    (he : findEndpoint (exec (reserveStep tenantId endpointId) endpoints nows) tenantId endpointId
      = some e)
    (hserved : 0 < countSteps (reserveStep tenantId endpointId)
      (reservedIn tenantId endpointId minute) endpoints nows)
    (hminute : windowStart minute = minute) (hback : windowStart now < minute)
    (hroom : e.rateWindowAttempts < e.outboundRateLimitPerMinute) :
    e.outboundRateLimitPerMinute < countSteps (reserveStep tenantId endpointId)
      (reservedIn tenantId endpointId minute) endpoints
      (nows ++ now :: List.replicate e.outboundRateLimitPerMinute.toNat minute) := by
  have hagain := limit_le_reserved he hminute hback hroom
  rw [countSteps_append]
  omega

/-- A fresh endpoint of two attempts a minute. -/
def slowEndpoint : WebhookEndpoint where
  id := 1
  tenantId := 9
  targetUrl := "https://partner.example/hook"
  secret := "secret"
  eventTypes := ["case.completed"]
  status := .ACTIVE
  outboundRateLimitPerMinute := 2
  rateWindowStartedAt := none
  rateWindowAttempts := 0

def slowEndpoints : Endpoints := ⟨[slowEndpoint], by decide⟩

theorem reserved_le_limit_slow :
    (countSteps (reserveStep 9 1) (reservedIn 9 1 60000) slowEndpoints [0, 60000, 61000] : Int)
      ≤ 2 := by
  refine reserved_le_limit 9 1 slowEndpoints slowEndpoint rfl (by decide) (by decide)
    [0, 60000, 61000] ⟨?_, ?_, ?_, trivial⟩ 60000
  · intro e startedAt he hstarted
    cases he
    cases hstarted
  · intro e startedAt he hstarted hback
    cases he
    cases hstarted
    exact absurd hback (by decide)
  · intro e startedAt he hstarted hback
    cases he
    cases hstarted
    exact absurd hback (by decide)

/-- **A slow tick.** A call for the minute before, between calls of a minute, and the minute is
served three times. -/
theorem slow_tick_exceeds :
    ¬ ∀ (tenantId endpointId : Uuid) (endpoints : Endpoints) (e : WebhookEndpoint),
      findEndpoint endpoints tenantId endpointId = some e → 1 ≤ e.outboundRateLimitPerMinute →
      0 ≤ e.rateWindowAttempts → ∀ (nows : List Instant) (minute : Instant),
        (countSteps (reserveStep tenantId endpointId) (reservedIn tenantId endpointId minute)
          endpoints nows : Int) ≤ e.outboundRateLimitPerMinute := by
  intro h
  have hthree := h 9 1 slowEndpoints slowEndpoint rfl (by decide) (by decide)
    [60000, 59000, 60000, 61000] 60000
  exact absurd hthree (by decide)

end MortgageAgent.Webhook
