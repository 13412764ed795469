import MortgageAgent.Provider.Lifecycle

/-!
# The submission protocol

What the provider platform is for, without the platform: processes that share one status word
for each logical operation, and a log of what reached the provider. A process *holds* an
operation it has found or created, *owns* it from the moment its compare-and-swap to
`DISPATCHED` succeeded, and lets go of it when it has recorded an outcome.

`Move` lists every step, with the three that the argument has to set apart:

* `refusesDispatched` — a process that does not own a dispatched operation records it as failed;
* `losesSuccess` — the owner of an accepted receipt fails to store it and records a failure;
* `abandons` — the owner of a dispatched operation is gone without recording anything.

The invariants: **`SubmitInv`** (every move keeps it: one submission for each operation),
**`OutcomeInv`** (kept by every move but the first two: failures are explained by the log) and
**`OwnerInv`** (kept by every move but the third: a dispatched operation has an owner).
-/

namespace MortgageAgent.Provider

/-! ## Views and moves -/

/-- What a process has in hand. -/
inductive Role where
  | out
  | holding (id : Uuid) (key : OperationKey)
  | refusing (id : Uuid)
  | submitting (id : Uuid) (key : OperationKey)
  | awaiting (id : Uuid)
  | succeeding (id : Uuid)
  | failing (id : Uuid)
  | unsure (id : Uuid)
  deriving DecidableEq

/-- The process has dispatched this operation and not yet recorded its outcome. -/
def Role.owned : Role → Option Uuid
  | .submitting id _ => some id
  | .awaiting id => some id
  | .succeeding id => some id
  | .failing id => some id
  | .unsure id => some id
  | _ => none

/-- The operations, the processes and the history. -/
structure View where
  row : Uuid → Option (OperationKey × ProviderOperationIntentStatus)
  role : Nat → Role
  log : List Event

/-- Process `d` takes a new role and events happen. -/
def View.act (v : View) (d : Nat) (r : Role) (events : List Event) : View :=
  { v with role := Function.update v.role d r, log := v.log ++ events }

/-- Operation `id` takes a new status. -/
def View.set (v : View) (id : Uuid) (key : OperationKey)
    (status : ProviderOperationIntentStatus) : View :=
  { v with row := Function.update v.row id (some (key, status)) }

inductive MoveKind where
  | ordinary
  | refusesDispatched
  | losesSuccess
  | abandons
  deriving DecidableEq

/-- What the outcome of `submit` makes of the owner. -/
inductive Returns (id : Uuid) : SubmitVerdict → Role → Prop where
  | accepted : Returns id .receiptAccepted (.succeeding id)
  | rejected : Returns id .rejected (.failing id)
  | refused : Returns id .receiptRefused (.failing id)
  | failed : Returns id .failed (.unsure id)

/-- The edges that sweeps, operators and dispositions take: none leaves `DISPATCHED`. -/
def OutsideEdge (a b : ProviderOperationIntentStatus) : Prop :=
  StateEdge a b ∧ a ≠ .DISPATCHED ∧ b ≠ .DISPATCHED

inductive Move : MoveKind → View → View → Prop where
  | stay {v : View} : Move .ordinary v v
  | outside {v : View} (row' : Uuid → Option (OperationKey × ProviderOperationIntentStatus))
      (h : ∀ id, row' id = v.row id ∨ ∃ key a b, v.row id = some (key, a)
        ∧ row' id = some (key, b) ∧ OutsideEdge a b) :
      Move .ordinary v { v with row := row' }
  | attach {v : View} (d : Nat) (id : Uuid) (key : OperationKey) (hrole : v.role d = .out)
      (hrow : v.row id = some (key, .PREPARED)) :
      Move .ordinary v (v.act d (.holding id key) [])
  | insert {v : View} (d : Nat) (id : Uuid) (key : OperationKey) (r : Role)
      (hrole : v.role d = .out) (hid : v.row id = none)
      (hkey : ∀ id' status, v.row id' ≠ some (key, status))
      (hr : r = .out ∨ r = .holding id key) :
      Move .ordinary v ((v.set id key .PREPARED).act d r [])
  | refuse {v : View} (d : Nat) (id : Uuid) (key : OperationKey)
      (hrole : v.role d = .holding id key) : Move .ordinary v (v.act d (.refusing id) [])
  | leave {v : View} (d : Nat) (hrole : (v.role d).owned = none) :
      Move .ordinary v (v.act d .out [])
  | leaveOwned {v : View} (d : Nat) (id : Uuid) (hrole : (v.role d).owned = some id)
      (hrow : ∀ key, v.row id ≠ some (key, .DISPATCHED)) : Move .ordinary v (v.act d .out [])
  | refuseRow {v : View} (d : Nat) (id : Uuid) (key : OperationKey)
      (status : ProviderOperationIntentStatus) (hrole : v.role d = .refusing id)
      (hrow : v.row id = some (key, status)) (h : status = .PREPARED ∨ status = .DISPATCHED) :
      Move (if status = .DISPATCHED then .refusesDispatched else .ordinary) v
        ((v.set id key .FAILED_FINAL).act d .out [.failedFinal id])
  | dispatched {v : View} (d : Nat) (id : Uuid) (key : OperationKey)
      (hrole : v.role d = .holding id key) (hrow : v.row id = some (key, .PREPARED)) :
      Move .ordinary v ((v.set id key .DISPATCHED).act d (.submitting id key) [])
  | submit {v : View} (d : Nat) (id : Uuid) (key : OperationKey)
      (hrole : v.role d = .submitting id key) :
      Move .ordinary v (v.act d (.awaiting id) [.submitted id key])
  | returned {v : View} (d : Nat) (id : Uuid) (verdict : SubmitVerdict) (r : Role)
      (hrole : v.role d = .awaiting id) (h : Returns id verdict r) :
      Move .ordinary v (v.act d r [.returned id verdict])
  | succeed {v : View} (d : Nat) (id : Uuid) (key : OperationKey)
      (hrole : v.role d = .succeeding id) (hrow : v.row id = some (key, .DISPATCHED)) :
      Move .ordinary v ((v.set id key .SUCCEEDED).act d .out [])
  | succeedRaced {v : View} (d : Nat) (id : Uuid) (hrole : v.role d = .succeeding id)
      (hrow : ∀ key, v.row id ≠ some (key, .DISPATCHED)) :
      Move .ordinary v (v.act d (.failing id) [])
  | losesSuccess {v : View} (d : Nat) (id : Uuid) (hrole : v.role d = .succeeding id) :
      Move .losesSuccess v (v.act d (.failing id) [])
  | fail {v : View} (d : Nat) (id : Uuid) (key : OperationKey)
      (status : ProviderOperationIntentStatus) (hrole : v.role d = .failing id)
      (hrow : v.row id = some (key, status)) (h : status = .PREPARED ∨ status = .DISPATCHED) :
      Move .ordinary v ((v.set id key .FAILED_FINAL).act d .out [.failedFinal id])
  | lose {v : View} (d : Nat) (id : Uuid) (key : OperationKey)
      (hrole : v.role d = .unsure id) (hrow : v.row id = some (key, .DISPATCHED)) :
      Move .ordinary v ((v.set id key .OUTCOME_UNKNOWN).act d .out [])
  | abandon {v : View} (d : Nat) (id : Uuid) (hrole : (v.role d).owned = some id) :
      Move .abandons v (v.act d .out [])

/-! ## What a move does to the rows -/

@[simp, grind =] theorem View.act_row (v : View) (d : Nat) (r : Role) (events : List Event)
    (id : Uuid) : (v.act d r events).row id = v.row id := rfl

@[simp, grind =] theorem View.act_log (v : View) (d : Nat) (r : Role) (events : List Event) :
    (v.act d r events).log = v.log ++ events := rfl

@[grind =] theorem View.act_role (v : View) (d : Nat) (r : Role) (events : List Event)
    (d' : Nat) : (v.act d r events).role d' = if d' = d then r else v.role d' := by
  simp [View.act, Function.update_apply]

@[simp, grind =] theorem View.set_role (v : View) (id : Uuid) (key : OperationKey)
    (status : ProviderOperationIntentStatus) (d : Nat) :
    (v.set id key status).role d = v.role d := rfl

@[simp, grind =] theorem View.set_log (v : View) (id : Uuid) (key : OperationKey)
    (status : ProviderOperationIntentStatus) : (v.set id key status).log = v.log := rfl

@[grind =] theorem View.set_row (v : View) (id : Uuid) (key : OperationKey)
    (status : ProviderOperationIntentStatus) (id' : Uuid) :
    (v.set id key status).row id' = if id' = id then some (key, status) else v.row id' := by
  simp [View.set, Function.update_apply]

/-- An operation keeps its key, and its status stays or follows an edge. -/
theorem set_row_step {v : View} {id : Uuid} {key : OperationKey}
    {a b : ProviderOperationIntentStatus} (hrow : v.row id = some (key, a)) (hedge : StateEdge a b)
    {id' : Uuid} {key' : OperationKey} {status : ProviderOperationIntentStatus}
    (h : v.row id' = some (key', status)) :
    ∃ status', (v.set id key b).row id' = some (key', status')
      ∧ (status' = status ∨ StateEdge status status') := by
  rw [View.set_row]
  -- the operation that was set took the edge; any other row is the row it was.
  by_cases hid : id' = id
  · subst hid
    rw [hrow] at h
    cases h
    exact ⟨b, if_pos rfl, Or.inr hedge⟩
  · exact ⟨status, by rw [if_neg hid, h], Or.inl rfl⟩

theorem Move.row_step {k : MoveKind} {v v' : View} (hmove : Move k v v') {id : Uuid}
    {key : OperationKey} {status : ProviderOperationIntentStatus}
    (h : v.row id = some (key, status)) :
    ∃ status', v'.row id = some (key, status')
      ∧ (status' = status ∨ StateEdge status status') := by
  cases hmove with
  | outside row' hrow =>
    rcases hrow id with hsame | ⟨key', a, b, ha, hb, hedge⟩
    · exact ⟨status, hsame.trans h, Or.inl rfl⟩
    · rw [h] at ha
      cases ha
      exact ⟨b, hb, Or.inr hedge.1⟩
  | insert d id' key' r hrole hid hkey hr =>
    refine ⟨status, ?_, Or.inl rfl⟩
    rw [View.act_row, View.set_row, if_neg, h]
    -- the id of an insert was free, so it is not the id of a row that exists.
    rintro rfl
    rw [hid] at h
    cases h
  | refuseRow d id' key' a hrole hrow ha =>
    rw [View.act_row]
    refine set_row_step hrow ?_ h
    rcases ha with rfl | rfl
    · exact .refuse
    · exact .fail
  | fail d id' key' a hrole hrow ha =>
    rw [View.act_row]
    refine set_row_step hrow ?_ h
    rcases ha with rfl | rfl
    · exact .refuse
    · exact .fail
  | dispatched d id' key' hrole hrow => exact set_row_step hrow .dispatch h
  | succeed d id' key' hrole hrow => exact set_row_step hrow .succeed h
  | lose d id' key' hrole hrow => exact set_row_step hrow .lose h
  | _ => exact ⟨status, h, Or.inl rfl⟩

/-- Leaving `PREPARED` is final. -/
theorem Move.row_dispatched {k : MoveKind} {v v' : View} (hmove : Move k v v') {id : Uuid}
    {key : OperationKey} {status : ProviderOperationIntentStatus}
    (h : v.row id = some (key, status)) (hstatus : status ≠ .PREPARED) :
    ∃ status', status' ≠ .PREPARED ∧ v'.row id = some (key, status') := by
  obtain ⟨status', hrow, rfl | hedge⟩ := hmove.row_step h
  · exact ⟨status', hstatus, hrow⟩
  · exact ⟨status', hedge.ne_prepared, hrow⟩

/-- A row after a move was there before under the same key, or is the new one. -/
theorem Move.row_origin {k : MoveKind} {v v' : View} (hmove : Move k v v') {id : Uuid}
    {key : OperationKey} {status : ProviderOperationIntentStatus}
    (h : v'.row id = some (key, status)) :
    (∃ status', v.row id = some (key, status'))
      ∨ ∀ id' status', v.row id' ≠ some (key, status') := by
  -- the moves that write a row overwrite one that exists, under its own key.
  have hset : ∀ (id' : Uuid) (key' : OperationKey) (a b : ProviderOperationIntentStatus),
      v.row id' = some (key', a) → (v.set id' key' b).row id = some (key, status) →
        ∃ status', v.row id = some (key, status') := by
    intro id' key' a b ha hb
    rw [View.set_row] at hb
    by_cases hid : id = id'
    · subst hid
      rw [if_pos rfl] at hb
      cases hb
      exact ⟨a, ha⟩
    · exact ⟨status, by rwa [if_neg hid] at hb⟩
  cases hmove with
  | outside row' hrow =>
    rcases hrow id with hsame | ⟨key', a, b, ha, hb, -⟩
    · exact Or.inl ⟨status, hsame.symm.trans h⟩
    · have hb' : row' id = some (key, status) := h
      rw [hb] at hb'
      cases hb'
      exact Or.inl ⟨a, ha⟩
  | insert d id' key' r hrole hid hkey hr =>
    rw [View.act_row, View.set_row] at h
    by_cases hid' : id = id'
    · rw [if_pos hid'] at h
      cases h
      exact Or.inr hkey
    · rw [if_neg hid'] at h
      exact Or.inl ⟨status, h⟩
  | refuseRow d id' key' a hrole hrow ha => exact Or.inl (hset id' key' a _ hrow h)
  | fail d id' key' a hrole hrow ha => exact Or.inl (hset id' key' a _ hrow h)
  | dispatched d id' key' hrole hrow => exact Or.inl (hset id' key' _ _ hrow h)
  | succeed d id' key' hrole hrow => exact Or.inl (hset id' key' _ _ hrow h)
  | lose d id' key' hrole hrow => exact Or.inl (hset id' key' _ _ hrow h)
  | _ => exact Or.inl ⟨status, h⟩

/-! ## Where roles and events come from -/

theorem Move.holding_origin {k : MoveKind} {v v' : View} (hmove : Move k v v') {d : Nat}
    {id : Uuid} {key : OperationKey} (h : v'.role d = .holding id key) :
    v.role d = .holding id key ∨ ∃ status, v'.row id = some (key, status) := by
  cases hmove with
  | attach d' id' key' hrole hrow =>
    by_cases hd : d = d'
    · have hr : Role.holding id' key' = .holding id key := by simpa [View.act_role, hd] using h
      cases hr
      exact Or.inr ⟨.PREPARED, hrow⟩
    · exact Or.inl (by simpa [View.act_role, hd] using h)
  | insert d' id' key' r hrole hid hkey hr =>
    by_cases hd : d = d'
    · have hr' : r = .holding id key := by simpa [View.act_role, hd] using h
      rcases hr with rfl | rfl
      · cases hr'
      · cases hr'
        exact Or.inr ⟨.PREPARED, by simp [View.set_row]⟩
    · exact Or.inl (by simpa [View.act_role, hd] using h)
  -- no other move makes a process hold an operation.
  | _ => grind [Returns]

/-- A process starts to submit only by winning the compare-and-swap. -/
theorem Move.submitting_origin {k : MoveKind} {v v' : View} (hmove : Move k v v') {d : Nat}
    {id : Uuid} {key : OperationKey} (h : v'.role d = .submitting id key) :
    v.role d = .submitting id key
      ∨ (v.role d = .holding id key ∧ v.row id = some (key, .PREPARED)
        ∧ v'.row id = some (key, .DISPATCHED) ∧ v'.log = v.log) := by
  cases hmove <;> grind [Returns]

/-- A submission is logged only by a process that was about to submit, and then awaits. -/
theorem Move.log_submitted {k : MoveKind} {v v' : View} (hmove : Move k v v') {id : Uuid}
    {key : OperationKey} (h : .submitted id key ∈ v'.log) :
    .submitted id key ∈ v.log
      ∨ ∃ d, v.role d = .submitting id key ∧ v'.role d = .awaiting id := by
  cases hmove with
  | submit d id' key' hrole =>
    rw [View.act_log, List.mem_append, List.mem_singleton] at h
    rcases h with h | h
    · exact Or.inl h
    · cases h
      exact Or.inr ⟨d, hrole, by simp [View.act_role]⟩
  | _ => grind

/-! ## One submission -/

def Event.submits (id : Uuid) : Event → Bool
  | .submitted id' _ => id' = id
  | _ => false

def Event.submitsKey (key : OperationKey) : Event → Bool
  | .submitted _ key' => key' = key
  | _ => false

structure SubmitInv (v : View) : Prop where
  keys : ∀ id id' key a b, v.row id = some (key, a) → v.row id' = some (key, b) → id = id'
  held : ∀ d id key, v.role d = .holding id key → ∃ a, v.row id = some (key, a)
  left : ∀ d id key, v.role d = .submitting id key →
    ∃ a, a ≠ .PREPARED ∧ v.row id = some (key, a)
  unsubmitted : ∀ d id key, v.role d = .submitting id key → ∀ key', .submitted id key' ∉ v.log
  one : ∀ d d' id key key', v.role d = .submitting id key → v.role d' = .submitting id key' →
    d = d'
  logged : ∀ id key, .submitted id key ∈ v.log → ∃ a, a ≠ .PREPARED ∧ v.row id = some (key, a)
  once : ∀ id, v.log.countP (Event.submits id) ≤ 1

/-- New rows have new keys. -/
theorem Move.keys {k : MoveKind} {v v' : View} (hmove : Move k v v') (hI : SubmitInv v)
    (id id' : Uuid) (key : OperationKey) (a b : ProviderOperationIntentStatus)
    (h : v'.row id = some (key, a)) (h' : v'.row id' = some (key, b)) : id = id' := by
  rcases hmove.row_origin h with ⟨a0, ha⟩ | hnew
  · rcases hmove.row_origin h' with ⟨b0, hb⟩ | hnew
    · exact hI.keys id id' key a0 b0 ha hb
    · exact absurd ha (hnew id a0)
  · -- both are the row this move inserted
    cases hmove with
    | insert d i k r hrole hid hkey hr =>
      grind
    | outside row' hrow =>
      rcases hrow id with hsame | ⟨key', x, y, hx, hy, -⟩
      · exact absurd (hsame.symm.trans h) (hnew id a)
      · have hy' : row' id = some (key, a) := h
        rw [hy] at hy'
        cases hy'
        exact absurd hx (hnew id x)
    | _ => grind

/-- The log grows by at most one submission of an operation, and only when it had none. -/
theorem Move.once {k : MoveKind} {v v' : View} (hmove : Move k v v') (hI : SubmitInv v)
    (id : Uuid) : v'.log.countP (Event.submits id) ≤ 1 := by
  have hI' := hI.once id
  cases hmove with
  | submit d id' key' hrole =>
    rw [View.act_log, List.countP_append]
    by_cases hid : id' = id
    · subst hid
      -- the process was about to submit, and such an operation has no submission in the log.
      have hzero : v.log.countP (Event.submits id') = 0 := by
        rw [List.countP_eq_zero]
        intro e he hsub
        cases e with
        | submitted i key =>
          obtain rfl : i = id' := by simpa [Event.submits] using hsub
          exact hI.unsubmitted d i key' hrole key he
        | returned i verdict => cases hsub
        | failedFinal i => cases hsub
      simp [hzero, Event.submits]
    · simp [Event.submits, hid, hI']
  | returned d id' verdict r hrole h => simpa [List.countP_append, Event.submits] using hI'
  | refuseRow d id' key a hrole hrow h => simpa [List.countP_append, Event.submits] using hI'
  | fail d id' key a hrole hrow h => simpa [List.countP_append, Event.submits] using hI'
  | _ => simpa using hI'

theorem SubmitInv.move {k : MoveKind} {v v' : View} (hI : SubmitInv v) (hmove : Move k v v') :
    SubmitInv v' where
  keys := hmove.keys hI
  held := by
    intro d id key h
    rcases hmove.holding_origin h with h | h
    · obtain ⟨a, ha⟩ := hI.held d id key h
      obtain ⟨b, hb, -⟩ := hmove.row_step ha
      exact ⟨b, hb⟩
    · exact h
  left := by
    intro d id key h
    rcases hmove.submitting_origin h with h | ⟨-, -, hrow, -⟩
    · obtain ⟨a, ha, hrow⟩ := hI.left d id key h
      exact hmove.row_dispatched hrow ha
    · exact ⟨.DISPATCHED, nofun, hrow⟩
  unsubmitted := by
    intro d id key h key' hlog
    rcases hmove.submitting_origin h with hd | ⟨-, hrow, -, hsame⟩
    · rcases hmove.log_submitted hlog with hlog | ⟨d', hd', hawaiting⟩
      · exact hI.unsubmitted d id key hd key' hlog
      · -- the one that submitted is `d`, which then no longer is about to
        obtain rfl := hI.one d d' id key key' hd hd'
        rw [h] at hawaiting
        cases hawaiting
    · -- the row was `PREPARED`, so nothing has been submitted under it
      obtain ⟨a, ha, hrow'⟩ := hI.logged id key' (hsame ▸ hlog)
      rw [hrow] at hrow'
      cases hrow'
      exact ha rfl
  one := by
    intro d d' id key key' h h'
    rcases hmove.submitting_origin h with hd | ⟨hd, hrow, -, -⟩
    · rcases hmove.submitting_origin h' with hd' | ⟨-, hrow, -, -⟩
      · exact hI.one d d' id key key' hd hd'
      · obtain ⟨a, ha, hrow'⟩ := hI.left d id key hd
        rw [hrow] at hrow'
        cases hrow'
        exact absurd rfl ha
    · rcases hmove.submitting_origin h' with hd' | ⟨hd', -, -, -⟩
      · obtain ⟨a, ha, hrow'⟩ := hI.left d' id key' hd'
        rw [hrow] at hrow'
        cases hrow'
        exact absurd rfl ha
      · -- both won in this move: only one process moves
        cases hmove <;> grind [Returns]
  logged := by
    intro id key hlog
    rcases hmove.log_submitted hlog with hlog | ⟨d, hd, -⟩
    · obtain ⟨a, ha, hrow⟩ := hI.logged id key hlog
      exact hmove.row_dispatched hrow ha
    · obtain ⟨a, ha, hrow⟩ := hI.left d id key hd
      exact hmove.row_dispatched hrow ha
  once := hmove.once hI

/-- An operation's key was submitted at most once, whichever row it was under. -/
theorem SubmitInv.once_per_key {v : View} (hI : SubmitInv v) (key : OperationKey) :
    v.log.countP (Event.submitsKey key) ≤ 1 := by
  by_cases hex : ∃ id, .submitted id key ∈ v.log
  · obtain ⟨id, hid⟩ := hex
    obtain ⟨a, -, hrow⟩ := hI.logged id key hid
    -- every submission under this key is of one row, and that row was submitted once.
    refine le_trans (List.countP_mono_left ?_) (hI.once id)
    intro e he hkey
    cases e with
    | submitted id' key' =>
      obtain rfl : key' = key := by simpa [Event.submitsKey] using hkey
      obtain ⟨b, -, hrow'⟩ := hI.logged id' key' he
      simp [Event.submits, hI.keys id' id key' b a hrow' hrow]
    | returned id' verdict => cases hkey
    | failedFinal id' => cases hkey
  · refine le_trans (le_of_eq ?_) (Nat.zero_le 1)
    rw [List.countP_eq_zero]
    intro e he hkey
    cases e with
    | submitted id' key' =>
      obtain rfl : key' = key := by simpa [Event.submitsKey] using hkey
      exact hex ⟨id', he⟩
    | returned id' verdict => cases hkey
    | failedFinal id' => cases hkey

/-! ## Outcomes -/

/-- A dispatched operation has one owner, and every recorded failure is explained by the log:
nothing was submitted, or the provider refused, or its receipt did. -/
structure OutcomeInv (v : View) : Prop where
  owner : ∀ d d' id, (v.role d).owned = some id → (v.role d').owned = some id → d = d'
  dispatched : ∀ d id, (v.role d).owned = some id → ∃ key, v.row id = some (key, .DISPATCHED)
  submitted : ∀ d id, v.role d = .awaiting id → ∃ key, .submitted id key ∈ v.log
  unreturned : ∀ d id, v.role d = .awaiting id → ∀ verdict, .returned id verdict ∉ v.log
  returned : ∀ id verdict, .returned id verdict ∈ v.log → ∃ key, .submitted id key ∈ v.log
  verdict : ∀ id a b, .returned id a ∈ v.log → .returned id b ∈ v.log → a = b
  failing : ∀ d id, v.role d = .failing id →
    .returned id .rejected ∈ v.log ∨ .returned id .receiptRefused ∈ v.log
  failed : ∀ id, .failedFinal id ∈ v.log → ∃ key, v.row id = some (key, .FAILED_FINAL)
  explained : ∀ id, .failedFinal id ∈ v.log → (∀ key, .submitted id key ∉ v.log)
    ∨ .returned id .rejected ∈ v.log ∨ .returned id .receiptRefused ∈ v.log

/-- A process comes to own an operation only by winning the compare-and-swap. -/
theorem Move.owned_origin {k : MoveKind} {v v' : View} (hmove : Move k v v') {d : Nat}
    {id : Uuid} (h : (v'.role d).owned = some id) :
    (v.role d).owned = some id
      ∨ ∃ key, v.role d = .holding id key ∧ v.row id = some (key, .PREPARED)
        ∧ v'.row id = some (key, .DISPATCHED) := by
  cases hmove with
  | returned d' id' verdict r hrole hr => cases hr <;> grind [Role.owned]
  | _ => grind [Role.owned]

theorem Move.owner {k : MoveKind} {v v' : View} (hmove : Move k v v') (hI : OutcomeInv v)
    (d d' : Nat) (id : Uuid) (h : (v'.role d).owned = some id)
    (h' : (v'.role d').owned = some id) : d = d' := by
  rcases hmove.owned_origin h with hd | ⟨key, hd, hrow, -⟩
  · rcases hmove.owned_origin h' with hd' | ⟨key, -, hrow, -⟩
    · exact hI.owner d d' id hd hd'
    · -- `d'` found the row `PREPARED` while `d` owned it: an owned row is `DISPATCHED`.
      obtain ⟨key', hrow'⟩ := hI.dispatched d id hd
      rw [hrow] at hrow'
      cases hrow'
  · rcases hmove.owned_origin h' with hd' | ⟨key', hd', -, -⟩
    · obtain ⟨key', hrow'⟩ := hI.dispatched d' id hd'
      rw [hrow] at hrow'
      cases hrow'
    · cases hmove <;> grind [Role.owned, Returns]

theorem Move.dispatched_row {k : MoveKind} {v v' : View} (hmove : Move k v v')
    (hk : k ≠ .refusesDispatched) (hI : OutcomeInv v) (d : Nat) (id : Uuid)
    (h : (v'.role d).owned = some id) : ∃ key, v'.row id = some (key, .DISPATCHED) := by
  rcases hmove.owned_origin h with hd | ⟨key, -, -, hrow⟩
  · obtain ⟨key, hrow⟩ := hI.dispatched d id hd
    refine ⟨key, ?_⟩
    have howner := hI.owner
    cases hmove with
    -- sweeps, operators and dispositions take no edge out of `DISPATCHED`.
    | outside row' hout =>
      rcases hout id with hsame | ⟨key', a, b, ha, -, -, hne, -⟩
      · exact hsame.trans hrow
      · rw [hrow] at ha
        cases ha
        exact absurd rfl hne
    | _ => grind [Role.owned]
  · exact ⟨key, hrow⟩

theorem Move.log_mono {k : MoveKind} {v v' : View} (hmove : Move k v v') {e : Event}
    (h : e ∈ v.log) : e ∈ v'.log := by
  cases hmove <;> first | exact h | exact List.mem_append_left _ h

/-- A return is logged only by a process that awaited it. -/
theorem Move.log_returned {k : MoveKind} {v v' : View} (hmove : Move k v v') {id : Uuid}
    {verdict : SubmitVerdict} (h : .returned id verdict ∈ v'.log) :
    .returned id verdict ∈ v.log
      ∨ ∃ d r, v.role d = .awaiting id ∧ Returns id verdict r ∧ v'.role d = r
        ∧ v'.log = v.log ++ [.returned id verdict] := by
  cases hmove with
  | returned d id' verdict' r hrole hr =>
    rw [View.act_log, List.mem_append, List.mem_singleton] at h
    rcases h with h | h
    · exact Or.inl h
    · cases h
      exact Or.inr ⟨d, r, hrole, hr, by simp [View.act_role], rfl⟩
  | _ => grind

theorem Move.awaiting_origin {k : MoveKind} {v v' : View} (hmove : Move k v v') {d : Nat}
    {id : Uuid} (h : v'.role d = .awaiting id) :
    v.role d = .awaiting id
      ∨ ∃ key, v.role d = .submitting id key ∧ v'.log = v.log ++ [.submitted id key] := by
  cases hmove with
  | returned d' id' verdict r hrole hr => cases hr <;> grind
  | _ => grind

/-- A process fails an operation because of a verdict, or because it could not store a
success: the row had moved, or the store failed. -/
theorem Move.failing_origin {k : MoveKind} {v v' : View} (hmove : Move k v v') {d : Nat}
    {id : Uuid} (h : v'.role d = .failing id) :
    v.role d = .failing id
      ∨ (.returned id .rejected ∈ v'.log ∨ .returned id .receiptRefused ∈ v'.log)
      ∨ (v.role d = .succeeding id
        ∧ (k = .losesSuccess ∨ ∀ key, v.row id ≠ some (key, .DISPATCHED))) := by
  cases hmove with
  | returned d' id' verdict r hrole hr => cases hr <;> grind
  | _ => grind

/-- `FAILED_FINAL` is logged with the write, by a process that refuses or fails. -/
theorem Move.log_failed {k : MoveKind} {v v' : View} (hmove : Move k v v') {id : Uuid}
    (h : .failedFinal id ∈ v'.log) :
    .failedFinal id ∈ v.log
      ∨ ((∃ key, v'.row id = some (key, .FAILED_FINAL)) ∧ v'.log = v.log ++ [.failedFinal id]
        ∧ ((∃ d, v.role d = .failing id) ∨ (∃ key, v.row id = some (key, .PREPARED))
          ∨ k = .refusesDispatched)) := by
  cases hmove with
  | refuseRow d id' key a hrole hrow ha =>
    rw [View.act_log, List.mem_append, List.mem_singleton] at h
    rcases h with h | h
    · exact Or.inl h
    · cases h
      refine Or.inr ⟨⟨key, by simp [View.set_row]⟩, rfl, Or.inr ?_⟩
      -- the compare-and-swap of `markFailedFinal` accepts both source states.
      rcases ha with rfl | rfl
      · exact Or.inl ⟨key, hrow⟩
      · exact Or.inr rfl
  | fail d id' key a hrole hrow ha =>
    rw [View.act_log, List.mem_append, List.mem_singleton] at h
    rcases h with h | h
    · exact Or.inl h
    · cases h
      exact Or.inr ⟨⟨key, by simp [View.set_row]⟩, rfl, Or.inl ⟨d, hrole⟩⟩
  | _ => grind

/-- A failed operation stays failed. -/
theorem Move.row_failed {k : MoveKind} {v v' : View} (hmove : Move k v v') {id : Uuid}
    {key : OperationKey} (h : v.row id = some (key, .FAILED_FINAL)) :
    v'.row id = some (key, .FAILED_FINAL) := by
  obtain ⟨b, hb, rfl | hedge⟩ := hmove.row_step h
  · exact hb
  · cases hedge.not_terminal

theorem OutcomeInv.move {k : MoveKind} {v v' : View} (hS : SubmitInv v) (hI : OutcomeInv v)
    (hmove : Move k v v') (hrefuse : k ≠ .refusesDispatched) (hlose : k ≠ .losesSuccess) :
    OutcomeInv v' where
  owner := hmove.owner hI
  dispatched := hmove.dispatched_row hrefuse hI
  submitted := by
    intro d id h
    rcases hmove.awaiting_origin h with h | ⟨key, -, hlog⟩
    · obtain ⟨key, hkey⟩ := hI.submitted d id h
      exact ⟨key, hmove.log_mono hkey⟩
    · exact ⟨key, by simp [hlog]⟩
  unreturned := by
    intro d id h verdict hverdict
    rcases hmove.awaiting_origin h with hd | ⟨key, hd, hlog⟩
    · rcases hmove.log_returned hverdict with hverdict | ⟨d', r, hd', hr, hrole, -⟩
      · exact hI.unreturned d id hd verdict hverdict
      · obtain rfl := hI.owner d d' id (by rw [hd]; rfl) (by rw [hd']; rfl)
        rw [h] at hrole
        subst hrole
        cases hr
    · -- about to submit: nothing was submitted, so nothing has returned
      have hold : .returned id verdict ∈ v.log := by simpa [hlog] using hverdict
      obtain ⟨key', hkey'⟩ := hI.returned id verdict hold
      exact hS.unsubmitted d id key hd key' hkey'
  returned := by
    intro id verdict h
    rcases hmove.log_returned h with h | ⟨d, r, hd, -, -, -⟩
    · obtain ⟨key, hkey⟩ := hI.returned id verdict h
      exact ⟨key, hmove.log_mono hkey⟩
    · obtain ⟨key, hkey⟩ := hI.submitted d id hd
      exact ⟨key, hmove.log_mono hkey⟩
  verdict := by
    intro id a b ha hb
    rcases hmove.log_returned ha with ha' | ⟨d, r, hd, -, -, hlog⟩
    · rcases hmove.log_returned hb with hb' | ⟨d, r, hd, -, -, -⟩
      · exact hI.verdict id a b ha' hb'
      · exact absurd ha' (hI.unreturned d id hd a)
    · -- the first return of this operation: `b` is the same event
      rw [hlog, List.mem_append, List.mem_singleton] at hb
      rcases hb with hb | hb
      · exact absurd hb (hI.unreturned d id hd b)
      · cases hb; rfl
  failing := by
    intro d id h
    rcases hmove.failing_origin h with h | h | ⟨hd, hk | hrow⟩
    · exact (hI.failing d id h).imp hmove.log_mono hmove.log_mono
    · exact h
    · exact absurd hk hlose
    · obtain ⟨key, hkey⟩ := hI.dispatched d id (by rw [hd]; rfl)
      exact absurd hkey (hrow key)
  failed := by
    intro id h
    rcases hmove.log_failed h with h | ⟨hrow, -, -⟩
    · obtain ⟨key, hkey⟩ := hI.failed id h
      exact ⟨key, hmove.row_failed hkey⟩
    · exact hrow
  explained := by
    intro id h
    rcases hmove.log_failed h with h | ⟨-, hlog, ⟨d, hd⟩ | ⟨key, hrow⟩ | hk⟩
    · rcases hI.explained id h with hnone | hbad
      · refine Or.inl fun key hkey => ?_
        rcases hmove.log_submitted hkey with hkey | ⟨d, hd, -⟩
        · exact hnone key hkey
        · -- its row is `FAILED_FINAL`, the row of a process about to submit `DISPATCHED`
          obtain ⟨key1, hfailed⟩ := hI.failed id h
          obtain ⟨key2, hdisp⟩ := hI.dispatched d id (by rw [hd]; rfl)
          rw [hfailed] at hdisp
          cases hdisp
      · exact Or.inr (hbad.imp hmove.log_mono hmove.log_mono)
    · exact Or.inr ((hI.failing d id hd).imp hmove.log_mono hmove.log_mono)
    · -- refused while `PREPARED`: never submitted
      refine Or.inl fun key' hkey' => ?_
      have hold : .submitted id key' ∈ v.log := by simpa [hlog] using hkey'
      obtain ⟨a, ha, hrow'⟩ := hS.logged id key' hold
      rw [hrow] at hrow'
      cases hrow'
      exact ha rfl
    · exact absurd hk hrefuse

/-- An accepted receipt is never recorded as a failure. -/
theorem OutcomeInv.accepted {v : View} (hI : OutcomeInv v) {id : Uuid}
    (h : .returned id .receiptAccepted ∈ v.log) : .failedFinal id ∉ v.log := by
  intro hfailed
  rcases hI.explained id hfailed with hnone | hbad | hbad
  · -- what returned was submitted; and an operation has one verdict, here another one.
    obtain ⟨key, hkey⟩ := hI.returned id _ h
    exact hnone key hkey
  · cases hI.verdict id _ _ h hbad
  · cases hI.verdict id _ _ h hbad

/-! ## Owners -/

/-- Every dispatched operation has a process that will record its outcome. -/
def OwnerInv (v : View) : Prop :=
  ∀ id key, v.row id = some (key, .DISPATCHED) → ∃ d, (v.role d).owned = some id

/-- An owner lets go only of an operation that is no longer dispatched. -/
theorem Move.owner_stays {k : MoveKind} {v v' : View} (hmove : Move k v v')
    (hk : k ≠ .abandons) {d : Nat} {id : Uuid} (h : (v.role d).owned = some id) :
    (v'.role d).owned = some id ∨ ∀ key, v'.row id ≠ some (key, .DISPATCHED) := by
  cases hmove with
  | returned d' id' verdict r hrole hr => cases hr <;> grind [Role.owned]
  | _ => grind [Role.owned]

/-- An operation becomes dispatched only in the hands of the process that dispatched it. -/
theorem Move.dispatched_origin {k : MoveKind} {v v' : View} (hmove : Move k v v') {id : Uuid}
    {key : OperationKey} (h : v'.row id = some (key, .DISPATCHED)) :
    v.row id = some (key, .DISPATCHED) ∨ ∃ d, (v'.role d).owned = some id := by
  cases hmove with
  | outside row' hout =>
    rcases hout id with hsame | ⟨key', a, b, -, hb, -, -, hne⟩
    · exact Or.inl (hsame.symm.trans h)
    · have hb' : row' id = some (key, .DISPATCHED) := h
      rw [hb] at hb'
      cases hb'
      exact absurd rfl hne
  | dispatched d id' key' hrole hrow =>
    by_cases hid : id = id'
    · exact Or.inr ⟨d, by simp [View.act_role, Role.owned, hid]⟩
    · exact Or.inl (by simpa [View.set_row, hid] using h)
  | _ => grind

theorem OwnerInv.move {k : MoveKind} {v v' : View} (hI : OwnerInv v) (hmove : Move k v v')
    (hk : k ≠ .abandons) : OwnerInv v' := by
  intro id key h
  rcases hmove.dispatched_origin h with hrow | hnew
  · obtain ⟨d, hd⟩ := hI id key hrow
    rcases hmove.owner_stays hk hd with hd' | hgone
    · exact ⟨d, hd'⟩
    · exact absurd h (hgone key)
  · exact hnew

/-! ## Abandoned operations -/

/-- The operation a process has in hand. -/
def Role.operation : Role → Option Uuid
  | .out => none
  | .holding id _ => some id
  | .refusing id => some id
  | .submitting id _ => some id
  | .awaiting id => some id
  | .succeeding id => some id
  | .failing id => some id
  | .unsure id => some id

theorem Role.operation_of_owned {r : Role} {id : Uuid} (h : r.owned = some id) :
    r.operation = some id := by
  cases r <;> first | exact h | cases h

/-- A dispatched operation that no process has in hand. -/
structure Abandoned (v : View) (id : Uuid) (key : OperationKey) : Prop where
  row : v.row id = some (key, .DISPATCHED)
  role : ∀ d, (v.role d).operation ≠ some id

/-- Nothing ever moves it again: a process takes up only what is `PREPARED`, and nobody else
leaves `DISPATCHED`. -/
theorem Abandoned.move {k : MoveKind} {v v' : View} {id : Uuid} {key : OperationKey}
    (h : Abandoned v id key) (hmove : Move k v v') : Abandoned v' id key := by
  obtain ⟨hrow, hrole⟩ := h
  cases hmove with
  | outside row' hout =>
    refine ⟨?_, hrole⟩
    rcases hout id with hsame | ⟨key', a, b, ha, -, -, hne, -⟩
    · exact hsame.trans hrow
    · rw [hrow] at ha
      cases ha
      exact absurd rfl hne
  | returned d id' verdict r hd hr =>
    refine ⟨hrow, fun d' => ?_⟩
    have := hrole d
    cases hr <;> grind [Role.operation]
  -- the remaining moves act on an operation some process has in hand, or on a new one.
  | _ => constructor <;> grind [Role.operation]

end MortgageAgent.Provider
