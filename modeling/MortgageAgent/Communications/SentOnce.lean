import MortgageAgent.Communications.Approval

/-!
# Each message is sent once

`deliver` refuses a message that is `SENT`, and `approve` is meant for one that waits; but
`approve` only refuses `APPROVED`, and both decide on a read that nothing protects until they
write.

* **`SentOnce`** — the channel has accepted no message twice.
* **`SendsOnce`** — the condition: no approval is written over a `SENT` row, deliveries of one
  message do not overlap, and a delivery that has handed over gets its row written.
* **`SendInv`** — what is under way, and what has been handed over and is marked.
* **`sent_once`** — over every run whose steps meet the condition.
* **`approval_after_send_resends`** — an approval of a message that has been sent.
-/

namespace MortgageAgent.Communications

open Runs

/-! ## The promise and its condition -/

/-- How often the channel has accepted the message. -/
def System.sentCount (s : System) (id : Uuid) : Nat :=
  s.handedOver.countP fun h => h.communicationMessageId = id

def SentOnce (s : System) : Prop := ∀ id, s.sentCount id ≤ 1

/-- The message that a `deliver` has read and not yet settled. -/
def DeliverState.underWay : DeliverState → Option Uuid
  | .ready m | .handedOver m _ => some m.id
  | _ => none

/-- The three ways to a second sending, barred. -/
def SendsOnce (deps : Deps) (s : System) : Label → Prop
  -- an approval is not written over a message that has been sent
  | .approve c _ => ∀ call m, s.approves c = .checked call m →
      ∀ row ∈ s.db.messages.rows, row.id = call.communicationMessageId → row.status ≠ .SENT
  -- a delivery does not read while another one of its message is under way
  | .startDeliver _ _ communicationMessageId =>
    ∀ c, (s.delivers c).underWay ≠ some communicationMessageId
  -- a delivery that has handed over writes its row
  | .deliver c env => ∀ m deliveryReference, s.delivers c = .handedOver m deliveryReference →
      (deliverWrite deps s.db env m deliveryReference).isOk = true
  | .deliverFails c => ∀ m deliveryReference, s.delivers c ≠ .handedOver m deliveryReference
  | _ => True

/-! ## The invariant -/

structure SendInv (s : System) : Prop where
  /-- deliveries under way are of different messages -/
  apart : ∀ c c' id, (s.delivers c).underWay = some id → (s.delivers c').underWay = some id → c = c'
  /-- what is under way, and what has been handed over, are rows -/
  rows : ∀ c id, (s.delivers c).underWay = some id → ∃ row ∈ s.db.messages.rows, row.id = id
  sentRows : ∀ h ∈ s.handedOver, ∃ row ∈ s.db.messages.rows, row.id = h.communicationMessageId
  unsent : ∀ c m, s.delivers c = .ready m → s.sentCount m.id = 0
  once : SentOnce s
  /-- what has been handed over is marked, or its delivery is about to mark it -/
  marked : ∀ row ∈ s.db.messages.rows, s.sentCount row.id ≠ 0 →
    row.status = .SENT ∨ ∃ c m deliveryReference,
      s.delivers c = .handedOver m deliveryReference ∧ m.id = row.id

theorem sendInv_init (templates : Table CommunicationTemplate CommunicationTemplate.id)
    (outbox : Outbox.OutboxEvents) : SendInv (.init templates outbox) where
  apart := by
    intro c c' id hc
    cases hc
  rows := by
    intro c id hc
    cases hc
  sentRows := by
    intro h hh
    cases hh
  unsent := by
    intro c m hc
    cases hc
  once := fun _ => Nat.zero_le 1
  marked := by
    intro row hrow
    cases hrow

section Steps

variable {deps : Deps} {s : System}

/-- A step that hands nothing over, moves no delivery, and takes no mark away. -/
theorem SendInv.written (h : SendInv s) {s' : System} (hdelivers : s'.delivers = s.delivers)
    (hsent : s'.handedOver = s.handedOver)
    (hkept : ∀ row ∈ s.db.messages.rows, ∃ row' ∈ s'.db.messages.rows, row'.id = row.id)
    (hmarked : ∀ row' ∈ s'.db.messages.rows, s.sentCount row'.id ≠ 0 →
      ∃ row ∈ s.db.messages.rows, row.id = row'.id ∧ (row.status = .SENT → row'.status = .SENT)) :
    SendInv s' where
  apart := by
    rw [hdelivers]
    exact h.apart
  rows := by
    intro c id hc
    rw [hdelivers] at hc
    obtain ⟨row, hrow, hid⟩ := h.rows c id hc
    obtain ⟨row', hrow', hid'⟩ := hkept row hrow
    exact ⟨row', hrow', hid'.trans hid⟩
  sentRows := by
    intro x hx
    rw [hsent] at hx
    obtain ⟨row, hrow, hid⟩ := h.sentRows x hx
    obtain ⟨row', hrow', hid'⟩ := hkept row hrow
    exact ⟨row', hrow', hid'.trans hid⟩
  unsent := by
    intro c m hc
    rw [hdelivers] at hc
    simpa only [System.sentCount, hsent] using h.unsent c m hc
  once := by
    intro id
    simpa only [System.sentCount, hsent] using h.once id
  marked := by
    intro row' hrow' hcount
    simp only [System.sentCount, hsent] at hcount
    obtain ⟨row, hrow, hid, hkeeps⟩ := hmarked row' hrow' hcount
    rw [← hid] at hcount ⊢
    rw [hdelivers]
    rcases h.marked row hrow hcount with hstatus | hunder
    · exact Or.inl (hkeeps hstatus)
    · exact Or.inr hunder

/-- A message that is new has not been handed over. -/
theorem SendInv.drafted (h : SendInv s) {env : Env} {tenantId caseId : Uuid}
    {input : DraftCommunicationInput} {db' : Db} {message : CommunicationMessage}
    {outcome : ClassificationOutcome}
    (hdraft : draft deps s.db env tenantId caseId input = .ok (db', message, outcome))
    (classified : List Classified) : SendInv { s with db := db', classified } := by
  obtain ⟨-, -, messages, hinsert, rfl⟩ := draft_ok hdraft
  have hrows := Table.rows_of_insert hinsert
  refine h.written rfl rfl (fun row hrow => ?_) fun row' hrow' hcount => ?_
  · refine ⟨row, ?_, rfl⟩
    show row ∈ messages.rows
    rw [hrows]
    exact List.mem_append_left _ hrow
  · have hmem : row' ∈ messages.rows := hrow'
    rw [hrows] at hmem
    rcases List.mem_append.mp hmem with hold | hnew
    · exact ⟨row', hold, rfl, id⟩
    · obtain rfl := List.mem_singleton.mp hnew
      refine absurd (List.countP_eq_zero.mpr fun x hx hid => ?_) hcount
      obtain ⟨row, hrow, hrowid⟩ := h.sentRows x hx
      exact Table.key_fresh_of_insert hinsert row hrow (hrowid.trans (of_decide_eq_true hid))

/-- An approval that is not written over a `SENT` row. -/
theorem SendInv.approved (h : SendInv s) {env : Env} {call : ApproveCall}
    {m : CommunicationMessage} {db' : Db} {approval : CommunicationApproval}
    (hwrite : approveWrite s.db env call m = .ok (db', approval))
    (hunsent : ∀ row ∈ s.db.messages.rows, row.id = call.communicationMessageId →
      row.status ≠ .SENT) : SendInv { s with db := db' } := by
  obtain ⟨-, -, hrows⟩ := approveWrite_ok hwrite
  refine h.written rfl rfl (fun row hrow => ?_) fun row' hrow' _ => ?_
  · show ∃ row' ∈ db'.messages.rows, row'.id = row.id
    rw [hrows]
    refine ⟨_, List.mem_map_of_mem hrow, ?_⟩
    split <;> rfl
  · have hmem : row' ∈ db'.messages.rows := hrow'
    rw [hrows] at hmem
    obtain ⟨row, hrow, rfl⟩ := List.mem_map.mp hmem
    refine ⟨row, hrow, ?_, ?_⟩
    · split <;> rfl
    · split
      · next hid => exact fun hstatus => absurd hstatus (hunsent row hrow hid)
      · exact id

/-- A `deliver` settles; what it has handed over, if anything, is marked. -/
theorem SendInv.settled (h : SendInv s) {c : Nat} {state : DeliverState}
    (hstate : state.underWay = none)
    (hwas : ∀ m deliveryReference, s.delivers c = .handedOver m deliveryReference →
      ∀ row ∈ s.db.messages.rows, row.id = m.id → row.status = .SENT) :
    SendInv (s.setDeliver c state) where
  apart := by
    intro c₁ c₂ id h₁ h₂
    rw [setDeliver_delivers] at h₁ h₂
    split at h₁
    · rw [hstate] at h₁
      cases h₁
    split at h₂
    · rw [hstate] at h₂
      cases h₂
    exact h.apart c₁ c₂ id h₁ h₂
  rows := by
    intro c' id hc'
    rw [setDeliver_delivers] at hc'
    split at hc'
    · rw [hstate] at hc'
      cases hc'
    · exact h.rows c' id hc'
  sentRows := h.sentRows
  unsent := by
    intro c' m hc'
    rw [setDeliver_delivers] at hc'
    split at hc'
    · rw [hc'] at hstate
      cases hstate
    · exact h.unsent c' m hc'
  once := h.once
  marked := by
    intro row hrow hcount
    rcases h.marked row hrow hcount with hstatus | ⟨c', m, ref, hc', hid⟩
    · exact Or.inl hstatus
    · by_cases hsame : c' = c
      · rw [hsame] at hc'
        exact Or.inl (hwas m ref hc' row hrow hid.symm)
      · exact Or.inr ⟨c', m, ref, by rw [setDeliver_delivers, if_neg hsame]; exact hc', hid⟩

/-- A `deliver` reads its message while no other one of it is under way. -/
theorem SendInv.found (h : SendInv s) {c : Nat} (hidle : (s.delivers c).underWay = none)
    {m : CommunicationMessage} (hmem : m ∈ s.db.messages.rows) (hready : m.ready = true)
    (halone : ∀ c', (s.delivers c').underWay ≠ some m.id) : SendInv (s.setDeliver c (.ready m)) where
  apart := by
    intro c₁ c₂ id h₁ h₂
    rw [setDeliver_delivers] at h₁ h₂
    split at h₁
    · next hc₁ =>
      split at h₂
      · next hc₂ => exact hc₁.trans hc₂.symm
      · cases h₁
        exact absurd h₂ (halone c₂)
    · split at h₂
      · cases h₂
        exact absurd h₁ (halone c₁)
      · exact h.apart c₁ c₂ id h₁ h₂
  rows := by
    intro c' id hc'
    rw [setDeliver_delivers] at hc'
    split at hc'
    · cases hc'
      exact ⟨m, hmem, rfl⟩
    · exact h.rows c' id hc'
  sentRows := h.sentRows
  unsent := by
    intro c' m' hc'
    rw [setDeliver_delivers] at hc'
    split at hc'
    · cases hc'
      -- it is not marked, and nobody is about to mark it
      by_contra hcount
      rcases h.marked m hmem hcount with hstatus | ⟨c', m', ref, hc', hid⟩
      · simp [CommunicationMessage.ready, hstatus] at hready
      · refine halone c' ?_
        rw [hc', ← hid]
        rfl
    · exact h.unsent c' m' hc'
  once := h.once
  marked := by
    intro row hrow hcount
    rcases h.marked row hrow hcount with hstatus | ⟨c', m', ref, hc', hid⟩
    · exact Or.inl hstatus
    · refine Or.inr ⟨c', m', ref, ?_, hid⟩
      rw [setDeliver_delivers, if_neg]
      · exact hc'
      · rintro rfl
        rw [hc'] at hidle
        cases hidle

/-- **The handover**: the message is under way, and has not been handed over yet. -/
theorem SendInv.handed (h : SendInv s) {c : Nat} {m : CommunicationMessage}
    (hc : s.delivers c = .ready m) (deliveryReference : String) :
    SendInv ({ s with handedOver := s.handedOver ++ [m.handover] }.setDeliver c
      (.handedOver m deliveryReference)) := by
  have hunder : (s.delivers c).underWay = some m.id := by
    rw [hc]
    rfl
  have hcount (id : Uuid) :
      (s.handedOver ++ [m.handover]).countP (fun x => x.communicationMessageId = id)
        = s.sentCount id + if m.id = id then 1 else 0 := by
    simp only [System.sentCount, List.countP_append, List.countP_singleton,
      CommunicationMessage.handover, decide_eq_true_eq]
  have hstate (c' : Nat) :
      (({ s with handedOver := s.handedOver ++ [m.handover] }.setDeliver c
        (.handedOver m deliveryReference)).delivers c').underWay = (s.delivers c').underWay := by
    rw [setDeliver_delivers]
    split
    · next heq =>
      rw [heq, hunder]
      rfl
    · rfl
  refine ⟨?_, ?_, ?_, ?_, ?_, ?_⟩
  · intro c₁ c₂ id h₁ h₂
    rw [hstate] at h₁ h₂
    exact h.apart c₁ c₂ id h₁ h₂
  · intro c' id hc'
    rw [hstate] at hc'
    exact h.rows c' id hc'
  · intro x hx
    rcases List.mem_append.mp hx with hx | hx
    · exact h.sentRows x hx
    · rw [List.mem_singleton.mp hx]
      exact h.rows c m.id hunder
  · intro c' m' hc'
    rw [setDeliver_delivers] at hc'
    split at hc'
    · cases hc'
    next hne =>
    have hother : m.id ≠ m'.id := by
      intro hsame
      refine hne (h.apart c' c m.id ?_ hunder)
      rw [hc', hsame]
      rfl
    show (s.handedOver ++ [m.handover]).countP _ = 0
    rw [hcount, if_neg hother, h.unsent c' m' hc']
  · intro id
    show (s.handedOver ++ [m.handover]).countP _ ≤ 1
    rw [hcount]
    split
    · next hid =>
      rw [← hid, h.unsent c m hc]
    · exact h.once id
  · intro row hrow hrowcount
    by_cases hid : m.id = row.id
    · exact Or.inr ⟨c, m, deliveryReference, by rw [setDeliver_delivers, if_pos rfl], hid⟩
    · have hrowcount' : (s.handedOver ++ [m.handover]).countP
          (fun x => x.communicationMessageId = row.id) ≠ 0 := hrowcount
      rw [hcount, if_neg hid] at hrowcount'
      rcases h.marked row hrow hrowcount' with hstatus | ⟨c', m', ref, hc', hid'⟩
      · exact Or.inl hstatus
      · refine Or.inr ⟨c', m', ref, ?_, hid'⟩
        rw [setDeliver_delivers, if_neg]
        · exact hc'
        · rintro rfl
          rw [hc] at hc'
          cases hc'

/-- The row of a message that has been handed over is marked. -/
theorem SendInv.delivered (h : SendInv s) {c : Nat} {env : Env} {m : CommunicationMessage}
    {deliveryReference : String} (hc : s.delivers c = .handedOver m deliveryReference) {db' : Db}
    (hwrite : deliverWrite deps s.db env m deliveryReference = .ok db') {state : DeliverState}
    (hstate : state.underWay = none) : SendInv ({ s with db := db' }.setDeliver c state) := by
  obtain ⟨-, hrows⟩ := deliverWrite_ok hwrite
  have hback : ∀ row' ∈ db'.messages.rows, ∃ row ∈ s.db.messages.rows, row.id = row'.id
      ∧ (row.status = .SENT → row'.status = .SENT) ∧ (row'.id = m.id → row'.status = .SENT) := by
    intro row' hrow'
    rw [hrows] at hrow'
    obtain ⟨row, hrow, rfl⟩ := List.mem_map.mp hrow'
    refine ⟨row, hrow, ?_⟩
    split
    · exact ⟨rfl, fun _ => rfl, fun _ => rfl⟩
    · next hne => exact ⟨rfl, id, fun hid => absurd hid hne⟩
  have hwritten : SendInv { s with db := db' } := by
    refine h.written rfl rfl (fun row hrow => ?_) fun row' hrow' _ => ?_
    · show ∃ row' ∈ db'.messages.rows, row'.id = row.id
      rw [hrows]
      refine ⟨_, List.mem_map_of_mem hrow, ?_⟩
      split <;> rfl
    · obtain ⟨row, hrow, hid, hkeeps, -⟩ := hback row' hrow'
      exact ⟨row, hrow, hid, hkeeps⟩
  refine hwritten.settled hstate fun m' ref hc' row' hrow' hid => ?_
  have hsame : DeliverState.handedOver m deliveryReference = .handedOver m' ref := hc.symm.trans hc'
  cases hsame
  obtain ⟨row, -, -, -, hmarked⟩ := hback row' hrow'
  exact hmarked hid

/-- **One step**, with the ways to a second sending barred. -/
theorem SendInv.step (h : SendInv s) {a : Label} (hsends : SendsOnce deps s a) :
    SendInv (step deps s a) := by
  -- an `approve` that only moves on
  have hmoved (c : Nat) (state : ApproveState) : SendInv (s.setApprove c state) :=
    h.written rfl rfl (fun row hrow => ⟨row, hrow, rfl⟩) fun row hrow _ => ⟨row, hrow, rfl, id⟩
  cases a with
  | draft env tenantId caseId input =>
    simp only [Communications.step]
    split
    · exact h
    · next hdraft => exact h.drafted hdraft _
  | startApprove c call =>
    simp only [Communications.step]
    split
    · split <;> exact hmoved c _
    · exact h
  | approve c env =>
    simp only [Communications.step]
    split
    · next call m hc =>
      split
      · exact hmoved c _
      · next db' approval hwrite =>
        have happroved := h.approved hwrite (hsends call m hc)
        exact happroved.written rfl rfl (fun row hrow => ⟨row, hrow, rfl⟩)
          fun row hrow _ => ⟨row, hrow, rfl, id⟩
    · exact h
  | approveFails c => exact hmoved c _
  | startDeliver c tenantId communicationMessageId =>
    simp only [Communications.step]
    split
    · next hidle =>
      have hnothing : ∀ m ref, s.delivers c = .handedOver m ref →
          ∀ row ∈ s.db.messages.rows, row.id = m.id → row.status = .SENT := by
        intro m ref hc
        rw [hidle] at hc
        cases hc
      split
      · exact h.settled rfl hnothing
      · next m hfind =>
        obtain ⟨hmem, rfl⟩ := findMessage_eq_some hfind
        split
        · next hready =>
          refine h.found ?_ hmem hready hsends
          rw [hidle]
          rfl
        · exact h.settled rfl hnothing
    · exact h
  | deliver c env =>
    simp only [Communications.step, System.deliver]
    split
    · next m hc => exact h.handed hc _
    · next m ref hc =>
      split
      · next e hwrite =>
        have hok := hsends m ref hc
        rw [hwrite] at hok
        cases hok
      · next db' hwrite => exact h.delivered hc hwrite rfl
    · exact h
  | deliverFails c =>
    refine h.settled rfl fun m ref hc => ?_
    exact absurd hc (hsends m ref)
  | setTemplates templates =>
    exact h.written rfl rfl (fun row hrow => ⟨row, hrow, rfl⟩) fun row hrow _ => ⟨row, hrow, rfl, id⟩

end Steps

/-- **Each message is sent once.** In every interleaving of drafts, approvals and deliveries in
which no approval is written over a message that has been sent, no delivery reads a message while
another delivery of it is under way, and every delivery that hands a message over gets its row
written, the channel accepts no message twice. -/
theorem sent_once (deps : Deps) (templates : Table CommunicationTemplate CommunicationTemplate.id)
    (outbox : Outbox.OutboxEvents) (run : List Label)
    (hsends : AllSteps (step deps) (SendsOnce deps) (.init templates outbox) run) :
    SentOnce (exec (step deps) (.init templates outbox) run) :=
  (exec_inv_of_allSteps (I := SendInv) (fun _ _ h hs => h.step hs)
    (sendInv_init templates outbox) hsends).once

/-! ### An approval after the message was sent -/

def sampleDeps : Deps where
  sha256 := fun _ => []
  signer := { hmacSha256 := fun _ _ => [] }

def sampleEnv (n : Nat) : Env where
  now := n
  newId := n

def payStubRequest : DraftCommunicationInput where
  recipientRelationship := "BORROWER"
  channel := "EMAIL"
  locale := "en-US"
  variableValues := []
  freeformContent := some "Please send your latest pay stub."
  hasAttachments := false

def approval : ApproveCall where
  tenantId := 1
  communicationMessageId := 10
  actorId := "underwriter-1"

/-- Drafted, approved, and delivered. -/
def approvedDelivery : List Label :=
  [.draft (sampleEnv 10) 1 3 payStubRequest, .startApprove 0 approval, .approve 0 (sampleEnv 20),
    .startDeliver 0 1 10, .deliver 0 (sampleEnv 30), .deliver 0 (sampleEnv 31)]

theorem sent_once_approvedDelivery :
    SentOnce (exec (step sampleDeps) (.init .empty .empty) approvedDelivery) := by
  refine sent_once sampleDeps .empty .empty approvedDelivery ?_
  refine ⟨trivial, trivial, ?_, ?_, ?_, ?_, trivial⟩
  · intro call m hc row hrow _
    obtain rfl := List.mem_singleton.mp hrow
    decide
  · intro c hunder
    cases hunder
  · intro m ref hc
    cases hc
  · intro m ref hc
    cases hc
    rfl

/-- **It is approved once more, and sent once more.** -/
theorem approval_after_send_resends :
    ¬ ∀ (deps : Deps) (templates : Table CommunicationTemplate CommunicationTemplate.id)
      (outbox : Outbox.OutboxEvents) (run : List Label),
      SentOnce (exec (step deps) (.init templates outbox) run) := by
  intro h
  have hone := h sampleDeps .empty .empty
    (approvedDelivery ++ [.startApprove 1 approval, .approve 1 (sampleEnv 21), .startDeliver 1 1 10,
      .deliver 1 (sampleEnv 40), .deliver 1 (sampleEnv 41)]) 10
  revert hone
  decide

end MortgageAgent.Communications
