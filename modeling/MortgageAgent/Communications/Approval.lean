import MortgageAgent.Communications.Messages

/-!
# What is handed over was approved

A message is classified once and its content, hash and class are never written again; an approval
stores the hash that its call read, and no approval is ever removed. So whatever a `deliver` reads
as ready is ready for good: protected content with an approval bound to its hash, or content that
the classifier passed as routine.

* **`Bound`** — what the tables vouch for about a message, as a row or as a call's copy of it.
* **`MessageInv`** — every row is bound, and every call's copy is still the content of its row.
* **`handed_over_is_bound`** — the law of every step that hands a message to the channel.
-/

namespace MortgageAgent.Communications

open Runs

/-! ## The law -/

/-- An approval of the message for exactly this content. -/
def ApprovedFor (deps : Deps) (db : Db) (h : Handover) : Prop :=
  ∃ approval ∈ db.approvals.rows, approval.communicationMessageId = h.communicationMessageId
    ∧ approval.approvedRenderedContentHash
      = PolicyDigest.computeDigest deps.sha256 (.str h.renderedContent)

/-- The classifier returned `ROUTINE` for exactly this content when the message was drafted. -/
def RoutineFor (s : System) (h : Handover) : Prop :=
  ∃ x ∈ s.classified, x.communicationMessageId = h.communicationMessageId
    ∧ classifyCommunication x.input x.template = .ok x.outcome
    ∧ x.outcome.classification = .ROUTINE ∧ x.outcome.renderedContent = h.renderedContent

/-- **What a step may hand over**: protected content only with an approval bound to its hash, and
content without an approval only if it is routine. -/
def HandsOverBound (deps : Deps) (s : System) (a : Label) : Prop :=
  ∀ h, (step deps s a).handedOver = s.handedOver ++ [h] →
    h.renderedContentHash = PolicyDigest.computeDigest deps.sha256 (.str h.renderedContent)
    ∧ (h.classification = .PROTECTED → ApprovedFor deps s.db h)
    ∧ ((∀ approval ∈ s.db.approvals.rows,
        approval.communicationMessageId ≠ h.communicationMessageId) → RoutineFor s h)

/-! ## The invariant -/

/-- What the tables and the record of classifications vouch for about a message. -/
structure Bound (deps : Deps) (approvals : List CommunicationApproval)
    (classified : List Classified) (m : CommunicationMessage) : Prop where
  hash : m.renderedContentHash = PolicyDigest.computeDigest deps.sha256 (.str m.renderedContent)
  classified : ∃ x ∈ classified, x.communicationMessageId = m.id
    ∧ classifyCommunication x.input x.template = .ok x.outcome
    ∧ x.outcome.classification = m.classification ∧ x.outcome.renderedContent = m.renderedContent
  approved : m.classification = .PROTECTED → m.status = .APPROVED →
    ∃ approval ∈ approvals, approval.communicationMessageId = m.id
      ∧ approval.approvedRenderedContentHash = m.renderedContentHash

theorem Bound.mono {deps : Deps} {approvals approvals' : List CommunicationApproval}
    {classified classified' : List Classified} {m : CommunicationMessage}
    (h : Bound deps approvals classified m) (happrovals : approvals ⊆ approvals')
    (hclassified : classified ⊆ classified') : Bound deps approvals' classified' m where
  hash := h.hash
  classified := by
    obtain ⟨x, hx, hrest⟩ := h.classified
    exact ⟨x, hclassified hx, hrest⟩
  approved := by
    intro hprotected hstatus
    obtain ⟨approval, hmem, hrest⟩ := h.approved hprotected hstatus
    exact ⟨approval, happrovals hmem, hrest⟩

/-- The two carry the same content. -/
structure SameContent (m m' : CommunicationMessage) : Prop where
  id : m'.id = m.id
  classification : m'.classification = m.classification
  renderedContent : m'.renderedContent = m.renderedContent
  renderedContentHash : m'.renderedContentHash = m.renderedContentHash

/-- The same content in another status is bound once its approval is there, should it need one. -/
theorem Bound.of_sameContent {deps : Deps} {approvals : List CommunicationApproval}
    {classified : List Classified} {m m' : CommunicationMessage}
    (h : Bound deps approvals classified m) (hsame : SameContent m m')
    (happroved : m'.classification = .PROTECTED → m'.status = .APPROVED →
      ∃ approval ∈ approvals, approval.communicationMessageId = m'.id
        ∧ approval.approvedRenderedContentHash = m'.renderedContentHash) :
    Bound deps approvals classified m' where
  hash := by
    rw [hsame.renderedContentHash, hsame.renderedContent]
    exact h.hash
  classified := by
    obtain ⟨x, hx, hid, houtcome, hclass, hcontent⟩ := h.classified
    refine ⟨x, hx, hid.trans hsame.id.symm, houtcome, ?_, ?_⟩
    · rw [hsame.classification]
      exact hclass
    · rw [hsame.renderedContent]
      exact hcontent
  approved := happroved

structure MessageInv (deps : Deps) (s : System) : Prop where
  messages : ∀ m ∈ s.db.messages.rows, Bound deps s.db.approvals.rows s.classified m
  /-- the copy that an `approve` checked has its row's content -/
  checked : ∀ c call m, s.approves c = .checked call m → m.id = call.communicationMessageId
    ∧ ∃ row ∈ s.db.messages.rows, SameContent m row
  /-- the copy that a `deliver` found ready is bound -/
  ready : ∀ c m, s.delivers c = .ready m →
    m.ready = true ∧ Bound deps s.db.approvals.rows s.classified m

theorem messageInv_init (deps : Deps)
    (templates : Table CommunicationTemplate CommunicationTemplate.id)
    (outbox : Outbox.OutboxEvents) : MessageInv deps (.init templates outbox) where
  messages := by
    intro m hm
    cases hm
  checked := by
    intro c call m hc
    cases hc
  ready := by
    intro c m hc
    cases hc

section Steps

variable {deps : Deps} {s : System}

theorem setApprove_approves (s : System) (c c' : Nat) (state : ApproveState) :
    (s.setApprove c state).approves c' = if c' = c then state else s.approves c' := by
  simp only [System.setApprove, Function.update_apply]

theorem setDeliver_delivers (s : System) (c c' : Nat) (state : DeliverState) :
    (s.setDeliver c state).delivers c' = if c' = c then state else s.delivers c' := by
  simp only [System.setDeliver, Function.update_apply]

/-- An `approve` moves on; the copy it keeps, if any, has its row's content. -/
theorem MessageInv.setApprove (h : MessageInv deps s) {c : Nat} {state : ApproveState}
    (hstate : ∀ call m, state = .checked call m → m.id = call.communicationMessageId
      ∧ ∃ row ∈ s.db.messages.rows, SameContent m row) :
    MessageInv deps (s.setApprove c state) where
  messages := h.messages
  checked := by
    intro c' call m hc'
    rw [setApprove_approves] at hc'
    split at hc'
    · exact hstate call m hc'
    · exact h.checked c' call m hc'
  ready := h.ready

/-- A `deliver` moves on; the copy it found ready, if any, is bound. -/
theorem MessageInv.setDeliver (h : MessageInv deps s) {c : Nat} {state : DeliverState}
    (hstate : ∀ m, state = .ready m →
      m.ready = true ∧ Bound deps s.db.approvals.rows s.classified m) :
    MessageInv deps (s.setDeliver c state) where
  messages := h.messages
  checked := h.checked
  ready := by
    intro c' m hc'
    rw [setDeliver_delivers] at hc'
    split at hc'
    · exact hstate m hc'
    · exact h.ready c' m hc'

/-- A transaction that adds approvals and classifications, leaves every row its content, and
leaves the rows it writes bound. -/
theorem MessageInv.written (h : MessageInv deps s) {db' : Db} {classified' : List Classified}
    (happrovals : s.db.approvals.rows ⊆ db'.approvals.rows)
    (hclassified : s.classified ⊆ classified')
    (hkept : ∀ row ∈ s.db.messages.rows, ∃ row' ∈ db'.messages.rows, SameContent row row')
    (hbound : ∀ row' ∈ db'.messages.rows, Bound deps db'.approvals.rows classified' row') :
    MessageInv deps { s with db := db', classified := classified' } where
  messages := hbound
  checked := by
    intro c call m hc
    obtain ⟨hid, row, hrow, hsame⟩ := h.checked c call m hc
    obtain ⟨row', hrow', hsame'⟩ := hkept row hrow
    exact ⟨hid, row', hrow', hsame'.id.trans hsame.id,
      hsame'.classification.trans hsame.classification,
      hsame'.renderedContent.trans hsame.renderedContent,
      hsame'.renderedContentHash.trans hsame.renderedContentHash⟩
  ready := by
    intro c m hc
    obtain ⟨hready, hm⟩ := h.ready c m hc
    exact ⟨hready, hm.mono happrovals hclassified⟩

theorem MessageInv.drafted (h : MessageInv deps s) {env : Env} {tenantId caseId : Uuid}
    {input : DraftCommunicationInput} {db' : Db} {message : CommunicationMessage}
    {outcome : ClassificationOutcome}
    (hdraft : draft deps s.db env tenantId caseId input = .ok (db', message, outcome)) :
    MessageInv deps { s with
      db := db'
      classified := s.classified ++
        [{ communicationMessageId := message.id
           input
           template := findTemplate s.db tenantId input
           outcome }] } := by
  obtain ⟨houtcome, rfl, messages, hinsert, rfl⟩ := draft_ok hdraft
  have hrows := Table.rows_of_insert hinsert
  refine h.written (fun _ hx => hx) (List.subset_append_left ..) (fun row hrow => ?_)
    fun row hrow => ?_
  · refine ⟨row, ?_, rfl, rfl, rfl, rfl⟩
    show row ∈ messages.rows
    rw [hrows]
    exact List.mem_append_left _ hrow
  · have hmem : row ∈ messages.rows := hrow
    rw [hrows] at hmem
    rcases List.mem_append.mp hmem with hold | hnew
    · exact (h.messages row hold).mono (fun _ hx => hx) (List.subset_append_left ..)
    · obtain rfl := List.mem_singleton.mp hnew
      refine ⟨rfl, ⟨_, List.mem_append_right _ (List.mem_singleton.mpr rfl), rfl, houtcome, rfl,
        rfl⟩, fun hprotected hstatus => ?_⟩
      -- a new protected message awaits its approval
      have hclass : outcome.classification = .PROTECTED := hprotected
      simp only [newMessage, hclass, if_true] at hstatus
      cases hstatus

theorem MessageInv.approved (h : MessageInv deps s) {c : Nat} {env : Env} {call : ApproveCall}
    {m : CommunicationMessage} (hc : s.approves c = .checked call m) {db' : Db}
    {approval : CommunicationApproval}
    (hwrite : approveWrite s.db env call m = .ok (db', approval)) :
    MessageInv deps { s with db := db' } := by
  obtain ⟨rfl, happrovals, hrows⟩ := approveWrite_ok hwrite
  obtain ⟨hid, copied, hcopied, hsame⟩ := h.checked c call m hc
  have hsub : s.db.approvals.rows ⊆ db'.approvals.rows := by
    rw [happrovals]
    exact List.subset_append_left ..
  refine h.written hsub (fun _ hx => hx) (fun row hrow => ?_) fun row' hrow' => ?_
  · rw [hrows]
    refine ⟨_, List.mem_map_of_mem hrow, ?_⟩
    split <;> exact ⟨rfl, rfl, rfl, rfl⟩
  · rw [hrows] at hrow'
    obtain ⟨row, hrow, rfl⟩ := List.mem_map.mp hrow'
    have hbound := (h.messages row hrow).mono hsub (fun _ hx => hx)
    split
    · next hrowid =>
      -- the row whose content the call has read
      obtain rfl : row = copied := s.db.messages.eq_of_key_eq hrow hcopied
        (hrowid.trans (hid.symm.trans hsame.id.symm))
      refine hbound.of_sameContent ⟨rfl, rfl, rfl, rfl⟩ fun _ _ => ?_
      refine ⟨newApproval env call m, ?_, hrowid.symm, hsame.renderedContentHash.symm⟩
      rw [happrovals]
      exact List.mem_append_right _ (List.mem_singleton.mpr rfl)
    · exact hbound

theorem MessageInv.delivered (h : MessageInv deps s) {env : Env} {m : CommunicationMessage}
    {deliveryReference : String} {db' : Db}
    (hwrite : deliverWrite deps s.db env m deliveryReference = .ok db') :
    MessageInv deps { s with db := db' } := by
  obtain ⟨happrovals, hrows⟩ := deliverWrite_ok hwrite
  refine h.written (by rw [happrovals]; exact fun _ hx => hx) (fun _ hx => hx)
    (fun row hrow => ?_) fun row' hrow' => ?_
  · rw [hrows]
    refine ⟨_, List.mem_map_of_mem hrow, ?_⟩
    split <;> exact ⟨rfl, rfl, rfl, rfl⟩
  · rw [hrows] at hrow'
    rw [happrovals]
    obtain ⟨row, hrow, rfl⟩ := List.mem_map.mp hrow'
    split
    · refine (h.messages row hrow).of_sameContent ⟨rfl, rfl, rfl, rfl⟩ fun _ hstatus => ?_
      cases hstatus
    · exact h.messages row hrow

/-- **One step.** -/
theorem MessageInv.step (h : MessageInv deps s) (a : Label) : MessageInv deps (step deps s a) := by
  cases a with
  | draft env tenantId caseId input =>
    simp only [Communications.step]
    split
    · exact h
    · next hdraft => exact h.drafted hdraft
  | startApprove c call =>
    simp only [Communications.step]
    split
    · split
      · exact h.setApprove fun call m hstate => by cases hstate
      · next message hread =>
        refine h.setApprove fun call' m hstate => ?_
        cases hstate
        obtain ⟨hmem, hid, -, -⟩ := approveRead_ok hread
        exact ⟨hid, message, hmem, rfl, rfl, rfl, rfl⟩
    · exact h
  | approve c env =>
    simp only [Communications.step]
    split
    · next call m hc =>
      split
      · exact h.setApprove fun call m hstate => by cases hstate
      · next hwrite =>
        exact (h.approved hc hwrite).setApprove fun call m hstate => by cases hstate
    · exact h
  | approveFails c => exact h.setApprove fun call m hstate => by cases hstate
  | startDeliver c tenantId communicationMessageId =>
    simp only [Communications.step]
    split
    · split
      · exact h.setDeliver fun m hstate => by cases hstate
      · next m hfind =>
        split
        · next hready =>
          refine h.setDeliver fun m' hstate => ?_
          cases hstate
          exact ⟨hready, h.messages m (findMessage_eq_some hfind).1⟩
        · exact h.setDeliver fun m hstate => by cases hstate
    · exact h
  | deliver c env =>
    simp only [Communications.step, System.deliver]
    split
    · next m hc =>
      have hsent : MessageInv deps { s with handedOver := s.handedOver ++ [m.handover] } :=
        ⟨h.messages, h.checked, h.ready⟩
      exact hsent.setDeliver fun m' hstate => by cases hstate
    · split
      · exact h.setDeliver fun m hstate => by cases hstate
      · next hwrite => exact (h.delivered hwrite).setDeliver fun m hstate => by cases hstate
    · exact h
  | deliverFails c => exact h.setDeliver fun m hstate => by cases hstate
  | setTemplates templates => exact ⟨h.messages, h.checked, h.ready⟩

/-- Only a `deliver` that has found its message ready hands one over. -/
theorem handedOver_of_step (deps : Deps) (s : System) (a : Label) :
    (step deps s a).handedOver = s.handedOver
      ∨ ∃ c env m, a = .deliver c env ∧ s.delivers c = .ready m
        ∧ (step deps s a).handedOver = s.handedOver ++ [m.handover] := by
  cases a with
  | draft env tenantId caseId input =>
    simp only [step]
    split <;> exact Or.inl rfl
  | startApprove c call =>
    simp only [step]
    split
    · split <;> exact Or.inl rfl
    · exact Or.inl rfl
  | approve c env =>
    simp only [step]
    split
    · split <;> exact Or.inl rfl
    · exact Or.inl rfl
  | startDeliver c tenantId communicationMessageId =>
    simp only [step]
    split
    · split
      · exact Or.inl rfl
      · split <;> exact Or.inl rfl
    · exact Or.inl rfl
  | deliver c env =>
    simp only [step, System.deliver]
    split
    · next m hc => exact Or.inr ⟨c, env, m, rfl, hc, rfl⟩
    · split <;> exact Or.inl rfl
    · exact Or.inl rfl
  | approveFails c => exact Or.inl rfl
  | deliverFails c => exact Or.inl rfl
  | setTemplates templates => exact Or.inl rfl

/-- What is found ready is approved if it is protected, and routine if nobody approved it. -/
theorem MessageInv.handsOverBound (h : MessageInv deps s) (a : Label) :
    HandsOverBound deps s a := by
  intro x hx
  rcases handedOver_of_step deps s a with hsame | ⟨c, env, m, -, hc, hadded⟩
  · rw [hsame] at hx
    have hlength := congrArg List.length hx
    simp at hlength
  rw [hadded] at hx
  obtain rfl : m.handover = x := by simpa using hx
  obtain ⟨hready, hm⟩ := h.ready c m hc
  have happroved (hprotected : m.classification = .PROTECTED) :
      ApprovedFor deps s.db m.handover := by
    have hstatus : m.status = .APPROVED := by
      simpa [CommunicationMessage.ready, hprotected] using hready
    obtain ⟨approval, hmem, hid, hhash⟩ := hm.approved hprotected hstatus
    exact ⟨approval, hmem, hid, hhash.trans hm.hash⟩
  refine ⟨hm.hash, happroved, fun hnone => ?_⟩
  obtain ⟨y, hy, hid, houtcome, hclass, hcontent⟩ := hm.classified
  refine ⟨y, hy, hid, houtcome, ?_, hcontent⟩
  cases hm' : m.classification with
  | ROUTINE => exact hclass.trans hm'
  | PROTECTED =>
    obtain ⟨approval, hmem, hid', -⟩ := happroved hm'
    exact absurd hid' (hnone approval hmem)

end Steps

/-- **What is handed over is bound.** In every interleaving of drafts, approvals and deliveries with
any contents, over templates that change in any way, every step that hands a message to the
channel hands over the content that its hash stands for: protected content only with an approval
for that hash, and content without an approval only if the classifier returned `ROUTINE` for it. -/
theorem handed_over_is_bound (deps : Deps)
    (templates : Table CommunicationTemplate CommunicationTemplate.id)
    (outbox : Outbox.OutboxEvents) (run : List Label) :
    AllSteps (step deps) (HandsOverBound deps) (.init templates outbox) run :=
  allSteps_of_inv (I := MessageInv deps) (fun _ a h => h.step a) (fun _ a h => h.handsOverBound a)
    (messageInv_init deps templates outbox) run

end MortgageAgent.Communications
