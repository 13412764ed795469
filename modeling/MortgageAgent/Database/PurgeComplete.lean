import MortgageAgent.Lib.Run
import MortgageAgent.Database.Purge

/-!
# What a purge leaves

The purge never fails, and it deletes all that a tenant writes but two tables: a webhook endpoint
is left behind, and so is the assessment of a policy change. Neither is ever deleted.

* **`PurgeComplete`** — what is promised of a state.
* **`LeavesBehind`** — a step that writes to one of the two tables.
* **`ReachInv`** — references stay within a tenant, and a tenant has no other tables.
* **`purge_complete_iff`** — the promise holds after a run just where no step left anything.
* **`purge_leaves_webhook_endpoint`** — a sandbox with an endpoint.
-/

namespace MortgageAgent.Database

open Relational Runs

/-! ## The promise and its condition -/

/-- The purge succeeds, and of the tenant's rows only audit events are left. -/
def PurgeComplete (db : Db) (tenantId : Uuid) : Prop :=
  ∃ db', purgeTenantData appHasMetadata db tenantId = some db'
    ∧ ∀ x ∈ db', x.owner = some tenantId → x.table = .auditEvents

/-- To a table that the purge passes over. -/
def Write.isUnpurged : Write → Bool
  | .createWebhookEndpoint _ | .assessOneCase _ _ _ => true
  | _ => false

/-- The step inserts such a row of the tenant. -/
def LeavesBehind (tenantId : Uuid) (db : Db) : Label → Prop
  | .write t w => t = tenantId ∧ w.isUnpurged = true ∧ (w.run db t).isSome = true
  | _ => False

instance LeavesBehind.decidable (tenantId : Uuid) (db : Db) :
    ∀ a, Decidable (LeavesBehind tenantId db a)
  | .write _ _ => inferInstanceAs (Decidable (_ ∧ _))
  | .createSandbox _ _ => isFalse id
  | .deleteEvidence _ _ => isFalse id
  | .deleteSession _ => isFalse id
  | .purge _ => isFalse id

/-! ## Rows -/

theorem of_owner {tenantId o : Uuid} {table : TableName} {key : Key}
    {refs : List (ForeignKey × Key)}
    {columns : ∀ fk ∈ refs.map Prod.fst, fk ∈ foreignKeys ∧ fk.child = table}
    {required : ∀ fk ∈ foreignKeys, fk.child = table → fk.nullable = false →
      fk ∈ refs.map Prod.fst}
    (h : (Row.of tenantId table key refs columns required).owner = some o) : o = tenantId := by
  simp only [Row.of] at h
  split at h
  · exact (Option.some.inj h).symm
  · cases h

theorem Write.row_owner {tenantId o : Uuid} {w : Write} (h : (w.row tenantId).owner = some o) :
    o = tenantId := by
  unfold Write.row at h
  split at h <;> exact of_owner h

/-- What a written row refers to has been read. -/
theorem Write.refs_read (tenantId : Uuid) (w : Write) :
    ∀ r ∈ (w.row tenantId).refs, (r.1.parent, r.2) ∈ w.reads tenantId := by
  unfold Write.row
  split <;> simp [Row.of, Row.plain, Write.reads, ForeignKey.loanCaseTenant,
    ForeignKey.evidenceFactCase, ForeignKey.casePolicyBindingSnapshot,
    ForeignKey.loanConditionCase, ForeignKey.conditionTransitionCondition, ForeignKey.usageTenant,
    ForeignKey.reservationLedger, ForeignKey.reservationUsage, ForeignKey.agentRunModelInvocation,
    ForeignKey.toolAttemptRun, ForeignKey.communicationMessageTemplate,
    ForeignKey.communicationApprovalMessage, ForeignKey.webhookDeliveryEndpoint,
    ForeignKey.webhookDeliveryEvent]

theorem finds_iff {db : Db} {tenantId : Uuid} {r : TableName × Key} :
    finds db tenantId r = true ↔ ∃ x ∈ db, x.table = r.1 ∧ x.key = r.2 ∧ x.owner = some tenantId := by
  simp [finds, List.any_eq_true]

theorem Write.run_eq_some {db db' : Db} {tenantId : Uuid} {w : Write}
    (h : w.run db tenantId = some db') :
    (∀ r ∈ w.reads tenantId, ∃ x ∈ db, x.table = r.1 ∧ x.key = r.2 ∧ x.owner = some tenantId)
      ∧ insert db (w.row tenantId) = some db' := by
  rw [Write.run] at h
  split at h
  · next hreads =>
    rw [List.all_eq_true] at hreads
    exact ⟨fun r hr => finds_iff.mp (hreads r hr), h⟩
  · cases h

/-! ## References stay within a tenant -/

theorem sound_write {db db' : Db} (hs : Sound db) {tenantId : Uuid} {w : Write}
    (h : w.run db tenantId = some db') : Sound db' := by
  obtain ⟨hreads, hinsert⟩ := Write.run_eq_some h
  refine hs.insert hinsert fun r hr o ho => ?_
  obtain ⟨x, hx, htable, hkey, howner⟩ := hreads _ (w.refs_read tenantId r hr)
  exact ⟨x, hx, htable, hkey, (Write.row_owner ho) ▸ howner⟩

theorem sound_createSandbox {db db' : Db} (hs : Sound db) {tenantId sessionId : Uuid}
    (h : (Label.createSandbox tenantId sessionId).run db = some db') : Sound db' := by
  obtain ⟨db₁, htenant, hsession⟩ := Option.bind_eq_some_iff.mp h
  have hs₁ : Sound db₁ := hs.insert htenant fun r hr => by cases hr
  refine hs₁.insert hsession fun r hr o ho => ?_
  obtain rfl : r = (ForeignKey.guestSandboxSessionTenant, [tenantId]) := List.mem_singleton.mp hr
  have hmem : tenantRow tenantId ∈ db₁ := by
    rw [(insert_eq_some.mp htenant).2.2]
    exact List.mem_append_right _ (List.mem_singleton_self _)
  exact ⟨tenantRow tenantId, hmem, rfl, rfl, (of_owner ho) ▸ rfl⟩

theorem sound_run {db db' : Db} (hs : Sound db) {a : Label} (h : a.run db = some db') :
    Sound db' := by
  cases a with
  | createSandbox tenantId sessionId => exact sound_createSandbox hs h
  | write tenantId w => exact sound_write hs h
  | deleteEvidence tenantId ids => exact hs.delete h
  | deleteSession sessionId => exact hs.delete h
  | purge tenantId => exact hs.deleteAll h

/-! ## Tables of a tenant -/

/-- Only scripts write to them. -/
def TableName.outOfReach : TableName → Bool
  | .legalHolds | .communicationTemplates | .tenantMemberships | .apiClients => true
  | _ => false

def TableName.isUnpurged : TableName → Bool
  | .webhookEndpoints | .policyChangeImpactAssessments => true
  | _ => false

theorem Write.row_outOfReach (tenantId : Uuid) (w : Write) :
    (w.row tenantId).table.outOfReach = false := by
  unfold Write.row
  split <;> rfl

theorem Write.row_isUnpurged (tenantId : Uuid) (w : Write) :
    (w.row tenantId).table.isUnpurged = w.isUnpurged := by
  unfold Write.row
  split <;> rfl

theorem Write.owner_of_isUnpurged (tenantId : Uuid) (w : Write) (h : w.isUnpurged = true) :
    (w.row tenantId).owner = some tenantId := by
  unfold Write.isUnpurged at h
  split at h
  · rfl
  · rfl
  · cases h

/-- Where a row comes from. -/
theorem mem_run_cases {db db' : Db} {a : Label} (h : a.run db = some db') {x : Row}
    (hx : x ∈ db') : x ∈ db
      ∨ (∃ tenantId sessionId, a = .createSandbox tenantId sessionId
        ∧ (x = tenantRow tenantId ∨ x = sessionRow tenantId sessionId))
      ∨ ∃ tenantId w, a = .write tenantId w ∧ x = w.row tenantId := by
  cases a with
  | createSandbox tenantId sessionId =>
    obtain ⟨db₁, htenant, hsession⟩ := Option.bind_eq_some_iff.mp h
    rw [(insert_eq_some.mp hsession).2.2, (insert_eq_some.mp htenant).2.2, List.append_assoc,
      List.mem_append] at hx
    rcases hx with hold | hnew
    · exact Or.inl hold
    · exact Or.inr (Or.inl ⟨tenantId, sessionId, rfl, by simpa using hnew⟩)
  | write tenantId w =>
    rw [(insert_eq_some.mp (Write.run_eq_some h).2).2.2, List.mem_append, List.mem_singleton] at hx
    rcases hx with hold | hnew
    · exact Or.inl hold
    · exact Or.inr (Or.inr ⟨tenantId, w, rfl, hnew⟩)
  | deleteEvidence tenantId ids => exact Or.inl (mem_of_delete h hx)
  | deleteSession sessionId => exact Or.inl (mem_of_delete h hx)
  | purge tenantId => exact Or.inl (mem_of_deleteAll h hx)

structure ReachInv (tenantId : Uuid) (db : Db) : Prop where
  sound : Sound db
  inReach : ∀ x ∈ db, x.owner = some tenantId → x.table.outOfReach = false
  purged : ∀ x ∈ db, x.owner = some tenantId → x.table.isUnpurged = false

/-- **One step** that leaves nothing behind. -/
theorem ReachInv.step {tenantId : Uuid} {db : Db} (h : ReachInv tenantId db) {a : Label}
    (ha : ¬ LeavesBehind tenantId db a) : ReachInv tenantId (step db a) := by
  rw [Database.step]
  cases hrun : a.run db with
  | none => exact h
  | some db' =>
    rw [Option.getD_some]
    refine ⟨sound_run h.sound hrun, ?_, ?_⟩
    · intro x hx howner
      rcases mem_run_cases hrun hx with hold | ⟨t, id, -, rfl | rfl⟩ | ⟨t, w, -, rfl⟩
      · exact h.inReach x hold howner
      · rfl
      · rfl
      · exact w.row_outOfReach t
    · intro x hx howner
      rcases mem_run_cases hrun hx with hold | ⟨t, id, -, rfl | rfl⟩ | ⟨t, w, rfl, rfl⟩
      · exact h.purged x hold howner
      · rfl
      · rfl
      · obtain rfl := Write.row_owner howner
        rw [w.row_isUnpurged]
        by_contra hunpurged
        refine ha ⟨rfl, by simpa using hunpurged, ?_⟩
        rw [show w.run db tenantId = some db' from hrun]
        rfl

/-! ## The purge -/

theorem purgeStatements_ordered :
    schema.Ordered [] (purgeStatements appHasMetadata) := by decide +kernel

/-- A table where nothing can be left: cleared, or of rows that need one that is. -/
theorem table_covered (table : TableName) :
    table ∈ cleared (purgeStatements appHasMetadata)
      ∨ (∃ fk ∈ foreignKeys, fk.child = table ∧ fk.nullable = false
        ∧ fk.parent ∈ cleared (purgeStatements appHasMetadata))
      ∨ table.hasTenantId = false ∨ table.outOfReach = true ∨ table.isUnpurged = true
      ∨ table = .auditEvents := by
  cases table <;> decide +kernel

theorem ReachInv.purgeComplete {tenantId : Uuid} {db : Db} (h : ReachInv tenantId db) :
    PurgeComplete db tenantId := by
  obtain ⟨db', hpurge, hcleared⟩ :=
    deleteAll_of_ordered (o := tenantId) purgeStatements_ordered h.sound fun _ _ _ hmem => by
      cases hmem
  simp only [List.append_nil] at hcleared
  have hsound : Sound db' := h.sound.deleteAll hpurge
  refine ⟨db', hpurge, fun x hx howner => ?_⟩
  have hbefore := mem_of_deleteAll hpurge hx
  rcases table_covered x.table with hc | ⟨fk, hfk, hchild, hrequired, hparent⟩ | hno | hout | hun
    | haudit
  · exact absurd hc (hcleared x hx howner)
  · exact absurd hparent (hsound.parent_not_mem hcleared hx howner hfk hchild hrequired)
  · have hsome := x.ownerColumn
    rw [howner, show schema.hasOwner x.table = x.table.hasTenantId from rfl, hno] at hsome
    cases hsome
  · rw [h.inReach x hbefore howner] at hout
    cases hout
  · rw [h.purged x hbefore howner] at hun
    cases hun
  · exact haudit

/-! ## What is left behind stays -/

theorem refs_of_isUnpurged {x : Row} (h : x.table.isUnpurged = true) : x.refs = [] := by
  have hnone : ∀ fk ∈ foreignKeys, fk.child.isUnpurged = false := by decide
  refine List.eq_nil_iff_forall_not_mem.mpr fun r hr => ?_
  obtain ⟨hfk, hchild⟩ := x.columns r.1 (List.mem_map_of_mem hr)
  have hfalse := hnone r.1 hfk
  rw [hchild, h] at hfalse
  cases hfalse

theorem mem_purge_of_isUnpurged {db db' : Db} {tenantId : Uuid}
    (h : purgeTenantData appHasMetadata db tenantId = some db') {x : Row} (hx : x ∈ db)
    (hunpurged : x.table.isUnpurged = true) : x ∈ db' := by
  refine mem_deleteAll h hx fun s hs hbelow => ?_
  have hnone : ∀ s ∈ (purgeStatements appHasMetadata), ∀ table ∈ schema.below s.table,
      table.isUnpurged = false := by decide +kernel
  rw [hnone s hs x.table hbelow] at hunpurged
  cases hunpurged

theorem mem_step_of_isUnpurged {db : Db} {x : Row} (hx : x ∈ db)
    (hunpurged : x.table.isUnpurged = true) (a : Label) : x ∈ step db a := by
  rw [step]
  cases hrun : a.run db with
  | none => exact hx
  | some db' =>
    rw [Option.getD_some]
    cases a with
    | createSandbox tenantId sessionId =>
      obtain ⟨db₁, htenant, hsession⟩ := Option.bind_eq_some_iff.mp hrun
      rw [(insert_eq_some.mp hsession).2.2, (insert_eq_some.mp htenant).2.2]
      exact List.mem_append_left _ (List.mem_append_left _ hx)
    | write tenantId w =>
      rw [(insert_eq_some.mp (Write.run_eq_some hrun).2).2.2]
      exact List.mem_append_left _ hx
    | deleteEvidence tenantId ids =>
      refine mem_delete_of_not_select hrun hx ?_ (refs_of_isUnpurged hunpurged)
      refine decide_eq_false fun hselect => ?_
      rw [hselect.1] at hunpurged
      cases hunpurged
    | deleteSession sessionId =>
      refine mem_delete_of_not_select hrun hx ?_ (refs_of_isUnpurged hunpurged)
      refine decide_eq_false fun hselect => ?_
      rw [hselect.1] at hunpurged
      cases hunpurged
    | purge tenantId => exact mem_purge_of_isUnpurged hrun hx hunpurged

theorem mem_exec_of_isUnpurged {db : Db} {x : Row} (hx : x ∈ db)
    (hunpurged : x.table.isUnpurged = true) (run : List Label) : x ∈ exec step db run := by
  induction run generalizing db with
  | nil => exact hx
  | cons a rest ih => exact ih (mem_step_of_isUnpurged hx hunpurged a)

/-- A row left behind outlives the purge. -/
theorem not_purgeComplete_of_mem {tenantId : Uuid} {db : Db} {x : Row} (hx : x ∈ db)
    (howner : x.owner = some tenantId) (hunpurged : x.table.isUnpurged = true) :
    ¬ PurgeComplete db tenantId := by
  rintro ⟨db', hpurge, hall⟩
  rw [hall x (mem_purge_of_isUnpurged hpurge hx hunpurged) howner] at hunpurged
  cases hunpurged

/-- **A purge of any reachable state** succeeds and leaves only audit events of the tenant, if and
only if no step before has written to one of the two tables. -/
theorem purge_complete_iff (tenantId : Uuid) (start : Db) (hsound : Sound start)
    (hnew : ∀ x ∈ start, x.owner ≠ some tenantId) (run : List Label) :
    PurgeComplete (exec step start run) tenantId
      ↔ AllSteps step (fun db a => ¬ LeavesBehind tenantId db a) start run := by
  constructor
  · intro hcomplete
    by_contra hnot
    obtain ⟨before, a, after, rfl, ha⟩ := exists_step_of_not_allSteps hnot
    rw [not_not] at ha
    cases a with
    | write t w =>
      obtain ⟨rfl, hunpurged, hinserted⟩ := ha
      obtain ⟨db', hrun⟩ := Option.isSome_iff_exists.mp hinserted
      have hrow : w.row t ∈ step (exec step start before) (.write t w) := by
        rw [step, show (Label.write t w).run _ = _ from hrun, Option.getD_some,
          (insert_eq_some.mp (Write.run_eq_some hrun).2).2.2]
        exact List.mem_append_right _ (List.mem_singleton_self _)
      have htable := (w.row_isUnpurged t).trans hunpurged
      have howner := w.owner_of_isUnpurged t hunpurged
      rw [exec_append, exec_cons] at hcomplete
      exact not_purgeComplete_of_mem (mem_exec_of_isUnpurged hrow htable after) howner htable
        hcomplete
    | createSandbox t id => exact ha
    | deleteEvidence t ids => exact ha
    | deleteSession id => exact ha
    | purge t => exact ha
  · intro hall
    have hinit : ReachInv tenantId start :=
      ⟨hsound, fun x hx howner => absurd howner (hnew x hx),
        fun x hx howner => absurd howner (hnew x hx)⟩
    exact (exec_inv_of_allSteps (fun _ _ h ha => h.step ha) hinit hall).purgeComplete

/-- Rows of other tenants stay where they are. -/
theorem purge_keeps_others {db db' : Db} (hs : Sound db) {tenantId : Uuid}
    (h : purgeTenantData appHasMetadata db tenantId = some db') {x : Row} (hx : x ∈ db)
    {other : Uuid} (howner : x.owner = some other) (hother : other ≠ tenantId) : x ∈ db' :=
  mem_deleteAll_of_other hs h hx howner hother

/-! ## Two sandboxes -/

/-- A case on its way to a condition, with a message of which a reviewer approves. -/
def tour : List Label :=
  [.createSandbox 1 2, .write 1 (.createCase 3), .write 1 (.grantForCase 4),
    .write 1 (.writeOutboxEvent 5), .write 1 (.recordEvidence 6 3), .write 1 (.persistSnapshot 7),
    .write 1 (.evaluateInternal 8 7), .write 1 (.createOrLoad 9),
    .write 1 (.reserveTenantAggregate 10), .write 1 (.reserve 11 9 (some 10)),
    .write 1 (.persistPlannerInvocation 12), .write 1 (.persistAgentRun 13 (some 12)),
    .write 1 (.persistToolAttempt 14 13), .write 1 (.createCondition 15 3),
    .write 1 (.resolveCondition 16 15), .write 1 (.draft 17 none), .write 1 (.approve 18 17),
    .write 1 (.recordAuditEvent 19)]

theorem purge_complete_tour : PurgeComplete (exec step [] tour) 1 :=
  (purge_complete_iff 1 [] ⟨by simp, by simp, by simp⟩ (by simp) tour).mpr (by decide +kernel)

/-- **The endpoint is left behind.** -/
theorem purge_leaves_webhook_endpoint :
    ¬ PurgeComplete (exec step [] [.createSandbox 1 2, .write 1 (.createWebhookEndpoint 3)]) 1 := by
  rintro ⟨db', hpurge, hall⟩
  have hleft : ((purgeTenantData appHasMetadata (exec step []
      [.createSandbox 1 2, .write 1 (.createWebhookEndpoint 3)]) 1).map fun db =>
        db.any fun x => x.owner = some 1 ∧ x.table = .webhookEndpoints) = some true := by
    decide +kernel
  rw [hpurge, Option.map_some, Option.some_inj, List.any_eq_true] at hleft
  obtain ⟨x, hx, hx'⟩ := hleft
  obtain ⟨howner, htable⟩ := of_decide_eq_true hx'
  rw [hall x hx howner] at htable
  cases htable

end MortgageAgent.Database
