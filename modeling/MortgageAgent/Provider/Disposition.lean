import MortgageAgent.Provider.Intent

/-!
# Consent revocation and data disposition

Revoking a consent opens a retention review over the case's evidence and provider intents, in
one transaction. Resolving the review is one transaction as well, but it consults the legal
holds in a transaction of its own, so it is written in three parts: the task is read, the hold
is read, and then everything else happens under the locks on the intents.
-/

namespace MortgageAgent.Provider

/-! ## Consent -/

def grantForCase (db : Db) (record : ConsentRecord) : Except ProviderFailure Db :=
  match db.consents.insert record with
  | some consents => .ok { db with consents }
  | none => .error (.database .uniqueViolation)

theorem grantForCase_ok {db db' : Db} {record : ConsentRecord}
    (h : grantForCase db record = .ok db') :
    ∃ consents, db.consents.insert record = some consents ∧ db' = { db with consents } := by
  unfold grantForCase at h
  split at h
  · next consents hinsert =>
    cases h
    exact ⟨consents, hinsert, rfl⟩
  · cases h

/-- The retention review of a revoked consent, over the case's rows as they stand. -/
def retentionReview (db : Db) (env : Env) (tenantId caseId consentRecordId : Uuid) :
    DataDispositionTask :=
  let affectedEvidenceFactIds := (db.evidence.rows.filter fun e =>
    e.tenantId = tenantId && e.caseId = caseId).map (·.id)
  let affectedProviderIntentIds := (db.intents.rows.filter fun i =>
    i.tenantId = tenantId && i.caseId = caseId).map (·.id)
  { id := env.newId
    tenantId
    caseId
    reason := "Consent " ++ toString consentRecordId ++ " was revoked for case "
      ++ toString caseId ++ "; " ++ toString affectedEvidenceFactIds.length
      ++ " evidence record(s) and " ++ toString affectedProviderIntentIds.length
      ++ " provider result(s) require retention review."
    triggeringConsentRecordId := some consentRecordId
    affectedEvidenceFactIds
    affectedProviderIntentIds }

/-- `ConsentService.revoke`: the newest unrevoked record, and the review it opens. -/
def revokeConsent (db : Db) (env : Env) (tenantId caseId : Uuid) (reason : Option String) :
    Except ProviderFailure Db :=
  match (newestConsents db tenantId caseId).find? fun c => c.revokedAt.isNone with
  | none =>
    .error (.notFound ("No active consent record for case " ++ toString caseId))
  | some active =>
    -- the review task and the revocation are one transaction.
    match db.tasks.insert (retentionReview db env tenantId caseId active.id) with
    | none => .error (.database .uniqueViolation)
    | some tasks =>
      let revoked := { active with revokedAt := some env.processNow, revocationReason := reason }
      .ok { db with consents := db.consents.put revoked, tasks }

/-- **What a revocation writes.** The newest unrevoked record of the case is revoked in place,
and the retention review is opened. -/
theorem revokeConsent_ok {db db' : Db} {env : Env} {tenantId caseId : Uuid}
    {reason : Option String} (h : revokeConsent db env tenantId caseId reason = .ok db') :
    ∃ active tasks, (newestConsents db tenantId caseId).find? (·.revokedAt.isNone) = some active
      ∧ db.tasks.insert (retentionReview db env tenantId caseId active.id) = some tasks
      ∧ db' = { db with
          consents := db.consents.put
            { active with revokedAt := some env.processNow, revocationReason := reason }
          tasks } := by
  unfold revokeConsent at h
  split at h
  · cases h
  next active hactive =>
  split at h
  · cases h
  next tasks htasks =>
  cases h
  exact ⟨active, tasks, hactive, htasks, rfl⟩

/-! ## Legal holds -/

def hasActiveHold (db : Db) (tenantId caseId : Uuid) : Bool :=
  db.holds.rows.any fun h => h.tenantId = tenantId && h.caseId = caseId && h.status = .ACTIVE

def placeHold (db : Db) (hold : LegalHold) : Except ProviderFailure Db :=
  match db.holds.rows.find? fun h =>
      h.tenantId = hold.tenantId && h.caseId = hold.caseId && h.status = .ACTIVE with
  | some existing =>
    .error (.badRequest ("case " ++ toString hold.caseId ++ " already has an active legal hold ("
      ++ toString existing.id ++ ") — release it before placing a new one"))
  | none =>
    match db.holds.insert hold with
    | some holds => .ok { db with holds }
    | none => .error (.database .uniqueViolation)

def releaseHold (db : Db) (env : Env) (tenantId legalHoldId : Uuid) (releasedBy : String) :
    Except ProviderFailure Db :=
  match (db.holds.find legalHoldId).filter fun h => h.tenantId = tenantId with
  | none => .error (.badRequest ("legal hold " ++ toString legalHoldId ++ " not found"))
  | some hold =>
    if hold.status = .RELEASED then
      .error (.badRequest ("legal hold " ++ toString legalHoldId ++ " is already released"))
    else
      let released := { hold with
        status := .RELEASED
        releasedAt := some env.processNow
        releasedBy := some releasedBy }
      .ok { db with holds := db.holds.put released }

theorem placeHold_ok {db db' : Db} {hold : LegalHold} (h : placeHold db hold = .ok db') :
    ∃ holds, db.holds.insert hold = some holds ∧ db' = { db with holds } := by
  unfold placeHold at h
  split at h
  · cases h
  split at h
  · next holds hinsert =>
    cases h
    exact ⟨holds, hinsert, rfl⟩
  · cases h

/-- A release marks the hold in place. -/
theorem releaseHold_ok {db db' : Db} {env : Env} {tenantId legalHoldId : Uuid}
    {releasedBy : String} (h : releaseHold db env tenantId legalHoldId releasedBy = .ok db') :
    ∃ hold ∈ db.holds.rows, db' = { db with
      holds := db.holds.put { hold with
        status := .RELEASED
        releasedAt := some env.processNow
        releasedBy := some releasedBy } } := by
  unfold releaseHold at h
  split at h
  · cases h
  next hold hfind =>
  split at h
  · cases h
  cases h
  obtain ⟨hfound, -⟩ := Option.filter_eq_some_iff.mp hfind
  exact ⟨hold, (db.holds.find_eq_some_iff.mp hfound).1, rfl⟩

/-! ## Resolving a review -/

inductive DataDispositionResolutionAction where
  | DELETE
  | ANONYMIZE
  | RETAIN
  deriving DecidableEq, Repr

def DataDispositionResolutionAction.text : DataDispositionResolutionAction → String
  | .DELETE => "DELETE"
  | .ANONYMIZE => "ANONYMIZE"
  | .RETAIN => "RETAIN"

/-- The task, read without a lock. -/
def resolveReadTask (db : Db) (tenantId taskId : Uuid) :
    Except ProviderFailure DataDispositionTask :=
  match (db.tasks.find taskId).filter fun t => t.tenantId = tenantId with
  | none => .error (.badRequest ("data disposition task " ++ toString taskId ++ " not found"))
  | some task =>
    if task.status ≠ .PENDING then
      .error (.badRequest ("data disposition task " ++ toString taskId ++ " is already "
        ++ task.status.text))
    else .ok task

theorem resolveReadTask_ok {db : Db} {tenantId taskId : Uuid} {task : DataDispositionTask}
    (h : resolveReadTask db tenantId taskId = .ok task) :
    db.tasks.find taskId = some task ∧ task.tenantId = tenantId ∧ task.status = .PENDING := by
  unfold resolveReadTask at h
  split at h
  · cases h
  next row hrow =>
  split at h
  · cases h
  next hpending =>
  cases h
  obtain ⟨hfind, htenant⟩ := Option.filter_eq_some_iff.mp hrow
  exact ⟨hfind, by simpa using htenant, not_not.mp hpending⟩

/-- The hold decides which actions are open. -/
def resolveCheckHold (task : DataDispositionTask) (action : DataDispositionResolutionAction)
    (hasHold : Bool) : Except ProviderFailure Unit :=
  if action = .RETAIN then
    if hasHold then .ok ()
    else
      .error (.badRequest ("cannot RETAIN task " ++ toString task.id ++ " — case "
        ++ toString task.caseId ++ " has no active legal hold to retain it under; place one "
        ++ "first, or choose DELETE/ANONYMIZE"))
  else if hasHold then
    .error (.badRequest ("cannot " ++ action.text ++ " task " ++ toString task.id ++ " — case "
      ++ toString task.caseId ++ " has an active legal hold; release it first, or choose RETAIN"))
  else .ok ()

/-- The snapshotted intents of the task that are rows of its tenant. -/
def DataDispositionTask.affects (task : DataDispositionTask) (tenantId : Uuid)
    (i : ProviderOperationIntent) : Bool :=
  i.tenantId = tenantId && task.affectedProviderIntentIds.contains i.id

/-- A dispatched or ambiguous operation may still write a result. -/
def ProviderOperationIntent.unsettled (i : ProviderOperationIntent) : Bool :=
  i.state = .DISPATCHED || i.state = .OUTCOME_UNKNOWN || i.state = .RECONCILING

/-- One intent under `DELETE` or `ANONYMIZE`: cancelled if it was never dispatched, and its
payloads removed. -/
def ProviderOperationIntent.disposed (i : ProviderOperationIntent) (env : Env)
    (actorId : String) : ProviderOperationIntent :=
  let i :=
    -- an operation that was dispatched keeps its state: only its payloads go.
    if i.state = .PREPARED then
      { i with
        state := .CANCELLED
        resolvedBy := some actorId
        resolutionNote :=
          some "Cancelled before dispatch during consent-revocation data disposition." }
    else i
  { i with providerReceipt := none, normalizedFinding := none, updatedAt := env.dbNow }

@[simp] theorem disposed_id (i : ProviderOperationIntent) (env : Env) (actorId : String) :
    (i.disposed env actorId).id = i.id := by
  unfold ProviderOperationIntent.disposed
  split <;> rfl

/-- The intents after the locks, the cancellation and the scrubbing. -/
def disposeIntents (db : Db) (env : Env) (tenantId : Uuid) (task : DataDispositionTask)
    (actorId : String) : Table ProviderOperationIntent ProviderOperationIntent.id :=
  db.intents.mapRows (fun i => if task.affects tenantId i then i.disposed env actorId else i)
    (fun i => by split <;> simp)

/-- The affected intents whose outcome is still open. -/
def unsettledIntents (db : Db) (tenantId : Uuid) (task : DataDispositionTask) :
    List ProviderOperationIntent :=
  db.intents.rows.filter fun i => task.affects tenantId i && i.unsettled

/-- The evidence the task names, without its values. -/
def anonymizeEvidence (db : Db) (task : DataDispositionTask) :
    Table EvidenceFact EvidenceFact.id :=
  db.evidence.mapRows
    (fun e => if task.affectedEvidenceFactIds.contains e.id then { e with value := .obj [] }
      else e)
    (fun e => by split <;> rfl)

def DataDispositionTask.retained (task : DataDispositionTask) (env : Env) (actorId : String) :
    DataDispositionTask :=
  { task with
    status := .VERIFIED
    resolutionOutcome := some .RETAINED_UNDER_HOLD
    resolvedAt := some env.processNow
    resolvedBy := some actorId
    backupExpiryDueAt := none }

/-- Completed, and verified only once the backups have expired. -/
def DataDispositionTask.completed (task : DataDispositionTask) (deps : Deps) (env : Env)
    (actorId : String) (outcome : DataDispositionResolutionOutcome) : DataDispositionTask :=
  { task with
    status := .COMPLETED
    resolutionOutcome := some outcome
    resolvedAt := some env.processNow
    resolvedBy := some actorId
    backupExpiryDueAt := some (env.processNow + deps.backupRetentionHours * 60 * 60 * 1000) }

/-- The rest of the transaction, under the locks on the snapshotted intents. -/
def resolveFinish (deps : Deps) (db : Db) (env : Env) (tenantId : Uuid)
    (task : DataDispositionTask) (action : DataDispositionResolutionAction) (actorId : String) :
    Except ProviderFailure Db :=
  if action ≠ .RETAIN ∧ unsettledIntents db tenantId task ≠ [] then
    .error (.badRequest ("cannot " ++ action.text ++ " task " ++ toString task.id ++ " — "
      ++ toString (unsettledIntents db tenantId task).length
      ++ " provider operation(s) still require outcome reconciliation"))
  else
    -- the update is by id alone: the status read before the locks is not checked again.
    match db.tasks.find task.id with
    | none => .error (.notFound ("data disposition task " ++ toString task.id))
    | some row =>
      match action with
      | .RETAIN => .ok { db with tasks := db.tasks.put (row.retained env actorId) }
      | .DELETE =>
        .ok { db with
          intents := disposeIntents db env tenantId task actorId
          evidence := db.evidence.filter fun e => !task.affectedEvidenceFactIds.contains e.id
          tasks := db.tasks.put (row.completed deps env actorId .DELETED) }
      | .ANONYMIZE =>
        .ok { db with
          intents := disposeIntents db env tenantId task actorId
          evidence := anonymizeEvidence db task
          tasks := db.tasks.put (row.completed deps env actorId .ANONYMIZED) }

/-- What the last transaction of a resolution writes, by its action. -/
inductive Finished (deps : Deps) (db : Db) (env : Env) (tenantId : Uuid)
    (task row : DataDispositionTask) (actorId : String) :
    DataDispositionResolutionAction → Db → Prop
  | retained : Finished deps db env tenantId task row actorId .RETAIN
      { db with tasks := db.tasks.put (row.retained env actorId) }
  | deleted (hsettled : unsettledIntents db tenantId task = []) :
      Finished deps db env tenantId task row actorId .DELETE
        { db with
          intents := disposeIntents db env tenantId task actorId
          evidence := db.evidence.filter fun e => !task.affectedEvidenceFactIds.contains e.id
          tasks := db.tasks.put (row.completed deps env actorId .DELETED) }
  | anonymized (hsettled : unsettledIntents db tenantId task = []) :
      Finished deps db env tenantId task row actorId .ANONYMIZE
        { db with
          intents := disposeIntents db env tenantId task actorId
          evidence := anonymizeEvidence db task
          tasks := db.tasks.put (row.completed deps env actorId .ANONYMIZED) }

theorem finished_of_resolveFinish {deps : Deps} {db db' : Db} {env : Env} {tenantId : Uuid}
    {task : DataDispositionTask} {action : DataDispositionResolutionAction} {actorId : String}
    (h : resolveFinish deps db env tenantId task action actorId = .ok db') :
    ∃ row, db.tasks.find task.id = some row
      ∧ Finished deps db env tenantId task row actorId action db' := by
  unfold resolveFinish at h
  split at h
  · cases h
  next hunsettled =>
  split at h
  · cases h
  next row hrow =>
  refine ⟨row, hrow, ?_⟩
  have hsettled (haction : action ≠ .RETAIN) : unsettledIntents db tenantId task = [] := by
    by_contra hopen
    exact hunsettled ⟨haction, hopen⟩
  cases action with
  | RETAIN =>
    cases h
    exact .retained
  | DELETE =>
    cases h
    exact .deleted (hsettled (by decide))
  | ANONYMIZE =>
    cases h
    exact .anonymized (hsettled (by decide))

end MortgageAgent.Provider
