import MortgageAgent.Lib.JsonObject
import MortgageAgent.Provider.Submission

/-!
# Two preparations of one operation at once

`prepare` reads the row of its logical key, and inserts it when there is none. Two calls for one
operation may both read nothing; the unique index then lets one insert through, and the other call
answers its 23505 with a reload in the transaction that the violation has just aborted.

* **`PrepareCall`** / **`prepareStep`** — one call, cut at its statements.
* **`Race`** / **`raceStep`** — two calls over one database.
* **`insertsFree`** — an insert finds its key free.
* **`prepare_race_iff`** — both calls return one intent under one idempotency key exactly when
  the row that is there can be reused and every insert is free.
* **`lost_insert_throws`** — the loser of the insert throws.
-/

namespace MortgageAgent.Provider

open Runs Json

/-! ## One call -/

/-- Where a `prepare` call stands. -/
inductive PrepareCall where
  | reading
  | inserting
  | refreshing (existing : ProviderOperationIntent)
  | returned (intent : ProviderOperationIntent)
  | threw (failure : ProviderFailure)

/-- The row of the committed transaction, decrypted. -/
def finishPrepare (deps : Deps) (entity : ProviderOperationIntent) : PrepareCall :=
  match toIntentValue deps entity with
  | .ok intent => .returned intent
  | .error e => .threw e

/-- One statement of the call. -/
def prepareStep (deps : Deps) (db : Db) (env : Env) (input : PrepareIntentInput) :
    PrepareCall → Db × PrepareCall
  | .reading =>
    match prepareRead deps db input with
    | .error e => (db, .threw e)
    | .ok .insert => (db, .inserting)
    | .ok (.refresh existing) => (db, .refreshing existing)
    | .ok (.reuse existing) => (db, finishPrepare deps existing)
  | .inserting =>
    match prepareInsert deps db env input with
    | .error e => (db, .threw e)
    | .ok (db', intent) => (db', finishPrepare deps intent)
  | .refreshing existing =>
    (prepareRefresh db env existing input.authorizationGrantId,
      finishPrepare deps (existing.withGrant input.authorizationGrantId existing.updatedAt))
  | call => (db, call)

/-! ## Two calls -/

/-- The two calls are told apart by a `Bool`. -/
structure Race where
  db : Db
  calls : Bool → PrepareCall

/-- Call `c` makes its next statement. -/
structure RaceLabel where
  call : Bool
  env : Env

def raceStep (deps : Deps) (inputs : Bool → PrepareIntentInput) (r : Race) (a : RaceLabel) : Race :=
  let (db, call) := prepareStep deps r.db a.env (inputs a.call) (r.calls a.call)
  ⟨db, Function.update r.calls a.call call⟩

/-- Both calls are about to read. -/
def Race.start (db : Db) : Race := ⟨db, fun _ => .reading⟩

/-- The inputs name one operation of one case; only the grant and the order of the payload's keys
may differ. -/
structure SameOperation (i j : PrepareIntentInput) : Prop where
  key : i.key = j.key
  caseId : i.caseId = j.caseId
  effectClass : i.effectClass = j.effectClass
  payload : SameUpToKeyOrder i.requestPayloadForFingerprint j.requestPayloadForFingerprint
  wellFormed : i.requestPayloadForFingerprint.wellFormed = true

/-- Both calls have returned one intent under one idempotency key. -/
def BothReturn (r : Race) : Prop :=
  ∃ i j, r.calls false = .returned i ∧ r.calls true = .returned j
    ∧ i.id = j.id ∧ i.idempotencyKey = j.idempotencyKey

/-- A row that `prepare` reuses: it is of the same case, payload and effect class, and its
payloads decrypt. -/
def Reusable (deps : Deps) (input : PrepareIntentInput) (existing : ProviderOperationIntent) :
    Prop :=
  existing.caseId = input.caseId ∧ existing.requestFingerprint = input.requestFingerprint deps
    ∧ existing.effectClass = input.effectClass ∧ (toIntentValue deps existing).isOk = true

/-- An insert finds its key and its id free. -/
def insertsFree (inputs : Bool → PrepareIntentInput) (r : Race) (a : RaceLabel) : Bool :=
  match r.calls a.call with
  | .inserting => (r.db.findByKey (inputs a.call).key).isNone
      && r.db.intents.rows.all fun x => x.id ≠ a.env.newId
  | _ => true

theorem SameOperation.requestFingerprint {i j : PrepareIntentInput} (h : SameOperation i j)
    (deps : Deps) : i.requestFingerprint deps = j.requestFingerprint deps := by
  have hcanonical : i.requestPayloadForFingerprint.canonical
      = j.requestPayloadForFingerprint.canonical := by
    rw [canonical_eq_stringify, canonical_eq_stringify,
      normalize_eq_of_same sortByKey_normalizer h.payload h.wellFormed]
  rw [PrepareIntentInput.requestFingerprint, PrepareIntentInput.requestFingerprint, hcanonical]

/-- What one of the calls can reuse, the other can. -/
theorem SameOperation.reusable_iff {i j : PrepareIntentInput} (h : SameOperation i j)
    {deps : Deps} {existing : ProviderOperationIntent} :
    Reusable deps i existing ↔ Reusable deps j existing := by
  rw [Reusable, Reusable, h.caseId, h.requestFingerprint deps, h.effectClass]

/-! ## What a statement does -/

/-- The columns that a refresh of the grant leaves alone. -/
structure SameButGrant (i i' : ProviderOperationIntent) : Prop where
  id : i'.id = i.id
  key : i'.key = i.key
  idempotencyKey : i'.idempotencyKey = i.idempotencyKey
  reusable : ∀ deps input, Reusable deps input i' ↔ Reusable deps input i

theorem toIntentValue_withGrant (deps : Deps) (i : ProviderOperationIntent) (grantId : Uuid)
    (updatedAt : Instant) :
    (toIntentValue deps (i.withGrant grantId updatedAt)).isOk = (toIntentValue deps i).isOk := by
  simp only [toIntentValue, ProviderOperationIntent.withGrant]
  cases i.providerReceipt.mapM fun v => deps.decrypt v (receiptAad i.tenantId i.id) with
  | error e => rfl
  | ok receipt =>
    cases i.normalizedFinding.mapM fun v => deps.decrypt v (findingAad i.tenantId i.id) with
    | error e => rfl
    | ok finding => rfl

theorem sameButGrant_withGrant (i : ProviderOperationIntent) (grantId : Uuid)
    (updatedAt : Instant) : SameButGrant i (i.withGrant grantId updatedAt) := by
  refine ⟨rfl, rfl, rfl, fun deps input => ?_⟩
  rw [Reusable, Reusable, toIntentValue_withGrant]
  rfl

theorem find?_map_keep {α : Type} {p : α → Bool} {f : α → α} {l : List α}
    (h : ∀ x ∈ l, p (f x) = p x) : (l.map f).find? p = (l.find? p).map f := by
  induction l with
  | nil => rfl
  | cons x xs ih =>
    have hx := h x (List.mem_cons_self ..)
    have hxs := ih fun y hy => h y (List.mem_cons_of_mem x hy)
    rw [List.map_cons, List.find?_cons, List.find?_cons, hx, hxs]
    cases p x <;> rfl

/-- A refresh changes the grant of a row and nothing else. -/
theorem findByKey_refresh (db : Db) (env : Env) (existing : ProviderOperationIntent)
    (grantId : Uuid) (key : OperationKey) :
    (db.findByKey key = none → (prepareRefresh db env existing grantId).findByKey key = none)
      ∧ ∀ row, db.findByKey key = some row →
        ∃ row', (prepareRefresh db env existing grantId).findByKey key = some row'
          ∧ SameButGrant row row' := by
  have hsame (i : ProviderOperationIntent) : SameButGrant i i :=
    ⟨rfl, rfl, rfl, fun _ _ => Iff.rfl⟩
  unfold prepareRefresh
  split
  · next stored hstored =>
    obtain ⟨hmem, -⟩ := db.intents.find_eq_some_iff.mp hstored
    split
    · -- every row keeps its key, so the search finds the same row
      have hrow : ∀ x ∈ db.intents.rows, SameButGrant x
          (if x.id = (stored.withGrant grantId env.dbNow).id then stored.withGrant grantId env.dbNow
            else x) := by
        intro x hx
        split
        · next hid =>
          obtain rfl := db.intents.eq_of_key_eq hx hmem hid
          exact sameButGrant_withGrant x grantId env.dbNow
        · exact hsame x
      have hfind : ({ db with intents := db.intents.put (stored.withGrant grantId env.dbNow) } :
          Db).findByKey key = (db.findByKey key).map fun x =>
            if x.id = (stored.withGrant grantId env.dbNow).id
            then stored.withGrant grantId env.dbNow else x := by
        refine find?_map_keep fun x hx => ?_
        simp only [(hrow x hx).key]
      rw [hfind]
      refine ⟨fun h => by rw [h]; rfl, fun row h => ⟨_, by rw [h]; rfl, ?_⟩⟩
      exact hrow row (findByKey_some h).1
    · exact ⟨id, fun row h => ⟨row, h, hsame row⟩⟩
  · exact ⟨id, fun row h => ⟨row, h, hsame row⟩⟩

theorem toIntentValue_idempotencyKey {deps : Deps} {entity intent : ProviderOperationIntent}
    (h : toIntentValue deps entity = .ok intent) :
    intent.idempotencyKey = entity.idempotencyKey := by
  simp only [toIntentValue] at h
  cases hreceipt : entity.providerReceipt.mapM fun v =>
      deps.decrypt v (receiptAad entity.tenantId entity.id) with
  | error e => rw [hreceipt] at h; cases h
  | ok receipt =>
    rw [hreceipt] at h
    cases hfinding : entity.normalizedFinding.mapM fun v =>
        deps.decrypt v (findingAad entity.tenantId entity.id) with
    | error e =>
      simp only [hfinding] at h
      cases h
    | ok finding =>
      simp only [hfinding] at h
      cases h
      rfl

/-- A row whose payloads decrypt is returned, under its own id and idempotency key. -/
theorem finishPrepare_returned {deps : Deps} {entity : ProviderOperationIntent}
    (h : (toIntentValue deps entity).isOk = true) :
    ∃ intent, finishPrepare deps entity = .returned intent ∧ intent.id = entity.id
      ∧ intent.idempotencyKey = entity.idempotencyKey := by
  cases hvalue : toIntentValue deps entity with
  | error e => rw [hvalue] at h; cases h
  | ok intent =>
    refine ⟨intent, ?_, (toIntentValue_ok hvalue).1, toIntentValue_idempotencyKey hvalue⟩
    rw [finishPrepare, hvalue]

theorem finishPrepare_threw {deps : Deps} {entity : ProviderOperationIntent}
    (h : (toIntentValue deps entity).isOk = false) : ∃ e, finishPrepare deps entity = .threw e := by
  cases hvalue : toIntentValue deps entity with
  | error e => exact ⟨e, by rw [finishPrepare, hvalue]⟩
  | ok intent => rw [hvalue] at h; cases h

theorem newIntent_reusable (deps : Deps) (env : Env) (input : PrepareIntentInput) :
    Reusable deps input (newIntent deps env input) :=
  ⟨rfl, rfl, rfl, rfl⟩

/-- An insert under a free key and a free id goes through. -/
theorem prepareInsert_free (deps : Deps) {db : Db} {env : Env} {input : PrepareIntentInput}
    (hkey : db.findByKey input.key = none) (hid : ∀ x ∈ db.intents.rows, x.id ≠ env.newId) :
    ∃ db', prepareInsert deps db env input = .ok (db', newIntent deps env input)
      ∧ db'.findByKey input.key = some (newIntent deps env input) := by
  have hfree : (newIntent deps env input).id ∉ db.intents.rows.map ProviderOperationIntent.id := by
    intro hmem
    obtain ⟨x, hx, hxid⟩ := List.mem_map.mp hmem
    exact hid x hx hxid
  obtain ⟨intents, hinsert⟩ : ∃ t, db.intents.insert (newIntent deps env input) = some t :=
    ⟨_, by rw [Table.insert, dif_neg hfree]⟩
  refine ⟨{ db with intents }, ?_, ?_⟩
  · rw [prepareInsert, if_neg (by rw [hkey]; exact Bool.false_ne_true), hinsert]
  · have hnone : db.intents.rows.find? (fun i => i.key = input.key) = none := hkey
    show intents.rows.find? (fun i => i.key = input.key) = some (newIntent deps env input)
    rw [Table.rows_of_insert hinsert, List.find?_append, hnone, Option.none_or]
    exact List.find?_cons_of_pos (decide_eq_true rfl)

/-! ## While every insert is free -/

/-- What a call holds of the row that the key has. -/
def PrepareCall.Agrees (deps : Deps) (row : ProviderOperationIntent) : PrepareCall → Prop
  | .reading => True
  | .inserting => True
  | .refreshing existing => existing.id = row.id ∧ existing.idempotencyKey = row.idempotencyKey
      ∧ (toIntentValue deps existing).isOk = true
  | .returned intent => intent.id = row.id ∧ intent.idempotencyKey = row.idempotencyKey
  | .threw _ => False

/-- The call has read nothing yet, or has found no row. -/
def PrepareCall.empty : PrepareCall → Bool
  | .reading | .inserting => true
  | _ => false

theorem PrepareCall.Agrees.of_empty {deps : Deps} {call : PrepareCall} (h : call.empty = true)
    (row : ProviderOperationIntent) : call.Agrees deps row := by
  cases call with
  | reading => trivial
  | inserting => trivial
  | _ => cases h

theorem PrepareCall.Agrees.refreshed {deps : Deps} {call : PrepareCall}
    {row row' : ProviderOperationIntent} (h : call.Agrees deps row) (hrow : SameButGrant row row') :
    call.Agrees deps row' := by
  cases call with
  | refreshing existing =>
    exact ⟨h.1.trans hrow.id.symm, h.2.1.trans hrow.idempotencyKey.symm, h.2.2⟩
  | returned intent => exact ⟨h.1.trans hrow.id.symm, h.2.trans hrow.idempotencyKey.symm⟩
  | reading => trivial
  | inserting => trivial
  | threw e => exact h

section
variable {deps : Deps} {inputs : Bool → PrepareIntentInput}

/-- Nobody has found or made a row yet, or there is one that both calls can use and whoever is
past its read has hold of it. -/
def RaceInv (deps : Deps) (inputs : Bool → PrepareIntentInput) (r : Race) : Prop :=
  (r.db.findByKey (inputs false).key = none ∧ ∀ c, (r.calls c).empty = true)
    ∨ ∃ row, r.db.findByKey (inputs false).key = some row ∧ Reusable deps (inputs false) row
      ∧ ∀ c, (r.calls c).Agrees deps row

/-- The inputs are those of one operation. -/
theorem input_eq (deps : Deps) (hsame : SameOperation (inputs false) (inputs true)) (c : Bool) :
    (inputs c).key = (inputs false).key ∧ ∀ row, Reusable deps (inputs false) row
      ↔ Reusable deps (inputs c) row := by
  cases c with
  | false => exact ⟨rfl, fun _ => Iff.rfl⟩
  | true => exact ⟨hsame.key.symm, fun _ => hsame.reusable_iff⟩

theorem update_calls {P : PrepareCall → Prop} {calls : Bool → PrepareCall} {c : Bool}
    {call : PrepareCall} (h : ∀ c, P (calls c)) (hcall : P call) :
    ∀ c', P (Function.update calls c call c') := by
  intro c'
  rw [Function.update_apply]
  split
  · exact hcall
  · exact h c'

/-- A read of a row that can be reused goes on with it. -/
theorem prepareRead_reusable {db : Db} {input : PrepareIntentInput}
    {row : ProviderOperationIntent} (hfound : db.findByKey input.key = some row)
    (hreusable : Reusable deps input row) (env : Env) :
    ∃ call, prepareStep deps db env input .reading = (db, call) ∧ call.Agrees deps row := by
  obtain ⟨hcase, hfingerprint, heffect, hvalue⟩ := hreusable
  have hmatch : ¬ (row.caseId ≠ input.caseId ∨ row.requestFingerprint ≠ input.requestFingerprint deps
      ∨ row.effectClass ≠ input.effectClass) := by
    simp [hcase, hfingerprint, heffect]
  simp only [prepareStep, prepareRead, hfound, prepareReuse, if_neg hmatch]
  by_cases hprepared : row.state = .PREPARED
  · simp only [if_pos hprepared]
    exact ⟨_, rfl, rfl, rfl, hvalue⟩
  · simp only [if_neg hprepared]
    obtain ⟨intent, hreturned, hid, hkey⟩ := finishPrepare_returned hvalue
    exact ⟨_, rfl, by rw [hreturned]; exact ⟨hid, hkey⟩⟩

theorem RaceInv.step (hsame : SameOperation (inputs false) (inputs true)) {r : Race}
    (h : RaceInv deps inputs r) {a : RaceLabel} (hfree : insertsFree inputs r a = true) :
    RaceInv deps inputs (raceStep deps inputs r a) := by
  obtain ⟨c, env⟩ := a
  obtain ⟨hkey, hreusable⟩ := input_eq deps hsame c
  rcases h with ⟨hnone, hempty⟩ | ⟨row, hrow, hrowReusable, hagrees⟩
  · -- no row: the call goes on to insert, or inserts
    have hcall := hempty c
    cases hstate : r.calls c with
    | reading =>
      have hstep : raceStep deps inputs r ⟨c, env⟩
          = ⟨r.db, Function.update r.calls c .inserting⟩ := by
        simp only [raceStep, hstate, prepareStep, prepareRead, hkey, hnone]
      rw [hstep]
      exact Or.inl ⟨hnone, update_calls (P := fun call => call.empty = true) hempty rfl⟩
    | inserting =>
      right
      simp only [insertsFree, hstate, Bool.and_eq_true, Option.isNone_iff_eq_none, List.all_eq_true,
        decide_eq_true_iff] at hfree
      obtain ⟨db', hinsert, hfind⟩ := prepareInsert_free deps hfree.1 hfree.2
      obtain ⟨intent, hreturned, hid, hidempotency⟩ :=
        finishPrepare_returned (newIntent_reusable deps env (inputs c)).2.2.2
      simp only [raceStep, hstate, prepareStep, hinsert, hreturned]
      refine ⟨newIntent deps env (inputs c), by rw [← hkey]; exact hfind,
        (hreusable _).mpr (newIntent_reusable deps env (inputs c)), ?_⟩
      exact update_calls (fun c' => .of_empty (hempty c') _) ⟨hid, hidempotency⟩
    | _ => rw [hstate] at hcall; cases hcall
  · right
    have hcall := hagrees c
    cases hstate : r.calls c with
    | reading =>
      obtain ⟨call, hread, hcallAgrees⟩ := prepareRead_reusable (by rw [hkey]; exact hrow)
        ((hreusable row).mp hrowReusable) env
      simp only [raceStep, hstate, hread]
      exact ⟨row, hrow, hrowReusable, update_calls hagrees hcallAgrees⟩
    | inserting =>
      -- the key is taken, so this insert would not be free
      simp only [insertsFree, hstate, hkey, hrow] at hfree
      cases hfree
    | refreshing existing =>
      rw [hstate] at hcall
      obtain ⟨row', hrow', hsameRow⟩ := (findByKey_refresh r.db env existing
        (inputs c).authorizationGrantId (inputs false).key).2 row hrow
      obtain ⟨intent, hreturned, hid, hidempotency⟩ := finishPrepare_returned
        ((toIntentValue_withGrant deps existing (inputs c).authorizationGrantId
          existing.updatedAt).trans hcall.2.2)
      simp only [raceStep, hstate, prepareStep, hreturned]
      refine ⟨row', hrow', (hsameRow.reusable deps _).mpr hrowReusable, ?_⟩
      refine update_calls (fun c' => (hagrees c').refreshed hsameRow) ⟨?_, ?_⟩
      · exact (hid.trans hcall.1).trans hsameRow.id.symm
      · exact (hidempotency.trans hcall.2.1).trans hsameRow.idempotencyKey.symm
    | returned intent =>
      simp only [raceStep, hstate, prepareStep]
      exact ⟨row, hrow, hrowReusable, update_calls hagrees (hstate ▸ hcall)⟩
    | threw e => rw [hstate] at hcall; exact hcall.elim

/-! ## What goes wrong -/

/-- What the call has found, it cannot use. -/
def PrepareCall.Doomed (deps : Deps) : PrepareCall → Prop
  | .reading => True
  | .refreshing existing => (toIntentValue deps existing).isOk = false
  | .threw _ => True
  | _ => False

/-- The row that the key has is of no use to either call. -/
def Blocked (deps : Deps) (inputs : Bool → PrepareIntentInput) (r : Race) : Prop :=
  ∃ row, r.db.findByKey (inputs false).key = some row ∧ ¬ Reusable deps (inputs false) row
    ∧ ∀ c, (r.calls c).Doomed deps

theorem prepareRead_blocked {db : Db} {input : PrepareIntentInput}
    {row : ProviderOperationIntent} (hfound : db.findByKey input.key = some row)
    (hblocked : ¬ Reusable deps input row) (env : Env) :
    ∃ call, prepareStep deps db env input .reading = (db, call) ∧ call.Doomed deps := by
  simp only [prepareStep, prepareRead, hfound, prepareReuse]
  by_cases hmatch : row.caseId ≠ input.caseId
      ∨ row.requestFingerprint ≠ input.requestFingerprint deps ∨ row.effectClass ≠ input.effectClass
  · simp only [if_pos hmatch]
    exact ⟨_, rfl, trivial⟩
  -- the row is the right one, so it is a payload that does not decrypt
  have hvalue : (toIntentValue deps row).isOk = false := by
    rw [← Bool.not_eq_true]
    intro hok
    simp only [not_or, not_not] at hmatch
    exact hblocked ⟨hmatch.1, hmatch.2.1, hmatch.2.2, hok⟩
  simp only [if_neg hmatch]
  by_cases hprepared : row.state = .PREPARED
  · simp only [if_pos hprepared]
    exact ⟨_, rfl, hvalue⟩
  · simp only [if_neg hprepared]
    obtain ⟨e, hthrew⟩ := finishPrepare_threw hvalue
    exact ⟨_, rfl, by rw [hthrew]; trivial⟩

theorem Blocked.step (hsame : SameOperation (inputs false) (inputs true)) {r : Race}
    (h : Blocked deps inputs r) (a : RaceLabel) :
    Blocked deps inputs (raceStep deps inputs r a) := by
  obtain ⟨c, env⟩ := a
  obtain ⟨hkey, hreusable⟩ := input_eq deps hsame c
  obtain ⟨row, hrow, hblocked, hdoomed⟩ := h
  have hcall := hdoomed c
  cases hstate : r.calls c with
  | reading =>
    obtain ⟨call, hread, hcallDoomed⟩ := prepareRead_blocked (by rw [hkey]; exact hrow)
      (fun hrowReusable => hblocked ((hreusable row).mpr hrowReusable)) env
    simp only [raceStep, hstate, hread]
    exact ⟨row, hrow, hblocked, update_calls hdoomed hcallDoomed⟩
  | refreshing existing =>
    rw [hstate] at hcall
    obtain ⟨row', hrow', hsameRow⟩ := (findByKey_refresh r.db env existing
      (inputs c).authorizationGrantId (inputs false).key).2 row hrow
    obtain ⟨e, hthrew⟩ := finishPrepare_threw ((toIntentValue_withGrant deps existing
      (inputs c).authorizationGrantId existing.updatedAt).trans hcall)
    simp only [raceStep, hstate, prepareStep, hthrew]
    refine ⟨row', hrow', fun hrowReusable => ?_, update_calls hdoomed trivial⟩
    exact hblocked ((hsameRow.reusable deps _).mp hrowReusable)
  | threw e =>
    simp only [raceStep, hstate, prepareStep]
    exact ⟨row, hrow, hblocked, update_calls hdoomed trivial⟩
  | inserting => rw [hstate] at hcall; exact hcall.elim
  | returned intent => rw [hstate] at hcall; exact hcall.elim

/-- What has thrown has thrown. -/
theorem threw_exec {c : Bool} {e : ProviderFailure} (run : List RaceLabel) {r : Race}
    (h : r.calls c = .threw e) : (exec (raceStep deps inputs) r run).calls c = .threw e := by
  refine exec_inv (I := fun r : Race => r.calls c = .threw e) (fun r a hr => ?_) h run
  simp only [raceStep, Function.update_apply]
  split
  · next hc => rw [← hc, hr]; rfl
  · exact hr

/-- **The loser of the insert throws.** -/
theorem insert_taken_threw (deps : Deps) {r : Race} {a : RaceLabel} (h : insertsFree inputs r a = false) :
    ∃ e, (raceStep deps inputs r a).calls a.call = .threw e := by
  unfold insertsFree at h
  split at h
  · next hstate =>
    have herror : ∃ e, prepareInsert deps r.db a.env (inputs a.call) = .error e := by
      unfold prepareInsert
      split
      · exact ⟨_, rfl⟩
      next hkey =>
      split
      · next intents hinsert =>
        have hid : r.db.intents.rows.all (fun x => x.id ≠ a.env.newId) = true := by
          rw [List.all_eq_true]
          exact fun x hx => decide_eq_true (Table.key_fresh_of_insert hinsert x hx)
        have hnone : (r.db.findByKey (inputs a.call).key).isNone = true := by simpa using hkey
        rw [hid, hnone] at h
        cases h
      · exact ⟨_, rfl⟩
    obtain ⟨e, herror⟩ := herror
    refine ⟨e, ?_⟩
    simp only [raceStep, hstate, prepareStep, herror, Function.update_self]
  · cases h

theorem not_bothReturn_of_threw {r : Race} {c : Bool} {e : ProviderFailure}
    (h : r.calls c = .threw e) : ¬ BothReturn r := by
  rintro ⟨i, j, hi, hj, -⟩
  cases c with
  | false => rw [hi] at h; cases h
  | true => rw [hj] at h; cases h

/-- If both calls return, every insert has been free. -/
theorem insertsFree_of_bothReturn (run : List RaceLabel) {r : Race}
    (h : BothReturn (exec (raceStep deps inputs) r run)) :
    AllSteps (raceStep deps inputs) (fun r a => insertsFree inputs r a = true) r run := by
  induction run generalizing r with
  | nil => trivial
  | cons a run ih =>
    refine ⟨?_, ih h⟩
    by_contra htaken
    obtain ⟨e, hthrew⟩ := insert_taken_threw deps (Bool.eq_false_of_not_eq_true htaken)
    exact not_bothReturn_of_threw (threw_exec run hthrew) h

/-! ## The race -/

/-- The statements a call has left. -/
def PrepareCall.rank : PrepareCall → Nat
  | .reading => 2
  | .inserting => 1
  | .refreshing _ => 1
  | .returned _ => 0
  | .threw _ => 0

theorem finishPrepare_rank (deps : Deps) (entity : ProviderOperationIntent) :
    (finishPrepare deps entity).rank = 0 := by
  unfold finishPrepare
  split <;> rfl

theorem prepareStep_rank (deps : Deps) (db : Db) (env : Env) (input : PrepareIntentInput)
    (call : PrepareCall) : (prepareStep deps db env input call).2.rank ≤ call.rank - 1 := by
  cases call with
  | reading =>
    simp only [prepareStep]
    split
    · exact Nat.zero_le _
    · exact Nat.le_refl _
    · exact Nat.le_refl _
    · simp only [finishPrepare_rank, Nat.zero_le]
  | inserting =>
    simp only [prepareStep]
    split
    · exact Nat.zero_le _
    · simp only [finishPrepare_rank, Nat.zero_le]
  | refreshing existing => simp only [prepareStep, finishPrepare_rank, Nat.zero_le]
  | returned intent => exact Nat.le_refl _
  | threw e => exact Nat.le_refl _

/-- A call ends with its second statement at the latest. -/
theorem rank_exec (deps : Deps) (inputs : Bool → PrepareIntentInput) (c : Bool)
    (run : List RaceLabel) (r : Race) :
    ((exec (raceStep deps inputs) r run).calls c).rank
      ≤ (r.calls c).rank - run.countP (·.call = c) := by
  induction run generalizing r with
  | nil => exact Nat.le_refl _
  | cons a run ih =>
    refine (ih (raceStep deps inputs r a)).trans ?_
    by_cases hc : a.call = c
    · have hstep := prepareStep_rank deps r.db a.env (inputs c) (r.calls c)
      have hcalls : (raceStep deps inputs r a).calls c
          = (prepareStep deps r.db a.env (inputs c) (r.calls c)).2 := by
        simp only [raceStep, hc, Function.update_self]
      rw [List.countP_cons_of_pos (by simpa using hc), hcalls]
      omega
    · have hcalls : (raceStep deps inputs r a).calls c = r.calls c := by
        simp only [raceStep]
        exact Function.update_of_ne (fun h => hc h.symm) _ _
      rw [List.countP_cons_of_neg (by simpa using hc), hcalls]

theorem bothReturn_of_inv {r : Race} (h : RaceInv deps inputs r)
    (hover : ∀ c, (r.calls c).rank = 0) : BothReturn r := by
  rcases h with ⟨-, hempty⟩ | ⟨row, -, -, hagrees⟩
  · -- a call that has ended is not at its beginning
    have hcall := hempty false
    have hrank := hover false
    cases hstate : r.calls false with
    | reading => rw [hstate] at hrank; cases hrank
    | inserting => rw [hstate] at hrank; cases hrank
    | _ => rw [hstate] at hcall; cases hcall
  · have hreturned (c : Bool) : ∃ i, r.calls c = .returned i ∧ i.id = row.id
        ∧ i.idempotencyKey = row.idempotencyKey := by
      have hcall := hagrees c
      have hrank := hover c
      cases hstate : r.calls c with
      | returned i => rw [hstate] at hcall; exact ⟨i, rfl, hcall⟩
      | threw e => rw [hstate] at hcall; exact hcall.elim
      | _ => rw [hstate] at hrank; cases hrank
    obtain ⟨i, hi, hiid, hikey⟩ := hreturned false
    obtain ⟨j, hj, hjid, hjkey⟩ := hreturned true
    exact ⟨i, j, hi, hj, hiid.trans hjid.symm, hikey.trans hjkey.symm⟩

end

/-- **Two preparations of one operation.** Over any store and in every interleaving in which both
calls come to their end (two statements each are enough): both return one intent under one
idempotency key if and only if the row the key had at the start, if any, can be reused and every
insert finds its key and its id free. -/
theorem prepare_race_iff (deps : Deps) (db : Db) (inputs : Bool → PrepareIntentInput)
    (run : List RaceLabel) (hsame : SameOperation (inputs false) (inputs true))
    (hsteps : ∀ c, 2 ≤ run.countP (·.call = c)) :
    BothReturn (exec (raceStep deps inputs) (.start db) run)
      ↔ (∀ row, db.findByKey (inputs false).key = some row → Reusable deps (inputs false) row)
        ∧ AllSteps (raceStep deps inputs) (fun r a => insertsFree inputs r a = true) (.start db) run := by
  constructor
  · intro hreturn
    refine ⟨fun row hrow => ?_, insertsFree_of_bothReturn run hreturn⟩
    by_contra hblocked
    have hstart : Blocked deps inputs (.start db) := ⟨row, hrow, hblocked, fun _ => trivial⟩
    have hend : Blocked deps inputs (exec (raceStep deps inputs) (.start db) run) :=
      exec_inv (I := Blocked deps inputs) (fun r a h => h.step hsame a) hstart run
    obtain ⟨-, -, -, hdoomed⟩ := hend
    obtain ⟨i, -, hi, -⟩ := hreturn
    have hfalse := hdoomed false
    rw [hi] at hfalse
    exact hfalse
  · rintro ⟨hreusable, hfree⟩
    have hstart : RaceInv deps inputs (.start db) := by
      cases hfound : db.findByKey (inputs false).key with
      | none => exact Or.inl ⟨hfound, fun _ => rfl⟩
      | some row => exact Or.inr ⟨row, hfound, hreusable row hfound, fun _ => trivial⟩
    have hend : RaceInv deps inputs (exec (raceStep deps inputs) (.start db) run) :=
      exec_inv_of_allSteps (I := RaceInv deps inputs) (fun r a h hfree => h.step hsame hfree) hstart
        hfree
    refine bothReturn_of_inv hend fun c => ?_
    have hrank := rank_exec deps inputs c run (.start db)
    have htwo := hsteps c
    have hstartRank : ((Race.start db).calls c).rank = 2 := rfl
    omega

/-! ### One income report, prepared twice -/

def incomeAdapter : ProviderAdapter where
  providerId := "plaid-simulator"
  effectClass := .REUSABLE_LOOKUP
  normalize := fun payload _ _ => .ok payload

/-- The two calls differ in their grants. -/
def incomeInputs (c : Bool) : PrepareIntentInput :=
  .ofParams incomeRequest incomeAdapter (if c then 31 else 30)

theorem incomeInputs_same : SameOperation (incomeInputs false) (incomeInputs true) where
  key := rfl
  caseId := rfl
  effectClass := rfl
  payload := .refl _
  wellFormed := by decide

theorem incomeInputs_free : consentedDb.findByKey (incomeInputs false).key = none := rfl

/-- One call after the other. -/
def oneAfterTheOther : List RaceLabel :=
  [⟨false, envAt 20⟩, ⟨false, envAt 20⟩, ⟨true, envAt 21⟩, ⟨true, envAt 21⟩]

theorem prepare_race_oneAfterTheOther :
    BothReturn (exec (raceStep incomeDeps incomeInputs) (.start consentedDb) oneAfterTheOther) := by
  refine (prepare_race_iff incomeDeps consentedDb incomeInputs oneAfterTheOther incomeInputs_same
    (by decide)).mpr ⟨fun row hrow => ?_, by decide⟩
  rw [incomeInputs_free] at hrow
  cases hrow

/-- Both calls read before either inserts. -/
def bothReadFirst : List RaceLabel :=
  [⟨false, envAt 20⟩, ⟨true, envAt 21⟩, ⟨false, envAt 20⟩, ⟨true, envAt 21⟩]

/-- **Losing the insert is not recovered from**: the reload runs in the aborted transaction. -/
theorem lost_insert_throws :
    ¬ ∀ (deps : Deps) (db : Db) (inputs : Bool → PrepareIntentInput) (run : List RaceLabel),
      SameOperation (inputs false) (inputs true) → (∀ c, 2 ≤ run.countP (·.call = c)) →
      BothReturn (exec (raceStep deps inputs) (.start db) run) := by
  intro h
  have hreturn := h incomeDeps consentedDb incomeInputs bothReadFirst incomeInputs_same (by decide)
  have hthrew : (exec (raceStep incomeDeps incomeInputs) (.start consentedDb) bothReadFirst).calls
      true = .threw (.database .inFailedTransaction) := rfl
  exact not_bothReturn_of_threw hthrew hreturn

end MortgageAgent.Provider
