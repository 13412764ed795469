import MortgageAgent.Workflow.InTime
import MortgageAgent.Workflow.NotedRuntime

/-!
# Claims on side effects

A side-effecting tool is called only by the execution whose transaction has inserted the
reservation under the tool's key. An execution that finds the reservation there calls nothing any
more and ends with a review. The runtime's code, with the notes of what it calls, keeps to a
protocol that says so, whatever runs beside it.

* **`ToolPhase`** / **`onceProtocol`** — only a claim that has inserted the key leads to a call.
* One lemma for each function of the run, up to **`notedRunAgent_follows`**.
-/

namespace MortgageAgent.Workflow

open Budget (AgentBudgetReservationReceipt ReceiptOf)
open Runs

/-! ## The protocol -/

/-- What everyone does to the store: the rows of the budget stay, one ledger for each run. -/
def RunRows (db db' : Db) : Prop :=
  BudgetGrows db db' ∧ (db.budget.OneLedgerPerRun → db'.budget.OneLedgerPerRun)

theorem runRows_of_eq {db db' : Db} (h : db'.budget = db.budget) : RunRows db db' := by
  refine ⟨budgetGrows_of_eq h, ?_⟩
  rw [h]
  exact id

theorem RunRows.refl (db : Db) : RunRows db db := runRows_of_eq rfl

theorem RunRows.trans {db db' db'' : Db} (h : RunRows db db') (h' : RunRows db' db'') :
    RunRows db db'' :=
  ⟨Budget.Grows.trans h.1 h'.1, fun hone => h'.2 (h.2 hone)⟩

instance : AllowsDecision RunRows where
  refl := .refl
  createOrLoad _ _ _ _ :=
    ⟨AllowsRun.createOrLoad _ _ _ _, Budget.createOrLoad_oneLedgerPerRun _ _ _ _⟩
  claim h := by
    obtain ⟨r, l, l', hclaimed, -⟩ := Budget.reserveClaim_claimed h
    exact ⟨AllowsRun.claim h, hclaimed.oneLedgerPerRun⟩
  commit h := by
    refine ⟨AllowsRun.commit h, ?_⟩
    obtain ⟨r, l, -, -, -, ⟨rfl, -⟩ | ⟨r', l', hsettled, -⟩⟩ := Budget.commit_ok h
    · exact id
    · exact hsettled.oneLedgerPerRun
  release h := by
    refine ⟨AllowsRun.release h, ?_⟩
    obtain ⟨r, l, -, -, -, ⟨rfl, -⟩ | ⟨r', l', hsettled, -⟩⟩ := Budget.release_ok h
    · exact id
    · exact hsettled.oneLedgerPerRun
  markUnknown h := by
    refine ⟨AllowsRun.markUnknown h, ?_⟩
    obtain ⟨r, l, -, -, -, ⟨rfl, -⟩ | ⟨r', hsettled, -⟩⟩ := Budget.markUnknown_ok h
    · exact id
    · exact hsettled.oneLedgerPerRun
  manifests _ _ := runRows_of_eq rfl
  invocations _ _ := runRows_of_eq rfl
  agentRuns _ _ := runRows_of_eq rfl
  opens h := runRows_of_eq (writeCondition_budget h)
  readies h := runRows_of_eq (finalizeReady_budget h)

/-- There is a reservation under the key in the run's ledger. -/
def Taken (ref : CaseRef) (workflowRunId key : String) (db : Db) : Prop :=
  ∃ l ∈ db.budget.ledgers.rows, l.tenantId = ref.tenantId ∧ l.workflowRunId = workflowRunId
    ∧ ∃ r ∈ db.budget.reservations.rows, r.ledgerId = l.id ∧ r.idempotencyKey = key

/-- Where an execution stands, with the side-effecting tools it has executed. -/
inductive ToolPhase where
  | idle (used : List String)
  /-- its transaction has inserted the key, and the tool is not called yet -/
  | claimed (used : List String) (key : String)
  /-- it has found a reservation, and calls no tool any more -/
  | quarantined (used : List String)

def ToolPhase.used : ToolPhase → List String
  | .idle used | .claimed used _ | .quarantined used => used

/-- The notes an execution may write. -/
inductive NoteStep : ToolPhase → ToolNote → ToolPhase → Prop where
  | executed {used : List String} {tool key : String} (h : tool ∉ used) :
      NoteStep (.claimed used key) (.executed tool key) (.idle (tool :: used))
  | found {used : List String} {tool key : String} (h : tool ∉ used) :
      NoteStep (.idle used) (.found tool key) (.quarantined used)

/-- The transactions of an execution, with the phase each leads to. -/
inductive ToolStep (ref : CaseRef) (workflowRunId : String) :
    ToolPhase → Db → Db → ToolPhase → Prop where
  | quiet {g : ToolPhase} {db db' : Db} (h : RunRows db db') :
      ToolStep ref workflowRunId g db db' g
  | claims {used : List String} {key : String} {db db' : Db} (h : RunRows db db')
      (hfree : ¬Taken ref workflowRunId key db) (htaken : Taken ref workflowRunId key db') :
      ToolStep ref workflowRunId (.idle used) db db' (.claimed used key)

/-- Only a claim that has inserted the key leads to a call. -/
def onceProtocol (ref : CaseRef) (workflowRunId : String) :
    Noted.Protocol ToolNote Db ToolPhase where
  others := RunRows
  tx := ToolStep ref workflowRunId
  note := NoteStep
  others_refl := .refl
  others_trans h h' := h.trans h'

section Once

variable {ref : CaseRef} {workflowRunId : String} {ledgerId : Uuid} {g : ToolPhase} {s : Db}

theorem Taken.later {key : String} {db db' : Db} (h : Taken ref workflowRunId key db)
    (hrows : RunRows db db') : Taken ref workflowRunId key db' := by
  obtain ⟨l, hl, htenant, hrun, r, hr, hin, hkey⟩ := h
  obtain ⟨l', hl', hsame⟩ := hrows.1.ledger l hl
  obtain ⟨r', hr', hclaim⟩ := hrows.1.reservation r hr
  refine ⟨l', hl', hsame.tenantId.trans htenant, hsame.workflowRunId.trans hrun, r', hr', ?_,
    hclaim.idempotencyKey.trans hkey⟩
  rw [hclaim.ledgerId, hsame.id]
  exact hin

/-- The ledger is the one of the workflow run. -/
def OnLedger (ref : CaseRef) (workflowRunId : String) (ledgerId : Uuid) (db : Db) : Prop :=
  db.budget.OneLedgerPerRun ∧ ∃ l ∈ db.budget.ledgers.rows, l.id = ledgerId
    ∧ l.tenantId = ref.tenantId ∧ l.workflowRunId = workflowRunId

theorem OnLedger.later {db db' : Db} (h : OnLedger ref workflowRunId ledgerId db)
    (hrows : RunRows db db') : OnLedger ref workflowRunId ledgerId db' := by
  obtain ⟨hone, l, hl, hid, htenant, hrun⟩ := h
  obtain ⟨l', hl', hsame⟩ := hrows.1.ledger l hl
  exact ⟨hrows.2 hone, l', hl', hsame.id.trans hid, hsame.tenantId.trans htenant,
    hsame.workflowRunId.trans hrun⟩

theorem HeldIn.later {reservationId : Uuid} {db db' : Db} (h : HeldIn ledgerId reservationId db)
    (hrows : RunRows db db') : HeldIn ledgerId reservationId db' :=
  h.grows hrows.1

/-- A claim in the run's ledger finds the key free and leaves it taken. -/
theorem reserveClaim_takes {db : Db} {budget : Budget.Db} {env : Budget.Env} {newId : Uuid}
    {input : Budget.ReserveInput} {units : Budget.AgentBudgetUnits Int}
    {receipt : AgentBudgetReservationReceipt}
    (h : OnLedger ref workflowRunId input.ledgerId db)
    (hclaim : Budget.reserveClaim db.budget env newId input units = .ok (budget, receipt)) :
    ¬Taken ref workflowRunId input.idempotencyKey db
      ∧ Taken ref workflowRunId input.idempotencyKey { db with budget } := by
  have hrows : RunRows db { db with budget } := AllowsRun.claim hclaim
  have hafter := h.later hrows
  obtain ⟨r, l, l', hclaimed, -, -, hin, hkey, -, -⟩ := Budget.reserveClaim_claimed hclaim
  constructor
  · rintro ⟨l₁, hl₁, htenant₁, hrun₁, x, hx, hx_in, hx_key⟩
    obtain ⟨hone, l₀, hl₀, hid₀, htenant₀, hrun₀⟩ := h
    have hsame : l₁ = l₀ :=
      hone l₁ hl₁ l₀ hl₀ (htenant₁.trans htenant₀.symm) (hrun₁.trans hrun₀.symm)
    apply hclaimed.keyFree x hx
    refine ⟨?_, hx_key.trans hkey.symm⟩
    rw [hx_in, hsame, hid₀, hin]
  · obtain ⟨-, l₀, hl₀, hid₀, htenant₀, hrun₀⟩ := hafter
    refine ⟨l₀, hl₀, htenant₀, hrun₀, r, ?_, ?_, hkey⟩
    · show r ∈ budget.reservations.rows
      rw [Table.rows_of_insert hclaimed.inserted]
      exact List.mem_append_right _ (List.mem_singleton.mpr rfl)
    · rw [hin, hid₀]

/-! ## The ledger's calls -/

/-- The code returned what `Q` says, or threw in phase `g` with `K` still true. -/
def AnsweredIn {α : Type} (g : ToolPhase) (K : Db → Prop) (Q : ToolPhase → α → Db → Prop) :
    ToolPhase → Except Failure α → Db → Prop
  | g', .ok a, db => Q g' a db
  | g', .error _, db => g' = g ∧ K db

/-- The code returned what `Q` says. -/
def ReturnsIn {α : Type} (Q : ToolPhase → α → Db → Prop) : ToolPhase → Except Failure α → Db → Prop
  | g, .ok a, db => Q g a db
  | _, .error _, _ => True

theorem AnsweredIn.returns {α : Type} {K : Db → Prop} {Q : ToolPhase → α → Db → Prop}
    {g' : ToolPhase} {r : Except Failure α} {db : Db} (h : AnsweredIn g K Q g' r db) :
    ReturnsIn Q g' r db := by
  cases r with
  | ok a => exact h
  | error e => trivial

theorem budgetCall_follows {α : Type} {Q : ToolPhase → α → Db → Prop} {K : Db → Prop}
    {t : Input → Budget.Db → Except Budget.BudgetFailure (Budget.Db × α)}
    (hkeeps : (budgetCall t).Keeps RunRows) (hK : ∀ db db', RunRows db db' → K db → K db')
    (hs : K s)
    (hok : ∀ db i budget a, K db → t i db.budget = .ok (budget, a) →
      ∃ g', ToolStep ref workflowRunId g db { db with budget } g' ∧ Q g' a { db with budget }) :
    (Noted.plain (budgetCall t) : NotedAct α).Follows (onceProtocol ref workflowRunId)
      (AnsweredIn g K Q) g s := by
  have hown : ∀ db i, RunRows db ((budgetCall t).move db (.commit i)).1 :=
    fun db i => (hkeeps.move RunRows.refl db (.commit i)).1
  apply Noted.follows_tx
  · intro db i hothers
    have hdb := hK s db hothers hs
    cases ht : t i db.budget with
    | ok r =>
      obtain ⟨g', hstep, hQ⟩ := hok db i r.1 r.2 hdb ht
      simp only [ht]
      exact ⟨g', hstep, hQ⟩
    | error e =>
      simp only [ht]
      exact ⟨g, .quiet (.refl db), rfl, hdb⟩
  · intro db i e hothers
    have hrows := hown db i
    exact ⟨g, .quiet hrows, rfl, hK _ _ hrows (hK s db hothers hs)⟩
  · intro db e hothers
    exact ⟨rfl, hK s db hothers hs⟩

theorem budgetRead_follows {α : Type} {Q : α → Db → Prop} {K : Db → Prop}
    {t : Input → Budget.Db → Except Budget.BudgetFailure α}
    (hK : ∀ db db', RunRows db db' → K db → K db') (hs : K s)
    (hok : ∀ db i a, K db → t i db.budget = .ok a → Q a db) :
    (Noted.plain (budgetCall fun i db => (t i db).map (db, ·)) : NotedAct α).Follows
      (onceProtocol ref workflowRunId) (AnsweredIn g K fun g' a db => g' = g ∧ Q a db) g s := by
  apply budgetCall_follows (budgetRead_keeps _) hK hs
  intro db i budget a hdb hcall
  cases ht : t i db.budget with
  | error e => rw [ht] at hcall; cases hcall
  | ok b =>
    rw [ht] at hcall
    cases hcall
    exact ⟨g, .quiet (.refl db), rfl, hok db i _ hdb ht⟩

/-- What a receipt for a reservation in the run's ledger tells. -/
def Received (ref : CaseRef) (workflowRunId : String) (ledgerId : Uuid)
    (receipt : AgentBudgetReservationReceipt) (db : Db) : Prop :=
  OnLedger ref workflowRunId ledgerId db ∧ ReceiptOf ledgerId db.budget receipt

theorem Received.later {receipt : AgentBudgetReservationReceipt} {db db' : Db}
    (h : Received ref workflowRunId ledgerId receipt db) (hrows : RunRows db db') :
    Received ref workflowRunId ledgerId receipt db' :=
  ⟨h.1.later hrows, h.2.ledger, HeldIn.later h.2.reservation hrows⟩

/-- The claim, which may be kept in mind as the phase `g₁`. -/
theorem reserveClaim_follows {input : Budget.ReserveInput} {used : List String} {g₁ : ToolPhase}
    (units : Budget.AgentBudgetUnits Int) (h : OnLedger ref workflowRunId input.ledgerId s)
    (hg₁ : g₁ = .idle used ∨ g₁ = .claimed used input.idempotencyKey) :
    (Noted.plain (budgetCall fun i db => Budget.reserveClaim db i.env i.newId input units) :
      NotedAct _).Follows (onceProtocol ref workflowRunId)
      (AnsweredIn (.idle used) (OnLedger ref workflowRunId input.ledgerId) fun g receipt db =>
        Received ref workflowRunId input.ledgerId receipt db
          ∧ g = if receipt.replayed then .idle used else g₁) (.idle used) s := by
  apply budgetCall_follows (budgetCall_keeps fun _ _ _ _ h => AllowsRun.claim h)
    (fun _ _ hrows hdb => hdb.later hrows) h
  intro db i budget receipt hdb hcall
  have hrows : RunRows db { db with budget } := AllowsRun.claim hcall
  obtain ⟨hshows, hreplayed⟩ := Budget.reserveClaim_shows hcall
  refine ⟨g₁, ?_, ⟨hdb.later hrows, hshows.toReceiptOf⟩, ?_⟩
  · rcases hg₁ with hg₁ | hg₁
    · rw [hg₁]
      exact .quiet hrows
    · rw [hg₁]
      obtain ⟨hfree, htaken⟩ := reserveClaim_takes hdb hcall
      exact .claims hrows hfree htaken
  · rw [hreplayed]
    rfl

theorem reserve_eq {input : Budget.ReserveInput} {units : Budget.AgentBudgetUnits Int}
    (h : Budget.validateReserve input = .ok units) :
    reserve input = (budgetCall fun i db =>
      (Budget.reservePreRead db i.env input units).map (db, ·)).bind fun
        | some receipt => .done receipt
        | none =>
          (budgetCall fun i db => Budget.reserveClaim db i.env i.newId input units).rescue fun
            | .database .uniqueViolation =>
              budgetCall fun i db => (Budget.reserveRecover db i.env input units).map (db, ·)
            | e => .fail e := by
  unfold reserve
  rw [h]
  rfl

/-- **`reserve`**: a receipt that is not a replay comes from the claim. -/
theorem reserve_follows {input : Budget.ReserveInput} {used : List String} {g₁ : ToolPhase}
    (h : OnLedger ref workflowRunId input.ledgerId s)
    (hg₁ : g₁ = .idle used ∨ g₁ = .claimed used input.idempotencyKey) :
    (Noted.plain (reserve input) : NotedAct _).Follows (onceProtocol ref workflowRunId)
      (ReturnsIn fun g receipt db => Received ref workflowRunId input.ledgerId receipt db
        ∧ g = if receipt.replayed then .idle used else g₁) (.idle used) s := by
  have hK : ∀ db db', RunRows db db' → OnLedger ref workflowRunId input.ledgerId db →
      OnLedger ref workflowRunId input.ledgerId db' := fun _ _ hrows hdb => hdb.later hrows
  cases hvalid : Budget.validateReserve input with
  | error e =>
    unfold reserve
    rw [hvalid]
    trivial
  | ok units =>
    rw [reserve_eq hvalid, Noted.plain_bind]
    have hread : (Noted.plain (budgetCall fun i db =>
        (Budget.reservePreRead db i.env input units).map (db, ·)) : NotedAct _).Follows
        (onceProtocol ref workflowRunId) (AnsweredIn (.idle used)
          (OnLedger ref workflowRunId input.ledgerId) fun g found db => g = .idle used
            ∧ OnLedger ref workflowRunId input.ledgerId db ∧ ∀ receipt, found = some receipt →
              ReceiptOf input.ledgerId db.budget receipt ∧ receipt.replayed = true)
        (.idle used) s := by
      apply budgetRead_follows hK h
      intro db i found hdb hcall
      refine ⟨hdb, ?_⟩
      intro receipt hfound
      rw [hfound] at hcall
      obtain ⟨hshows, hreplayed⟩ := Budget.reservePreRead_shows hcall
      exact ⟨hshows.toReceiptOf, hreplayed⟩
    apply hread.bind
    · rintro g found db ⟨rfl, hdb, hfound⟩
      cases found with
      | some receipt =>
        obtain ⟨hreceipt, hreplayed⟩ := hfound receipt rfl
        refine ⟨⟨hdb, hreceipt⟩, ?_⟩
        rw [hreplayed]
        rfl
      | none =>
        dsimp only
        rw [Noted.plain_rescue]
        apply (reserveClaim_follows units hdb hg₁).rescue
        · rintro g e db ⟨rfl, hdb⟩
          split
          · have hrecover : (Noted.plain (budgetCall fun i db =>
                (Budget.reserveRecover db i.env input units).map (db, ·)) : NotedAct _).Follows
                (onceProtocol ref workflowRunId) (AnsweredIn (.idle used)
                  (OnLedger ref workflowRunId input.ledgerId) fun g receipt db => g = .idle used
                    ∧ OnLedger ref workflowRunId input.ledgerId db
                    ∧ ReceiptOf input.ledgerId db.budget receipt ∧ receipt.replayed = true)
                (.idle used) db := by
              apply budgetRead_follows hK hdb
              intro db i receipt hdb hcall
              obtain ⟨hshows, hreplayed⟩ := Budget.reserveRecover_shows hcall
              exact ⟨hdb, hshows.toReceiptOf, hreplayed⟩
            apply hrecover.imp
            intro g r db hr
            cases r with
            | error e => trivial
            | ok receipt =>
              obtain ⟨rfl, hdb, hreceipt, hreplayed⟩ := hr
              refine ⟨⟨hdb, hreceipt⟩, ?_⟩
              rw [hreplayed]
              rfl
          · trivial
        · exact fun _ _ _ hreceipt => hreceipt
    · exact fun _ _ _ _ => trivial

/-- **`commit`** of a reservation in the run's ledger. -/
theorem commit_follows (input : Budget.CommitInput) (h : OnLedger ref workflowRunId ledgerId s)
    (hheld : HeldIn ledgerId input.reservationId s) :
    (Noted.plain (commit input) : NotedAct _).Follows (onceProtocol ref workflowRunId)
      (ReturnsIn fun g' receipt db => g' = g ∧ OnLedger ref workflowRunId ledgerId db
        ∧ receipt.ledger.ledgerId = ledgerId) g s := by
  have hcall : (Noted.plain (commit input) : NotedAct _).Follows (onceProtocol ref workflowRunId)
      (AnsweredIn g (fun db => OnLedger ref workflowRunId ledgerId db
          ∧ HeldIn ledgerId input.reservationId db)
        fun g' receipt db => g' = g ∧ OnLedger ref workflowRunId ledgerId db
          ∧ receipt.ledger.ledgerId = ledgerId) g s := by
    apply budgetCall_follows (commit_keeps _)
    · rintro db db' hrows ⟨hdb, hheld⟩
      exact ⟨hdb.later hrows, hheld.later hrows⟩
    · exact ⟨h, hheld⟩
    · rintro db i budget receipt ⟨hdb, hheld⟩ hcommit
      have hrows : RunRows db { db with budget } := AllowsRun.commit hcommit
      exact ⟨g, .quiet hrows, rfl, hdb.later hrows, Budget.commit_ledgerId hcommit hheld⟩
  exact hcall.imp fun _ _ _ hr => hr.returns

/-! ## Tools -/

/-- Code without notes whose transactions everyone may do. -/
theorem quiet_follows {α : Type} {p : Act α} {K : Db → Prop} (hp : p.Keeps RunRows)
    (hK : ∀ db db', RunRows db db' → K db → K db') (hs : K s) :
    (Noted.plain p : NotedAct α).Follows (onceProtocol ref workflowRunId)
      (ReturnsIn fun g' _ db => g' = g ∧ K db) g s := by
  have hframe : (Noted.plain p : NotedAct α).Follows (onceProtocol ref workflowRunId)
      (fun g' _ db => g' = g ∧ K db) g s :=
    Noted.plain_follows hp (fun _ _ hrows => .quiet hrows) hK hs
  apply hframe.imp
  intro g' r db hr
  cases r with
  | ok a => exact hr
  | error e => trivial

theorem follows_bind {α β : Type} {p : NotedAct α} {f : α → NotedAct β}
    {Q : ToolPhase → α → Db → Prop} {Q' : ToolPhase → β → Db → Prop}
    (hp : p.Follows (onceProtocol ref workflowRunId) (ReturnsIn Q) g s)
    (hf : ∀ g a db, Q g a db → (f a).Follows (onceProtocol ref workflowRunId) (ReturnsIn Q') g db) :
    (p.bind f).Follows (onceProtocol ref workflowRunId) (ReturnsIn Q') g s :=
  hp.bind hf fun _ _ _ _ => trivial

/-- The tools executed once this one has returned. -/
def usedAfter {α : Type} (tool : AgentTool α) (used : List String) : List String :=
  if tool.sideEffect = .NONE then used else tool.name :: used

/-- A tool that was not refused has left the execution idle, on the run's ledger. -/
def Budgeted (ref : CaseRef) (workflowRunId : String) {α : Type} (used : List String) :
    ToolPhase → BudgetedToolResult α → Db → Prop
  | g, .ok st _, db => g = .idle used ∧ OnLedger ref workflowRunId st.budgetLedgerId db
  | _, .refused .., _ => True

section Tools

variable {α : Type} {st : AgentState} {tool : AgentTool α} {used : List String}

theorem noteExecuted_follows {β : Type} {key : String} {p : NotedAct β}
    {post : ToolPhase → Except Failure β → Db → Prop} (hused : tool.name ∉ used)
    (hg : g = if tool.sideEffect = .NONE then .idle used else .claimed used key)
    (hp : p.Follows (onceProtocol ref workflowRunId) post (.idle (usedAfter tool used)) s) :
    (noteExecuted tool key p).Follows (onceProtocol ref workflowRunId) post g s := by
  unfold noteExecuted
  unfold usedAfter at hp
  split at hg
  · rename_i hnone
    rw [if_pos hnone] at hp ⊢
    rw [hg]
    exact hp
  · rename_i heffect
    rw [if_neg heffect] at hp ⊢
    rw [hg]
    exact ⟨_, .executed hused, hp⟩

theorem quarantine_follows (ctx : RunContext) (name : String)
    (reservation : AgentBudgetReservationReceipt) :
    (Noted.plain (quarantine ctx st name reservation) : NotedAct (BudgetedToolResult α)).Follows
      (onceProtocol ref workflowRunId) (ReturnsIn (Budgeted ref workflowRunId used)) g s := by
  unfold quarantine
  split
  · show Noted.Follows _ _ (Noted.plain (Proc.bind (markUnknown _ _) _)) _ _
    rw [Noted.plain_bind]
    apply follows_bind (quiet_follows (K := fun _ => True) (markUnknown_keeps _ _)
      (fun _ _ _ h => h) trivial)
    intro g unknown db _
    trivial
  · trivial

/-- **A budgeted tool** calls what it has claimed, and nothing that it has found. -/
theorem notedBudgetedTool_follows (ctx : RunContext)
    (h : OnLedger ref workflowRunId st.budgetLedgerId s) (htool : tool.execute.Keeps RunRows)
    (hused : tool.name ∉ used) :
    (notedBudgetedTool ctx st tool).Follows (onceProtocol ref workflowRunId)
      (ReturnsIn (Budgeted ref workflowRunId (usedAfter tool used))) (.idle used) s := by
  have hlasting : ∀ db db', RunRows db db' → OnLedger ref workflowRunId st.budgetLedgerId db →
      OnLedger ref workflowRunId st.budgetLedgerId db' := fun _ _ hrows hdb => hdb.later hrows
  apply follows_bind (quiet_follows (budgetExceeded_keeps st) hlasting h)
  rintro g exceeded db ⟨rfl, hdb⟩
  cases exceeded with
  | some trigger => trivial
  | none =>
    let g₁ : ToolPhase := if tool.sideEffect = .NONE then .idle used
      else .claimed used (stepReservation ctx st tool.name).idempotencyKey
    have hg₁ : g₁ = .idle used
        ∨ g₁ = .claimed used (stepReservation ctx st tool.name).idempotencyKey := by
      by_cases hnone : tool.sideEffect = .NONE
      · exact Or.inl (if_pos hnone)
      · exact Or.inr (if_neg hnone)
    have hbody : ((Noted.plain (reserve (stepReservation ctx st tool.name))).bind
        (notedReserved ctx st tool)).Follows (onceProtocol ref workflowRunId)
        (ReturnsIn (Budgeted ref workflowRunId (usedAfter tool used))) (.idle used) db := by
      apply follows_bind (reserve_follows hdb hg₁)
      rintro g reservation db ⟨hreceived, hg⟩
      unfold notedReserved
      dsimp only
      split
      · -- the reservation was there: nothing is called any more
        rename_i hfound
        rw [Bool.and_eq_true] at hfound
        rw [hfound.1] at hg
        refine ⟨.quarantined used, ?_, ?_⟩
        · rw [hg]
          exact .found hused
        · exact quarantine_follows ctx tool.name reservation
      · rename_i hnot
        have hphase : g = if tool.sideEffect = .NONE then .idle used
            else .claimed used (stepReservation ctx st tool.name).idempotencyKey := by
          by_cases hnone : tool.sideEffect = .NONE
          · simp only [g₁, hnone, if_true, ite_self] at hg ⊢
            exact hg
          · have hfresh : reservation.replayed = false := by
              simp only [hnone, ne_eq, not_false_eq_true, decide_true, Bool.and_true,
                Bool.not_eq_true] at hnot
              exact hnot
            rw [hfresh] at hg
            exact hg
        have hinvoked : (noteExecuted tool (reservationKey ctx tool.name st.attemptedTools.length)
            (.plain (invokeTool tool.execute))).Follows (onceProtocol ref workflowRunId)
            (ReturnsIn fun g _ db => g = .idle (usedAfter tool used)
              ∧ Received ref workflowRunId st.budgetLedgerId reservation db) g db := by
          apply noteExecuted_follows hused hphase
          apply quiet_follows
          · exact invokeTool_keeps htool
          · exact fun _ _ hrows hk => hk.later hrows
          · exact hreceived
        apply follows_bind hinvoked
        rintro g invocation db ⟨rfl, hreceived⟩
        show Noted.Follows _ _ (Noted.plain (Proc.bind (commit _) _)) _ _
        rw [Noted.plain_bind]
        refine follows_bind (commit_follows _ hreceived.1 ?_) ?_
        · exact hreceived.2.reservation
        · rintro g committed db ⟨rfl, hdb, hledger⟩
          refine ⟨rfl, ?_⟩
          show OnLedger ref workflowRunId committed.ledger.ledgerId db
          rw [hledger]
          exact hdb
    apply hbody.rescue
    · intro g e db _
      cases e with
      | agentBudgetError code message => trivial
      | _ => trivial
    · exact fun _ _ _ hr => hr

end Tools

/-! ## The nodes -/

/-- What a node leaves: an idle execution, unless it has ended the run with a review. -/
def NodeOnce {α : Type} (used : List String) (Q : α → Db → Prop) :
    ToolPhase → Except NodeEnd α → Db → Prop
  | g, .ok a, db => g = .idle used ∧ Q a db
  | _, .error (.review ..), _ => True
  | g, .error (.awaitingInformation _), _ => g = .idle used

/-- An execution that has found a reservation ends with a review. -/
def ResultOnce (g : ToolPhase) (result : AgentRunResult) (_ : Db) : Prop :=
  ∀ used, g = .quarantined used → result.reviewed

theorem resultOnce_idle (used : List String) (result : AgentRunResult) (db : Db) :
    ResultOnce (.idle used) result db := by
  intro used' h
  cases h

theorem resultOnce_review (st : AgentState) (trigger : MandatoryReviewTrigger) (db : Db) :
    ResultOnce g (.ended (.review st trigger)) db :=
  fun _ _ => reviewed_review st trigger

section Nodes

variable {st : AgentState} {used : List String}

theorem onLedger_lasting (ledgerId : Uuid) : ∀ db db', RunRows db db' →
    OnLedger ref workflowRunId ledgerId db → OnLedger ref workflowRunId ledgerId db' :=
  fun _ _ hrows hdb => hdb.later hrows

theorem notedCheckCompletenessNode_follows (ctx : RunContext)
    (h : OnLedger ref workflowRunId st.budgetLedgerId s)
    (hused : "check_case_completeness" ∉ used) :
    (notedCheckCompletenessNode ctx st).Follows (onceProtocol ref workflowRunId)
      (ReturnsIn (NodeOnce used fun st => OnLedger ref workflowRunId st.budgetLedgerId))
      (.idle used) s := by
  have htool : (checkCaseCompletenessTool ctx.ref).execute.Keeps RunRows := by
    dsimp only [checkCaseCompletenessTool]
    exact query_keeps _
  apply follows_bind (notedBudgetedTool_follows ctx h htool hused)
  intro g r db hr
  cases r with
  | refused st trigger => trivial
  | ok st invocation =>
    obtain ⟨hg, hdb⟩ := hr
    cases invocation with
    | error e => trivial
    | ok missing =>
      cases missing with
      | nil => exact ⟨hg, hdb⟩
      | cons factType rest => exact hg

/-- A refusal by the ledger becomes a review. -/
theorem onBudgetError_follows {α : Type} {p : Act α} {handler : MandatoryReviewTrigger → Act α}
    {Q : ToolPhase → α → Db → Prop}
    (hp : (Noted.plain p : NotedAct α).Follows (onceProtocol ref workflowRunId) (ReturnsIn Q) g s)
    (hh : ∀ trigger g db, (Noted.plain (handler trigger) : NotedAct α).Follows
      (onceProtocol ref workflowRunId) (ReturnsIn Q) g db) :
    (Noted.plain (onBudgetError p handler) : NotedAct α).Follows (onceProtocol ref workflowRunId)
      (ReturnsIn Q) g s := by
  unfold onBudgetError
  rw [Noted.plain_rescue]
  apply hp.rescue
  · intro g e db _
    cases e with
    | agentBudgetError code message => exact hh _ g db
    | _ => trivial
  · exact fun _ _ _ hr => hr

theorem reservePlanner_follows (ctx : RunContext) (planner : AgentPlannerPort)
    (h : OnLedger ref workflowRunId st.budgetLedgerId s) :
    (Noted.plain (reservePlanner ctx st planner) : NotedAct _).Follows
      (onceProtocol ref workflowRunId) (ReturnsIn (NodeOnce used
        (Received ref workflowRunId st.budgetLedgerId))) (.idle used) s := by
  apply onBudgetError_follows
  · show Noted.Follows _ _ (Noted.plain (Proc.bind (reserve _) _)) _ _
    rw [Noted.plain_bind]
    apply follows_bind (reserve_follows h (Or.inl rfl))
    rintro g reservation db ⟨hreceived, hg⟩
    rw [ite_self] at hg
    exact ⟨hg, hreceived⟩
  · intro trigger g db
    trivial

theorem plannedState_once (planner : AgentPlannerPort) (record : AgentModelInvocation) {db : Db}
    (h : OnLedger ref workflowRunId st.budgetLedgerId db) :
    NodeOnce used (fun st => OnLedger ref workflowRunId st.budgetLedgerId) (.idle used)
      (plannedState planner st record) db := by
  unfold plannedState
  dsimp only
  split
  · trivial
  · split
    · trivial
    · exact ⟨rfl, h⟩

theorem plannerFailed_follows {Q : AgentState → Db → Prop} (ctx : RunContext)
    (reservation : AgentBudgetReservationReceipt) (error : Failure) :
    (Noted.plain (plannerFailed ctx st reservation error) : NotedAct _).Follows
      (onceProtocol ref workflowRunId) (ReturnsIn (NodeOnce used Q)) g s := by
  unfold plannerFailed
  split
  · show Noted.Follows _ _ (Noted.plain (Proc.bind (release _ _) _)) _ _
    rw [Noted.plain_bind]
    apply follows_bind (quiet_follows (K := fun _ => True) (release_keeps _ _)
      (fun _ _ _ h => h) trivial)
    intro g released db _
    trivial
  · trivial

theorem planNextActionNode_follows (deps : RuntimeDeps) (ctx : RunContext)
    (h : OnLedger ref workflowRunId st.budgetLedgerId s) :
    (Noted.plain (planNextActionNode deps ctx st) : NotedAct _).Follows
      (onceProtocol ref workflowRunId)
      (ReturnsIn (NodeOnce used fun st => OnLedger ref workflowRunId st.budgetLedgerId))
      (.idle used) s := by
  unfold planNextActionNode
  cases deps.agentPlanner with
  | none => exact ⟨rfl, h⟩
  | some planner =>
    show Noted.Follows _ _ (Noted.plain (Proc.bind (reservePlanner ctx st planner) _)) _ _
    rw [Noted.plain_bind]
    apply follows_bind (reservePlanner_follows ctx planner h)
    intro g reserved db hreserved
    cases reserved with
    | error reached =>
      cases reached with
      | review st trigger => trivial
      | awaitingInformation st => exact hreserved
    | ok reservation =>
      obtain ⟨rfl, hreceived⟩ := hreserved
      have hlasting : ∀ db db', RunRows db db' →
          Received ref workflowRunId st.budgetLedgerId reservation db →
          Received ref workflowRunId st.budgetLedgerId reservation db' :=
        fun _ _ hrows hk => hk.later hrows
      show Noted.Follows _ _ (Noted.plain (Proc.bind (query _) _)) _ _
      rw [Noted.plain_bind]
      apply follows_bind (quiet_follows (query_keeps _) hlasting hreceived)
      rintro g record db ⟨rfl, hreceived⟩
      unfold Act.catch
      rw [Noted.plain_rescue]
      have hbody : (Noted.plain (do
          let record ← plannerRecord deps ctx planner record
          let committed ←
            if reservation.status = .COMMITTED then pure reservation
            else commit { tenantId := ctx.ref.tenantId, reservationId := reservation.reservationId }
          return plannedState planner (applyBudgetSnapshot st committed.ledger) record) :
            NotedAct (Except NodeEnd AgentState)).Follows (onceProtocol ref workflowRunId)
          (ReturnsIn (NodeOnce used fun st => OnLedger ref workflowRunId st.budgetLedgerId))
          (.idle used) db := by
        show Noted.Follows _ _ (Noted.plain (Proc.bind (plannerRecord ..) _)) _ _
        rw [Noted.plain_bind]
        apply follows_bind (quiet_follows (plannerRecord_keeps ..) hlasting hreceived)
        rintro g record db ⟨rfl, hdb, hreceipt⟩
        dsimp only
        split
        · apply plannedState_once
          show OnLedger ref workflowRunId reservation.ledger.ledgerId db
          rw [hreceipt.ledger]
          exact hdb
        · show Noted.Follows _ _ (Noted.plain (Proc.bind (commit _) _)) _ _
          rw [Noted.plain_bind]
          refine follows_bind (commit_follows _ hdb ?_) ?_
          · exact hreceipt.reservation
          · rintro g committed db ⟨rfl, hdb, hledger⟩
            apply plannedState_once
            show OnLedger ref workflowRunId committed.ledger.ledgerId db
            rw [hledger]
            exact hdb
      apply hbody.rescue
      · intro g e db _
        cases e with
        | stopped => trivial
        | _ => exact plannerFailed_follows ctx reservation _
      · exact fun _ _ _ hr => hr

theorem notedEvaluatePolicyNode_follows (ctx : RunContext)
    (h : OnLedger ref workflowRunId st.budgetLedgerId s) (hused : "evaluate_policy" ∉ used) :
    (notedEvaluatePolicyNode ctx st).Follows (onceProtocol ref workflowRunId)
      (ReturnsIn (NodeOnce ("evaluate_policy" :: used)
        fun r => OnLedger ref workflowRunId r.1.budgetLedgerId)) (.idle used) s := by
  apply follows_bind (quiet_follows (budgetExceeded_keeps st) (onLedger_lasting _) h)
  rintro g exceeded db ⟨rfl, hdb⟩
  cases exceeded with
  | some trigger => trivial
  | none =>
    apply follows_bind (quiet_follows (query_keeps _) (onLedger_lasting _) hdb)
    rintro g loanCase db ⟨rfl, hdb⟩
    have htool : (evaluatePolicyTool (evaluatePolicyArgs loanCase)).execute.Keeps RunRows :=
      answer_keeps _
    apply follows_bind (notedBudgetedTool_follows ctx hdb htool hused)
    intro g r db hr
    cases r with
    | refused st trigger => trivial
    | ok st invocation =>
      cases invocation with
      | error e => trivial
      | ok result =>
        dsimp only
        split
        · trivial
        · exact hr

theorem notedDraftForCondition_follows (ctx : RunContext) (version : MatchedVersion)
    (reason : String) (conditionId : Uuid) (h : OnLedger ref workflowRunId st.budgetLedgerId s)
    (hused : "draft_information_request" ∉ used) :
    (notedDraftForCondition ctx st version reason conditionId).Follows
      (onceProtocol ref workflowRunId) (ReturnsIn ResultOnce) (.idle used) s := by
  apply follows_bind (notedBudgetedTool_follows ctx h (answer_keeps _) hused)
  intro g r db hr
  cases r with
  | refused st trigger => exact resultOnce_review st trigger db
  | ok st invocation =>
    obtain ⟨rfl, -⟩ := hr
    cases invocation <;> exact resultOnce_idle _ _ db

theorem notedOpenCondition_follows (ctx : RunContext) (evaluation : EvaluatePolicyResult)
    (version : MatchedVersion) (reason : String) (manifestId : Uuid)
    (h : OnLedger ref workflowRunId st.budgetLedgerId s)
    (hcreate : "create_condition" ∉ used)
    (hdraft : "draft_information_request" ∉ "create_condition" :: used) :
    (notedOpenCondition ctx st evaluation version reason manifestId).Follows
      (onceProtocol ref workflowRunId) (ReturnsIn ResultOnce) (.idle used) s := by
  apply follows_bind (notedBudgetedTool_follows ctx h (createCondition_keeps _ _) hcreate)
  intro g r db hr
  cases r with
  | refused st trigger => exact resultOnce_review st trigger db
  | ok st invocation =>
    obtain ⟨rfl, hdb⟩ := hr
    cases invocation with
    | error e => exact resultOnce_idle _ _ db
    | ok result =>
      cases result with
      | STALE_CASE_VERSION => trivial
      | CREATED id => exact notedDraftForCondition_follows ctx version reason id hdb hdraft

theorem consumeBudgetedRuntimeStep_follows (ctx : RunContext) (name : String)
    (h : OnLedger ref workflowRunId st.budgetLedgerId s) :
    (Noted.plain (consumeBudgetedRuntimeStep ctx st name) : NotedAct _).Follows
      (onceProtocol ref workflowRunId) (ReturnsIn fun g stepped db => ∀ st', stepped = .ok st' →
        g = .idle used ∧ OnLedger ref workflowRunId st'.budgetLedgerId db) (.idle used) s := by
  have hrefused : ∀ (g : ToolPhase) (trigger : MandatoryReviewTrigger) (db : Db),
      ∀ st' : AgentState, (.error trigger : Except MandatoryReviewTrigger AgentState) = .ok st' →
        g = .idle used ∧ OnLedger ref workflowRunId st'.budgetLedgerId db := by
    intro g trigger db st' hst
    cases hst
  unfold consumeBudgetedRuntimeStep
  show Noted.Follows _ _ (Noted.plain (Proc.bind (budgetExceeded st) _)) _ _
  rw [Noted.plain_bind]
  apply follows_bind (quiet_follows (budgetExceeded_keeps st) (onLedger_lasting _) h)
  rintro g exceeded db ⟨rfl, hdb⟩
  cases exceeded with
  | some trigger => exact hrefused _ trigger db
  | none =>
    apply onBudgetError_follows
    · show Noted.Follows _ _ (Noted.plain (Proc.bind (reserve _) _)) _ _
      rw [Noted.plain_bind]
      apply follows_bind (reserve_follows hdb (Or.inl rfl))
      rintro g reservation db ⟨⟨hdb, hreceipt⟩, hg⟩
      rw [ite_self] at hg
      rw [hg]
      show Noted.Follows _ _ (Noted.plain (Proc.bind (commit _) _)) _ _
      rw [Noted.plain_bind]
      refine follows_bind (commit_follows _ hdb ?_) ?_
      · exact hreceipt.reservation
      · rintro g committed db ⟨rfl, hdb, hledger⟩ st' hst
        cases hst
        refine ⟨rfl, ?_⟩
        show OnLedger ref workflowRunId committed.ledger.ledgerId db
        rw [hledger]
        exact hdb
    · exact fun trigger g db => hrefused g trigger db

theorem notedResolveOutcomeNode_follows (deps : RuntimeDeps) (ctx : RunContext)
    (evaluation : EvaluatePolicyResult) (h : OnLedger ref workflowRunId st.budgetLedgerId s)
    (hcreate : "create_condition" ∉ used)
    (hdraft : "draft_information_request" ∉ "create_condition" :: used) :
    (notedResolveOutcomeNode deps ctx st evaluation).Follows (onceProtocol ref workflowRunId)
      (ReturnsIn ResultOnce) (.idle used) s := by
  apply follows_bind (consumeBudgetedRuntimeStep_follows ctx _ h)
  intro g stepped db hstepped
  cases stepped with
  | error trigger => exact resultOnce_review st trigger db
  | ok stepped =>
    obtain ⟨rfl, hdb⟩ := hstepped stepped rfl
    dsimp only
    split
    · apply follows_bind (quiet_follows (assembleManifest_keeps ..) (onLedger_lasting _) hdb)
      rintro g manifestId db ⟨rfl, -⟩
      exact resultOnce_idle _ _ db
    · apply follows_bind (quiet_follows (query_keeps _) (onLedger_lasting _) hdb)
      rintro g facts db ⟨rfl, hdb⟩
      apply follows_bind (quiet_follows (assembleManifest_keeps ..) (onLedger_lasting _) hdb)
      rintro g manifestId db ⟨rfl, hdb⟩
      split
      · exact resultOnce_idle _ _ db
      · exact notedOpenCondition_follows ctx evaluation _ _ manifestId hdb hcreate hdraft

theorem notedEdge_follows {α : Type} {used' : List String} {Q : α → Db → Prop}
    {node : NotedAct (Except NodeEnd α)} {next : α → NotedAct AgentRunResult}
    (hnode : node.Follows (onceProtocol ref workflowRunId) (ReturnsIn (NodeOnce used' Q)) g s)
    (hnext : ∀ a db, Q a db →
      (next a).Follows (onceProtocol ref workflowRunId) (ReturnsIn ResultOnce) (.idle used') db) :
    (notedEdge node next).Follows (onceProtocol ref workflowRunId) (ReturnsIn ResultOnce) g s := by
  apply follows_bind hnode
  intro g r db hr
  cases r with
  | ok a =>
    obtain ⟨rfl, ha⟩ := hr
    exact hnext a db ha
  | error reached =>
    cases reached with
    | review st trigger => exact resultOnce_review st trigger db
    | awaitingInformation st =>
      have hg : g = .idle used' := hr
      rw [hg]
      exact resultOnce_idle _ _ db

theorem notedGraph_follows (deps : RuntimeDeps) (ctx : RunContext)
    (h : OnLedger ref workflowRunId st.budgetLedgerId s) :
    (notedGraph deps ctx st).Follows (onceProtocol ref workflowRunId) (ReturnsIn ResultOnce)
      (.idle []) s := by
  have hconsent : (Noted.done (verifyConsentNode ctx st) : NotedAct _).Follows
      (onceProtocol ref workflowRunId) (ReturnsIn (NodeOnce []
        fun st => OnLedger ref workflowRunId st.budgetLedgerId)) (.idle []) s := by
    unfold verifyConsentNode
    split
    · trivial
    · exact ⟨rfl, h⟩
  apply notedEdge_follows hconsent
  intro st db h
  apply notedEdge_follows (notedCheckCompletenessNode_follows ctx h (by decide))
  intro st db h
  apply notedEdge_follows (planNextActionNode_follows deps ctx h)
  intro st db h
  apply notedEdge_follows (notedEvaluatePolicyNode_follows ctx h (by decide))
  intro r db h
  exact notedResolveOutcomeNode_follows deps ctx r.2 h (by decide) (by decide)

/-- **`createOrLoad`** answers with the workflow run's ledger. -/
theorem createOrLoad_follows {input : Budget.AgentBudgetLedgerInput}
    (hone : s.budget.OneLedgerPerRun) (htenant : input.tenantId = ref.tenantId)
    (hrun : input.workflowRunId = workflowRunId) :
    (Noted.plain (createOrLoad input) : NotedAct _).Follows (onceProtocol ref workflowRunId)
      (ReturnsIn fun g' snapshot db => g' = g
        ∧ OnLedger ref workflowRunId snapshot.ledgerId db) g s := by
  have hkeeps : (createOrLoad input).Keeps RunRows := createOrLoad_keeps input
  have hown : ∀ db i, RunRows db ((createOrLoad input).move db (.commit i)).1 :=
    fun db i => (hkeeps.move RunRows.refl db (.commit i)).1
  apply Noted.follows_tx
  · intro db i hothers
    refine ⟨g, .quiet (hown db i), ?_⟩
    dsimp only
    cases hload : (Budget.createOrLoad db.budget i.env i.newId input).2 with
    | error e => trivial
    | ok snapshot =>
      obtain ⟨l, hl, hl_tenant, hl_run, rfl⟩ := Budget.createOrLoad_snapshot hload
      exact ⟨rfl, (hown db i).2 (hothers.2 hone), l, hl, rfl, hl_tenant.trans htenant,
        hl_run.trans hrun⟩
  · exact fun db i e _ => ⟨g, .quiet (hown db i), trivial⟩
  · exact fun _ _ _ => trivial

/-- **The runtime keeps to the protocol**, from any store and whatever runs beside it. -/
theorem notedRunAgent_follows (deps : RuntimeDeps) {ctx : RunContext} (hctx : ctx.ref = ref)
    (hrun : ctx.workflowRunId = workflowRunId) (budget : AgentRunBudget) (startedAt : Instant)
    (hone : s.budget.OneLedgerPerRun) :
    (notedRunAgent deps ctx budget startedAt).Follows (onceProtocol ref workflowRunId)
      (ReturnsIn ResultOnce) (.idle []) s := by
  have htenant : (ledgerInput ctx budget startedAt).tenantId = ref.tenantId := by
    rw [← hctx]
    rfl
  apply follows_bind (createOrLoad_follows hone htenant hrun)
  rintro g initialBudget db ⟨rfl, hdb⟩
  apply follows_bind (notedGraph_follows deps ctx hdb)
  intro g result db hresult
  apply follows_bind (quiet_follows (K := fun _ => True) (persistAgentRun_keeps ctx result)
    (fun _ _ _ h => h) trivial)
  rintro g' persisted db ⟨rfl, -⟩
  exact hresult

end Nodes

end Once

end MortgageAgent.Workflow
