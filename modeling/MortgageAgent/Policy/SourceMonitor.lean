import MortgageAgent.Policy.Resolver

/-!
# The policy source monitor

A check asks the connector of a source whether there is anything newer than the revision that is
known, and records what it gets as a new revision. A connector that has nothing newer leaves no
trace of the check.

* **`PolicySourceConnector`**, **`detectSchemaDrift`** — what a check gets, and what it refuses.
* **`checkSource`** — one check.
* **`Db.catalog`** — what the resolver reads of the same rows.
-/

namespace MortgageAgent.Policy.Monitor

/-! ## Rows -/

inductive PolicySourceRetrievalMode where
  | SYNTHETIC
  | MANUAL
  | CONNECTOR
  deriving DecidableEq, Repr

def PolicySourceRetrievalMode.text : PolicySourceRetrievalMode → String
  | .SYNTHETIC => "SYNTHETIC"
  | .MANUAL => "MANUAL"
  | .CONNECTOR => "CONNECTOR"

/-- `policy_sources`, with the column that the monitor reads. -/
structure MonitoredSource extends PolicySource where
  retrievalMode : PolicySourceRetrievalMode
  deriving DecidableEq, Repr

/-- `policy_source_revisions`, with the columns that the monitor reads and writes. -/
structure RecordedRevision extends PolicySourceRevision where
  checksum : String
  publishedAt : Instant
  content : Json

structure Db where
  sources : Table MonitoredSource fun s => s.id
  revisions : Table RecordedRevision fun r => r.id

def Db.revisionsOf (db : Db) (sourceId : Uuid) : List RecordedRevision :=
  db.revisions.rows.filter fun r => r.policySourceId = sourceId

/-- The catalog, with the other rows of `rest`. -/
def Db.catalog (db : Db) (rest : Catalog) : Catalog :=
  { rest with
    sources := ⟨db.sources.rows.map (·.toPolicySource), by
      rw [List.map_map]
      exact db.sources.nodup⟩
    revisions := ⟨db.revisions.rows.map (·.toPolicySourceRevision), by
      rw [List.map_map]
      exact db.revisions.nodup⟩ }

/-! ## Connectors -/

structure PolicySourceConnectorUpdate where
  checksum : String
  publishedAt : Instant
  content : Json

structure PolicySourceConnectorCheckResult where
  changed : Bool
  update : Option PolicySourceConnectorUpdate := none

structure PolicySourceConnector where
  sourceId : Uuid
  /-- the answer to the latest known checksum, or the message of what was thrown -/
  checkForUpdate : Option String → Except String PolicySourceConnectorCheckResult

/-- `DemoPolicySourceConnector`. -/
def demoConnector (sourceId : Uuid) (fetchLatest : Except String PolicySourceConnectorUpdate) :
    PolicySourceConnector where
  sourceId
  checkForUpdate := fun latestKnownChecksum => do
    let latest ← fetchLatest
    if some latest.checksum = latestKnownChecksum then return { changed := false }
    return { changed := true, update := some latest }

def detectSchemaDrift : Json → List String
  | .obj fields =>
    match Json.get? fields "summary" with
    | some (.str summary) =>
      if summary = "" then ["content.summary is missing or not a non-empty string"] else []
    | _ => ["content.summary is missing or not a non-empty string"]
  | .arr _ => ["content.summary is missing or not a non-empty string"]
  | _ => ["content is not an object"]

/-! ## A check -/

inductive PolicySourceCheckOutcome where
  | no_change
  | new_revision
  | schema_drift
  | error
  deriving DecidableEq, Repr

structure PolicySourceMonitorResult where
  sourceId : Uuid
  outcome : PolicySourceCheckOutcome
  detail : Option String := none
  deriving DecidableEq, Repr

/-- `ORDER BY "recordedAt" DESC`, the first. -/
def latestRevision (db : Db) (sourceId : Uuid) : Option RecordedRevision :=
  ((db.revisionsOf sourceId).insertionSort fun a b => b.recordedAt ≤ a.recordedAt).head?

def errorResult (sourceId : Uuid) (detail : String) : PolicySourceMonitorResult where
  sourceId
  outcome := .error
  detail

/-- A check at one instant, with the id that a new revision gets; no result where the save
throws. -/
def checkSource (db : Db) (now : Instant) (newId : Uuid) (connector : PolicySourceConnector) :
    Db × Option PolicySourceMonitorResult :=
  match db.sources.find connector.sourceId with
  | none => (db, some (errorResult connector.sourceId "no such policy source"))
  | some source =>
    if source.retrievalMode ≠ .CONNECTOR then
      (db, some (errorResult connector.sourceId ("source retrievalMode is "
        ++ source.retrievalMode.text
        ++ ", not CONNECTOR - refusing to poll a source no one configured for monitoring")))
    else
      match connector.checkForUpdate ((latestRevision db source.id).map (·.checksum)) with
      | .error detail => (db, some (errorResult connector.sourceId detail))
      | .ok { changed := true, update := some update } =>
        if detectSchemaDrift update.content ≠ [] then
          (db, some
            { sourceId := connector.sourceId
              outcome := .schema_drift
              detail := String.intercalate "; " (detectSchemaDrift update.content) })
        else
          match db.revisions.insert
            { id := newId
              policySourceId := source.id
              recordedAt := now
              checksum := update.checksum
              publishedAt := update.publishedAt
              content := update.content } with
          | none => (db, none)
          | some revisions =>
            ({ db with revisions }, some { sourceId := connector.sourceId, outcome := .new_revision })
      | .ok _ => (db, some { sourceId := connector.sourceId, outcome := .no_change })

/-! ## Runs -/

structure Check where
  now : Instant
  newId : Uuid
  connector : PolicySourceConnector

def step (db : Db) (c : Check) : Db := (checkSource db c.now c.newId c.connector).1

def result (db : Db) (c : Check) : Option PolicySourceMonitorResult :=
  (checkSource db c.now c.newId c.connector).2

end MortgageAgent.Policy.Monitor
