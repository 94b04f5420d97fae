import OpenGuard.Lib.Run
import OpenGuard.Storage.Executables
import OpenGuard.Storage.Persistence
import OpenGuard.Storage.Policy
import OpenGuard.Storage.Quarantine
import OpenGuard.Storage.Rollback
import OpenGuard.Storage.Scans

/-!
# The database

All tables of the service, the operations that write them, and the initialization that every start
runs: it brings an older file to the current schema and gives each security event its row of the
timeline. A file without tables is a database with empty tables, which is what the initialization
makes of it. The table `network_observations` is left out, since nothing reads or writes it.

* `initializeDatabase`: the migrations and the backfill.
* `Operation`: the writing operations, and `Operation.apply` what they leave.
* `HistoryChange`: all that an operation can do to the events and the timeline;
  `historyChange_apply`.
* `grows_timelineEvents`: no operation changes a row of the timeline or gives an id twice.
-/

namespace OpenGuard.Storage

open OpenGuard.Lib OpenGuard.Domain

/-- Source: `storage/lib.rs`, `DATABASE_SCHEMA_VERSION` -/
def databaseSchemaVersion : ℕ := 6

/-- The rows of the database, and what the migrations look at of its schema: the columns of the
primary key of `seen_executables` in the order of the table, and whether `scan_results` has a column
for the capabilities. -/
structure Database where
  metadata : Metadata
  seenPrimaryKey : List String
  seenExecutables : SeenExecutables
  history : EventHistory
  scanHasCapabilities : Bool
  scanResults : RowTable ScanRow
  quarantines : Quarantines
  exclusions : Exclusions
  hashAllowlist : HashAllowlist
  persistenceItems : PersistenceItems
  rollbacks : Rollbacks

namespace Database

/-- The columns of the primary key of `seen_executables` in the current schema. -/
def currentPrimaryKey : List String := ["identity", "owner_sid"]

/-- A new file. -/
def blank : Database where
  metadata := ∅
  seenPrimaryKey := currentPrimaryKey
  seenExecutables := ∅
  history := ⟨.empty, .empty⟩
  scanHasCapabilities := true
  scanResults := .empty
  quarantines := ∅
  exclusions := ∅
  hashAllowlist := ∅
  persistenceItems := ∅
  rollbacks := ∅

/-! ## Initialization -/

/-- The rows that violate the check of the new table are ignored.
Source: `storage/lib.rs`, `migrate_seen_executables` -/
def migrateSeenExecutables (db : Database) : Database :=
  if db.seenPrimaryKey = ["identity"] then
    { db with
      seenPrimaryKey := currentPrimaryKey
      seenExecutables := db.seenExecutables.retain fun _ row => row.riskScore ≤ 100 }
  else db

/-- Source: `storage/lib.rs`, `migrate_scan_capabilities` -/
def migrateScanCapabilities (db : Database) : Database :=
  if db.scanHasCapabilities then db
  else
    { db with
      scanHasCapabilities := true
      scanResults := db.scanResults.mapRows fun row => { row with capabilities := [] } }

/-- The row of the timeline that mirrors a security event.
Source: `storage/lib.rs`, `Database::initialize` -/
def mirrorRow (event : ℕ × SecurityEventRow) : TimelineRow where
  ownerSid := event.2.ownerSid
  category := "detection"
  action := event.2.eventType
  severity := event.2.severity
  title := event.2.title
  detail := event.2.detail
  processId := event.2.processId
  path := event.2.path
  remoteAddress := ""
  correlationId := mirrorId event.1
  occurredAt := event.2.createdAt

/-- There is a row of the timeline with the correlation id of the event. -/
def isMirrored (timelineEvents : RowTable TimelineRow) (event : ℕ × SecurityEventRow) : Bool :=
  timelineEvents.rows.any fun row => row.2.correlationId == mirrorId event.1

/-- The events without a mirror get one. The rows to insert are selected before the first of them
is inserted.
Source: `storage/lib.rs`, `Database::initialize` -/
def backfill (history : EventHistory) : EventHistory :=
  { history with
    timelineEvents :=
      (history.securityEvents.rows.filter fun event =>
        !isMirrored history.timelineEvents event).foldl
          (fun timelineEvents event => timelineEvents.insert (mirrorRow event))
          history.timelineEvents }

/-- Source: `storage/lib.rs`, `Database::initialize` -/
def initializeDatabase (fault : Fault) (db : Database) : Except StorageError Unit × Database :=
  call fault
    (fun db =>
      let db := migrateScanCapabilities (migrateSeenExecutables db)
      (.ok (),
        { db with
          history := backfill db.history
          metadata := db.metadata.insert "schema_version" (toString databaseSchemaVersion) }))
    db

/-- Source: `storage/lib.rs`, `Database::activate_content_version` -/
def activateContentVersion (fault : Fault) (activeVersion : String)
    (previousVersion : Option String) (metadata : Metadata) :
    Except StorageError Unit × Metadata :=
  call fault
    (fun rows =>
      let rows := rows.insert "active_content_version" activeVersion
      (.ok (), rows.insert "previous_content_version" (previousVersion.getD "")))
    metadata

end Database

/-! ## Operations -/

/-- The operations that write, with their arguments. -/
inductive Operation where
  | initializeDatabase
  | setMetadata (key value : String)
  | activateContentVersion (activeVersion : String) (previousVersion : Option String)
  | recordExecutables (ownerSid : String) (observations : List SeenExecutable)
  | recordEvent (ownerSid : String) (event : SecurityEvent)
  | recordTimeline (ownerSid : String) (event : TimelineEvent)
  | pruneEventHistory (maximumSecurityEvents maximumTimelineEvents : UInt32)
  | syncPersistenceInventory (order : IterOrder String PersistenceRow) (ownerSid : String)
      (items : List PersistenceItem) (observedAt : String)
  | recordResponseRollback (ownerSid : String) (rollback : ResponseRollback)
  | markResponseRestored (ownerSid id restoredAt : String)
  | recordScan (ownerSid : String) (finding : ScanFinding)
  | addExclusion (ownerSid pathKey : String) (record : ExclusionRecord)
  | removeExclusion (ownerSid pathKey : String)
  | allowHash (ownerSid : String) (record : AllowedHashRecord)
  | removeAllowedHash (ownerSid sha256 : String)
  | recordQuarantine (ownerSid : String) (record : QuarantineRecord) (quarantinePath : String)
  | markQuarantineRestored (ownerSid quarantineId restoredAt restoredPath : String)
  | deleteQuarantine (ownerSid quarantineId : String)

/-- What an operation leaves, whether it succeeds or not. -/
def Operation.apply (fault : Fault) (db : Database) : Operation → Database
  | initializeDatabase => (Database.initializeDatabase fault db).2
  | setMetadata key value =>
      { db with metadata := (Storage.setMetadata fault key value db.metadata).2 }
  | activateContentVersion activeVersion previousVersion =>
      { db with
        metadata :=
          (Database.activateContentVersion fault activeVersion previousVersion db.metadata).2 }
  | recordExecutables ownerSid observations =>
      { db with
        seenExecutables :=
          (Storage.recordExecutables fault ownerSid observations db.seenExecutables).2 }
  | recordEvent ownerSid event =>
      { db with history := (Storage.recordEvent fault ownerSid event db.history).2 }
  | recordTimeline ownerSid event =>
      { db with
        history :=
          { db.history with
            timelineEvents :=
              (Storage.recordTimeline fault ownerSid event db.history.timelineEvents).2 } }
  | pruneEventHistory maximumSecurityEvents maximumTimelineEvents =>
      { db with
        history := (Storage.pruneEventHistory fault maximumSecurityEvents maximumTimelineEvents
          db.history).2 }
  | syncPersistenceInventory order ownerSid items observedAt =>
      let tables := (Storage.syncPersistenceInventory fault order ownerSid items observedAt
        (db.persistenceItems, db.history.timelineEvents)).2
      { db with
        persistenceItems := tables.1
        history := { db.history with timelineEvents := tables.2 } }
  | recordResponseRollback ownerSid rollback =>
      { db with
        rollbacks := (Storage.recordResponseRollback fault ownerSid rollback db.rollbacks).2 }
  | markResponseRestored ownerSid id restoredAt =>
      { db with
        rollbacks := (Storage.markResponseRestored fault ownerSid id restoredAt db.rollbacks).2 }
  | recordScan ownerSid finding =>
      { db with scanResults := (Storage.recordScan fault ownerSid finding db.scanResults).2 }
  | addExclusion ownerSid pathKey record =>
      { db with exclusions := (Storage.addExclusion fault ownerSid pathKey record db.exclusions).2 }
  | removeExclusion ownerSid pathKey =>
      { db with exclusions := (Storage.removeExclusion fault ownerSid pathKey db.exclusions).2 }
  | allowHash ownerSid record =>
      { db with hashAllowlist := (Storage.allowHash fault ownerSid record db.hashAllowlist).2 }
  | removeAllowedHash ownerSid sha256 =>
      { db with
        hashAllowlist := (Storage.removeAllowedHash fault ownerSid sha256 db.hashAllowlist).2 }
  | recordQuarantine ownerSid record quarantinePath =>
      { db with
        quarantines := (Storage.recordQuarantine fault ownerSid record quarantinePath
          db.quarantines).2 }
  | markQuarantineRestored ownerSid quarantineId restoredAt restoredPath =>
      { db with
        quarantines := (Storage.markQuarantineRestored fault ownerSid quarantineId restoredAt
          restoredPath db.quarantines).2 }
  | deleteQuarantine ownerSid quarantineId =>
      { db with
        quarantines := (Storage.deleteQuarantine fault ownerSid quarantineId db.quarantines).2 }

/-- An operation that fails changes nothing. -/
theorem Operation.apply_some (error : StorageError) (operation : Operation) (db : Database) :
    operation.apply (some error) db = db := by
  cases operation with
  | recordScan ownerSid finding =>
      show { db with scanResults := _ } = db
      rw [recordScan_some]
  | _ => rfl

/-- An operation, with the error it fails with if it does. -/
abbrev DatabaseCall := Fault × Operation

/-- An operation as a step of the machine. -/
def databaseStep (db : Database) (operation : DatabaseCall) : Option Database :=
  some (operation.2.apply operation.1 db)

/-- The database of a service that starts for the first time. -/
def Database.created : Database := (Database.blank.initializeDatabase none).2

/-! ## What happens to the history -/

/-- The timeline with the rows of several events. -/
def insertTimelines (ownerSid : String) (events : List TimelineEvent)
    (rows : RowTable TimelineRow) : RowTable TimelineRow :=
  events.foldl (fun rows event => insertTimeline ownerSid event rows) rows

/-- All that an operation can do to the events and the timeline. -/
inductive HistoryChange (history : EventHistory) : Operation → EventHistory → Prop where
  | same (operation : Operation) : HistoryChange history operation history
  | event (ownerSid : String) (event : SecurityEvent) :
      HistoryChange history (.recordEvent ownerSid event)
        { securityEvents := history.securityEvents.insert (.ofEvent ownerSid event)
          timelineEvents := insertTimeline ownerSid
            (mirrorEvent history.securityEvents.nextId event) history.timelineEvents }
  | timeline (ownerSid : String) (event : TimelineEvent) :
      HistoryChange history (.recordTimeline ownerSid event)
        { history with timelineEvents := insertTimeline ownerSid event history.timelineEvents }
  | changes (order : IterOrder String PersistenceRow) (ownerSid : String)
      (items : List PersistenceItem) (observedAt : String) (events : List TimelineEvent)
      (h : ∀ event ∈ events, ∃ id, event.correlationId = changeId id observedAt) :
      HistoryChange history (.syncPersistenceInventory order ownerSid items observedAt)
        { history with
          timelineEvents := insertTimelines ownerSid events history.timelineEvents }
  | pruned (maximumSecurityEvents maximumTimelineEvents : UInt32) :
      HistoryChange history (.pruneEventHistory maximumSecurityEvents maximumTimelineEvents)
        { securityEvents := history.securityEvents.keepNewest (keptRows maximumSecurityEvents)
          timelineEvents := history.timelineEvents.keepNewest (keptRows maximumTimelineEvents) }
  | backfilled : HistoryChange history .initializeDatabase (Database.backfill history)

section history

variable {operation : Operation} {db : Database} {history after : EventHistory}

theorem history_migrate :
    (Database.migrateScanCapabilities (Database.migrateSeenExecutables db)).history =
      db.history := by
  unfold Database.migrateScanCapabilities Database.migrateSeenExecutables
  split_ifs <;> rfl

/-- Every operation changes the history in one of these ways, or not at all. -/
theorem historyChange_apply (fault : Fault) (operation : Operation) (db : Database) :
    HistoryChange db.history operation (operation.apply fault db).history := by
  cases fault with
  | some error =>
      rw [Operation.apply_some]
      exact .same operation
  | none =>
      cases operation with
      | recordEvent ownerSid event => exact .event ownerSid event
      | recordTimeline ownerSid event => exact .timeline ownerSid event
      | pruneEventHistory maximumSecurityEvents maximumTimelineEvents => exact .pruned _ _
      | syncPersistenceInventory order ownerSid items observedAt =>
          refine .changes order ownerSid items observedAt _ ?_
          intro event hevent
          rcases List.mem_append.mp hevent with hevent | hevent
          · obtain ⟨item, -, hchange⟩ := List.mem_filterMap.mp hevent
            obtain ⟨change, -, rfl⟩ := Option.map_eq_some_iff.mp hchange
            exact ⟨item.id, rfl⟩
          · obtain ⟨id, -, rfl⟩ := List.mem_map.mp hevent
            exact ⟨id, rfl⟩
      | initializeDatabase =>
          show HistoryChange db.history .initializeDatabase (Database.backfill
            (Database.migrateScanCapabilities (Database.migrateSeenExecutables db)).history)
          rw [history_migrate]
          exact .backfilled
      | _ => exact .same _

/-- Rows of the timeline never change, and no id is given twice. -/
theorem HistoryChange.grows_timelineEvents (h : HistoryChange history operation after) :
    history.timelineEvents.Grows after.timelineEvents := by
  cases h with
  | same => exact .refl _
  | event ownerSid event => exact RowTable.grows_insert _
  | timeline ownerSid event => exact RowTable.grows_insert _
  | changes order ownerSid items observedAt events h => exact RowTable.grows_foldl_insert _ events _
  | pruned => exact RowTable.grows_keepNewest _
  | backfilled => exact RowTable.grows_foldl_insert _ _ _

theorem grows_timelineEvents (fault : Fault) (operation : Operation) (db : Database) :
    db.history.timelineEvents.Grows (operation.apply fault db).history.timelineEvents :=
  (historyChange_apply fault operation db).grows_timelineEvents

end history

end OpenGuard.Storage
