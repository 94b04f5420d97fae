import OpenGuard.Storage.Events

/-!
# The inventory of startup mechanisms

The table `persistence_items`: what was found to start with the system, for each owner. A new
inventory is compared with the stored one, and each difference becomes a row of the timeline.
-/

namespace OpenGuard.Storage

open OpenGuard.Lib OpenGuard.Domain

/-- The columns of `persistence_items` besides its key. -/
structure PersistenceRow where
  category : String
  name : String
  command : String
  location : String
  state : String
  risk : String
  evidence : List String
  firstSeen : String
  lastSeen : String
  active : Bool
  responseCapability : String
  deriving DecidableEq, Inhabited

/-- The table `persistence_items`, keyed by owner and item. -/
abbrev PersistenceItems := Table (String × String) PersistenceRow

/-- The items of an owner.
Source: `storage/lib.rs`, `Database::sync_persistence_inventory` -/
def existingItems (ownerSid : String) (rows : PersistenceItems) : Table String PersistenceRow :=
  Table.collect ((rows.entries.filter fun row => row.1.1 == ownerSid).map fun row =>
    (row.1.2, row.2))

/-- What an item of the inventory changes, if it does.
Source: `storage/lib.rs`, `Database::sync_persistence_inventory` -/
def itemChange (existing : Table String PersistenceRow) (item : PersistenceItem) :
    Option (String × Severity × String) :=
  match existing.lookup item.id with
  | none => some ("added", .info, "Persistence entry discovered")
  | some row =>
      if !row.active || row.command != item.command || row.state != item.state then
        some ("changed", .medium, "Persistence entry changed")
      else none

/-- The upsert of an item; the row keeps the time when the item was first seen.
Source: `storage/lib.rs`, `Database::sync_persistence_inventory` -/
def upsertItem (ownerSid observedAt : String) (rows : PersistenceItems) (item : PersistenceItem) :
    PersistenceItems :=
  let key := (ownerSid, item.id)
  rows.insert key
    { category := item.category
      name := item.name
      command := item.command
      location := item.location
      state := item.state
      risk := item.risk.display
      evidence := item.evidence
      firstSeen := ((rows.lookup key).map PersistenceRow.firstSeen).getD observedAt
      lastSeen := observedAt
      active := true
      responseCapability := item.responseCapability }

/-- The correlation id of a change. -/
def changeId (id observedAt : String) : String := "persistence:" ++ id ++ ":" ++ observedAt

/-- The event of the timeline for an item that was added or changed.
Source: `storage/lib.rs`, `Database::sync_persistence_inventory` -/
def changeEvent (observedAt : String) (item : PersistenceItem)
    (change : String × Severity × String) : TimelineEvent where
  category := "persistence"
  action := change.1
  severity := change.2.1
  title := change.2.2
  detail := item.category ++ ": " ++ item.name ++ " (" ++ item.state ++ ")"
  processId := none
  path := item.command
  remoteAddress := ""
  correlationId := changeId item.id observedAt
  occurredAt := observedAt

/-- The event of the timeline for an item that is gone.
Source: `storage/lib.rs`, `Database::sync_persistence_inventory` -/
def removedEvent (observedAt id : String) : TimelineEvent where
  category := "persistence"
  action := "removed"
  severity := .info
  title := "Persistence entry removed"
  detail := id
  processId := none
  path := ""
  remoteAddress := ""
  correlationId := changeId id observedAt
  occurredAt := observedAt

/-- The items that were active and are not in the inventory, in the order of the map. -/
def removedItems (order : IterOrder String PersistenceRow) (existing : Table String PersistenceRow)
    (items : List PersistenceItem) : List String :=
  ((order.entries existing).filter fun row =>
    row.2.active && !items.any fun item => item.id == row.1).map (·.1)

/-- The update of an item that is gone. -/
def deactivateItem (ownerSid observedAt : String) (rows : PersistenceItems) (id : String) :
    PersistenceItems :=
  match rows.lookup (ownerSid, id) with
  | none => rows
  | some row => rows.insert (ownerSid, id) { row with active := false, lastSeen := observedAt }

/-- The items and the timeline after a comparison, and the changes; `order` is the order in which
the loop over the map of the stored items meets them.
Source: `storage/lib.rs`, `Database::sync_persistence_inventory` -/
def syncPersistenceInventory (fault : Fault) (order : IterOrder String PersistenceRow)
    (ownerSid : String) (items : List PersistenceItem) (observedAt : String)
    (tables : PersistenceItems × RowTable TimelineRow) :
    Except StorageError (List TimelineEvent) × (PersistenceItems × RowTable TimelineRow) :=
  call fault
    (fun (rows, timeline) =>
      let existing := existingItems ownerSid rows
      let removed := removedItems order existing items
      let changes :=
        items.filterMap (fun item =>
            (itemChange existing item).map (changeEvent observedAt item)) ++
          removed.map (removedEvent observedAt)
      let rows := items.foldl (upsertItem ownerSid observedAt) rows
      let rows := removed.foldl (deactivateItem ownerSid observedAt) rows
      (.ok changes, (rows, changes.foldl (fun timeline event =>
        insertTimeline ownerSid event timeline) timeline)))
    tables

/-- Source: `storage/lib.rs`, `persistence_from_row` -/
def persistenceFromRow (id : String) (row : PersistenceRow) : Except StorageError PersistenceItem :=
  (severityFromRow 6 row.risk).map fun risk =>
    { id := id
      category := row.category
      name := row.name
      command := row.command
      location := row.location
      state := row.state
      risk := risk
      evidence := row.evidence
      detectedAt := row.lastSeen
      responseCapability := row.responseCapability }

/-- An active item of the owner.
Source: `storage/lib.rs`, `Database::persistence_item` -/
def persistenceItem (fault : Fault) (ownerSid id : String) (rows : PersistenceItems) :
    Except StorageError (Option PersistenceItem) :=
  (call fault
    (fun rows =>
      (((rows.lookup (ownerSid, id)).filter (·.active)).mapM (persistenceFromRow id), rows)) rows).1

end OpenGuard.Storage
