import OpenGuard.Domain.Models
import OpenGuard.Storage.Store
import Mathlib.Data.List.Sort

/-!
# Quarantine records

The table `quarantines`: its primary key is the id of the quarantine, and the payload paths are
unique too. An owner only sees and changes own rows.
-/

namespace OpenGuard.Storage

open OpenGuard.Lib OpenGuard.Domain

/-- A row of `quarantines` besides its id: the owner, the payload, and the record.
Source: `storage/lib.rs`, `StoredQuarantine` -/
structure StoredQuarantine where
  ownerSid : String
  record : QuarantineRecord
  quarantinePath : String
  deriving DecidableEq, Inhabited

/-- The table `quarantines`. -/
abbrev Quarantines := Table String StoredQuarantine

/-- The insertion violates the primary key or the unique payload path. -/
def conflicts (record : QuarantineRecord) (quarantinePath : String) (rows : Quarantines) : Bool :=
  (rows.lookup record.id).isSome ||
    rows.entries.any fun row => row.2.quarantinePath == quarantinePath

/-- Source: `storage/lib.rs`, `Database::record_quarantine` -/
def recordQuarantine (fault : Fault) (ownerSid : String) (record : QuarantineRecord)
    (quarantinePath : String) (rows : Quarantines) : Except StorageError Unit × Quarantines :=
  call fault
    (fun rows =>
      if conflicts record quarantinePath rows then
        (.error (.database "UNIQUE constraint failed: quarantines"), rows)
      else (.ok (), rows.insert record.id ⟨ownerSid, record, quarantinePath⟩))
    rows

/-- Newest first, in the order of `created_at DESC, id DESC`.
Source: `storage/lib.rs`, `Database::list_quarantines` -/
def listQuarantines (fault : Fault) (ownerSid : String) (limit : UInt32) (rows : Quarantines) :
    Except StorageError (List QuarantineRecord) :=
  (call fault
    (fun rows =>
      let records :=
        (rows.entries.filter fun row => row.2.ownerSid == ownerSid).map (·.2.record)
      let listed := (records.insertionSort fun x y => y.id ≤ x.id).insertionSort fun x y =>
        y.createdAt ≤ x.createdAt
      (.ok (listed.take (max 1 (min limit.toNat 2000))), rows)) rows).1

/-- Source: `storage/lib.rs`, `Database::quarantine` -/
def quarantine (fault : Fault) (ownerSid quarantineId : String) (rows : Quarantines) :
    Except StorageError (Option StoredQuarantine) :=
  (call fault
    (fun rows => (.ok ((rows.lookup quarantineId).filter (·.ownerSid == ownerSid)), rows)) rows).1

/-- Whether a row of the owner that was not restored is now marked.
Source: `storage/lib.rs`, `Database::mark_quarantine_restored` -/
def markQuarantineRestored (fault : Fault) (ownerSid quarantineId restoredAt restoredPath : String)
    (rows : Quarantines) : Except StorageError Bool × Quarantines :=
  call fault
    (fun rows =>
      match rows.lookup quarantineId with
      | none => (.ok false, rows)
      | some row =>
          if row.ownerSid = ownerSid ∧ row.record.restoredAt = none then
            (.ok true, rows.insert quarantineId
              { row with
                record :=
                  { row.record with
                    restoredAt := some restoredAt
                    restoredPath := some restoredPath } })
          else (.ok false, rows))
    rows

/-- Source: `storage/lib.rs`, `Database::delete_quarantine` -/
def deleteQuarantine (fault : Fault) (ownerSid quarantineId : String) (rows : Quarantines) :
    Except StorageError Bool × Quarantines :=
  call fault
    (fun rows =>
      match rows.lookup quarantineId with
      | none => (.ok false, rows)
      | some row =>
          if row.ownerSid = ownerSid then (.ok true, rows.erase quarantineId)
          else (.ok false, rows))
    rows

end OpenGuard.Storage
