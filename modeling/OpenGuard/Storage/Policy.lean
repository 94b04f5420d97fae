import OpenGuard.Lib.Text
import OpenGuard.Domain.Models
import OpenGuard.Storage.Store
import Mathlib.Data.List.Sort

/-!
# The policy of a user

The tables `exclusions` and `hash_allowlist`: the paths and the digests that a user has exempted.
Both are keyed by the owner and the exempted thing, so adding one again replaces its record.

A query for an owner meets the rows of that owner in the order of the primary key; a list that is
sorted by other columns keeps that order among rows that are equal there.
-/

namespace OpenGuard.Storage

open OpenGuard.Lib OpenGuard.Domain

/-- The table `exclusions`, keyed by owner and normalized path. -/
abbrev Exclusions := Table (String × String) ExclusionRecord

/-- The columns of `hash_allowlist` besides its key. -/
structure AllowedHashRow where
  label : String
  createdAt : String
  deriving DecidableEq, Inhabited

/-- The table `hash_allowlist`, keyed by owner and digest. -/
abbrev HashAllowlist := Table (String × String) AllowedHashRow

/-- A deletion by key, which tells whether there was a row. -/
def deleteKey {ν : Type*} (key : String × String) (rows : Table (String × String) ν) :
    Except StorageError Bool × Table (String × String) ν :=
  (.ok (rows.lookup key).isSome, rows.erase key)

/-- Source: `storage/lib.rs`, `Database::add_exclusion` -/
def addExclusion (fault : Fault) (ownerSid pathKey : String) (record : ExclusionRecord)
    (rows : Exclusions) : Except StorageError Unit × Exclusions :=
  call fault (fun rows => (.ok (), rows.insert (ownerSid, pathKey) record)) rows

/-- Source: `storage/lib.rs`, `Database::remove_exclusion` -/
def removeExclusion (fault : Fault) (ownerSid pathKey : String) (rows : Exclusions) :
    Except StorageError Bool × Exclusions := call fault (deleteKey (ownerSid, pathKey)) rows

/-- The rows of an owner, in the order of the primary key. -/
def ownerRows {ν : Type*} (ownerSid : String) (rows : Table (String × String) ν) :
    List (String × ν) :=
  ((rows.entries.filter fun row => row.1.1 == ownerSid).map fun row =>
    (row.1.2, row.2)).insertionSort fun x y => x.1 ≤ y.1

/-- Source: `storage/lib.rs`, `Database::list_exclusions` -/
def listExclusions (fault : Fault) (ownerSid : String) (rows : Exclusions) :
    Except StorageError (List ExclusionRecord) :=
  (call fault
    (fun rows =>
      (.ok (((ownerRows ownerSid rows).map Prod.snd).insertionSort fun x y =>
        toAsciiLowercase x.path ≤ toAsciiLowercase y.path), rows)) rows).1

/-- The exclusion covers the path: it names the path itself or, when it is recursive, a directory
above it. -/
def covers (candidateKey : String) (exclusion : String × ExclusionRecord) : Bool :=
  candidateKey == exclusion.1 ||
    (exclusion.2.recursive &&
      (stripPrefix candidateKey exclusion.1).any fun suffix => startsWith suffix "\\")

/-- Source: `storage/lib.rs`, `Database::path_excluded` -/
def pathExcluded (fault : Fault) (ownerSid candidateKey : String) (rows : Exclusions) :
    Except StorageError Bool :=
  (call fault
    (fun rows => (.ok ((ownerRows ownerSid rows).any (covers candidateKey)), rows)) rows).1

/-- Source: `storage/lib.rs`, `Database::allow_hash` -/
def allowHash (fault : Fault) (ownerSid : String) (record : AllowedHashRecord)
    (rows : HashAllowlist) : Except StorageError Unit × HashAllowlist :=
  call fault
    (fun rows => (.ok (), rows.insert (ownerSid, record.sha256) ⟨record.label, record.createdAt⟩))
    rows

/-- Source: `storage/lib.rs`, `Database::allowed_hash` -/
def allowedHash (fault : Fault) (ownerSid sha256 : String) (rows : HashAllowlist) :
    Except StorageError (Option String) :=
  (call fault
    (fun rows => (.ok ((rows.lookup (ownerSid, sha256)).map AllowedHashRow.label), rows)) rows).1

/-- Source: `storage/lib.rs`, `Database::list_allowed_hashes` -/
def listAllowedHashes (fault : Fault) (ownerSid : String) (rows : HashAllowlist) :
    Except StorageError (List AllowedHashRecord) :=
  (call fault
    (fun rows =>
      -- the order of `created_at DESC, sha256`
      (.ok (((ownerRows ownerSid rows).insertionSort fun x y =>
        y.2.createdAt ≤ x.2.createdAt).map fun row => ⟨row.1, row.2.label, row.2.createdAt⟩),
        rows)) rows).1

/-- Source: `storage/lib.rs`, `Database::remove_allowed_hash` -/
def removeAllowedHash (fault : Fault) (ownerSid sha256 : String) (rows : HashAllowlist) :
    Except StorageError Bool × HashAllowlist := call fault (deleteKey (ownerSid, sha256)) rows

/-! ## The policy of an owner -/

section owner

variable {fault : Fault} {ownerSid candidateKey sha256 : String} {exclusions others : Exclusions}
  {allowlist hashes : HashAllowlist}

/-- Whether a path is excluded depends on the rows of the owner only. -/
theorem pathExcluded_congr (h : ownerRows ownerSid others = ownerRows ownerSid exclusions) :
    pathExcluded fault ownerSid candidateKey others =
      pathExcluded fault ownerSid candidateKey exclusions := by
  cases fault with
  | some error => rfl
  | none => rw [pathExcluded, pathExcluded, call_none, call_none, h]

/-- Whether a digest is allowed depends on the rows of the owner only. -/
theorem allowedHash_congr (h : hashes.lookup (ownerSid, sha256) =
    allowlist.lookup (ownerSid, sha256)) :
    allowedHash fault ownerSid sha256 hashes = allowedHash fault ownerSid sha256 allowlist := by
  cases fault with
  | some error => rfl
  | none => rw [allowedHash, allowedHash, call_none, call_none, h]

end owner

end OpenGuard.Storage
