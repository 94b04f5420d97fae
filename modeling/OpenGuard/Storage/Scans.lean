import OpenGuard.Domain.Models
import OpenGuard.Lib.RowTable
import OpenGuard.Storage.Store
import Mathlib.Algebra.Ring.Nat

/-!
# Scan results

The table `scan_results`, one row for each finding. The columns with JSON text hold the lists that
the text stands for.
-/

namespace OpenGuard.Storage

open OpenGuard.Lib OpenGuard.Domain

/-- A row of `scan_results` besides its id. -/
structure ScanRow where
  ownerSid : String
  path : String
  verdict : String
  score : UInt8
  reasons : List String
  sha256 : String
  sizeBytes : ℕ
  signature : String
  amsiResult : String
  yaraStatus : String
  yaraMatches : List String
  capabilities : List ThreatCapability
  scannedAt : String
  deriving DecidableEq, Inhabited

/-- The row of a finding. -/
def ScanRow.ofFinding (ownerSid : String) (finding : ScanFinding) : ScanRow where
  ownerSid
  path := finding.path
  verdict := finding.verdict.display
  score := finding.score
  reasons := finding.reasons
  sha256 := finding.sha256
  sizeBytes := finding.sizeBytes.toNat
  signature := finding.signature.display
  amsiResult := finding.amsiResult
  yaraStatus := finding.yaraStatus
  yaraMatches := finding.yaraMatches
  capabilities := finding.capabilities
  scannedAt := finding.scannedAt

/-- Source: `storage/lib.rs`, `Database::record_scan` -/
def recordScan (fault : Fault) (ownerSid : String) (finding : ScanFinding)
    (rows : RowTable ScanRow) : Except StorageError ℕ × RowTable ScanRow :=
  -- the size is a signed number in the table
  if 2 ^ 63 ≤ finding.sizeBytes.toNat then
    (.error (.io "out of range integral type conversion attempted"), rows)
  else
    call fault
      (fun rows =>
        -- `CHECK(score BETWEEN 0 AND 100)`
        if finding.score ≤ 100 then (.ok rows.nextId, rows.insert (.ofFinding ownerSid finding))
        else (.error (.database "CHECK constraint failed: score BETWEEN 0 AND 100"), rows))
      rows

/-- A finding that is not written leaves the rows as they are. -/
theorem recordScan_some (error : StorageError) (ownerSid : String) (finding : ScanFinding)
    (rows : RowTable ScanRow) : (recordScan (some error) ownerSid finding rows).2 = rows := by
  unfold recordScan
  split_ifs <;> rfl

/-- A finding is written, or the call fails and leaves the rows as they are: only when the database
fails, or when the size or the score is out of range. -/
theorem recordScan_cases (fault : Fault) (ownerSid : String) (finding : ScanFinding)
    (rows : RowTable ScanRow) :
    (∃ error, recordScan fault ownerSid finding rows = (.error error, rows) ∧
      ¬(fault = none ∧ finding.score ≤ 100 ∧ finding.sizeBytes.toNat < 2 ^ 63)) ∨
    recordScan fault ownerSid finding rows =
      (.ok rows.nextId, rows.insert (.ofFinding ownerSid finding)) := by
  unfold recordScan
  by_cases hsize : 2 ^ 63 ≤ finding.sizeBytes.toNat
  · rw [if_pos hsize]
    exact .inl ⟨_, rfl, fun h => absurd hsize (not_le.mpr h.2.2)⟩
  rw [if_neg hsize]
  cases fault with
  | some error => exact .inl ⟨error, rfl, fun h => nomatch h.1⟩
  | none =>
      rw [call_none]
      split_ifs with hscore
      · exact .inr rfl
      · exact .inl ⟨_, rfl, fun h => hscore h.2.1⟩

end OpenGuard.Storage
