import OpenGuard.Storage.Store

/-!
# Rollback records

The table `response_rollbacks`: its primary key is the id of the rollback. A record is read and
closed only for its owner and only while it is unrestored; the recovery after a restart reads the
records of all owners.

* `recordResponseRollback_ok`, `recordResponseRollback_error`: what an insertion leaves.
* `responseRollback_ok`: what is read is an unrestored row of the owner.
* `markResponseRestored_true`, `markResponseRestored_ne_true`: what closing a record leaves.
* `lookup_recordResponseRollback`, `lookup_markResponseRestored`: the rows that are there stay.
-/

namespace OpenGuard.Storage

open OpenGuard.Lib

/-- Source: `storage/lib.rs`, `ResponseRollback` -/
structure ResponseRollback where
  id : String
  action : String
  target : String
  payload : String
  createdAt : String
  expiresAt : Option String
  restoredAt : Option String
  deriving DecidableEq, Inhabited

/-- A row of `response_rollbacks`.
Source: `storage/lib.rs`, `OwnedResponseRollback` -/
structure OwnedResponseRollback where
  ownerSid : String
  rollback : ResponseRollback
  deriving DecidableEq, Inhabited

/-- The table `response_rollbacks`. -/
abbrev Rollbacks := Table String OwnedResponseRollback

/-- Source: `storage/lib.rs`, `Database::record_response_rollback` -/
def recordResponseRollback (fault : Fault) (ownerSid : String) (rollback : ResponseRollback)
    (rows : Rollbacks) : Except StorageError Unit × Rollbacks :=
  call fault
    (fun rows =>
      if (rows.lookup rollback.id).isSome then
        (.error (.database "UNIQUE constraint failed: response_rollbacks.id"), rows)
      else (.ok (), rows.insert rollback.id ⟨ownerSid, rollback⟩))
    rows

/-- The row is one that the owner may still undo. -/
def OwnedResponseRollback.isOpenFor (ownerSid : String) (row : OwnedResponseRollback) : Bool :=
  row.ownerSid == ownerSid && row.rollback.restoredAt.isNone

/-- Source: `storage/lib.rs`, `Database::response_rollback` -/
def responseRollback (fault : Fault) (ownerSid id : String) (rows : Rollbacks) :
    Except StorageError (Option ResponseRollback) :=
  (call fault
    (fun rows =>
      (.ok (((rows.lookup id).filter (·.isOpenFor ownerSid)).map (·.rollback)), rows)) rows).1

/-- Source: `storage/lib.rs`, `Database::active_response_rollbacks` -/
def activeResponseRollbacks (fault : Fault) (action : String) (rows : Rollbacks) :
    Except StorageError (List OwnedResponseRollback) :=
  (call fault
    (fun rows =>
      (.ok ((rows.entries.map Sigma.snd).filter fun row =>
        row.rollback.action == action && row.rollback.restoredAt.isNone), rows)) rows).1

/-- The row, closed. -/
def OwnedResponseRollback.close (restoredAt : String) (row : OwnedResponseRollback) :
    OwnedResponseRollback :=
  { row with rollback := { row.rollback with restoredAt := some restoredAt } }

/-- Whether the one row of the id was open for the owner and is now closed.
Source: `storage/lib.rs`, `Database::mark_response_restored` -/
def markResponseRestored (fault : Fault) (ownerSid id restoredAt : String) (rows : Rollbacks) :
    Except StorageError Bool × Rollbacks :=
  call fault
    (fun rows =>
      match (rows.lookup id).filter (·.isOpenFor ownerSid) with
      | none => (.ok false, rows)
      | some row => (.ok true, rows.insert id (row.close restoredAt)))
    rows

/-! ## What the operations do -/

section operations

variable {fault : Fault} {ownerSid id restoredAt action : String} {rollback : ResponseRollback}
  {rows after : Rollbacks} {row : OwnedResponseRollback} {error : StorageError} {marked : Bool}

/-- A record that is inserted had no row before. -/
theorem recordResponseRollback_ok
    (h : recordResponseRollback fault ownerSid rollback rows = (.ok (), after)) :
    fault = none ∧ rows.lookup rollback.id = none ∧
      after = rows.insert rollback.id ⟨ownerSid, rollback⟩ := by
  unfold recordResponseRollback at h
  cases fault with
  | some error => simp at h
  | none =>
      rw [call_none] at h
      by_cases hrow : (rows.lookup rollback.id).isSome
      · simp [hrow] at h
      · rw [if_neg hrow] at h
        rw [Bool.not_eq_true, Option.isSome_eq_false_iff, Option.isNone_iff_eq_none] at hrow
        exact ⟨rfl, hrow, (Prod.mk.inj h).2.symm⟩

/-- A failed insertion changes nothing. -/
theorem recordResponseRollback_error
    (h : recordResponseRollback fault ownerSid rollback rows = (.error error, after)) :
    after = rows := by
  unfold recordResponseRollback at h
  cases fault with
  | some error => exact (Prod.mk.inj h).2.symm
  | none =>
      rw [call_none] at h
      by_cases hrow : (rows.lookup rollback.id).isSome
      · rw [if_pos hrow] at h
        exact (Prod.mk.inj h).2.symm
      · simp [hrow] at h

/-- Without a fault, an id that has no row gets one. -/
theorem recordResponseRollback_none (h : rows.lookup rollback.id = none) :
    recordResponseRollback none ownerSid rollback rows =
      (.ok (), rows.insert rollback.id ⟨ownerSid, rollback⟩) := by
  simp [recordResponseRollback, h]

/-- What is read is the row of the owner, and it is unrestored. -/
theorem responseRollback_ok
    (h : responseRollback fault ownerSid id rows = .ok (some rollback)) :
    rows.lookup id = some ⟨ownerSid, rollback⟩ ∧ rollback.restoredAt = none := by
  unfold responseRollback at h
  cases fault with
  | some error => simp at h
  | none =>
      rw [call_none] at h
      obtain ⟨⟨owner, found⟩, hfound, rfl⟩ := Option.map_eq_some_iff.mp (Except.ok.inj h)
      obtain ⟨hlookup, hopen⟩ := Option.filter_eq_some_iff.mp hfound
      simp only [OwnedResponseRollback.isOpenFor, Bool.and_eq_true, beq_iff_eq,
        Option.isNone_iff_eq_none] at hopen
      exact ⟨hopen.1 ▸ hlookup, hopen.2⟩

/-- Without a fault, the owner reads the row while it is unrestored. -/
theorem responseRollback_none (h : rows.lookup id = some row)
    (hrestored : row.rollback.restoredAt = none) :
    responseRollback none row.ownerSid id rows = .ok (some row.rollback) := by
  simp [responseRollback, h, OwnedResponseRollback.isOpenFor, hrestored]

/-- What the recovery reads are unrestored rows of the action. -/
theorem mem_activeResponseRollbacks {active : List OwnedResponseRollback}
    (h : activeResponseRollbacks fault action rows = .ok active) (hrow : row ∈ active) :
    ∃ id, rows.lookup id = some row ∧ row.rollback.action = action ∧
      row.rollback.restoredAt = none := by
  unfold activeResponseRollbacks at h
  cases fault with
  | some error => simp at h
  | none =>
      rw [call_none] at h
      rw [← Except.ok.inj h, List.mem_filter, List.mem_map] at hrow
      obtain ⟨⟨⟨id, found⟩, hmem, rfl⟩, hactive⟩ := hrow
      simp only [Bool.and_eq_true, beq_iff_eq,
        Option.isNone_iff_eq_none] at hactive
      exact ⟨id, Table.mem_entries_iff.mp hmem, hactive⟩

/-- A call that closes a record found it open. -/
theorem markResponseRestored_true
    (h : markResponseRestored fault ownerSid id restoredAt rows = (.ok true, after)) :
    ∃ row, rows.lookup id = some row ∧ row.ownerSid = ownerSid ∧
      row.rollback.restoredAt = none ∧ after = rows.insert id (row.close restoredAt) := by
  unfold markResponseRestored at h
  cases fault with
  | some error => simp at h
  | none =>
      rw [call_none] at h
      cases hrow : (rows.lookup id).filter (·.isOpenFor ownerSid) with
      | none => simp [hrow] at h
      | some row =>
          rw [hrow] at h
          obtain ⟨hlookup, hopen⟩ := Option.filter_eq_some_iff.mp hrow
          simp only [OwnedResponseRollback.isOpenFor, Bool.and_eq_true, beq_iff_eq,
        Option.isNone_iff_eq_none] at hopen
          exact ⟨row, hlookup, hopen.1, hopen.2, (Prod.mk.inj h).2.symm⟩

/-- Every other call changes nothing. -/
theorem markResponseRestored_ne_true
    (h : (markResponseRestored fault ownerSid id restoredAt rows).1 ≠ .ok true) :
    (markResponseRestored fault ownerSid id restoredAt rows).2 = rows := by
  unfold markResponseRestored at h ⊢
  cases fault with
  | some error => rfl
  | none =>
      rw [call_none] at h ⊢
      cases hrow : (rows.lookup id).filter (·.isOpenFor ownerSid) with
      | none => rfl
      | some row => simp [hrow] at h

/-- Without a fault, an open row of the owner is closed. -/
theorem markResponseRestored_none (h : rows.lookup id = some row)
    (hrestored : row.rollback.restoredAt = none) :
    markResponseRestored none row.ownerSid id restoredAt rows =
      (.ok true, rows.insert id (row.close restoredAt)) := by
  have hopen : (rows.lookup id).filter (·.isOpenFor row.ownerSid) = some row := by
    rw [h, Option.filter_some, if_pos]
    simp [OwnedResponseRollback.isOpenFor, hrestored]
  rw [markResponseRestored, call_none, hopen]

/-- An insertion keeps the rows that are there. -/
theorem lookup_recordResponseRollback (h : rows.lookup id = some row) :
    (recordResponseRollback fault ownerSid rollback rows).2.lookup id = some row := by
  rcases hrecord : recordResponseRollback fault ownerSid rollback rows with ⟨error | _, after⟩
  · rw [recordResponseRollback_error hrecord]
    exact h
  · obtain ⟨-, hnone, rfl⟩ := recordResponseRollback_ok hrecord
    rw [AList.lookup_insert_ne fun hsame => ?_]
    · exact h
    · rw [hsame, hnone] at h
      cases h

/-- Closing a record keeps the rows, but for the time when the record was closed. -/
theorem lookup_markResponseRestored {other : String} (h : rows.lookup id = some row) :
    ∃ row', (markResponseRestored fault ownerSid other restoredAt rows).2.lookup id = some row' ∧
      (row' = row ∨ row' = row.close restoredAt) := by
  by_cases hmarked : (markResponseRestored fault ownerSid other restoredAt rows).1 = .ok true
  · have hmark : markResponseRestored fault ownerSid other restoredAt rows =
        (.ok true, (markResponseRestored fault ownerSid other restoredAt rows).2) :=
      Prod.ext hmarked rfl
    obtain ⟨found, hfound, -, -, hafter⟩ := markResponseRestored_true hmark
    rw [hafter]
    by_cases hid : id = other
    · subst hid
      rw [h] at hfound
      refine ⟨row.close restoredAt, ?_, .inr rfl⟩
      rw [AList.lookup_insert, Option.some.inj hfound]
    · refine ⟨row, ?_, .inl rfl⟩
      rw [AList.lookup_insert_ne hid]
      exact h
  · rw [markResponseRestored_ne_true hmarked]
    exact ⟨row, h, .inl rfl⟩

end operations

end OpenGuard.Storage
