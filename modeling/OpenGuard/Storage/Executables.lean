import OpenGuard.Storage.Store

/-!
# Executables seen per user

The table `seen_executables`: one row for each owner and executable identity. A batch of
observations is one transaction, so a row that violates the table's check on the score undoes the
whole batch.
-/

namespace OpenGuard.Storage

open OpenGuard.Lib

/-- Source: `storage/lib.rs`, `SeenExecutable` -/
structure SeenExecutable where
  identity : String
  path : String
  name : String
  signature : String
  riskScore : UInt8
  observedAt : String
  deriving DecidableEq, Inhabited

/-- The columns of `seen_executables` besides its key. -/
structure SeenRow where
  path : String
  name : String
  firstSeen : String
  lastSeen : String
  signature : String
  riskScore : UInt8
  deriving DecidableEq, Inhabited

/-- The table `seen_executables`, keyed by owner and identity. -/
abbrev SeenExecutables := Table (String × String) SeenRow

/-- The upsert of one observation; the row keeps the time of its first observation. -/
def upsertExecutable (ownerSid : String) (rows : SeenExecutables) (observation : SeenExecutable) :
    SeenExecutables :=
  let key := (ownerSid, observation.identity)
  let firstSeen := ((rows.lookup key).map SeenRow.firstSeen).getD observation.observedAt
  rows.insert key
    { path := observation.path
      name := observation.name
      firstSeen := firstSeen
      lastSeen := observation.observedAt
      signature := observation.signature
      riskScore := observation.riskScore }

/-- Source: `storage/lib.rs`, `Database::record_executables` -/
def recordExecutables (fault : Fault) (ownerSid : String) (observations : List SeenExecutable)
    (rows : SeenExecutables) : Except StorageError Unit × SeenExecutables :=
  call fault
    (fun rows =>
      let named := observations.filter fun observation => observation.identity != ""
      -- `CHECK(risk_score BETWEEN 0 AND 100)` rolls the transaction back
      if named.all fun observation => observation.riskScore ≤ 100 then
        (.ok (), named.foldl (upsertExecutable ownerSid) rows)
      else (.error (.database "CHECK constraint failed: risk_score BETWEEN 0 AND 100"), rows))
    rows

/-- The identities among `identities` with a row for the owner. Nothing is asked of the database
when there is no identity to look for.
Source: `storage/lib.rs`, `Database::known_executable_identities` -/
def knownExecutableIdentities (fault : Fault) (ownerSid : String) (identities : List String)
    (rows : SeenExecutables) : Except StorageError (List String) :=
  let unique := (identities.filter (· != "")).dedup
  if unique = [] then .ok []
  else
    (call fault
      (fun rows =>
        (.ok (unique.filter fun identity => (rows.lookup (ownerSid, identity)).isSome), rows))
      rows).1

/-! ## The rows after a batch -/

section rows

variable {ownerSid other identity : String} {observations : List SeenExecutable}
  {rows after : SeenExecutables}

theorem isSome_foldl_upsertExecutable :
    ((observations.foldl (upsertExecutable ownerSid) rows).lookup (other, identity)).isSome ↔
      (rows.lookup (other, identity)).isSome ∨
        other = ownerSid ∧ ∃ observation ∈ observations, observation.identity = identity := by
  induction observations generalizing rows with
  | nil => simp
  | cons observation rest ih =>
      rw [List.foldl_cons, ih]
      simp only [upsertExecutable, List.mem_cons, exists_eq_or_imp]
      by_cases hkey : (other, identity) = (ownerSid, observation.identity)
      · obtain ⟨rfl, rfl⟩ := Prod.mk.inj hkey
        simp [AList.lookup_insert]
      · have hother : ¬(other = ownerSid ∧ observation.identity = identity) := fun h =>
          hkey (Prod.ext h.1 h.2.symm)
        rw [AList.lookup_insert_ne hkey]
        tauto

/-- After a batch the observed identities have rows for the owner, and no other rows are new. -/
theorem isSome_recordExecutables
    (h : recordExecutables none ownerSid observations rows = (.ok (), after)) :
    (after.lookup (other, identity)).isSome ↔ (rows.lookup (other, identity)).isSome ∨
      other = ownerSid ∧ identity ≠ "" ∧
        ∃ observation ∈ observations, observation.identity = identity := by
  simp only [recordExecutables, call_none] at h
  split_ifs at h
  · rw [← (Prod.mk.inj h).2, isSome_foldl_upsertExecutable]
    simp only [List.mem_filter, bne_iff_ne, and_assoc]
    refine or_congr_right (and_congr_right fun _ => ⟨?_, ?_⟩)
    · rintro ⟨observation, hmem, hne, rfl⟩
      exact ⟨hne, observation, hmem, rfl⟩
    · rintro ⟨hne, observation, hmem, rfl⟩
      exact ⟨observation, hmem, hne, rfl⟩
  · simp at h

end rows

end OpenGuard.Storage
