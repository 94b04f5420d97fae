import OpenGuard.Lib.Unwinding
import OpenGuard.Storage.Database

/-!
# What a user sees of the database

The exclusions, the allowed digests, the quarantines, the rollback records, the executables seen and
the startup items are kept per user. Every operation on them is issued for an owner, except the
query for all unrestored rollback records, which the recovery after a restart makes.

* `StoreCall.serve`: the operations and their answers; `serve_operation` connects the writing ones
  to the operations of the database.
* `SameFor`: the rows of an owner are the same in two databases.
* `serve_congr`, `serve_other`: an operation for the owner only sees and changes the rows of the
  owner, and an operation for another owner leaves these.
* `storeTranscript_isolated`: the operations of other owners are invisible.
-/

namespace OpenGuard.Storage

open OpenGuard.Lib OpenGuard.Domain

/-! ## Operations -/

/-- The operations on the records of one owner. -/
inductive StoreCall where
  | addExclusion (pathKey : String) (record : ExclusionRecord)
  | removeExclusion (pathKey : String)
  | listExclusions
  | pathExcluded (candidateKey : String)
  | allowHash (record : AllowedHashRecord)
  | removeAllowedHash (sha256 : String)
  | allowedHash (sha256 : String)
  | listAllowedHashes
  | recordQuarantine (record : QuarantineRecord) (quarantinePath : String)
  | listQuarantines (limit : UInt32)
  | quarantine (quarantineId : String)
  | markQuarantineRestored (quarantineId restoredAt restoredPath : String)
  | deleteQuarantine (quarantineId : String)
  | recordResponseRollback (rollback : ResponseRollback)
  | responseRollback (id : String)
  | markResponseRestored (id restoredAt : String)
  | recordExecutables (observations : List SeenExecutable)
  | knownExecutableIdentities (identities : List String)
  | syncPersistenceInventory (order : IterOrder String PersistenceRow)
      (items : List PersistenceItem) (observedAt : String)
  | persistenceItem (id : String)

/-- What an operation answers. -/
inductive StoreReply where
  | done (result : Except StorageError Unit)
  | changed (result : Except StorageError Bool)
  | exclusions (result : Except StorageError (List ExclusionRecord))
  | label (result : Except StorageError (Option String))
  | allowedHashes (result : Except StorageError (List AllowedHashRecord))
  | quarantines (result : Except StorageError (List QuarantineRecord))
  | quarantine (result : Except StorageError (Option StoredQuarantine))
  | rollback (result : Except StorageError (Option ResponseRollback))
  | rollbacks (result : Except StorageError (List OwnedResponseRollback))
  | identities (result : Except StorageError (List String))
  | changes (result : Except StorageError (List TimelineEvent))
  | item (result : Except StorageError (Option PersistenceItem))

/-- The answer to an operation for an owner, and what it leaves. -/
def StoreCall.serve (fault : Fault) (ownerSid : String) (db : Database) :
    StoreCall → StoreReply × Database
  | addExclusion pathKey record =>
      let served := Storage.addExclusion fault ownerSid pathKey record db.exclusions
      (.done served.1, { db with exclusions := served.2 })
  | removeExclusion pathKey =>
      let served := Storage.removeExclusion fault ownerSid pathKey db.exclusions
      (.changed served.1, { db with exclusions := served.2 })
  | listExclusions => (.exclusions (Storage.listExclusions fault ownerSid db.exclusions), db)
  | pathExcluded candidateKey =>
      (.changed (Storage.pathExcluded fault ownerSid candidateKey db.exclusions), db)
  | allowHash record =>
      let served := Storage.allowHash fault ownerSid record db.hashAllowlist
      (.done served.1, { db with hashAllowlist := served.2 })
  | removeAllowedHash sha256 =>
      let served := Storage.removeAllowedHash fault ownerSid sha256 db.hashAllowlist
      (.changed served.1, { db with hashAllowlist := served.2 })
  | allowedHash sha256 => (.label (Storage.allowedHash fault ownerSid sha256 db.hashAllowlist), db)
  | listAllowedHashes =>
      (.allowedHashes (Storage.listAllowedHashes fault ownerSid db.hashAllowlist), db)
  | recordQuarantine record quarantinePath =>
      let served :=
        Storage.recordQuarantine fault ownerSid record quarantinePath db.quarantines
      (.done served.1, { db with quarantines := served.2 })
  | listQuarantines limit =>
      (.quarantines (Storage.listQuarantines fault ownerSid limit db.quarantines), db)
  | quarantine quarantineId =>
      (.quarantine (Storage.quarantine fault ownerSid quarantineId db.quarantines), db)
  | markQuarantineRestored quarantineId restoredAt restoredPath =>
      let served := Storage.markQuarantineRestored fault ownerSid quarantineId restoredAt
        restoredPath db.quarantines
      (.changed served.1, { db with quarantines := served.2 })
  | deleteQuarantine quarantineId =>
      let served := Storage.deleteQuarantine fault ownerSid quarantineId db.quarantines
      (.changed served.1, { db with quarantines := served.2 })
  | recordResponseRollback rollback =>
      let served := Storage.recordResponseRollback fault ownerSid rollback db.rollbacks
      (.done served.1, { db with rollbacks := served.2 })
  | responseRollback id => (.rollback (Storage.responseRollback fault ownerSid id db.rollbacks), db)
  | markResponseRestored id restoredAt =>
      let served := Storage.markResponseRestored fault ownerSid id restoredAt db.rollbacks
      (.changed served.1, { db with rollbacks := served.2 })
  | recordExecutables observations =>
      let served := Storage.recordExecutables fault ownerSid observations db.seenExecutables
      (.done served.1, { db with seenExecutables := served.2 })
  | knownExecutableIdentities identities =>
      (.identities (Storage.knownExecutableIdentities fault ownerSid identities
        db.seenExecutables), db)
  | syncPersistenceInventory order items observedAt =>
      let served := Storage.syncPersistenceInventory fault order ownerSid items observedAt
        (db.persistenceItems, db.history.timelineEvents)
      (.changes served.1,
        { db with
          persistenceItems := served.2.1
          history := { db.history with timelineEvents := served.2.2 } })
  | persistenceItem id =>
      (.item (Storage.persistenceItem fault ownerSid id db.persistenceItems), db)

/-- The operation of the database, if the call writes. -/
def StoreCall.operation (ownerSid : String) : StoreCall → Option Operation
  | addExclusion pathKey record => some (.addExclusion ownerSid pathKey record)
  | removeExclusion pathKey => some (.removeExclusion ownerSid pathKey)
  | allowHash record => some (.allowHash ownerSid record)
  | removeAllowedHash sha256 => some (.removeAllowedHash ownerSid sha256)
  | recordQuarantine record quarantinePath =>
      some (.recordQuarantine ownerSid record quarantinePath)
  | markQuarantineRestored quarantineId restoredAt restoredPath =>
      some (.markQuarantineRestored ownerSid quarantineId restoredAt restoredPath)
  | deleteQuarantine quarantineId => some (.deleteQuarantine ownerSid quarantineId)
  | recordResponseRollback rollback => some (.recordResponseRollback ownerSid rollback)
  | markResponseRestored id restoredAt => some (.markResponseRestored ownerSid id restoredAt)
  | recordExecutables observations => some (.recordExecutables ownerSid observations)
  | syncPersistenceInventory order items observedAt =>
      some (.syncPersistenceInventory order ownerSid items observedAt)
  | listExclusions | pathExcluded _ | allowedHash _ | listAllowedHashes | listQuarantines _
  | quarantine _ | responseRollback _ | knownExecutableIdentities _ | persistenceItem _ => none

/-- What a call leaves is what its operation leaves; a query leaves the database as it was. -/
theorem serve_operation (fault : Fault) (ownerSid : String) (db : Database) (call : StoreCall) :
    (call.serve fault ownerSid db).2 =
      ((call.operation ownerSid).map (Operation.apply fault db)).getD db := by
  cases call <;> rfl

/-- A call for an owner, or the query of the recovery, which is made for no owner. -/
inductive StoreAction where
  | owned (ownerSid : String) (call : StoreCall)
  | activeResponseRollbacks (action : String)

namespace StoreAction

/-- The action is one of the owner. -/
def isOf (ownerSid : String) : StoreAction → Bool
  | owned owner _ => owner == ownerSid
  | activeResponseRollbacks _ => false

/-- The action is one of another owner. -/
def isOfOther (ownerSid : String) : StoreAction → Bool
  | owned owner _ => owner != ownerSid
  | activeResponseRollbacks _ => false

end StoreAction

/-- One action of a run, with the error it fails with if it does. -/
def storeStep (db : Database) (action : Fault × StoreAction) : StoreReply × Database :=
  match action.2 with
  | .owned ownerSid call => call.serve action.1 ownerSid db
  | .activeResponseRollbacks responseAction =>
      (.rollbacks (activeResponseRollbacks action.1 responseAction db.rollbacks), db)

/-! ## The rows of an owner -/

/-- The entry belongs to the owner, which is the first part of the key. -/
def ownKey {ν : Type*} (ownerSid : String) (key : String × String) (_ : ν) : Bool :=
  key.1 == ownerSid

/-- The quarantine belongs to the owner. -/
def ownQuarantine (ownerSid _id : String) (row : StoredQuarantine) : Bool :=
  row.ownerSid == ownerSid

/-- The rollback record belongs to the owner. -/
def ownRollback (ownerSid _id : String) (row : OwnedResponseRollback) : Bool :=
  row.ownerSid == ownerSid

/-- The rows of the owner are the same in both databases. -/
structure SameFor (ownerSid : String) (s t : Database) : Prop where
  exclusions : AgreeOn (ownKey ownerSid) s.exclusions t.exclusions
  hashAllowlist : AgreeOn (ownKey ownerSid) s.hashAllowlist t.hashAllowlist
  quarantines : AgreeOn (ownQuarantine ownerSid) s.quarantines t.quarantines
  rollbacks : AgreeOn (ownRollback ownerSid) s.rollbacks t.rollbacks
  seenExecutables : AgreeOn (ownKey ownerSid) s.seenExecutables t.seenExecutables
  persistenceItems : AgreeOn (ownKey ownerSid) s.persistenceItems t.persistenceItems

section keyed

variable {ν : Type*} {ownerSid other : String} {t u : Table (String × String) ν} {k : String}
  {v : ν}

theorem ownKey_self : ownKey ownerSid (ownerSid, k) v := by simp [ownKey]

theorem not_ownKey (h : other ≠ ownerSid) : ¬ownKey ownerSid (other, k) v := by
  simpa [ownKey] using h

theorem ownerRows_congr (h : AgreeOn (ownKey ownerSid) t u) :
    ownerRows ownerSid t = ownerRows ownerSid u := by
  have hfilter := h.entries_filter
  simp only [ownKey] at hfilter
  rw [ownerRows, ownerRows, hfilter]

theorem lookup_congr (h : AgreeOn (ownKey ownerSid) t u) (k : String) :
    t.lookup (ownerSid, k) = u.lookup (ownerSid, k) :=
  h.lookup_eq (fun _ _ => ownKey_self) fun _ _ => ownKey_self

theorem insert_other (h : other ≠ ownerSid) :
    AgreeOn (ownKey ownerSid) (t.insert (other, k) v) t :=
  agreeOn_insert (not_ownKey h) fun _ _ => not_ownKey h

theorem erase_other (h : other ≠ ownerSid) : AgreeOn (ownKey ownerSid) (t.erase (other, k)) t :=
  agreeOn_erase fun _ _ => not_ownKey h

end keyed

section executables

variable {ownerSid other : String} {t u : SeenExecutables}

theorem upsertExecutable_congr (observation : SeenExecutable) (h : AgreeOn (ownKey ownerSid) t u) :
    AgreeOn (ownKey ownerSid) (upsertExecutable ownerSid t observation)
      (upsertExecutable ownerSid u observation) := by
  simp only [upsertExecutable, lookup_congr h]
  exact h.insert ownKey_self

theorem known_congr (identities : List String) (h : AgreeOn (ownKey ownerSid) t u) :
    knownExecutableIdentities none ownerSid identities t =
      knownExecutableIdentities none ownerSid identities u := by
  unfold knownExecutableIdentities
  simp only [call_none, lookup_congr h]

theorem recordExecutables_congr (observations : List SeenExecutable)
    (h : AgreeOn (ownKey ownerSid) t u) :
    (recordExecutables none ownerSid observations t).1 =
        (recordExecutables none ownerSid observations u).1 ∧
      AgreeOn (ownKey ownerSid) (recordExecutables none ownerSid observations t).2
        (recordExecutables none ownerSid observations u).2 := by
  simp only [recordExecutables, call_none]
  split_ifs
  · exact ⟨rfl, h.foldl fun observation _ _ _ => upsertExecutable_congr observation⟩
  · exact ⟨rfl, h⟩

theorem recordExecutables_other (observations : List SeenExecutable) (hne : other ≠ ownerSid) :
    AgreeOn (ownKey ownerSid) (recordExecutables none other observations t).2 t := by
  simp only [recordExecutables, call_none]
  split_ifs
  · exact agreeOn_foldl fun _ _ _ => insert_other hne
  · exact .refl t

end executables

section persistence

variable {ownerSid other : String} {t u : PersistenceItems}
    {order : IterOrder String PersistenceRow}
  {items : List PersistenceItem} {observedAt : String} {timeline timeline' : RowTable TimelineRow}

theorem existingItems_congr (h : AgreeOn (ownKey ownerSid) t u) :
    existingItems ownerSid t = existingItems ownerSid u := by
  have hfilter := h.entries_filter
  simp only [ownKey] at hfilter
  rw [existingItems, existingItems, hfilter]

theorem upsertItem_congr (item : PersistenceItem) (h : AgreeOn (ownKey ownerSid) t u) :
    AgreeOn (ownKey ownerSid) (upsertItem ownerSid observedAt t item)
      (upsertItem ownerSid observedAt u item) := by
  simp only [upsertItem, lookup_congr h]
  exact h.insert ownKey_self

theorem deactivateItem_congr (id : String) (h : AgreeOn (ownKey ownerSid) t u) :
    AgreeOn (ownKey ownerSid) (deactivateItem ownerSid observedAt t id)
      (deactivateItem ownerSid observedAt u id) := by
  unfold deactivateItem
  rw [lookup_congr h]
  cases u.lookup (ownerSid, id) with
  | none => exact h
  | some row => exact h.insert ownKey_self

theorem deactivateItem_other (id : String) (hne : other ≠ ownerSid) :
    AgreeOn (ownKey ownerSid) (deactivateItem other observedAt t id) t := by
  unfold deactivateItem
  cases t.lookup (other, id) with
  | none => exact .refl t
  | some row => exact insert_other hne

theorem syncPersistenceInventory_congr (h : AgreeOn (ownKey ownerSid) t u) :
    (syncPersistenceInventory none order ownerSid items observedAt (t, timeline)).1 =
        (syncPersistenceInventory none order ownerSid items observedAt (u, timeline')).1 ∧
      AgreeOn (ownKey ownerSid)
        (syncPersistenceInventory none order ownerSid items observedAt (t, timeline)).2.1
        (syncPersistenceInventory none order ownerSid items observedAt (u, timeline')).2.1 := by
  simp only [syncPersistenceInventory, call_none, existingItems_congr h]
  refine ⟨trivial, AgreeOn.foldl (fun id _ _ _ => deactivateItem_congr id) ?_⟩
  exact h.foldl fun item _ _ _ => upsertItem_congr item

theorem syncPersistenceInventory_other (timeline : RowTable TimelineRow) (hne : other ≠ ownerSid) :
    AgreeOn (ownKey ownerSid)
      (syncPersistenceInventory none order other items observedAt (t, timeline)).2.1 t := by
  simp only [syncPersistenceInventory, call_none]
  exact (agreeOn_foldl fun id _ _ => deactivateItem_other id hne).trans
    (agreeOn_foldl fun _ _ _ => insert_other hne)

end persistence

section quarantines

variable {ownerSid other : String} {t u : Quarantines} {record : QuarantineRecord}
  {quarantinePath quarantineId restoredAt restoredPath : String} {row : StoredQuarantine}

theorem listQuarantines_congr (limit : UInt32) (h : AgreeOn (ownQuarantine ownerSid) t u) :
    listQuarantines none ownerSid limit t = listQuarantines none ownerSid limit u := by
  have hfilter := h.entries_filter
  simp only [ownQuarantine] at hfilter
  simp only [listQuarantines, call_none, hfilter]

theorem quarantine_congr (h : AgreeOn (ownQuarantine ownerSid) t u) :
    quarantine none ownerSid quarantineId t = quarantine none ownerSid quarantineId u := by
  have hfilter := h.lookup_filter quarantineId
  unfold ownQuarantine at hfilter
  simp only [quarantine, call_none, hfilter]

/-- The quarantines of other owners have other ids and other payload paths. -/
def Unclaimed (ownerSid : String) (record : QuarantineRecord) (quarantinePath : String)
    (rows : Quarantines) : Prop :=
  ∀ id row, rows.lookup id = some row → row.ownerSid ≠ ownerSid →
    id ≠ record.id ∧ row.quarantinePath ≠ quarantinePath

theorem conflicts_iff : conflicts record quarantinePath t ↔
    ∃ id row, t.lookup id = some row ∧ (id = record.id ∨ row.quarantinePath = quarantinePath) := by
  rw [conflicts, Bool.or_eq_true, List.any_eq_true, Option.isSome_iff_exists]
  constructor
  · rintro (⟨row, hrow⟩ | ⟨⟨id, row⟩, hmem, hpath⟩)
    · exact ⟨_, row, hrow, Or.inl rfl⟩
    · exact ⟨id, row, Table.mem_entries_iff.mp hmem, Or.inr (by simpa using hpath)⟩
  · rintro ⟨id, row, hrow, rfl | hpath⟩
    · exact Or.inl ⟨row, hrow⟩
    · exact Or.inr ⟨⟨id, row⟩, Table.mem_entries_iff.mpr hrow, by simpa using hpath⟩

/-- A call for an owner who does not have the quarantine. -/
theorem markQuarantineRestored_not_own
    (h : ∀ row, t.lookup quarantineId = some row → ¬ownQuarantine ownerSid quarantineId row) :
    markQuarantineRestored none ownerSid quarantineId restoredAt restoredPath t =
      (.ok false, t) := by
  simp only [markQuarantineRestored, call_none]
  cases hrow : t.lookup quarantineId with
  | none => rfl
  | some row =>
      have hother : row.ownerSid ≠ ownerSid := by simpa [ownQuarantine] using h row hrow
      exact if_neg fun hown => hother hown.1

theorem deleteQuarantine_not_own
    (h : ∀ row, t.lookup quarantineId = some row → ¬ownQuarantine ownerSid quarantineId row) :
    deleteQuarantine none ownerSid quarantineId t = (.ok false, t) := by
  simp only [deleteQuarantine, call_none]
  cases hrow : t.lookup quarantineId with
  | none => rfl
  | some row => exact if_neg (by simpa [ownQuarantine] using h row hrow)

/-- Only quarantines of the owner stand in the way of a new one. -/
theorem conflicts_of_agreeOn (h : AgreeOn (ownQuarantine ownerSid) t u)
    (hfree : Unclaimed ownerSid record quarantinePath t)
    (hconflicts : conflicts record quarantinePath t) : conflicts record quarantinePath u := by
  obtain ⟨id, row, hrow, hclash⟩ := conflicts_iff.mp hconflicts
  apply conflicts_iff.mpr
  rcases h.lookup_cases id with ⟨row', -, ht, hu⟩ | ⟨ht, -⟩
  · rw [hrow, Option.some_inj] at ht
    exact ⟨id, row, ht ▸ hu, hclash⟩
  · have hother : row.ownerSid ≠ ownerSid := by simpa [ownQuarantine] using ht row hrow
    obtain ⟨hid, hpath⟩ := hfree id row hrow hother
    exact absurd hclash (by simp [hid, hpath])

theorem recordQuarantine_congr (h : AgreeOn (ownQuarantine ownerSid) t u)
    (ht : Unclaimed ownerSid record quarantinePath t)
    (hu : Unclaimed ownerSid record quarantinePath u) :
    (recordQuarantine none ownerSid record quarantinePath t).1 =
        (recordQuarantine none ownerSid record quarantinePath u).1 ∧
      AgreeOn (ownQuarantine ownerSid) (recordQuarantine none ownerSid record quarantinePath t).2
        (recordQuarantine none ownerSid record quarantinePath u).2 := by
  have hsame : conflicts record quarantinePath t = conflicts record quarantinePath u :=
    Bool.eq_iff_iff.mpr ⟨conflicts_of_agreeOn h ht, conflicts_of_agreeOn h.symm hu⟩
  simp only [recordQuarantine, call_none, hsame]
  split_ifs
  · exact ⟨rfl, h⟩
  · exact ⟨rfl, h.insert (by simp [ownQuarantine])⟩

theorem recordQuarantine_other (hne : other ≠ ownerSid) :
    AgreeOn (ownQuarantine ownerSid) (recordQuarantine none other record quarantinePath t).2 t := by
  simp only [recordQuarantine, call_none]
  split_ifs with hconflicts
  · exact .refl t
  · refine agreeOn_insert (by simpa [ownQuarantine] using hne) ?_
    intro old hold
    exact absurd (conflicts_iff.mpr ⟨_, old, hold, Or.inl rfl⟩) hconflicts

theorem markQuarantineRestored_congr (h : AgreeOn (ownQuarantine ownerSid) t u) :
    (markQuarantineRestored none ownerSid quarantineId restoredAt restoredPath t).1 =
        (markQuarantineRestored none ownerSid quarantineId restoredAt restoredPath u).1 ∧
      AgreeOn (ownQuarantine ownerSid)
        (markQuarantineRestored none ownerSid quarantineId restoredAt restoredPath t).2
        (markQuarantineRestored none ownerSid quarantineId restoredAt restoredPath u).2 := by
  rcases h.lookup_cases quarantineId with ⟨row, hown, ht, hu⟩ | ⟨ht, hu⟩
  · simp only [markQuarantineRestored, call_none, ht, hu]
    split_ifs
    · exact ⟨rfl, h.insert (by simpa [ownQuarantine] using hown)⟩
    · exact ⟨rfl, h⟩
  · rw [markQuarantineRestored_not_own ht, markQuarantineRestored_not_own hu]
    exact ⟨rfl, h⟩

theorem markQuarantineRestored_other (hne : other ≠ ownerSid) :
    AgreeOn (ownQuarantine ownerSid)
      (markQuarantineRestored none other quarantineId restoredAt restoredPath t).2 t := by
  simp only [markQuarantineRestored, call_none]
  cases hrow : t.lookup quarantineId with
  | none => exact .refl t
  | some row =>
      dsimp only
      split_ifs with hown
      · have hother : ¬ownQuarantine ownerSid quarantineId row := by
          simpa [ownQuarantine, hown.1] using hne
        refine agreeOn_insert (by simpa [ownQuarantine] using hother) ?_
        intro old hold
        rw [hrow, Option.some_inj] at hold
        exact hold ▸ hother
      · exact .refl t

theorem deleteQuarantine_congr (h : AgreeOn (ownQuarantine ownerSid) t u) :
    (deleteQuarantine none ownerSid quarantineId t).1 =
        (deleteQuarantine none ownerSid quarantineId u).1 ∧
      AgreeOn (ownQuarantine ownerSid) (deleteQuarantine none ownerSid quarantineId t).2
        (deleteQuarantine none ownerSid quarantineId u).2 := by
  rcases h.lookup_cases quarantineId with ⟨row, -, ht, hu⟩ | ⟨ht, hu⟩
  · simp only [deleteQuarantine, call_none, ht, hu]
    split_ifs
    · exact ⟨rfl, h.erase quarantineId⟩
    · exact ⟨rfl, h⟩
  · rw [deleteQuarantine_not_own ht, deleteQuarantine_not_own hu]
    exact ⟨rfl, h⟩

theorem deleteQuarantine_other (hne : other ≠ ownerSid) :
    AgreeOn (ownQuarantine ownerSid) (deleteQuarantine none other quarantineId t).2 t := by
  simp only [deleteQuarantine, call_none]
  cases hrow : t.lookup quarantineId with
  | none => exact .refl t
  | some row =>
      dsimp only
      split_ifs with hown
      · refine agreeOn_erase fun old hold => ?_
        rw [hrow, Option.some_inj] at hold
        rw [← hold]
        simpa [ownQuarantine, hown] using hne
      · exact .refl t

end quarantines

section rollbacks

variable {ownerSid other : String} {t u : Rollbacks} {rollback : ResponseRollback}
  {id restoredAt : String}

/-- A row that is open for an owner is a row of the owner. -/
theorem filter_isOpenFor (id : String) (o : Option OwnedResponseRollback) :
    o.filter (·.isOpenFor ownerSid) =
      (o.filter (ownRollback ownerSid id)).filter (·.rollback.restoredAt.isNone) := by
  rw [Option.filter_filter]
  rfl

theorem open_congr (h : AgreeOn (ownRollback ownerSid) t u) (id : String) :
    (t.lookup id).filter (·.isOpenFor ownerSid) = (u.lookup id).filter (·.isOpenFor ownerSid) := by
  rw [filter_isOpenFor id, filter_isOpenFor id, h.lookup_filter]

theorem responseRollback_congr (h : AgreeOn (ownRollback ownerSid) t u) :
    responseRollback none ownerSid id t = responseRollback none ownerSid id u := by
  simp only [responseRollback, call_none, open_congr h]

theorem recordResponseRollback_congr (h : AgreeOn (ownRollback ownerSid) t u)
    (ht : ∀ row, t.lookup rollback.id = some row → row.ownerSid = ownerSid)
    (hu : ∀ row, u.lookup rollback.id = some row → row.ownerSid = ownerSid) :
    (recordResponseRollback none ownerSid rollback t).1 =
        (recordResponseRollback none ownerSid rollback u).1 ∧
      AgreeOn (ownRollback ownerSid) (recordResponseRollback none ownerSid rollback t).2
        (recordResponseRollback none ownerSid rollback u).2 := by
  have hsame : t.lookup rollback.id = u.lookup rollback.id :=
    h.lookup_eq (by simpa [ownRollback] using ht) (by simpa [ownRollback] using hu)
  simp only [recordResponseRollback, call_none, hsame]
  split_ifs
  · exact ⟨rfl, h⟩
  · exact ⟨rfl, h.insert (by simp [ownRollback])⟩

theorem recordResponseRollback_other (hne : other ≠ ownerSid) :
    AgreeOn (ownRollback ownerSid) (recordResponseRollback none other rollback t).2 t := by
  simp only [recordResponseRollback, call_none]
  split_ifs with hrow
  · exact .refl t
  · refine agreeOn_insert (by simpa [ownRollback] using hne) ?_
    intro old hold
    simp [hold] at hrow

theorem markResponseRestored_congr (h : AgreeOn (ownRollback ownerSid) t u) :
    (markResponseRestored none ownerSid id restoredAt t).1 =
        (markResponseRestored none ownerSid id restoredAt u).1 ∧
      AgreeOn (ownRollback ownerSid) (markResponseRestored none ownerSid id restoredAt t).2
        (markResponseRestored none ownerSid id restoredAt u).2 := by
  simp only [markResponseRestored, call_none, open_congr h id]
  cases hrow : (u.lookup id).filter (·.isOpenFor ownerSid) with
  | none => exact ⟨rfl, h⟩
  | some row =>
      have hopen := (Option.filter_eq_some_iff.mp hrow).2
      exact ⟨rfl, h.insert (Bool.and_eq_true_iff.mp hopen).1⟩

theorem markResponseRestored_other (hne : other ≠ ownerSid) :
    AgreeOn (ownRollback ownerSid) (markResponseRestored none other id restoredAt t).2 t := by
  simp only [markResponseRestored, call_none]
  cases hrow : (t.lookup id).filter (·.isOpenFor other) with
  | none => exact .refl t
  | some row =>
      obtain ⟨hlookup, hopen⟩ := Option.filter_eq_some_iff.mp hrow
      have howner : row.ownerSid = other := by
        simpa using (Bool.and_eq_true_iff.mp hopen).1
      have hother : ¬ownRollback ownerSid id row := by simpa [ownRollback, howner] using hne
      refine agreeOn_insert (show ¬ownRollback ownerSid id (row.close restoredAt) from hother) ?_
      intro old hold
      rw [hlookup, Option.some_inj] at hold
      exact hold ▸ hother

end rollbacks

/-! ## One step -/

section step

variable {fault : Fault} {ownerSid other : String} {call : StoreCall} {s t : Database}

theorem SameFor.refl (s : Database) : SameFor ownerSid s s :=
  ⟨.refl _, .refl _, .refl _, .refl _, .refl _, .refl _⟩

/-- A call that fails changes nothing and tells nothing about the rows. -/
theorem serve_some (error : StorageError) (call : StoreCall) (s t : Database) :
    (call.serve (some error) ownerSid s).1 = (call.serve (some error) ownerSid t).1 ∧
      (call.serve (some error) ownerSid s).2 = s := by
  cases call <;> exact ⟨rfl, rfl⟩

/-- The id and the path of a call that adds a quarantine or a rollback record are used by no other
owner. -/
def Fresh (ownerSid : String) (db : Database) : StoreCall → Prop
  | .recordQuarantine record quarantinePath =>
      Unclaimed ownerSid record quarantinePath db.quarantines
  | .recordResponseRollback rollback =>
      ∀ row, db.rollbacks.lookup rollback.id = some row → row.ownerSid = ownerSid
  | _ => True

/-- **A call for the owner** sees and changes only the rows of the owner. -/
theorem serve_congr (fault : Fault) (h : SameFor ownerSid s t) (hs : Fresh ownerSid s call)
    (ht : Fresh ownerSid t call) :
    (call.serve fault ownerSid s).1 = (call.serve fault ownerSid t).1 ∧
      SameFor ownerSid (call.serve fault ownerSid s).2 (call.serve fault ownerSid t).2 := by
  cases fault with
  | some error =>
      obtain ⟨hreply, hdb⟩ := @serve_some ownerSid error call s t
      rw [hdb, (serve_some error call t t).2]
      exact ⟨hreply, h⟩
  | none =>
      cases call with
      | addExclusion pathKey record =>
          exact ⟨rfl, { h with exclusions := h.exclusions.insert ownKey_self }⟩
      | removeExclusion pathKey =>
          have hlookup := lookup_congr h.exclusions pathKey
          refine ⟨?_, { h with exclusions := h.exclusions.erase _ }⟩
          simp only [StoreCall.serve, removeExclusion, call_none, deleteKey, hlookup]
      | listExclusions =>
          refine ⟨?_, h⟩
          simp only [StoreCall.serve, listExclusions, call_none, ownerRows_congr h.exclusions]
      | pathExcluded candidateKey =>
          refine ⟨?_, h⟩
          simp only [StoreCall.serve, pathExcluded, call_none, ownerRows_congr h.exclusions]
      | allowHash record =>
          exact ⟨rfl, { h with hashAllowlist := h.hashAllowlist.insert ownKey_self }⟩
      | removeAllowedHash sha256 =>
          have hlookup := lookup_congr h.hashAllowlist sha256
          refine ⟨?_, { h with hashAllowlist := h.hashAllowlist.erase _ }⟩
          simp only [StoreCall.serve, removeAllowedHash, call_none, deleteKey, hlookup]
      | allowedHash sha256 =>
          refine ⟨?_, h⟩
          simp only [StoreCall.serve, allowedHash, call_none, lookup_congr h.hashAllowlist]
      | listAllowedHashes =>
          refine ⟨?_, h⟩
          simp only [StoreCall.serve, listAllowedHashes, call_none, ownerRows_congr h.hashAllowlist]
      | recordQuarantine record quarantinePath =>
          obtain ⟨hreply, hrows⟩ := recordQuarantine_congr h.quarantines hs ht
          exact ⟨congrArg StoreReply.done hreply, { h with quarantines := hrows }⟩
      | listQuarantines limit =>
          exact ⟨congrArg StoreReply.quarantines (listQuarantines_congr limit h.quarantines), h⟩
      | quarantine quarantineId =>
          exact ⟨congrArg StoreReply.quarantine (quarantine_congr h.quarantines), h⟩
      | markQuarantineRestored quarantineId restoredAt restoredPath =>
          obtain ⟨hreply, hrows⟩ := markQuarantineRestored_congr h.quarantines
          exact ⟨congrArg StoreReply.changed hreply, { h with quarantines := hrows }⟩
      | deleteQuarantine quarantineId =>
          obtain ⟨hreply, hrows⟩ := deleteQuarantine_congr h.quarantines
          exact ⟨congrArg StoreReply.changed hreply, { h with quarantines := hrows }⟩
      | recordResponseRollback rollback =>
          obtain ⟨hreply, hrows⟩ := recordResponseRollback_congr h.rollbacks hs ht
          exact ⟨congrArg StoreReply.done hreply, { h with rollbacks := hrows }⟩
      | responseRollback id =>
          exact ⟨congrArg StoreReply.rollback (responseRollback_congr h.rollbacks), h⟩
      | markResponseRestored id restoredAt =>
          obtain ⟨hreply, hrows⟩ := markResponseRestored_congr h.rollbacks
          exact ⟨congrArg StoreReply.changed hreply, { h with rollbacks := hrows }⟩
      | recordExecutables observations =>
          obtain ⟨hreply, hrows⟩ := recordExecutables_congr observations h.seenExecutables
          exact ⟨congrArg StoreReply.done hreply, { h with seenExecutables := hrows }⟩
      | knownExecutableIdentities identities =>
          exact ⟨congrArg StoreReply.identities (known_congr identities h.seenExecutables), h⟩
      | syncPersistenceInventory order items observedAt =>
          obtain ⟨hreply, hrows⟩ := syncPersistenceInventory_congr h.persistenceItems
          exact ⟨congrArg StoreReply.changes hreply, { h with persistenceItems := hrows }⟩
      | persistenceItem id =>
          refine ⟨?_, h⟩
          simp only [StoreCall.serve, persistenceItem, call_none, lookup_congr h.persistenceItems]

/-- **A call for another owner** leaves the rows of the owner. -/
theorem serve_other (hne : other ≠ ownerSid) (h : SameFor ownerSid s t) :
    SameFor ownerSid (call.serve fault other s).2 t := by
  cases fault with
  | some error =>
      rw [(serve_some error call s s).2]
      exact h
  | none =>
      cases call with
      | addExclusion pathKey record =>
          exact { h with exclusions := (insert_other hne).trans h.exclusions }
      | removeExclusion pathKey =>
          exact { h with exclusions := (erase_other hne).trans h.exclusions }
      | allowHash record =>
          exact { h with hashAllowlist := (insert_other hne).trans h.hashAllowlist }
      | removeAllowedHash sha256 =>
          exact { h with hashAllowlist := (erase_other hne).trans h.hashAllowlist }
      | recordQuarantine record quarantinePath =>
          exact { h with quarantines := (recordQuarantine_other hne).trans h.quarantines }
      | markQuarantineRestored quarantineId restoredAt restoredPath =>
          exact { h with quarantines := (markQuarantineRestored_other hne).trans h.quarantines }
      | deleteQuarantine quarantineId =>
          exact { h with quarantines := (deleteQuarantine_other hne).trans h.quarantines }
      | recordResponseRollback rollback =>
          exact { h with rollbacks := (recordResponseRollback_other hne).trans h.rollbacks }
      | markResponseRestored id restoredAt =>
          exact { h with rollbacks := (markResponseRestored_other hne).trans h.rollbacks }
      | recordExecutables observations =>
          exact { h with
            seenExecutables :=
              (recordExecutables_other observations hne).trans h.seenExecutables }
      | syncPersistenceInventory order items observedAt =>
          exact { h with
            persistenceItems :=
              (syncPersistenceInventory_other s.history.timelineEvents hne).trans
                h.persistenceItems }
      | _ => exact h

end step

/-! ## Runs -/

/-- No two owners use one id or one payload path for a quarantine, or one id for a rollback
record. -/
structure GloballyUnique (run : List (Fault × StoreAction)) : Prop where
  quarantines : ∀ fault ownerSid record quarantinePath fault' other record' quarantinePath',
    (fault, .owned ownerSid (.recordQuarantine record quarantinePath)) ∈ run →
      (fault', .owned other (.recordQuarantine record' quarantinePath')) ∈ run →
        ownerSid ≠ other → record.id ≠ record'.id ∧ quarantinePath ≠ quarantinePath'
  rollbacks : ∀ fault ownerSid rollback fault' other rollback',
    (fault, .owned ownerSid (.recordResponseRollback rollback)) ∈ run →
      (fault', .owned other (.recordResponseRollback rollback')) ∈ run →
        ownerSid ≠ other → rollback.id ≠ rollback'.id

/-- Every quarantine and every rollback record was added by a call of the run for its owner. -/
structure Recorded (run : List (Fault × StoreAction)) (db : Database) : Prop where
  quarantines : ∀ id row, db.quarantines.lookup id = some row → ∃ fault record, record.id = id ∧
    (fault, .owned row.ownerSid (.recordQuarantine record row.quarantinePath)) ∈ run
  rollbacks : ∀ id row, db.rollbacks.lookup id = some row → ∃ fault rollback, rollback.id = id ∧
    (fault, .owned row.ownerSid (.recordResponseRollback rollback)) ∈ run

section runs

variable {fault : Fault} {ownerSid : String} {call : StoreCall} {db : Database}
  {run : List (Fault × StoreAction)}

/-- A quarantine that is there after a call was added by it or was there before. -/
theorem quarantines_serve {id : String} {row : StoredQuarantine}
    (h : (call.serve fault ownerSid db).2.quarantines.lookup id = some row) :
    (∃ record, call = .recordQuarantine record row.quarantinePath ∧ record.id = id ∧
        row.ownerSid = ownerSid) ∨
      ∃ old, db.quarantines.lookup id = some old ∧ old.ownerSid = row.ownerSid ∧
        old.quarantinePath = row.quarantinePath := by
  cases fault with
  | some error =>
      rw [(serve_some error call db db).2] at h
      exact Or.inr ⟨row, h, rfl, rfl⟩
  | none =>
      cases call with
      | recordQuarantine record quarantinePath =>
          simp only [StoreCall.serve, recordQuarantine, call_none] at h
          split_ifs at h
          · exact Or.inr ⟨row, h, rfl, rfl⟩
          · rcases Table.lookup_insert_eq_some_iff.mp h with ⟨rfl, rfl⟩ | ⟨-, h⟩
            · exact Or.inl ⟨record, rfl, rfl, rfl⟩
            · exact Or.inr ⟨row, h, rfl, rfl⟩
      | markQuarantineRestored quarantineId restoredAt restoredPath =>
          simp only [StoreCall.serve, markQuarantineRestored, call_none] at h
          cases hold : db.quarantines.lookup quarantineId with
          | none =>
              rw [hold] at h
              exact Or.inr ⟨row, h, rfl, rfl⟩
          | some old =>
              rw [hold] at h
              dsimp only at h
              split_ifs at h
              · rcases Table.lookup_insert_eq_some_iff.mp h with ⟨rfl, rfl⟩ | ⟨-, h⟩
                · exact Or.inr ⟨old, hold, rfl, rfl⟩
                · exact Or.inr ⟨row, h, rfl, rfl⟩
              · exact Or.inr ⟨row, h, rfl, rfl⟩
      | deleteQuarantine quarantineId =>
          simp only [StoreCall.serve, deleteQuarantine, call_none] at h
          cases hold : db.quarantines.lookup quarantineId with
          | none =>
              rw [hold] at h
              exact Or.inr ⟨row, h, rfl, rfl⟩
          | some old =>
              rw [hold] at h
              dsimp only at h
              split_ifs at h
              · by_cases hid : id = quarantineId
                · rw [hid, AList.lookup_erase] at h
                  cases h
                · rw [AList.lookup_erase_ne hid] at h
                  exact Or.inr ⟨row, h, rfl, rfl⟩
              · exact Or.inr ⟨row, h, rfl, rfl⟩
      | _ => exact Or.inr ⟨row, h, rfl, rfl⟩

/-- A rollback record that is there after a call was added by it or was there before. -/
theorem rollbacks_serve {id : String} {row : OwnedResponseRollback}
    (h : (call.serve fault ownerSid db).2.rollbacks.lookup id = some row) :
    (∃ rollback, call = .recordResponseRollback rollback ∧ rollback.id = id ∧
        row.ownerSid = ownerSid) ∨
      ∃ old, db.rollbacks.lookup id = some old ∧ old.ownerSid = row.ownerSid := by
  cases fault with
  | some error =>
      rw [(serve_some error call db db).2] at h
      exact Or.inr ⟨row, h, rfl⟩
  | none =>
      cases call with
      | recordResponseRollback rollback =>
          simp only [StoreCall.serve, recordResponseRollback, call_none] at h
          split_ifs at h
          · exact Or.inr ⟨row, h, rfl⟩
          · rcases Table.lookup_insert_eq_some_iff.mp h with ⟨rfl, rfl⟩ | ⟨-, h⟩
            · exact Or.inl ⟨rollback, rfl, rfl, rfl⟩
            · exact Or.inr ⟨row, h, rfl⟩
      | markResponseRestored id' restoredAt =>
          simp only [StoreCall.serve, markResponseRestored, call_none] at h
          cases hopen : (db.rollbacks.lookup id').filter (·.isOpenFor ownerSid) with
          | none =>
              rw [hopen] at h
              exact Or.inr ⟨row, h, rfl⟩
          | some old =>
              rw [hopen] at h
              rcases Table.lookup_insert_eq_some_iff.mp h with ⟨rfl, rfl⟩ | ⟨-, h⟩
              · exact Or.inr ⟨old, (Option.filter_eq_some_iff.mp hopen).1, rfl⟩
              · exact Or.inr ⟨row, h, rfl⟩
      | _ => exact Or.inr ⟨row, h, rfl⟩

/-- Every action of the run keeps the origin of the rows. -/
theorem recorded_storeStep {action : Fault × StoreAction} (hmem : action ∈ run)
    (h : Recorded run db) : Recorded run (storeStep db action).2 := by
  obtain ⟨fault, ⟨ownerSid, call⟩ | responseAction⟩ := action
  · constructor
    · intro id row hrow
      rcases quarantines_serve hrow with ⟨record, rfl, hid, howner⟩ | ⟨old, hold, howner, hpath⟩
      · exact ⟨fault, record, hid, howner ▸ hmem⟩
      · rw [← howner, ← hpath]
        exact h.quarantines id old hold
    · intro id row hrow
      rcases rollbacks_serve hrow with ⟨rollback, rfl, hid, howner⟩ | ⟨old, hold, howner⟩
      · exact ⟨fault, rollback, hid, howner ▸ hmem⟩
      · rw [← howner]
        exact h.rollbacks id old hold
  · exact h

/-- What a call of the run adds is not in use by another owner. -/
theorem Recorded.fresh (h : Recorded run db) (hunique : GloballyUnique run)
    (hmem : (fault, .owned ownerSid call) ∈ run) : Fresh ownerSid db call := by
  cases call with
  | recordQuarantine record quarantinePath =>
      intro id row hrow hne
      obtain ⟨fault', record', rfl, hmem'⟩ := h.quarantines id row hrow
      exact hunique.quarantines _ _ _ _ _ _ _ _ hmem' hmem hne
  | recordResponseRollback rollback =>
      intro row hrow
      obtain ⟨fault', rollback', hid, hmem'⟩ := h.rollbacks _ row hrow
      by_contra hne
      exact hunique.rollbacks _ _ _ _ _ _ hmem' hmem hne hid
  | _ => trivial

end runs

/-- **Isolation.** Deleting from a run all the calls for other owners changes no answer to a call
for the owner. -/
theorem storeTranscript_isolated (ownerSid : String) (run : List (Fault × StoreAction))
    (hunique : GloballyUnique run) :
    (transcript storeStep .created run).filter (fun entry => entry.1.2.isOf ownerSid) =
      (transcript storeStep .created (run.filter fun action => !action.2.isOfOther ownerSid)).filter
        fun entry => entry.1.2.isOf ownerSid := by
  refine transcript_filter storeStep (fun action => action.2.isOf ownerSid) _
    (R := fun s t => SameFor ownerSid s t ∧ Recorded run s ∧ Recorded run t) ?_ ?_ ?_ ?_
  · rintro ⟨fault, ⟨owner, call⟩ | responseAction⟩ hseen
    · simpa [StoreAction.isOf, StoreAction.isOfOther] using hseen
    · rfl
  · rintro ⟨fault, ⟨owner, call⟩ | responseAction⟩ hmem hkept s t ⟨hsame, hs, ht⟩
    · have howner : owner = ownerSid := by simpa [StoreAction.isOfOther] using hkept
      subst howner
      obtain ⟨hreply, hnext⟩ :=
        serve_congr fault hsame (hs.fresh hunique hmem) (ht.fresh hunique hmem)
      exact ⟨fun _ => hreply, hnext, recorded_storeStep hmem hs, recorded_storeStep hmem ht⟩
    · exact ⟨fun hseen => absurd hseen (by simp [StoreAction.isOf]), hsame, hs, ht⟩
  · rintro ⟨fault, ⟨owner, call⟩ | responseAction⟩ hmem hother s t ⟨hsame, hs, ht⟩
    · have hne : owner ≠ ownerSid := by simpa [StoreAction.isOfOther] using hother
      exact ⟨serve_other hne hsame, recorded_storeStep hmem hs, ht⟩
    · exact absurd rfl hother
  · have hcreated : Recorded run .created := by
      constructor <;> intro id row hrow <;> cases hrow
    exact ⟨.refl _, hcreated, hcreated⟩

/-- Two users who quarantine a file each. -/
def twoQuarantines : List (Fault × StoreAction) :=
  let record := fun id : String => ⟨id, "", "", "", "", none, none⟩
  [(none, .owned "S-1-5-21-1" (.recordQuarantine (record "first") "first.quarantine")),
    (none, .owned "S-1-5-21-2" (.recordQuarantine (record "second") "second.quarantine")),
    (none, .owned "S-1-5-21-2" (.listQuarantines 100)),
    (none, .owned "S-1-5-21-1" (.listQuarantines 100))]

theorem globallyUnique_twoQuarantines : GloballyUnique twoQuarantines := by
  constructor
  · intro fault ownerSid record path fault' other record' path' h h' hne
    simp only [twoQuarantines, List.mem_cons, Prod.mk.injEq, StoreAction.owned.injEq,
      StoreCall.recordQuarantine.injEq, reduceCtorEq, and_false, or_false, List.not_mem_nil] at h h'
    rcases h with ⟨-, rfl, rfl, rfl⟩ | ⟨-, rfl, rfl, rfl⟩ <;>
      rcases h' with ⟨-, rfl, rfl, rfl⟩ | ⟨-, rfl, rfl, rfl⟩
    · exact absurd rfl hne
    · decide
    · decide
    · exact absurd rfl hne
  · intro fault ownerSid rollback fault' other rollback' h
    simp [twoQuarantines] at h

theorem storeTranscript_isolated_twoQuarantines :
    (transcript storeStep .created twoQuarantines).filter
        (fun entry => entry.1.2.isOf "S-1-5-21-1") =
      (transcript storeStep .created
        (twoQuarantines.filter fun action => !action.2.isOfOther "S-1-5-21-1")).filter
          fun entry => entry.1.2.isOf "S-1-5-21-1" :=
  storeTranscript_isolated "S-1-5-21-1" twoQuarantines globallyUnique_twoQuarantines

end OpenGuard.Storage
