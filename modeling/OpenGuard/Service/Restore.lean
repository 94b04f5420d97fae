import OpenGuard.Service.Baseline
import OpenGuard.Service.Payload
import OpenGuard.Storage.Quarantine

/-!
# Restoring a quarantined file

`restoreQuarantine` copies a payload to a destination that must not exist yet, checks the digest,
and closes the record. The environment chooses at which of its steps it fails.

* `restoreQuarantine_of_not_created`: up to the creation of the destination, a failure leaves
  everything as it was.
* `restorePayload_of_created`: what the copying into the new file leaves.
* `failed_restore_changes_nothing_iff`: a failed restore leaves no destination behind exactly when
  the copy and the flush go through and the record of an intact payload can be closed.
-/

namespace OpenGuard.Service

open OpenGuard.Lib OpenGuard.Domain OpenGuard.Storage

/-- The files and the quarantine records. -/
structure QuarantineStore where
  files : Files
  rows : Quarantines

/-- The steps of a restore that the environment lets fail. -/
structure RestoreFaults where
  readRecord : Fault
  openPayload : Bool
  readHeader : Bool
  impersonate : Option String
  createDirectory : Bool
  createDestination : Bool
  copy : List CopyStep
  sync : Bool
  removeDestination : Bool
  markRestored : Fault
  removePayload : Bool
  deriving Inhabited

/-- What the request asks for, and by whom. -/
structure RestoreRequest where
  clientSid : String
  quarantineId : String
  requestedDestination : Option String
  now : Clock

/-- The path to restore to.
Source: `main.rs`, `ServiceState::restore_quarantine` -/
def RestoreRequest.destination (request : RestoreRequest) (stored : StoredQuarantine) : String :=
  request.requestedDestination.getD stored.record.originalPath

/-- Removing a file, unless the environment lets it fail; the service ignores the result. -/
def removeFile (fails : Bool) (path : String) (files : Files) : Files :=
  if fails then files else files.erase path

section restore

variable (sha256 : Bytes → String) (faults : RestoreFaults)

/-- The digest of what was restored, or the message of the step that failed.
Source: `main.rs`, `restore_quarantine_payload` -/
def restorePayload (quarantinePath destination : String) (files : Files) :
    Except String String × Files :=
  match (if faults.openPayload then none else files.lookup quarantinePath) with
  | none => (.error "open quarantine payload", files)
  | some content =>
      if faults.readHeader ∨ content.length < quarantineMagic.length then
        (.error "read quarantine header", files)
      else if content.take quarantineMagic.length ≠ quarantineMagic then
        (.error "invalid or unsupported quarantine payload header", files)
      else
        match faults.impersonate with
        | some error => (.error ("impersonate authenticated client: " ++ error), files)
        | none =>
            if faults.createDirectory then (.error "create restore destination directory", files)
            else if faults.createDestination ∨ (files.lookup destination).isSome then
              (.error "create restore destination without overwriting", files)
            else
              let (copied, written) :=
                hashCopy sha256 faults.copy (.start (content.drop quarantineMagic.length))
              let files := files.insert destination written
              match copied with
              | .error message => (.error message, files)
              | .ok digest =>
                  if faults.sync then (.error "flush restored file", files)
                  else (.ok digest, files)

/-- Source: `main.rs`, `ServiceState::restore_quarantine` -/
def restoreQuarantine (request : RestoreRequest) (store : QuarantineStore) :
    Except ApiError QuarantineRecord × QuarantineStore :=
  match quarantine faults.readRecord request.clientSid request.quarantineId store.rows with
  | .error error =>
      (.error ⟨.internal, "Read quarantine record: " ++ error.display, true⟩, store)
  | .ok none =>
      (.error ⟨.notFound, "Quarantine item '" ++ request.quarantineId ++ "' was not found", false⟩,
        store)
  | .ok (some stored) =>
      if stored.record.restoredAt.isSome then
        (.error ⟨.conflict, "This quarantine item has already been restored", false⟩, store)
      else
        let destination := request.destination stored
        match restorePayload sha256 faults stored.quarantinePath destination store.files with
        | (.error error, files) =>
            (.error ⟨.conflict, "Restore quarantine item: " ++ error, false⟩,
              { store with files := files })
        | (.ok restoredHash, files) =>
            if restoredHash ≠ stored.record.sha256 then
              (.error ⟨.conflict, "Quarantine payload failed its SHA-256 integrity check", false⟩,
                { store with files := removeFile faults.removeDestination destination files })
            else
              let restoredAt := request.now.unixTimestamp
              match markQuarantineRestored faults.markRestored request.clientSid
                  request.quarantineId restoredAt destination store.rows with
              | (.error error, rows) =>
                  (.error ⟨.internal, "Record quarantine restore: " ++ error.display, true⟩,
                    ⟨files, rows⟩)
              | (.ok _, rows) =>
                  (.ok { stored.record with
                      restoredAt := some restoredAt
                      restoredPath := some destination },
                    ⟨removeFile faults.removePayload stored.quarantinePath files, rows⟩)

end restore

/-! ## When a failed restore leaves something behind -/

/-- Every step up to the creation of the destination goes through: the record is read and not
restored, the payload opens and has the header, and the destination is not there. `body` is the
payload after its header. -/
structure CreatesDestination (faults : RestoreFaults) (store : QuarantineStore)
    (stored : StoredQuarantine) (destination : String) (body : Bytes) : Prop where
  readRecord : faults.readRecord = none
  unrestored : stored.record.restoredAt = none
  openPayload : faults.openPayload = false
  payload : store.files.lookup stored.quarantinePath = some (quarantineMagic ++ body)
  readHeader : faults.readHeader = false
  impersonate : faults.impersonate = none
  createDirectory : faults.createDirectory = false
  createDestination : faults.createDestination = false
  absent : store.files.lookup destination = none

/-- Nothing is at the destination that was not there, the payload is unchanged, and so are the
records. -/
structure Undisturbed (destination quarantinePath : String) (before after : QuarantineStore) :
    Prop where
  destination : before.files.lookup destination = none → after.files.lookup destination = none
  payload : after.files.lookup quarantinePath = before.files.lookup quarantinePath
  rows : after.rows = before.rows

theorem Undisturbed.refl (destination quarantinePath : String) (store : QuarantineStore) :
    Undisturbed destination quarantinePath store store := ⟨id, rfl, rfl⟩

section trace

variable {sha256 : Bytes → String} {faults : RestoreFaults} {request : RestoreRequest}
  {store : QuarantineStore} {stored : StoredQuarantine} {body : Bytes} {destination : String}

/-- Once the destination can be created, the payload is copied into it; a failure leaves it
there. -/
theorem restorePayload_of_created
    (h : CreatesDestination faults store stored destination body) :
    restorePayload sha256 faults stored.quarantinePath destination store.files =
      let (copied, written) := hashCopy sha256 faults.copy (.start body)
      let files := store.files.insert destination written
      match copied with
      | .error message => (.error message, files)
      | .ok digest =>
          if faults.sync then (.error "flush restored file", files) else (.ok digest, files) := by
  unfold restorePayload
  have hlen : ¬ (quarantineMagic ++ body).length < quarantineMagic.length := by
    rw [List.length_append]
    omega
  simp only [h.openPayload, h.payload, h.readHeader, h.impersonate, h.createDirectory,
    h.createDestination, h.absent, hlen, List.take_left, List.drop_left, Bool.false_eq_true,
    if_false, false_or, Option.isSome_none, ne_eq, not_true_eq_false]

/-- When the destination is not created, restoring the payload fails and changes no file. -/
theorem restorePayload_of_not_created (sha256 : Bytes → String)
    (hreadRecord : faults.readRecord = none)
    (hunrestored : stored.record.restoredAt = none)
    (h : ∀ body, ¬ CreatesDestination faults store stored destination body) :
    ∃ message, restorePayload sha256 faults stored.quarantinePath destination store.files =
      (.error message, store.files) := by
  unfold restorePayload
  by_cases hopen : faults.openPayload
  · exact ⟨_, by rw [if_pos hopen]⟩
  rw [if_neg hopen]
  cases hpayload : store.files.lookup stored.quarantinePath with
  | none => exact ⟨_, rfl⟩
  | some content =>
      dsimp only
      by_cases hheader : faults.readHeader ∨ content.length < quarantineMagic.length
      · exact ⟨_, by rw [if_pos hheader]⟩
      rw [if_neg hheader]
      by_cases hmagic : content.take quarantineMagic.length ≠ quarantineMagic
      · exact ⟨_, by rw [if_pos hmagic]⟩
      rw [if_neg hmagic]
      cases himpersonate : faults.impersonate with
      | some error => exact ⟨_, rfl⟩
      | none =>
          dsimp only
          by_cases hdirectory : faults.createDirectory
          · exact ⟨_, by rw [if_pos hdirectory]⟩
          rw [if_neg hdirectory]
          by_cases hcreate : faults.createDestination ∨ (store.files.lookup destination).isSome
          · exact ⟨_, by rw [if_pos hcreate]⟩
          refine absurd ?_ (h (content.drop quarantineMagic.length))
          simp only [not_or, Bool.not_eq_true, Option.isSome_eq_false_iff,
            Option.isNone_iff_eq_none] at hopen hheader hdirectory hcreate
          have hcontent : content = quarantineMagic ++ content.drop quarantineMagic.length := by
            have hsplit := List.take_append_drop quarantineMagic.length content
            rw [not_not.mp hmagic] at hsplit
            exact hsplit.symm
          exact ⟨hreadRecord, hunrestored, hopen, hpayload.trans (congrArg some hcontent),
            hheader.1, himpersonate, hdirectory, hcreate.1, hcreate.2⟩

/-- When the destination is not created, a failed restore changes nothing. -/
theorem restoreQuarantine_of_not_created (sha256 : Bytes → String)
    (hstored : quarantine none request.clientSid request.quarantineId store.rows =
      .ok (some stored))
    (h : ∀ body, ¬ CreatesDestination faults store stored (request.destination stored) body) :
    ∃ error, restoreQuarantine sha256 faults request store = (.error error, store) := by
  unfold restoreQuarantine
  cases hread : faults.readRecord with
  | some error => exact ⟨_, rfl⟩
  | none =>
      rw [hstored]
      dsimp only
      by_cases hrestored : stored.record.restoredAt.isSome
      · exact ⟨_, by rw [if_pos hrestored]⟩
      rw [if_neg hrestored]
      simp only [Bool.not_eq_true, Option.isSome_eq_false_iff, Option.isNone_iff_eq_none]
        at hrestored
      obtain ⟨message, hpayload⟩ :=
        restorePayload_of_not_created sha256 hread hrestored h
      rw [hpayload]
      exact ⟨_, rfl⟩

/-- From the creation of the destination on, only a wrong digest can make the restore fail. -/
structure RestoreEnds (sha256 : Bytes → String) (faults : RestoreFaults)
    (stored : StoredQuarantine) (body : Bytes) : Prop where
  copy : copyCompletes faults.copy body.length = true
  sync : faults.sync = false
  markRestored : sha256 body = stored.record.sha256 → faults.markRestored = none

/-- A failure of the copy, of the flush, or of the database leaves the destination there. -/
theorem restoreQuarantine_of_not_ends
    (hstored : quarantine none request.clientSid request.quarantineId store.rows =
      .ok (some stored))
    (h : CreatesDestination faults store stored (request.destination stored) body)
    (hnot : ¬ RestoreEnds sha256 faults stored body) :
    ∃ error written, restoreQuarantine sha256 faults request store =
      (.error error,
        { store with files := store.files.insert (request.destination stored) written }) := by
  have hunrestored : ¬ stored.record.restoredAt.isSome := by simp [h.unrestored]
  unfold restoreQuarantine
  rw [h.readRecord, hstored]
  dsimp only
  rw [if_neg hunrestored, restorePayload_of_created h]
  obtain ⟨hcompletes, hfails⟩ := hashCopy_spec sha256 faults.copy (CopyState.exact_start body)
  by_cases hcopy : copyCompletes faults.copy body.length = true
  · rw [hcompletes hcopy]
    dsimp only
    by_cases hsync : faults.sync
    · rw [if_pos hsync]
      exact ⟨_, _, rfl⟩
    · rw [if_neg hsync]
      have hmark : ¬ (sha256 body = stored.record.sha256 → faults.markRestored = none) :=
        fun hmark => hnot ⟨hcopy, by simpa using hsync, hmark⟩
      rw [Classical.not_imp] at hmark
      obtain ⟨error, herror⟩ := Option.ne_none_iff_exists'.mp hmark.2
      dsimp only
      rw [if_neg (not_not.mpr hmark.1)]
      unfold markQuarantineRestored
      rw [herror]
      exact ⟨_, _, rfl⟩
  · obtain ⟨message, written, hcopied⟩ := hfails ((Bool.not_eq_true _).mp hcopy)
    rw [hcopied]
    exact ⟨_, _, rfl⟩

/-- Otherwise the restore succeeds, or a wrong digest makes it fail and the destination is
removed. -/
theorem restoreQuarantine_of_ends
    (hstored : quarantine none request.clientSid request.quarantineId store.rows =
      .ok (some stored))
    (h : CreatesDestination faults store stored (request.destination stored) body)
    (hremove : faults.removeDestination = false) (hends : RestoreEnds sha256 faults stored body) :
    (∃ record after, restoreQuarantine sha256 faults request store = (.ok record, after)) ∨
      ∃ error, restoreQuarantine sha256 faults request store =
        (.error error, { store with
          files := (store.files.insert (request.destination stored) body).erase
            (request.destination stored) }) := by
  have hunrestored : ¬ stored.record.restoredAt.isSome := by simp [h.unrestored]
  have hcopied := (hashCopy_spec sha256 faults.copy (CopyState.exact_start body)).1
    hends.copy
  unfold restoreQuarantine
  rw [h.readRecord, hstored]
  dsimp only
  rw [if_neg hunrestored, restorePayload_of_created h, hcopied]
  dsimp only
  rw [hends.sync]
  simp only [Bool.false_eq_true, if_false]
  by_cases hdigest : sha256 body = stored.record.sha256
  · left
    rw [if_neg (not_not.mpr hdigest)]
    unfold markQuarantineRestored
    rw [hends.markRestored hdigest, call_none]
    cases store.rows.lookup request.quarantineId with
    | none => exact ⟨_, _, rfl⟩
    | some row =>
        dsimp only
        split_ifs <;> exact ⟨_, _, rfl⟩
  · right
    rw [if_pos hdigest]
    unfold removeFile
    rw [hremove]
    exact ⟨_, rfl⟩

/-- **When a failed restore changes nothing.** For every stored record of the client, whatever
fails, given that removing the file just created succeeds: a restore that returns an error leaves
nothing at the destination, the payload and the records as they were, exactly when the destination
is not created, or the copy and the flush go through and the record of a payload with the right
digest can be closed. -/
theorem failed_restore_changes_nothing_iff (sha256 : Bytes → String) (faults : RestoreFaults)
    (request : RestoreRequest) (store : QuarantineStore) (stored : StoredQuarantine)
    (hstored : quarantine none request.clientSid request.quarantineId store.rows =
      .ok (some stored))
    (hremove : faults.removeDestination = false) :
    (∀ error, (restoreQuarantine sha256 faults request store).1 = .error error →
        Undisturbed (request.destination stored) stored.quarantinePath store
          (restoreQuarantine sha256 faults request store).2) ↔
      ∀ body, CreatesDestination faults store stored (request.destination stored) body →
        RestoreEnds sha256 faults stored body := by
  constructor
  · intro hundisturbed body hcreated
    by_contra hnot
    obtain ⟨error, written, hresult⟩ := restoreQuarantine_of_not_ends hstored hcreated hnot
    rw [hresult] at hundisturbed
    have habsent := (hundisturbed error rfl).destination hcreated.absent
    rw [AList.lookup_insert] at habsent
    exact absurd habsent (Option.some_ne_none _)
  · intro hends error herror
    by_cases hcreated : ∃ body,
        CreatesDestination faults store stored (request.destination stored) body
    · obtain ⟨body, hcreated⟩ := hcreated
      have hne : stored.quarantinePath ≠ request.destination stored := by
        intro heq
        have hpayload := hcreated.payload
        rw [heq, hcreated.absent] at hpayload
        exact absurd hpayload.symm (Option.some_ne_none _)
      rcases restoreQuarantine_of_ends hstored hcreated hremove (hends body hcreated) with
        ⟨record, after, hresult⟩ | ⟨error', hresult⟩
      · rw [hresult] at herror
        cases herror
      · rw [hresult]
        refine ⟨fun _ => AList.lookup_erase _ _, ?_, rfl⟩
        rw [AList.lookup_erase_ne hne, AList.lookup_insert_ne hne]
    · push Not at hcreated
      obtain ⟨error', hresult⟩ := restoreQuarantine_of_not_created sha256 hstored hcreated
      rw [hresult]
      exact Undisturbed.refl _ _ _

/-- A record of `sampleContent` in quarantine. -/
def sampleStored : StoredQuarantine where
  ownerSid := "S-1-5-21-1"
  record :=
    { id := "q1"
      originalPath := "C:\\Users\\me\\abc.txt"
      sha256 := sampleSha256 sampleContent
      reason := "EICAR"
      createdAt := "unix:1760000000"
      restoredAt := none
      restoredPath := none }
  quarantinePath := "C:\\ProgramData\\q1.quarantine"

/-- The store with that record and its payload. -/
def sampleStore : QuarantineStore where
  files := Table.collect [(sampleStored.quarantinePath, quarantineMagic ++ sampleContent)]
  rows := Table.collect [("q1", sampleStored)]

/-- The request of the owner to restore it to where it was. -/
def sampleRequest : RestoreRequest := ⟨"S-1-5-21-1", "q1", none, ⟨0, 1760000100⟩⟩

/-- The disk is full after one byte. -/
def diskFull : RestoreFaults := { (default : RestoreFaults) with copy := [.writeError 3 1] }

/-- `failed_restore_changes_nothing_iff` for a disk that is full after one byte. -/
theorem failed_restore_changes_nothing_diskFull :
    (∀ error, (restoreQuarantine sampleSha256 diskFull sampleRequest sampleStore).1 = .error error →
        Undisturbed (sampleRequest.destination sampleStored) sampleStored.quarantinePath sampleStore
          (restoreQuarantine sampleSha256 diskFull sampleRequest sampleStore).2) ↔
      ∀ body, CreatesDestination diskFull sampleStore sampleStored
          (sampleRequest.destination sampleStored) body →
        RestoreEnds sampleSha256 diskFull sampleStored body :=
  failed_restore_changes_nothing_iff sampleSha256 diskFull sampleRequest sampleStore sampleStored
    rfl rfl

/-- A write that fails leaves a partial file at the destination, and with it every further attempt
fails. -/
theorem failed_restore_leaves_file :
    let first := restoreQuarantine sampleSha256 diskFull sampleRequest sampleStore
    let second := restoreQuarantine sampleSha256 default sampleRequest first.2
    sampleStore.files.lookup "C:\\Users\\me\\abc.txt" = none ∧
      first.1 = .error ⟨.conflict, "Restore quarantine item: write file payload", false⟩ ∧
      first.2.files.lookup "C:\\Users\\me\\abc.txt" = some [97] ∧
      second.1 = .error ⟨.conflict,
        "Restore quarantine item: create restore destination without overwriting", false⟩ := by
  decide

end trace

end OpenGuard.Service
