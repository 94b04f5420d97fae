import OpenGuard.Service.Quarantine
import OpenGuard.Service.Restore

/-!
# The round trip of a quarantined file

What a restore makes of a file that was quarantined. Between the two, the service serves any
requests, and the other processes change any files, the payload among them.

* `restoreQuarantine_ok`: what a restore that succeeds has done.
* `storeStep`: the service with its requests and the changes of the other processes;
  `servedInv_step` is what a record is there.
* `restore_undoes_quarantine`: the round trip, over every run between the two.
-/

namespace OpenGuard.Service

open OpenGuard.Lib OpenGuard.Domain OpenGuard.Storage

/-! ## One restore -/

/-- The row of a record that is closed. -/
def StoredQuarantine.close (stored : StoredQuarantine) (restoredAt restoredPath : String) :
    StoredQuarantine :=
  { stored with
    record :=
      { stored.record with
        restoredAt := some restoredAt
        restoredPath := some restoredPath } }

/-- A restore has copied the body of the payload, which has the recorded digest, to a destination
that was free, and has closed the record. -/
structure BodyRestored (sha256 : Bytes → String) (faults : RestoreFaults) (request : RestoreRequest)
    (stored : StoredQuarantine) (body : Bytes) (before after : QuarantineStore) : Prop where
  absent : before.files.lookup (request.destination stored) = none
  payload : before.files.lookup stored.quarantinePath = some (quarantineMagic ++ body)
  digest : sha256 body = stored.record.sha256
  unrestored : stored.record.restoredAt = none
  files : after.files = removeFile faults.removePayload stored.quarantinePath
    (before.files.insert (request.destination stored) body)
  rows : after.rows = before.rows.insert request.quarantineId
    (StoredQuarantine.close stored request.now.unixTimestamp (request.destination stored))

section restore

variable {sha256 : Bytes → String} {faults : RestoreFaults} {request : RestoreRequest}
  {store : QuarantineStore} {stored : StoredQuarantine} {body : Bytes}

/-- The record that is read is the row of the owner. -/
theorem quarantine_eq_some {ownerSid id : String} {rows : Quarantines} :
    quarantine none ownerSid id rows = .ok (some stored) ↔
      rows.lookup id = some stored ∧ stored.ownerSid = ownerSid := by
  unfold quarantine
  rw [call_none]
  simp only [Except.ok.injEq, Option.filter_eq_some_iff, beq_iff_eq]

/-- Once the destination is created and nothing fails any more, the digest decides. -/
theorem restoreQuarantine_eq_of_ends
    (hstored : quarantine none request.clientSid request.quarantineId store.rows =
      .ok (some stored))
    (h : CreatesDestination faults store stored (request.destination stored) body)
    (hends : RestoreEnds sha256 faults stored body) :
    (sha256 body = stored.record.sha256 → ∃ record after,
      restoreQuarantine sha256 faults request store = (.ok record, after) ∧
        BodyRestored sha256 faults request stored body store after) ∧
    (sha256 body ≠ stored.record.sha256 → ∃ error files,
      restoreQuarantine sha256 faults request store =
        (.error error, { store with files := files })) := by
  have hunrestored : ¬ stored.record.restoredAt.isSome := by simp [h.unrestored]
  have hcopied := (hashCopy_spec sha256 faults.copy (CopyState.exact_start body)).1 hends.copy
  obtain ⟨hrow, howner⟩ := quarantine_eq_some.mp hstored
  unfold restoreQuarantine
  rw [h.readRecord, hstored]
  dsimp only
  rw [if_neg hunrestored, restorePayload_of_created h, hcopied]
  dsimp only
  rw [hends.sync]
  simp only [Bool.false_eq_true, if_false]
  constructor
  · intro hdigest
    rw [if_neg (not_not.mpr hdigest)]
    unfold markQuarantineRestored
    rw [hends.markRestored hdigest, call_none, hrow]
    dsimp only
    rw [if_pos ⟨howner, h.unrestored⟩]
    exact ⟨_, _, rfl, h.absent, h.payload, hdigest, h.unrestored, rfl, rfl⟩
  · intro hdigest
    rw [if_pos hdigest]
    exact ⟨_, _, rfl⟩

/-- **What a restore does.** It fails, and the records are as they were; or it has restored the body
of the payload of a record of the client. -/
theorem restoreQuarantine_cases (sha256 : Bytes → String) (faults : RestoreFaults)
    (request : RestoreRequest) (store : QuarantineStore) :
    (∃ error files, restoreQuarantine sha256 faults request store =
        (.error error, { store with files := files })) ∨
      ∃ record after stored body, restoreQuarantine sha256 faults request store =
          (.ok record, after) ∧
        store.rows.lookup request.quarantineId = some stored ∧
        stored.ownerSid = request.clientSid ∧
        BodyRestored sha256 faults request stored body store after := by
  cases hread : quarantine none request.clientSid request.quarantineId store.rows with
  | error error => cases hread
  | ok found =>
      cases found with
      | none =>
          left
          unfold restoreQuarantine
          cases faults.readRecord with
          | some error => exact ⟨_, _, rfl⟩
          | none =>
              rw [hread]
              exact ⟨_, _, rfl⟩
      | some stored =>
          by_cases hcreated : ∃ body,
              CreatesDestination faults store stored (request.destination stored) body
          · obtain ⟨body, hcreated⟩ := hcreated
            by_cases hends : RestoreEnds sha256 faults stored body
            · obtain ⟨hok, herror⟩ := restoreQuarantine_eq_of_ends hread hcreated hends
              by_cases hdigest : sha256 body = stored.record.sha256
              · obtain ⟨record, after, hresult, hbody⟩ := hok hdigest
                obtain ⟨hrow, howner⟩ := quarantine_eq_some.mp hread
                exact .inr ⟨record, after, stored, body, hresult, hrow, howner, hbody⟩
              · exact .inl (herror hdigest)
            · obtain ⟨error, written, hresult⟩ := restoreQuarantine_of_not_ends hread hcreated hends
              exact .inl ⟨error, _, hresult⟩
          · push Not at hcreated
            obtain ⟨error, hresult⟩ := restoreQuarantine_of_not_created sha256 hread hcreated
            exact .inl ⟨error, store.files, hresult⟩

/-- When the destination cannot be created, whoever asks gets an error and nothing changes. -/
theorem restoreQuarantine_refused (sha256 : Bytes → String) (faults : RestoreFaults)
    (hrow : store.rows.lookup request.quarantineId = some stored)
    (hnot : ∀ body, ¬ CreatesDestination faults store stored (request.destination stored) body) :
    ∃ error, restoreQuarantine sha256 faults request store = (.error error, store) := by
  by_cases howner : stored.ownerSid = request.clientSid
  · exact restoreQuarantine_of_not_created sha256 (quarantine_eq_some.mpr ⟨hrow, howner⟩) hnot
  · -- the record of another owner is not found
    unfold restoreQuarantine quarantine
    cases faults.readRecord with
    | some error => exact ⟨_, rfl⟩
    | none =>
        have hnone : (some stored).filter (·.ownerSid == request.clientSid) = none := by
          simp [howner]
        rw [call_none, hrow, hnone]
        exact ⟨_, rfl⟩

/-- Where a restore has put a body, and what it leaves of the payload. -/
theorem BodyRestored.created {after : QuarantineStore}
    (h : BodyRestored sha256 faults request stored body store after) :
    after.files.lookup (request.destination stored) = some body ∧
      (faults.removePayload = false → after.files.lookup stored.quarantinePath = none) := by
  have hne : request.destination stored ≠ stored.quarantinePath := by
    intro heq
    have habsent := h.absent
    rw [heq, h.payload] at habsent
    cases habsent
  rw [h.files]
  unfold removeFile
  constructor
  · split_ifs
    · exact AList.lookup_insert _
    · rw [AList.lookup_erase_ne hne, AList.lookup_insert]
  · intro hremove
    rw [hremove]
    exact AList.lookup_erase _ _

end restore

/-! ## The service between the two -/

/-- The files and the records, and the ids of the restores that have succeeded. -/
structure ServedStore where
  store : QuarantineStore
  restored : List String

/-- A request that the service serves, or what other processes do to the files. A quarantine is
given by its effects; one that is cut off is one in which the service crashed. -/
inductive StoreAction where
  | quarantine (call : QuarantineCall) (effects : List QuarantineAction)
  | restore (request : RestoreRequest) (faults : RestoreFaults)
  | change (files : Files)

/-- One request is served, from its beginning to its end.
Source: `main.rs`, `handle_request` -/
def storeStep (sha256 : Bytes → String) (served : ServedStore) : StoreAction → Option ServedStore
  | .quarantine call effects =>
      (run (quarantineStep sha256 call) ⟨served.store.files, served.store.rows, .verifying⟩
        effects).map fun state => { served with store := ⟨state.files, state.rows⟩ }
  | .restore request faults =>
      match restoreQuarantine sha256 faults request served.store with
      | (.ok _, store) => some ⟨store, request.quarantineId :: served.restored⟩
      | (.error _, store) => some { served with store := store }
  | .change files => some { served with store := { served.store with files := files } }

/-- A row that was there before the call is as it was, and not of the record that the call may
delete. -/
def RowKept (id : String) (row : StoredQuarantine) (state : QuarantineState) : Prop :=
  state.rows.lookup id = some row ∧
    match state.phase with
    | .recorded plan | .removalFailed plan _ => plan.quarantineId ≠ id
    | _ => True

section served

variable {sha256 : Bytes → String} {call : QuarantineCall} {original : Bytes} {id : String}
  {row : StoredQuarantine} {state next : QuarantineState} {served after : ServedStore}

/-- The rows that an insertion leaves. -/
theorem lookup_of_recordQuarantine {fault : Fault} {plan : QuarantinePlan}
    {rows rows' : Quarantines} {result : Except StorageError Unit}
    (h : recordQuarantine fault call.clientSid (call.record plan) (call.payloadPath plan) rows =
      (result, rows'))
    (hrow : rows.lookup id = some row) :
    rows'.lookup id = some row ∧ (result = .ok () → plan.quarantineId ≠ id) := by
  unfold recordQuarantine at h
  cases fault with
  | some error =>
      obtain ⟨rfl, rfl⟩ := Prod.mk.inj h
      exact ⟨hrow, nofun⟩
  | none =>
      rw [call_none] at h
      split_ifs at h with hconflict
      · obtain ⟨rfl, rfl⟩ := Prod.mk.inj h
        exact ⟨hrow, nofun⟩
      · obtain ⟨rfl, rfl⟩ := Prod.mk.inj h
        have hne : plan.quarantineId ≠ id := by
          rintro rfl
          refine hconflict ?_
          unfold conflicts
          rw [show (call.record plan).id = plan.quarantineId from rfl, hrow]
          rfl
        exact ⟨(AList.lookup_insert_ne hne.symm).trans hrow, fun _ => hne⟩

/-- A deletion leaves the rows of the other ids. -/
theorem lookup_deleteQuarantine_ne {fault : Fault} {ownerSid other : String} {rows : Quarantines}
    (hne : id ≠ other) :
    (deleteQuarantine fault ownerSid other rows).2.lookup id = rows.lookup id := by
  unfold deleteQuarantine
  cases fault with
  | some error => rfl
  | none =>
      rw [call_none]
      split
      · rfl
      · split_ifs
        · exact AList.lookup_erase_ne hne
        · rfl

/-- Every effect of a call keeps the rows that were there. -/
theorem rowKept_step {action : QuarantineAction} (h : RowKept id row state)
    (hstep : quarantineStep sha256 call state action = some next) : RowKept id row next := by
  obtain ⟨files, rows, phase⟩ := state
  obtain ⟨hrow, hphase⟩ := h
  unfold quarantineStep at hstep
  split at hstep
  case h_8 =>
    dsimp only at hstep
    split_ifs at hstep <;> exact Option.some.inj hstep ▸ ⟨hrow, trivial⟩
  case h_12 =>
    split at hstep <;> exact Option.some.inj hstep ▸ ⟨hrow, trivial⟩
  case h_13 plan copy step _ =>
    obtain rfl := Option.some.inj hstep
    unfold copyStep
    split
    · exact ⟨hrow, trivial⟩
    · exact ⟨hrow, trivial⟩
    · dsimp only
      split_ifs <;> exact ⟨hrow, trivial⟩
  case h_14 plan fault _ =>
    -- the id that is inserted was free
    split at hstep
    · rename_i hrecord
      obtain rfl := Option.some.inj hstep
      exact ⟨(lookup_of_recordQuarantine hrecord hrow).1, trivial⟩
    · rename_i hrecord
      obtain rfl := Option.some.inj hstep
      have hkept := lookup_of_recordQuarantine hrecord hrow
      exact ⟨hkept.1, hkept.2 rfl⟩
  case h_15 plan message hrecorded =>
    obtain rfl := Option.some.inj hstep
    cases hrecorded
    exact ⟨hrow, hphase⟩
  case h_17 plan message fault hfailed =>
    obtain rfl := Option.some.inj hstep
    cases hfailed
    exact ⟨(lookup_deleteQuarantine_ne hphase.symm).trans hrow, trivial⟩
  -- no other effect is one on the records
  all_goals first
    | exact Option.some.inj hstep ▸ ⟨hrow, trivial⟩
    | cases hstep

/-- A call keeps the rows that were there. -/
theorem rowKept_run {files : Files} {rows : Quarantines} {effects : List QuarantineAction}
    (hrun : run (quarantineStep sha256 call) ⟨files, rows, .verifying⟩ effects = some state)
    (hrow : rows.lookup id = some row) : state.rows.lookup id = some row := by
  have hstart : RowKept id row ⟨files, rows, .verifying⟩ := ⟨hrow, trivial⟩
  exact (run_invariant (fun _ _ _ => rowKept_step) hstart hrun).1

/-- No record is restored twice, what was restored is closed, and a record that was not restored is
as it was. -/
structure ServedInv (id : String) (row : StoredQuarantine) (served : ServedStore) : Prop where
  once : served.restored.Nodup
  closed : ∀ other ∈ served.restored, ∃ found, served.store.rows.lookup other = some found ∧
    found.record.restoredAt ≠ none
  kept : id ∉ served.restored → served.store.rows.lookup id = some row

/-- **Every request and every change** keeps the invariant. -/
theorem servedInv_step {action : StoreAction} (h : ServedInv id row served)
    (hstep : storeStep sha256 served action = some after) : ServedInv id row after := by
  obtain ⟨⟨files, rows⟩, restored⟩ := served
  cases action with
  | quarantine call effects =>
      obtain ⟨state, hrun, rfl⟩ := Option.map_eq_some_iff.mp hstep
      refine ⟨h.once, fun other hother => ?_, fun hnot => rowKept_run hrun (h.kept hnot)⟩
      obtain ⟨found, hfound, hclosed⟩ := h.closed other hother
      exact ⟨found, rowKept_run hrun hfound, hclosed⟩
  | restore request faults =>
      unfold storeStep at hstep
      dsimp only at hstep
      obtain ⟨error, files', hresult⟩ | ⟨record, store, stored, body, hresult, hrow, -, hbody⟩ :=
        restoreQuarantine_cases sha256 faults request ⟨files, rows⟩
      · rw [hresult] at hstep
        obtain rfl := Option.some.inj hstep
        exact ⟨h.once, h.closed, h.kept⟩
      · rw [hresult] at hstep
        obtain rfl := Option.some.inj hstep
        -- a record that was restored before is closed, and would not be restored
        have hfresh : request.quarantineId ∉ restored := by
          intro hmem
          obtain ⟨found, hfound, hclosed⟩ := h.closed _ hmem
          obtain rfl := Option.some.inj (hrow.symm.trans hfound)
          exact hclosed hbody.unrestored
        refine ⟨List.nodup_cons.mpr ⟨hfresh, h.once⟩, fun other hother => ?_, fun hnot => ?_⟩
        · rw [hbody.rows]
          obtain rfl | hother := List.mem_cons.mp hother
          · exact ⟨_, AList.lookup_insert _, Option.some_ne_none _⟩
          · have hne : other ≠ request.quarantineId := fun heq => hfresh (heq ▸ hother)
            rw [AList.lookup_insert_ne hne]
            exact h.closed other hother
        · have hnot := not_or.mp (mt List.mem_cons.mpr hnot)
          rw [hbody.rows, AList.lookup_insert_ne hnot.1]
          exact h.kept hnot.2
  | change files' =>
      obtain rfl := Option.some.inj hstep
      exact ⟨h.once, h.closed, h.kept⟩

/-! ## The round trip -/

/-- Only the removal of the original returns a record. -/
theorem eq_of_quarantineStep_ok {action : QuarantineAction} {record : QuarantineRecord}
    (hstep : quarantineStep sha256 call state action = some next)
    (hok : next.phase = .returned (.ok record)) :
    ∃ plan, state.phase = .recorded plan ∧ next.files = state.files.erase call.sourcePath ∧
      next.rows = state.rows ∧ record = call.record plan := by
  unfold quarantineStep at hstep
  split at hstep
  case h_16 plan hrecorded =>
    obtain rfl := Option.some.inj hstep
    cases hok
    exact ⟨plan, hrecorded, rfl, rfl, rfl⟩
  case h_8 =>
    dsimp only at hstep
    split_ifs at hstep <;> exact absurd hok (Option.some.inj hstep ▸ nofun)
  case h_12 => split at hstep <;> exact absurd hok (Option.some.inj hstep ▸ nofun)
  case h_13 plan copy step _ =>
    obtain rfl := Option.some.inj hstep
    unfold copyStep at hok
    split at hok
    · cases hok
    · cases hok
    · split_ifs at hok
  case h_14 => split at hstep <;> exact absurd hok (Option.some.inj hstep ▸ nofun)
  all_goals first
    | exact absurd hok (Option.some.inj hstep ▸ nofun)
    | cases hstep

/-- The row of a record whose payload is whole. -/
structure InQuarantine (sha256 : Bytes → String) (original : Bytes) (id : String)
    (row : StoredQuarantine) (store : QuarantineStore) : Prop where
  stored : store.rows.lookup id = some row
  payload : store.files.lookup row.quarantinePath = some (quarantineMagic ++ original)
  digest : row.record.sha256 = sha256 original

/-- A call that returns a record has put the file in quarantine. -/
theorem inQuarantine_of_run {files : Files} {rows : Quarantines}
    {effects : List QuarantineAction} {record : QuarantineRecord}
    (horiginal : files.lookup call.sourcePath = some original)
    (hrun : run (quarantineStep sha256 call) ⟨files, rows, .verifying⟩ effects = some state)
    (hok : state.phase = .returned (.ok record)) :
    record.originalPath = call.sourcePath ∧
      ∃ path, InQuarantine sha256 original record.id ⟨call.clientSid, record, path⟩
        ⟨state.files, state.rows⟩ := by
  obtain rfl | ⟨before, last, rfl⟩ := List.eq_nil_or_concat effects
  · cases Option.some.inj hrun
    cases hok
  rw [List.concat_eq_append] at hrun
  obtain ⟨middle, hbefore, hlast⟩ := run_append_eq_some.mp hrun
  obtain ⟨_, hstep, hend⟩ := run_cons_eq_some.mp hlast
  obtain rfl := Option.some.inj hend
  obtain ⟨plan, hrecorded, hfiles, hrows, rfl⟩ := eq_of_quarantineStep_ok hstep hok
  have hstart : PhaseInv sha256 call original ⟨files, rows, .verifying⟩ := horiginal
  have hinv : PhaseInv sha256 call original middle :=
    run_invariant (fun _ _ _ => phaseInv_step) hstart hbefore
  unfold PhaseInv at hinv
  rw [hrecorded] at hinv
  obtain ⟨hapart, hpayload, hdigest, hrow⟩ := hinv
  refine ⟨rfl, call.payloadPath plan, ?_, ?_, hdigest⟩
  · rw [hrows]
    exact hrow
  · rw [hfiles]
    exact (AList.lookup_erase_ne hapart.2).trans hpayload

/-- What a restore does to an item with the original bytes, at the path of its payload. A success is
the first one, and undoes the quarantine; a destination that exists keeps its file; and an altered
payload is not restored, unless it has the digest of the original. -/
structure Undone (sha256 : Bytes → String) (original : Bytes) (id path destination : String)
    (removed : Bool) (served : ServedStore)
    (result : Except ApiError QuarantineRecord × QuarantineStore) : Prop where
  exact : ∀ record, result.1 = .ok record →
    served.store.files.lookup path = some (quarantineMagic ++ original) →
    result.2.files.lookup destination = some original
  absent : ∀ record, result.1 = .ok record → served.store.files.lookup destination = none
  closed : ∀ record, result.1 = .ok record →
    ∃ row, result.2.rows.lookup id = some row ∧ row.record.restoredAt ≠ none
  discarded : ∀ record, result.1 = .ok record → removed = true →
    result.2.files.lookup path = none
  first : ∀ record, result.1 = .ok record → id ∉ served.restored
  existing : ∀ content, served.store.files.lookup destination = some content →
    result.2.files.lookup destination = some content
  altered : ∀ body, served.store.files.lookup path = some (quarantineMagic ++ body) →
    sha256 body ≠ sha256 original → ∃ error, result.1 = .error error

/-- A restore that fails and leaves the destination undoes nothing. -/
theorem Undone.of_error {path destination : String} {removed : Bool} {error : ApiError}
    {result : Except ApiError QuarantineRecord × QuarantineStore}
    (herror : result.1 = .error error)
    (hexisting : ∀ content, served.store.files.lookup destination = some content →
      result.2.files.lookup destination = some content) :
    Undone sha256 original id path destination removed served result where
  exact _ hok := by cases herror.symm.trans hok
  absent _ hok := by cases herror.symm.trans hok
  closed _ hok := by cases herror.symm.trans hok
  discarded _ hok := by cases herror.symm.trans hok
  first _ hok := by cases herror.symm.trans hok
  existing := hexisting
  altered _ _ _ := ⟨error, herror⟩

/-- A restore that succeeds undoes the quarantine of a row with the digest of the original. -/
theorem BodyRestored.undone {faults : RestoreFaults} {request : RestoreRequest} {body : Bytes}
    {record : QuarantineRecord} {store : QuarantineStore}
    (h : BodyRestored sha256 faults request row body served.store store)
    (hdigest : row.record.sha256 = sha256 original)
    (hfirst : request.quarantineId ∉ served.restored) :
    Undone sha256 original request.quarantineId row.quarantinePath (request.destination row)
      (!faults.removePayload) served (.ok record, store) where
  exact _ _ hpayload := by
    obtain rfl := List.append_cancel_left (Option.some.inj (h.payload.symm.trans hpayload))
    exact h.created.1
  absent _ _ := h.absent
  closed _ _ := ⟨_, h.rows ▸ AList.lookup_insert _, Option.some_ne_none _⟩
  discarded _ _ hremoved := h.created.2 (by simpa using hremoved)
  first _ _ := hfirst
  existing content hcontent := by cases h.absent.symm.trans hcontent
  altered other hpayload hdiffers := by
    obtain rfl := List.append_cancel_left (Option.some.inj (h.payload.symm.trans hpayload))
    exact absurd (h.digest.trans hdigest) hdiffers

/-- **Restore undoes quarantine.** A call returns a record for a file with the original bytes. Over
every run of requests and changes of files from there, and for every restore of the record at its
end: no record has been restored twice, and what the restore does is `Undone`. -/
theorem restore_undoes_quarantine (sha256 : Bytes → String) (call : QuarantineCall)
    (original : Bytes) (files : Files) (rows : Quarantines) (effects : List QuarantineAction)
    (state : QuarantineState) (record : QuarantineRecord) (actions : List StoreAction)
    (served : ServedStore) (request : RestoreRequest) (faults : RestoreFaults)
    (horiginal : files.lookup call.sourcePath = some original)
    (hrun : run (quarantineStep sha256 call) ⟨files, rows, .verifying⟩ effects = some state)
    (hok : state.phase = .returned (.ok record))
    (hserved : run (storeStep sha256) ⟨⟨state.files, state.rows⟩, []⟩ actions = some served)
    (hrequest : request.quarantineId = record.id) :
    ∃ path, state.files.lookup path = some (quarantineMagic ++ original) ∧
      served.restored.Nodup ∧
      Undone sha256 original record.id path
        (request.requestedDestination.getD call.sourcePath) (!faults.removePayload) served
        (restoreQuarantine sha256 faults request served.store) := by
  obtain ⟨hsource, path, hitem⟩ := inQuarantine_of_run horiginal hrun hok
  have hstart : ServedInv record.id ⟨call.clientSid, record, path⟩
      ⟨⟨state.files, state.rows⟩, []⟩ :=
    ⟨List.nodup_nil, fun _ hother => absurd hother List.not_mem_nil, fun _ => hitem.stored⟩
  have hinv : ServedInv record.id ⟨call.clientSid, record, path⟩ served :=
    run_invariant (fun _ _ _ => servedInv_step) hstart hserved
  refine ⟨path, hitem.payload, hinv.once, ?_⟩
  by_cases hmem : record.id ∈ served.restored
  · -- the record is closed
    obtain ⟨found, hfound, hclosed⟩ := hinv.closed _ hmem
    obtain ⟨error, hresult⟩ := restoreQuarantine_refused sha256 faults
      (hrequest ▸ hfound) fun _ hcreated => hclosed hcreated.unrestored
    rw [hresult]
    exact .of_error rfl fun _ => id
  · have hrow := hinv.kept hmem
    rw [← hrequest] at hrow hmem ⊢
    rw [← hsource]
    obtain ⟨error, files', hresult⟩ | ⟨_, after, stored, body, hresult, hstored, -, hbody⟩ :=
      restoreQuarantine_cases sha256 faults request served.store
    · refine .of_error (congrArg Prod.fst hresult) fun content hcontent => ?_
      obtain ⟨_, hsame⟩ := restoreQuarantine_refused sha256 faults hrow
        fun _ hcreated => by cases hcreated.absent.symm.trans hcontent
      rw [hsame]
      exact hcontent
    · obtain rfl := Option.some.inj (hrow.symm.trans hstored)
      rw [hresult]
      exact hbody.undone hitem.digest hmem

/-- The request of the owner of `sampleCall` to restore what it put in quarantine. -/
def sampleRestore : RestoreRequest := ⟨sampleCall.clientSid, "q1", none, ⟨0, 1760000100⟩⟩

/-- The store after that call. -/
def sampleQuarantined : QuarantineStore := ⟨sampleEnd.files, sampleEnd.rows⟩

/-- `restore_undoes_quarantine` after `sampleActions`: the restore succeeds, and the file is
back. -/
theorem sample_round_trip :
    (restoreQuarantine sampleSha256 default sampleRestore sampleQuarantined).2.files.lookup
        sampleCall.sourcePath = some sampleContent ∧
      ∃ path, sampleEnd.files.lookup path = some (quarantineMagic ++ sampleContent) ∧
        ([] : List String).Nodup ∧
        Undone sampleSha256 sampleContent "q1" path sampleCall.sourcePath true
          ⟨sampleQuarantined, []⟩
          (restoreQuarantine sampleSha256 default sampleRestore sampleQuarantined) :=
  ⟨by decide,
    restore_undoes_quarantine sampleSha256 sampleCall sampleContent sampleFiles ∅ sampleActions
      sampleEnd (sampleCall.record ⟨"q1", ⟨sampleSha256 sampleContent, ["EICAR"]⟩⟩) []
      ⟨sampleQuarantined, []⟩ sampleRestore default (by decide) rfl rfl rfl rfl⟩

end served

end OpenGuard.Service
