import OpenGuard.Service.Quarantine

/-!
# A quarantine that fails

What a call of `quarantine_finding` that ends in an error leaves behind. The call cleans up at each
of its failures but two: a header that cannot be written leaves the payload file, and when the
original cannot be removed and the record cannot be deleted, the record stays.

* `FailureInv`: what holds in each phase, with the effects that have happened.
* `failed_quarantine_leaves_nothing_iff`: when a failed call leaves the files and the records as
  they were.
-/

namespace OpenGuard.Service

open OpenGuard.Lib OpenGuard.Domain OpenGuard.Storage

/-- The header of the payload could not be written. -/
def HeaderFailed (actions : List QuarantineAction) : Prop :=
  ∃ written, .writeHeader (some written) ∈ actions

/-- The record could not be deleted when the original could not be removed. -/
def RollBackFailed (actions : List QuarantineAction) : Prop :=
  ∃ error, .deleteRecord (some error) ∈ actions

/-- The removal of the payload file succeeds. -/
def DiscardsSucceed (actions : List QuarantineAction) : Prop :=
  .discard true ∉ actions

/-- Every file and every record is as it was. -/
structure Unchanged (files : Files) (rows : Quarantines) (state : QuarantineState) : Prop where
  files : ∀ path, state.files.lookup path = files.lookup path
  rows : ∀ id, state.rows.lookup id = rows.lookup id

/-- The original is untouched, and the call has left neither a file that it created nor an
unrestored record. -/
structure NothingLeft (call : QuarantineCall) (files : Files) (rows : Quarantines)
    (state : QuarantineState) : Prop where
  original : state.files.lookup call.sourcePath = files.lookup call.sourcePath
  noPayload : ∀ path, files.lookup path = none → state.files.lookup path = none
  noRecord : ∀ id row, state.rows.lookup id = some row → row.record.restoredAt = none →
    rows.lookup id = some row

/-- A file has been created, and the others are as they were. -/
structure PayloadCreated (path : String) (before files : Files) : Prop where
  absent : before.lookup path = none
  others : ∀ other, other ≠ path → files.lookup other = before.lookup other

/-- The record of the call has been inserted, and the others are as they were. -/
structure RecordInserted (call : QuarantineCall) (plan : QuarantinePlan)
    (before rows : Quarantines) : Prop where
  absent : before.lookup plan.quarantineId = none
  inserted : rows.lookup plan.quarantineId =
    some ⟨call.clientSid, call.record plan, call.payloadPath plan⟩
  others : ∀ id, id ≠ plan.quarantineId → rows.lookup id = before.lookup id

/-- What holds in each phase. While the call is not over, the header was written if it was tried,
and the record is there or not as the effects were. -/
def FailureInv (call : QuarantineCall) (files : Files) (rows : Quarantines)
    (actions : List QuarantineAction) (state : QuarantineState) : Prop :=
  match state.phase with
  | .verifying | .verified _ | .rootReady _ =>
      state.files = files ∧ state.rows = rows ∧ ¬ HeaderFailed actions ∧ ¬ RollBackFailed actions
  | .created plan | .headed plan | .copying plan _ | .matched plan =>
      PayloadCreated (call.payloadPath plan) files state.files ∧ state.rows = rows ∧
        ¬ HeaderFailed actions ∧ ¬ RollBackFailed actions
  | .recorded plan | .removalFailed plan _ =>
      PayloadCreated (call.payloadPath plan) files state.files ∧
        RecordInserted call plan rows state.rows ∧ ¬ HeaderFailed actions ∧ ¬ RollBackFailed actions
  | .discarding plan _ =>
      PayloadCreated (call.payloadPath plan) files state.files ∧ ¬ HeaderFailed actions ∧
        ((∀ id, state.rows.lookup id = rows.lookup id) ∧ ¬ RollBackFailed actions ∨
          RecordInserted call plan rows state.rows ∧ RollBackFailed actions)
  | .returned (.error _) => DiscardsSucceed actions →
      (¬ HeaderFailed actions ∧ ¬ RollBackFailed actions ∧ Unchanged files rows state) ∨
        (HeaderFailed actions ∨ RollBackFailed actions) ∧ ¬ NothingLeft call files rows state
  | .returned (.ok _) | .crashed => True

section failure

variable {sha256 : Bytes → String} {call : QuarantineCall} {plan : QuarantinePlan}
  {before files : Files} {rows rows' : Quarantines} {actions : List QuarantineAction}
  {state next : QuarantineState} {path : String}

theorem PayloadCreated.insert (h : PayloadCreated path before files) (content : Bytes) :
    PayloadCreated path before (files.insert path content) where
  absent := h.absent
  others other hother := (AList.lookup_insert_ne hother).trans (h.others other hother)

/-- Removing the file again restores the files. -/
theorem PayloadCreated.erase (h : PayloadCreated path before files) (other : String) :
    (files.erase path).lookup other = before.lookup other := by
  by_cases hsame : other = path
  · rw [hsame, AList.lookup_erase, h.absent]
  · rw [AList.lookup_erase_ne hsame, h.others other hsame]

/-- An inserted record was not there before. -/
theorem RecordInserted.of_recordQuarantine {fault : Fault}
    (h : recordQuarantine fault call.clientSid (call.record plan) (call.payloadPath plan) rows =
      (.ok (), rows')) : RecordInserted call plan rows rows' := by
  have hinserted := lookup_recordQuarantine h
  unfold recordQuarantine at h
  cases fault with
  | some error => cases h
  | none =>
      rw [call_none] at h
      by_cases hconflict : conflicts (call.record plan) (call.payloadPath plan) rows
      · rw [if_pos hconflict] at h
        cases h
      · rw [if_neg hconflict] at h
        obtain rfl := (Prod.mk.inj h).2
        unfold conflicts at hconflict
        simp only [Bool.or_eq_true, not_or, Bool.not_eq_true, Option.isSome_eq_false_iff,
          Option.isNone_iff_eq_none] at hconflict
        exact ⟨hconflict.1, hinserted, fun id hid => AList.lookup_insert_ne hid⟩

/-- A record that could not be inserted leaves the records. -/
theorem rows_of_recordQuarantine_error {fault : Fault} {error : StorageError}
    (h : recordQuarantine fault call.clientSid (call.record plan) (call.payloadPath plan) rows =
      (.error error, rows')) : rows' = rows := by
  unfold recordQuarantine at h
  cases fault with
  | some error => exact (Prod.mk.inj h).2.symm
  | none =>
      rw [call_none] at h
      split_ifs at h
      · exact (Prod.mk.inj h).2.symm
      · cases h

/-- Deleting the record again restores the records. -/
theorem RecordInserted.delete (h : RecordInserted call plan rows rows') (id : String) :
    (deleteQuarantine none call.clientSid plan.quarantineId rows').2.lookup id =
      rows.lookup id := by
  unfold deleteQuarantine
  rw [call_none, h.inserted]
  dsimp only
  rw [if_pos rfl]
  by_cases hsame : id = plan.quarantineId
  · rw [hsame, AList.lookup_erase, h.absent]
  · rw [AList.lookup_erase_ne hsame, h.others id hsame]

/-! ### The steps -/

theorem headerFailed_concat {action : QuarantineAction} :
    HeaderFailed (actions ++ [action]) ↔
      HeaderFailed actions ∨ ∃ written, action = .writeHeader (some written) := by
  simp only [HeaderFailed, List.mem_append, List.mem_singleton, exists_or, eq_comm]

theorem rollBackFailed_concat {action : QuarantineAction} :
    RollBackFailed (actions ++ [action]) ↔
      RollBackFailed actions ∨ ∃ error, action = .deleteRecord (some error) := by
  simp only [RollBackFailed, List.mem_append, List.mem_singleton, exists_or, eq_comm]

/-- An effect that is neither a header nor the deletion of a record keeps what has failed. -/
theorem failures_concat (actions : List QuarantineAction) (action : QuarantineAction)
    (hheader : ∀ written, action ≠ .writeHeader (some written))
    (hdelete : ∀ error, action ≠ .deleteRecord (some error)) :
    (HeaderFailed (actions ++ [action]) ↔ HeaderFailed actions) ∧
      (RollBackFailed (actions ++ [action]) ↔ RollBackFailed actions) := by
  rw [headerFailed_concat, rollBackFailed_concat]
  exact ⟨or_iff_left fun ⟨written, h⟩ => hheader written h,
    or_iff_left fun ⟨error, h⟩ => hdelete error h⟩

/-- An effect that is neither of the two fails neither of the two. -/
theorem noFailures_concat (h : ¬ HeaderFailed actions ∧ ¬ RollBackFailed actions)
    (action : QuarantineAction) (hheader : ∀ written, action ≠ .writeHeader (some written))
    (hdelete : ∀ error, action ≠ .deleteRecord (some error)) :
    ¬ HeaderFailed (actions ++ [action]) ∧ ¬ RollBackFailed (actions ++ [action]) := by
  obtain ⟨hheader, hdelete⟩ := failures_concat actions action hheader hdelete
  rwa [hheader, hdelete]

/-- A call that returns an error before it has changed anything. -/
theorem unchanged_of_noFailures (h : ¬ HeaderFailed actions ∧ ¬ RollBackFailed actions)
    (error : ApiError) :
    FailureInv call files rows actions ⟨files, rows, .returned (.error error)⟩ :=
  fun _ => .inl ⟨h.1, h.2, fun _ => rfl, fun _ => rfl⟩

/-- A copy that goes on, ends or fails has the payload file. -/
theorem failureInv_copyStep {copy : CopyState} (step : CopyStep)
    (hcreated : PayloadCreated (call.payloadPath plan) before files)
    (hfailures : ¬ HeaderFailed actions ∧ ¬ RollBackFailed actions) :
    FailureInv call before rows actions (copyStep sha256 call files rows plan copy step) := by
  unfold copyStep
  cases copyChunk step copy with
  | running next => exact ⟨hcreated.insert _, rfl, hfailures⟩
  | failed message written =>
      exact ⟨hcreated.insert _, hfailures.1, .inl ⟨fun _ => rfl, hfailures.2⟩⟩
  | finished =>
      dsimp only
      split_ifs
      · exact ⟨hcreated, hfailures.1, .inl ⟨fun _ => rfl, hfailures.2⟩⟩
      · exact ⟨hcreated, rfl, hfailures⟩

/-- **Every effect** keeps the invariant. -/
theorem failureInv_step {action : QuarantineAction}
    (h : FailureInv call before rows actions state)
    (hstep : quarantineStep sha256 call state action = some next) :
    FailureInv call before rows (actions ++ [action]) next := by
  obtain ⟨files, current, phase⟩ := state
  unfold quarantineStep at hstep
  cases phase with
  | verifying =>
      obtain ⟨rfl, rfl, hfailures⟩ := h
      cases action with
      | verify result =>
          have hnext := noFailures_concat hfailures (.verify result) nofun nofun
          cases result with
          | error error =>
              obtain rfl := Option.some.inj hstep
              exact unchanged_of_noFailures hnext error
          | ok finding =>
              obtain rfl := Option.some.inj hstep
              exact ⟨rfl, rfl, hnext⟩
      | crash =>
          obtain rfl := Option.some.inj hstep
          trivial
      | _ => cases hstep
  | verified finding =>
      obtain ⟨rfl, rfl, hfailures⟩ := h
      cases action with
      | createRoot failure =>
          have hnext := noFailures_concat hfailures (.createRoot failure) nofun nofun
          cases failure with
          | some error =>
              obtain rfl := Option.some.inj hstep
              exact unchanged_of_noFailures hnext _
          | none =>
              obtain rfl := Option.some.inj hstep
              exact ⟨rfl, rfl, hnext⟩
      | crash =>
          obtain rfl := Option.some.inj hstep
          trivial
      | _ => cases hstep
  | rootReady finding =>
      obtain ⟨rfl, rfl, hfailures⟩ := h
      cases action with
      | createPayload quarantineId fails =>
          have hnext := noFailures_concat hfailures (.createPayload quarantineId fails) nofun nofun
          dsimp only at hstep
          split_ifs at hstep with hfails
          · obtain rfl := Option.some.inj hstep
            exact unchanged_of_noFailures hnext _
          · obtain rfl := Option.some.inj hstep
            -- the payload has a path that was free
            simp only [not_or, Bool.not_eq_true, Option.isSome_eq_false_iff,
              Option.isNone_iff_eq_none] at hfails
            have hcreated : PayloadCreated (call.payloadPath ⟨quarantineId, finding⟩) files files :=
              ⟨hfails.2, fun _ _ => rfl⟩
            exact ⟨hcreated.insert [], rfl, hnext⟩
      | crash =>
          obtain rfl := Option.some.inj hstep
          trivial
      | _ => cases hstep
  | created plan =>
      obtain ⟨hcreated, rfl, hfailures⟩ := h
      cases action with
      | writeHeader failsAfter =>
          cases failsAfter with
          | some written =>
              obtain rfl := Option.some.inj hstep
              -- the payload file stays
              refine fun _ => .inr ⟨.inl (headerFailed_concat.mpr (.inr ⟨written, rfl⟩)), ?_⟩
              intro hnothing
              have habsent := hnothing.noPayload _ hcreated.absent
              rw [AList.lookup_insert] at habsent
              cases habsent
          | none =>
              have hnext := noFailures_concat hfailures (.writeHeader none) nofun nofun
              obtain rfl := Option.some.inj hstep
              exact ⟨hcreated.insert _, rfl, hnext⟩
      | crash =>
          obtain rfl := Option.some.inj hstep
          trivial
      | _ => cases hstep
  | headed plan =>
      obtain ⟨hcreated, rfl, hfailures⟩ := h
      cases action with
      | openSource failure =>
          have hnext := noFailures_concat hfailures (.openSource failure) nofun nofun
          cases failure with
          | some message =>
              obtain rfl := Option.some.inj hstep
              exact ⟨hcreated, hnext.1, .inl ⟨fun _ => rfl, hnext.2⟩⟩
          | none =>
              dsimp only at hstep
              cases hsource : files.lookup call.sourcePath with
              | none =>
                  rw [hsource] at hstep
                  obtain rfl := Option.some.inj hstep
                  exact ⟨hcreated, hnext.1, .inl ⟨fun _ => rfl, hnext.2⟩⟩
              | some content =>
                  rw [hsource] at hstep
                  obtain rfl := Option.some.inj hstep
                  exact ⟨hcreated, rfl, hnext⟩
      | crash =>
          obtain rfl := Option.some.inj hstep
          trivial
      | _ => cases hstep
  | copying plan copy =>
      obtain ⟨hcreated, rfl, hfailures⟩ := h
      cases action with
      | copy step =>
          obtain rfl := Option.some.inj hstep
          exact failureInv_copyStep step hcreated
            (noFailures_concat hfailures (.copy step) nofun nofun)
      | crash =>
          obtain rfl := Option.some.inj hstep
          trivial
      | _ => cases hstep
  | matched plan =>
      obtain ⟨hcreated, rfl, hfailures⟩ := h
      cases action with
      | record fault =>
          have hnext := noFailures_concat hfailures (.record fault) nofun nofun
          dsimp only at hstep
          cases hrecord : recordQuarantine fault call.clientSid (call.record plan)
              (call.payloadPath plan) current with
          | mk result rows' =>
              rw [hrecord] at hstep
              cases result with
              | error error =>
                  obtain rfl := Option.some.inj hstep
                  obtain rfl := rows_of_recordQuarantine_error hrecord
                  exact ⟨hcreated, hnext.1, .inl ⟨fun _ => rfl, hnext.2⟩⟩
              | ok done =>
                  obtain rfl := Option.some.inj hstep
                  exact ⟨hcreated, .of_recordQuarantine hrecord, hnext⟩
      | crash =>
          obtain rfl := Option.some.inj hstep
          trivial
      | _ => cases hstep
  | recorded plan =>
      obtain ⟨hcreated, hinserted, hfailures⟩ := h
      cases action with
      | removeOriginal failure =>
          have hnext := noFailures_concat hfailures (.removeOriginal failure) nofun nofun
          cases failure with
          | some message =>
              obtain rfl := Option.some.inj hstep
              exact ⟨hcreated, hinserted, hnext⟩
          | none =>
              obtain rfl := Option.some.inj hstep
              trivial
      | crash =>
          obtain rfl := Option.some.inj hstep
          trivial
      | _ => cases hstep
  | removalFailed plan message =>
      obtain ⟨hcreated, hinserted, hfailures⟩ := h
      cases action with
      | deleteRecord fault =>
          obtain rfl := Option.some.inj hstep
          cases fault with
          | none =>
              have hnext := noFailures_concat hfailures (.deleteRecord none) nofun nofun
              exact ⟨hcreated, hnext.1, .inl ⟨hinserted.delete, hnext.2⟩⟩
          | some error =>
              refine ⟨hcreated, ?_, .inr ⟨hinserted, ?_⟩⟩
              · rw [headerFailed_concat]
                exact not_or.mpr ⟨hfailures.1, nofun⟩
              · exact rollBackFailed_concat.mpr (.inr ⟨error, rfl⟩)
      | crash =>
          obtain rfl := Option.some.inj hstep
          trivial
      | _ => cases hstep
  | discarding plan error =>
      obtain ⟨hcreated, hheader, hrows⟩ := h
      cases action with
      | discard fails =>
          obtain rfl := Option.some.inj hstep
          intro hdiscards
          obtain ⟨hheaders, hrollBacks⟩ := failures_concat actions (.discard fails) nofun nofun
          rw [hheaders, hrollBacks]
          cases fails with
          | true => exact absurd (List.mem_append_right _ (List.mem_singleton_self _)) hdiscards
          | false =>
              obtain ⟨hsame, hrollBack⟩ | ⟨hinserted, hrollBack⟩ := hrows
              · exact .inl ⟨hheader, hrollBack, hcreated.erase, hsame⟩
              · -- the record stays, without its payload
                refine .inr ⟨.inr hrollBack, fun hnothing => ?_⟩
                have hbefore := hnothing.noRecord _ _ hinserted.inserted rfl
                cases hinserted.absent.symm.trans hbefore
      | crash =>
          obtain rfl := Option.some.inj hstep
          trivial
      | _ => cases hstep
  | returned result => cases hstep
  | crashed => cases hstep

/-- What was unchanged has nothing left. -/
theorem Unchanged.nothingLeft (h : Unchanged files rows state) :
    NothingLeft call files rows state where
  original := h.files _
  noPayload path habsent := (h.files path).trans habsent
  noRecord id _ hrow _ := (h.rows id).symm.trans hrow

/-- **A failed quarantine leaves nothing** exactly when the header was not what failed, and the
deletion of the record, when the original could not be removed, did not fail too. Then every file
and every record is as before. -/
theorem failed_quarantine_leaves_nothing_iff (sha256 : Bytes → String) (call : QuarantineCall)
    (files : Files) (rows : Quarantines) (actions : List QuarantineAction) (state : QuarantineState)
    (error : ApiError)
    (hrun : run (quarantineStep sha256 call) ⟨files, rows, .verifying⟩ actions = some state)
    (hfailed : state.phase = .returned (.error error)) (hdiscards : DiscardsSucceed actions) :
    (NothingLeft call files rows state ↔ ¬ HeaderFailed actions ∧ ¬ RollBackFailed actions) ∧
      (¬ HeaderFailed actions ∧ ¬ RollBackFailed actions → Unchanged files rows state) := by
  have hstart : FailureInv call files rows [] ⟨files, rows, .verifying⟩ :=
    ⟨rfl, rfl, by simp [HeaderFailed], by simp [RollBackFailed]⟩
  have hinv : FailureInv call files rows actions state :=
    run_history_invariant hstart (fun _ _ _ _ => failureInv_step) hrun
  obtain ⟨after, rows', phase⟩ := state
  obtain rfl : phase = .returned (.error error) := hfailed
  obtain ⟨hheader, hrollBack, hunchanged⟩ | ⟨hfailure, hleft⟩ := hinv hdiscards
  · exact ⟨iff_of_true hunchanged.nothingLeft ⟨hheader, hrollBack⟩, fun _ => hunchanged⟩
  · have hnot : ¬ (¬ HeaderFailed actions ∧ ¬ RollBackFailed actions) := by
      rwa [← not_or, not_not]
    exact ⟨iff_of_false hleft hnot, fun hnone => absurd hnone hnot⟩

/-- A run in which the original cannot be removed, and everything is rolled back. -/
def rolledBackActions : List QuarantineAction :=
  [.verify (.ok ⟨sampleSha256 sampleContent, ["EICAR"]⟩), .createRoot none,
    .createPayload "q1" false, .writeHeader none, .openSource none, .copy (.copied 2),
    .copy (.copied 2), .copy (.copied 2), .record none, .removeOriginal (some "access is denied"),
    .deleteRecord none, .discard false]

/-- The states at the end of runs of `sampleCall`. -/
def failedEnd (actions : List QuarantineAction) : QuarantineState :=
  (run (quarantineStep sampleSha256 sampleCall) ⟨sampleFiles, ∅, .verifying⟩ actions).getD
    ⟨∅, ∅, .crashed⟩

/-- `failed_quarantine_leaves_nothing_iff` at that run. -/
theorem rolledBack_leaves_nothing :
    NothingLeft sampleCall sampleFiles ∅ (failedEnd rolledBackActions) := by
  have hnone : ¬ HeaderFailed rolledBackActions ∧ ¬ RollBackFailed rolledBackActions := by
    simp [HeaderFailed, RollBackFailed, rolledBackActions]
  exact (failed_quarantine_leaves_nothing_iff sampleSha256 sampleCall sampleFiles ∅
    rolledBackActions (failedEnd rolledBackActions) _ rfl rfl
    (by simp [DiscardsSucceed, rolledBackActions])).1.mpr hnone

/-- The disk is full when the header is written. -/
def fullDiskActions : List QuarantineAction :=
  [.verify (.ok ⟨sampleSha256 sampleContent, ["EICAR"]⟩), .createRoot none,
    .createPayload "q1" false, .writeHeader (some 0)]

/-- A header that cannot be written leaves an empty payload file. -/
theorem full_disk_leaves_payload :
    ¬ ∀ (sha256 : Bytes → String) (call : QuarantineCall) (files : Files) (rows : Quarantines)
        (actions : List QuarantineAction) (state : QuarantineState) (error : ApiError),
      run (quarantineStep sha256 call) ⟨files, rows, .verifying⟩ actions = some state →
      state.phase = .returned (.error error) → DiscardsSucceed actions →
      NothingLeft call files rows state := by
  intro h
  have hnothing := h sampleSha256 sampleCall sampleFiles ∅ fullDiskActions
    (failedEnd fullDiskActions) _ rfl rfl (by simp [DiscardsSucceed, fullDiskActions])
  have habsent := hnothing.noPayload "C:\\ProgramData\\quarantine\\q1.quarantine" (by decide)
  exact absurd habsent (by decide)

end failure

end OpenGuard.Service
