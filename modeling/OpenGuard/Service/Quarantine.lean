import OpenGuard.Lib.Run
import OpenGuard.Lib.Text
import OpenGuard.Service.Baseline
import OpenGuard.Service.Payload
import OpenGuard.Storage.Quarantine

/-!
# Quarantining a file

`quarantine_finding` as a machine: each action is one effect on the files or on the records, with
the outcome that the environment chooses, and the service can crash before any of them. The phase
says which effects come next.

* `PhaseInv`: what holds in each phase. Up to the removal of the original the original is there;
  when it is removed, the payload is complete and recorded.
* `phaseInv_step`: every action preserves it.
* `quarantine_keeps_file`: so in no state that a run passes is the file lost.
-/

namespace OpenGuard.Service

open OpenGuard.Lib OpenGuard.Domain OpenGuard.Storage

/-! ## The machine -/

/-- What is fixed during one call: the client, the quarantine directory, the path of the finding,
and the clock. -/
structure QuarantineCall where
  clientSid : String
  quarantineRoot : String
  sourcePath : String
  now : Clock

/-- What the verification of the candidate says about the file. -/
structure VerifiedFinding where
  sha256 : String
  reasons : List String
  deriving DecidableEq, Inhabited

/-- The quarantine that is being made. -/
structure QuarantinePlan where
  quarantineId : String
  finding : VerifiedFinding
  deriving DecidableEq, Inhabited

/-- Source: `main.rs`, `ServiceState::quarantine_finding` -/
def QuarantineCall.payloadPath (call : QuarantineCall) (plan : QuarantinePlan) : String :=
  call.quarantineRoot ++ "\\" ++ plan.quarantineId ++ ".quarantine"

/-- Source: `main.rs`, `ServiceState::quarantine_finding` -/
def QuarantineCall.record (call : QuarantineCall) (plan : QuarantinePlan) : QuarantineRecord where
  id := plan.quarantineId
  originalPath := call.sourcePath
  sha256 := plan.finding.sha256
  reason := joinWith "; " plan.finding.reasons
  createdAt := call.now.unixTimestamp
  restoredAt := none
  restoredPath := none

/-- Where the call stands. In `discarding` the payload is about to be removed and the error to be
returned. -/
inductive QuarantinePhase where
  | verifying
  | verified (finding : VerifiedFinding)
  | rootReady (finding : VerifiedFinding)
  | created (plan : QuarantinePlan)
  | headed (plan : QuarantinePlan)
  | copying (plan : QuarantinePlan) (copy : CopyState)
  | matched (plan : QuarantinePlan)
  | recorded (plan : QuarantinePlan)
  | removalFailed (plan : QuarantinePlan) (message : String)
  | discarding (plan : QuarantinePlan) (error : ApiError)
  | returned (result : Except ApiError QuarantineRecord)
  | crashed

/-- The files, the records, and where the call stands. -/
structure QuarantineState where
  files : Files
  rows : Quarantines
  phase : QuarantinePhase

/-- An effect with the outcome the environment chooses. A message is that of the failure; the
header is written whole or fails after some bytes; `createPayload` also draws the id. -/
inductive QuarantineAction where
  | verify (result : Except ApiError VerifiedFinding)
  | createRoot (failure : Option String)
  | createPayload (quarantineId : String) (fails : Bool)
  | writeHeader (failsAfter : Option ℕ)
  | openSource (failure : Option String)
  | copy (step : CopyStep)
  | record (fault : Fault)
  | removeOriginal (failure : Option String)
  | deleteRecord (fault : Fault)
  | discard (fails : Bool)
  | crash

/-- The error of a payload that could not be written.
Source: `main.rs`, `ServiceState::quarantine_finding` -/
def copyError (message : String) : ApiError :=
  ⟨.conflict, "Copy file into quarantine: " ++ message, false⟩

section step

variable (sha256 : Bytes → String) (call : QuarantineCall)

/-- One turn of the copying loop. At its end the digest is compared with that of the finding.
Source: `main.rs`, `write_quarantine_payload`, `ServiceState::quarantine_finding` -/
def copyStep (files : Files) (rows : Quarantines) (plan : QuarantinePlan) (copy : CopyState)
    (step : CopyStep) : QuarantineState :=
  match copyChunk step copy with
  | .running next =>
      ⟨files.insert (call.payloadPath plan) (quarantineMagic ++ next.written), rows,
        .copying plan next⟩
  | .failed message written =>
      ⟨files.insert (call.payloadPath plan) (quarantineMagic ++ written), rows,
        .discarding plan (copyError message)⟩
  | .finished =>
      if sha256 copy.hashed ≠ plan.finding.sha256 then
        ⟨files, rows, .discarding plan
          ⟨.conflict, "The file changed while it was being quarantined; scan it again", false⟩⟩
      else ⟨files, rows, .matched plan⟩

/-- One effect of the call.
Source: `main.rs`, `ServiceState::quarantine_finding`, `write_quarantine_payload` -/
def quarantineStep (state : QuarantineState) (action : QuarantineAction) : Option QuarantineState :=
  match state.phase, action with
  | .returned _, _ => none
  | .crashed, _ => none
  | _, .crash => some { state with phase := .crashed }
  | .verifying, .verify (.error error) => some { state with phase := .returned (.error error) }
  | .verifying, .verify (.ok finding) => some { state with phase := .verified finding }
  | .verified _, .createRoot (some error) =>
      some { state with
        phase := .returned
          (.error ⟨.internal, "Create quarantine directory: " ++ error, true⟩) }
  | .verified finding, .createRoot none => some { state with phase := .rootReady finding }
  | .rootReady finding, .createPayload quarantineId fails =>
      let plan := ⟨quarantineId, finding⟩
      if fails ∨ (state.files.lookup (call.payloadPath plan)).isSome then
        some { state with
          phase := .returned (.error (copyError "create defanged quarantine payload")) }
      else
        some { state with
          files := state.files.insert (call.payloadPath plan) []
          phase := .created plan }
  -- a header that fails is not removed
  | .created plan, .writeHeader (some written) =>
      some { state with
        files := state.files.insert (call.payloadPath plan) (quarantineMagic.take written)
        phase := .returned (.error (copyError "write quarantine header")) }
  | .created plan, .writeHeader none =>
      some { state with
        files := state.files.insert (call.payloadPath plan) quarantineMagic
        phase := .headed plan }
  | .headed plan, .openSource (some message) =>
      some { state with phase := .discarding plan (copyError message) }
  | .headed plan, .openSource none =>
      match state.files.lookup call.sourcePath with
      | none =>
          some { state with
            phase := .discarding plan (copyError "open quarantine source as client") }
      | some content => some { state with phase := .copying plan (.start content) }
  | .copying plan copy, .copy step =>
      some (copyStep sha256 call state.files state.rows plan copy step)
  | .matched plan, .record fault =>
      match recordQuarantine fault call.clientSid (call.record plan) (call.payloadPath plan)
          state.rows with
      | (.error error, rows) =>
          some { state with
            rows := rows
            phase := .discarding plan
              ⟨.internal, "Record quarantine operation: " ++ error.display, true⟩ }
      | (.ok (), rows) => some { state with rows := rows, phase := .recorded plan }
  | .recorded plan, .removeOriginal (some message) =>
      some { state with phase := .removalFailed plan message }
  | .recorded plan, .removeOriginal none =>
      some { state with
        files := state.files.erase call.sourcePath
        phase := .returned (.ok (call.record plan)) }
  | .removalFailed plan message, .deleteRecord fault =>
      some { state with
        rows := (deleteQuarantine fault call.clientSid plan.quarantineId state.rows).2
        phase := .discarding plan
          ⟨.conflict, "Remove original after verified quarantine copy: " ++ message, false⟩ }
  | .discarding plan error, .discard fails =>
      some { state with
        files := if fails then state.files else state.files.erase (call.payloadPath plan)
        phase := .returned (.error error) }
  | _, _ => none

end step

/-! ## The file is kept -/

/-- The original path has the original bytes, or an unrestored record of the client with their
digest names a payload that is the header followed by them. -/
def FileKept (sha256 : Bytes → String) (call : QuarantineCall) (original : Bytes)
    (state : QuarantineState) : Prop :=
  state.files.lookup call.sourcePath = some original ∨
    ∃ id row, state.rows.lookup id = some row ∧ row.ownerSid = call.clientSid ∧
      row.record.restoredAt = none ∧ row.record.sha256 = sha256 original ∧
      state.files.lookup row.quarantinePath = some (quarantineMagic ++ original)

/-- The original is there, and the payload is another file. -/
def Apart (call : QuarantineCall) (original : Bytes) (plan : QuarantinePlan) (files : Files) :
    Prop :=
  files.lookup call.sourcePath = some original ∧ call.payloadPath plan ≠ call.sourcePath

/-- The payload is the header followed by the content. -/
def PayloadIs (call : QuarantineCall) (plan : QuarantinePlan) (content : Bytes) (files : Files) :
    Prop :=
  files.lookup (call.payloadPath plan) = some (quarantineMagic ++ content)

/-- What holds in each phase. -/
def PhaseInv (sha256 : Bytes → String) (call : QuarantineCall) (original : Bytes)
    (state : QuarantineState) : Prop :=
  match state.phase with
  | .verifying | .verified _ | .rootReady _ => state.files.lookup call.sourcePath = some original
  | .created plan => Apart call original plan state.files
  | .headed plan => Apart call original plan state.files ∧ PayloadIs call plan [] state.files
  | .copying plan copy =>
      Apart call original plan state.files ∧ PayloadIs call plan copy.written state.files ∧
        copy.Exact original
  | .matched plan =>
      Apart call original plan state.files ∧ PayloadIs call plan original state.files ∧
        plan.finding.sha256 = sha256 original
  | .recorded plan =>
      Apart call original plan state.files ∧ PayloadIs call plan original state.files ∧
        plan.finding.sha256 = sha256 original ∧
        state.rows.lookup plan.quarantineId =
          some ⟨call.clientSid, call.record plan, call.payloadPath plan⟩
  | .removalFailed plan _ | .discarding plan _ => Apart call original plan state.files
  | .returned _ | .crashed => FileKept sha256 call original state

section keep

variable {sha256 : Bytes → String} {call : QuarantineCall} {original content : Bytes}
  {plan : QuarantinePlan} {files : Files} {state next : QuarantineState}

/-- Writing the payload leaves the original. -/
theorem Apart.insert (h : Apart call original plan files) (content : Bytes) :
    Apart call original plan (files.insert (call.payloadPath plan) content) :=
  ⟨(AList.lookup_insert_ne h.2.symm).trans h.1, h.2⟩

/-- In every phase the file is kept. -/
theorem PhaseInv.fileKept (h : PhaseInv sha256 call original state) :
    FileKept sha256 call original state := by
  obtain ⟨files, rows, phase⟩ := state
  cases phase with
  | verifying => exact Or.inl h
  | verified finding => exact Or.inl h
  | rootReady finding => exact Or.inl h
  | created plan => exact Or.inl h.1
  | headed plan => exact Or.inl h.1.1
  | copying plan copy => exact Or.inl h.1.1
  | matched plan => exact Or.inl h.1.1
  | recorded plan => exact Or.inl h.1.1
  | removalFailed plan message => exact Or.inl h.1
  | discarding plan error => exact Or.inl h.1
  | returned result => exact h
  | crashed => exact h

/-- A turn of the copying loop keeps the original, and ends with a whole payload of the right
digest. -/
theorem phaseInv_copyStep {rows : Quarantines} {copy : CopyState} (step : CopyStep)
    (hapart : Apart call original plan files) (hpayload : PayloadIs call plan copy.written files)
    (hexact : copy.Exact original) :
    PhaseInv sha256 call original (copyStep sha256 call files rows plan copy step) := by
  unfold copyStep
  cases hstep : copyChunk step copy with
  | running next =>
      exact ⟨hapart.insert _, AList.lookup_insert _, hexact.copyChunk hstep⟩
  | failed message written => exact hapart.insert _
  | finished =>
      obtain ⟨hwritten, hhashed⟩ := hexact.eq_of_finished hstep
      dsimp only
      split_ifs with hdigest
      · exact hapart
      · rw [hhashed] at hdigest
        rw [hwritten] at hpayload
        exact ⟨hapart, hpayload, (not_not.mp hdigest).symm⟩

/-- The record is inserted under the id of the plan. -/
theorem lookup_recordQuarantine {fault : Fault} {rows rows' : Quarantines}
    (h : recordQuarantine fault call.clientSid (call.record plan) (call.payloadPath plan) rows =
      (.ok (), rows')) :
    rows'.lookup plan.quarantineId =
      some ⟨call.clientSid, call.record plan, call.payloadPath plan⟩ := by
  unfold recordQuarantine at h
  cases fault with
  | some error => cases h
  | none =>
      rw [call_none] at h
      by_cases hconflict : conflicts (call.record plan) (call.payloadPath plan) rows
      · rw [if_pos hconflict] at h
        cases h
      · rw [if_neg hconflict] at h
        rw [← (Prod.mk.inj h).2]
        exact AList.lookup_insert _

/-- **Every effect keeps the file.** -/
theorem phaseInv_step {action : QuarantineAction} (h : PhaseInv sha256 call original state)
    (hstep : quarantineStep sha256 call state action = some next) :
    PhaseInv sha256 call original next := by
  have hkept := h.fileKept
  obtain ⟨files, rows, phase⟩ := state
  unfold quarantineStep at hstep
  cases phase with
  | verifying =>
      cases action with
      | verify result =>
          cases result with
          | error error =>
              obtain rfl := Option.some.inj hstep
              exact hkept
          | ok finding =>
              obtain rfl := Option.some.inj hstep
              exact h
      | crash =>
          obtain rfl := Option.some.inj hstep
          exact hkept
      | _ => cases hstep
  | verified finding =>
      cases action with
      | createRoot failure =>
          cases failure with
          | some error =>
              obtain rfl := Option.some.inj hstep
              exact hkept
          | none =>
              obtain rfl := Option.some.inj hstep
              exact h
      | crash =>
          obtain rfl := Option.some.inj hstep
          exact hkept
      | _ => cases hstep
  | rootReady finding =>
      cases action with
      | createPayload quarantineId fails =>
          dsimp only at hstep
          split_ifs at hstep with hfails
          · obtain rfl := Option.some.inj hstep
            exact hkept
          · obtain rfl := Option.some.inj hstep
            -- a path that is free is not that of the original
            simp only [not_or, Bool.not_eq_true, Option.isSome_eq_false_iff,
              Option.isNone_iff_eq_none] at hfails
            have hne : call.payloadPath ⟨quarantineId, finding⟩ ≠ call.sourcePath := by
              intro heq
              have habsent := hfails.2
              rw [heq] at habsent
              cases habsent.symm.trans h
            exact Apart.insert ⟨h, hne⟩ []
      | crash =>
          obtain rfl := Option.some.inj hstep
          exact hkept
      | _ => cases hstep
  | created plan =>
      cases action with
      | writeHeader failsAfter =>
          cases failsAfter with
          | some written =>
              obtain rfl := Option.some.inj hstep
              exact Or.inl (Apart.insert h _).1
          | none =>
              obtain rfl := Option.some.inj hstep
              exact ⟨Apart.insert h _, AList.lookup_insert _⟩
      | crash =>
          obtain rfl := Option.some.inj hstep
          exact hkept
      | _ => cases hstep
  | headed plan =>
      obtain ⟨hapart, hpayload⟩ := h
      cases action with
      | openSource failure =>
          cases failure with
          | some message =>
              obtain rfl := Option.some.inj hstep
              exact hapart
          | none =>
              -- the file that is opened is the original
              have hsource : files.lookup call.sourcePath = some original := hapart.1
              dsimp only at hstep
              rw [hsource] at hstep
              obtain rfl := Option.some.inj hstep
              exact ⟨hapart, hpayload, CopyState.exact_start original⟩
      | crash =>
          obtain rfl := Option.some.inj hstep
          exact hkept
      | _ => cases hstep
  | copying plan copy =>
      obtain ⟨hapart, hpayload, hexact⟩ := h
      cases action with
      | copy step =>
          obtain rfl := Option.some.inj hstep
          exact phaseInv_copyStep step hapart hpayload hexact
      | crash =>
          obtain rfl := Option.some.inj hstep
          exact hkept
      | _ => cases hstep
  | matched plan =>
      obtain ⟨hapart, hpayload, hdigest⟩ := h
      cases action with
      | record fault =>
          dsimp only at hstep
          cases hrecord : recordQuarantine fault call.clientSid (call.record plan)
              (call.payloadPath plan) rows with
          | mk result rows' =>
              rw [hrecord] at hstep
              cases result with
              | error error =>
                  obtain rfl := Option.some.inj hstep
                  exact hapart
              | ok done =>
                  obtain rfl := Option.some.inj hstep
                  exact ⟨hapart, hpayload, hdigest, lookup_recordQuarantine hrecord⟩
      | crash =>
          obtain rfl := Option.some.inj hstep
          exact hkept
      | _ => cases hstep
  | recorded plan =>
      obtain ⟨hapart, hpayload, hdigest, hrow⟩ := h
      cases action with
      | removeOriginal failure =>
          cases failure with
          | some message =>
              obtain rfl := Option.some.inj hstep
              exact hapart
          | none =>
              obtain rfl := Option.some.inj hstep
              -- the original goes, the recorded payload stays
              refine Or.inr ⟨plan.quarantineId, _, hrow, rfl, rfl, hdigest, ?_⟩
              exact (AList.lookup_erase_ne hapart.2).trans hpayload
      | crash =>
          obtain rfl := Option.some.inj hstep
          exact hkept
      | _ => cases hstep
  | removalFailed plan message =>
      cases action with
      | deleteRecord fault =>
          obtain rfl := Option.some.inj hstep
          exact h
      | crash =>
          obtain rfl := Option.some.inj hstep
          exact hkept
      | _ => cases hstep
  | discarding plan error =>
      cases action with
      | discard fails =>
          obtain rfl := Option.some.inj hstep
          left
          dsimp only
          split_ifs
          · exact h.1
          · exact (AList.lookup_erase_ne h.2.symm).trans h.1
      | crash =>
          obtain rfl := Option.some.inj hstep
          exact hkept
      | _ => cases hstep
  | returned result => cases hstep
  | crashed => cases hstep

/-- **Quarantine never loses the file.** From any files and records with the original bytes at the
path of the finding, and whatever fails: in every state that a run of the call passes, crashed or
not, the original is there, or an unrestored record of the client with its digest names a payload
that is the header followed by exactly those bytes. -/
theorem quarantine_keeps_file (sha256 : Bytes → String) (call : QuarantineCall)
    (original : Bytes) (files : Files) (rows : Quarantines) (actions : List QuarantineAction)
    (state : QuarantineState) (horiginal : files.lookup call.sourcePath = some original)
    (hrun : run (quarantineStep sha256 call) ⟨files, rows, .verifying⟩ actions = some state) :
    FileKept sha256 call original state := by
  have hstart : PhaseInv sha256 call original ⟨files, rows, .verifying⟩ := horiginal
  have hinv : PhaseInv sha256 call original state :=
    run_invariant (fun _ _ _ => phaseInv_step) hstart hrun
  exact hinv.fileKept

/-- A call that quarantines a file with `sampleContent`. -/
def sampleCall : QuarantineCall where
  clientSid := "S-1-5-21-1"
  quarantineRoot := "C:\\ProgramData\\quarantine"
  sourcePath := "C:\\Users\\me\\abc.txt"
  now := ⟨0, 1760000000⟩

/-- The files before that call. -/
def sampleFiles : Files := Table.collect [(sampleCall.sourcePath, sampleContent)]

/-- A run in which nothing fails and the file is read in two chunks. -/
def sampleActions : List QuarantineAction :=
  [.verify (.ok ⟨sampleSha256 sampleContent, ["EICAR"]⟩), .createRoot none,
    .createPayload "q1" false, .writeHeader none, .openSource none, .copy (.copied 2),
    .copy (.copied 2), .copy (.copied 2), .record none, .removeOriginal none]

/-- Where that run ends. -/
def sampleEnd : QuarantineState :=
  (run (quarantineStep sampleSha256 sampleCall) ⟨sampleFiles, ∅, .verifying⟩ sampleActions).getD
    ⟨∅, ∅, .crashed⟩

/-- `quarantine_keeps_file` at that run, at whose end the original is gone. -/
theorem quarantine_keeps_sample :
    sampleEnd.files.lookup sampleCall.sourcePath = none ∧
      FileKept sampleSha256 sampleCall sampleContent sampleEnd :=
  ⟨by decide, quarantine_keeps_file sampleSha256 sampleCall sampleContent sampleFiles ∅
    sampleActions sampleEnd (by decide) rfl⟩

end keep

end OpenGuard.Service
