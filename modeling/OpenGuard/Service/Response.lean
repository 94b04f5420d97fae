import OpenGuard.Lib.Text
import OpenGuard.Service.Baseline
import OpenGuard.Storage.Rollback
import OpenGuard.Windows.Error

/-!
# Response requests

The requests for a response action, the checks that `execute_response` makes before it acts, and
what it writes and answers for a network block and its undoing. The errors are those of the
source, texts included.

* `checkResponse_ok_iff`: the requests that pass the checks.
* `blockDuration_bounds`: a block lasts at least a minute and at most a day.
-/

namespace OpenGuard.Service

open OpenGuard.Lib OpenGuard.Domain OpenGuard.Storage OpenGuard.Windows

/-- Source: `models.rs`, `ResponseActionKind` -/
inductive ResponseActionKind where
  | terminateProcess
  | terminateProcessTree
  | suspendProcess
  | resumeProcess
  | quarantineFile
  | blockRemoteAddress
  | unblockRemoteAddress
  | disablePersistence
  | restorePersistence
  deriving DecidableEq, Inhabited

/-- Source: `models.rs`, `ResponseActionRequest` -/
structure ResponseActionRequest where
  action : ResponseActionKind
  processId : Option UInt32
  expectedPath : String
  target : String
  remoteAddress : String
  durationMinutes : Option UInt32
  persistenceId : String
  rollbackId : String
  confirmation : String
  deriving DecidableEq, Inhabited

/-- Source: `models.rs`, `ResponseActionResult` -/
structure ResponseActionResult where
  action : ResponseActionKind
  target : String
  outcome : String
  rollbackId : Option String
  expiresAt : Option String
  auditEventId : ℤ
  deriving DecidableEq, Inhabited

/-- What a response action hands to the audit: target, outcome, rollback id, and expiry.
Source: `main.rs`, `ServiceState::execute_response_inner` -/
structure ResponseOutcome where
  target : String
  outcome : String
  rollbackId : Option String
  expiresAt : Option String
  deriving DecidableEq, Inhabited

/-- Source: `main.rs`, `response_action_name` -/
def responseActionName : ResponseActionKind → String
  | .terminateProcess => "terminate_process"
  | .terminateProcessTree => "terminate_process_tree"
  | .suspendProcess => "suspend_process"
  | .resumeProcess => "resume_process"
  | .quarantineFile => "quarantine_file"
  | .blockRemoteAddress => "block_remote_address"
  | .unblockRemoteAddress => "unblock_remote_address"
  | .disablePersistence => "disable_persistence"
  | .restorePersistence => "restore_persistence"

/-! ## Errors -/

/-- Source: `main.rs`, `invalid_response` -/
def invalidResponse (message : String) : ApiError := ⟨.invalidRequest, message, false⟩

/-- Source: `main.rs`, `response_api_error` -/
def responseApiError (error : WindowsError) : ApiError := ⟨.conflict, error.display, false⟩

/-- Source: `main.rs`, `storage_api_error` -/
def storageApiError (operation : String) (error : StorageError) : ApiError :=
  ⟨.internal, operation ++ ": " ++ error.display, true⟩

/-! ## The checks -/

/-- Source: `main.rs`, `bounded_response_field` -/
def boundedResponseField (value : String) (maximum : ℕ) : Bool :=
  value.utf8ByteSize ≤ maximum &&
    !value.toList.any fun c => c == '\x00' || c == '\r' || c == '\n'

/-- Every text of the request is within its bound. -/
def boundedRequest (request : ResponseActionRequest) : Bool :=
  boundedResponseField request.expectedPath 32768 &&
  boundedResponseField request.target 32768 &&
  boundedResponseField request.remoteAddress 128 &&
  boundedResponseField request.persistenceId 256 &&
  boundedResponseField request.rollbackId 128 &&
  boundedResponseField request.confirmation 64

/-- The checks before the action.
Source: `main.rs`, `ServiceState::execute_response` -/
def checkResponse (request : ResponseActionRequest) : Except ApiError Unit :=
  if !boundedRequest request then
    .error (invalidResponse "Response target fields exceed the IPC safety limits")
  else if request.confirmation ≠ "confirm:" ++ responseActionName request.action then
    .error ⟨.forbidden, "Response action requires an explicit matching confirmation", false⟩
  else .ok ()

/-- The requests that pass the checks. -/
theorem checkResponse_ok_iff {request : ResponseActionRequest} :
    checkResponse request = .ok () ↔
      boundedRequest request ∧
        request.confirmation = "confirm:" ++ responseActionName request.action := by
  unfold checkResponse
  by_cases hbounded : boundedRequest request
  · by_cases hconfirmed : request.confirmation = "confirm:" ++ responseActionName request.action
    · simp [hbounded, hconfirmed]
    · simp [hbounded, hconfirmed]
  · simp [hbounded]

/-! ## A network block -/

/-- The `action` of the record of a network block. -/
def blockAction : String := "block_remote_address"

/-- A block that was accepted: the client, the request, the process, the minutes, and the id that
was drawn. -/
structure PendingBlock where
  clientSid : String
  request : ResponseActionRequest
  pid : UInt32
  duration : UInt32
  rollbackId : String
  deriving DecidableEq, Inhabited

/-- Source: `main.rs`, `ServiceState::execute_response_inner` -/
def ruleName (rollbackId : String) : String := "OpenGuard Temporary Block " ++ rollbackId

/-- Different ids give different rules. -/
theorem ruleName_inj {id₁ id₂ : String} (h : ruleName id₁ = ruleName id₂) : id₁ = id₂ :=
  (String.append_right_inj _).mp h

/-- The minutes of a block, 15 unless the request says otherwise, at least 1 and at most a day. -/
def blockDuration (request : ResponseActionRequest) : UInt32 :=
  let minutes := request.durationMinutes.getD 15
  if minutes < 1 then 1 else if 1440 < minutes then 1440 else minutes

/-- What a block request has to name, checked before anything is installed.
Source: `main.rs`, `ServiceState::execute_response_inner` -/
def checkBlockRequest (request : ResponseActionRequest) : Except ApiError (UInt32 × UInt32) :=
  match request.processId with
  | none =>
      .error (invalidResponse "A process ID is required for an application-scoped block")
  | some pid =>
      if request.expectedPath = "" then
        .error (invalidResponse "An executable path is required for an application-scoped block")
      else .ok (pid, blockDuration request)

/-- The second, since the epoch, at which a block expires. -/
def PendingBlock.expirySeconds (block : PendingBlock) (now : Clock) : ℕ :=
  min (now.unixSeconds + block.duration.toNat * 60) (2 ^ 64 - 1)

/-- The text of the expiry. -/
def PendingBlock.expiresAt (block : PendingBlock) (now : Clock) : String :=
  "unix:" ++ toString (block.expirySeconds now)

/-- The record with which a block can be undone.
Source: `main.rs`, `ServiceState::execute_response_inner` -/
def PendingBlock.rollback (block : PendingBlock) (now : Clock) : ResponseRollback where
  id := block.rollbackId
  action := blockAction
  target := block.request.remoteAddress
  payload := ruleName block.rollbackId
  createdAt := now.unixTimestamp
  expiresAt := some (block.expiresAt now)
  restoredAt := none

/-- Source: `main.rs`, `ServiceState::execute_response_inner` -/
def PendingBlock.outcome (block : PendingBlock) (now : Clock) : ResponseOutcome where
  target := block.request.remoteAddress
  outcome := "Blocked outbound traffic from PID " ++ toString block.pid.toNat ++
    " to this destination for " ++ toString block.duration.toNat ++
    " minutes through Windows Firewall/WFP"
  rollbackId := some block.rollbackId
  expiresAt := some (block.expiresAt now)

/-- The outcome of undoing a block of `target`. -/
def unblockOutcome (target : String) : ResponseOutcome :=
  ⟨target, "Removed temporary outbound block", none, none⟩

/-- The answer to a request whose audit row has the id `auditEventId`. -/
def ResponseOutcome.result (outcome : ResponseOutcome) (action : ResponseActionKind)
    (auditEventId : ℤ) : ResponseActionResult :=
  ⟨action, outcome.target, outcome.outcome, outcome.rollbackId, outcome.expiresAt, auditEventId⟩

/-- A block of a request lasts at least a minute and at most a day. -/
theorem blockDuration_bounds (request : ResponseActionRequest) :
    1 ≤ blockDuration request ∧ blockDuration request ≤ 1440 := by
  unfold blockDuration
  dsimp only
  by_cases hlow : request.durationMinutes.getD 15 < 1
  · rw [if_pos hlow]
    decide
  · rw [if_neg hlow]
    by_cases hhigh : 1440 < request.durationMinutes.getD 15
    · rw [if_pos hhigh]
      decide
    · rw [if_neg hhigh]
      exact ⟨UInt32.not_lt.mp hlow, UInt32.not_lt.mp hhigh⟩

/-- The seconds that a recovered record has left.
Source: `main.rs`, `recover_temporary_firewall_rules` -/
def remainingSeconds (rollback : ResponseRollback) (now : Clock) : ℕ :=
  ((rollback.expiresAt.bind (stripPrefix · "unix:")).bind parseU64).getD 0 - now.unixSeconds

end OpenGuard.Service
