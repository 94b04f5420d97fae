import OpenGuard.Detection.Scan
import OpenGuard.Lib.Program
import OpenGuard.Storage.Events
import OpenGuard.Storage.Policy
import OpenGuard.Storage.Scans

/-!
# The worker of a scan job

The thread that scans the targets of a job, one after another, as a program that makes one call
after another: of the file system in the name of the client, of the scanner, of the database, and of
the status that it shares with the service. Whether the job was cancelled is asked by a call, too.

* `scanWorker`: the program.
* `workerAnswer`: what its calls do.
-/

namespace OpenGuard.Service

open OpenGuard.Lib OpenGuard.Domain OpenGuard.Storage OpenGuard.Detection

/-- A vector of paths, which has fewer elements than there are addresses. -/
structure TargetList where
  paths : List String
  fits : paths.length < 2 ^ 64

/-! ## The status -/

/-- `saturating_add(1)` of a 64-bit counter. -/
def saturatingNext (count : UInt64) : UInt64 :=
  if count.toNat < 2 ^ 64 - 1 then count + 1 else count

/-- The changes that the worker makes to the status of its job. -/
inductive StatusChange where
  | found (total : ℕ)
  | stopped (flag : Bool) (error : String)
  | started (target : String)
  | counted (finding : ScanFinding) (singleFile : Bool)
  | unreadable (error : String)
  | cancelled
  | failed (message : String)
  | completed
  deriving DecidableEq

/-- The finding is kept, unless the file is clean or there are many already.
Source: `main.rs`, `ScanWorker::record_finding` -/
def keepFinding (finding : ScanFinding) (findings : List ScanFinding) : List ScanFinding :=
  if finding.verdict ≠ .clean ∧ findings.length < 512 then findings ++ [finding] else findings

/-- What a change makes of the status.
Source: `main.rs`, `ScanWorker`, `finish_cancelled` -/
def StatusChange.apply (status : ScanJobStatus) : StatusChange → ScanJobStatus
  | found total => { status with totalFiles := UInt64.ofNat (min total (2 ^ 64 - 1)) }
  | stopped flag error =>
      { status with
        state := if flag then .cancelled else .failed
        error := some error }
  | started target => { status with currentPath := target }
  | counted finding singleFile =>
      { status with
        filesScanned := saturatingNext status.filesScanned
        finding := if singleFile then some finding else status.finding
        findings := keepFinding finding status.findings }
  | unreadable error =>
      { status with
        filesScanned := saturatingNext status.filesScanned
        error := some ("Some files could not be scanned: " ++ error) }
  | cancelled => { status with state := .cancelled, currentPath := "" }
  | failed message => { status with state := .failed, error := some message }
  | completed => { status with state := .completed, currentPath := "" }

/-! ## The program -/

/-- The calls of the worker. The paths below the roots, the size of an excluded file and the scan
are read as the client; the key of a path is not. -/
inductive ScanOp where
  | collectScanTargets (roots : List String)
  | isCancelled
  | change (change : StatusChange)
  | pathKey (target : String)
  | pathExcluded (key : String)
  | excludedFile (target : String)
  | scanFile (target : String)
  | allowedHash (sha256 : String)
  | recordScan (finding : ScanFinding)
  | recordEvent (event : SecurityEvent)

/-- The size of an excluded file, which may be unknown, and the time. -/
structure ExcludedFile where
  sizeBytes : Except String UInt64
  scannedAt : String

/-- The answers to the calls. The outer error of a call as the client is that of the
impersonation. -/
abbrev ScanOp.Answer : ScanOp → Type
  | collectScanTargets _ => Except String (Except String TargetList)
  | isCancelled => Bool
  | change _ => Unit
  | pathKey _ => String
  | pathExcluded _ => Except StorageError Bool
  | excludedFile _ => ExcludedFile
  | scanFile _ => Except String (Except ScanError ScanFinding)
  | allowedHash _ => Except StorageError (Option String)
  | recordScan _ => Except StorageError ℕ
  | recordEvent _ => Except StorageError ℕ

/-- A program of the worker. -/
abbrev ScanProgram := Program ScanOp ScanOp.Answer

section program

variable (ioText : IoError → String)

/-- One call. -/
def ask (op : ScanOp) : ScanProgram op.Answer := Program.perform op

/-- One change of the status. -/
def change (c : StatusChange) : ScanProgram Unit := ask (.change c)

/-- Source: `main.rs`, `ScanWorker::collect_targets` -/
def collectTargets (roots : List String) : ScanProgram (Option (List String)) := do
  match ← ask (.collectScanTargets roots) with
  | Except.error error =>
      change (.failed ("Impersonate scan owner: " ++ error))
      return none
  | Except.ok (Except.ok targets) =>
      if targets.paths ≠ [] then
        change (.found targets.paths.length)
        return some targets.paths
      else
        change (.failed "No regular files were found in the selected target")
        return none
  | Except.ok (Except.error error) =>
      let cancelled ← ask .isCancelled
      change (.stopped cancelled error)
      return none

/-- The finding of a file whose digest is allowed.
Source: `main.rs`, `ScanWorker::record_finding` -/
def allowedFinding (label : String) (finding : ScanFinding) : ScanFinding :=
  { finding with
    verdict := .skipped
    score := 0
    reasons := ["SHA-256 is allowed by the user (" ++
      (if label = "" then "reviewed hash" else label) ++ ")"] }

/-- The verdicts that are reported.
Source: `main.rs`, `ScanWorker::record_finding` -/
def isDetection (verdict : ScanVerdict) : Bool :=
  verdict = .lowRisk || verdict = .suspicious || verdict = .malicious

/-- The event of a finding that is reported.
Source: `main.rs`, `ScanWorker::record_finding` -/
def scanEvent (finding : ScanFinding) : SecurityEvent where
  eventType := "scan_finding"
  severity := Severity.fromScore finding.score
  title := finding.verdict.display ++ " scan finding"
  detail := joinWith "; " finding.reasons
  processId := none
  path := finding.path
  createdAt := finding.scannedAt
  resolved := false

/-- A finding is written, reported and counted.
Source: `main.rs`, `ScanWorker::record_finding` -/
def writeFinding (finding : ScanFinding) (singleFile : Bool) : ScanProgram Bool := do
  match ← ask (.recordScan finding) with
  | Except.error error =>
      change (.failed ("Persist scan result: " ++ error.display))
      return false
  | Except.ok _ =>
      if isDetection finding.verdict then
        -- an event that is not written is only logged
        let _ ← ask (.recordEvent (scanEvent finding))
        change (.counted finding singleFile)
        return true
      else
        change (.counted finding singleFile)
        return true

/-- Source: `main.rs`, `ScanWorker::record_finding` -/
def recordFinding (finding : ScanFinding) (singleFile : Bool) : ScanProgram Bool := do
  if finding.sha256 = "" then
    writeFinding finding singleFile
  else
    match ← ask (.allowedHash finding.sha256) with
    | Except.ok (some label) => writeFinding (allowedFinding label finding) singleFile
    | Except.ok none => writeFinding finding singleFile
    | Except.error error =>
        change (.failed ("Read allowed hashes: " ++ error.display))
        return false

/-- The finding of an excluded file.
Source: `main.rs`, `ScanWorker::scan_target` -/
def excludedFinding (target : String) (file : ExcludedFile) : ScanFinding where
  path := target
  verdict := .skipped
  score := 0
  reasons := ["Path is excluded by the user"]
  sha256 := ""
  sizeBytes := file.sizeBytes.toOption.getD 0
  signature := .notApplicable
  amsiResult := "not_scanned"
  yaraStatus := "not_scanned"
  yaraMatches := []
  capabilities := []
  scannedAt := file.scannedAt

/-- Source: `main.rs`, `ScanWorker::scan_target` -/
def scanTarget (target : String) (singleFile : Bool) : ScanProgram Bool := do
  let key ← ask (.pathKey target)
  match ← ask (.pathExcluded key) with
  | Except.ok true =>
      let file ← ask (.excludedFile target)
      recordFinding (excludedFinding target file) singleFile
  | Except.error error =>
      change (.failed ("Read exclusions: " ++ error.display))
      return false
  | Except.ok false =>
      match ← ask (.scanFile target) with
      | Except.error error =>
          change (.failed ("Impersonate scan owner: " ++ error))
          return false
      | Except.ok (Except.ok finding) => recordFinding finding singleFile
      | Except.ok (Except.error .cancelled) =>
          change .cancelled
          return false
      | Except.ok (Except.error error) =>
          change (.unreadable (error.display ioText))
          return true

/-- The loop over the targets.
Source: `main.rs`, `ScanWorker::run` -/
def scanTargets (singleFile : Bool) : List String → ScanProgram Unit
  | [] => change .completed
  | target :: targets => do
      if ← ask .isCancelled then
        change .cancelled
      else
        change (.started target)
        if ← scanTarget ioText target singleFile then
          scanTargets singleFile targets
        else return ()

/-- Source: `main.rs`, `ScanWorker::run` -/
def scanWorker (roots : List String) : ScanProgram Unit := do
  match ← collectTargets roots with
  | none => return ()
  | some targets => scanTargets ioText (targets.length == 1) targets

end program

/-! ## The calls -/

/-- What is found out about a target. -/
inductive Outcome where
  | excluded (file : ExcludedFile)
  | scanned (result : Except ScanError ScanFinding)

/-- What the worker reads and writes: the status of its job and the tables. Besides, the targets
that were collected, what was found out about them so far, and those that have their row or cannot
be scanned. -/
structure ScanWorld where
  status : ScanJobStatus
  exclusions : Exclusions
  hashAllowlist : HashAllowlist
  scanResults : RowTable ScanRow
  history : EventHistory
  targets : List String
  outcomes : List (String × Outcome)
  handled : List String

/-- What the environment does in one call; a call looks at the part that concerns it. -/
structure WorkerChoice where
  fault : Fault
  impersonation : Option String
  collected : Except String TargetList
  cancelled : Bool
  key : String
  sizeBytes : UInt64
  time : String
  scanned : Except ScanError ScanFinding

/-- A closure that is run as the client.
Source: `main.rs`, `with_client_impersonation` -/
def WorkerChoice.asClient {α : Type} (choice : WorkerChoice) (result : α) : Except String α :=
  match choice.impersonation with
  | some error => .error error
  | none => .ok result

/-- What the calls do for an owner. -/
def workerAnswer (ownerSid : String) :
    Program.Handler ScanOp ScanOp.Answer ScanWorld WorkerChoice
  | .collectScanTargets _, choice, world =>
      match choice.asClient choice.collected with
      | .ok (.ok targets) => (.ok (.ok targets), { world with targets := targets.paths })
      | answer => (answer, world)
  | .isCancelled, choice, world => (choice.cancelled, world)
  | .change c, _, world => ((), { world with status := c.apply world.status })
  | .pathKey _, choice, world => (choice.key, world)
  | .pathExcluded key, choice, world =>
      (pathExcluded choice.fault ownerSid key world.exclusions, world)
  | .excludedFile target, choice, world =>
      let file : ExcludedFile := ⟨choice.asClient choice.sizeBytes, choice.time⟩
      (file, { world with outcomes := world.outcomes ++ [(target, .excluded file)] })
  | .scanFile target, choice, world =>
      match choice.asClient choice.scanned with
      | .ok result =>
          let world := { world with outcomes := world.outcomes ++ [(target, .scanned result)] }
          match result with
          | .error .cancelled => (.ok result, world)
          | .error _ => (.ok result, { world with handled := world.handled ++ [target] })
          | .ok _ => (.ok result, world)
      | answer => (answer, world)
  | .allowedHash sha256, choice, world =>
      (allowedHash choice.fault ownerSid sha256 world.hashAllowlist, world)
  | .recordScan finding, choice, world =>
      match recordScan choice.fault ownerSid finding world.scanResults with
      | (.ok id, scanResults) =>
          (.ok id, { world with
            scanResults
            handled := world.handled ++ [world.status.currentPath] })
      | (.error error, scanResults) => (.error error, { world with scanResults })
  | .recordEvent event, choice, world =>
      let (answer, history) := recordEvent choice.fault ownerSid event world.history
      (answer, { world with history })

end OpenGuard.Service
