import Mathlib.Data.Fintype.EquivFin
import Mathlib.Data.List.Destutter
import OpenGuard.Service.PolicyRequests
import OpenGuard.Service.ScanStart
import OpenGuard.Service.ScanTargets
import OpenGuard.Service.Verdicts
import OpenGuard.Service.Withdrawal

/-!
# The rights with which files are read

A request that names a path is served with calls of the file system, some of them as the client,
some with the rights of the service. What the client can find out about the files is what the calls
as the client answer. Three requests tell more: one whose profile names folders that are looked for
by the service, the removal of an exclusion whose path is resolved by the service, and the response
that scans a file before it is quarantined.

* `FileSystem`: what the calls answer, as the client and as the service.
* `answerTo`: the answer to a request.
* `tellsNothing_iff`: **the answer depends on what the client can find out and on nothing else,
  except for these three.**
-/

namespace OpenGuard.Service

open OpenGuard.Lib OpenGuard.Domain OpenGuard.Storage OpenGuard.Detection OpenGuard.Windows

/-! ## The file system -/

/-- What the calls of the file system answer to somebody. Of the calls that create, open or remove a
file it is said whether they fail; `inspect` is what a walk meets below a path. -/
structure FileAnswers where
  metadata : String → Except String FileKind
  canonicalize : String → Except String String
  inspect : String → Except String FileNode
  isRegular : String → Except IoError Bool
  sizeBytes : String → UInt64
  reads : String → FileReads
  view : String → WindowsView
  openFile : String → Option String
  removeFile : String → Option String
  createDirectory : String → Bool
  createFile : String → Bool

/-- The walk through the directories below the roots. -/
def FileAnswers.collect (answers : FileAnswers) (cancelled : CancelChecks) (roots : List String) :
    Except String TargetList :=
  match collectScanTargets answers.inspect cancelled roots with
  | .error error => .error error
  | .ok paths => if h : paths.length < 2 ^ 64 then .ok ⟨paths, h⟩ else .error "capacity overflow"

/-- The answers to the client and to the service. The client is told an error or what the service is
told; what the client has resolved is resolved; and what the client has found, both resolve
alike. -/
structure FileSystem where
  asClient : FileAnswers
  asService : FileAnswers
  metadata : ∀ path, asClient.metadata path = asService.metadata path ∨
    ∃ error, asClient.metadata path = .error error
  reads : ∀ path, asClient.reads path = asService.reads path ∨
    ∃ error, (asClient.reads path).metadata = .error error
  resolved : ∀ path resolved again, asClient.canonicalize path = .ok resolved →
    asService.canonicalize resolved = .ok again → again = resolved
  found : ∀ cancelled roots targets, asClient.collect cancelled roots = .ok targets →
    ∀ target ∈ targets.paths, asService.canonicalize target = asClient.canonicalize target

/-- The file systems are the same for the client. -/
def FileSystem.AgreesWith (files others : FileSystem) : Prop := files.asClient = others.asClient

/-- `Path::exists` -/
def FileAnswers.pathExists (answers : FileAnswers) (path : String) : Bool :=
  (answers.metadata path).isOk

/-- `Path::canonicalize`, without the error. -/
def FileAnswers.resolve (answers : FileAnswers) (path : String) : Option String :=
  (answers.canonicalize path).toOption

/-- What a scan knows of the surroundings of a file. -/
def FileAnswers.context (answers : FileAnswers) (envVar : String → Option String)
    (timestamp : String) : ScanContext :=
  ⟨answers.resolve, envVar, timestamp⟩

/-! ## The requests -/

/-- What the scanner is built with, and the variables of its process. -/
structure ScanTools where
  engine : Engine
  scanner : FileScanner
  envVar : String → Option String

/-- What else the environment does in one call of a worker; `checks` and `cancelled` are what the
flag says while a walk or a scan goes on. -/
structure WorkerTurn where
  fault : Fault
  impersonation : Option String
  cancelled : Bool
  checks : CancelChecks
  time : String

/-- What else the environment does in a quarantine: the clock, and the effects, of which some are
those of calls of the file system. -/
structure QuarantineTurn where
  impersonation : Option String
  now : Clock
  actions : List QuarantineAction

/-- A request that names a path, with the state of the service that it is served in. -/
inductive PathRequest where
  | startScan (request : StartRequest) (choice : StartChoice) (world : JobsWorld)
      (turns : List WorkerTurn)
  | quarantine (clientSid : String) (finding : ScanFinding) (turn : QuarantineTurn)
      (store : QuarantineStore)
  | restoreQuarantine (request : RestoreRequest) (faults : RestoreFaults)
      (store : QuarantineStore)
  | addExclusion (clientSid path : String) (recursive : Bool) (now : Clock) (fault : Fault)
      (rows : Exclusions)
  | removeExclusion (clientSid path : String) (now : Clock) (fault : Fault) (rows : Exclusions)
  | executeResponse (clientSid : String) (request : ResponseActionRequest)
      (isQuarantine : request.action = .quarantineFile) (choice : ResponseChoice)
      (turn : QuarantineTurn) (world : ResponseWorld)

/-- An answer, and for a scan the status of its job. -/
inductive PathAnswer where
  | scan (answer : Except ApiError String) (status : Option ScanJobStatus)
  | quarantine (answer : Option (Except ApiError QuarantineRecord))
  | exclusion (answer : Except ApiError Unit)
  | response (answer : Option (Except ApiError ResponseActionResult))

section requests

variable (setup : ResponseSetup) (tools : ScanTools) (files : FileSystem)

/-- The roots are looked for by the service, and checked as the client.
Source: `main.rs`, `scan_profile_roots`, `resolve_scan_roots` -/
def rootsOn (choice : RootsChoice) : RootsChoice :=
  { choice with
    pathExists := files.asService.pathExists
    metadata := files.asClient.metadata }

/-- The reads of a scan that looks at the flag before each of them. -/
def flaggedReads (cancelled : Bool) (reads : FileReads) : FileReads :=
  { reads with turns := reads.turns.map fun turn => { turn with cancelled } }

/-- The files are listed, measured and scanned as the client; the key of a path is made by the
service.
Source: `main.rs`, `ScanWorker::collect_targets`, `ScanWorker::scan_target` -/
def workerOn (turn : WorkerTurn) : ScanOp → WorkerChoice := fun op =>
  { fault := turn.fault
    impersonation := turn.impersonation
    cancelled := turn.cancelled
    time := turn.time
    collected :=
      match op with
      | .collectScanTargets roots => files.asClient.collect turn.checks roots
      | _ => .error ""
    key :=
      match op with
      | .pathKey target => normalizedPathKey files.asService.resolve target
      | _ => ""
    sizeBytes :=
      match op with
      | .excludedFile target => files.asClient.sizeBytes target
      | _ => 0
    scanned :=
      match op with
      | .scanFile target =>
          scanTargetFinding tools.engine tools.scanner
            (files.asClient.context tools.envVar turn.time) (files.asClient.view target) target
            (flaggedReads turn.cancelled (files.asClient.reads target))
      | _ => .error .cancelled }

/-- What the calls of a worker do. -/
def workerAnswerOn (ownerSid : String) :
    Program.Handler ScanOp ScanOp.Answer ScanWorld WorkerTurn :=
  fun op turn => workerAnswer ownerSid op (workerOn tools files turn op)

/-- What the worker of a job that a request has started finds. -/
def startedWorld (request : StartRequest) (scanId : String) (tables : ScanTables) : ScanWorld where
  status := startedStatus scanId request
  exclusions := tables.exclusions
  hashAllowlist := tables.hashAllowlist
  scanResults := tables.scanResults
  history := tables.history
  targets := []
  outcomes := []
  handled := []

/-- The status of the job that a request has started, after some calls of its worker. -/
def statusOn (request : StartRequest) (scanId : String) (roots : List String)
    (tables : ScanTables) (turns : List WorkerTurn) : ScanJobStatus :=
  (Program.exec (workerAnswerOn tools files request.client.sid) (scanWorker setup.ioText roots)
    (startedWorld request scanId tables) turns).2.status

/-- A scan is started, and its worker makes some calls. -/
def startScanOn (request : StartRequest) (choice : StartChoice) (world : JobsWorld)
    (turns : List WorkerTurn) : PathAnswer :=
  let choice := { choice with roots := rootsOn files choice.roots }
  let (answer, world) := startScan setup.ioText request choice world
  match answer,
    resolveScanRoots request.client request.target request.profile choice.roots with
  | .ok scanId, .ok roots =>
      .scan answer (some (statusOn setup tools files request scanId roots world.tables turns))
  | _, _ => .scan answer none

/-- The effects of a quarantine that are calls as the client.
Source: `main.rs`, `write_quarantine_payload`, `ServiceState::quarantine_finding` -/
def effectOn (sourcePath : String) : QuarantineAction → QuarantineAction
  | .openSource _ => .openSource (files.asClient.openFile sourcePath)
  | .removeOriginal _ => .removeOriginal (files.asClient.removeFile sourcePath)
  | action => action

/-- A candidate is verified as the client.
Source: `main.rs`, `verify_quarantine_candidate` -/
def verifyOn (requested : ScanFinding) (turn : QuarantineTurn) : Except ApiError ScanFinding :=
  verifyQuarantineCandidate setup.ioText tools.engine tools.scanner
    (files.asClient.context tools.envVar turn.now.unixTimestamp)
    (files.asClient.view requested.path) (files.asClient.reads requested.path) turn.impersonation
    (files.asClient.isRegular requested.path) requested

/-- The effects of a quarantine: the verification, and the others.
Source: `main.rs`, `ServiceState::quarantine_finding` -/
def effectsOn (requested : ScanFinding) (turn : QuarantineTurn) (sourcePath : String) :
    List QuarantineAction :=
  .verify ((verifyOn setup tools files requested turn).map fun verified =>
      ⟨verified.sha256, verified.reasons⟩) ::
    turn.actions.map (effectOn files sourcePath)

/-- A finding is quarantined.
Source: `main.rs`, `ServiceState::quarantine_finding` -/
def quarantineOn (clientSid : String) (finding : ScanFinding) (turn : QuarantineTurn)
    (store : QuarantineStore) : PathAnswer :=
  let sourcePath :=
    match verifyOn setup tools files finding turn with
    | .ok verified => verified.path
    | .error _ => finding.path
  .quarantine (quarantineFinding setup ⟨clientSid, setup.quarantineRoot, sourcePath, turn.now⟩
    (effectsOn setup tools files finding turn sourcePath) store).1

/-- The payload is opened by the service; the destination is created and removed as the client.
Source: `main.rs`, `ServiceState::restore_quarantine`, `restore_quarantine_payload` -/
def restoreOn (request : RestoreRequest) (faults : RestoreFaults) (store : QuarantineStore) :
    PathAnswer :=
  let destination :=
    match quarantine faults.readRecord request.clientSid request.quarantineId store.rows with
    | .ok (some stored) => request.destination stored
    | _ => ""
  let faults :=
    { faults with
      createDirectory := files.asClient.createDirectory destination
      createDestination := files.asClient.createFile destination
      removeDestination := (files.asClient.removeFile destination).isSome }
  .quarantine (some (restoreQuarantine setup.sha256 faults request store).1)

/-- The path of an exclusion is resolved as the client when it is added; a key is made by the
service.
Source: `main.rs`, `ServiceState::add_exclusion`, `ServiceState::remove_exclusion` -/
def policyOn (now : Clock) (fault : Fault) : PolicyChoice :=
  ⟨files.asClient.canonicalize, files.asService.resolve, now, fault⟩

/-- The file is scanned by the service, and quarantined if the scan detects something.
Source: `main.rs`, `ServiceState::execute_response_inner` -/
def executeResponseOn (clientSid : String) (request : ResponseActionRequest)
    (choice : ResponseChoice) (turn : QuarantineTurn) (world : ResponseWorld) : PathAnswer :=
  let scanned := quarantineFileFinding tools.engine tools.scanner
    (files.asService.context tools.envVar turn.now.unixTimestamp) request.target
    (files.asService.reads request.target)
  let actions :=
    match scanned with
    | .ok finding => effectsOn setup tools files finding turn finding.path
    | .error _ => []
  let choice :=
    { choice with
      scanned
      quarantineNow := turn.now
      quarantineActions := actions }
  .response (executeResponse setup clientSid request choice world).1

/-- The answer to a request. -/
def answerTo : PathRequest → PathAnswer
  | .startScan request choice world turns =>
      startScanOn setup tools files request choice world turns
  | .quarantine clientSid finding turn store =>
      quarantineOn setup tools files clientSid finding turn store
  | .restoreQuarantine request faults store => restoreOn setup files request faults store
  | .addExclusion clientSid path recursive now fault rows =>
      .exclusion (addExclusionRequest clientSid path recursive (policyOn files now fault) rows).1
  | .removeExclusion clientSid path now fault rows =>
      .exclusion (removeExclusionRequest clientSid path (policyOn files now fault) rows).1
  | .executeResponse clientSid request _ choice turn world =>
      executeResponseOn setup tools files clientSid request choice turn world

end requests

/-- **The answer tells nothing but what the client can find out.** -/
def TellsNothing (setup : ResponseSetup) (tools : ScanTools) (request : PathRequest) : Prop :=
  ∀ files others : FileSystem, files.AgreesWith others →
    answerTo setup tools files request = answerTo setup tools others request

/-- The service looks at a file that the request names, or that its profile does, and answers by
what it finds. -/
def LooksItself : PathRequest → Prop
  | .startScan request choice _ _ =>
      ∃ profile, request.profile = some profile ∧
        duplicateToken request.client choice.roots.primaryToken = .ok () ∧
        scanProfileRoots choice.roots.folders (fun _ => true) profile ≠ []
  | .removeExclusion clientSid _ _ fault rows =>
      fault = none ∧ ∃ resolved, (rows.lookup (clientSid, pathKey resolved)).isSome
  | .executeResponse _ request _ _ _ _ => checkResponse request = .ok ()
  | _ => False

/-! ## The worker of a scan -/

section worker

variable {setup : ResponseSetup} {tools : ScanTools} {files others : FileSystem}
  {ownerSid : String}

/-- The service resolves the path of a key alike. -/
def ResolvedAlike (files others : FileSystem) : ScanOp → Prop
  | .pathKey target => files.asService.canonicalize target = others.asService.canonicalize target
  | _ => True

/-- A call that does not make a key is answered alike, and one that does if the path is resolved
alike. -/
theorem workerOn_eq (h : files.AgreesWith others) {op : ScanOp}
    (hop : ResolvedAlike files others op) (turn : WorkerTurn) :
    workerOn tools files turn op = workerOn tools others turn op := by
  have hclient : files.asClient = others.asClient := h
  cases op with
  | pathKey target =>
      have hresolve : files.asService.resolve target = others.asService.resolve target :=
        congrArg Except.toOption hop
      simp [workerOn, normalizedPathKey, hresolve]
  | _ => simp [workerOn, hclient]

/-- What the client has found is resolved alike. -/
theorem resolvedAlike_of_found (h : files.AgreesWith others) {roots : List String}
    {targets : TargetList} {cancelled : CancelChecks}
    (hfound : files.asClient.collect cancelled roots = .ok targets) {target : String}
    (htarget : target ∈ targets.paths) : ResolvedAlike files others (.pathKey target) := by
  have hclient : files.asClient = others.asClient := h
  have hothers := others.found cancelled roots targets (hclient ▸ hfound) target htarget
  rw [ResolvedAlike, files.found cancelled roots targets hfound target htarget, hothers, hclient]

/-- Writing a finding makes no key. -/
theorem calls_writeFinding (finding : ScanFinding) (singleFile : Bool) :
    (writeFinding finding singleFile).Calls (ResolvedAlike files others) := by
  refine Program.Calls.bind (Program.calls_perform.mpr trivial) fun answer => ?_
  cases answer with
  | error error => exact ⟨trivial, fun _ => trivial⟩
  | ok id =>
      by_cases hdetected : isDetection finding.verdict = true
      · simp only [hdetected, if_true]
        exact ⟨trivial, fun _ => ⟨trivial, fun _ => trivial⟩⟩
      · simp only [hdetected]
        exact ⟨trivial, fun _ => trivial⟩

theorem calls_recordFinding (finding : ScanFinding) (singleFile : Bool) :
    (recordFinding finding singleFile).Calls (ResolvedAlike files others) := by
  unfold recordFinding
  by_cases hdigest : finding.sha256 = ""
  · rw [if_pos hdigest]
    exact calls_writeFinding finding singleFile
  · rw [if_neg hdigest]
    refine Program.Calls.bind (Program.calls_perform.mpr trivial) fun answer => ?_
    rcases answer with error | (_ | label)
    · exact ⟨trivial, fun _ => trivial⟩
    · exact calls_writeFinding finding singleFile
    · exact calls_writeFinding _ singleFile

/-- The only key is that of the target. -/
theorem calls_scanTarget (ioText : IoError → String) {target : String}
    (h : ResolvedAlike files others (.pathKey target)) (singleFile : Bool) :
    (scanTarget ioText target singleFile).Calls (ResolvedAlike files others) := by
  refine Program.Calls.bind (Program.calls_perform.mpr h) fun key => ?_
  refine Program.Calls.bind (Program.calls_perform.mpr trivial) fun excluded => ?_
  rcases excluded with error | (_ | _)
  · exact ⟨trivial, fun _ => trivial⟩
  · refine Program.Calls.bind (Program.calls_perform.mpr trivial) fun scanned => ?_
    rcases scanned with error | (error | finding)
    · exact ⟨trivial, fun _ => trivial⟩
    · cases error <;> exact ⟨trivial, fun _ => trivial⟩
    · exact calls_recordFinding finding singleFile
  · exact Program.Calls.bind (Program.calls_perform.mpr trivial) fun file =>
      calls_recordFinding _ singleFile

theorem calls_scanTargets (ioText : IoError → String) (singleFile : Bool) {targets : List String}
    (h : ∀ target ∈ targets, ResolvedAlike files others (.pathKey target)) :
    (scanTargets ioText singleFile targets).Calls (ResolvedAlike files others) := by
  induction targets with
  | nil => exact ⟨trivial, fun _ => trivial⟩
  | cons target targets ih =>
      obtain ⟨htarget, htargets⟩ := List.forall_mem_cons.mp h
      refine Program.Calls.bind (Program.calls_perform.mpr trivial) fun cancelled => ?_
      cases cancelled with
      | true => exact ⟨trivial, fun _ => trivial⟩
      | false =>
          refine Program.Calls.bind (Program.calls_perform.mpr trivial) fun _ => ?_
          refine Program.Calls.bind (calls_scanTarget ioText htarget singleFile) fun more => ?_
          cases more with
          | true => exact ih htargets
          | false => trivial

/-- What is collected on a file system was found as the client. -/
theorem collectTargets_found {roots : List String} {turn : WorkerTurn} {world : ScanWorld}
    {targets : TargetList}
    (h : (workerAnswerOn tools files ownerSid (.collectScanTargets roots) turn world).1 =
      .ok (.ok targets)) : files.asClient.collect turn.checks roots = .ok targets := by
  have hcollected : (workerOn tools files turn (.collectScanTargets roots)).asClient
      (workerOn tools files turn (.collectScanTargets roots)).collected = .ok (.ok targets) := by
    simp only [workerAnswerOn, workerAnswer] at h
    split at h
    · rename_i found hfound
      rw [hfound]
      exact h
    · exact h
  unfold WorkerChoice.asClient workerOn at hcollected
  simp only at hcollected
  split at hcollected
  · cases hcollected
  · exact Except.ok.inj hcollected

/-- **A worker makes keys of what the client has found, and of nothing else.** -/
theorem keys_scanWorker (h : files.AgreesWith others) (ioText : IoError → String)
    (roots : List String) (world : ScanWorld) :
    (scanWorker ioText roots).Safe (workerAnswerOn tools files ownerSid) (fun _ _ => True)
      (fun op _ => ResolvedAlike files others op) (fun _ _ => True) world := by
  have hcollect : (collectTargets roots).Safe (workerAnswerOn tools files ownerSid)
      (fun _ _ => True) (fun op _ => ResolvedAlike files others op)
      (fun found _ => ∀ targets, found = some targets →
        ∀ target ∈ targets, ResolvedAlike files others (.pathKey target)) world := by
    refine Program.safe_bind.mpr (Program.safe_perform.mpr ⟨trivial, fun turn _ => ?_⟩)
    have hanswer : ∀ targets,
        (workerAnswerOn tools files ownerSid (.collectScanTargets roots) turn world).1 =
          .ok (.ok targets) → files.asClient.collect turn.checks roots = .ok targets :=
      fun targets => collectTargets_found
    generalize (workerAnswerOn tools files ownerSid (.collectScanTargets roots) turn world).1 =
      answer at hanswer ⊢
    rcases answer with error | (error | targets)
    · exact ⟨trivial, fun _ _ => nofun⟩
    · exact ⟨trivial, fun _ _ => ⟨trivial, fun _ _ => nofun⟩⟩
    · by_cases hempty : targets.paths ≠ []
      · simp only [if_pos hempty]
        refine ⟨trivial, fun _ _ found hfound target htarget => ?_⟩
        obtain rfl := Option.some.inj hfound
        exact resolvedAlike_of_found h (hanswer targets rfl) htarget
      · simp only [if_neg hempty]
        exact ⟨trivial, fun _ _ => nofun⟩
  refine hcollect.bind fun found world hfound => ?_
  cases found with
  | none => trivial
  | some targets =>
      exact (calls_scanTargets ioText _ (hfound targets rfl)).fits

/-- **The status of a job is the same on both file systems.** -/
theorem statusOn_eq (h : files.AgreesWith others) (request : StartRequest) (scanId : String)
    (roots : List String) (tables : ScanTables) (turns : List WorkerTurn) :
    statusOn setup tools files request scanId roots tables turns =
      statusOn setup tools others request scanId roots tables turns := by
  have hcall : ∀ op turn (world world' : ScanWorld), ResolvedAlike files others op → True →
      world = world' →
        (workerAnswerOn tools files request.client.sid op turn world).1 =
          (workerAnswerOn tools others request.client.sid op turn world').1 ∧
        (workerAnswerOn tools files request.client.sid op turn world).2 =
          (workerAnswerOn tools others request.client.sid op turn world').2 := by
    rintro op turn world _ hop - rfl
    unfold workerAnswerOn
    rw [workerOn_eq h hop]
    exact ⟨rfl, rfl⟩
  have hruns := Program.exec_related hcall rfl
    (keys_scanWorker h setup.ioText roots (startedWorld request scanId tables))
    (Program.allowed_of_forall (fun _ _ => trivial) _ _ turns)
  exact congrArg ScanWorld.status hruns.2

end worker

/-! ## The answers -/

section answers

variable {setup : ResponseSetup} {tools : ScanTools} {files others : FileSystem}

/-- A profile has roots only if some of its folders could be one. -/
theorem scanProfileRoots_eq_nil {folders : KnownFolders} {profile : ScanProfile}
    (h : scanProfileRoots folders (fun _ => true) profile = []) (pathExists : String → Bool) :
    scanProfileRoots folders pathExists profile = [] := by
  unfold scanProfileRoots at h ⊢
  dsimp only at h ⊢
  rw [List.destutter_eq_nil, ← List.length_eq_zero_iff, List.length_insertionSort,
    List.length_eq_zero_iff, List.filter_eq_nil_iff] at h ⊢
  intro path hpath hkept
  refine h path hpath ?_
  simp only [Bool.and_eq_true, decide_eq_true_eq] at hkept ⊢
  exact ⟨hkept.1, trivial⟩

/-- Without folders that the service looks for, the roots are the same on both file systems. -/
theorem resolveScanRoots_eq (h : files.AgreesWith others) {request : StartRequest}
    {choice : RootsChoice}
    (hlooks : ¬∃ profile, request.profile = some profile ∧
      duplicateToken request.client choice.primaryToken = .ok () ∧
      scanProfileRoots choice.folders (fun _ => true) profile ≠ []) :
    resolveScanRoots request.client request.target request.profile (rootsOn files choice) =
      resolveScanRoots request.client request.target request.profile (rootsOn others choice) := by
  have hclient : files.asClient = others.asClient := h
  cases hprofile : request.profile with
  | none =>
      unfold resolveScanRoots rootsOn
      rw [hclient]
  | some profile =>
      unfold resolveScanRoots
      cases htoken : duplicateToken request.client choice.primaryToken with
      | error error =>
          have hsame (files : FileSystem) : duplicateToken request.client
            (rootsOn files choice).primaryToken = .error error := htoken
          simp only [hsame]
          rfl
      | ok token =>
          have hnone : scanProfileRoots choice.folders (fun _ => true) profile = [] := by
            by_contra hroots
            exact hlooks ⟨profile, hprofile, htoken, hroots⟩
          have hsame (files : FileSystem) : scanProfileRoots (rootsOn files choice).folders
            (rootsOn files choice).pathExists profile = [] := scanProfileRoots_eq_nil hnone _
          simp only [hsame]
          rfl

theorem startScanOn_eq (h : files.AgreesWith others) {request : StartRequest}
    {choice : StartChoice} {world : JobsWorld} {turns : List WorkerTurn}
    (hlooks : ¬LooksItself (.startScan request choice world turns)) :
    startScanOn setup tools files request choice world turns =
      startScanOn setup tools others request choice world turns := by
  have hroots := resolveScanRoots_eq h hlooks
  have hstart : startScan setup.ioText request { choice with roots := rootsOn files choice.roots }
      world =
        startScan setup.ioText request { choice with roots := rootsOn others choice.roots }
          world := by
    simp only [startScan, hroots]
  unfold startScanOn
  simp only [hstart, hroots, statusOn_eq h]

theorem effectsOn_eq (h : files.AgreesWith others) (requested : ScanFinding)
    (turn : QuarantineTurn) (sourcePath : String) :
    effectsOn setup tools files requested turn sourcePath =
      effectsOn setup tools others requested turn sourcePath := by
  have hclient : files.asClient = others.asClient := h
  have heffect : effectOn files sourcePath = effectOn others sourcePath := by
    funext action
    cases action <;> simp [effectOn, hclient]
  simp only [effectsOn, verifyOn, heffect, hclient]

theorem quarantineOn_eq (h : files.AgreesWith others) (clientSid : String)
    (finding : ScanFinding) (turn : QuarantineTurn) (store : QuarantineStore) :
    quarantineOn setup tools files clientSid finding turn store =
      quarantineOn setup tools others clientSid finding turn store := by
  have hclient : files.asClient = others.asClient := h
  simp only [quarantineOn, effectsOn_eq h, verifyOn, hclient]

theorem restoreOn_eq (h : files.AgreesWith others) (request : RestoreRequest)
    (faults : RestoreFaults) (store : QuarantineStore) :
    restoreOn setup files request faults store = restoreOn setup others request faults store := by
  have hclient : files.asClient = others.asClient := h
  simp only [restoreOn, hclient]

/-- The key of a path that the client has resolved. -/
theorem normalizedPathKey_resolved {path resolved : String}
    (h : files.asClient.canonicalize path = .ok resolved) :
    normalizedPathKey files.asService.resolve resolved = pathKey resolved := by
  rw [normalizedPathKey_eq, leadsTo, FileAnswers.resolve]
  cases hagain : files.asService.canonicalize resolved with
  | error error => rfl
  | ok again =>
      rw [files.resolved path resolved again h hagain]
      rfl

theorem addExclusionOn_eq (h : files.AgreesWith others) (clientSid path : String)
    (recursive : Bool) (now : Clock) (fault : Fault) (rows : Exclusions) :
    addExclusionRequest clientSid path recursive (policyOn files now fault) rows =
      addExclusionRequest clientSid path recursive (policyOn others now fault) rows := by
  have hclient : files.asClient = others.asClient := h
  simp only [addExclusionRequest, policyOn, ← hclient]
  cases hresolved : files.asClient.canonicalize path with
  | error error => rfl
  | ok resolved =>
      have hothers : others.asClient.canonicalize path = .ok resolved := hclient ▸ hresolved
      simp only [normalizedPathKey_resolved hresolved, normalizedPathKey_resolved hothers]

/-- The answer to the removal of an exclusion, by its key. -/
theorem removeExclusionOn (clientSid path : String) (now : Clock) (rows : Exclusions) :
    (removeExclusionRequest clientSid path (policyOn files now none) rows).1 =
      if (rows.lookup (clientSid,
          pathKey (leadsTo files.asService.resolve path))).isSome then .ok ()
      else .error ⟨.notFound, "The exclusion was not found", false⟩ := by
  simp only [removeExclusionRequest, policyOn, removeExclusion, call_none, deleteKey,
    normalizedPathKey_eq]
  cases (rows.lookup (clientSid, pathKey (leadsTo files.asService.resolve path))).isSome <;> rfl

theorem removeExclusionOn_eq {clientSid path : String} {now : Clock} {fault : Fault}
    {rows : Exclusions} (hlooks : ¬LooksItself (.removeExclusion clientSid path now fault rows)) :
    (removeExclusionRequest clientSid path (policyOn files now fault) rows).1 =
      (removeExclusionRequest clientSid path (policyOn others now fault) rows).1 := by
  cases fault with
  | some error => rfl
  | none =>
      have hnone (resolved : String) :
          (rows.lookup (clientSid, pathKey resolved)).isSome = false := by
        by_contra hstored
        exact hlooks ⟨rfl, resolved, Bool.of_not_eq_false hstored⟩
      rw [removeExclusionOn, removeExclusionOn, hnone, hnone]

theorem executeResponseOn_eq {clientSid : String} {request : ResponseActionRequest}
    {choice : ResponseChoice} {turn : QuarantineTurn} {world : ResponseWorld}
    (hrefused : checkResponse request ≠ .ok ()) :
    executeResponseOn setup tools files clientSid request choice turn world =
      executeResponseOn setup tools others clientSid request choice turn world := by
  unfold executeResponseOn executeResponse
  cases hcheck : checkResponse request with
  | error error => rfl
  | ok checked => exact absurd hcheck hrefused

/-- **A request for which the service does not look itself** is answered by what the client can find
out. -/
theorem tellsNothing_of_not_looksItself {request : PathRequest} (hlooks : ¬LooksItself request) :
    TellsNothing setup tools request := by
  intro files others h
  cases request with
  | startScan request choice world turns => exact startScanOn_eq h hlooks
  | quarantine clientSid finding turn store => exact quarantineOn_eq h clientSid finding turn store
  | restoreQuarantine request faults store => exact restoreOn_eq h request faults store
  | addExclusion clientSid path recursive now fault rows =>
      simp only [answerTo, addExclusionOn_eq h]
  | removeExclusion clientSid path now fault rows =>
      exact congrArg PathAnswer.exclusion (removeExclusionOn_eq hlooks)
  | executeResponse clientSid request isQuarantine choice turn world =>
      exact executeResponseOn_eq hlooks

end answers

/-! ## Files that the client cannot see -/

/-- Everything is denied. -/
def denied : FileAnswers where
  metadata _ := .error "Access is denied. (os error 5)"
  canonicalize _ := .error "Access is denied. (os error 5)"
  inspect _ := .error "Access is denied. (os error 5)"
  isRegular _ := .error .notFound
  sizeBytes _ := 0
  reads _ := ⟨.error .notFound, .error .notFound, []⟩
  view _ := ⟨false, 0, none, none, false, none⟩
  openFile _ := some "Access is denied. (os error 5)"
  removeFile _ := some "Access is denied. (os error 5)"
  createDirectory _ := true
  createFile _ := true

/-- Nothing is found where everything is denied. -/
theorem collect_denied {cancelled : CancelChecks} {roots : List String} {targets : TargetList}
    (h : denied.collect cancelled roots = .ok targets) : targets.paths = [] := by
  cases roots with
  | nil =>
      have hnone : collectScanTargets denied.inspect cancelled [] = .ok [] := by
        simp [collectScanTargets, scanRoots, walkDirectories, Except.map]
      simp only [FileAnswers.collect, hnone] at h
      obtain rfl := Except.ok.inj h
      rfl
  | cons root roots =>
      have herror : collectScanTargets denied.inspect cancelled (root :: roots) =
          .error "Access is denied. (os error 5)" := rfl
      simp only [FileAnswers.collect, herror] at h
      cases h

/-- Everything is denied to the client. -/
def hiddenFiles (asService : FileAnswers) : FileSystem where
  asClient := denied
  asService
  metadata _ := Or.inr ⟨_, rfl⟩
  reads _ := Or.inr ⟨_, rfl⟩
  resolved _ _ _ h := by cases h
  found _ _ targets h target htarget := by
    rw [collect_denied h] at htarget
    cases htarget

theorem hiddenFiles_agreesWith (first second : FileAnswers) :
    (hiddenFiles first).AgreesWith (hiddenFiles second) := rfl

/-- Two answers on files that the client cannot see are not the same. -/
theorem not_tellsNothing {setup : ResponseSetup} {tools : ScanTools} {request : PathRequest}
    (first second : FileAnswers)
    (h : answerTo setup tools (hiddenFiles first) request ≠
      answerTo setup tools (hiddenFiles second) request) :
    ¬TellsNothing setup tools request :=
  fun htells => h (htells _ _ (hiddenFiles_agreesWith first second))

section told

variable {setup : ResponseSetup} {tools : ScanTools}

/-- When the roots cannot be resolved, the error is the answer. -/
theorem startScanOn_of_error {files : FileSystem} {request : StartRequest} {choice : StartChoice}
    {world : JobsWorld} {turns : List WorkerTurn} {error : ApiError}
    (h : resolveScanRoots request.client request.target request.profile
      (rootsOn files choice.roots) = .error error) :
    startScanOn setup tools files request choice world turns = .scan (.error error) none := by
  unfold startScanOn startScan
  simp only [h]

/-- A profile without roots. -/
theorem resolveScanRoots_of_nil {client : ClientContext} {target : String} {profile : ScanProfile}
    {choice : RootsChoice} (htoken : duplicateToken client choice.primaryToken = .ok ())
    (hroots : scanProfileRoots choice.folders choice.pathExists profile = []) :
    resolveScanRoots client target (some profile) choice = .error ⟨.notFound,
      "The selected scan profile has no available target directories", false⟩ := by
  unfold resolveScanRoots
  simp only [htoken, hroots]
  rfl

/-- A profile whose roots are denied to the client. -/
theorem resolveScanRoots_of_denied {client : ClientContext} {target : String}
    {profile : ScanProfile} {choice : RootsChoice}
    (htoken : duplicateToken client choice.primaryToken = .ok ())
    (hroots : scanProfileRoots choice.folders choice.pathExists profile ≠ [])
    (hdenied : choice.metadata = denied.metadata) :
    ∃ error : ApiError, resolveScanRoots client target (some profile) choice = .error error ∧
      error.message.toList.head? = some 'C' := by
  obtain ⟨root, roots, hcons⟩ := List.exists_cons_of_ne_nil hroots
  have hcheck : checkRoots choice.metadata
      (scanProfileRoots choice.folders choice.pathExists profile) =
        .error ⟨.notFound, "Cannot scan '" ++ root ++ "': " ++ "Access is denied. (os error 5)",
          false⟩ := by
    rw [hcons, hdenied]
    rfl
  unfold resolveScanRoots
  rcases withClientImpersonation_cases client choice.impersonation
    (checkRoots choice.metadata (scanProfileRoots choice.folders choice.pathExists profile)) with
    hcalled | ⟨text, hcalled⟩
  · refine ⟨⟨.notFound, "Cannot scan '" ++ root ++ "': " ++ "Access is denied. (os error 5)",
      false⟩, ?_, head?_toList_append (head?_toList_append (head?_toList_append rfl))⟩
    rw [hcheck] at hcalled
    simp only [htoken, if_neg hroots, hcheck, hcalled]
    rfl
  · refine ⟨⟨.unauthorized, "Cannot impersonate the requesting user: " ++ text, false⟩, ?_,
      head?_toList_append rfl⟩
    simp only [htoken, if_neg hroots, hcalled]
    rfl

/-- No folder is there. -/
theorem scanProfileRoots_missing (folders : KnownFolders) (profile : ScanProfile) :
    scanProfileRoots folders (fun _ => false) profile = [] := by
  unfold scanProfileRoots
  rw [List.destutter_eq_nil, ← List.length_eq_zero_iff, List.length_insertionSort,
    List.length_eq_zero_iff, List.filter_eq_nil_iff]
  intro path _ hkept
  simp at hkept

/-- A scan of a profile tells whether a folder is there. -/
theorem startScan_tells {request : StartRequest} {choice : StartChoice} {world : JobsWorld}
    {turns : List WorkerTurn} (hlooks : LooksItself (.startScan request choice world turns)) :
    ¬TellsNothing setup tools (.startScan request choice world turns) := by
  obtain ⟨profile, hprofile, htoken, hroots⟩ := hlooks
  let there : FileAnswers := { denied with metadata := fun _ => .ok .directory }
  have hmissing : resolveScanRoots request.client request.target request.profile
      (rootsOn (hiddenFiles denied) choice.roots) = .error ⟨.notFound,
        "The selected scan profile has no available target directories", false⟩ := by
    rw [hprofile]
    exact resolveScanRoots_of_nil htoken (scanProfileRoots_missing _ _)
  obtain ⟨error, hthere, hfirst⟩ : ∃ error : ApiError,
      resolveScanRoots request.client request.target request.profile
        (rootsOn (hiddenFiles there) choice.roots) = .error error ∧
        error.message.toList.head? = some 'C' := by
    rw [hprofile]
    exact resolveScanRoots_of_denied htoken hroots rfl
  refine not_tellsNothing denied there fun hsame => ?_
  simp only [answerTo, startScanOn_of_error hmissing, startScanOn_of_error hthere,
    PathAnswer.scan.injEq, Except.error.injEq, and_true] at hsame
  rw [← hsame] at hfirst
  exact absurd hfirst (by decide)

/-- A text of one letter. -/
def word (n : ℕ) : String := String.ofList (List.replicate n 'a')

@[simp] theorem toList_word (n : ℕ) : (word n).toList = List.replicate n 'a' :=
  String.toList_ofList

/-- A text of one letter is its own key. -/
theorem pathKey_word (n : ℕ) : pathKey (word n) = word n := by
  have hstrip (pattern : List Char) :
      stripPrefix (word n) (String.ofList ('\\' :: pattern)) = none := by
    cases n <;> simp [stripPrefix, startsWith, List.replicate_succ]
  have hunc : stripPrefix (word n) "\\\\?\\UNC\\" = none := hstrip _
  have hverbatim : stripPrefix (word n) "\\\\?\\" = none := hstrip _
  have hreplace : replaceChar (word n) '/' '\\' = word n := by
    simp [replaceChar, word]
  have htrim : trimEndMatches '\\' (word n) = word n := by
    simp [trimEndMatches, word]
  have hlower : toAsciiLowercase (word n) = word n := by
    simp [toAsciiLowercase, word]
  simp only [pathKey, hreplace, hunc, hverbatim, Option.getD_none, htrim, hlower]

/-- There is a key that is not stored. -/
theorem exists_free_key (clientSid : String) (rows : Exclusions) :
    ∃ resolved, rows.lookup (clientSid, pathKey resolved) = none := by
  obtain ⟨n, hn⟩ := Infinite.exists_notMem_finset
    (rows.keys.map fun key => key.2.length).toFinset
  refine ⟨word n, AList.lookup_eq_none.mpr fun hmem => hn ?_⟩
  rw [List.mem_toFinset, List.mem_map]
  exact ⟨_, AList.mem_keys.mp hmem, by simp [pathKey_word, ← String.length_toList]⟩

/-- Every path leads to one. -/
def leadingTo (resolved : String) : FileAnswers :=
  { denied with canonicalize := fun _ => .ok resolved }

theorem leadsTo_leadingTo (resolved path : String) :
    leadsTo (hiddenFiles (leadingTo resolved)).asService.resolve path = resolved := rfl

/-- The removal of an exclusion tells where a path leads. -/
theorem removeExclusion_tells {clientSid path : String} {now : Clock} {fault : Fault}
    {rows : Exclusions} (hlooks : LooksItself (.removeExclusion clientSid path now fault rows)) :
    ¬TellsNothing setup tools (.removeExclusion clientSid path now fault rows) := by
  obtain ⟨rfl, resolved, hstored⟩ := hlooks
  obtain ⟨free, hfree⟩ := exists_free_key clientSid rows
  refine not_tellsNothing (leadingTo resolved) (leadingTo free) fun hsame => ?_
  simp only [answerTo, removeExclusionOn] at hsame
  rw [leadsTo_leadingTo, leadsTo_leadingTo, if_pos hstored, if_neg (by simp [hfree])] at hsame
  simp at hsame

/-- Nothing is a regular file. -/
def directoriesOnly : FileAnswers :=
  { denied with reads := fun _ => ⟨.ok (false, 0), .error .notFound, []⟩ }

/-- A scan that fails is the answer. -/
theorem executeResponseOn_of_error (setup : ResponseSetup) (tools : ScanTools) (files : FileSystem)
    (clientSid : String) (choice : ResponseChoice) (turn : QuarantineTurn) (world : ResponseWorld)
    {request : ResponseActionRequest} {error : ScanError}
    (hquarantine : request.action = .quarantineFile) (hchecked : checkResponse request = .ok ())
    (hscan : quarantineFileFinding tools.engine tools.scanner
      (files.asService.context tools.envVar turn.now.unixTimestamp) request.target
      (files.asService.reads request.target) = .error error) :
    executeResponseOn setup tools files clientSid request choice turn world =
      .response (some (.error
        ⟨.conflict, "Scan before quarantine: " ++ error.display setup.ioText, false⟩)) := by
  unfold executeResponseOn executeResponse executeResponseInner
  simp only [hchecked, hquarantine, hscan, quarantineResponse, checkScanned]

/-- The texts of two errors of a scan. -/
theorem display_ne (ioText : IoError → String) (error : IoError) (path : String) :
    (ScanError.io error).display ioText ≠ (ScanError.notAFile path).display ioText := by
  intro h
  have hfile : ((ScanError.io error).display ioText).toList.head? = some 'f' :=
    head?_toList_append rfl
  have htarget : ((ScanError.notAFile path).display ioText).toList.head? = some 't' :=
    head?_toList_append rfl
  rw [h, htarget] at hfile
  exact absurd (Option.some.inj hfile) (by decide)

/-- A response that quarantines a file tells what is there. -/
theorem executeResponse_differs (setup : ResponseSetup) (tools : ScanTools) (clientSid : String)
    {request : ResponseActionRequest} (isQuarantine : request.action = .quarantineFile)
    (hchecked : checkResponse request = .ok ()) (choice : ResponseChoice) (turn : QuarantineTurn)
    (world : ResponseWorld) :
    answerTo setup tools (hiddenFiles denied)
        (.executeResponse clientSid request isQuarantine choice turn world) ≠
      answerTo setup tools (hiddenFiles directoriesOnly)
        (.executeResponse clientSid request isQuarantine choice turn world) := by
  intro hsame
  have hdenied := executeResponseOn_of_error setup tools (hiddenFiles denied) clientSid choice turn
    world isQuarantine hchecked rfl
  have hdirectory := executeResponseOn_of_error setup tools (hiddenFiles directoriesOnly) clientSid
    choice turn world isQuarantine hchecked rfl
  simp only [answerTo, hdenied, hdirectory, PathAnswer.response.injEq, Option.some.injEq,
    Except.error.injEq, ApiError.mk.injEq, String.append_right_inj, true_and, and_true] at hsame
  exact display_ne setup.ioText .notFound request.target hsame

end told

/-- **An answer tells nothing but what the client can find out**, unless the service looks
itself. -/
theorem tellsNothing_iff (setup : ResponseSetup) (tools : ScanTools) (request : PathRequest) :
    TellsNothing setup tools request ↔ ¬LooksItself request := by
  constructor
  · intro htells hlooks
    cases request with
    | startScan request choice world turns => exact startScan_tells hlooks htells
    | removeExclusion clientSid path now fault rows => exact removeExclusion_tells hlooks htells
    | executeResponse clientSid request isQuarantine choice turn world =>
        exact not_tellsNothing denied directoriesOnly (executeResponse_differs setup tools clientSid
          isQuarantine hlooks choice turn world) htells
    | _ => exact hlooks
  · exact tellsNothing_of_not_looksItself

/-! ## A file of somebody else -/

/-- A scanner without rules. -/
def plainTools : ScanTools := ⟨plainEngine, ⟨[], [], 1024⟩, fun _ => none⟩

/-- A file that the client cannot see is to be quarantined. -/
def foreignRequest : ResponseActionRequest :=
  { (default : ResponseActionRequest) with
    action := .quarantineFile
    target := "C:\\Users\\other\\secret.exe"
    confirmation := "confirm:quarantine_file" }

/-- The answer tells whether there is a directory. -/
theorem foreignRequest_tells :
    (hiddenFiles denied).AgreesWith (hiddenFiles directoriesOnly) ∧
      answerTo sampleSetup plainTools (hiddenFiles denied)
          (.executeResponse "S-1" foreignRequest rfl quietResponse ⟨none, ⟨0, 1⟩, []⟩ quietWorld) ≠
        answerTo sampleSetup plainTools (hiddenFiles directoriesOnly)
          (.executeResponse "S-1" foreignRequest rfl quietResponse ⟨none, ⟨0, 1⟩, []⟩ quietWorld) :=
  ⟨hiddenFiles_agreesWith _ _,
    executeResponse_differs sampleSetup plainTools "S-1" rfl (by decide) quietResponse _ quietWorld⟩

end OpenGuard.Service
