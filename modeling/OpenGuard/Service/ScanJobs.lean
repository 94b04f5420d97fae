import OpenGuard.Lib.Run
import OpenGuard.Service.ScanProgress
import OpenGuard.Updates.Manifest

/-!
# The table of the scan jobs

A request for a scan registers a job, whose status and flag are shared with a worker, and then
starts the thread of the worker. Jobs that have ended leave the table when it is full.

* `resolveScanRoots`, `startScan`, `cancelScan`: the requests.
* `JobsWorld`: the table, what is shared with the workers, and the tables of the database.
* `jobsNext`: a request, a call of a worker, or a write of another part of the service.
-/

namespace OpenGuard.Service

open OpenGuard.Lib OpenGuard.Domain OpenGuard.Storage OpenGuard.Detection OpenGuard.Updates

/-! ## The roots -/

/-- Who sends a request. Whether there is a token to act in the name of the client.
Source: `main.rs`, `ClientContext` -/
structure ClientContext where
  sid : String
  hasToken : Bool

/-- The folders of a user, as Windows knows them, and the variable `SystemDrive`. -/
structure KnownFolders where
  downloads : Option String
  localAppData : Option String
  startup : Option String
  commonStartup : Option String
  systemDrive : Option String

/-- What the metadata of a path says. -/
inductive FileKind where
  | file
  | directory
  | other
  deriving DecidableEq

/-- What the environment chooses for the roots: the error of the duplication of the primary token
and of the impersonation, the folders, and what is at a path. -/
structure RootsChoice where
  primaryToken : Option String
  folders : KnownFolders
  pathExists : String → Bool
  impersonation : Option String
  metadata : String → Except String FileKind

/-- A closure that is run as the client, if there is a token.
Source: `main.rs`, `with_client_impersonation` -/
def withClientImpersonation {α : Type} (client : ClientContext) (error : Option String)
    (operation : α) : Except String α :=
  match client.hasToken, error with
  | true, some error => .error error
  | _, _ => .ok operation

/-- `duplicate` of the token of a client, if there is one.
Source: `main.rs`, `ClientContext::duplicate_token` -/
def duplicateToken (client : ClientContext) (error : Option String) : Except String Unit :=
  match client.hasToken, error with
  | true, some error => .error error
  | _, _ => .ok ()

/-- The components by which paths are compared. -/
def pathOrderKey (path : String) : List String :=
  (pathParts (replaceChar path '\\' '/').toList).map String.ofList

/-- `Path::join` -/
def joinPath (path name : String) : String :=
  if path.endsWith "\\" then path ++ name else path ++ "\\" ++ name

/-- Source: `main.rs`, `scan_profile_roots` -/
def scanProfileRoots (folders : KnownFolders) (pathExists : String → Bool)
    (profile : ScanProfile) : List String :=
  let roots :=
    match profile with
    | .quick => [folders.downloads, folders.localAppData.map (joinPath · "Temp")].reduceOption
    | .downloads => folders.downloads.toList
    | .startup => [folders.startup, folders.commonStartup].reduceOption
    | .full => [folders.systemDrive.getD "C:"]
  let kept := roots.filter fun path => path ≠ "" && pathExists path
  (kept.insertionSort fun a b => pathOrderKey a ≤ pathOrderKey b).destutter
    fun a b => pathOrderKey a ≠ pathOrderKey b

/-- The loop over the roots.
Source: `main.rs`, `resolve_scan_roots` -/
def checkRoots (metadata : String → Except String FileKind) : List String → Except ApiError Unit
  | [] => .ok ()
  | root :: roots =>
      match metadata root with
      | .error error => .error ⟨.notFound, "Cannot scan '" ++ root ++ "': " ++ error, false⟩
      | .ok .other =>
          .error ⟨.invalidRequest,
            "Scan target '" ++ root ++ "' is not a regular file or directory", false⟩
      | .ok _ => checkRoots metadata roots

/-- Source: `main.rs`, `resolve_scan_roots` -/
def resolveScanRoots (client : ClientContext) (target : String) (profile : Option ScanProfile)
    (choice : RootsChoice) : Except ApiError (List String) := do
  if profile.isSome then
    (duplicateToken client choice.primaryToken).mapError fun error =>
      ⟨.unauthorized, "Cannot resolve scan-profile folders for this user: " ++ error, false⟩
  let roots :=
    match profile with
    | none => [target]
    | some profile => scanProfileRoots choice.folders choice.pathExists profile
  if roots = [] then
    throw ⟨.notFound, "The selected scan profile has no available target directories", false⟩
  let checked ← (withClientImpersonation client choice.impersonation
    (checkRoots choice.metadata roots)).mapError fun error =>
      ⟨.unauthorized, "Cannot impersonate the requesting user: " ++ error, false⟩
  checked
  return roots

/-! ## The jobs and their workers -/

/-- A job in the table. What it shares with its worker is found under a number.
Source: `main.rs`, `ScanJob` -/
structure ScanJob where
  ownerSid : String
  shared : ℕ

/-- The thread of a worker: the owner it was started for, what it has left to do, and what it has
found out. -/
structure ScanThread where
  ownerSid : String
  left : ScanProgram Unit
  targets : List String
  outcomes : List (String × Outcome)
  handled : List String

/-- What a job shares with its worker: the flag and the status. Besides, the thread, once it was
started. -/
structure SharedJob where
  cancelled : Bool
  status : ScanJobStatus
  thread : Option ScanThread

/-- The tables of the database that the workers use. -/
structure ScanTables where
  exclusions : Exclusions
  hashAllowlist : HashAllowlist
  scanResults : RowTable ScanRow
  history : EventHistory

/-- The table of the jobs, what they share with their workers, and the database. -/
structure JobsWorld where
  scanJobs : Table String ScanJob
  shared : List SharedJob
  tables : ScanTables
  registered : ∀ scanId job, scanJobs.lookup scanId = some job → job.shared < shared.length

/-- The service has just been started. -/
def JobsWorld.initial (tables : ScanTables) : JobsWorld := ⟨∅, [], tables, nofun⟩

/-- What a thread works on. -/
def ScanThread.world (thread : ScanThread) (status : ScanJobStatus) (tables : ScanTables) :
    ScanWorld where
  status
  exclusions := tables.exclusions
  hashAllowlist := tables.hashAllowlist
  scanResults := tables.scanResults
  history := tables.history
  targets := thread.targets
  outcomes := thread.outcomes
  handled := thread.handled

/-- One call of a worker, if it has one left. -/
def SharedJob.work (shared : SharedJob) (tables : ScanTables) (choice : WorkerChoice) :
    SharedJob × ScanTables :=
  match shared.thread with
  | none => (shared, tables)
  | some thread =>
      match thread.left with
      | .ret _ => (shared, tables)
      | .call op next =>
          let (answer, world) := workerAnswer thread.ownerSid op
            { choice with cancelled := shared.cancelled } (thread.world shared.status tables)
          ({ shared with
              status := world.status
              thread := some
                ⟨thread.ownerSid, next answer, world.targets, world.outcomes, world.handled⟩ },
            ⟨world.exclusions, world.hashAllowlist, world.scanResults, world.history⟩)

/-- What is shared under a number is changed. -/
def JobsWorld.modifyShared (world : JobsWorld) (index : ℕ) (f : SharedJob → SharedJob) :
    JobsWorld where
  scanJobs := world.scanJobs
  shared := world.shared.modify index f
  tables := world.tables
  registered scanId job hjob := by
    rw [List.length_modify]
    exact world.registered scanId job hjob

/-! ## The requests -/

/-- The loop of `prune_finished_scans`. -/
def removeFinished : List String → Table String ScanJob → Table String ScanJob
  | [], jobs => jobs
  | scanId :: finished, jobs =>
      if jobs.size < 96 then jobs else removeFinished finished (jobs.erase scanId)

theorem lookup_removeFinished {finished : List String} {jobs : Table String ScanJob}
    {scanId : String} {job : ScanJob}
    (h : (removeFinished finished jobs).lookup scanId = some job) :
    jobs.lookup scanId = some job := by
  induction finished generalizing jobs with
  | nil => exact h
  | cons first finished ih =>
      rw [removeFinished] at h
      split_ifs at h with hsmall
      · exact h
      · have herased := ih h
        by_cases hscanId : scanId = first
        · rw [hscanId, AList.lookup_erase] at herased
          cases herased
        · rwa [AList.lookup_erase_ne hscanId] at herased

/-- The state of a job. -/
def JobsWorld.stateOf (world : JobsWorld) (job : ScanJob) : Option ScanJobState :=
  world.shared[job.shared]?.map (·.status.state)

/-- The job is neither waiting nor running. -/
def JobsWorld.isFinished (world : JobsWorld) (job : ScanJob) : Bool :=
  world.stateOf job != some .queued && world.stateOf job != some .running

/-- The ids of the jobs that have ended, in the order in which the table is gone through. -/
def JobsWorld.finishedScans (world : JobsWorld) (order : IterOrder String ScanJob) :
    List String :=
  ((order.entries world.scanJobs).filter fun entry => world.isFinished entry.2).map (·.1)

/-- Source: `main.rs`, `ServiceState::prune_finished_scans` -/
def JobsWorld.pruneFinishedScans (world : JobsWorld) (order : IterOrder String ScanJob) :
    JobsWorld :=
  if world.scanJobs.size < 128 then world
  else
    { world with
      scanJobs := removeFinished (world.finishedScans order) world.scanJobs
      registered := fun scanId job hjob =>
        world.registered scanId job (lookup_removeFinished hjob) }

/-- A job is put into the table, with what it shares with its worker. -/
def JobsWorld.register (world : JobsWorld) (scanId ownerSid : String) (status : ScanJobStatus) :
    JobsWorld where
  scanJobs := world.scanJobs.insert scanId ⟨ownerSid, world.shared.length⟩
  shared := world.shared ++ [⟨false, status, none⟩]
  tables := world.tables
  registered other job hjob := by
    rw [List.length_append, List.length_singleton]
    rcases Table.lookup_insert_eq_some_iff.mp hjob with ⟨-, rfl⟩ | ⟨-, hbefore⟩
    · exact Nat.lt_succ_self _
    · exact (world.registered other job hbefore).trans (Nat.lt_succ_self _)

/-- The thread of the last job is started. -/
def JobsWorld.spawnLast (world : JobsWorld) (ioText : IoError → String) (ownerSid : String)
    (roots : List String) : JobsWorld :=
  world.modifyShared (world.shared.length - 1) fun shared =>
    { shared with thread := some ⟨ownerSid, scanWorker ioText roots, [], [], []⟩ }

/-- What the environment chooses for a start: the roots; the order of the table; the id; and the
errors of the duplication of the token and of the start of the thread. -/
structure StartChoice where
  roots : RootsChoice
  order : IterOrder String ScanJob
  uuid : String
  duplicateToken : Option String
  spawn : Option String

/-- A request for a scan. -/
structure StartRequest where
  client : ClientContext
  target : String
  profile : Option ScanProfile

/-- `Debug` of `ScanProfile` -/
def profileName : ScanProfile → String
  | .quick => "Quick"
  | .full => "Full"
  | .startup => "Startup"
  | .downloads => "Downloads"

/-- The status of a job that is created.
Source: `main.rs`, `ServiceState::start_scan` -/
def startedStatus (scanId : String) (request : StartRequest) : ScanJobStatus where
  scanId
  target := (request.profile.map (profileName · ++ " profile")).getD request.target
  state := .running
  finding := none
  findings := []
  filesScanned := 0
  totalFiles := 0
  currentPath := ""
  error := none

/-- The answer when the table is full.
Source: `main.rs`, `ServiceState::start_scan` -/
def tooManyScans : ApiError :=
  ⟨.busy, "Too many scan jobs are retained; retry after completed jobs are pruned", true⟩

/-- Source: `main.rs`, `ServiceState::start_scan` -/
def startScan (ioText : IoError → String) (request : StartRequest) (choice : StartChoice)
    (world : JobsWorld) : Except ApiError String × JobsWorld :=
  match resolveScanRoots request.client request.target request.profile choice.roots with
  | .error error => (.error error, world)
  | .ok roots =>
      let world := world.pruneFinishedScans choice.order
      if 128 ≤ world.scanJobs.size then (.error tooManyScans, world)
      else
        let world := world.register choice.uuid request.client.sid
          (startedStatus choice.uuid request)
        match duplicateToken request.client choice.duplicateToken with
        | .error error =>
            (.error ⟨.unauthorized,
              "Cannot preserve the requesting user's identity: " ++ error, false⟩, world)
        | .ok () =>
            match choice.spawn with
            | some error =>
                (.error ⟨.internal, "Start native scan worker: " ++ error, true⟩, world)
            | none => (.ok choice.uuid, world.spawnLast ioText request.client.sid roots)

/-- Source: `main.rs`, `authorize_scan_owner` -/
def authorizeScanOwner (job : ScanJob) (ownerSid : String) : Except ApiError Unit :=
  if job.ownerSid = ownerSid then .ok ()
  else .error ⟨.forbidden, "This scan job belongs to a different signed-in user", false⟩

/-- Source: `main.rs`, `ServiceState::cancel_scan` -/
def cancelScan (scanId ownerSid : String) (world : JobsWorld) :
    Except ApiError Unit × JobsWorld :=
  match world.scanJobs.lookup scanId with
  | none => (.error ⟨.notFound, "Scan job '" ++ scanId ++ "' was not found", false⟩, world)
  | some job =>
      match authorizeScanOwner job ownerSid with
      | .error error => (.error error, world)
      | .ok () => (.ok (), world.modifyShared job.shared ({ · with cancelled := true }))

/-! ## What happens over time -/

/-- A request, a call of the worker of a job, or a write of another part of the service. -/
inductive JobsAction where
  | startScan (request : StartRequest) (choice : StartChoice)
  | cancelScan (scanId ownerSid : String)
  | work (index : ℕ) (choice : WorkerChoice)
  | write (tables : ScanTables)

/-- The worker of a job makes a call. -/
def JobsWorld.work (world : JobsWorld) (index : ℕ) (choice : WorkerChoice) : JobsWorld :=
  match world.shared[index]? with
  | none => world
  | some shared =>
      let (after, tables) := shared.work world.tables choice
      { world.modifyShared index (fun _ => after) with tables }

/-- What an action makes of the state. -/
def jobsNext (ioText : IoError → String) (world : JobsWorld) : JobsAction → JobsWorld
  | .startScan request choice => (startScan ioText request choice world).2
  | .cancelScan scanId ownerSid => (cancelScan scanId ownerSid world).2
  | .work index choice => world.work index choice
  | .write tables => { world with tables }

end OpenGuard.Service
