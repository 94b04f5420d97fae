import OpenGuard.Domain.Models
import OpenGuard.Lib.Run
import OpenGuard.Storage.Database
import OpenGuard.Updates.Immutability

/-!
# The security content in force

The service keeps the active content in five places: the keys of the database, its own fields, its
scanner, the feed of the collector, and the background monitor, which takes new content from its
commands one at a time. The installation and the rollback switch them; the start of the service
reads the database and falls back to the bundled content.

* `createState`, `installContentUpdate`, `rollbackContentUpdate`: the three of them.
* `contentStep`: what happens to the disk, the database and the service over time.
-/

namespace OpenGuard.Service

open OpenGuard.Lib OpenGuard.Domain OpenGuard.Storage OpenGuard.Detection OpenGuard.Updates
  OpenGuard.Windows

/-- What the service is built with: the other crates, the names of its disk, the text of the path of
its content and the bundled content. -/
structure ContentSetup where
  crates : Crates
  names : StoreNames
  contentRoot : String
  bundledScanner : FileScanner
  bundledFeed : ReputationFeed

/-- The text of the path of the feed of a version. -/
def ContentSetup.shown (setup : ContentSetup) (version : String) : String :=
  setup.contentRoot ++ "\\versions\\" ++ version ++ "\\reputation.json"

/-- Source: `main.rs`, `ProtectionMonitor`, `ProtectionCommand`. What the thread uses, and the
contents that were sent to it and not taken yet. -/
structure ProtectionMonitor where
  scanner : FileScanner
  reputation : ReputationFeed
  commands : List (FileScanner × ReputationFeed)

/-- The fields of the service that hold its content, and its monitor, while the thread runs.
Source: `main.rs`, `ServiceState` -/
structure ContentState where
  scanner : FileScanner
  /-- of the collector -/
  reputation : ReputationFeed
  contentVersion : String
  contentSource : String
  protectionMonitor : Option ProtectionMonitor

/-- The disk, the database and the service, while it runs; and the versions that were installed. -/
structure ContentWorld where
  disk : Option FileTree
  metadata : Metadata
  service : Option ContentState
  installed : List String

/-! ## The calls -/

/-- The key of the active version. -/
def activeKey : String := "active_content_version"

/-- The key of the version before it. -/
def previousKey : String := "previous_content_version"

/-- Source: `updates/lib.rs`, `DEFAULT_MANIFEST_URL` -/
def defaultManifestUrl : String :=
  "https://raw.githubusercontent.com/jordanw0204-rgb/OpenGuard/main/security-content/manifest.json"

/-- Source: `main.rs`, `create_state`, the version of the bundled content. -/
def bundledVersion : String := "bundled-2026.08.06.1"

/-- What fails when the content of a version is loaded and activated. -/
structure ActivationFaults where
  scanner : Option UpdateError
  reputation : Option WindowsError
  activate : Fault
  status : Fault

/-- Nothing fails. -/
def ActivationFaults.never : ActivationFaults := ⟨none, none, none, none⟩

/-- A step that may fail, or gives its result. -/
def orFault {ε α : Type} (fault : Option ε) (result : Except ε α) : Except ε α :=
  match fault with
  | some error => .error error
  | none => result

/-- How a call ended: before anything was committed; with the version that is there already; or
after the database has committed the activation. -/
inductive CallOutcome where
  | failed (error : ApiError)
  | current (answer : Except ApiError ContentStatus)
  | committed (answer : Except ApiError ContentStatus)

/-- The response to the request. -/
def CallOutcome.answer : CallOutcome → Except ApiError ContentStatus
  | failed error => .error error
  | current answer => answer
  | committed answer => answer

section calls

variable (setup : ContentSetup)

/-- Source: `main.rs`, `ServiceState::content_status` -/
def contentStatus (fault : Fault) (metadata : Metadata) (state : ContentState) :
    Except ApiError ContentStatus := do
  let previous ← (getMetadata fault previousKey metadata).mapError fun error =>
    ⟨.internal, "Read content activation state: " ++ error.display, true⟩
  return ⟨state.contentVersion, previous.filter (· ≠ ""), state.contentSource, defaultManifestUrl⟩

/-- The scanner and the feed of a version.
Source: `main.rs`, `create_state` -/
def loadVersion (faults : ActivationFaults) (disk : Option FileTree) (version : String) :
    Option (FileScanner × ReputationFeed) :=
  match orFault faults.scanner
      (scannerForVersion setup.crates setup.names (storeTree disk) version) with
  | .error _ => none
  | .ok scanner =>
      match orFault faults.reputation
          (reputationForVersion setup.crates setup.names setup.shown (storeTree disk) version) with
      | .error _ => none
      | .ok reputation => some (scanner, reputation)

/-- Source: `main.rs`, `ProtectionMonitor::update_content` -/
def ProtectionMonitor.updateContent (scanner : FileScanner) (reputation : ReputationFeed)
    (monitor : ProtectionMonitor) : ProtectionMonitor :=
  { monitor with commands := monitor.commands ++ [(scanner, reputation)] }

/-- The fields and the monitor get a new content.
Source: `main.rs`, `ServiceState::install_content_update` -/
def ContentState.activated (version : String) (scanner : FileScanner) (reputation : ReputationFeed)
    (state : ContentState) : ContentState where
  scanner := scanner
  reputation := reputation
  contentVersion := version
  contentSource := "signed_update"
  protectionMonitor := state.protectionMonitor.map (·.updateContent scanner reputation)

/-- The texts of the errors of an activation, which are all that installation and rollback differ
in. -/
structure ActivationTexts where
  scanner : String
  reputation : String
  activate : String

/-- A version is loaded, committed and put in force.
Source: `main.rs`, `ServiceState::install_content_update`,
`ServiceState::rollback_content_update` -/
def activateVersion (texts : ActivationTexts) (faults : ActivationFaults) (version : String)
    (previous : Option String) (disk : Option FileTree) (metadata : Metadata)
    (state : ContentState) : CallOutcome × Metadata × ContentState :=
  match orFault faults.scanner
      (scannerForVersion setup.crates setup.names (storeTree disk) version) with
  | .error error =>
      (.failed ⟨.conflict, texts.scanner ++ error.display setup.crates.ioText, false⟩, metadata,
        state)
  | .ok scanner =>
      match orFault faults.reputation
          (reputationForVersion setup.crates setup.names setup.shown (storeTree disk) version) with
      | .error error =>
          (.failed ⟨.conflict, texts.reputation ++ error.display, false⟩, metadata, state)
      | .ok reputation =>
          match Database.activateContentVersion faults.activate version previous metadata with
          | (.error error, metadata) =>
              (.failed ⟨.internal, texts.activate ++ error.display, true⟩, metadata, state)
          | (.ok _, metadata) =>
              let state := state.activated version scanner reputation
              (.committed (contentStatus faults.status metadata state), metadata, state)

/-- What happens during an installation: the manifest that is fetched, the name of the staging
directory, how the calls of the disk end, and what fails in the activation. -/
structure InstallChoices where
  manifest : Except UpdateError (List UInt8)
  uuid : String
  calls : List DiskChoice
  activation : ActivationFaults

/-- Nothing is returned when the service is stopped before.
Source: `updates/lib.rs`, `SecurityContentUpdater::install_official` -/
def installOfficial (choices : InstallChoices) (disk : Option FileTree) :
    Option (Except UpdateError String) × Option FileTree :=
  match choices.manifest with
  | .error error => (some (.error error), disk)
  | .ok manifestBytes =>
      let run := installRun setup.crates setup.names manifestBytes choices.uuid disk choices.calls
      (run.1.result?, run.2.root)

/-- The texts of an installation. -/
def installTexts : ActivationTexts where
  scanner := "Activate validated security content: "
  reputation := "Activate validated network reputation: "
  activate := "Commit security-content activation: "

/-- The outcome, where the call comes to an end, and the world after it.
Source: `main.rs`, `ServiceState::install_content_update` -/
def installContentUpdate (choices : InstallChoices) (world : ContentWorld)
    (state : ContentState) : Option CallOutcome × ContentWorld :=
  match installOfficial setup choices world.disk with
  | (none, disk) => (none, { world with disk, service := none })
  | (some (.error error), disk) =>
      (some (.failed ⟨.limitedCoverage,
        "Install signed security content: " ++ error.display setup.crates.ioText, true⟩),
        { world with disk })
  | (some (.ok version), disk) =>
      let world := { world with disk, installed := world.installed ++ [version] }
      if version = state.contentVersion then
        (some (.current (contentStatus choices.activation.status world.metadata state)), world)
      else
        let previous :=
          if state.contentSource = "signed_update" then some state.contentVersion else none
        let (outcome, metadata, state) := activateVersion setup installTexts choices.activation
          version previous world.disk world.metadata state
        (some outcome, { world with metadata, service := some state })

/-- What fails in a rollback. -/
structure RollbackFaults where
  getMetadata : Fault
  activation : ActivationFaults

/-- Nothing fails. -/
def RollbackFaults.never : RollbackFaults := ⟨none, .never⟩

/-- The texts of a rollback. -/
def rollbackTexts : ActivationTexts where
  scanner := "Validate rollback security content: "
  reputation := "Validate rollback network reputation: "
  activate := "Commit security-content rollback: "

/-- The version that a rollback goes to.
Source: `main.rs`, `ServiceState::rollback_content_update` -/
def rollbackTarget (fault : Fault) (metadata : Metadata) : Except ApiError String := do
  let previous ← (getMetadata fault previousKey metadata).mapError fun error =>
    ⟨.internal, "Read content rollback state: " ++ error.display, true⟩
  okOr ⟨.notFound, "No previous signed content version is available", false⟩
    (previous.filter (· ≠ ""))

/-- Source: `main.rs`, `ServiceState::rollback_content_update` -/
def rollbackContentUpdate (faults : RollbackFaults) (world : ContentWorld)
    (state : ContentState) : CallOutcome × ContentWorld :=
  match rollbackTarget faults.getMetadata world.metadata with
  | .error error => (.failed error, world)
  | .ok previous =>
      let (outcome, metadata, state) := activateVersion setup rollbackTexts faults.activation
        previous (some state.contentVersion) world.disk world.metadata state
      (outcome, { world with metadata, service := some state })

/-- What fails when the service starts: the query of the active version, the loading of its content,
and any other step, of which the result says whether the service starts. -/
structure StartFaults where
  getMetadata : Fault
  load : ActivationFaults
  starts : Bool

/-- Nothing fails. -/
def StartFaults.never : StartFaults := ⟨none, .never, true⟩

/-- Source: `main.rs`, `create_state` -/
def createState (faults : StartFaults) (disk : Option FileTree) (metadata : Metadata) :
    Option ContentState :=
  match getMetadata faults.getMetadata activeKey metadata with
  | .error _ => none
  | .ok activeVersion =>
      let (scanner, reputation, contentVersion, contentSource) :=
        (activeVersion.bind fun version =>
          (loadVersion setup faults.load disk version).map fun (scanner, reputation) =>
            (scanner, reputation, version, "signed_update")).getD
          (setup.bundledScanner, setup.bundledFeed, bundledVersion, "bundled")
      if faults.starts then
        some
          { scanner, reputation, contentVersion, contentSource
            protectionMonitor := some ⟨scanner, reputation, []⟩ }
      else none

end calls

/-! ## Steps -/

/-- What happens over time. The thread of the monitor may come to an end at any time, and the
service may be stopped; what else the service writes to the table has other keys. -/
inductive ContentAction where
  | start (faults : StartFaults)
  | stop
  | install (choices : InstallChoices)
  | rollback (faults : RollbackFaults)
  | monitorTakes
  | monitorEnds
  | setMetadata (fault : Fault) (key value : String)

/-- Source: `main.rs`, `run_protection_loop` -/
def ProtectionMonitor.take (monitor : ProtectionMonitor) : Option ProtectionMonitor :=
  match monitor.commands with
  | [] => none
  | (scanner, reputation) :: commands => some ⟨scanner, reputation, commands⟩

/-- One step of the world, when it is possible. -/
def contentStep (setup : ContentSetup) (world : ContentWorld) :
    ContentAction → Option ContentWorld
  | .start faults =>
      match world.service with
      | some _ => none
      | none => some { world with service := createState setup faults world.disk world.metadata }
  | .stop => world.service.map fun _ => { world with service := none }
  | .install choices =>
      world.service.map fun state => (installContentUpdate setup choices world state).2
  | .rollback faults =>
      world.service.map fun state => (rollbackContentUpdate setup faults world state).2
  | .monitorTakes => do
      let state ← world.service
      let monitor ← state.protectionMonitor
      let monitor ← monitor.take
      return { world with service := some { state with protectionMonitor := some monitor } }
  | .monitorEnds => do
      let state ← world.service
      return { world with service := some { state with protectionMonitor := none } }
  | .setMetadata fault key value =>
      if key = activeKey ∨ key = previousKey then none
      else some { world with metadata := (setMetadata fault key value world.metadata).2 }

end OpenGuard.Service
