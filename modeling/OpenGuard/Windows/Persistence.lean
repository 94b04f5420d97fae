import OpenGuard.Domain.Models
import OpenGuard.Lib.Access
import OpenGuard.Lib.JsonValue
import OpenGuard.Lib.Text

/-!
# The collection of startup registrations

What starts with the machine is read from four places: the keys of the services, the Run keys, the
tasks and WMI consumers that a PowerShell script lists, and the folders of the browsers. Each read
may fail, and what cannot be read is left out; the inventory says of each source how it was covered.

* `StartupMachine`: what is registered, and what can be read of it.
* `collectServices`, `collectRunKeys`, `collectTasksAndWmi`, `collectBrowserExtensions`: the
  sources.
* `collectPersistence`: the inventory, of at most 10,000 items.
-/

namespace OpenGuard.Windows

open OpenGuard.Lib OpenGuard.Domain

/-! ## The registrations -/

/-- Source: `persistence.rs`, `PersistenceContext` -/
structure PersistenceContext where
  ownerSid : String
  userProfile : String
  localAppData : String
  roamingAppData : String
  deriving DecidableEq, Inhabited

/-- A key below `Services` with the values that are read; a value that is missing or of another type
is `none`. -/
structure ServiceKey where
  name : String
  kind : Option UInt32
  start : Option UInt32
  imagePath : Option String
  displayName : Option String
  deriving DecidableEq, Inhabited

/-- A value of a Run key, with its text if it is one. -/
structure RunValue where
  name : String
  command : Option String
  deriving DecidableEq, Inhabited

/-- A Run key and its values. -/
abbrev RunKey := Access (List (Access RunValue))

/-- The two views of the registry. -/
inductive RegistryView where
  | wow64
  | wow32
  deriving DecidableEq, Inhabited

/-- The states of a scheduled task. -/
inductive TaskState where
  | unknown
  | disabled
  | queued
  | ready
  | running
  deriving DecidableEq, Inhabited

/-- The text of a state in the script. -/
def TaskState.text : TaskState → String
  | unknown => "Unknown"
  | disabled => "Disabled"
  | queued => "Queued"
  | ready => "Ready"
  | running => "Running"

/-- A scheduled task with the programs and arguments of its actions. -/
structure ScheduledTask where
  taskPath : String
  taskName : String
  actions : List (String × String)
  state : TaskState
  deriving DecidableEq, Inhabited

structure CommandLineConsumer where
  name : String
  executablePath : String
  commandLineTemplate : String
  deriving DecidableEq, Inhabited

structure ActiveScriptConsumer where
  name : String
  scriptText : String
  deriving DecidableEq, Inhabited

/-- A version of an extension. The manifest is the value of its text, `null` if it is no JSON. -/
structure ExtensionVersion where
  manifestPath : String
  manifest : Access Json

/-- The folder of an extension: its name, its path and its versions. -/
structure ExtensionFolder where
  name : String
  path : String
  versions : Access (List (Access ExtensionVersion))

/-- The folder `Extensions` of a profile of a browser. -/
abbrev BrowserProfile := Access (List (Access ExtensionFolder))

/-- A profile of Firefox, with the value of its `extensions.json`. -/
structure FirefoxProfile where
  path : String
  extensions : Access Json

/-- What is registered on a machine, and what can be read of it for an owner. `powershell` says how
the script fails, if it does, and the two fields after it how its commands do. The consumers of
scripts are asked for without a report of errors. -/
structure StartupMachine where
  services : Access (List (Access ServiceKey))
  userRun : String → RunKey
  machineRun : String → RegistryView → RunKey
  powershell : Option String
  tasksError : Option String
  wmiError : Option String
  tasks : List ScheduledTask
  commandLineConsumers : List CommandLineConsumer
  activeScriptConsumers : List (Access ActiveScriptConsumer)
  edge : Access (List (Access BrowserProfile))
  chrome : Access (List (Access BrowserProfile))
  firefox : Access (List (Access FirefoxProfile))

/-- Source: `models.rs`, `PersistenceInventory` -/
structure PersistenceInventory where
  items : List PersistenceItem
  collectedAt : String
  coverage : List CoverageNote
  deriving DecidableEq, Inhabited

/-- Source: `persistence.rs`, `MAX_PERSISTENCE_ITEMS` -/
def maxPersistenceItems : ℕ := 10000

/-! ## What is said of a registration -/

section items

-- the first 12 bytes of the SHA-256 of a text, as hexadecimal
variable (digest : String → String)

/-- Source: `persistence.rs`, `stable_id` -/
def stableId (category identity : String) : String :=
  category ++ "-" ++ digest (category ++ "\x00" ++ toAsciiLowercase identity)

/-- Source: `persistence.rs`, `command_risk` -/
def commandRisk (command category : String) : Severity × List String :=
  let lowered := toAsciiLowercase command
  let writable := containsStr lowered "\\appdata\\" || containsStr lowered "\\temp\\" ||
    containsStr lowered "\\downloads\\"
  let encoded := containsStr lowered "-enc " || containsStr lowered "frombase64string" ||
    containsStr lowered "javascript:"
  let outside := category == "driver" && !lowered.isEmpty && !containsStr lowered "\\system32\\"
  let risk : Severity := if encoded then .high else if writable then .medium else .info
  let evidence :=
    (if writable then ["Startup command references a user-writable location"] else []) ++
    (if encoded then ["Startup command contains encoded or script-based execution"] else []) ++
    (if outside then ["Driver image is outside the normal System32 path"] else [])
  (if outside then (if risk ≤ Severity.medium then .medium else risk) else risk,
    if evidence.isEmpty then
      ["Registered startup mechanism; no high-confidence malicious signal"]
    else evidence)

/-- Source: `persistence.rs`, `start_state` -/
def startState (value : UInt32) : String :=
  if value = 0 then "boot"
  else if value = 1 then "system"
  else if value = 2 then "automatic"
  else if value = 3 then "manual"
  else if value = 4 then "disabled"
  else "unknown"

/-- Source: `persistence.rs`, `unavailable` -/
def unavailable (source detail : String) : CoverageNote := ⟨source, .unavailable, detail⟩

/-! ## Services -/

/-- The key is that of a service or a driver that is not disabled.
Source: `persistence.rs`, `collect_services` -/
def ServiceKey.isListed (key : ServiceKey) : Bool :=
  (key.kind.getD 0 &&& 0x33) != 0 && key.start.getD 3 != 4

/-- Source: `persistence.rs`, `collect_services` -/
def ServiceKey.category (key : ServiceKey) : String :=
  if (key.kind.getD 0 &&& 0x03) != 0 then "driver" else "service"

/-- Source: `persistence.rs`, `collect_services` -/
def serviceItem (observedAt : String) (key : ServiceKey) : PersistenceItem :=
  let command := key.imagePath.getD ""
  { id := stableId digest key.category key.name
    category := key.category
    name := key.displayName.getD key.name
    command := command
    location := "HKLM\\SYSTEM\\CurrentControlSet\\Services\\" ++ key.name
    state := startState (key.start.getD 3)
    risk := (commandRisk command key.category).1
    evidence := (commandRisk command key.category).2
    detectedAt := observedAt
    responseCapability := if key.category = "service" then "disable_restore" else "none" }

/-- The keys that are listed; the loop ends with the ten thousandth. -/
def listedServices (keys : List (Access ServiceKey)) : List ServiceKey :=
  ((Access.readAll keys).filter ServiceKey.isListed).take maxPersistenceItems

/-- Source: `persistence.rs`, `collect_services` -/
def collectServices (services : Access (List (Access ServiceKey))) (observedAt : String) :
    List PersistenceItem × List CoverageNote :=
  match services.read with
  | none =>
      ([], [unavailable "services_and_drivers" "The Services registry key was unavailable"])
  | some keys =>
      let items := (listedServices keys).map (serviceItem digest observedAt)
      (items, [⟨"services_and_drivers", .active,
        "Inventoried " ++ toString items.length ++ " enabled service and driver registrations"⟩])

/-! ## Run keys -/

/-- Source: `persistence.rs`, `collect_run_keys` -/
def runPaths : List String :=
  ["Software\\Microsoft\\Windows\\CurrentVersion\\Run",
    "Software\\Microsoft\\Windows\\CurrentVersion\\RunOnce"]

/-- The Run keys, each with its category and its location.
Source: `persistence.rs`, `collect_run_keys` -/
def runKeys (ownerSid : String) (machine : StartupMachine) : List (String × String × RunKey) :=
  runPaths.flatMap fun path =>
    [("run_key_user", "HKU\\" ++ ownerSid ++ "\\" ++ path, machine.userRun path),
      ("run_key_machine", "HKLM\\" ++ path, machine.machineRun path .wow64),
      ("run_key_machine", "HKLM\\" ++ path, machine.machineRun path .wow32)]

/-- Source: `persistence.rs`, `collect_run_values` -/
def runItem (category location observedAt name command : String) : PersistenceItem where
  id := stableId digest category (location ++ "|" ++ name)
  category := category
  name := name
  command := command
  location := location
  state := "enabled"
  risk := (commandRisk command category).1
  evidence := (commandRisk command category).2
  detectedAt := observedAt
  responseCapability := "none"

/-- Source: `persistence.rs`, `collect_run_values` -/
def collectRunValues (values : List (Access RunValue)) (category location observedAt : String) :
    List PersistenceItem :=
  (Access.readAll values).filterMap fun value =>
    value.command.map (runItem digest category location observedAt value.name)

/-- Source: `persistence.rs`, `collect_run_keys` -/
def collectRunKeys (context : PersistenceContext) (machine : StartupMachine)
    (observedAt : String) : List PersistenceItem × List CoverageNote :=
  let opened := (runKeys context.ownerSid machine).filterMap fun (category, location, key) =>
    key.read.map fun values => (category, location, values)
  let items := opened.flatMap fun (category, location, values) =>
    collectRunValues digest values category location observedAt
  (items, [⟨"run_and_runonce", if opened.length = 0 then .limited else .active,
    "Read " ++ toString opened.length ++ " visible Run/RunOnce keys and found " ++
      toString items.length ++ " values"⟩])

/-! ## Tasks and WMI consumers -/

/-- Source: `persistence.rs`, `PowerShellItem` -/
structure PowerShellItem where
  category : String
  name : String
  command : String
  location : String
  state : String
  responseCapability : String
  deriving DecidableEq, Inhabited

/-- Source: `persistence.rs`, `PowerShellInventory` -/
structure PowerShellInventory where
  items : List PowerShellItem
  tasksError : String
  wmiError : String
  deriving DecidableEq, Inhabited

/-- Source: `persistence.rs`, `SCRIPT` -/
def taskEntry (task : ScheduledTask) : PowerShellItem where
  category := "scheduled_task"
  name := task.taskName
  command := joinWith " | " (task.actions.map fun action => trim (action.1 ++ " " ++ action.2))
  location := task.taskPath ++ task.taskName
  state := task.state.text
  responseCapability := "disable_restore"

/-- Source: `persistence.rs`, `SCRIPT` -/
def commandLineEntry (consumer : CommandLineConsumer) : PowerShellItem where
  category := "wmi_consumer"
  name := consumer.name
  command := trim (consumer.executablePath ++ " " ++ consumer.commandLineTemplate)
  location := "root/subscription:CommandLineEventConsumer"
  state := "enabled"
  responseCapability := "none"

/-- Source: `persistence.rs`, `SCRIPT` -/
def activeScriptEntry (consumer : ActiveScriptConsumer) : PowerShellItem where
  category := "wmi_consumer"
  name := consumer.name
  command := consumer.scriptText
  location := "root/subscription:ActiveScriptEventConsumer"
  state := "enabled"
  responseCapability := "none"

/-- What the script prints. A command that fails adds nothing, and one of WMI skips the next one.
Source: `persistence.rs`, `SCRIPT` -/
def inventoryScript (machine : StartupMachine) : PowerShellInventory where
  items :=
    (if machine.tasksError.isNone then machine.tasks.map taskEntry else []) ++
    (if machine.wmiError.isNone then
      machine.commandLineConsumers.map commandLineEntry ++
        (Access.readAll machine.activeScriptConsumers).map activeScriptEntry
    else [])
  tasksError := machine.tasksError.getD ""
  wmiError := machine.wmiError.getD ""

/-- Source: `persistence.rs`, `run_powershell_json` -/
def runPowershellJson (machine : StartupMachine) : Except String PowerShellInventory :=
  match machine.powershell with
  | some error => .error error
  | none => .ok (inventoryScript machine)

/-- Source: `persistence.rs`, `collect_tasks_and_wmi` -/
def powerShellItem (observedAt : String) (item : PowerShellItem) : PersistenceItem :=
  let (risk, evidence) := commandRisk item.command item.category
  let consumer := item.category == "wmi_consumer"
  { id := stableId digest item.category item.location
    category := item.category
    name := item.name
    command := item.command
    location := item.location
    state := item.state
    risk := if consumer && risk ≤ Severity.medium then .medium else risk
    evidence :=
      if consumer then
        evidence ++ ["Permanent WMI consumers execute outside normal startup folders"]
      else evidence
    detectedAt := observedAt
    responseCapability := item.responseCapability }

/-- The note on one of the two sources of the script. -/
def scriptNote (source error detail limited : String) : CoverageNote where
  source := source
  state := if error = "" then .active else .limited
  detail := if error = "" then detail else limited ++ error

/-- Source: `persistence.rs`, `collect_tasks_and_wmi` -/
def collectTasksAndWmi (machine : StartupMachine) (observedAt : String) :
    List PersistenceItem × List CoverageNote :=
  match runPowershellJson machine with
  | .error error => ([], [unavailable "scheduled_tasks" error, unavailable "wmi_persistence" error])
  | .ok document =>
      let taskCount := document.items.countP (·.category == "scheduled_task")
      let wmiCount := document.items.countP (·.category == "wmi_consumer")
      (document.items.map (powerShellItem digest observedAt),
        [scriptNote "scheduled_tasks" document.tasksError
            ("Inventoried " ++ toString taskCount ++
              " scheduled tasks through the Task Scheduler module")
            "Scheduled-task inventory was limited: ",
          scriptNote "wmi_persistence" document.wmiError
            ("Inventoried " ++ toString wmiCount ++ " permanent WMI command/script consumers")
            "WMI persistence inventory was limited: "])

/-! ## Browsers -/

/-- `Value::as_str` -/
def jsonStr : Json → Option String
  | .string value => some value
  | _ => none

/-- `Value::as_array` -/
def jsonArray : Json → Option (List Json)
  | .array items => some items
  | _ => none

/-- The permissions that a manifest asks for.
Source: `persistence.rs`, `collect_browser_extensions` -/
def manifestPermissions (manifest : Json) : List String :=
  (((manifest.get "permissions").bind jsonArray).map (List.filterMap jsonStr)).getD []

/-- Source: `persistence.rs`, `collect_browser_extensions` -/
def extensionItem (category observedAt : String) (folder : ExtensionFolder)
    (manifestPath : String) (manifest : Json) : PersistenceItem :=
  let permissions := manifestPermissions manifest
  let broad := permissions.any (["webRequest", "cookies", "nativeMessaging", "debugger"].contains ·)
  { id := stableId digest category folder.name
    category := category
    name := ((manifest.get "name").bind jsonStr).getD "Browser extension"
    command := manifestPath
    location := folder.path
    state := "installed"
    risk := if broad then .medium else .info
    evidence :=
      if broad then ["Extension requests sensitive permissions: " ++ joinWith ", " permissions]
      else ["Installed browser extension manifest"]
    detectedAt := observedAt
    responseCapability := "none" }

/-- The first version of an extension whose manifest can be read. -/
def foundManifest (folder : ExtensionFolder) : Option (String × Json) :=
  folder.versions.read.bind fun versions =>
    (Access.readAll versions).findSome? fun version =>
      version.manifest.read.map fun manifest => (version.manifestPath, manifest)

/-- The extensions of a browser, over all of its profiles.
Source: `persistence.rs`, `collect_browser_extensions` -/
def browserItems (category observedAt : String)
    (profiles : Access (List (Access BrowserProfile))) : List PersistenceItem :=
  match profiles.read with
  | none => []
  | some profiles =>
      (Access.readAll profiles).flatMap fun profile =>
        match profile.read with
        | none => []
        | some folders =>
            (Access.readAll folders).filterMap fun folder =>
              (foundManifest folder).map fun (manifestPath, manifest) =>
                extensionItem digest category observedAt folder manifestPath manifest

/-- The add-ons that a profile of Firefox says are active. -/
def activeAddons (document : Json) : List Json :=
  (((document.get "addons").bind jsonArray).getD []).filter fun addon =>
    match addon.get "active" with
    | some (.bool active) => active
    | _ => false

/-- Source: `persistence.rs`, `collect_browser_extensions` -/
def addonId (addon : Json) : String := ((addon.get "id").bind jsonStr).getD "unknown"

/-- Source: `persistence.rs`, `collect_browser_extensions` -/
def addonItem (observedAt : String) (profile : FirefoxProfile) (addon : Json) :
    PersistenceItem where
  id := stableId digest "firefox_extension" (addonId addon)
  category := "firefox_extension"
  name := (((addon.get "defaultLocale").bind fun locale => locale.get "name").bind jsonStr).getD
    (addonId addon)
  command := profile.path ++ "\\extensions.json"
  location := profile.path ++ " · " ++ addonId addon
  state := "installed"
  risk := .info
  evidence := ["Active Firefox add-on registration"]
  detectedAt := observedAt
  responseCapability := "none"

/-- Source: `persistence.rs`, `collect_browser_extensions` -/
def firefoxItems (observedAt : String) (profiles : Access (List (Access FirefoxProfile))) :
    List PersistenceItem :=
  match profiles.read with
  | none => []
  | some profiles =>
      (Access.readAll profiles).flatMap fun profile =>
        match profile.extensions.read with
        | none => []
        | some document => (activeAddons document).map (addonItem digest observedAt profile)

/-- Source: `persistence.rs`, `collect_browser_extensions` -/
def collectBrowserExtensions (context : PersistenceContext) (machine : StartupMachine)
    (observedAt : String) : List PersistenceItem × List CoverageNote :=
  let items := browserItems digest "edge_extension" observedAt machine.edge ++
    browserItems digest "chrome_extension" observedAt machine.chrome ++
    firefoxItems digest observedAt machine.firefox
  (items, [⟨"browser_extensions", if context.localAppData = "" then .limited else .active,
    "Inventoried " ++ toString items.length ++
      " Chrome, Edge, and Firefox extension registrations"⟩])

/-! ## The inventory -/

/-- An item is listed no later than another: the greater risk first, then by category and name.
Source: `persistence.rs`, `collect_persistence` -/
def listedNoLater (left right : PersistenceItem) : Prop :=
  right.risk.rank < left.risk.rank ∨ right.risk.rank = left.risk.rank ∧
    (left.category < right.category ∨ left.category = right.category ∧
      toAsciiLowercase left.name ≤ toAsciiLowercase right.name)

instance : DecidableRel listedNoLater := fun _ _ => inferInstanceAs (Decidable (_ ∨ _))

/-- The items that the sources give, before they are sorted.
Source: `persistence.rs`, `collect_persistence` -/
def collectedItems (context : PersistenceContext) (machine : StartupMachine)
    (observedAt : String) : List PersistenceItem :=
  (collectServices digest machine.services observedAt).1 ++
    (collectRunKeys digest context machine observedAt).1 ++
    (collectTasksAndWmi digest machine observedAt).1 ++
    (collectBrowserExtensions digest context machine observedAt).1

/-- Source: `persistence.rs`, `collect_persistence` -/
def collectPersistence (context : PersistenceContext) (machine : StartupMachine)
    (observedAt : String) : PersistenceInventory where
  items := ((collectedItems digest context machine observedAt).insertionSort listedNoLater).take
    maxPersistenceItems
  collectedAt := observedAt
  coverage :=
    (collectServices digest machine.services observedAt).2 ++
      (collectRunKeys digest context machine observedAt).2 ++
      (collectTasksAndWmi digest machine observedAt).2 ++
      (collectBrowserExtensions digest context machine observedAt).2

end items

end OpenGuard.Windows
