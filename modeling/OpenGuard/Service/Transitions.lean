import OpenGuard.Domain.Models
import OpenGuard.Lib.Table
import OpenGuard.Storage.Database

/-!
# Processes and flows that come and go

A snapshot is compared with the one that was served before it, and each process or flow that came
or went becomes a row of the timeline of the user who asked. The comparison is the only source of
process rows while there is no trace of the kernel's own process events.

* `snapshotTransitions`: what the comparison finds, and `recordSnapshotTransitions` the rows it
  writes; `recordSnapshotTransitions_rows`.
* `Served.of`: what the service keeps of a snapshot; `served_record`: only of the last one.
* `started_mem`, `stopped_mem`, `connected_mem`, `closed_mem`: which transitions are found.
-/

namespace OpenGuard.Service

open OpenGuard.Lib OpenGuard.Domain OpenGuard.Storage

/-- Source: `main.rs`, `network_timeline_key` -/
def networkTimelineKey (endpoint : NetworkEndpoint) : String :=
  endpoint.protocol ++ "|" ++ toString endpoint.pid.toNat ++ "|" ++ endpoint.localAddress ++ "|" ++
    toString endpoint.localPort.toNat ++ "|" ++ endpoint.remoteAddress ++ "|" ++
    toString endpoint.remotePort.toNat

/-- What the service keeps of the snapshot that it served last.
Source: `main.rs`, `ServiceState` -/
structure Served where
  activeProcesses : Table UInt32 String
  activeNetwork : Table String NetworkEndpoint
  snapshotBaselined : Bool

/-- A service that has served no snapshot. -/
def Served.initial : Served := ⟨∅, ∅, false⟩

/-- The path of each process of a snapshot.
Source: `main.rs`, `ServiceState::record_snapshot_transitions` -/
def processMap (snapshot : SystemSnapshot) : Table UInt32 String :=
  Table.collect (snapshot.processes.map fun process => (process.pid, process.path))

/-- The flows of a snapshot that have a remote end.
Source: `main.rs`, `ServiceState::record_snapshot_transitions` -/
def networkMap (snapshot : SystemSnapshot) : Table String NetworkEndpoint :=
  Table.collect ((snapshot.endpoints.filter fun endpoint => endpoint.remotePort != 0).map
    fun endpoint => (networkTimelineKey endpoint, endpoint))

/-- What is kept of a snapshot. -/
def Served.of (snapshot : SystemSnapshot) : Served :=
  ⟨processMap snapshot, networkMap snapshot, true⟩

/-- A process or a flow that came or went. -/
inductive Transition where
  | started (process : ProcessRecord)
  | stopped (pid : UInt32) (path : String)
  | connected (key : String) (endpoint : NetworkEndpoint)
  | closed (key : String) (endpoint : NetworkEndpoint)
  deriving DecidableEq

/-- The severity of a flow.
Source: `main.rs`, `ServiceState::record_snapshot_transitions` -/
def flowSeverity (reputation : String) : Severity :=
  if reputation = "malicious" then .high
  else if reputation = "suspicious" then .medium
  else .info

/-- The event of the timeline.
Source: `main.rs`, `ServiceState::record_snapshot_transitions` -/
def Transition.event (capturedAt correlationId : String) : Transition → TimelineEvent
  | started process =>
      { category := "process"
        action := "started"
        severity := process.risk.severity
        title := "Process appeared: " ++ process.name
        detail := "Parent PID " ++ toString process.parentPid.toNat ++
          " · command line unavailable in polling fallback"
        processId := some process.pid
        path := process.path
        remoteAddress := ""
        correlationId := correlationId
        occurredAt := capturedAt }
  | stopped pid path =>
      { category := "process"
        action := "stopped"
        severity := .info
        title := "Process exited: PID " ++ toString pid.toNat
        detail := "Detected by bounded process snapshot reconciliation"
        processId := some pid
        path := path
        remoteAddress := ""
        correlationId := correlationId
        occurredAt := capturedAt }
  | connected _ endpoint =>
      let destination :=
        if endpoint.remoteHostname = "" then endpoint.remoteAddress
        else endpoint.remoteHostname ++ " (" ++ endpoint.remoteAddress ++ ")"
      { category := "network"
        action := "connected"
        severity := flowSeverity endpoint.reputation
        title := endpoint.processName ++ " opened a network flow"
        detail := endpoint.protocol ++ " " ++ destination ++ ":" ++
          toString endpoint.remotePort.toNat ++ " · state " ++ endpoint.state ++
          " · reputation " ++ endpoint.reputation
        processId := some endpoint.pid
        path := endpoint.processPath
        remoteAddress := endpoint.remoteAddress
        correlationId := correlationId
        occurredAt := capturedAt }
  | closed _ endpoint =>
      { category := "network"
        action := "closed"
        severity := .info
        title := endpoint.processName ++ " network flow closed"
        detail := endpoint.protocol ++ " " ++ endpoint.remoteAddress ++ ":" ++
          toString endpoint.remotePort.toNat
        processId := some endpoint.pid
        path := endpoint.processPath
        remoteAddress := endpoint.remoteAddress
        correlationId := correlationId
        occurredAt := capturedAt }

/-- What the environment decides during a comparison: the orders of the loops over the maps, and the
identifiers that are made for the rows. -/
structure PollInput where
  stoppedOrder : IterOrder UInt32 String
  connectedOrder : IterOrder String NetworkEndpoint
  closedOrder : IterOrder String NetworkEndpoint
  correlationIds : ℕ → String
  deriving Inhabited

/-- The processes that started or stopped.
Source: `main.rs`, `ServiceState::record_snapshot_transitions` -/
def processTransitions (input : PollInput) (served : Served) (snapshot : SystemSnapshot) :
    List Transition :=
  (snapshot.processes.filter fun process =>
      served.activeProcesses.lookup process.pid != some process.path).map .started ++
    ((input.stoppedOrder.entries served.activeProcesses).filter fun process =>
      ((processMap snapshot).lookup process.1).isNone).map fun process =>
        .stopped process.1 process.2

/-- The flows that were opened or closed.
Source: `main.rs`, `ServiceState::record_snapshot_transitions` -/
def networkTransitions (input : PollInput) (served : Served) (snapshot : SystemSnapshot) :
    List Transition :=
  ((input.connectedOrder.entries (networkMap snapshot)).filter fun flow =>
      (served.activeNetwork.lookup flow.1).isNone).map (fun flow => .connected flow.1 flow.2) ++
    ((input.closedOrder.entries served.activeNetwork).filter fun flow =>
      ((networkMap snapshot).lookup flow.1).isNone).map fun flow => .closed flow.1 flow.2

/-- What the comparison finds; `etwMonitor` tells whether the kernel's process events are traced.
Source: `main.rs`, `ServiceState::record_snapshot_transitions` -/
def snapshotTransitions (etwMonitor : Bool) (input : PollInput) (served : Served)
    (snapshot : SystemSnapshot) : List Transition :=
  if !served.snapshotBaselined then []
  else
    (if etwMonitor then [] else processTransitions input served snapshot) ++
      networkTransitions input served snapshot

/-- The events of the transitions, in order. -/
def transitionEvents (input : PollInput) (capturedAt : String) (transitions : List Transition) :
    List TimelineEvent :=
  transitions.mapIdx fun index transition =>
    transition.event capturedAt (input.correlationIds index)

/-- The rows after the comparison; a row that cannot be written is left out.
Source: `main.rs`, `ServiceState::record_snapshot_transitions` -/
def recordSnapshotTransitions (faults : ℕ → Fault) (etwMonitor : Bool) (input : PollInput)
    (ownerSid : String) (snapshot : SystemSnapshot) (state : Served × RowTable TimelineRow) :
    Served × RowTable TimelineRow :=
  let transitions := snapshotTransitions etwMonitor input state.1 snapshot
  (.of snapshot,
    (transitionEvents input snapshot.capturedAt transitions).zipIdx.foldl
      (fun rows event => (recordTimeline (faults event.2) ownerSid event.1 rows).2) state.2)

/-! ## What a comparison writes and finds -/

section transitions

variable {input : PollInput} {served : Served} {snapshot : SystemSnapshot} {process : ProcessRecord}
  {pid : UInt32} {path key : String} {endpoint : NetworkEndpoint}

/-- When the database works, the rows of the transitions are added in order, for the user who
asked. -/
theorem recordSnapshotTransitions_rows (etwMonitor : Bool) (input : PollInput) (ownerSid : String)
    (snapshot : SystemSnapshot) (state : Served × RowTable TimelineRow) :
    (recordSnapshotTransitions (fun _ => none) etwMonitor input ownerSid snapshot state).2 =
      insertTimelines ownerSid (transitionEvents input snapshot.capturedAt
        (snapshotTransitions etwMonitor input state.1 snapshot)) state.2 := by
  have hfold : ∀ (events : List TimelineEvent) (start : ℕ) (rows : RowTable TimelineRow),
      (events.zipIdx start).foldl (fun rows event => insertTimeline ownerSid event.1 rows) rows =
        insertTimelines ownerSid events rows := by
    intro events
    induction events with
    | nil => exact fun _ _ => rfl
    | cons event events ih => exact fun start rows => ih (start + 1) _
  exact hfold _ 0 _

/-- What a comparison leaves is the snapshot itself. -/
@[simp] theorem served_record (faults : ℕ → Fault) (etwMonitor : Bool) (ownerSid : String)
    (state : Served × RowTable TimelineRow) :
    (recordSnapshotTransitions faults etwMonitor input ownerSid snapshot state).1 =
      .of snapshot := rfl

@[simp] theorem started_mem : .started process ∈ processTransitions input served snapshot ↔
    process ∈ snapshot.processes ∧
      served.activeProcesses.lookup process.pid ≠ some process.path := by
  simp [processTransitions]

@[simp] theorem stopped_mem : .stopped pid path ∈ processTransitions input served snapshot ↔
    served.activeProcesses.lookup pid = some path ∧ (processMap snapshot).lookup pid = none := by
  simp [processTransitions, IterOrder.mem_entries, Table.mem_entries_iff]

@[simp] theorem connected_mem : .connected key endpoint ∈ networkTransitions input served snapshot ↔
    (networkMap snapshot).lookup key = some endpoint ∧
      served.activeNetwork.lookup key = none := by
  simp [networkTransitions, IterOrder.mem_entries, Table.mem_entries_iff]

@[simp] theorem closed_mem : .closed key endpoint ∈ networkTransitions input served snapshot ↔
    served.activeNetwork.lookup key = some endpoint ∧
      (networkMap snapshot).lookup key = none := by
  simp [networkTransitions, IterOrder.mem_entries, Table.mem_entries_iff]

/-- A transition of a process, not of a flow. -/
def Transition.isProcess : Transition → Bool
  | started _ | stopped _ _ => true
  | connected _ _ | closed _ _ => false

theorem isProcess_of_mem {transition : Transition}
    (h : transition ∈ processTransitions input served snapshot) : transition.isProcess := by
  rcases List.mem_append.mp h with h | h <;> obtain ⟨_, -, rfl⟩ := List.mem_map.mp h <;> rfl

theorem not_isProcess_of_mem {transition : Transition}
    (h : transition ∈ networkTransitions input served snapshot) : ¬transition.isProcess := by
  rcases List.mem_append.mp h with h | h <;> obtain ⟨_, -, rfl⟩ := List.mem_map.mp h <;>
    exact Bool.false_ne_true

/-- The transitions of a service that has served a snapshot and traces no process events. -/
theorem snapshotTransitions_of_baselined (h : served.snapshotBaselined) :
    snapshotTransitions false input served snapshot =
      processTransitions input served snapshot ++ networkTransitions input served snapshot := by
  simp [snapshotTransitions, h]

end transitions

end OpenGuard.Service
