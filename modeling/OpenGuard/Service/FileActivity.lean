import OpenGuard.Detection.FileScan
import OpenGuard.Service.PolicyRequests
import OpenGuard.Service.RealtimeScan
import OpenGuard.Windows.BaselineRuns
import Mathlib.Data.Finset.Card

/-!
# File activity

The service takes the notifications from the file monitor of a user, writes a row of the timeline
for each, and starts a real-time scan of each file that may run. It remembers the notifications it
has handled by a key with the second of the notification, and starts at most two scans at a time.

* `drainFileActivity`, `handleActivity`, `clearReported`: the turns of one drain.
* `activityStep`: changes of files, drains of any users, and the calls of the scans, in any order.
* `handled_iff`: over every run, a notification gets its row and its scan exactly when its key is
  new and a slot is free, and nothing fails.
-/

namespace OpenGuard.Service

open OpenGuard.Lib OpenGuard.Domain OpenGuard.Storage OpenGuard.Detection OpenGuard.Windows
open OpenGuard.Updates

/-! ## The drain -/

/-- The extensions of the files that are scanned in real time.
Source: `main.rs`, `realtime_scan_candidate` -/
def realtimeExtensions : List String :=
  ["exe", "dll", "sys", "scr", "com", "cpl", "msi", "ps1", "psm1", "bat", "cmd", "js", "jse", "vbs",
    "vbe", "hta", "lnk"]

/-- Source: `main.rs`, `realtime_scan_candidate` -/
def realtimeScanCandidate (path : String) : Bool :=
  ((fileName path).bind fileExtension).any fun extension =>
    realtimeExtensions.contains (toAsciiLowercase extension)

/-- The key under which a notification is remembered.
Source: `main.rs`, `ServiceState::drain_file_activity` -/
def fileKey (clientSid pathKey : String) (activity : FileActivity) : String :=
  "file:" ++ clientSid ++ ":" ++ activity.action ++ ":" ++ pathKey ++ ":" ++ activity.observedAt

/-- The row of a notification.
Source: `main.rs`, `ServiceState::drain_file_activity` -/
def fileEvent (correlationId : String) (activity : FileActivity) : TimelineEvent where
  category := "file"
  action := activity.action
  severity := if realtimeScanCandidate activity.path then .low else .info
  title := "File " ++ activity.action
  detail := "Observed by " ++ activity.source
  processId := none
  path := activity.path
  remoteAddress := ""
  correlationId
  occurredAt := activity.observedAt

/-- The text of a flag. -/
def flagText (flag : Bool) : String := if flag then "true" else "false"

/-- The row of a gap that was reconciled.
Source: `main.rs`, `ServiceState::drain_file_activity` -/
def gapEvent (clientSid : String) (now : Clock) (snapshot : FileMonitorSnapshot) :
    TimelineEvent where
  category := "system"
  action := "file_monitor_reconciled"
  severity := .medium
  title := "File monitor gap reconciled"
  detail := "File notification gap reconciled by bounded subtree enumeration; dropped=" ++
    toString snapshot.dropped ++ ", journal_changed=" ++ flagText snapshot.journalChanged
  processId := none
  path := ""
  remoteAddress := ""
  correlationId := "file-gap:" ++ clientSid ++ ":" ++ now.unixTimestamp
  occurredAt := now.unixTimestamp

/-- The monitors of the users, the drain that is going on with the notifications it has left, the
keys that are remembered, and the scans with the tables. -/
structure ActivityState where
  monitors : Table String FileMonitor
  draining : Option (String × List FileActivity)
  reportedProcesses : Finset String
  realtime : RealtimeState

/-- What the environment decides of the beginning of a drain: the monitor that can be started for a
user without one, the file system, the clocks of the monitor and of the service, and the outcome of
the write. -/
structure DrainChoice where
  started : Option FileMonitor
  fs : FileSystem
  order : IterOrder String FileFingerprint
  observedAt : String
  now : Clock
  fault : Fault

/-- What it decides of a notification: the canonical paths, the outcome of the write, the id of the
row, the metadata of the file, and whether a thread can be started. -/
structure HandleChoice where
  canonicalize : String → Option String
  fault : Fault
  correlationId : String
  metadata : Option Service.FileMetadata
  started : Bool

/-- The row that a call writes. -/
def writeTimeline (fault : Fault) (clientSid : String) (event : TimelineEvent)
    (state : RealtimeState) : RealtimeState :=
  { state with
    history :=
      { state.history with
        timelineEvents := (recordTimeline fault clientSid event state.history.timelineEvents).2 } }

/-- The beginning of a drain, up to the loop over the notifications.
Source: `main.rs`, `ServiceState::drain_file_activity` -/
def drainFileActivity (clientSid : String) (choice : DrainChoice) (state : ActivityState) :
    ActivityState :=
  match (state.monitors.lookup clientSid).or choice.started with
  | none => state
  | some monitor =>
      let (snapshot, monitor) := drain choice.fs choice.order choice.observedAt 512 monitor
      { state with
        monitors := state.monitors.insert clientSid monitor
        draining := some (clientSid, snapshot.events)
        realtime :=
          if snapshot.reconciled then
            writeTimeline choice.fault clientSid (gapEvent clientSid choice.now snapshot)
              state.realtime
          else state.realtime }

/-- A file is scheduled, and its thread started if it has got a slot.
Source: `main.rs`, `ServiceState::schedule_realtime_scan` -/
def startRealtimeScan (clientSid path : String) (choice : HandleChoice) (state : RealtimeState) :
    RealtimeState :=
  let state := scheduleRealtimeScan clientSid path choice.metadata state
  match state.starting with
  | none => state
  | some call => spawnRealtimeScan choice.started call.1 call.2 state

/-- A turn of the loop over the notifications.
Source: `main.rs`, `ServiceState::drain_file_activity` -/
def handleActivity (clientSid : String) (activity : FileActivity) (choice : HandleChoice)
    (state : ActivityState) : ActivityState :=
  let key := fileKey clientSid (normalizedPathKey choice.canonicalize activity.path) activity
  if key ∈ state.reportedProcesses then state
  else
    let written := writeTimeline choice.fault clientSid
      (fileEvent choice.correlationId activity) state.realtime
    { state with
      reportedProcesses := insert key state.reportedProcesses
      realtime :=
        if realtimeScanCandidate activity.path ∧ activity.action ≠ "removed" then
          startRealtimeScan clientSid activity.path choice written
        else written }

/-- The number of keys above which all are forgotten. -/
def maximumReported : ℕ := 100000

/-- Source: `main.rs`, `ServiceState::drain_file_activity` -/
def clearReported (reported : Finset String) : Finset String :=
  if maximumReported < reported.card then ∅ else reported

/-! ## The machine -/

/-- What can happen next: a notification of Windows, the baseline of a monitor is ready, a drain
begins, its next notification is handled, it ends; the keys of another report are remembered; a scan
makes its next call. -/
inductive ActivityAction where
  | notify (clientSid now : String) (kind : EventKind) (paths : List String)
  | baseline (clientSid : String) (baseline : Fingerprints)
  | drain (clientSid : String) (choice : DrainChoice)
  | handle (choice : HandleChoice)
  | finish
  | report (keys : Finset String)
  | call (thread : ℕ) (choice : RealtimeChoice)

/-- A change of the monitor of a user, if there is one. -/
def ActivityState.changeMonitor (clientSid : String) (change : FileMonitor → FileMonitor)
    (state : ActivityState) : Option ActivityState :=
  (state.monitors.lookup clientSid).map fun monitor =>
    { state with monitors := state.monitors.insert clientSid (change monitor) }

/-- One step. The requests of the service are served one after the other, so a drain is over before
another one begins. -/
def activityStep (state : ActivityState) : ActivityAction → Option ActivityState
  | .notify clientSid now kind paths => state.changeMonitor clientSid (enqueueEvent now kind paths)
  | .baseline clientSid baseline =>
      state.changeMonitor clientSid fun monitor =>
        { monitor with baselineReceiver := some baseline }
  | .drain clientSid choice =>
      match state.draining with
      | none => some (drainFileActivity clientSid choice state)
      | some _ => none
  | .handle choice =>
      match state.draining with
      | some (clientSid, activity :: rest) =>
          some (handleActivity clientSid activity choice
            { state with draining := some (clientSid, rest) })
      | _ => none
  | .finish =>
      match state.draining with
      | some (_, []) =>
          some { state with
            draining := none
            reportedProcesses := clearReported state.reportedProcesses }
      | _ => none
  | .report keys =>
      match state.draining with
      | none => some { state with reportedProcesses := state.reportedProcesses ∪ keys }
      | some _ => none
  | .call thread choice =>
      (callThread thread choice state.realtime).map fun realtime =>
        { state with realtime := realtime }

/-- The service after its start. -/
def ActivityState.initial (exclusions : Exclusions) (hashAllowlist : HashAllowlist)
    (scanResults : RowTable ScanRow) (history : EventHistory) : ActivityState where
  monitors := ∅
  draining := none
  reportedProcesses := ∅
  realtime := .started exclusions hashAllowlist scanResults history

/-! ## When a notification is handled -/

/-- A notification has got its row, and a scan of its file has started. -/
structure ActivityHandled (clientSid : String) (activity : FileActivity) (choice : HandleChoice)
    (before after : ActivityState) : Prop where
  row : after.realtime.history.timelineEvents =
    insertTimeline clientSid (fileEvent choice.correlationId activity)
      before.realtime.history.timelineEvents
  scan : after.realtime.threads =
    before.realtime.threads ++ [⟨clientSid, realtimeWorker activity.path⟩]

section handled

variable {clientSid : String} {activity : FileActivity} {choice : HandleChoice}
  {state after : ActivityState} {realtime : RealtimeState}

theorem threads_ne_append (threads : List RealtimeThread) (thread : RealtimeThread) :
    threads ≠ threads ++ [thread] := by
  intro h
  have hlength := congrArg List.length h
  rw [List.length_append, List.length_singleton] at hlength
  omega

/-- **When a scan starts**: the file is one that is scanned, a slot is free, and a thread can be
started. -/
theorem threads_startRealtimeScan (clientSid path : String) (choice : HandleChoice)
    (hidle : realtime.starting = none) :
    (startRealtimeScan clientSid path choice realtime).threads =
        realtime.threads ++ [⟨clientSid, realtimeWorker path⟩] ↔
      isCandidate choice.metadata = true ∧ realtime.realtimeScans < 2 ∧ choice.started = true := by
  unfold startRealtimeScan scheduleRealtimeScan
  by_cases hslot : (isCandidate choice.metadata && decide (realtime.realtimeScans < 2)) = true
  · obtain ⟨hcandidate, hroom⟩ := Bool.and_eq_true_iff.mp hslot
    rw [if_pos hslot]
    unfold spawnRealtimeScan
    cases hstarted : choice.started with
    | true => exact iff_of_true rfl ⟨hcandidate, of_decide_eq_true hroom, rfl⟩
    | false => exact iff_of_false (threads_ne_append _ _) fun h => Bool.noConfusion h.2.2
  · rw [if_neg hslot]
    dsimp only
    rw [hidle]
    refine iff_of_false (threads_ne_append _ _) fun h => hslot ?_
    exact Bool.and_eq_true_iff.mpr ⟨h.1, decide_eq_true h.2.1⟩

/-- Starting a scan leaves the history and ends with no thread to start. -/
theorem startRealtimeScan_leaves (clientSid path : String) (choice : HandleChoice)
    (hidle : realtime.starting = none) :
    (startRealtimeScan clientSid path choice realtime).history = realtime.history ∧
      (startRealtimeScan clientSid path choice realtime).starting = none := by
  unfold startRealtimeScan scheduleRealtimeScan
  split_ifs
  · exact ⟨rfl, rfl⟩
  · dsimp only
    rw [hidle]
    exact ⟨rfl, hidle⟩

/-- What it takes to handle a notification: its key is new, the row can be written, the file is one
that is scanned, a slot is free, and a thread can be started. -/
structure CanHandle (clientSid : String) (activity : FileActivity) (choice : HandleChoice)
    (state : ActivityState) : Prop where
  new : fileKey clientSid (normalizedPathKey choice.canonicalize activity.path) activity ∉
    state.reportedProcesses
  written : choice.fault = none
  candidate : isCandidate choice.metadata = true
  slot : state.realtime.realtimeScans < 2
  started : choice.started = true

/-- A row is written exactly when the call does not fail. -/
theorem timelineEvents_writeTimeline {fault : Fault} {event : TimelineEvent} :
    (writeTimeline fault clientSid event realtime).history.timelineEvents =
        insertTimeline clientSid event realtime.history.timelineEvents ↔ fault = none := by
  unfold writeTimeline recordTimeline
  cases fault with
  | none => exact iff_of_true rfl rfl
  | some error =>
      refine iff_of_false (fun h => ?_) nofun
      have hsequence := congrArg RowTable.sequence h
      exact absurd hsequence (Nat.ne_of_lt (Nat.lt_succ_self _))

/-- A turn of the loop over the notifications of a file that is scanned. -/
theorem handled_handleActivity (hidle : state.realtime.starting = none)
    (hcandidate : realtimeScanCandidate activity.path = true)
    (haction : activity.action ≠ "removed") :
    ActivityHandled clientSid activity choice state
        (handleActivity clientSid activity choice state) ↔
      CanHandle clientSid activity choice state := by
  unfold handleActivity
  dsimp only
  by_cases hknown : fileKey clientSid (normalizedPathKey choice.canonicalize activity.path)
      activity ∈ state.reportedProcesses
  · rw [if_pos hknown]
    exact iff_of_false (fun h => threads_ne_append _ _ h.scan) fun h => h.new hknown
  · rw [if_neg hknown]
    have hwritten : (writeTimeline choice.fault clientSid (fileEvent choice.correlationId activity)
        state.realtime).starting = none := hidle
    obtain ⟨hhistory, -⟩ := startRealtimeScan_leaves clientSid activity.path choice hwritten
    have hthreads := threads_startRealtimeScan clientSid activity.path choice hwritten
    constructor
    · rintro ⟨hrow, hscan⟩
      dsimp only at hrow hscan
      rw [if_pos ⟨hcandidate, haction⟩] at hrow hscan
      rw [hhistory] at hrow
      obtain ⟨hfile, hslot, hstarted⟩ := hthreads.mp hscan
      exact ⟨hknown, timelineEvents_writeTimeline.mp hrow, hfile, hslot, hstarted⟩
    · intro h
      refine ⟨?_, ?_⟩
      · dsimp only
        rw [if_pos ⟨hcandidate, haction⟩, hhistory]
        exact timelineEvents_writeTimeline.mpr h.written
      · dsimp only
        rw [if_pos ⟨hcandidate, haction⟩]
        exact hthreads.mpr ⟨h.candidate, h.slot, h.started⟩

/-! ### The steps -/

/-- A call of a thread starts no thread. -/
theorem starting_callThread {thread : ℕ} {choice : RealtimeChoice} {next : RealtimeState}
    (hidle : realtime.starting = none) (h : callThread thread choice realtime = some next) :
    next.starting = none := by
  unfold callThread at h
  split at h
  · rename_i ownerSid op later _
    have hanswer : (realtimeAnswer ownerSid op choice realtime).2.starting = none := by
      cases op with
      | giveBack => exact hidle
      | _ => exact hidle
    generalize realtimeAnswer ownerSid op choice realtime = answered at h hanswer
    dsimp only at h
    split at h <;> exact Option.some.inj h ▸ hanswer
  · cases h

/-- **Between two steps no thread is being started.** -/
theorem starting_activityStep {action : ActivityAction} (hidle : state.realtime.starting = none)
    (h : activityStep state action = some after) : after.realtime.starting = none := by
  cases action with
  | notify sid now kind paths =>
      obtain ⟨monitor, -, rfl⟩ := Option.map_eq_some_iff.mp h
      exact hidle
  | baseline sid baseline =>
      obtain ⟨monitor, -, rfl⟩ := Option.map_eq_some_iff.mp h
      exact hidle
  | drain sid choice =>
      dsimp only [activityStep] at h
      split at h
      · obtain rfl := Option.some.inj h
        unfold drainFileActivity
        split
        · exact hidle
        · dsimp only
          split_ifs <;> exact hidle
      · cases h
  | handle choice =>
      dsimp only [activityStep] at h
      split at h
      · obtain rfl := Option.some.inj h
        unfold handleActivity
        dsimp only
        split_ifs
        · exact hidle
        · refine (startRealtimeScan_leaves _ _ _ ?_).2
          exact hidle
        · exact hidle
      · cases h
  | finish =>
      dsimp only [activityStep] at h
      split at h
      · exact Option.some.inj h ▸ hidle
      · cases h
  | report keys =>
      dsimp only [activityStep] at h
      split at h
      · exact Option.some.inj h ▸ hidle
      · cases h
  | call thread choice =>
      obtain ⟨realtime, hcall, rfl⟩ := Option.map_eq_some_iff.mp h
      exact starting_callThread hidle hcall

/-- Only the handling of a notification and another report add a key. -/
theorem mem_reportedProcesses_step {action : ActivityAction} {key : String}
    (h : activityStep state action = some after) (hkey : key ∈ after.reportedProcesses) :
    key ∈ state.reportedProcesses ∨
      (∃ choice clientSid activity rest, action = .handle choice ∧
        state.draining = some (clientSid, activity :: rest) ∧
        key = fileKey clientSid (normalizedPathKey choice.canonicalize activity.path) activity) ∨
      ∃ keys, action = .report keys ∧ key ∈ keys := by
  cases action with
  | notify sid now kind paths =>
      obtain ⟨monitor, -, rfl⟩ := Option.map_eq_some_iff.mp h
      exact .inl hkey
  | baseline sid baseline =>
      obtain ⟨monitor, -, rfl⟩ := Option.map_eq_some_iff.mp h
      exact .inl hkey
  | drain sid choice =>
      dsimp only [activityStep] at h
      split at h
      · obtain rfl := Option.some.inj h
        unfold drainFileActivity at hkey
        split at hkey <;> exact .inl hkey
      · cases h
  | handle choice =>
      dsimp only [activityStep] at h
      split at h
      · rename_i sid activity rest hdraining
        obtain rfl := Option.some.inj h
        unfold handleActivity at hkey
        dsimp only at hkey
        split_ifs at hkey
        · exact .inl hkey
        all_goals
          obtain rfl | hkey := Finset.mem_insert.mp hkey
          · exact .inr (.inl ⟨choice, sid, activity, rest, rfl, hdraining, rfl⟩)
          · exact .inl hkey
      · cases h
  | finish =>
      dsimp only [activityStep] at h
      split at h
      · obtain rfl := Option.some.inj h
        dsimp only [clearReported] at hkey
        split_ifs at hkey
        · cases hkey
        · exact .inl hkey
      · cases h
  | report keys =>
      dsimp only [activityStep] at h
      split at h
      · obtain rfl := Option.some.inj h
        obtain hkey | hkey := Finset.mem_union.mp hkey
        · exact .inl hkey
        · exact .inr (.inr ⟨keys, rfl, hkey⟩)
      · cases h
  | call thread choice =>
      obtain ⟨realtime, -, rfl⟩ := Option.map_eq_some_iff.mp h
      exact .inl hkey

/-- A key that a run remembers is that of a notification it has handled, or of another report. -/
def Remembered (start : ActivityState) (actions : List ActivityAction) (key : String) : Prop :=
  (∃ past later choice state clientSid activity rest, actions = past ++ .handle choice :: later ∧
    run activityStep start past = some state ∧
    state.draining = some (clientSid, activity :: rest) ∧
    key = fileKey clientSid (normalizedPathKey choice.canonicalize activity.path) activity) ∨
  ∃ keys, .report keys ∈ actions ∧ key ∈ keys

theorem Remembered.concat {start : ActivityState} {actions : List ActivityAction} {key : String}
    (h : Remembered start actions key) (action : ActivityAction) :
    Remembered start (actions ++ [action]) key := by
  obtain ⟨past, later, choice, before, sid, activity, rest, rfl, hrest⟩ | ⟨keys, hkeys, hkey⟩ := h
  · exact .inl ⟨past, later ++ [action], choice, before, sid, activity, rest,
      by rw [List.append_assoc, List.cons_append], hrest⟩
  · exact .inr ⟨keys, List.mem_append_left _ hkeys, hkey⟩

/-- **What a run remembers**: a notification is only passed over when one with its key, of the same
action, file and second, was handled before, or another report has the key. -/
theorem remembered_of_run {start : ActivityState} {actions : List ActivityAction}
    (hstart : start.reportedProcesses = ∅) (hrun : run activityStep start actions = some state) :
    ∀ key ∈ state.reportedProcesses, Remembered start actions key := by
  have hinv : run activityStep start actions = some state ∧
      ∀ key ∈ state.reportedProcesses, Remembered start actions key := by
    refine run_history_invariant
      (I := fun actions state => run activityStep start actions = some state ∧
        ∀ key ∈ state.reportedProcesses, Remembered start actions key)
      ⟨rfl, by simp [hstart]⟩ ?_ hrun
    rintro past before action next ⟨hpast, hkeys⟩ hstep
    refine ⟨run_append_eq_some.mpr ⟨before, hpast, run_cons_eq_some.mpr ⟨next, hstep, rfl⟩⟩, ?_⟩
    intro key hkey
    obtain hbefore | ⟨choice, sid, activity, rest, rfl, hdraining, rfl⟩ | ⟨keys, rfl, hmem⟩ :=
      mem_reportedProcesses_step hstep hkey
    · exact (hkeys key hbefore).concat action
    · exact .inl ⟨past, [], choice, before, sid, activity, rest, rfl, hpast, hdraining, rfl⟩
    · exact .inr ⟨keys, List.mem_append_right _ List.mem_cons_self, hmem⟩
  exact hinv.2

/-- **Real-time scanning of a change.** After every run from the start of the service, of
notifications, drains, reports and calls of the scans: the next notification of a drain, about a
file that may run and was not removed, gets its row and its scan exactly when it can be handled. A
notification that cannot is gone, since nothing is kept for later. -/
theorem handled_iff (exclusions : Exclusions) (hashAllowlist : HashAllowlist)
    (scanResults : RowTable ScanRow) (history : EventHistory) (actions : List ActivityAction)
    (state after : ActivityState) (clientSid : String) (activity : FileActivity)
    (rest : List FileActivity) (choice : HandleChoice)
    (hrun : run activityStep (.initial exclusions hashAllowlist scanResults history) actions =
      some state)
    (hnext : state.draining = some (clientSid, activity :: rest))
    (hstep : activityStep state (.handle choice) = some after)
    (hcandidate : realtimeScanCandidate activity.path = true)
    (haction : activity.action ≠ "removed") :
    ActivityHandled clientSid activity choice state after ↔
      CanHandle clientSid activity choice state := by
  have hidle : ({ state with draining := some (clientSid, rest) } :
      ActivityState).realtime.starting = none :=
    run_invariant (I := fun state => state.realtime.starting = none)
      (fun _ _ _ => starting_activityStep) rfl hrun
  dsimp only [activityStep] at hstep
  rw [hnext] at hstep
  obtain rfl := Option.some.inj hstep
  -- taking the notification from the drain changes neither the keys nor the scans
  have htaken : ActivityHandled clientSid activity choice _ _ ↔
      CanHandle clientSid activity choice _ :=
    handled_handleActivity hidle hcandidate haction
  constructor
  · rintro ⟨hrow, hscan⟩
    obtain ⟨hnew, hwritten, hfile, hslot, hstarted⟩ := htaken.mp ⟨hrow, hscan⟩
    exact ⟨hnew, hwritten, hfile, hslot, hstarted⟩
  · rintro ⟨hnew, hwritten, hfile, hslot, hstarted⟩
    obtain ⟨hrow, hscan⟩ := htaken.mpr ⟨hnew, hwritten, hfile, hslot, hstarted⟩
    exact ⟨hrow, hscan⟩

/-- A file that was written. -/
def sampleActivity (path : String) : FileActivity :=
  ⟨"modified", path, "read_directory_changes", "unix:1760000000"⟩

/-- The drain of a monitor that has just started and was told of some files. -/
def sampleDrain (paths : List String) : ActivityAction :=
  .drain "S-1"
    { started := some
        { queue := paths.map sampleActivity
          dropped := 0
          roots := []
          baseline := ∅
          baselineReceiver := none
          baselineReady := false
          prebaselineEvents := []
          pendingReconcile := false
          previousDropped := 0
          checkpoint := none }
      fs := ⟨fun _ => none, fun _ => none, fun _ => none, fun _ => none⟩
      order := default
      observedAt := "unix:1760000000"
      now := ⟨0, 1760000000⟩
      fault := none }

/-- Nothing fails, and the file is small. -/
def sampleHandle : HandleChoice := ⟨fun _ => none, none, "c1", some ⟨true, 4⟩, true⟩

/-- The service after its start, on empty tables. -/
def sampleActivityStart : ActivityState := .initial ∅ ∅ .empty ⟨.empty, .empty⟩

/-- The service after a run from there. -/
def activityAfter (actions : List ActivityAction) : ActivityState :=
  (run activityStep sampleActivityStart actions).getD sampleActivityStart

/-- `handled_iff` for the first notification of a drain. -/
theorem first_change_handled :
    ActivityHandled "S-1" (sampleActivity "a.exe") sampleHandle
      (activityAfter [sampleDrain ["a.exe"]])
      (activityAfter [sampleDrain ["a.exe"], .handle sampleHandle]) :=
  (handled_iff ∅ ∅ .empty ⟨.empty, .empty⟩ [sampleDrain ["a.exe"]]
      (activityAfter [sampleDrain ["a.exe"]])
      (activityAfter [sampleDrain ["a.exe"], .handle sampleHandle]) "S-1"
      (sampleActivity "a.exe") [] sampleHandle rfl rfl rfl (by decide) (by decide)).mpr
    ⟨by decide, rfl, rfl, by decide, rfl⟩

/-- All but the last notification of a drain of these files were handled, nothing fails, and the
last one is discarded. -/
def LastDiscarded (paths : List String) : Prop :=
  let handled := List.replicate (paths.length - 1) (ActivityAction.handle sampleHandle)
  let before := activityAfter (sampleDrain paths :: handled)
  let activity := sampleActivity (paths.getLastD "")
  before.draining = some ("S-1", [activity]) ∧
    ∃ after, activityStep before (.handle sampleHandle) = some after ∧
      ¬ ActivityHandled "S-1" activity sampleHandle before after

/-- Two runs after which a notification is discarded although nothing fails: the second of two
writes of a file in one second, and the third of three files while the scans of the others work. -/
theorem changes_discarded :
    LastDiscarded ["a.exe", "a.exe"] ∧ LastDiscarded ["a.exe", "b.exe", "c.exe"] := by
  have hsame (before after : ActivityState) (activity : FileActivity)
      (hthreads : after.realtime.threads = before.realtime.threads) :
      ¬ ActivityHandled "S-1" activity sampleHandle before after :=
    fun h => threads_ne_append _ _ (hthreads.symm.trans h.scan)
  constructor
  · exact ⟨rfl, _, rfl, hsame _ _ _ rfl⟩
  · exact ⟨rfl, _, rfl, hsame _ _ _ rfl⟩

end handled

end OpenGuard.Service
