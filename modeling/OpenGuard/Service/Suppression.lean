import OpenGuard.Service.Beacon
import OpenGuard.Service.ChainStore
import OpenGuard.Service.Correlation
import OpenGuard.Service.FileActivity

/-!
# Suppressed detections

Four producers report a detection once: the beacons of the protection loop, the behaviour chains of
Sysmon, and the new executables and the behaviour correlations of a snapshot. Each marks the key of
the detection as reported, and then writes the event, which can fail.

* `reportOnce`, `reportSnapshot`, `alertDetection`: the detections of a snapshot and of Sysmon.
* `detectionStep`: the producers in any order, with any writes that fail.
* `detectionStep_spec`: what a step commits, and which keys it suppresses.
* `suppressed_means_stored`: over every run whose writes succeed, a key that is suppressed has an
  event that was committed.
-/

namespace OpenGuard.Service

open OpenGuard.Lib OpenGuard.Domain OpenGuard.Storage OpenGuard.Windows BehaviorChainEngine

/-! ## The producers -/

/-- The key under which a detection is marked as reported. -/
inductive DetectionKey where
  | beacon (text : String)
  | chain (correlationId eventType : String)
  | report (key : String)
  deriving DecidableEq

/-- Detections with their events. -/
abbrev Detections := List (DetectionKey × SecurityEvent)

/-- The event of an alert, with its key.
Source: `main.rs`, `persist_sysmon_events` -/
def alertDetection (now : Clock) (alert : BehaviorAlert) : DetectionKey × SecurityEvent :=
  (.chain alert.correlationId alert.eventType,
    { eventType := alert.eventType
      severity := alert.severity
      title := alert.title
      detail := alert.detail ++ "; correlation=" ++ alert.correlationId ++ "; remote=" ++
        alert.remoteAddress
      processId := alert.processId
      path := alert.path
      createdAt := now.unixTimestamp
      resolved := false })

/-- Source: `main.rs`, `ServiceState::collect_snapshot` -/
def newExecutableKey (ownerSid : String) (process : ProcessRecord) : String :=
  ownerSid ++ ":" ++ process.identity

/-- Source: `main.rs`, `ServiceState::collect_snapshot` -/
def newExecutableEvent (now : Clock) (process : ProcessRecord) : SecurityEvent where
  eventType := "new_executable"
  severity := process.risk.severity
  title := "New executable observed: " ++ process.name
  detail :=
    if process.risk.reasons = [] then
      "This executable identity was not present in the saved baseline"
    else joinWith "; " process.risk.reasons
  processId := some process.pid
  path := process.path
  createdAt := now.unixTimestamp
  resolved := false

/-- Source: `main.rs`, `ServiceState::collect_snapshot` -/
def correlatedReasons (process : ProcessRecord) : List String :=
  process.risk.reasons.filter (startsWith · "Behavior:")

/-- The behaviour of a process needs review.
Source: `main.rs`, `ServiceState::collect_snapshot` -/
def behaviorNeedsReview (process : ProcessRecord) : Bool :=
  .medium ≤ process.risk.severity && hasBehaviorReason process

/-- Source: `main.rs`, `ServiceState::collect_snapshot` -/
def behaviorKey (ownerSid : String) (process : ProcessRecord) : String :=
  "behavior:" ++ ownerSid ++ ":" ++ toString process.pid.toNat ++ ":" ++ process.identity ++ ":" ++
    joinWith "|" (correlatedReasons process)

/-- Source: `main.rs`, `ServiceState::collect_snapshot` -/
def behaviorEvent (now : Clock) (process : ProcessRecord) : SecurityEvent where
  eventType := "behavior_correlation"
  severity := process.risk.severity
  title := "Correlated behavior needs review: " ++ process.name
  detail := joinWith "; " (correlatedReasons process)
  processId := some process.pid
  path := process.path
  createdAt := now.unixTimestamp
  resolved := false

/-- The loop over some processes of a snapshot: the keys that are marked, and the detections to
write.
Source: `main.rs`, `ServiceState::collect_snapshot` -/
def reportOnce (key : ProcessRecord → String) (event : ProcessRecord → SecurityEvent) :
    List ProcessRecord → Finset String → Finset String × Detections
  | [], reported => (reported, [])
  | process :: rest, reported =>
      if key process ∈ reported then reportOnce key event rest reported
      else
        let (reported, detections) := reportOnce key event rest (insert (key process) reported)
        (reported, (.report (key process), event process) :: detections)

/-- The two loops over the snapshot that is served.
Source: `main.rs`, `ServiceState::collect_snapshot` -/
def reportSnapshot (ownerSid : String) (now : Clock) (snapshot : SystemSnapshot)
    (reported : Finset String) : Finset String × Detections :=
  let (reported, executables) := reportOnce (newExecutableKey ownerSid) (newExecutableEvent now)
    (snapshot.processes.filter (·.isNew)) reported
  let (reported, behaviors) := reportOnce (behaviorKey ownerSid) (behaviorEvent now)
    (snapshot.processes.filter behaviorNeedsReview) reported
  (reported, executables ++ behaviors)

/-! ## The machine -/

/-- What the producers remember, and the detections that were committed. -/
structure DetectionState where
  beacons : BeaconState
  chains : BehaviorChainEngine
  baseline : BaselineState
  reportedProcesses : Finset String
  committed : Detections

/-- A snapshot is served: what it depends on, and how the writes of its detections fare. -/
structure SnapshotCall where
  input : ViewInput
  published : Option SystemSnapshot
  collected : Except WindowsError SystemSnapshot
  fault : DetectionKey → Fault

/-- What can happen next: a cycle counts the beacons, a batch of Sysmon comes in, a snapshot is
served, a notification of a file is remembered, and a drain of files ends. A producer tries a key
at most once in a step, so an outcome for each key stands for every order of failing writes. -/
inductive DetectionAction where
  | beacons (cycle : BeaconCycle)
  | sysmon (call : IngestCall) (now : Clock) (fault : DetectionKey → Fault)
  | snapshot (call : SnapshotCall)
  | activity (clientSid pathKey : String) (activity : FileActivity)
  | finish

/-- How the write of a detection fares. -/
def DetectionAction.fault : DetectionAction → DetectionKey → Fault
  | .beacons cycle, .beacon text => cycle.fault text
  | .sysmon _ _ fault, key => fault key
  | .snapshot call, key => call.fault key
  | _, _ => none

/-- The detections whose writes do not fail.
Source: `storage/lib.rs`, `Database::record_event` -/
def writeDetections (fault : DetectionKey → Fault) (detections : Detections) : Detections :=
  detections.filter fun detection => (fault detection.1).isNone

/-- The detections of a cycle, with their keys. -/
def beaconDetections (events : List (BeaconKey × SecurityEvent)) : Detections :=
  events.map fun event => (.beacon event.1.text, event.2)

/-- One step. -/
def detectionStep (state : DetectionState) : DetectionAction → Option DetectionState
  | .beacons cycle =>
      let (beacons, events) := correlateBeacons cycle state.beacons
      some { state with
        beacons
        committed := state.committed ++ beaconDetections events }
  | .sysmon call now fault =>
      let (chains, alerts) := ingestAt call.order call.events call.now state.chains
      some { state with
        chains
        committed := state.committed ++ writeDetections fault (alerts.map (alertDetection now)) }
  | .snapshot call =>
      let (result, baseline) :=
        collectSnapshotView call.input state.baseline call.published call.collected
      match result with
      | .error _ => some { state with baseline }
      | .ok (view, _) =>
          let (reportedProcesses, detections) :=
            reportSnapshot call.input.ownerSid call.input.now view state.reportedProcesses
          some { state with
            baseline
            reportedProcesses
            committed := state.committed ++ writeDetections call.fault detections }
  | .activity clientSid pathKey activity =>
      some { state with
        reportedProcesses := insert (fileKey clientSid pathKey activity) state.reportedProcesses }
  | .finish => some { state with reportedProcesses := clearReported state.reportedProcesses }

/-- The detections that a step tries to write. -/
def attempts (state : DetectionState) : DetectionAction → Detections
  | .beacons cycle =>
      beaconDetections (correlateBeacons { cycle with fault := fun _ => none } state.beacons).2
  | .sysmon call now _ => (state.chains.alerts call).map (alertDetection now)
  | .snapshot call =>
      match (collectSnapshotView call.input state.baseline call.published call.collected).1 with
      | .error _ => []
      | .ok (view, _) =>
          (reportSnapshot call.input.ownerSid call.input.now view state.reportedProcesses).2
  | _ => []

/-- The service after its start. -/
def DetectionState.initial (baseline : BaselineState) : DetectionState :=
  ⟨.initial, .initial, baseline, ∅, []⟩

/-! ## Suppression -/

/-- The key is that of a new executable or of a behaviour correlation of a user; the text of every
SID begins with `S-`. -/
def IsReportKey (key : String) : Prop :=
  ∃ ownerSid process, startsWith ownerSid "S-" = true ∧
    (key = newExecutableKey ownerSid process ∨ key = behaviorKey ownerSid process)

/-- Detections with the key are passed over. A chain may no longer be, since its mark ends. -/
def DetectionState.Suppresses (state : DetectionState) : DetectionKey → Prop
  | .beacon text => text ∈ state.beacons.reported
  | .chain correlationId eventType => ∃ rule : Rule, rule.eventType = eventType ∧
      (state.chains.reported.lookup (correlationId, rule)).isSome = true
  | .report key => key ∈ state.reportedProcesses ∧ IsReportKey key

/-- Every key that is suppressed has an event that was committed. -/
def Backed (state : DetectionState) : Prop :=
  ∀ key, state.Suppresses key → ∃ event, (key, event) ∈ state.committed

/-- Every write of the step succeeds. -/
def WritesSucceed (state : DetectionState) (action : DetectionAction) : Prop :=
  ∀ detection ∈ attempts state action, action.fault detection.1 = none

section producers

/-! ### Beacons -/

variable {cycle : BeaconCycle}

/-- The loop over the endpoints, with the writes as they fare and with none that fails. -/
theorem foldl_countEndpoint_working (cycle : BeaconCycle) (counted : List CountedEndpoint)
    (loop working : BeaconLoop)
    (hcounts : loop.counts = working.counts) (hreported : loop.reported = working.reported)
    (hevents : loop.events = working.events.filter fun event =>
      (cycle.fault event.1.text).isNone) :
    let result := counted.foldl (countEndpoint cycle) loop
    let other := counted.foldl (countEndpoint { cycle with fault := fun _ => none }) working
    result.reported = other.reported ∧
      result.events = other.events.filter fun event => (cycle.fault event.1.text).isNone := by
  induction counted generalizing loop working with
  | nil => exact ⟨hreported, hevents⟩
  | cons endpoint rest ih =>
      dsimp only [List.foldl_cons] at ih ⊢
      refine ih _ _ ?_ ?_ ?_
      · rw [counts_countEndpoint, counts_countEndpoint, hcounts]
      all_goals
        unfold countEndpoint
        dsimp only
        rw [hcounts, hreported]
        split_ifs
      · rfl
      · rfl
      · exact hevents
      · -- the event is committed just when its write does not fail
        rw [List.filter_append, hevents]
        cases hfault : cycle.fault endpoint.key.text with
        | none => simp [hfault]
        | some error => simp [hfault]

/-- The loop keeps the events. -/
theorem events_subset_foldl (counted : List CountedEndpoint) {loop : BeaconLoop} :
    loop.events ⊆ (counted.foldl (countEndpoint cycle) loop).events := by
  induction counted generalizing loop with
  | nil => exact List.Subset.refl _
  | cons endpoint rest ih =>
      refine List.Subset.trans ?_ ih
      unfold countEndpoint
      dsimp only
      split_ifs
      · exact List.Subset.refl _
      · dsimp only
        split
        · exact List.Subset.refl _
        · exact List.subset_append_left _ _

/-- When no write fails, a key that a turn of the loop marks has an event. -/
theorem mem_reported_countEndpoint (hworks : ∀ text, cycle.fault text = none)
    (endpoint : CountedEndpoint) {loop : BeaconLoop} {text : String}
    (h : text ∈ (countEndpoint cycle loop endpoint).reported) :
    text ∈ loop.reported ∨
      ∃ event ∈ (countEndpoint cycle loop endpoint).events, event.1.text = text := by
  unfold countEndpoint at h ⊢
  dsimp only at h ⊢
  rw [hworks]
  split_ifs at h ⊢ with hskip
  · exact .inl h
  · obtain rfl | h := Finset.mem_insert.mp h
    · exact .inr ⟨_, List.mem_append_right _ (List.mem_singleton_self _), rfl⟩
    · exact .inl h

/-- When no write fails, a key that the loop marks has an event. -/
theorem mem_reported_foldl (hworks : ∀ text, cycle.fault text = none)
    (counted : List CountedEndpoint) {loop : BeaconLoop} {text : String}
    (h : text ∈ (counted.foldl (countEndpoint cycle) loop).reported) :
    text ∈ loop.reported ∨
      ∃ event ∈ (counted.foldl (countEndpoint cycle) loop).events, event.1.text = text := by
  induction counted generalizing loop with
  | nil => exact .inl h
  | cons endpoint rest ih =>
      obtain hmarked | hevent := ih h
      · obtain hbefore | ⟨event, hevent, htext⟩ := mem_reported_countEndpoint hworks endpoint hmarked
        · exact .inl hbefore
        · exact .inr ⟨event, events_subset_foldl rest hevent, htext⟩
      · exact .inr hevent

/-- **What a cycle does**: it commits the detections whose writes do not fail, and marks the keys of
those that it tries to write. -/
theorem correlateBeacons_spec (cycle : BeaconCycle) (beacons : BeaconState) :
    (correlateBeacons cycle beacons).2 =
        (correlateBeacons { cycle with fault := fun _ => none } beacons).2.filter
          (fun event => (cycle.fault event.1.text).isNone) ∧
      ∀ text ∈ (correlateBeacons cycle beacons).1.reported, text ∈ beacons.reported ∨
        ∃ event ∈ (correlateBeacons { cycle with fault := fun _ => none } beacons).2,
          event.1.text = text := by
  obtain ⟨hreported, hevents⟩ := foldl_countEndpoint_working cycle (countedEndpoints cycle)
    ⟨beacons.counts, beacons.reported, []⟩ ⟨beacons.counts, beacons.reported, []⟩ rfl rfl rfl
  refine ⟨hevents, fun text htext => ?_⟩
  unfold correlateBeacons at htext
  dsimp only at htext
  rw [hreported] at htext
  exact mem_reported_foldl (fun _ => rfl) _ htext

/-! ### Snapshots -/

variable {key : ProcessRecord → String} {event : ProcessRecord → SecurityEvent}
  {processes : List ProcessRecord} {reported : Finset String} {text : String}

/-- A key that the loop marks is one that it tries to write. -/
theorem mem_reportOnce (h : text ∈ (reportOnce key event processes reported).1) :
    text ∈ reported ∨ ∃ process ∈ processes, text = key process ∧
      (.report text, event process) ∈ (reportOnce key event processes reported).2 := by
  induction processes generalizing reported with
  | nil => exact .inl h
  | cons process rest ih =>
      unfold reportOnce at h ⊢
      split_ifs at h ⊢ with hknown
      · obtain hbefore | ⟨other, hother, htext, hmem⟩ := ih h
        · exact .inl hbefore
        · exact .inr ⟨other, List.mem_cons_of_mem _ hother, htext, hmem⟩
      · obtain hbefore | ⟨other, hother, htext, hmem⟩ := ih h
        · obtain rfl | hbefore := Finset.mem_insert.mp hbefore
          · exact .inr ⟨process, List.mem_cons_self, rfl, List.mem_cons_self⟩
          · exact .inl hbefore
        · exact .inr ⟨other, List.mem_cons_of_mem _ hother, htext, List.mem_cons_of_mem _ hmem⟩

/-- The keys that a snapshot marks are those that it tries to write. -/
theorem mem_reportSnapshot {ownerSid : String} {now : Clock} {snapshot : SystemSnapshot}
    (h : text ∈ (reportSnapshot ownerSid now snapshot reported).1) :
    text ∈ reported ∨
      ∃ event, (.report text, event) ∈ (reportSnapshot ownerSid now snapshot reported).2 := by
  unfold reportSnapshot at h ⊢
  dsimp only at h ⊢
  obtain hfirst | ⟨process, -, -, hmem⟩ := mem_reportOnce h
  · obtain hbefore | ⟨process, -, -, hmem⟩ := mem_reportOnce hfirst
    · exact .inl hbefore
    · exact .inr ⟨_, List.mem_append_left _ hmem⟩
  · exact .inr ⟨_, List.mem_append_right _ hmem⟩

/-- The key of a notification of a file is none of a report. -/
theorem not_isReportKey_fileKey (clientSid pathKey : String) (activity : FileActivity) :
    ¬ IsReportKey (fileKey clientSid pathKey activity) := by
  have hfile : (fileKey clientSid pathKey activity).toList.head? = some 'f' := by
    unfold fileKey
    repeat apply head?_toList_append
    decide
  rintro ⟨ownerSid, process, hsid, hkey | hkey⟩
  · obtain ⟨rest, hrest⟩ := List.isPrefixOf_iff_prefix.mp hsid
    rw [hkey, newExecutableKey, String.toList_append, String.toList_append, ← hrest] at hfile
    cases hfile
  · have hbehavior : (behaviorKey ownerSid process).toList.head? = some 'b' := by
      unfold behaviorKey
      repeat apply head?_toList_append
      decide
    rw [hkey, hbehavior] at hfile
    cases hfile

/-! ### Chains -/

variable {now : ℕ} {engine : BehaviorChainEngine} {mark : String × Rule}

/-- A mark that an event leaves was there, or comes with an alert. -/
theorem isSome_reported_ingestEvent (sysmon : SysmonEvent)
    (h : ((ingestEvent now engine sysmon).1.reported.lookup mark).isSome = true) :
    (engine.reported.lookup mark).isSome = true ∨
      ∃ alert ∈ (ingestEvent now engine sysmon).2, alert.IsFor mark.1 mark.2 := by
  obtain ⟨-, hsame⟩ | ⟨correlationId, kind, hid, hkind⟩ := ingestEvent_cases now engine sysmon
  · rw [hsame] at h
    exact .inl h
  · rw [ingestEvent_of_classified hid hkind] at h ⊢
    obtain ⟨last, hlast⟩ := Option.isSome_iff_exists.mp h
    obtain hbefore | ⟨-, hprocess, halert⟩ := lookup_report hlast
    · exact .inl (hbefore ▸ rfl)
    · exact .inr ⟨_, halert, isFor_buildAlert_iff.mpr ⟨hprocess.symm, rfl⟩⟩

theorem isSome_reported_ingestEvents {events : List SysmonEvent}
    (h : ((ingestEvents now engine events).1.reported.lookup mark).isSome = true) :
    (engine.reported.lookup mark).isSome = true ∨
      ∃ alert ∈ (ingestEvents now engine events).2, alert.IsFor mark.1 mark.2 := by
  induction events generalizing engine with
  | nil => exact .inl h
  | cons sysmon rest ih =>
      rw [ingestEvents_cons] at h ⊢
      obtain hmiddle | ⟨alert, halert, hfor⟩ := ih h
      · obtain hbefore | ⟨alert, halert, hfor⟩ := isSome_reported_ingestEvent sysmon hmiddle
        · exact .inl hbefore
        · exact .inr ⟨alert, List.mem_append_left _ halert, hfor⟩
      · exact .inr ⟨alert, List.mem_append_right _ halert, hfor⟩

/-- A mark that a call leaves was there, or comes with an alert. -/
theorem isSome_reported_next {call : IngestCall}
    (h : ((engine.next call).reported.lookup mark).isSome = true) :
    (engine.reported.lookup mark).isSome = true ∨
      ∃ alert ∈ engine.alerts call, alert.IsFor mark.1 mark.2 := by
  have hfilled : ((engine.filled call).reported.lookup mark).isSome = true := by
    have hevicted : EvictedFrom (engine.filled call) (engine.next call) :=
      evictedFrom_enforceCapacity (engine.filled call) call.order
    by_cases hgone : mark.1 ∈ (engine.filled call).chains ∧ mark.1 ∉ (engine.next call).chains
    · rw [hevicted.forgotten mark hgone.1 hgone.2] at h
      cases h
    · rwa [hevicted.reported mark (by simpa using hgone)] at h
  obtain hpruned | halert := isSome_reported_ingestEvents hfilled
  · left
    rw [BehaviorChainEngine.prune, Table.lookup_retain] at hpruned
    obtain ⟨last, hlast⟩ := Option.isSome_iff_exists.mp hpruned
    rw [(Option.filter_eq_some_iff.mp hlast).1]
    rfl
  · exact .inr halert

end producers

/-! ## Runs -/

section runs

variable {state after : DetectionState} {action : DetectionAction}

theorem writeDetections_beacons (cycle : BeaconCycle) (events : List (BeaconKey × SecurityEvent)) :
    writeDetections (DetectionAction.fault (.beacons cycle)) (beaconDetections events) =
      beaconDetections (events.filter fun event => (cycle.fault event.1.text).isNone) := by
  unfold writeDetections beaconDetections
  rw [List.filter_map]
  rfl

/-- **What a step does**: it commits the detections whose writes do not fail, and suppresses no key
but those that were suppressed before and those that it tries to write. -/
theorem detectionStep_spec (h : detectionStep state action = some after) :
    after.committed = state.committed ++ writeDetections action.fault (attempts state action) ∧
      ∀ key, after.Suppresses key → state.Suppresses key ∨
        ∃ event, (key, event) ∈ attempts state action := by
  cases action with
  | beacons cycle =>
      obtain rfl := Option.some.inj h
      obtain ⟨hevents, hreported⟩ := correlateBeacons_spec cycle state.beacons
      refine ⟨?_, fun key hkey => ?_⟩
      · show state.committed ++ beaconDetections (correlateBeacons cycle state.beacons).2 = _
        rw [hevents, ← writeDetections_beacons]
        rfl
      · cases key with
        | beacon text =>
            obtain hbefore | ⟨event, hevent, rfl⟩ := hreported text hkey
            · exact .inl hbefore
            · exact .inr ⟨event.2, List.mem_map.mpr ⟨event, hevent, rfl⟩⟩
        | chain correlationId eventType => exact .inl hkey
        | report key => exact .inl hkey
  | sysmon call now fault =>
      obtain rfl := Option.some.inj h
      refine ⟨rfl, fun key hkey => ?_⟩
      cases key with
      | beacon text => exact .inl hkey
      | chain correlationId eventType =>
          obtain ⟨rule, rfl, hmark⟩ := hkey
          obtain hbefore | ⟨alert, halert, hid, htype⟩ := isSome_reported_next hmark
          · exact .inl ⟨rule, rfl, hbefore⟩
          · have hkey : (alertDetection now alert).1 = .chain correlationId rule.eventType := by
              unfold alertDetection
              rw [hid, htype]
            refine .inr ⟨(alertDetection now alert).2, ?_⟩
            rw [← hkey]
            exact List.mem_map_of_mem halert
      | report key => exact .inl hkey
  | snapshot call =>
      dsimp only [detectionStep] at h
      dsimp only [attempts]
      generalize collectSnapshotView call.input state.baseline call.published call.collected =
        served at h ⊢
      obtain ⟨result, baseline⟩ := served
      cases result with
      | error error =>
          obtain rfl := Option.some.inj h
          exact ⟨(List.append_nil _).symm, fun key hkey => .inl (by cases key <;> exact hkey)⟩
      | ok view =>
          obtain rfl := Option.some.inj h
          refine ⟨rfl, fun key hkey => ?_⟩
          cases key with
          | beacon text => exact .inl hkey
          | chain correlationId eventType => exact .inl hkey
          | report key =>
              obtain ⟨hmarked, hreport⟩ := hkey
              obtain hbefore | hevent := mem_reportSnapshot hmarked
              · exact .inl ⟨hbefore, hreport⟩
              · exact .inr hevent
  | activity clientSid pathKey activity =>
      obtain rfl := Option.some.inj h
      refine ⟨(List.append_nil _).symm, fun key hkey => .inl ?_⟩
      cases key with
      | beacon text => exact hkey
      | chain correlationId eventType => exact hkey
      | report key =>
          obtain ⟨hmarked, hreport⟩ := hkey
          obtain rfl | hbefore := Finset.mem_insert.mp hmarked
          · exact absurd hreport (not_isReportKey_fileKey clientSid pathKey activity)
          · exact ⟨hbefore, hreport⟩
  | finish =>
      obtain rfl := Option.some.inj h
      refine ⟨(List.append_nil _).symm, fun key hkey => .inl ?_⟩
      cases key with
      | beacon text => exact hkey
      | chain correlationId eventType => exact hkey
      | report key =>
          obtain ⟨hmarked, hreport⟩ := hkey
          dsimp only [clearReported] at hmarked
          split_ifs at hmarked
          · cases hmarked
          · exact ⟨hmarked, hreport⟩

/-- The detections that a step whose writes succeed tries to write are committed. -/
theorem attempts_subset_committed (hworks : WritesSucceed state action)
    (h : detectionStep state action = some after) : attempts state action ⊆ after.committed := by
  intro detection hdetection
  rw [(detectionStep_spec h).1]
  refine List.mem_append_right _ (List.mem_filter.mpr ⟨hdetection, ?_⟩)
  rw [hworks detection hdetection]
  rfl

/-- What was committed stays. -/
theorem committed_subset_step (h : detectionStep state action = some after) :
    state.committed ⊆ after.committed := by
  rw [(detectionStep_spec h).1]
  exact List.subset_append_left _ _

/-- **A step whose writes succeed** keeps every suppressed key backed. -/
theorem backed_step (hbacked : Backed state) (hworks : WritesSucceed state action)
    (h : detectionStep state action = some after) : Backed after := by
  intro key hkey
  obtain hbefore | ⟨event, hevent⟩ := (detectionStep_spec h).2 key hkey
  · obtain ⟨event, hevent⟩ := hbacked key hbefore
    exact ⟨event, committed_subset_step h hevent⟩
  · exact ⟨event, attempts_subset_committed hworks h hevent⟩

/-- **Suppressed means stored.** Over every run of the four producers and of the drains of files
whose writes of detections succeed: every key that is suppressed has an event that was committed,
and every detection that a step of the run has tried to write was. -/
theorem suppressed_means_stored (baseline : BaselineState) (actions : List DetectionAction)
    (state : DetectionState) (hrun : run detectionStep (.initial baseline) actions = some state)
    (hworks : StepsMeet WritesSucceed detectionStep (.initial baseline) actions) :
    Backed state ∧
      ∀ past action later before, actions = past ++ action :: later →
        run detectionStep (.initial baseline) past = some before →
        attempts before action ⊆ state.committed := by
  have hstart : Backed (.initial baseline) := by
    intro key hkey
    cases key with
    | beacon text => exact absurd hkey (Finset.notMem_empty _)
    | chain correlationId eventType =>
        obtain ⟨rule, -, hmark⟩ := hkey
        cases hmark
    | report key => exact absurd hkey.1 (Finset.notMem_empty _)
  refine ⟨run_invariant_of_meets (fun _ _ _ => backed_step) hstart hworks hrun, ?_⟩
  rintro past action later before rfl hpast
  obtain ⟨middle, hmiddle, hrest⟩ := run_append_eq_some.mp hrun
  obtain rfl := Option.some.inj (hpast.symm.trans hmiddle)
  obtain ⟨next, hstep, hlater⟩ := run_cons_eq_some.mp hrest
  exact run_invariant (I := fun state => attempts before action ⊆ state.committed)
    (fun _ _ _ hbefore hstep => List.Subset.trans hbefore (committed_subset_step hstep))
    (attempts_subset_committed (hworks.of_run hpast) hstep) hlater

/-- The access and the connection of `sampleAccess` and `sampleConnection` come in. -/
def sampleAttack (fault : DetectionKey → Fault) : DetectionAction :=
  .sysmon ⟨default, 0, [sampleAccess, sampleConnection]⟩ ⟨0, 1760000000⟩ fault

/-- The service after its start, on empty tables. -/
def sampleDetectionStart : DetectionState := .initial ⟨∅, ∅, ∅⟩

/-- The service after a run from there. -/
def detectedAfter (actions : List DetectionAction) : DetectionState :=
  (run detectionStep sampleDetectionStart actions).getD sampleDetectionStart

/-- `suppressed_means_stored` for an attack whose alert is written. -/
theorem attack_stored : Backed (detectedAfter [sampleAttack fun _ => none]) := by
  have hworks : StepsMeet WritesSucceed detectionStep (.initial ⟨∅, ∅, ∅⟩)
      [sampleAttack fun _ => none] := by
    refine .of_forall fun action haction state detection _ => ?_
    rw [List.mem_singleton.mp haction]
    rfl
  exact (suppressed_means_stored ⟨∅, ∅, ∅⟩ [sampleAttack fun _ => none]
    (detectedAfter [sampleAttack fun _ => none]) rfl hworks).1

/-- An attack whose alert cannot be written, and that is seen again when the database works: the
alert is suppressed, and no event of it was ever committed. -/
theorem attack_lost :
    ¬ Backed (detectedAfter [sampleAttack fun _ => some (.database "database is locked"),
      sampleAttack fun _ => none]) := by
  have hnone : (detectedAfter [sampleAttack fun _ => some (.database "database is locked"),
      sampleAttack fun _ => none]).committed = [] := by decide +kernel
  intro hbacked
  obtain ⟨event, hevent⟩ := hbacked (.chain "sysmon-A" "credential_access_network_chain")
    ⟨.credentialExfiltration, rfl, by decide +kernel⟩
  rw [hnone] at hevent
  cases hevent

end runs

end OpenGuard.Service
