import OpenGuard.Service.Beacon
import OpenGuard.Service.NewExecutables
import OpenGuard.Service.ProcessAnalysis

/-!
# The protection loop

A cycle takes a snapshot, queues the new executables, analyzes some of those that wait, and counts the
connections of the processes that an analysis found suspicious. The analyses and the beacons are
written to the history, where a write may fail.

* `loopCycle`: a cycle, with what it reports.
* `Reports`: what holds after any cycles.
* `reported_once`: every new executable is reported once, waits, or was forgotten; the history has the
  reports whose writes did not fail, in order.
* `beacon_after_analysis`: a beacon is reported for an executable that was not there at first, that was
  analyzed before, and that was found suspicious; and once.
-/

namespace OpenGuard.Service

open OpenGuard.Lib OpenGuard.Domain OpenGuard.Storage

/-! ## The loop -/

/-- What a cycle reports: an analysis, with what becomes of its write, or a beacon that was written. -/
inductive LoopReport where
  | analyzed (process : ProcessRecord) (suspicious : Bool) (event : SecurityEvent) (fault : Fault)
  | beacon (key : BeaconKey) (event : SecurityEvent)

/-- The variables of the loop and the history, with what was reported so far.
Source: `main.rs`, `run_protection_loop` -/
structure LoopState where
  protection : ProtectionState
  suspiciousIdentities : Finset String
  beacons : BeaconState
  history : EventHistory
  reports : List LoopReport

/-- What a cycle meets: its snapshot, if there is one, what the system says in each of its analyses,
the clock, and how the writes of the beacons fare. -/
structure LoopCycle where
  snapshot : Option CollectedSnapshot
  views : ℕ → AnalysisView
  now : Clock
  fault : String → Fault

/-- Source: `main.rs`, `run_protection_loop` -/
def LoopState.initial (history : EventHistory) : LoopState := ⟨.initial, ∅, .initial, history, []⟩

/-- The processes that a cycle analyzes.
Source: `main.rs`, `run_protection_loop` -/
def analysisBatch (state : ProtectionState) (snapshot : CollectedSnapshot) : List ProcessRecord :=
  let extended := extendedQueue state snapshot.toSystemSnapshot
  (extended.drop (extended.length - maximumPending)).take maximumRealtimeScansPerCycle

/-- One analysis.
Source: `main.rs`, `run_protection_loop` -/
def analyzeOne (endpoints : List NetworkEndpoint) (state : LoopState)
    (entry : ProcessRecord × AnalysisView) : LoopState :=
  let analysis := Analysis.of endpoints entry.1 entry.2
  { state with
    suspiciousIdentities :=
      if (analyzeNewProcess endpoints entry.1 entry.2 state.history).1 then
        insert entry.1.identity state.suspiciousIdentities
      else state.suspiciousIdentities
    history := (analyzeNewProcess endpoints entry.1 entry.2 state.history).2
    reports := state.reports ++ [.analyzed entry.1 analysis.suspicious
      (analysis.event endpoints entry.1 entry.2.now) entry.2.fault] }

/-- The beacons of a cycle are counted, and those that are committed are written.
Source: `main.rs`, `run_protection_loop` and `correlate_beacons` -/
def countBeacons (snapshot : SystemSnapshot) (cycle : LoopCycle) (state : LoopState) : LoopState :=
  let result :=
    correlateBeacons ⟨snapshot, state.suspiciousIdentities, cycle.now, cycle.fault⟩ state.beacons
  { state with
    beacons := result.1
    history := result.2.foldl (fun history entry => (recordEvent none "" entry.2 history).2)
      state.history
    reports := state.reports ++ result.2.map fun entry => .beacon entry.1 entry.2 }

/-- Source: `main.rs`, `run_protection_loop` -/
def loopCycle (state : LoopState) (cycle : LoopCycle) : LoopState :=
  match cycle.snapshot with
  | none => state
  | some collected =>
      let snapshot :=
        (applyBehaviorCorrelations (markSnapshot state.protection.observed
          collected.toSystemSnapshot)).1
      let batch := (analysisBatch state.protection collected).zipIdx.map fun entry =>
        (entry.1, cycle.views entry.2)
      countBeacons snapshot cycle
        (batch.foldl (analyzeOne snapshot.endpoints)
          { state with protection := protectionCycle state.protection (some collected) })

/-- The loop after some cycles. -/
def loopAfter (history : EventHistory) (cycles : List LoopCycle) : LoopState :=
  cycles.foldl loopCycle (.initial history)

/-! ## What is reported -/

namespace LoopReport

/-- The process that was analyzed. -/
def process : LoopReport → Option ProcessRecord
  | analyzed process _ _ _ => some process
  | beacon _ _ => none

/-- The beacon that was reported. -/
def beaconOf : LoopReport → Option (BeaconKey × SecurityEvent)
  | analyzed _ _ _ _ => none
  | beacon key event => some (key, event)

/-- The event that is written. -/
def written : LoopReport → Option SecurityEvent
  | analyzed _ _ event none => some event
  | analyzed _ _ _ (some _) => none
  | beacon _ event => some event

end LoopReport

/-- The executable was analyzed and found suspicious. -/
def FoundSuspicious (identity : String) (reports : List LoopReport) : Prop :=
  ∃ process event fault, .analyzed process true event fault ∈ reports ∧ process.identity = identity

/-- What the history has of the security events. -/
def securityRows (history : EventHistory) : List SecurityEventRow :=
  history.securityEvents.rows.map Prod.snd

/-- What holds when the loop has analyzed so many processes. -/
structure Reports (start : EventHistory) (analyzed : List ProcessRecord) (state : LoopState) :
    Prop where
  analyses : state.reports.filterMap LoopReport.process = analyzed
  suspicious : ∀ identity ∈ state.suspiciousIdentities, FoundSuspicious identity state.reports
  beacons : ReportedOnce state.beacons.reported (state.reports.filterMap LoopReport.beaconOf)
  causes : ∀ before key event after, state.reports = before ++ .beacon key event :: after →
    FoundSuspicious key.identity before
  rows : securityRows state.history = securityRows start ++
    (state.reports.filterMap LoopReport.written).map (.ofEvent "")

section reports

variable {start history : EventHistory} {state : LoopState} {analyzed : List ProcessRecord}
  {endpoints : List NetworkEndpoint} {entry : ProcessRecord × AnalysisView}
  {identity : String} {reports more before after : List LoopReport} {report : LoopReport}

theorem FoundSuspicious.mono (h : FoundSuspicious identity reports) (hsubset : reports ⊆ more) :
    FoundSuspicious identity more := by
  obtain ⟨process, event, fault, hmem, hidentity⟩ := h
  exact ⟨process, event, fault, hsubset hmem, hidentity⟩

/-- A report of a longer list was there before, or is one of the new ones. -/
theorem split_append (h : reports ++ more = before ++ report :: after) :
    (∃ rest, reports = before ++ report :: rest) ∨ reports <+: before ∧ report ∈ more := by
  rcases List.append_eq_append_iff.mp h with ⟨middle, hbefore, hmore⟩ | ⟨middle, hreports, hafter⟩
  · exact .inr ⟨⟨middle, hbefore.symm⟩, hmore ▸ by simp⟩
  · cases middle with
    | nil =>
        refine .inr ⟨by simp [hreports], ?_⟩
        rw [← List.nil_append more, ← hafter]
        exact List.mem_cons_self
    | cons other rest =>
        obtain ⟨rfl, -⟩ := List.cons.inj hafter
        exact .inl ⟨rest, hreports⟩

theorem securityRows_recordEvent (fault : Fault) (event : SecurityEvent) :
    securityRows (recordEvent fault "" event history).2 = securityRows history ++
      (if fault.isNone then [event] else []).map (.ofEvent "") := by
  cases fault with
  | some error => exact (List.append_nil _).symm
  | none =>
      have hrows : (recordEvent none "" event history).2.securityEvents.rows =
          history.securityEvents.rows ++ [(history.securityEvents.nextId, .ofEvent "" event)] :=
        RowTable.rows_insert
      simp [securityRows, hrows]

theorem Reports.analyzeOne (h : Reports start analyzed state) (endpoints : List NetworkEndpoint)
    (entry : ProcessRecord × AnalysisView) :
    Reports start (analyzed ++ [entry.1]) (analyzeOne endpoints state entry) := by
  obtain ⟨hanalyses, hsuspicious, hbeacons, hcauses, hrows⟩ := h
  refine ⟨?_, fun identity hmem => ?_, ?_, fun before key event after hsplit => ?_, ?_⟩
  · simp [Service.analyzeOne, List.filterMap_append, hanalyses, LoopReport.process]
  · simp only [Service.analyzeOne] at hmem ⊢
    by_cases hfound : (analyzeNewProcess endpoints entry.1 entry.2 state.history).1
    · rw [if_pos hfound, Finset.mem_insert] at hmem
      rcases hmem with rfl | hmem
      · have hverdict : (Analysis.of endpoints entry.1 entry.2).suspicious = true := hfound
        rw [hverdict]
        exact ⟨_, _, _, List.mem_append_right _ (List.mem_singleton_self _), rfl⟩
      · exact (hsuspicious identity hmem).mono (List.subset_append_left _ _)
    · rw [if_neg hfound] at hmem
      exact (hsuspicious identity hmem).mono (List.subset_append_left _ _)
  · have hsame : (Service.analyzeOne endpoints state entry).reports.filterMap LoopReport.beaconOf =
        state.reports.filterMap LoopReport.beaconOf := by
      simp only [Service.analyzeOne, List.filterMap_append]
      exact List.append_nil _
    rw [hsame]
    exact hbeacons
  · rcases split_append hsplit with ⟨rest, hold⟩ | ⟨-, hnew⟩
    · exact hcauses before key event rest hold
    · cases List.mem_singleton.mp hnew
  · simp only [Service.analyzeOne, analyzeNewProcess, securityRows_recordEvent, hrows,
      List.filterMap_append, List.map_append, List.append_assoc]
    cases entry.2.fault <;> rfl

theorem Reports.foldl (h : Reports start analyzed state) (endpoints : List NetworkEndpoint)
    (batch : List (ProcessRecord × AnalysisView)) :
    Reports start (analyzed ++ batch.map Prod.fst) (batch.foldl (Service.analyzeOne endpoints) state) := by
  induction batch generalizing analyzed state with
  | nil => simpa using h
  | cons entry batch ih =>
      have hrest := ih (h.analyzeOne endpoints entry)
      rw [List.append_assoc] at hrest
      exact hrest

/-- The events of the counting are those of endpoints that are counted. -/
theorem mem_events_foldl {cycle : BeaconCycle} {counted : List CountedEndpoint} {loop : BeaconLoop}
    {e : BeaconKey × SecurityEvent} (h : e ∈ (counted.foldl (countEndpoint cycle) loop).events) :
    e ∈ loop.events ∨ ∃ endpoint ∈ counted, e.1 = endpoint.key := by
  induction counted generalizing loop with
  | nil => exact .inl h
  | cons endpoint counted ih =>
      rcases ih h with hnew | ⟨other, hother, hkey⟩
      · unfold countEndpoint at hnew
        dsimp only at hnew
        split_ifs at hnew
        · exact .inl hnew
        · cases hfault : cycle.fault endpoint.key.text with
          | some error =>
              rw [hfault] at hnew
              exact .inl hnew
          | none =>
              rw [hfault] at hnew
              rcases List.mem_append.mp hnew with hold | hlast
              · exact .inl hold
              · exact .inr ⟨endpoint, List.mem_cons_self, by rw [List.mem_singleton.mp hlast]⟩
      · exact .inr ⟨other, List.mem_cons_of_mem _ hother, hkey⟩

/-- A beacon is one of a suspicious executable. -/
theorem suspicious_of_event {cycle : BeaconCycle} {beacons : BeaconState}
    {e : BeaconKey × SecurityEvent} (h : e ∈ (correlateBeacons cycle beacons).2) :
    e.1.identity ∈ cycle.suspiciousIdentities := by
  rcases mem_events_foldl h with hnone | ⟨counted, hcounted, hkey⟩
  · cases hnone
  · obtain ⟨endpoint, -, hprocess⟩ := List.mem_filterMap.mp hcounted
    split at hprocess
    · cases hprocess
    · split_ifs at hprocess with hsuspicious
      obtain rfl := Option.some.inj hprocess
      exact hkey ▸ hsuspicious

theorem securityRows_foldl (events : List (BeaconKey × SecurityEvent)) :
    securityRows (events.foldl (fun history entry => (recordEvent none "" entry.2 history).2)
      history) = securityRows history ++ events.map fun entry => .ofEvent "" entry.2 := by
  induction events generalizing history with
  | nil => exact (List.append_nil _).symm
  | cons entry events ih =>
      rw [List.foldl_cons, ih, securityRows_recordEvent]
      simp

theorem Reports.countBeacons (h : Reports start analyzed state) (snapshot : SystemSnapshot)
    (cycle : LoopCycle) : Reports start analyzed (countBeacons snapshot cycle state) := by
  obtain ⟨hanalyses, hsuspicious, hbeacons, hcauses, hrows⟩ := h
  have hone : ReportedOnce
      (correlateBeacons ⟨snapshot, state.suspiciousIdentities, cycle.now, cycle.fault⟩
        state.beacons).1.reported
      (state.reports.filterMap LoopReport.beaconOf ++
        (correlateBeacons ⟨snapshot, state.suspiciousIdentities, cycle.now, cycle.fault⟩
          state.beacons).2) :=
    reportedOnce_foldl _ (by rwa [List.append_nil])
  refine ⟨?_, fun identity hmem => ?_, ?_, fun before key event after hsplit => ?_, ?_⟩
  · simp [Service.countBeacons, List.filterMap_append, hanalyses, LoopReport.process,
      List.filterMap_map, Function.comp_def]
  · exact (hsuspicious identity hmem).mono (List.subset_append_left _ _)
  · have hnew : (Service.countBeacons snapshot cycle state).reports.filterMap LoopReport.beaconOf =
        state.reports.filterMap LoopReport.beaconOf ++ (correlateBeacons
          ⟨snapshot, state.suspiciousIdentities, cycle.now, cycle.fault⟩ state.beacons).2 := by
      simp [Service.countBeacons, List.filterMap_append, List.filterMap_map, Function.comp_def,
        LoopReport.beaconOf]
    rw [hnew]
    exact hone
  · rcases split_append hsplit with ⟨rest, hold⟩ | ⟨hstart, hnew⟩
    · exact hcauses before key event rest hold
    · obtain ⟨entry, hentry, hreport⟩ := List.mem_map.mp hnew
      obtain ⟨rfl, -⟩ := LoopReport.beacon.inj hreport
      exact (hsuspicious _ (suspicious_of_event hentry)).mono hstart.subset
  · simp only [Service.countBeacons, securityRows_foldl, hrows, List.filterMap_append,
      List.map_append, List.append_assoc]
    simp [List.filterMap_map, Function.comp_def, LoopReport.written]

theorem protection_foldl (batch : List (ProcessRecord × AnalysisView)) :
    (batch.foldl (Service.analyzeOne endpoints) state).protection = state.protection := by
  induction batch generalizing state with
  | nil => rfl
  | cons entry batch ih => exact ih

theorem protection_loopCycle (cycle : LoopCycle) :
    (loopCycle state cycle).protection = protectionCycle state.protection cycle.snapshot := by
  unfold loopCycle
  cases cycle.snapshot with
  | none => rfl
  | some collected => simp only [Service.countBeacons, protection_foldl]

theorem Reports.loopCycle (h : Reports start state.protection.analyzed state) (cycle : LoopCycle) :
    Reports start (loopCycle state cycle).protection.analyzed (loopCycle state cycle) := by
  rw [protection_loopCycle]
  unfold Service.loopCycle
  cases cycle.snapshot with
  | none => exact h
  | some collected =>
      have hqueued : Reports start state.protection.analyzed
          { state with protection := protectionCycle state.protection (some collected) } :=
        ⟨h.analyses, h.suspicious, h.beacons, h.causes, h.rows⟩
      have hbatch := (hqueued.foldl (applyBehaviorCorrelations
        (markSnapshot state.protection.observed collected.toSystemSnapshot)).1.endpoints
        ((analysisBatch state.protection collected).zipIdx.map fun entry =>
          (entry.1, cycle.views entry.2))).countBeacons
            (applyBehaviorCorrelations (markSnapshot state.protection.observed
              collected.toSystemSnapshot)).1 cycle
      rw [List.map_map, Function.comp_def, List.zipIdx_map_fst] at hbatch
      exact hbatch

theorem reports_loopAfter (history : EventHistory) (cycles : List LoopCycle) :
    Reports history (loopAfter history cycles).protection.analyzed (loopAfter history cycles) := by
  induction cycles using List.reverseRecOn with
  | nil =>
      refine ⟨rfl, fun identity hmem => absurd hmem (Finset.notMem_empty _), ⟨?_, List.nodup_nil⟩,
        ?_, (List.append_nil _).symm⟩
      · simp [loopAfter, LoopState.initial]
      · simp [loopAfter, LoopState.initial]
  | append_singleton cycles cycle ih =>
      unfold loopAfter
      rw [List.foldl_append]
      exact ih.loopCycle cycle

/-- The loop queues as if there were no analyses. -/
theorem protection_loopAfter (history : EventHistory) (cycles : List LoopCycle) :
    (loopAfter history cycles).protection = afterCycles (cycles.map (·.snapshot)) := by
  induction cycles using List.reverseRecOn with
  | nil => rfl
  | append_singleton cycles cycle ih =>
      unfold loopAfter
      rw [List.map_append, List.map_singleton, afterCycles_concat, List.foldl_append, ← ih]
      exact protection_loopCycle cycle

end reports

/-- What a beacon comes after. -/
structure Caused (cycles : List (Option CollectedSnapshot)) (reports : List LoopReport) : Prop where
  analyzed : ∀ before key event after, reports = before ++ .beacon key event :: after →
    FoundSuspicious key.identity before
  appeared : ∀ key event, .beacon key event ∈ reports → AppearsNew key.identity cycles
  once : ((reports.filterMap LoopReport.beaconOf).map fun e => e.1.text).Nodup

/-- **A beacon is reported after an analysis** that found the executable suspicious, and never for an
executable of the first snapshot. -/
theorem beacon_after_analysis (history : EventHistory) (cycles : List LoopCycle) :
    Caused (cycles.map (·.snapshot)) (loopAfter history cycles).reports := by
  have hreports := reports_loopAfter history cycles
  have hqueue := queueInv_afterCycles (cycles.map (·.snapshot))
  rw [← protection_loopAfter history] at hqueue
  refine ⟨hreports.causes, fun key event hmem => ?_, hreports.beacons.2⟩
  obtain ⟨before, after, hsplit⟩ := List.append_of_mem hmem
  obtain ⟨process, found, fault, hfound, hidentity⟩ := hreports.causes before key event after hsplit
  refine (hqueue.complete _).mp ?_
  have hanalyzed : process ∈ (loopAfter history cycles).protection.analyzed := by
    rw [← hreports.analyses, hsplit]
    exact List.mem_filterMap.mpr ⟨_, List.mem_append_left _ hfound, rfl⟩
  rw [← hidentity]
  exact List.mem_map_of_mem (List.mem_append_left _ (List.mem_append_left _ hanalyzed))

end OpenGuard.Service
