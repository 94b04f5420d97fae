import OpenGuard.Detection.Risk
import OpenGuard.Service.Baseline
import OpenGuard.Windows.Error
import Mathlib.Data.Finset.Card

/-!
# Behaviour correlation of a snapshot, and the snapshot that is served

`applyBehaviorCorrelations` gathers for every process what the snapshot says about its parent and
its connections and passes it to `correlateBehavior`. It is called twice on the way to a client:
by the protection loop on what it publishes (`publishSnapshot`), and by `collectSnapshotView` on
what it serves, which is the published snapshot when there is one and the collector's own
otherwise.

* `correlated_published`: the second pass finds no reason that is not there, so it counts no
  process.
* `servedRisk_countedOnce_iff`: when the two ways to a view give the same risk for every process,
  and when their counts are the number of processes with a `Behavior:` reason.
-/

namespace OpenGuard.Service

open OpenGuard.Lib OpenGuard.Domain OpenGuard.Storage OpenGuard.Detection OpenGuard.Windows

/-! ## One pass over a snapshot -/

/-- What the endpoints of one process say: a connection that is not local, one to a suspicious
destination, one to a malicious destination. -/
abbrev NetworkSignal := Bool × Bool × Bool

/-- Source: `main.rs`, `apply_behavior_correlations` -/
def networkSignals (endpoints : List NetworkEndpoint) : Table UInt32 NetworkSignal :=
  endpoints.foldl (fun signals endpoint =>
    if endpoint.remotePort = 0 ∨ endpoint.remoteAddress = "*" then signals
    else
      let signal := (signals.lookup endpoint.pid).getD default
      signals.insert endpoint.pid
        (signal.1 || endpoint.reputation != "local",
          signal.2.1 || endpoint.reputation == "suspicious",
          signal.2.2 || endpoint.reputation == "malicious")) ∅

/-- The name of each process id; of several processes with one id, the last one's.
Source: `main.rs`, `apply_behavior_correlations` -/
def processNames (processes : List ProcessRecord) : Table UInt32 String :=
  Table.collect (processes.map fun process => (process.pid, process.name))

/-- The context in which a snapshot puts one of its processes.
Source: `main.rs`, `apply_behavior_correlations` -/
def behaviorContext (names : Table UInt32 String) (signals : Table UInt32 NetworkSignal)
    (process : ProcessRecord) : BehaviorContext :=
  let signal := (signals.lookup process.pid).getD default
  { parentName := (names.lookup process.parentPid).getD ""
    hasPublicNetwork := signal.1
    suspiciousDestination := signal.2.1
    maliciousDestination := signal.2.2 }

/-- One process with its risk correlated. -/
def correlateProcess (names : Table UInt32 String) (signals : Table UInt32 NetworkSignal)
    (process : ProcessRecord) : ProcessRecord :=
  { process with
    risk := correlateBehavior process.name process.signature process.isNew
      (behaviorContext names signals process) process.risk }

/-- The correlated snapshot, and the number of processes whose reasons became more.
Source: `main.rs`, `apply_behavior_correlations` -/
def applyBehaviorCorrelations (snapshot : SystemSnapshot) : SystemSnapshot × ℕ :=
  let names := processNames snapshot.processes
  let signals := networkSignals snapshot.endpoints
  let correlate := correlateProcess names signals
  ({ snapshot with processes := snapshot.processes.map correlate },
    snapshot.processes.countP fun process =>
      process.risk.reasons.length < (correlate process).risk.reasons.length)

/-! ## The published and the served snapshot -/

/-- The coverage notes of the protection loop.
Source: `main.rs`, `append_protection_coverage` -/
def protectionCoverage (sysmonCoverage windowsCoverage : CoverageNote)
    (knownIdentities pendingAnalyses : ℕ) : List CoverageNote :=
  [{ source := "background_protection"
     state := .active
     detail := "Independent 3-second protection loop active; " ++ toString knownIdentities
       ++ " executable identities baselined; " ++ toString pendingAnalyses ++ " analyses queued" },
   { source := "behavior_chain"
     state := sysmonCoverage.state
     detail := if sysmonCoverage.state = .active then
         "Bounded 10-minute Sysmon chains correlate credential access, injection, executable drops, persistence, DNS, and outbound connections; duplicate alerts are suppressed for one hour"
       else
         "Behavior-chain engine is ready but optional Sysmon telemetry is unavailable; snapshot and ETW correlations remain active" },
   { source := "driverless_enforcement"
     state := .active
     detail := "Confirmed response actions use Windows process controls and application-scoped Windows Firewall/WFP policy with identity revalidation and rollback; no custom kernel driver is loaded" },
   windowsCoverage, sysmonCoverage]

/-- The processes of a snapshot marked by the protection loop. -/
def markSnapshot (observed : ObservationState) (snapshot : SystemSnapshot) : SystemSnapshot :=
  { snapshot with
    processes :=
      (markFirstObservations observed.baselined observed.knownIdentities snapshot.processes).1 }

/-- What the protection loop makes of the collector's snapshot and publishes: marked, correlated,
and with its coverage notes. `pendingAnalyses` is the length of the queue of analyses then.
Source: `main.rs`, `run_protection_loop` -/
def publishSnapshot (observed : ObservationState) (pendingAnalyses : ℕ)
    (sysmonCoverage windowsCoverage : CoverageNote) (collected : SystemSnapshot) :
    SystemSnapshot :=
  let known :=
    (markFirstObservations observed.baselined observed.knownIdentities collected.processes).2
  let snapshot := (applyBehaviorCorrelations (markSnapshot observed collected)).1
  { snapshot with
    coverage := snapshot.coverage
      ++ protectionCoverage sysmonCoverage windowsCoverage known.card pendingAnalyses }

/-- Source: `main.rs`, `ServiceState::collect_snapshot` -/
def fileMonitorNote (monitorRoots : Option ℕ) : CoverageNote :=
  match monitorRoots with
  | none =>
      { source := "realtime_file_monitor"
        state := .limited
        detail := "Per-user file monitoring has not initialized for this session" }
  | some roots =>
      { source := "realtime_file_monitor"
        state := .active
        detail := "ReadDirectoryChangesW monitoring is active on " ++ toString roots
          ++ " user-writable roots with USN gap checks and bounded reconciliation" }

/-- Source: `main.rs`, `ServiceState::collect_snapshot` -/
def baselineNote : Except StorageError Bool → CoverageNote
  | .ok initializedNow =>
      { source := "executable_baseline"
        state := .active
        detail := if initializedNow then
            "Persistent per-user executable baseline initialized without alerting on existing processes"
          else "Persistent per-user executable baseline is active" }
  | .error error =>
      { source := "executable_baseline"
        state := .limited
        detail := "Executable baseline persistence is unavailable: " ++ error.display }

/-- Source: `main.rs`, `ServiceState::collect_snapshot` -/
def correlationNote (correlated : ℕ) : CoverageNote where
  source := "behavior_correlation"
  state := .active
  detail := "Explainable parent, identity, trust, baseline, and destination correlation is active; "
    ++ toString correlated ++ " processes currently have correlated evidence"

/-- What a request for a snapshot depends on besides the snapshot itself. -/
structure ViewInput where
  ownerSid : String
  now : Clock
  faults : BaselineFaults
  monitorRoots : Option ℕ

/-- The view served to a client, with the number `correlated` that its last note tells, and the
state the baseline is left in. `published` is what the protection monitor last published,
`collected` the answer of the collector. The history rows and events that the call also records do
not enter the view and are not modelled here.
Source: `main.rs`, `ServiceState::collect_snapshot` -/
def collectSnapshotView (input : ViewInput) (state : BaselineState)
    (published : Option SystemSnapshot) (collected : Except WindowsError SystemSnapshot) :
    Except WindowsError (SystemSnapshot × ℕ) × BaselineState :=
  match published.elim collected Except.ok with
  | .error error => (.error error, state)
  | .ok source =>
      let noted :=
        { source with coverage := source.coverage ++ [fileMonitorNote input.monitorRoots] }
      let (state, baselined, outcome) :=
        applyExecutableBaseline input.faults input.now input.ownerSid state noted
      let baselined :=
        { baselined with coverage := baselined.coverage ++ [baselineNote outcome] }
      let (snapshot, correlated) := applyBehaviorCorrelations baselined
      (.ok ({ snapshot with coverage := snapshot.coverage ++ [correlationNote correlated] },
        correlated), state)

/-! ## The rules that fire in a snapshot -/

/-- The behaviour rules that fire for a process of a snapshot. -/
def firedSignals (snapshot : SystemSnapshot) (process : ProcessRecord) : List (UInt8 × String) :=
  behaviorSignals process.name process.signature process.isNew
    (behaviorContext (processNames snapshot.processes) (networkSignals snapshot.endpoints) process)

/-- Their total amount. -/
def firedWeight (snapshot : SystemSnapshot) (process : ProcessRecord) : ℕ :=
  behaviorWeight process.name process.signature process.isNew
    (behaviorContext (processNames snapshot.processes) (networkSignals snapshot.endpoints) process)

/-- The process has a reason of the behaviour correlation.
Source: `main.rs`, `ServiceState::collect_snapshot` -/
def hasBehaviorReason (process : ProcessRecord) : Bool :=
  process.risk.reasons.any fun reason => startsWith reason "Behavior:"

/-! ## What the two passes leave -/

section passes

variable (names : Table UInt32 String) (signals : Table UInt32 NetworkSignal)

theorem reasons_subset_correlateProcess (process : ProcessRecord) :
    process.risk.reasons ⊆ (correlateProcess names signals process).risk.reasons := by
  intro reason hmem
  unfold correlateProcess
  rw [reasons_correlateBehavior, mem_sortDedup]
  exact List.mem_append_left _ hmem

/-- A second pass finds every reason already there. -/
theorem reasons_correlateProcess_twice (process : ProcessRecord) :
    (correlateProcess names signals (correlateProcess names signals process)).risk.reasons =
      (correlateProcess names signals process).risk.reasons :=
  reasons_correlateBehavior_twice _ _ _ _ _

theorem processNames_map_correlateProcess (processes : List ProcessRecord) :
    processNames (processes.map (correlateProcess names signals)) = processNames processes := by
  unfold processNames
  rw [List.map_map]
  rfl

/-- The risk of a process is the same after two passes and after one exactly when no rule fires
for it or its score is saturated. -/
theorem risk_correlateProcess_twice_iff (process : ProcessRecord) :
    (correlateProcess names signals (correlateProcess names signals process)).risk =
        (correlateProcess names signals process).risk ↔
      behaviorSignals process.name process.signature process.isNew
          (behaviorContext names signals process) = [] ∨
        100 ≤ process.risk.score.toNat +
          behaviorWeight process.name process.signature process.isNew
            (behaviorContext names signals process) :=
  correlateBehavior_idem_iff _ _ _ _ _

/-- After one pass a process has a `Behavior:` reason exactly when it had one before or a rule
fires for it. -/
theorem hasBehaviorReason_correlateProcess (process : ProcessRecord) :
    hasBehaviorReason (correlateProcess names signals process) ↔
      hasBehaviorReason process ∨
        behaviorSignals process.name process.signature process.isNew
          (behaviorContext names signals process) ≠ [] := by
  unfold hasBehaviorReason
  simp only [List.any_eq_true]
  constructor
  · rintro ⟨reason, hmem, hstart⟩
    unfold correlateProcess at hmem
    rw [reasons_correlateBehavior, mem_sortDedup, List.mem_append] at hmem
    rcases hmem with hbase | hsignal
    · exact Or.inl ⟨reason, hbase, hstart⟩
    · exact Or.inr fun hnil => by simp [hnil] at hsignal
  · rintro (⟨reason, hmem, hstart⟩ | hfires)
    · exact ⟨reason, reasons_subset_correlateProcess names signals process hmem, hstart⟩
    · obtain ⟨signal, hsignal⟩ := List.exists_mem_of_ne_nil _ hfires
      refine ⟨signal.2, ?_, (of_mem_behaviorSignals _ _ _ _ hsignal).2⟩
      unfold correlateProcess
      rw [reasons_correlateBehavior, mem_sortDedup]
      exact List.mem_append_right _ (List.mem_map_of_mem hsignal)

/-- A process for which no rule fires gets no reason, so it is not counted. -/
theorem length_reasons_correlateProcess_le (process : ProcessRecord)
    (hnil : behaviorSignals process.name process.signature process.isNew
      (behaviorContext names signals process) = []) :
    (correlateProcess names signals process).risk.reasons.length ≤
      process.risk.reasons.length := by
  unfold correlateProcess
  rw [reasons_correlateBehavior, hnil, List.map_nil, List.append_nil]
  exact length_sortDedup_le _

end passes

section served

/-- The processes of a view, when the baseline gives them the flags of `processes`. -/
theorem processes_collectSnapshotView {input : ViewInput} {state : BaselineState}
    {published : Option SystemSnapshot} {answer : Except WindowsError SystemSnapshot}
    {source view : SystemSnapshot} {correlated : ℕ} (processes : List ProcessRecord)
    (hsource : published.elim answer Except.ok = .ok source)
    (hview : (collectSnapshotView input state published answer).1 = .ok (view, correlated))
    (hforget : source.processes.map forgetNew = processes.map forgetNew)
    (hflags : view.processes.map (·.isNew) = processes.map (·.isNew)) :
    let correlate := correlateProcess (processNames processes) (networkSignals source.endpoints)
    view.processes = processes.map correlate ∧
      correlated = processes.countP fun process =>
        process.risk.reasons.length < (correlate process).risk.reasons.length := by
  unfold collectSnapshotView at hview
  rw [hsource] at hview
  dsimp only at hview
  obtain ⟨hbaselined, hendpoints, -⟩ := forgetNew_applyExecutableBaseline input.faults input.now
    input.ownerSid state
    { source with coverage := source.coverage ++ [fileMonitorNote input.monitorRoots] }
  generalize applyExecutableBaseline input.faults input.now input.ownerSid state
    { source with coverage := source.coverage ++ [fileMonitorNote input.monitorRoots] } = result
    at hview hbaselined hendpoints
  unfold applyBehaviorCorrelations at hview
  simp only [Except.ok.injEq, Prod.mk.injEq] at hview
  obtain ⟨rfl, rfl⟩ := hview
  have heq : result.2.1.processes = processes := by
    refine eq_of_forgetNew_eq (hbaselined.trans hforget) ?_
    rw [← hflags, List.map_map]
    rfl
  dsimp only
  rw [heq, hendpoints]
  exact ⟨rfl, rfl⟩

/-- A pass over what was already correlated counts no process. -/
theorem correlated_published (names : Table UInt32 String)
    (signals : Table UInt32 NetworkSignal) (processes : List ProcessRecord) :
    (processes.map (correlateProcess names signals)).countP (fun process =>
      process.risk.reasons.length <
        (correlateProcess names signals process).risk.reasons.length) = 0 := by
  rw [List.countP_eq_zero]
  intro process hmem
  obtain ⟨before, -, rfl⟩ := List.mem_map.mp hmem
  rw [reasons_correlateProcess_twice]
  simp

/-- Two passes and one pass give the same risks exactly when no process is added to twice. -/
theorem map_risk_twice_iff (names : Table UInt32 String) (signals : Table UInt32 NetworkSignal)
    (processes : List ProcessRecord) :
    ((processes.map (correlateProcess names signals)).map
        (correlateProcess names signals)).map (·.risk) =
      (processes.map (correlateProcess names signals)).map (·.risk) ↔
    ∀ process ∈ processes,
      behaviorSignals process.name process.signature process.isNew
          (behaviorContext names signals process) = [] ∨
        100 ≤ process.risk.score.toNat +
          behaviorWeight process.name process.signature process.isNew
            (behaviorContext names signals process) := by
  rw [List.map_map, List.map_map, List.map_map, List.map_inj_left]
  exact forall₂_congr fun process _ => risk_correlateProcess_twice_iff names signals process

/-- No process has a `Behavior:` reason after two passes exactly when none had one before and no
rule fires. -/
theorem countP_behavior_twice_eq_zero_iff (names : Table UInt32 String)
    (signals : Table UInt32 NetworkSignal) (processes : List ProcessRecord) :
    ((processes.map (correlateProcess names signals)).map
        (correlateProcess names signals)).countP hasBehaviorReason = 0 ↔
    ∀ process ∈ processes,
      behaviorSignals process.name process.signature process.isNew
          (behaviorContext names signals process) = [] ∧ ¬ hasBehaviorReason process := by
  rw [List.map_map, List.countP_map, List.countP_eq_zero]
  refine forall₂_congr fun process _ => ?_
  rw [Function.comp_apply, Function.comp_apply, hasBehaviorReason_correlateProcess,
    hasBehaviorReason_correlateProcess, not_or, not_or, not_not]
  exact ⟨fun h => ⟨h.1.2, h.1.1⟩, fun h => ⟨⟨h.2, h.1⟩, not_not.mpr h.1⟩⟩

/-- When no rule fires and no process has a `Behavior:` reason, one pass counts none and gives
none. -/
theorem counts_eq_zero (names : Table UInt32 String) (signals : Table UInt32 NetworkSignal)
    {processes : List ProcessRecord}
    (h : ∀ process ∈ processes,
      behaviorSignals process.name process.signature process.isNew
          (behaviorContext names signals process) = [] ∧ ¬ hasBehaviorReason process) :
    processes.countP (fun process => process.risk.reasons.length <
        (correlateProcess names signals process).risk.reasons.length) = 0 ∧
      (processes.map (correlateProcess names signals)).countP hasBehaviorReason = 0 := by
  constructor
  · rw [List.countP_eq_zero]
    intro process hmem
    have hle := length_reasons_correlateProcess_le names signals process (h process hmem).1
    simpa using hle
  · rw [List.countP_map, List.countP_eq_zero]
    intro process hmem
    rw [Function.comp_apply, hasBehaviorReason_correlateProcess]
    rintro (hhas | hfires)
    · exact (h process hmem).2 hhas
    · exact hfires (h process hmem).1

/-- **When the served risk counts every behaviour signal once.** The first part is
`correlateBehavior` itself: a second pass changes nothing exactly when no rule fires or the score
is saturated. The rest is about the two views that can be served of one collected snapshot, the
one from the loop's published snapshot and the direct one, whose processes carry the flags that
the loop gave them: their risks agree exactly when that holds of every process, and then both
counts are the number of processes with a `Behavior:` reason exactly when no process has such a
reason or fires a rule. -/
theorem servedRisk_countedOnce_iff (observed : ObservationState) (pendingAnalyses : ℕ)
    (sysmonCoverage windowsCoverage : CoverageNote) (collected : SystemSnapshot)
    (answer : Except WindowsError SystemSnapshot) (cachedInput directInput : ViewInput)
    (cachedState directState : BaselineState) (cached direct : SystemSnapshot)
    (cachedCount directCount : ℕ) :
    (∀ name signature isNew context base,
      correlateBehavior name signature isNew context
          (correlateBehavior name signature isNew context base) =
        correlateBehavior name signature isNew context base ↔
      behaviorSignals name signature isNew context = [] ∨
        100 ≤ base.score.toNat + behaviorWeight name signature isNew context) ∧
    ((collectSnapshotView cachedInput cachedState
        (some (publishSnapshot observed pendingAnalyses sysmonCoverage windowsCoverage collected))
        answer).1 = .ok (cached, cachedCount) →
      (collectSnapshotView directInput directState none (.ok collected)).1 =
        .ok (direct, directCount) →
      cached.processes.map (·.isNew) =
        (markSnapshot observed collected).processes.map (·.isNew) →
      direct.processes.map (·.isNew) =
        (markSnapshot observed collected).processes.map (·.isNew) →
      (cached.processes.map (·.risk) = direct.processes.map (·.risk) ↔
        ∀ process ∈ (markSnapshot observed collected).processes,
          firedSignals (markSnapshot observed collected) process = [] ∨
            100 ≤ process.risk.score.toNat
              + firedWeight (markSnapshot observed collected) process) ∧
      (cached.processes.map (·.risk) = direct.processes.map (·.risk) ∧
          cachedCount = cached.processes.countP hasBehaviorReason ∧
          directCount = direct.processes.countP hasBehaviorReason ↔
        ∀ process ∈ (markSnapshot observed collected).processes,
          firedSignals (markSnapshot observed collected) process = [] ∧
            ¬ hasBehaviorReason process)) := by
  refine ⟨correlateBehavior_idem_iff, ?_⟩
  intro hcached hdirect hcachedFlags hdirectFlags
  set marked := markSnapshot observed collected
  set published :=
    publishSnapshot observed pendingAnalyses sysmonCoverage windowsCoverage collected
  set correlate := correlateProcess (processNames marked.processes)
    (networkSignals collected.endpoints) with hcorrelate
  have hpublished : published.processes = marked.processes.map correlate := rfl
  -- the direct view is one pass over the marked processes
  obtain ⟨hdirectEq, rfl⟩ := processes_collectSnapshotView marked.processes rfl hdirect
    (forgetNew_markFirstObservations _ _ _).symm hdirectFlags
  -- the cached view is two passes
  obtain ⟨hcachedEq, rfl⟩ := processes_collectSnapshotView published.processes rfl hcached rfl
    (by rw [hcachedFlags, hpublished, List.map_map]; rfl)
  have hnames : processNames published.processes = processNames marked.processes :=
    processNames_map_correlateProcess _ _ _
  have hendpoints : networkSignals published.endpoints = networkSignals collected.endpoints := rfl
  rw [hnames, hendpoints, ← hcorrelate, hpublished] at hcachedEq ⊢
  have hrisks : cached.processes.map (·.risk) = direct.processes.map (·.risk) ↔
      ∀ process ∈ marked.processes, firedSignals marked process = [] ∨
        100 ≤ process.risk.score.toNat + firedWeight marked process := by
    rw [hcachedEq, hdirectEq]
    exact map_risk_twice_iff _ _ _
  refine ⟨hrisks, ?_⟩
  rw [hrisks, hcachedEq, hdirectEq, hcorrelate, correlated_published]
  constructor
  · rintro ⟨-, hcount, -⟩
    exact (countP_behavior_twice_eq_zero_iff _ _ _).mp hcount.symm
  · intro hnone
    obtain ⟨hcount, hbehavior⟩ := counts_eq_zero _ _ hnone
    refine ⟨fun process hmem => Or.inl (hnone process hmem).1, ?_, hcount.trans hbehavior.symm⟩
    exact ((countP_behavior_twice_eq_zero_iff _ _ _).mpr hnone).symm

/-- A snapshot with one untrusted process that talks to a public address. -/
def onlineSnapshot : SystemSnapshot where
  processes :=
    [{ pid := 7
       parentPid := 1
       name := "tool.exe"
       path := "C:\\Users\\me\\tool.exe"
       signature := .untrusted
       identity := "c:\\users\\me\\tool.exe|1"
       isNew := false
       risk := ⟨0, .info, []⟩ }]
  endpoints :=
    [{ protocol := "TCP"
       localAddress := "192.0.2.4"
       localPort := 50123
       remoteAddress := "203.0.113.8"
       remotePort := 443
       state := "ESTABLISHED"
       pid := 7
       processName := "tool.exe"
       processPath := "C:\\Users\\me\\tool.exe"
       remoteHostname := ""
       reputation := "public" }]
  capturedAt := "unix:1760000000"
  coverage := []

/-- The first request of an owner of whom nothing is stored. -/
def firstRequest : ViewInput := ⟨"S-1-5-21-1", ⟨0, 1760000000⟩, default, none⟩

/-- The view of `onlineSnapshot` through the loop's published snapshot, and the direct view. -/
def onlineView (throughLoop : Bool) : SystemSnapshot × ℕ :=
  let published :=
    if throughLoop then some (publishSnapshot .initial 0 default default onlineSnapshot) else none
  (collectSnapshotView firstRequest ⟨∅, ∅, ∅⟩ published
    (.ok onlineSnapshot)).1.toOption.getD default

/-- `servedRisk_countedOnce_iff` at `onlineSnapshot`. -/
theorem servedRisk_countedOnce_online :
    ((onlineView true).1.processes.map (·.risk) = (onlineView false).1.processes.map (·.risk) ↔
      ∀ process ∈ (markSnapshot .initial onlineSnapshot).processes,
        firedSignals (markSnapshot .initial onlineSnapshot) process = [] ∨
          100 ≤ process.risk.score.toNat
            + firedWeight (markSnapshot .initial onlineSnapshot) process) :=
  ((servedRisk_countedOnce_iff .initial 0 default default onlineSnapshot (.ok onlineSnapshot)
    firstRequest firstRequest ⟨∅, ∅, ∅⟩ ⟨∅, ∅, ∅⟩ (onlineView true).1 (onlineView false).1
    (onlineView true).2 (onlineView false).2).2 rfl rfl rfl rfl).1

/-- The score 12 of the one rule that fires is 24 after a second pass; so the view through the
loop shows 24 and counts no process, and the direct view shows 12 and counts one. -/
theorem servedRisk_twice_online :
    (correlateBehavior "tool.exe" .untrusted false ⟨"", true, false, false⟩
        (correlateBehavior "tool.exe" .untrusted false ⟨"", true, false, false⟩
          ⟨0, .info, []⟩)).score = 24 ∧
      (correlateBehavior "tool.exe" .untrusted false ⟨"", true, false, false⟩
        ⟨0, .info, []⟩).score = 12 ∧
      (onlineView true).1.processes.map (·.risk.score) = [24] ∧
      (onlineView false).1.processes.map (·.risk.score) = [12] ∧
      (onlineView true).1.processes.map (·.isNew) = (onlineView false).1.processes.map (·.isNew) ∧
      (onlineView true).2 = 0 ∧ (onlineView true).1.processes.countP hasBehaviorReason = 1 := by
  decide

end served

end OpenGuard.Service
