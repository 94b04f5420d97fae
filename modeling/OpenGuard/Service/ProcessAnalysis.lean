import Mathlib.Data.Finset.Lattice.Lemmas
import OpenGuard.Detection.Capabilities
import OpenGuard.Lib.SortDedup
import OpenGuard.Service.Baseline
import OpenGuard.Storage.Events
import OpenGuard.Windows.MemoryMap
import OpenGuard.Windows.ScanSignals

/-!
# The analysis of a new process

The protection loop scans the executable of a new process, looks at the connections of the process and,
if there is a reason, at the map of its memory. What it finds is added up, and one event is written.

* `analyzeNewProcess`: the analysis.
* `score_of_le`: the sum never saturates.
* `analysis_mono`: what the process was known for and what the scan found counts in full, and a process
  with more connections is not taken for a safer one.
-/

namespace OpenGuard.Service

open OpenGuard.Lib OpenGuard.Domain OpenGuard.Detection OpenGuard.Storage OpenGuard.Windows

/-! ## The analysis -/

/-- Source: `main.rs`, `REALTIME_SCAN_MAXIMUM_BYTES` -/
def newProcessMaximumBytes : UInt64 := 256 * 1024 * 1024

/-- What the system says during an analysis: whether the path is a file, its length, and whether it is
still one; what the scan of it comes to; and what is known of the memory of the process. -/
structure AnalysisView where
  isFile : Bool
  length : Option UInt64
  stillFile : Bool
  scanned : Except ScanError ScanFinding
  windows : WindowsView
  opened : Except String Unit
  memory : MemoryQuery
  now : Clock
  fault : Fault

/-- The variables of an analysis.
Source: `main.rs`, `analyze_new_process` -/
structure Analysis where
  score : ℕ
  evidence : List String
  categories : Finset String
  verdict : ScanVerdict
  signature : SignatureStatus

/-- Source: `main.rs`, `analyze_new_process` -/
def capabilityEvidence (capability : ThreatCapability) : List String :=
  ("MITRE " ++ capability.mitreTechnique ++ ": " ++ capability.category ++ " (confidence " ++
    toString capability.confidence.toNat ++ "%)") :: capability.evidence

namespace Analysis

/-- Source: `main.rs`, `analyze_new_process` -/
def begin (process : ProcessRecord) : Analysis where
  score := process.risk.score.toNat
  evidence := process.risk.reasons
  categories := ∅
  verdict := .clean
  signature := process.signature

/-- What a scan found.
Source: `main.rs`, `analyze_new_process` -/
def addFinding (finding : ScanFinding) (analysis : Analysis) : Analysis where
  score := max analysis.score finding.score.toNat
  evidence := analysis.evidence ++ finding.reasons ++ finding.capabilities.flatMap capabilityEvidence
  categories := analysis.categories ∪ (finding.capabilities.map (·.category)).toFinset
  verdict := finding.verdict
  signature := finding.signature

/-- The executable, unless it is too large.
Source: `main.rs`, `analyze_new_process` -/
def addContent (view : AnalysisView) (analysis : Analysis) : Analysis :=
  if view.isFile && view.length.any (· ≤ newProcessMaximumBytes) then
    match view.scanned with
    | .ok finding => analysis.addFinding (applyWindowsScanSignals view.windows finding)
    | .error _ => analysis
  else if view.stillFile then
    { analysis with
      evidence := analysis.evidence ++
        ["Real-time content scan deferred because the executable exceeds 256 MiB"] }
  else analysis

/-- Points, with the evidence for them.
Source: `main.rs`, `analyze_new_process` -/
def addIf (condition : Bool) (points : ℕ) (reason : String) (analysis : Analysis) : Analysis :=
  if condition then
    { analysis with
      score := saturatingAdd16 analysis.score points
      evidence := analysis.evidence ++ [reason] }
  else analysis

/-- The process has a connection that is not local.
Source: `main.rs`, `analyze_new_process` -/
def externalNetwork (endpoints : List NetworkEndpoint) (pid : UInt32) : Bool :=
  endpoints.any fun endpoint =>
    endpoint.pid == pid && endpoint.remotePort != 0 && endpoint.reputation != "local"

/-- Source: `main.rs`, `analyze_new_process` -/
def maliciousDestination (endpoints : List NetworkEndpoint) (pid : UInt32) : Bool :=
  endpoints.any fun endpoint => endpoint.pid == pid && endpoint.reputation == "malicious"

/-- Source: `main.rs`, `analyze_new_process` -/
def addDestination (endpoints : List NetworkEndpoint) (pid : UInt32) : Analysis → Analysis :=
  addIf (maliciousDestination endpoints pid) 40
    "Runtime connection to a malicious reputation indicator"

/-- What the memory of the process says, when there is a reason to look at it.
Source: `main.rs`, `analyze_new_process` -/
def memoryOf (pid : UInt32) (view : AnalysisView) (analysis : Analysis) : Option MemoryInspection :=
  if analysis.signature ≠ .trusted ∨ "process_injection" ∈ analysis.categories then
    (inspectProcessMemory pid view.opened view.memory).toOption
  else none

/-- Source: `main.rs`, `analyze_new_process` -/
def addMemory (memory : Option MemoryInspection) (analysis : Analysis) : Analysis :=
  match memory with
  | none => analysis
  | some memory =>
      let analysis :=
        if 0 < memory.privateExecutableRegions then
          { analysis with
            evidence := analysis.evidence ++
              ["Memory metadata: " ++ toString memory.privateExecutableRegions ++
                " committed private executable regions (" ++
                toString memory.writableExecutableRegions ++ " writable+executable)"] }
        else analysis
      analysis.addIf
        (decide ("process_injection" ∈ analysis.categories) &&
          decide (0 < memory.writableExecutableRegions)) 25
        "Correlated injection imports with writable+executable private memory"

/-- A capability that goes with an external flow.
Source: `main.rs`, `analyze_new_process` -/
def addFlow (external : Bool) (category : String) (points : ℕ) (reason : String)
    (analysis : Analysis) : Analysis :=
  analysis.addIf
    (decide (analysis.signature ≠ .trusted) && external && decide (category ∈ analysis.categories))
    points reason

/-- Source: `main.rs`, `analyze_new_process` -/
def addFlows (external : Bool) (analysis : Analysis) : Analysis :=
  ((analysis.addFlow external "browser_credential_access" 25
    "Credential-access capability correlated with an external flow").addFlow
      external "keyboard_input_capture" 25
      "Keyboard-capture capability correlated with an external flow").addFlow
        external "remote_control_stack" 20
        "Remote-control capability stack correlated with an external flow"

/-- All that is added up.
Source: `main.rs`, `analyze_new_process` -/
def of (endpoints : List NetworkEndpoint) (process : ProcessRecord) (view : AnalysisView) :
    Analysis :=
  let analysis := ((begin process).addContent view).addDestination endpoints process.pid
  (analysis.addMemory (analysis.memoryOf process.pid view)).addFlows
    (externalNetwork endpoints process.pid)

/-- Source: `main.rs`, `analyze_new_process` -/
def finalScore (analysis : Analysis) : UInt8 := .ofNat (min analysis.score 100)

/-- Source: `main.rs`, `analyze_new_process` -/
def finalEvidence (analysis : Analysis) : List String := (sortDedup analysis.evidence).take 24

/-- The type of the event, and its title up to the name of the process.
Source: `main.rs`, `analyze_new_process` -/
def kind (external : Bool) (analysis : Analysis) : String × String :=
  if analysis.verdict = .malicious then ("malware_detected", "Malware detected: ")
  else if "browser_credential_access" ∈ analysis.categories ∧ external then
    ("credential_theft_behavior", "Possible browser credential theft: ")
  else if "process_injection" ∈ analysis.categories then
    ("process_injection_behavior", "Possible process injection: ")
  else if "keyboard_input_capture" ∈ analysis.categories ∧ external then
    ("keylogging_behavior", "Possible keylogging activity: ")
  else if "remote_control_stack" ∈ analysis.categories ∧ external then
    ("remote_access_behavior", "Possible remote-control activity: ")
  else ("new_executable", "New executable observed: ")

/-- The process is suspicious from now on.
Source: `main.rs`, `analyze_new_process` -/
def suspicious (analysis : Analysis) : Bool :=
  45 ≤ analysis.finalScore || decide (analysis.categories ≠ ∅)

/-- Source: `main.rs`, `analyze_new_process` -/
def event (endpoints : List NetworkEndpoint) (process : ProcessRecord) (now : Clock)
    (analysis : Analysis) : SecurityEvent :=
  let kind := analysis.kind (externalNetwork endpoints process.pid)
  { eventType := kind.1
    severity := .fromScore analysis.finalScore
    title := kind.2 ++ process.name
    detail :=
      if analysis.finalEvidence = [] then
        "Executable identity was not present in the service baseline"
      else joinWith "; " analysis.finalEvidence
    processId := some process.pid
    path := process.path
    createdAt := now.unixTimestamp
    resolved := false }

end Analysis

/-- Whether the process is suspicious, and the history with the event.
Source: `main.rs`, `analyze_new_process` -/
def analyzeNewProcess (endpoints : List NetworkEndpoint) (process : ProcessRecord)
    (view : AnalysisView) (history : EventHistory) : Bool × EventHistory :=
  let analysis := Analysis.of endpoints process view
  (analysis.suspicious,
    (recordEvent view.fault "" (analysis.event endpoints process view.now) history).2)

/-! ## What adds up -/

namespace Analysis

/-- The same findings, with at least the points and the evidence. -/
structure Below (analysis other : Analysis) : Prop where
  score : analysis.score ≤ other.score
  evidence : analysis.evidence ⊆ other.evidence
  categories : analysis.categories = other.categories
  verdict : analysis.verdict = other.verdict
  signature : analysis.signature = other.signature

section below

variable {analysis other : Analysis} {condition otherCondition external otherExternal : Bool}
  {points : ℕ} {reason category : String} {endpoints more : List NetworkEndpoint} {pid : UInt32}
  {process : ProcessRecord} {view : AnalysisView}

theorem Below.refl (analysis : Analysis) : Below analysis analysis :=
  ⟨le_rfl, List.Subset.refl _, rfl, rfl, rfl⟩

theorem Below.trans {third : Analysis} (h : Below analysis other) (h' : Below other third) :
    Below analysis third :=
  ⟨h.score.trans h'.score, List.Subset.trans h.evidence h'.evidence,
    h.categories.trans h'.categories, h.verdict.trans h'.verdict, h.signature.trans h'.signature⟩

theorem le_saturatingAdd16 {a b : ℕ} (h : a ≤ 65535) : a ≤ saturatingAdd16 a b := by
  unfold saturatingAdd16
  omega

/-- More points for one who gets them anyway. -/
theorem Below.addIf (h : Below analysis other) (hcondition : condition → otherCondition)
    (hlimit : other.score ≤ 65535) :
    Below (analysis.addIf condition points reason) (other.addIf otherCondition points reason) := by
  obtain ⟨hscore, hevidence, hcategories, hverdict, hsignature⟩ := h
  unfold Analysis.addIf
  by_cases hfirst : condition
  · rw [if_pos hfirst, if_pos (hcondition hfirst)]
    refine ⟨?_, ?_, hcategories, hverdict, hsignature⟩
    · dsimp only [saturatingAdd16]
      omega
    · exact List.append_subset.mpr ⟨List.subset_append_of_subset_left _ hevidence,
        List.subset_append_right _ _⟩
  · rw [if_neg hfirst]
    by_cases hsecond : otherCondition
    · rw [if_pos hsecond]
      refine ⟨hscore.trans (le_saturatingAdd16 hlimit), ?_, hcategories, hverdict, hsignature⟩
      exact List.subset_append_of_subset_left _ hevidence
    · rw [if_neg hsecond]
      exact ⟨hscore, hevidence, hcategories, hverdict, hsignature⟩

theorem score_addIf_le : (analysis.addIf condition points reason).score ≤ analysis.score + points := by
  unfold Analysis.addIf saturatingAdd16
  split_ifs
  · exact Nat.min_le_left _ _
  · exact Nat.le_add_right _ _

theorem score_begin_addContent_le : ((begin process).addContent view).score ≤ 255 := by
  have hrisk : process.risk.score.toNat ≤ 255 := Nat.le_of_lt_succ process.risk.score.toNat_lt
  unfold addContent
  split_ifs
  · cases view.scanned with
    | error error => exact hrisk
    | ok finding => exact max_le hrisk (Nat.le_of_lt_succ (UInt8.toNat_lt _))
  · exact hrisk
  · exact hrisk

/-- What a process was known for, and what the scan found, counts in full. -/
theorem le_score_addContent :
    process.risk.score.toNat ≤ ((begin process).addContent view).score ∧
      ∀ finding, view.scanned = .ok finding → view.isFile →
        view.length.any (· ≤ newProcessMaximumBytes) →
          (applyWindowsScanSignals view.windows finding).score.toNat ≤
            ((begin process).addContent view).score := by
  unfold addContent
  constructor
  · split_ifs
    · cases view.scanned with
      | error error => exact le_rfl
      | ok finding => exact Nat.le_max_left _ _
    · exact le_rfl
    · exact le_rfl
  · intro finding hscanned hfile hlength
    rw [if_pos (by rw [hfile, hlength]; rfl), hscanned]
    exact Nat.le_max_right _ _

/-- The memory is looked at in the same cases, and counts the same. -/
theorem Below.addMemory (h : Below analysis other) (hlimit : other.score ≤ 65535) :
    Below (analysis.addMemory (analysis.memoryOf pid view))
      (other.addMemory (other.memoryOf pid view)) := by
  have hmemory : analysis.memoryOf pid view = other.memoryOf pid view := by
    unfold memoryOf
    rw [h.categories, h.signature]
  rw [hmemory]
  cases other.memoryOf pid view with
  | none => exact h
  | some memory =>
      unfold Analysis.addMemory
      dsimp only
      split_ifs
      · refine Below.addIf ⟨h.score, ?_, h.categories, h.verdict, h.signature⟩ ?_ hlimit
        · exact List.append_subset.mpr ⟨List.subset_append_of_subset_left _ h.evidence,
            List.subset_append_right _ _⟩
        · rw [h.categories]
          exact id
      · exact h.addIf (by rw [h.categories]; exact id) hlimit

theorem score_addMemory_le (memory : Option MemoryInspection) :
    (analysis.addMemory memory).score ≤ analysis.score + 25 := by
  cases memory with
  | none => exact Nat.le_add_right _ _
  | some memory =>
      unfold addMemory
      dsimp only
      split_ifs
      · exact score_addIf_le
      · exact score_addIf_le

theorem Below.addFlow (h : Below analysis other) (hexternal : external → otherExternal)
    (hlimit : other.score ≤ 65535) :
    Below (analysis.addFlow external category points reason)
      (other.addFlow otherExternal category points reason) := by
  refine h.addIf ?_ hlimit
  rw [h.signature, h.categories]
  simp only [Bool.and_eq_true]
  rintro ⟨⟨hsigned, hflow⟩, hcategory⟩
  exact ⟨⟨hsigned, hexternal hflow⟩, hcategory⟩

theorem score_addFlow_le :
    (analysis.addFlow external category points reason).score ≤ analysis.score + points :=
  score_addIf_le

theorem Below.addFlows (h : Below analysis other) (hexternal : external → otherExternal)
    (hlimit : other.score ≤ 65000) :
    Below (analysis.addFlows external) (other.addFlows otherExternal) := by
  have hfirst := @score_addFlow_le other otherExternal 25
    "Credential-access capability correlated with an external flow" "browser_credential_access"
  have hsecond := @score_addFlow_le (other.addFlow otherExternal "browser_credential_access" 25
    "Credential-access capability correlated with an external flow") otherExternal 25
    "Keyboard-capture capability correlated with an external flow" "keyboard_input_capture"
  exact ((h.addFlow hexternal (by omega)).addFlow hexternal (by omega)).addFlow hexternal (by omega)

theorem externalNetwork_mono (hmore : endpoints ⊆ more) :
    externalNetwork endpoints pid → externalNetwork more pid := by
  simp only [externalNetwork, List.any_eq_true]
  rintro ⟨endpoint, hmem, hendpoint⟩
  exact ⟨endpoint, hmore hmem, hendpoint⟩

theorem maliciousDestination_mono (hmore : endpoints ⊆ more) :
    maliciousDestination endpoints pid → maliciousDestination more pid := by
  simp only [maliciousDestination, List.any_eq_true]
  rintro ⟨endpoint, hmem, hendpoint⟩
  exact ⟨endpoint, hmore hmem, hendpoint⟩

/-- More connections, more points. -/
theorem of_below (hmore : endpoints ⊆ more) :
    Below (Analysis.of endpoints process view) (Analysis.of more process view) := by
  have hcontent : ((begin process).addContent view).score ≤ 255 := score_begin_addContent_le
  have hdestination :
      (((begin process).addContent view).addDestination more process.pid).score ≤ 295 :=
    score_addIf_le.trans (by omega)
  have hmemory := @score_addMemory_le
    (((begin process).addContent view).addDestination more process.pid)
    ((((begin process).addContent view).addDestination more process.pid).memoryOf process.pid view)
  have hbelow : Below (((begin process).addContent view).addDestination endpoints process.pid)
      (((begin process).addContent view).addDestination more process.pid) :=
    (Below.refl _).addIf (maliciousDestination_mono hmore) (by omega)
  have hlooked := @Below.addMemory _ _ process.pid view hbelow (by omega)
  exact hlooked.addFlows (externalNetwork_mono hmore) (by omega)

theorem le_score_addMemory (memory : Option MemoryInspection) (hlimit : analysis.score ≤ 65535) :
    analysis.score ≤ (analysis.addMemory memory).score := by
  cases memory with
  | none => exact le_rfl
  | some memory =>
      unfold addMemory addIf
      dsimp only
      split_ifs
      all_goals first | exact le_rfl | exact le_saturatingAdd16 hlimit

/-- Without connections, the memory is all there is besides the executable. -/
theorem of_nil : Analysis.of [] process view = ((begin process).addContent view).addMemory
    (((begin process).addContent view).memoryOf process.pid view) := by
  simp [Analysis.of, addDestination, maliciousDestination, externalNetwork, addFlows, addFlow, addIf]

/-- Nothing that is found lowers the score. -/
theorem score_addContent_le :
    ((begin process).addContent view).score ≤ (Analysis.of endpoints process view).score := by
  have hcontent : ((begin process).addContent view).score ≤ 255 := score_begin_addContent_le
  have hnone : ((begin process).addContent view).score ≤ (Analysis.of [] process view).score := by
    rw [of_nil]
    exact le_score_addMemory _ (by omega)
  exact hnone.trans (of_below (List.nil_subset endpoints)).score

theorem fromScore_mono {low high : UInt8} (h : low ≤ high) :
    Severity.fromScore low ≤ Severity.fromScore high := by
  unfold Severity.fromScore
  split_ifs
  all_goals first
    | exact Nat.le_of_ble_eq_true rfl
    | simp only [UInt8.le_iff_toNat_le] at *
      omega

theorem finalScore_mono (h : analysis.score ≤ other.score) :
    analysis.finalScore ≤ other.finalScore := by
  unfold finalScore
  rw [UInt8.le_iff_toNat_le, UInt8.toNat_ofNat', UInt8.toNat_ofNat']
  omega

/-- The severity does not see that the score is cut. -/
theorem fromScore_le_final {score : UInt8} (h : score.toNat ≤ analysis.score) :
    Severity.fromScore score ≤ Severity.fromScore analysis.finalScore := by
  by_cases hcut : analysis.score ≤ 100
  · refine fromScore_mono ?_
    unfold finalScore
    rw [UInt8.le_iff_toNat_le, UInt8.toNat_ofNat']
    omega
  · have hfinal : analysis.finalScore = 100 := by
      unfold finalScore
      rw [Nat.min_eq_right (by omega)]
      rfl
    rw [hfinal]
    cases Severity.fromScore score <;> decide

/-- **Nothing is played down.** The event is at least as severe as what was known of the process and
as what the scan found; and with more connections it is no less severe, and a suspicious process is
still suspicious. -/
theorem analysis_mono (now : Clock) (hmore : endpoints ⊆ more) :
    let analysis := Analysis.of endpoints process view
    let other := Analysis.of more process view
    (Severity.fromScore process.risk.score ≤ (analysis.event endpoints process now).severity ∧
      ∀ finding, view.scanned = .ok finding → view.isFile →
        view.length.any (· ≤ newProcessMaximumBytes) →
          Severity.fromScore (applyWindowsScanSignals view.windows finding).score ≤
            (analysis.event endpoints process now).severity) ∧
      (analysis.event endpoints process now).severity ≤ (other.event more process now).severity ∧
        (analysis.suspicious → other.suspicious) := by
  obtain ⟨hrisk, hfinding⟩ := @le_score_addContent process view
  have hcontent := @score_addContent_le endpoints process view
  have hbelow : Below (Analysis.of endpoints process view) (Analysis.of more process view) :=
    of_below hmore
  refine ⟨⟨?_, fun finding hscanned hfile hlength => ?_⟩, ?_, ?_⟩
  · exact fromScore_le_final (hrisk.trans hcontent)
  · exact fromScore_le_final ((hfinding finding hscanned hfile hlength).trans hcontent)
  · exact fromScore_mono (finalScore_mono hbelow.score)
  · unfold suspicious
    rw [hbelow.categories]
    simp only [Bool.or_eq_true, decide_eq_true_eq]
    exact Or.imp_left fun h => UInt8.le_trans h (finalScore_mono hbelow.score)

end below

/-- A path that is no file, and a process that cannot be opened. -/
def blindView : AnalysisView where
  isFile := false
  length := none
  stillFile := false
  scanned := .error .cancelled
  windows := ⟨false, 0, none, none, false, none⟩
  opened := .error "Access is denied."
  memory _ _ := none
  now := ⟨0, 1760000000⟩
  fault := none

/-- A connection to an address with a bad reputation. -/
def maliciousEndpoint : NetworkEndpoint :=
  { (default : NetworkEndpoint) with pid := 7, remotePort := 443, reputation := "malicious" }

/-- `analysis_mono` for a process without and with a connection. -/
theorem analysis_mono_endpoint :
    let process := { (default : ProcessRecord) with pid := 7 }
    let analysis := Analysis.of [maliciousEndpoint] process blindView
    (analysis.event [maliciousEndpoint] process blindView.now).severity = .medium ∧
      ((Analysis.of [] process blindView).event [] process blindView.now).severity ≤
        (analysis.event [maliciousEndpoint] process blindView.now).severity :=
  ⟨by decide, (analysis_mono blindView.now (List.nil_subset [maliciousEndpoint])).2.1⟩

end Analysis

end OpenGuard.Service
