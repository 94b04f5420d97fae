import OpenGuard.Lib.Window
import OpenGuard.Service.ScanPolicy

/-!
# The findings of a status

The status of a job keeps the first 512 findings that are not clean. Files that the user has
excluded or allowed are among them, so that they can take the room of a detection.

* `findings_take`: what the status of a completed job holds.
* `detections_kept_iff`: no detection is missing just when each of them comes in time.
* `detections_crowded_out`: 512 allowed files and a detection after them.
-/

namespace OpenGuard.Service

open OpenGuard.Lib OpenGuard.Lib.Program OpenGuard.Domain OpenGuard.Storage OpenGuard.Detection

/-- The finding is one that is reported. -/
def isReported (finding : ScanFinding) : Bool := isDetection finding.verdict

/-- What a job has recorded, in the order of the scan. -/
def recordedFindings (ownerSid : String) (before after : ScanWorld) : List ScanFinding :=
  (after.outcomes.drop before.outcomes.length).filterMap (recordedOf ownerSid before.hashAllowlist)

/-- The detections of a job. -/
def detections (ownerSid : String) (before after : ScanWorld) : List ScanFinding :=
  (recordedFindings ownerSid before after).filter isReported

theorem notClean_of_isReported (finding : ScanFinding) (h : isReported finding) :
    notClean finding := by
  unfold isReported isDetection at h
  unfold notClean
  cases hverdict : finding.verdict with
  | clean =>
      rw [hverdict] at h
      exact absurd h (by decide)
  | _ => exact decide_eq_true nofun

section completed

variable {ioText : IoError → String} {ownerSid : String} {roots : List String}
  {world : ScanWorld} {choices : List WorkerChoice}

/-- The calls up to the loop. -/
theorem exec_scanWorker_found {choice : WorkerChoice} {paths : List String}
    {fits : paths.length < 2 ^ 64} (himpersonation : choice.impersonation = none)
    (hcollected : choice.collected = .ok ⟨paths, fits⟩) (hsome : paths ≠ []) :
    exec (workerAnswer ownerSid) (scanWorker ioText roots) world (choice :: choice :: choices) =
      exec (workerAnswer ownerSid)
        (scanTargets ioText (paths.length == 1) paths)
        { world with
          targets := paths
          status := (StatusChange.found paths.length).apply world.status } choices := by
  obtain ⟨fault, impersonation, collected, cancelled, key, sizeBytes, time, scanned⟩ := choice
  cases himpersonation
  cases hcollected
  show exec _ (Program.bind _ (if paths ≠ [] then _ else _)) _ _ = _
  rw [if_pos hsome]
  rfl

theorem obeys_false (keyOf : String → String) (op : ScanOp) (choice : WorkerChoice) :
    Obeys False keyOf (fun _ => True) op choice :=
  ⟨False.elim, by cases op <;> trivial⟩

/-- The rows and the findings of a completed job. -/
theorem findings_take (hfresh : Fresh world)
    (hcompleted : (exec (workerAnswer ownerSid) (scanWorker ioText roots) world
      choices).2.status.state = .completed) :
    let after := (exec (workerAnswer ownerSid) (scanWorker ioText roots) world choices).2
    after.scanResults.rows.map Prod.snd = world.scanResults.rows.map Prod.snd ++
        (recordedFindings ownerSid world after).map (ScanRow.ofFinding ownerSid) ∧
      after.status.findings =
        ((recordedFindings ownerSid world after).filter notClean).take 512 := by
  intro after
  cases hleft : (exec (workerAnswer ownerSid) (scanWorker ioText roots) world choices).1 with
  | call op next =>
      have hsafe := (safe_scanWorker ioText ownerSid roots hfresh.toCreated).exec
        (allowed_of_forall (fun _ _ => trivial) _ _ choices)
      rw [hleft] at hsafe
      cases hcompleted.symm.trans hsafe.1.1
  | ret u =>
      have hsafe := safe_scanWorker_recorded False id (fun _ => True) ownerSid ioText roots hfresh
      have hallowed : Allowed (workerAnswer ownerSid) _ (scanWorker ioText roots) world choices :=
        allowed_of_forall (obeys_false id) _ _ choices
      obtain ⟨found, -, -, hwritten⟩ :=
        (hsafe.post_of_ret hallowed hleft).recorded (.inr hcompleted)
      have hfound : recordedFindings ownerSid world after =
          found.filterMap (recordedOf ownerSid world.hashAllowlist) := by
        unfold recordedFindings
        rw [show after.outcomes = world.outcomes ++ found from hwritten.outcomes,
          List.drop_left]
      rw [hfound]
      exact ⟨hwritten.rows, hwritten.findings⟩

end completed

/-- In a completed job with fewer than 512 detections, the status holds all of them, in the order
of the scan. -/
def KeepsDetections (ownerSid : String) (before after : ScanWorld) : Prop :=
  (detections ownerSid before after).length < 512 →
    (detections ownerSid before after).Sublist after.status.findings

/-- Every detection comes after fewer than 512 files that are not clean. -/
def DetectionsInTime (ownerSid : String) (before after : ScanWorld) : Prop :=
  (detections ownerSid before after).length < 512 →
    InTime notClean isReported 512 (recordedFindings ownerSid before after)

theorem keepsDetections_iff {ownerSid : String} {before after : ScanWorld}
    (h : after.status.findings =
      ((recordedFindings ownerSid before after).filter notClean).take 512) :
    KeepsDetections ownerSid before after ↔ DetectionsInTime ownerSid before after := by
  refine imp_congr_right fun _ => ?_
  have hsub : after.status.findings.Sublist (recordedFindings ownerSid before after) := by
    rw [h]
    exact (List.take_sublist _ _).trans List.filter_sublist
  rw [detections, filter_sublist_iff hsub, h]
  exact filter_take_iff notClean_of_isReported

/-- **Detections that are crowded out**: the status of a completed job holds all detections just
when no detection comes after 512 other files that are not clean, such as excluded and allowed
ones. -/
theorem detections_kept_iff (ioText : IoError → String) (ownerSid : String) (roots : List String)
    (world : ScanWorld) (hfresh : Fresh world) (choices : List WorkerChoice)
    (hcompleted : (exec (workerAnswer ownerSid) (scanWorker ioText roots) world
      choices).2.status.state = .completed) :
    let after := (exec (workerAnswer ownerSid) (scanWorker ioText roots) world choices).2
    after.scanResults.rows.map Prod.snd = world.scanResults.rows.map Prod.snd ++
        (recordedFindings ownerSid world after).map (ScanRow.ofFinding ownerSid) ∧
      (KeepsDetections ownerSid world after ↔ DetectionsInTime ownerSid world after) :=
  ⟨(findings_take hfresh hcompleted).1, keepsDetections_iff (findings_take hfresh hcompleted).2⟩

theorem detections_kept_iff_marked :
    KeepsDetections "S-1" createdWorld (exec (workerAnswer "S-1")
        (scanWorker (fun _ => "") ["C:\\files"]) createdWorld
        (List.replicate 12 scanningChoice)).2 ↔
      DetectionsInTime "S-1" createdWorld (exec (workerAnswer "S-1")
        (scanWorker (fun _ => "") ["C:\\files"]) createdWorld
        (List.replicate 12 scanningChoice)).2 :=
  (detections_kept_iff (fun _ => "") "S-1" ["C:\\files"] createdWorld (fresh_createdWorld ∅)
    (List.replicate 12 scanningChoice) rfl).2

/-! ## A crowded scan -/

/-- The path of a file of the crowded directory. -/
def crowdedPath (n : ℕ) : String := "C:\\files\\" ++ String.ofList (List.replicate (n + 1) 'a')

/-- The first files of the directory. -/
def firstPaths (n : ℕ) : List String := (List.range n).map crowdedPath

/-- A directory with 512 files, and another one that comes last. -/
def crowdedPaths : List String := firstPaths 513

/-- The files have an allowed digest, but for the last one. -/
def crowdedFinding (path : String) : ScanFinding :=
  { markedFinding with
    path
    sha256 := if path = crowdedPath 512 then "cd" else "ab" }

theorem sha256_crowdedFinding (path : String) :
    (crowdedFinding path).sha256 = if path = crowdedPath 512 then "cd" else "ab" := rfl

theorem length_crowdedPath (n : ℕ) : (crowdedPath n).length = 9 + (n + 1) := by
  have hname : (String.ofList (List.replicate (n + 1) 'a')).length = n + 1 := by
    rw [String.length_ofList, List.length_replicate]
  rw [crowdedPath, String.length_append, hname]
  rfl

theorem crowdedPath_ne {n : ℕ} (h : n < 512) : crowdedPath n ≠ crowdedPath 512 := by
  intro heq
  have hlength := congrArg String.length heq
  rw [length_crowdedPath, length_crowdedPath] at hlength
  omega

/-- What is found out about the files. -/
def crowdedPossible (x : String × Outcome) : Prop :=
  x.2 = .excluded ⟨.ok 4, "1"⟩ ∨ x.2 = .scanned (.ok (crowdedFinding x.1))

/-- The owner with the allowed digest. -/
def crowdedWorld : ScanWorld := { createdWorld with hashAllowlist := markedHashes }

theorem length_firstPaths (n : ℕ) : (firstPaths n).length = n := by
  rw [firstPaths, List.length_map, List.length_range]

theorem crowdedPaths_eq : crowdedPaths = firstPaths 512 ++ [crowdedPath 512] := by
  have hsucc : ∀ n, firstPaths (n + 1) = firstPaths n ++ [crowdedPath n] := by
    intro n
    rw [firstPaths, List.range_succ, List.map_append]
    rfl
  rw [crowdedPaths]
  exact hsucc 512

theorem length_crowdedPaths : crowdedPaths.length = 513 := by
  rw [crowdedPaths, length_firstPaths]

theorem fits_crowdedPaths : crowdedPaths.length < 2 ^ 64 := by
  rw [length_crowdedPaths]
  decide

theorem crowdedPaths_ne_nil : crowdedPaths ≠ [] := by
  apply List.ne_nil_of_length_pos
  rw [length_crowdedPaths]
  decide

/-- The call that finds the files. -/
def collectingChoice : WorkerChoice :=
  { scanningChoice with collected := .ok ⟨crowdedPaths, fits_crowdedPaths⟩ }

/-- The world in which the files are known. -/
def foundWorld : ScanWorld :=
  { crowdedWorld with
    targets := crowdedPaths
    status := (StatusChange.found crowdedPaths.length).apply crowdedWorld.status }

theorem foundWorld_findings : foundWorld.status.findings = [] := rfl

theorem exec_found (choices : List WorkerChoice) :
    exec (workerAnswer "S-1") (scanWorker (fun _ => "") ["C:\\files"]) crowdedWorld
        (collectingChoice :: collectingChoice :: choices) =
      exec (workerAnswer "S-1") (scanTargets (fun _ => "") (crowdedPaths.length == 1) crowdedPaths)
        foundWorld choices :=
  exec_scanWorker_found rfl rfl crowdedPaths_ne_nil

/-- The finding can be written. -/
def CanBeWritten (finding : ScanFinding) : Prop :=
  finding.score ≤ 100 ∧ finding.sizeBytes.toNat < 2 ^ 63

theorem recordsOnly_crowded : RecordsOnly crowdedPossible CanBeWritten "S-1" markedHashes := by
  rintro ⟨target, file | error | scanned⟩ finding hpossible hrecorded
  · obtain hfile | hscanned := hpossible
    · cases hfile
      cases hrecorded
      show (0 : UInt8) ≤ 100 ∧ (4 : UInt64).toNat < 2 ^ 63
      decide
    · cases hscanned
  · cases hrecorded
  · obtain hfile | hscanned := hpossible
    · cases hfile
    have hmarked : scanned = crowdedFinding target := by
      injection hscanned with hscanned
      exact Except.ok.inj hscanned
    have hrange : CanBeWritten scanned ∧ (0 : UInt8) ≤ 100 := by
      rw [hmarked]
      show ((90 : UInt8) ≤ 100 ∧ (4 : UInt64).toNat < 2 ^ 63) ∧ _
      decide
    obtain rfl := Option.some.inj hrecorded
    unfold policyFinding
    split_ifs
    · exact hrange.1
    · split
      · exact ⟨hrange.2, hrange.1.2⟩
      · exact hrange.1

theorem exists_crowded_choice (op : ScanOp) (world : ScanWorld)
    (hfit : WritesOnly CanBeWritten op world) :
    ∃ choice, Obeys True (fun _ => scanningChoice.key) crowdedPossible op choice := by
  cases op with
  | scanFile target =>
      refine ⟨{ scanningChoice with scanned := .ok (crowdedFinding target) }, ?_, .inr rfl⟩
      exact fun _ => ⟨rfl, nofun⟩
  | excludedFile target => exact ⟨scanningChoice, fun _ => rfl, .inl rfl⟩
  | recordScan finding => exact ⟨scanningChoice, fun _ => ⟨rfl, hfit⟩, trivial⟩
  | _ => exact ⟨scanningChoice, fun _ => rfl, trivial⟩

/-- The finding that is recorded for a file. -/
def crowdedRecord (path : String) : ScanFinding :=
  policyFinding "S-1" markedHashes (crowdedFinding path)

theorem crowdedRecord_first {path : String} (h : path ∈ firstPaths 512) :
    (crowdedRecord path).verdict = .skipped := by
  obtain ⟨n, hn, rfl⟩ := List.mem_map.mp h
  have hdigest : (crowdedFinding (crowdedPath n)).sha256 = "ab" :=
    (sha256_crowdedFinding _).trans (if_neg (crowdedPath_ne (List.mem_range.mp hn)))
  unfold crowdedRecord policyFinding
  rw [hdigest]
  rfl

theorem crowdedRecord_last : (crowdedRecord (crowdedPath 512)).verdict = .malicious := by
  have hdigest : (crowdedFinding (crowdedPath 512)).sha256 = "cd" := by
    rw [sha256_crowdedFinding, if_pos rfl]
  unfold crowdedRecord policyFinding
  rw [hdigest]
  rfl

/-- No file is excluded, so that each of them has its finding. -/
theorem recordedOf_crowded {x : String × Outcome} {key : String}
    (h : Judged True (fun _ => key) crowdedPossible "S-1" ∅ x) :
    recordedOf "S-1" markedHashes x = some (crowdedRecord x.1) := by
  obtain ⟨target, outcome⟩ := x
  obtain hexcluded | hscanned := h.possible
  · have hrows : excludes ∅ "S-1" key = true := (h.excluded trivial).mp (by rw [hexcluded]; trivial)
    exact absurd hrows Bool.false_ne_true
  · rw [show outcome = _ from hscanned]
    rfl

/-- The scan of some files of the directory. -/
theorem exists_crowded_scan (paths : List String) (singleFile : Bool) (status : ScanJobStatus)
    (hfindings : status.findings = []) : ∃ choices,
    let after := (exec (workerAnswer "S-1") (scanTargets (fun _ => "") singleFile paths)
      { crowdedWorld with targets := paths, status } choices).2
    after.targets = paths ∧ after.status.state = .completed ∧
      recordedFindings "S-1" crowdedWorld after = paths.map crowdedRecord := by
  have hstart : WorkedOff True (fun _ => scanningChoice.key) crowdedPossible "S-1"
      { crowdedWorld with targets := paths } [] { crowdedWorld with targets := paths, status } :=
    ⟨[], rfl, nofun, rfl, rfl, rfl, rfl, rfl, fun _ => rfl, hfindings⟩
  have hsafe : Safe (workerAnswer "S-1") _ _ _ (scanTargets (fun _ => "") singleFile paths) _ :=
    safe_scanTargets_recorded hstart recordsOnly_crowded
  obtain ⟨choices, u, hallowed, hret⟩ := hsafe.exists_run exists_crowded_choice
  obtain ⟨hcompleted, hworked⟩ := hsafe.post_of_ret hallowed hret
  obtain ⟨found, htargets, hjudged, hwritten⟩ := hworked (hcompleted trivial)
  refine ⟨choices, hwritten.targets, hcompleted trivial, ?_⟩
  have hrecorded : found.filterMap (recordedOf "S-1" markedHashes) =
      found.filterMap (some ∘ fun x => crowdedRecord x.1) :=
    List.filterMap_congr fun x hx => recordedOf_crowded (hjudged x hx)
  have hmapped : found.map (fun x => crowdedRecord x.1) = paths.map crowdedRecord := by
    rw [← List.nil_append paths, ← htargets, List.map_map]
    rfl
  rw [recordedFindings, hwritten.outcomes]
  exact hrecorded.trans ((congrFun List.filterMap_eq_map _).trans hmapped)

/-- What is recorded for the directory: 512 files that are skipped, and a detection. -/
theorem crowdedRecords : ∃ skipped last, crowdedPaths.map crowdedRecord = skipped ++ [last] ∧
    skipped.length = 512 ∧ (∀ finding ∈ skipped, finding.verdict = .skipped) ∧
    last.verdict = .malicious := by
  refine ⟨(firstPaths 512).map crowdedRecord, crowdedRecord (crowdedPath 512), ?_, ?_, ?_,
    crowdedRecord_last⟩
  · rw [crowdedPaths_eq, List.map_append]
    rfl
  · rw [List.length_map, length_firstPaths]
  · intro finding hfinding
    obtain ⟨path, hpath, rfl⟩ := List.mem_map.mp hfinding
    exact crowdedRecord_first hpath

section skipped

variable {skipped : List ScanFinding} {last : ScanFinding}
  (hskipped : ∀ finding ∈ skipped, finding.verdict = .skipped) (hlast : last.verdict = .malicious)

include hskipped hlast

/-- Only the last file is a detection. -/
theorem filter_isReported : (skipped ++ [last]).filter isReported = [last] := by
  have hnone : skipped.filter isReported = [] := by
    refine List.filter_eq_nil_iff.mpr fun finding hfinding => ?_
    rw [isReported, hskipped finding hfinding]
    decide
  have hone : isReported last = true := by
    rw [isReported, hlast]
    rfl
  rw [List.filter_append, hnone, List.nil_append, List.filter_cons_of_pos hone, List.filter_nil]

/-- The last file comes too late. -/
theorem not_inTime (hmany : 512 ≤ skipped.length) :
    ¬InTime notClean isReported 512 (skipped ++ [last]) := by
  intro htime
  have hall : skipped.filter notClean = skipped := by
    refine List.filter_eq_self.mpr fun finding hfinding => ?_
    rw [notClean, hskipped finding hfinding]
    rfl
  have hroom := htime skipped last [] rfl (by rw [isReported, hlast]; rfl)
  rw [hall] at hroom
  omega

end skipped

/-- **A detection that is crowded out**: a completed job with a single detection, which its status
does not hold. -/
theorem detections_crowded_out : ∃ choices,
    let after := (exec (workerAnswer "S-1") (scanWorker (fun _ => "") ["C:\\files"]) crowdedWorld
      choices).2
    after.targets = crowdedPaths ∧ after.status.state = .completed ∧
      (detections "S-1" crowdedWorld after).length = 1 ∧
      ¬KeepsDetections "S-1" crowdedWorld after := by
  obtain ⟨choices, hscan⟩ := exists_crowded_scan crowdedPaths (crowdedPaths.length == 1) _
    foundWorld_findings
  refine ⟨collectingChoice :: collectingChoice :: choices, ?_⟩
  obtain ⟨htargets, hcompleted, hrecorded⟩ := (exec_found choices).symm ▸ hscan
  obtain ⟨skipped, last, hsplit, hmany, hskipped, hlast⟩ := crowdedRecords
  have hfew : detections "S-1" crowdedWorld (exec (workerAnswer "S-1")
      (scanWorker (fun _ => "") ["C:\\files"]) crowdedWorld
      (collectingChoice :: collectingChoice :: choices)).2 = [last] := by
    rw [detections, hrecorded, hsplit, filter_isReported hskipped hlast]
  refine ⟨htargets, hcompleted, congrArg List.length hfew, fun hkeeps => ?_⟩
  have hfresh : Fresh crowdedWorld := fresh_createdWorld markedHashes
  have hfindings := (findings_take hfresh hcompleted).2
  have hone : [last].length < 512 := by
    rw [List.length_singleton]
    omega
  have htime := (keepsDetections_iff hfindings).mp hkeeps (hfew ▸ hone)
  rw [hrecorded, hsplit] at htime
  exact not_inTime hskipped hlast hmany.ge htime

end OpenGuard.Service
