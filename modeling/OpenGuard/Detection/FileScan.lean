import OpenGuard.Detection.Capabilities
import OpenGuard.Detection.Scan
import OpenGuard.Updates.Manifest

/-!
# The scan of a file

A file is read and hashed in one pass, and judged by what is known of its digest, its content and
its place. The digest, the rule engine, the parser of executables and the measure of entropy are
left open.

* `readHashAndContent`, `scanFile`: the pass and the judgement.
* `scanFile_ok`: what every finding satisfies.
-/

namespace OpenGuard.Detection

open OpenGuard.Lib OpenGuard.Domain OpenGuard.Updates

/-- A value in the metadata of a rule. -/
inductive MetaValue where
  | string (value : String)
  | other
  deriving DecidableEq

/-- A rule that matches. -/
structure MatchingRule where
  identifier : String
  metadata : List (String × MetaValue)
  deriving DecidableEq

/-- What the scan calls: the digest, in hexadecimal; the rule engine; the names that an executable
imports; and the entropy of a sample, as a text if it is at least 7.65. -/
structure Engine where
  sha256 : List UInt8 → String
  yara : List String → List UInt8 → Except String (List MatchingRule)
  importNames : List UInt8 → Option (List String)
  highEntropy : List UInt8 → Option String

/-! ## Reading -/

/-- One turn of the loop that reads: whether the scan was cancelled before, and what is read. -/
structure ReadTurn where
  cancelled : Bool
  read : Except IoError (List UInt8)

/-- What the file system says of a file: its metadata, what its handle says of its size, and what
is read of it. -/
structure FileReads where
  metadata : Except IoError (Bool × UInt64)
  opened : Except IoError UInt64
  turns : List ReadTurn

/-- Source: `scan.rs`, `HashOutcome` -/
structure HashOutcome where
  sha256 : String
  sizeBytes : UInt64
  deriving DecidableEq

/-- Source: `scan.rs`, `CONTENT_INSPECTION_BYTES` -/
def contentInspectionBytes : ℕ := 16 * 1024 * 1024

/-- The loop that reads: what was hashed, and the first part of it. It ends when nothing is read.
Source: `scan.rs`, `read_hash_and_content` -/
def readTurns : List ReadTurn → List UInt8 → List UInt8 →
    Except ScanError (List UInt8 × List UInt8)
  | [], hashed, content => .ok (hashed, content)
  | turn :: turns, hashed, content =>
      if turn.cancelled then .error .cancelled
      else
        match turn.read with
        | .error error => .error (.io error)
        | .ok [] => .ok (hashed, content)
        | .ok bytes =>
            readTurns turns (hashed ++ bytes)
              (content ++ bytes.take (contentInspectionBytes - content.length))

/-- Source: `scan.rs`, `read_hash_and_content` -/
def readHashAndContent (engine : Engine) (maximumBytes : ℕ) (reads : FileReads) :
    Except ScanError (HashOutcome × List UInt8) :=
  match reads.opened with
  | .error error => .error (.io error)
  | .ok sizeBytes =>
      if maximumBytes < sizeBytes.toNat then .error (.tooLarge maximumBytes)
      else
        (readTurns reads.turns [] []).map fun (hashed, content) =>
          (⟨engine.sha256 hashed, sizeBytes⟩, content)

/-! ## What the place of a file says -/

/-- Source: `scan.rs`, `EXECUTABLE_EXTENSIONS` -/
def executableExtensions : List String := ["exe", "dll", "sys", "scr", "com", "cpl", "msi"]

/-- Source: `scan.rs`, `SCRIPT_EXTENSIONS` -/
def scriptExtensions : List String :=
  ["ps1", "psm1", "bat", "cmd", "js", "jse", "vbs", "vbe", "hta"]

/-- Source: `scan.rs`, `LURE_EXTENSIONS` -/
def lureExtensions : List String :=
  ["doc", "docx", "gif", "jpg", "jpeg", "pdf", "png", "txt", "xls", "xlsx"]

/-- `Path::file_name` -/
def fileName (path : String) : Option String :=
  let parts := (path.toList.splitOnP isSeparator).filter fun part => part ≠ [] && part ≠ ['.']
  match parts.getLast? with
  | some ['.', '.'] => none
  | last => last.map String.ofList

/-- Source: `scan.rs`, `extension` -/
def extension (path : String) : String :=
  toAsciiLowercase (((fileName path).bind fileExtension).getD "")

/-- Source: `scan.rs`, `deceptive_double_extension` -/
def deceptiveDoubleExtension (path : String) : Option String := do
  let name := toAsciiLowercase (← fileName path)
  let parts := (name.toList.splitOnP (· == '.')).map String.ofList
  if parts.length < 3 then none
  else
    let lure := parts.getD (parts.length - 2) ""
    let executable := parts.getD (parts.length - 1) ""
    if lureExtensions.contains lure && executableExtensions.contains executable then
      some ("." ++ lure ++ "." ++ executable)
    else none

/-- What the scan asks the system for: the canonical paths of the files that exist, the variables
of the environment, and the time. -/
structure ScanContext where
  canonicalize : String → Option String
  envVar : String → Option String
  timestamp : String

/-- The path of a directory in a variable, to compare with.
Source: `scan.rs`, `location_risk` -/
def lowerRoot (value : String) : String :=
  toAsciiLowercase (trimEndMatches '\\' (replaceChar value '/' '\\'))

/-- Source: `scan.rs`, `location_risk` -/
def locationRisk (context : ScanContext) (path : String) : ℕ × Option String :=
  let lowered := toAsciiLowercase (replaceChar ((context.canonicalize path).getD path) '/' '\\')
  let isBelow := fun value =>
    let root := lowerRoot value
    root ≠ "" && (lowered = root || startsWith lowered (root ++ "\\"))
  if (["TEMP", "TMP"].filterMap context.envVar).any isBelow then
    (30, some "Executable is stored in a temporary directory")
  else
    match context.envVar "USERPROFILE" with
    | some value =>
        if startsWith lowered (lowerRoot value ++ "\\downloads\\") then
          (18, some "Executable is stored in Downloads")
        else (0, none)
    | none => (0, none)

/-! ## What the content of a file says -/

/-- Source: `scan.rs`, `contains_bytes` -/
def containsBytes (haystack needle : List UInt8) : Bool :=
  !needle.isEmpty && haystack.tails.any needle.isPrefixOf

/-- Source: `scan.rs`, `eicar_bytes` -/
def eicarBytes : List UInt8 :=
  FileTree.utf8 ("X5O!P%@AP[4\\PZX54(P^)7CC)7\x7d$" ++ "EICAR-STANDARD-ANTIVIRUS-TEST-FILE!$H+H*")

/-- A signal of a script: any of the texts, what it counts for, and how it is reported.
Source: `scan.rs`, `inspect_script` -/
def scriptSignals : List (List String × ℕ × String) :=
  [(["-enc", "-encodedcommand"], 28, "Encoded command execution"),
    (["frombase64string("], 18, "Base64 payload decoding"),
    (["invoke-expression", "iex ", "iex("], 20, "Dynamic expression execution"),
    (["downloadstring("], 28, "Downloads executable script content"),
    (["virtualalloc", "writeprocessmemory", "createremotethread"], 35,
      "Process injection API reference"),
    (["mshta", "mshta.exe"], 16, "HTML application host execution")]

/-- A score with its reasons. -/
structure Signals where
  score : ℕ
  reasons : List String
  deriving DecidableEq, Inhabited

/-- More is counted, for more reasons. -/
def Signals.add (signals : Signals) (score : ℕ) (reasons : List String) : Signals :=
  ⟨saturatingAdd16 signals.score score, signals.reasons ++ reasons⟩

/-- One more reason, if it is there. -/
def Signals.addIf (signals : Signals) (condition : Bool) (score : ℕ) (reason : String) : Signals :=
  if condition then signals.add score [reason] else signals

/-- Source: `scan.rs`, `inspect_script` -/
def inspectScript (content : List UInt8) : ℕ × List String :=
  let text := toAsciiLowercase (fromUtf8Lossy content)
  let count := fun (signals : Signals) (signal : List String × ℕ × String) =>
    signals.addIf (signal.1.any (containsStr text)) signal.2.1 signal.2.2
  let signals := scriptSignals.foldl count ⟨0, []⟩
  let signals := signals.addIf
    (containsStr text "regsvr32" && (containsStr text "/i:" || containsStr text "/u")) 18
    "Regsvr32 scriptlet-style execution"
  let signals := signals.addIf
    (containsStr text "rundll32" && (containsStr text "javascript:" || containsStr text "http")) 22
    "Rundll32 remote/script execution"
  (min signals.score 80, signals.reasons)

/-- Source: `scan.rs`, `looks_like_script` -/
def looksLikeScript (content : List UInt8) : Bool :=
  let chars := (fromUtf8Lossy (content.take 256)).toList.dropWhile isWhitespace
  let start := toAsciiLowercase (String.ofList chars)
  startsWith start "#!" || startsWith start "<script" || startsWith start "<?xml"

/-- `from_le_bytes` -/
def fromLe (bytes : List UInt8) : ℕ := bytes.foldr (fun b n => b.toNat + 256 * n) 0

/-- So many bytes at an offset. -/
def bytesAt (content : List UInt8) (offset count : ℕ) : List UInt8 :=
  (content.drop offset).take count

/-- Source: `scan.rs`, `inspect_pe` -/
def inspectPe (engine : Engine) (content : List UInt8) (fileSize : UInt64) : ℕ × List String :=
  if content.length < 64 then (25, ["Truncated DOS/PE header"])
  else
    let peOffset := fromLe (bytesAt content 0x3c 4)
    if peOffset < 64 || content.length < peOffset + 24 ||
        bytesAt content peOffset 4 ≠ [0x50, 0x45, 0, 0] then
      (25, ["Malformed PE header"])
    else
      let sectionCount := fromLe (bytesAt content (peOffset + 6) 2)
      let timestamp := fromLe (bytesAt content (peOffset + 8) 4)
      let signals : Signals := ⟨0, []⟩
      let signals := signals.addIf (sectionCount = 0 || 32 < sectionCount) 20
        ("Unusual PE section count (" ++ toString sectionCount ++ ")")
      let signals := signals.addIf (timestamp = 0) 5 "PE build timestamp is zero"
      let sample := content.take (2 * 1024 * 1024)
      let signals :=
        match engine.highEntropy sample with
        | some entropy =>
            signals.addIf (4096 ≤ sample.length) 18
              ("High file entropy may indicate packing or encryption (" ++ entropy ++ ")")
        | none => signals
      let signals := signals.addIf (fileSize < 512) 10 "PE file is unusually small"
      (signals.score, signals.reasons)

/-! ## The judgement -/

/-- Source: `scan.rs`, `verdict`; `windows/lib.rs`, `scan_verdict` -/
def scanVerdict (score : UInt8) : ScanVerdict :=
  if 85 ≤ score then .malicious
  else if 45 ≤ score then .suspicious
  else if 15 ≤ score then .lowRisk
  else .clean

/-- The last text that the metadata of a rule has for a key, or a default.
Source: `scan.rs`, `FileScanner::scan_file` -/
def metaText (key default : String) (metadata : List (String × MetaValue)) : String :=
  metadata.foldl (fun text entry => match entry with
    | (key', .string value) => if key' = key then value else text
    | _ => text) default

/-- What the severity of a rule makes of the score.
Source: `scan.rs`, `FileScanner::scan_file` -/
def severityScore (severity : String) (score : ℕ) : ℕ :=
  if severity = "malicious" ∨ severity = "critical" then 100
  else if severity = "high" ∨ severity = "suspicious" then max score 65
  else if severity = "medium" ∨ severity = "low" then max score 25
  else score

/-- A rule that matches counts.
Source: `scan.rs`, `FileScanner::scan_file` -/
def Signals.addRule (signals : Signals) (rule : MatchingRule) : Signals where
  score := severityScore
    (toAsciiLowercase (metaText "severity" "suspicious" rule.metadata)) signals.score
  reasons := signals.reasons ++
    ["YARA-X " ++ rule.identifier ++ ": " ++
      metaText "description" "Local content rule matched" rule.metadata]

/-- The score is the highest, for a reason.
Source: `scan.rs`, `FileScanner::scan_file` -/
def Signals.certain (signals : Signals) (reason : String) : Signals :=
  ⟨100, signals.reasons ++ [reason]⟩

/-- Every text once, where it is first.
Source: `scan.rs`, `deduplicate` -/
def deduplicate (values : List String) : List String :=
  values.foldl (fun kept value => if value ∈ kept then kept else kept ++ [value]) []

/-- What is reported of a capability.
Source: `scan.rs`, `FileScanner::scan_file` -/
def capabilityReason (capability : ThreatCapability) : String :=
  "Capability " ++ capability.category ++ " (" ++ capability.mitreTechnique ++ ", confidence " ++
    toString capability.confidence.toNat ++ "%)"

section judge

variable (engine : Engine) (scanner : FileScanner) (context : ScanContext) (path : String)

/-- The extension is one of those of executables. -/
def isExecutablePath : Bool := executableExtensions.contains (extension path)

/-- What the digest, the content and the matching rules say.
Source: `scan.rs`, `FileScanner::scan_file` -/
def contentSignals (sha256 : String) (content : List UInt8) (rules : List MatchingRule) :
    Signals :=
  let signals : Signals := ⟨0, []⟩
  let signals :=
    match scanner.knownHashes.lookup sha256 with
    | some name => signals.certain ("Known signature match: " ++ name)
    | none => signals
  let signals :=
    if containsBytes content eicarBytes then
      signals.certain "EICAR antivirus test signature detected"
    else signals
  rules.foldl Signals.addRule signals

/-- What the name and the place of the file add.
Source: `scan.rs`, `FileScanner::scan_file` -/
def Signals.addPlace (signals : Signals) : Signals :=
  let signals :=
    match deceptiveDoubleExtension path with
    | some double =>
        signals.add 25 ["Executable uses a deceptive double extension (" ++ double ++ ")"]
    | none => signals
  if isExecutablePath path then
    let (locationScore, locationReason) := locationRisk context path
    (signals.add 8 ["Authenticode trust has not yet been evaluated"]).add locationScore
      locationReason.toList
  else signals

/-- The file is an executable by its first bytes. -/
def isPe (content : List UInt8) : Bool := [0x4D, 0x5A].isPrefixOf content

/-- The file is a script by its name or its first bytes. -/
def isScript (content : List UInt8) : Bool :=
  scriptExtensions.contains (extension path) || looksLikeScript content

/-- What the inspections of executables and scripts add.
Source: `scan.rs`, `FileScanner::scan_file` -/
def Signals.addInspections (signals : Signals) (content : List UInt8) (fileSize : UInt64) :
    Signals × List ThreatCapability :=
  let signals :=
    if isPe content then
      signals.add (inspectPe engine content fileSize).1 (inspectPe engine content fileSize).2
    else signals
  let (signals, capabilities) :=
    if isPe content || isScript path content then
      let assessment := inspectCapabilities engine.importNames content
      (signals.add assessment.score (assessment.capabilities.map capabilityReason),
        assessment.capabilities)
    else (signals, [])
  if isScript path content then
    (signals.add (inspectScript content).1 (inspectScript content).2, capabilities)
  else (signals, capabilities)

/-- The finding that is made of the signals.
Source: `scan.rs`, `FileScanner::scan_file` -/
def findingOf (hash : HashOutcome) (rules : List MatchingRule)
    (signals : Signals × List ThreatCapability) : ScanFinding :=
  let score := UInt8.ofNat (min signals.1.score 100)
  { path := (context.canonicalize path).getD path
    verdict := scanVerdict score
    score
    reasons := deduplicate
      (if signals.1.reasons = [] then ["No configured local detection signal matched"]
      else signals.1.reasons)
    sha256 := hash.sha256
    sizeBytes := hash.sizeBytes
    signature := if isExecutablePath path then .unknown else .notApplicable
    amsiResult := "not_scanned"
    yaraStatus := "active"
    yaraMatches := rules.map (·.identifier)
    capabilities := signals.2
    scannedAt := context.timestamp }

/-- Source: `scan.rs`, `FileScanner::scan_file` -/
def scanFile (reads : FileReads) : Except ScanError ScanFinding :=
  match reads.metadata with
  | .error error => .error (.io error)
  | .ok (isFile, fileSize) =>
      if !isFile then .error (.notAFile path)
      else if scanner.maximumBytes < fileSize.toNat then .error (.tooLarge scanner.maximumBytes)
      else
        match readHashAndContent engine scanner.maximumBytes reads with
        | .error error => .error error
        | .ok (hash, content) =>
            match engine.yara scanner.rules content with
            | .error error => .error (.ruleScan error)
            | .ok rules =>
                .ok (findingOf context path hash rules
                  (((contentSignals scanner hash.sha256 content rules).addPlace context
                    path).addInspections engine path content fileSize))

end judge

/-! ## What every finding satisfies -/

/-- What a finding says of the file at a path: the verdict is that of the score, and the signature
of an executable, which counts something, is left to the caller. -/
structure Judged (path : String) (finding : ScanFinding) : Prop where
  verdict : finding.verdict = scanVerdict finding.score
  score : finding.score.toNat ≤ 100
  signature : finding.signature = if isExecutablePath path then .unknown else .notApplicable
  executable : isExecutablePath path → 8 ≤ finding.score.toNat

section judged

variable {engine : Engine} {scanner : FileScanner} {context : ScanContext} {path : String}
  {signals : Signals} {n : ℕ}

/-- What is counted stays counted. -/
theorem Signals.le_score_add (h : n ≤ signals.score) (hn : n ≤ 65535) (score : ℕ)
    (reasons : List String) : n ≤ (signals.add score reasons).score :=
  le_min (h.trans (Nat.le_add_right _ _)) hn

theorem Signals.le_score_addInspections (h : n ≤ signals.score) (hn : n ≤ 65535)
    (content : List UInt8) (fileSize : UInt64) :
    n ≤ (signals.addInspections engine path content fileSize).1.score := by
  unfold Signals.addInspections
  have hpe : n ≤ (if isPe content then
      signals.add (inspectPe engine content fileSize).1 (inspectPe engine content fileSize).2
      else signals).score := by
    split_ifs
    · exact Signals.le_score_add h hn _ _
    · exact h
  generalize (if isPe content then
      signals.add (inspectPe engine content fileSize).1 (inspectPe engine content fileSize).2
      else signals) = inspected at hpe ⊢
  simp only
  split_ifs
  · exact Signals.le_score_add (Signals.le_score_add hpe hn _ _) hn _ _
  · exact Signals.le_score_add hpe hn _ _
  · exact Signals.le_score_add hpe hn _ _
  · exact hpe

theorem Signals.le_score_addPlace (h : isExecutablePath path) :
    8 ≤ (signals.addPlace context path).score := by
  unfold Signals.addPlace
  simp only [h, if_true]
  refine Signals.le_score_add ?_ (by decide) _ _
  exact le_min (Nat.le_add_left 8 _) (by decide)

theorem toNat_findingScore (n : ℕ) : (UInt8.ofNat (min n 100)).toNat = min n 100 := by
  rw [UInt8.toNat_ofNat_of_lt']
  exact Nat.lt_of_le_of_lt (Nat.min_le_right n 100) (by decide)

theorem judged_findingOf (hash : HashOutcome) (rules : List MatchingRule)
    {signals : Signals × List ThreatCapability}
    (h : isExecutablePath path → 8 ≤ signals.1.score) :
    Judged path (findingOf context path hash rules signals) where
  verdict := by simp only [findingOf]
  score := by
    simp only [findingOf, toNat_findingScore]
    exact Nat.min_le_right _ _
  signature := by simp only [findingOf]
  executable hexecutable := by
    simp only [findingOf, toNat_findingScore]
    exact le_min (h hexecutable) (by decide)

/-- What a finding was made of: the file was read, the rules were matched against its content, and
every signal was counted. -/
theorem scanFile_eq_ok {reads : FileReads} {finding : ScanFinding}
    (h : scanFile engine scanner context path reads = .ok finding) :
    ∃ fileSize hash content rules, reads.metadata = .ok (true, fileSize) ∧
      readHashAndContent engine scanner.maximumBytes reads = .ok (hash, content) ∧
      engine.yara scanner.rules content = .ok rules ∧
      finding = findingOf context path hash rules
        (((contentSignals scanner hash.sha256 content rules).addPlace context
          path).addInspections engine path content fileSize) := by
  unfold scanFile at h
  split at h
  · cases h
  · next isFile fileSize hmetadata =>
      split_ifs at h with hfile
      split at h
      · cases h
      · next hash content hread =>
          split at h
          · cases h
          · next rules hrules =>
              rw [Bool.not_eq_true, Bool.not_eq_false'] at hfile
              rw [hfile] at hmetadata
              exact ⟨fileSize, hash, content, rules, hmetadata, hread, hrules,
                (Except.ok.inj h).symm⟩

/-- **Every finding** has the verdict of its score, which is at most 100. -/
theorem scanFile_ok {reads : FileReads} {finding : ScanFinding}
    (h : scanFile engine scanner context path reads = .ok finding) : Judged path finding := by
  obtain ⟨fileSize, hash, content, rules, -, -, -, rfl⟩ := scanFile_eq_ok h
  exact judged_findingOf hash rules fun hexecutable =>
    Signals.le_score_addInspections (Signals.le_score_addPlace hexecutable) (by decide) content
      fileSize

end judged

end OpenGuard.Detection
