import Mathlib.Data.Bool.Basic
import OpenGuard.Detection.FileScan
import OpenGuard.Detection.MoreEvidence

/-!
# References to functions alone

What an assessment counts is capped below the threshold of a malicious file. The inspection of
scripts counts references to functions that inject code once more, and its score is added to the
capped one.

* `OnlyApiReferences`: nothing else counts.
* `score_scanFile`: the score is then that of the assessment, and 35 for a script with such
  references.
* `notMalicious_iff`: **the file is not judged malicious unless both count and the assessment has
  one of a few combinations.**
-/

namespace OpenGuard.Detection

open OpenGuard.Lib OpenGuard.Domain

/-- How references to functions that inject code are reported.
Source: `scan.rs`, `inspect_script` -/
def injectionReason : String := "Process injection API reference"

/-- The text has the name of a function that injects code.
Source: `scan.rs`, `inspect_script` -/
def referencesInjection (content : List UInt8) : Bool :=
  ["virtualalloc", "writeprocessmemory", "createremotethread"].any
    (containsStr (toAsciiLowercase (fromUtf8Lossy content)))

/-- The combinations of capabilities that count at least 50. -/
def severalCapabilities (imports : List String) (strings : String) : Bool :=
  let others := capturesKeyboard imports strings || capturesScreen imports strings ||
    accessesBrowser imports strings
  injectsProcess imports strings && (others || dumpsCredentials imports strings) ||
    dumpsCredentials imports strings && others ||
    accessesBrowser imports strings && capturesScreen imports strings &&
      (capturesKeyboard imports strings || controlsRemotely imports strings)

/-- Nothing counts but the capabilities and the references to functions that inject code: the digest
is not known, the content is not the test file, no rule matches, the name is neither that of an
executable nor deceptive, and the other inspections find nothing. -/
structure OnlyApiReferences (engine : Engine) (scanner : FileScanner) (path : String)
    (reads : FileReads) (sha256 : String) (content : List UInt8) : Prop where
  known : scanner.knownHashes.lookup sha256 = none
  eicar : containsBytes content eicarBytes = false
  rules : engine.yara scanner.rules content = .ok []
  name : deceptiveDoubleExtension path = none
  extension : isExecutablePath path = false
  pe : ∀ isFile fileSize, reads.metadata = .ok (isFile, fileSize) →
    isPe content → (inspectPe engine content fileSize).1 = 0
  script : isScript path content → ∀ reason ∈ (inspectScript content).2, reason = injectionReason

/-! ## The two scores -/

/-- The score of an assessment is high exactly for a few combinations. -/
theorem fifty_le_score_assess_iff (imports : List String) (strings : String) :
    50 ≤ (assess imports strings).score ↔ severalCapabilities imports strings := by
  have hscreen : controlsRemotely imports strings = true → capturesScreen imports strings = true :=
    fun h => by
      simp only [controlsRemotely, Bool.and_eq_true] at h
      exact h.1.1
  rw [score_assess]
  simp only [capabilityRules, rulesScore_cons, rulesScore_nil, severalCapabilities]
  revert hscreen
  generalize capturesKeyboard imports strings = keyboard
  generalize capturesScreen imports strings = screen
  generalize injectsProcess imports strings = injects
  generalize accessesBrowser imports strings = browser
  generalize dumpsCredentials imports strings = dumps
  generalize controlsRemotely imports strings = controls
  revert keyboard screen injects browser dumps controls
  decide +kernel

@[simp]
theorem Signals.addIf_false (signals : Signals) (score : ℕ) (text : String) :
    signals.addIf false score text = signals := rfl

theorem reasons_addIf {signals : Signals} {condition : Bool} {score : ℕ} {text : String} :
    (∀ reason ∈ (signals.addIf condition score text).reasons, reason = injectionReason) ↔
      (∀ reason ∈ signals.reasons, reason = injectionReason) ∧
        (condition → text = injectionReason) := by
  cases condition with
  | false => simp [Signals.addIf]
  | true => simp [Signals.addIf, Signals.add, or_imp, forall_and]

/-- What the inspection of a script counts when it reports nothing else. -/
theorem score_inspectScript {content : List UInt8}
    (h : ∀ reason ∈ (inspectScript content).2, reason = injectionReason) :
    (inspectScript content).1 = if referencesInjection content then 35 else 0 := by
  have hfalse {condition : Bool} {text : String} (hne : text ≠ injectionReason)
      (himp : condition → text = injectionReason) : condition = false :=
    Bool.eq_false_iff.mpr fun hcondition => hne (himp hcondition)
  simp only [inspectScript, scriptSignals, List.foldl_cons, List.foldl_nil, reasons_addIf] at h
  obtain ⟨⟨⟨⟨⟨⟨⟨⟨-, hencoded⟩, hbase⟩, hdynamic⟩, hdownload⟩, -⟩, hmshta⟩, hregsvr⟩, hrundll⟩ := h
  have hscore : (inspectScript content).1 =
      min (Signals.addIf ⟨0, []⟩ (referencesInjection content) 35 injectionReason).score 80 := by
    simp only [inspectScript, scriptSignals, List.foldl_cons, List.foldl_nil,
      hfalse (by decide) hencoded, hfalse (by decide) hbase, hfalse (by decide) hdynamic,
      hfalse (by decide) hdownload, hfalse (by decide) hmshta, hfalse (by decide) hregsvr,
      hfalse (by decide) hrundll, Signals.addIf_false, referencesInjection, injectionReason]
  rw [hscore]
  cases referencesInjection content <;> rfl

/-- The verdict on a score is that it is malicious from 85 on. -/
theorem scanVerdict_eq_malicious_iff {score : UInt8} :
    scanVerdict score = .malicious ↔ 85 ≤ score.toNat := by
  have hle : (85 : UInt8) ≤ score ↔ 85 ≤ score.toNat := UInt8.le_iff_toNat_le
  rw [← hle, scanVerdict]
  split_ifs <;> simp_all

section scan

variable {engine : Engine} {scanner : FileScanner} {context : ScanContext} {path : String}
  {reads : FileReads} {hash : HashOutcome} {content : List UInt8} {finding : ScanFinding}

/-- Nothing is known of the content and the place of the file. -/
theorem addPlace_contentSignals
    (h : OnlyApiReferences engine scanner path reads hash.sha256 content) :
    (contentSignals scanner hash.sha256 content []).addPlace context path = ⟨0, []⟩ := by
  have hcontent : contentSignals scanner hash.sha256 content [] = ⟨0, []⟩ := by
    unfold contentSignals
    rw [h.known, h.eicar]
    rfl
  unfold Signals.addPlace
  rw [hcontent, h.name, h.extension]
  rfl

/-- What the inspections add, one after the other. -/
theorem score_addInspections (signals : Signals) (content : List UInt8) (fileSize : UInt64) :
    (signals.addInspections engine path content fileSize).1.score =
      let inspected := if isPe content then
        saturatingAdd16 signals.score (inspectPe engine content fileSize).1 else signals.score
      let assessed := if isPe content || isScript path content then
        saturatingAdd16 inspected (inspectCapabilities engine.importNames content).score
        else inspected
      if isScript path content then saturatingAdd16 assessed (inspectScript content).1
      else assessed := by
  unfold Signals.addInspections
  cases isPe content <;> cases isScript path content <;> rfl

/-- What the inspections count of a file of which nothing else is known. -/
theorem score_addInspections_of_only {fileSize : UInt64}
    (hmetadata : reads.metadata = .ok (true, fileSize))
    (h : OnlyApiReferences engine scanner path reads hash.sha256 content) :
    (Signals.addInspections engine path ⟨0, []⟩ content fileSize).1.score =
      (if isPe content || isScript path content then
        (inspectCapabilities engine.importNames content).score else 0) +
      if isScript path content && referencesInjection content then 35 else 0 := by
  have hcapped : (inspectCapabilities engine.importNames content).score ≤ 70 :=
    (score_assess _ _).trans_le (min_le_right _ _)
  have hpe : (if isPe content then
      saturatingAdd16 0 (inspectPe engine content fileSize).1 else 0) = 0 := by
    split_ifs with hpe
    · rw [h.pe true fileSize hmetadata hpe]
      rfl
    · rfl
  rw [score_addInspections]
  dsimp only
  rw [hpe]
  generalize (inspectCapabilities engine.importNames content).score = counted at hcapped ⊢
  unfold saturatingAdd16
  cases hscript : isScript path content with
  | false =>
      simp only [Bool.or_false, Bool.false_and, Bool.false_eq_true, if_false]
      split_ifs <;> omega
  | true =>
      simp only [score_inspectScript (h.script hscript), Bool.or_true, Bool.true_and, if_true]
      split_ifs <;> omega

/-- A file of which nothing else counts is judged malicious exactly when both count and together
reach the threshold. -/
theorem malicious_iff (h : scanFile engine scanner context path reads = .ok finding)
    (hread : readHashAndContent engine scanner.maximumBytes reads = .ok (hash, content))
    (honly : OnlyApiReferences engine scanner path reads hash.sha256 content) :
    finding.verdict = .malicious ↔ isScript path content ∧ referencesInjection content ∧
      severalCapabilities (peImports engine.importNames content)
        (toAsciiLowercase (fromUtf8Lossy (content.take stringSampleBytes))) := by
  obtain ⟨fileSize, hash', content', rules, hmetadata, hread', hrules, rfl⟩ := scanFile_eq_ok h
  obtain ⟨rfl, rfl⟩ := Prod.mk.inj (Except.ok.inj (hread.symm.trans hread'))
  obtain rfl := Except.ok.inj (honly.rules.symm.trans hrules)
  have hcapped : (inspectCapabilities engine.importNames content).score ≤ 70 :=
    (score_assess _ _).trans_le (min_le_right _ _)
  have hverdict (signals : Signals × List ThreatCapability) :
      (findingOf context path hash [] signals).verdict = .malicious ↔ 85 ≤ signals.1.score := by
    rw [show (findingOf context path hash [] signals).verdict =
      scanVerdict (UInt8.ofNat (min signals.1.score 100)) from rfl, scanVerdict_eq_malicious_iff,
      toNat_findingScore]
    omega
  rw [← fifty_le_score_assess_iff, ← inspectCapabilities, hverdict,
    addPlace_contentSignals honly, score_addInspections_of_only hmetadata honly]
  generalize (inspectCapabilities engine.importNames content).score = counted at hcapped ⊢
  cases isScript path content with
  | false =>
      simp only [Bool.or_false, Bool.false_and, Bool.false_eq_true, if_false, false_and, iff_false]
      split_ifs <;> omega
  | true =>
      cases referencesInjection content with
      | false =>
          simp only [Bool.or_true, Bool.and_false, Bool.false_eq_true, if_true, if_false, false_and,
            and_false, iff_false]
          omega
      | true =>
          simp only [Bool.or_true, Bool.and_true, if_true, true_and]
          exact ⟨fun h => by omega, fun h => by omega⟩

/-- **A file of which nothing else counts is not judged malicious** unless it is a script that
refers to functions that inject code and its capabilities are one of the combinations that count at
least 50. -/
theorem notMalicious_iff (h : scanFile engine scanner context path reads = .ok finding)
    (hread : readHashAndContent engine scanner.maximumBytes reads = .ok (hash, content))
    (honly : OnlyApiReferences engine scanner path reads hash.sha256 content) :
    finding.verdict ≠ .malicious ↔
      ¬(isScript path content ∧ referencesInjection content ∧
        severalCapabilities (peImports engine.importNames content)
          (toAsciiLowercase (fromUtf8Lossy (content.take stringSampleBytes)))) :=
  not_congr (malicious_iff h hread honly)

end scan

/-! ## Two scripts -/

/-- A rule engine without rules, and no executable is parsed. -/
def bareEngine : Engine := ⟨fun _ => "00", fun _ _ => .ok [], fun _ => none, fun _ => none⟩

/-- No path resolves, and no variable is set. -/
def emptyContext : ScanContext := ⟨fun _ => none, fun _ => none, "unix:0"⟩

/-- A file with the text. -/
def textReads (text : String) : FileReads :=
  ⟨.ok (true, 64), .ok 64, [⟨false, .ok (FileTree.utf8 text)⟩]⟩

/-- A script that writes into another process and captures the screen. -/
def injectingScript : String :=
  "writeprocessmemory virtualallocex createremotethread bitblt getdc"

/-- Nothing but its references counts of the script. -/
theorem onlyApiReferences_text (text : String)
    (heicar : containsBytes (FileTree.utf8 text) eicarBytes = false)
    (hpe : isPe (FileTree.utf8 text) = false)
    (hscript : ∀ reason ∈ (inspectScript (FileTree.utf8 text)).2, reason = injectionReason) :
    OnlyApiReferences bareEngine ⟨[], [], 1024⟩ "a.ps1" (textReads text) "00"
      (FileTree.utf8 text) where
  known := rfl
  eicar := heicar
  rules := rfl
  name := by decide
  extension := by decide
  pe _ _ _ h := absurd h (by simp [hpe])
  script _ := hscript

/-- `notMalicious_iff` for a script with one reference. -/
theorem notMalicious_reference :
    ∃ finding, scanFile bareEngine ⟨[], [], 1024⟩ emptyContext "a.ps1"
        (textReads "virtualalloc") = .ok finding ∧ finding.verdict ≠ .malicious := by
  have hread : readHashAndContent bareEngine (FileScanner.maximumBytes ⟨[], [], 1024⟩)
      (textReads "virtualalloc") = .ok (⟨"00", 64⟩, FileTree.utf8 "virtualalloc") := rfl
  have honly := onlyApiReferences_text "virtualalloc" (by decide) (by decide) (by decide)
  exact ⟨_, rfl, (notMalicious_iff rfl hread honly).mpr (by decide)⟩

/-- The references to one set of functions are counted twice, and the script is judged malicious. -/
theorem injectingScript_malicious :
    OnlyApiReferences bareEngine ⟨[], [], 1024⟩ "a.ps1" (textReads injectingScript) "00"
        (FileTree.utf8 injectingScript) ∧
      ∃ finding, scanFile bareEngine ⟨[], [], 1024⟩ emptyContext "a.ps1"
        (textReads injectingScript) = .ok finding ∧ finding.verdict = .malicious := by
  have hread : readHashAndContent bareEngine (FileScanner.maximumBytes ⟨[], [], 1024⟩)
      (textReads injectingScript) = .ok (⟨"00", 64⟩, FileTree.utf8 injectingScript) := rfl
  have honly := onlyApiReferences_text injectingScript (by decide +kernel) (by decide)
    (by decide +kernel)
  have htext : toAsciiLowercase (fromUtf8Lossy ((FileTree.utf8 injectingScript).take
      stringSampleBytes)) = injectingScript := by decide +kernel
  refine ⟨honly, _, rfl, (malicious_iff rfl hread honly).mpr
    ⟨by decide, by decide +kernel, ?_⟩⟩
  rw [htext]
  decide +kernel

end OpenGuard.Detection
