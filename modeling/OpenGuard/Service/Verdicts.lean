import OpenGuard.Service.RealtimeScan
import OpenGuard.Service.ResponseAction
import OpenGuard.Windows.ScanSignals

/-!
# One verdict for a file

A file is judged when a job scans it, when it has changed, when a response is to quarantine it, and
when its quarantine is verified. All four start from the same scan; the signals of Windows are
applied by the first and the last.

* `scanTargetFinding`, `realtimeFinding`, `quarantineFileFinding`, `verifiedFinding`: the four.
* `one_verdict_iff`: they agree just when the signals leave the score as it is.
-/

namespace OpenGuard.Service

open OpenGuard.Lib OpenGuard.Domain OpenGuard.Detection OpenGuard.Windows

/-! ## The four paths -/

section paths

variable (ioText : IoError → String) (engine : Engine) (scanner : FileScanner)
  (context : ScanContext) (view : WindowsView) (path : String) (reads : FileReads)

/-- What a job finds out about a target.
Source: `main.rs`, `ScanWorker::scan_target` -/
def scanTargetFinding : Except ScanError ScanFinding :=
  (scanFile engine scanner context path reads).map (applyWindowsScanSignals view)

/-- What a thread finds out about a file that has changed.
Source: `main.rs`, `ServiceState::schedule_realtime_scan` -/
def realtimeFinding : Except ScanError ScanFinding := scanFile engine scanner context path reads

/-- What is found out about a file before a response quarantines it.
Source: `main.rs`, `ServiceState::execute_response_inner` -/
def quarantineFileFinding : Except ScanError ScanFinding :=
  scanFile engine scanner context path reads

/-- What is found out about a candidate, if it is a file and no link; the text of the error
otherwise.
Source: `main.rs`, `verify_quarantine_candidate` -/
def verifiedFinding (isRegular : Except IoError Bool) : Except String ScanFinding :=
  match isRegular with
  | .error _ => .error "inspect quarantine candidate"
  | .ok false => .error "only regular non-symbolic-link files can be quarantined"
  | .ok true =>
      ((scanFile engine scanner context path reads).map (applyWindowsScanSignals view)).mapError
        fun error => "rescan quarantine candidate: " ++ error.display ioText

/-- Source: `main.rs`, `verify_quarantine_candidate` -/
def verifyQuarantineCandidate (impersonation : Option String) (isRegular : Except IoError Bool)
    (requested : ScanFinding) : Except ApiError ScanFinding :=
  if !needsReview requested.verdict || requested.sha256 = "" then
    .error ⟨.invalidRequest,
      "Only a suspicious or malicious hash-identified finding can be quarantined", false⟩
  else
    let verified : Except String ScanFinding :=
      match impersonation with
      | some error => .error error
      | none => verifiedFinding ioText engine scanner context view requested.path reads isRegular
    match verified with
    | .error error => .error ⟨.conflict, "Verify quarantine candidate: " ++ error, false⟩
    | .ok verified =>
        if verified.sha256 ≠ requested.sha256 || !needsReview verified.verdict then
          .error ⟨.conflict,
            "The file no longer matches the suspicious scan finding; scan it again", false⟩
        else .ok verified

end paths

/-! ## Agreement -/

/-- The verdict and the score of a finding, if there is one. -/
def judgement {ε : Type} (finding : Except ε ScanFinding) : Option (ScanVerdict × UInt8) :=
  finding.toOption.map fun finding => (finding.verdict, finding.score)

/-- The four paths judge a regular file alike; and what a job reports is reported when it changes,
and accepted by the response. -/
structure OneVerdict (setup : ResponseSetup) (engine : Engine) (scanner : FileScanner)
    (context : ScanContext) (view : WindowsView) (path : String) (reads : FileReads) : Prop where
  realtime : judgement (realtimeFinding engine scanner context path reads) =
    judgement (scanTargetFinding engine scanner context view path reads)
  gate : judgement (quarantineFileFinding engine scanner context path reads) =
    judgement (scanTargetFinding engine scanner context view path reads)
  verify : judgement (verifiedFinding setup.ioText engine scanner context view path reads
      (.ok true)) =
    judgement (scanTargetFinding engine scanner context view path reads)
  reported : ∀ finding, scanTargetFinding engine scanner context view path reads = .ok finding →
    needsReview finding.verdict →
      (∃ found, realtimeFinding engine scanner context path reads = .ok found ∧
        needsReview found.verdict) ∧
      ∃ found, checkScanned setup (quarantineFileFinding engine scanner context path reads) =
        .ok found

/-- The signals leave a score as it is, by the signature that the scan has left open or not, the
score of the scan, what Windows says of the signature, and the opinion of the provider. -/
def SignalsSilent (signature : SignatureStatus) (score : ℕ) (trust : SignatureStatus)
    (amsi : String) : Prop :=
  if amsi = "detected" then score = 100
  else if amsi = "blocked_by_admin" then
    75 ≤ score ∧
      (signature = .unknown →
        (trust = .trusted → score = 75) ∧ (trust = .untrusted → score = 100))
  else signature = .unknown → trust ≠ .trusted ∧ (trust = .untrusted → score = 100)

section agreement

variable {setup : ResponseSetup} {engine : Engine} {scanner : FileScanner}
  {context : ScanContext} {view : WindowsView} {path : String} {reads : FileReads}

theorem score_kept_iff {signature trust : SignatureStatus} {score : ℕ} {amsi : String}
    (hle : score ≤ 100) (hopen : signature = .unknown → 8 ≤ score) :
    opinionScore amsi (signedScore signature trust score) = score ↔
      SignalsSilent signature score trust amsi := by
  unfold opinionScore SignalsSilent
  split_ifs with hdetected hblocked
  · exact eq_comm
  · unfold signedScore
    split_ifs with hsignature
    · have hscore := hopen hsignature
      cases trust <;> simp [hsignature] <;> omega
    · simp [hsignature]
  · unfold signedScore
    split_ifs with hsignature
    · have hscore := hopen hsignature
      cases trust <;> simp [hsignature] <;> omega
    · simp [hsignature]

/-- The verdict and the score are kept when the score is. -/
theorem judgement_kept_iff {finding : ScanFinding} (h : Detection.Judged path finding) :
    (finding.verdict, finding.score) =
        ((applyWindowsScanSignals view finding).verdict,
          (applyWindowsScanSignals view finding).score) ↔
      SignalsSilent finding.signature finding.score.toNat (signatureStatus view finding.path)
        (amsiStatus view) := by
  have hopen : finding.signature = .unknown → 8 ≤ finding.score.toNat := by
    intro hunknown
    refine h.executable ?_
    by_contra hnot
    rw [h.signature, if_neg hnot] at hunknown
    cases hunknown
  rw [← score_kept_iff h.score hopen, ← toNat_applyWindowsScanSignals h.score,
    verdict_applyWindowsScanSignals, h.verdict, Prod.mk.injEq, UInt8.toNat_inj]
  constructor
  · exact fun hboth => hboth.2.symm
  · intro hscore
    rw [hscore]
    exact ⟨rfl, rfl⟩

/-- **One verdict for a file**: the four paths agree just when the file cannot be scanned, or the
signals of Windows leave the score as it is. -/
theorem one_verdict_iff (setup : ResponseSetup) (engine : Engine) (scanner : FileScanner)
    (context : ScanContext) (view : WindowsView) (path : String) (reads : FileReads) :
    OneVerdict setup engine scanner context view path reads ↔
      ∀ finding, scanFile engine scanner context path reads = .ok finding →
        SignalsSilent finding.signature finding.score.toNat (signatureStatus view finding.path)
          (amsiStatus view) := by
  constructor
  · intro h finding hfinding
    have hsame := h.realtime
    rw [realtimeFinding, scanTargetFinding, hfinding] at hsame
    exact (judgement_kept_iff (scanFile_ok hfinding)).mp (Option.some.inj hsame)
  · intro hsilent
    have hsame : judgement (scanFile engine scanner context path reads) =
        judgement (scanTargetFinding engine scanner context view path reads) := by
      rw [scanTargetFinding]
      cases hfinding : scanFile engine scanner context path reads with
      | error error => rfl
      | ok finding =>
          exact congrArg some
            ((judgement_kept_iff (scanFile_ok hfinding)).mpr (hsilent finding hfinding))
    refine ⟨hsame, hsame, ?_, fun finding hfinding hreview => ?_⟩
    · rw [verifiedFinding, scanTargetFinding]
      cases scanFile engine scanner context path reads <;> rfl
    · rw [hfinding] at hsame
      cases hfound : scanFile engine scanner context path reads with
      | error error =>
          rw [hfound] at hsame
          cases hsame
      | ok found =>
          rw [hfound] at hsame
          have hverdict : found.verdict = finding.verdict :=
            congrArg Prod.fst (Option.some.inj hsame)
          have hreview : needsReview found.verdict := by rwa [hverdict]
          refine ⟨⟨found, hfound, hreview⟩, found, ?_⟩
          rw [quarantineFileFinding, hfound, checkScanned, if_pos]
          simpa [needsReview] using hreview

end agreement

/-! ## A file with a signature that is not trusted -/

/-- A rule engine without rules. -/
def plainEngine : Engine where
  sha256 _ := "00"
  yara _ _ := .ok []
  importNames _ := none
  highEntropy _ := none

/-- A system with a temporary directory. -/
def temporaryContext : ScanContext where
  canonicalize _ := none
  envVar name := if name = "TEMP" then some "C:\\Temp" else none
  timestamp := "unix:0"

/-- Three bytes, which are no program. -/
def smallReads : FileReads := ⟨.ok (true, 3), .ok 3, [⟨false, .ok [1, 2, 3]⟩]⟩

/-- The signature is not valid, and the provider detects nothing. -/
def untrustedView : WindowsView := ⟨true, 0x80096010, some 3, some 3, true, some 1⟩

/-- A job reports an executable in the temporary directory, whose signature is not trusted; in real
time it is not reported, and the response does not accept it. -/
theorem untrusted_not_reported :
    ¬OneVerdict sampleSetup plainEngine ⟨[], [], 1024⟩ temporaryContext untrustedView
        "C:\\Temp\\a.exe" smallReads ∧
      judgement (scanTargetFinding plainEngine ⟨[], [], 1024⟩ temporaryContext untrustedView
        "C:\\Temp\\a.exe" smallReads) = some (.suspicious, 60) ∧
      judgement (realtimeFinding plainEngine ⟨[], [], 1024⟩ temporaryContext
        "C:\\Temp\\a.exe" smallReads) = some (.lowRisk, 38) := by
  have hjob : judgement (scanTargetFinding plainEngine ⟨[], [], 1024⟩ temporaryContext
      untrustedView "C:\\Temp\\a.exe" smallReads) = some (.suspicious, 60) := by
    decide +kernel
  have hrealtime : judgement (realtimeFinding plainEngine ⟨[], [], 1024⟩ temporaryContext
      "C:\\Temp\\a.exe" smallReads) = some (.lowRisk, 38) := by
    decide +kernel
  refine ⟨fun h => ?_, hjob, hrealtime⟩
  have hsame := h.realtime
  rw [hjob, hrealtime] at hsame
  cases hsame

end OpenGuard.Service
