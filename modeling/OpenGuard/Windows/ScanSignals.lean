import OpenGuard.Detection.FileScan

/-!
# Windows signals on a finding

Windows says whether an executable has a trusted signature, and the installed antimalware provider
is asked for its opinion of the content.

* `signatureStatus`, `amsiStatus`: what they say.
* `applyWindowsScanSignals`: what becomes of the finding.
-/

namespace OpenGuard.Windows

open OpenGuard.Lib OpenGuard.Domain OpenGuard.Detection

/-- What Windows says of the path of a finding: whether a file is there, the status of
`WinVerifyTrust`, the size of the file, how many bytes can be read of it, whether the provider can
be asked, and its result. -/
structure WindowsView where
  isFile : Bool
  trust : UInt32
  size : Option UInt64
  contentLength : Option ℕ
  amsiReady : Bool
  amsiResult : Option ℤ

/-- Source: `windows/lib.rs`, `AMSI_MAXIMUM_BYTES` -/
def amsiMaximumBytes : UInt64 := 16 * 1024 * 1024

/-- `AMSI_RESULT_DETECTED` -/
def amsiResultDetected : ℤ := 32768

/-- `AMSI_RESULT_BLOCKED_BY_ADMIN_START` -/
def amsiBlockedStart : ℤ := 16384

/-- `AMSI_RESULT_BLOCKED_BY_ADMIN_END` -/
def amsiBlockedEnd : ℤ := 20479

section signals

variable (view : WindowsView)

/-- Source: `windows/lib.rs`, `signature_status` -/
def signatureStatus (path : String) : SignatureStatus :=
  if !isExecutablePath path then .notApplicable
  else if !view.isFile then .unknown
  else if view.trust = 0 then .trusted
  else if view.trust = 0x800B0001 ∨ view.trust = 0x800B0003 ∨ view.trust = 0x800B0100 then .unknown
  else .untrusted

/-- Source: `windows/lib.rs`, `AmsiScanner::scan` -/
def amsiScan (length : ℕ) : String :=
  if 2 ^ 32 ≤ length then "skipped_size_limit"
  else
    match view.amsiResult with
    | some result =>
        if amsiResultDetected ≤ result then "detected"
        else if amsiBlockedStart ≤ result ∧ result ≤ amsiBlockedEnd then "blocked_by_admin"
        else if result = 0 then "clean"
        else "not_detected"
    | none => "scan_error"

/-- Source: `windows/lib.rs`, `apply_windows_scan_signals` -/
def amsiStatus : String :=
  if view.size.any (amsiMaximumBytes < ·) then "skipped_size_limit"
  else
    match view.contentLength with
    | some length => if view.amsiReady then amsiScan view length else "unavailable"
    | none => "read_error"

/-- The reason that a finding has as long as its signature is not known.
Source: `windows/lib.rs`, `apply_windows_scan_signals` -/
def unevaluatedReason : String := "Authenticode trust has not yet been evaluated"

/-- What the signature makes of a finding.
Source: `windows/lib.rs`, `apply_windows_scan_signals` -/
def applySignature (finding : ScanFinding) : ScanFinding :=
  if finding.signature = .unknown then
    let reasons := finding.reasons.filter (· ≠ unevaluatedReason)
    match signatureStatus view finding.path with
    | .trusted =>
        { finding with
          reasons
          signature := .trusted
          score := UInt8.ofNat (finding.score.toNat - 8) }
    | .untrusted =>
        { finding with
          reasons := reasons ++ ["Authenticode trust verification failed"]
          signature := .untrusted
          score := UInt8.ofNat (min (min (finding.score.toNat + 22) 255) 100) }
    | .unknown =>
        { finding with reasons := reasons ++ ["No trusted Authenticode signature was confirmed"] }
    | .notApplicable => { finding with reasons, signature := .notApplicable }
  else finding

/-- What the opinion of the provider makes of a finding.
Source: `windows/lib.rs`, `apply_windows_scan_signals` -/
def applyAmsi (finding : ScanFinding) : ScanFinding :=
  let status := amsiStatus view
  if status = "detected" then
    { finding with
      amsiResult := status
      score := 100
      reasons := finding.reasons ++ ["The installed Windows AMSI provider detected malware"] }
  else if status = "blocked_by_admin" then
    { finding with
      amsiResult := status
      score := UInt8.ofNat (max finding.score.toNat 75)
      reasons := finding.reasons ++
        ["The installed Windows AMSI provider blocked this content by policy"] }
  else { finding with amsiResult := status }

/-- Source: `windows/lib.rs`, `apply_windows_scan_signals` -/
def applyWindowsScanSignals (finding : ScanFinding) : ScanFinding :=
  let finding := applyAmsi view (applySignature view finding)
  let score := UInt8.ofNat (min finding.score.toNat 100)
  { finding with
    score
    verdict := scanVerdict score
    reasons := deduplicate finding.reasons }

end signals

/-! ## The score -/

section score

variable {view : WindowsView} {path : String} {finding : ScanFinding}

/-- What the signature makes of a score. -/
def signedScore (signature trust : SignatureStatus) (score : ℕ) : ℕ :=
  if signature = .unknown then
    match trust with
    | .trusted => score - 8
    | .untrusted => min (score + 22) 100
    | _ => score
  else score

/-- What the opinion of the provider makes of a score. -/
def opinionScore (amsi : String) (score : ℕ) : ℕ :=
  if amsi = "detected" then 100
  else if amsi = "blocked_by_admin" then max score 75
  else score

theorem toNat_ofNat_small {n : ℕ} (h : n < 256) : (UInt8.ofNat n).toNat = n :=
  UInt8.toNat_ofNat_of_lt' h

variable (view) in
theorem toNat_applySignature (h : finding.score.toNat ≤ 100) :
    (applySignature view finding).score.toNat =
      signedScore finding.signature (signatureStatus view finding.path) finding.score.toNat := by
  unfold applySignature signedScore
  split_ifs
  · cases signatureStatus view finding.path with
    | trusted => exact toNat_ofNat_small (by omega)
    | untrusted =>
        simp only
        rw [toNat_ofNat_small (by omega)]
        omega
    | unknown => rfl
    | notApplicable => rfl
  · rfl

variable (view) in
theorem toNat_applyAmsi (h : finding.score.toNat ≤ 100) :
    (applyAmsi view finding).score.toNat =
      opinionScore (amsiStatus view) finding.score.toNat := by
  unfold applyAmsi opinionScore
  simp only
  split_ifs
  · rfl
  · exact toNat_ofNat_small (by omega)
  · rfl

theorem signedScore_le (signature trust : SignatureStatus) {score : ℕ} (h : score ≤ 100) :
    signedScore signature trust score ≤ 100 := by
  unfold signedScore
  split_ifs
  · cases trust <;> simp only <;> omega
  · exact h

theorem opinionScore_le {amsi : String} {score : ℕ} (h : score ≤ 100) :
    opinionScore amsi score ≤ 100 := by
  unfold opinionScore
  split_ifs <;> omega

/-- **The score after the signals** is that of the signature and of the provider. -/
theorem toNat_applyWindowsScanSignals (h : finding.score.toNat ≤ 100) :
    (applyWindowsScanSignals view finding).score.toNat =
      opinionScore (amsiStatus view)
        (signedScore finding.signature (signatureStatus view finding.path)
          finding.score.toNat) := by
  have hsigned := toNat_applySignature view h
  have hle := signedScore_le finding.signature (signatureStatus view finding.path) h
  have hopinion := toNat_applyAmsi view (hsigned.trans_le hle)
  rw [hsigned] at hopinion
  unfold applyWindowsScanSignals
  simp only
  rw [hopinion, Nat.min_eq_left (opinionScore_le hle),
    toNat_ofNat_small (Nat.lt_of_le_of_lt (opinionScore_le hle) (by decide))]

theorem verdict_applyWindowsScanSignals (view : WindowsView) (finding : ScanFinding) :
    (applyWindowsScanSignals view finding).verdict =
      scanVerdict (applyWindowsScanSignals view finding).score := rfl

end score

end OpenGuard.Windows
