import OpenGuard.Windows.ScanSignals

/-!
# Certain detections

A file that is known by its digest, that contains the test signature, or that a rule calls
malicious, has the highest score. What else is found can only add to a score, and a trusted
signature takes too little away to change the verdict.

* `Certain`: what makes a detection certain.
* `malicious_of_certain`: **a certain detection stays malicious**, through both stages.
-/

namespace OpenGuard.Windows

open OpenGuard.Lib OpenGuard.Domain OpenGuard.Detection

/-- The severity of a rule: the last one in its metadata.
Source: `scan.rs`, `FileScanner::scan_file` -/
def ruleSeverity (rule : MatchingRule) : String :=
  toAsciiLowercase (metaText "severity" "suspicious" rule.metadata)

/-- The digest is known, the content contains the test signature, or a rule that matches is one for
malicious content. -/
def Certain (scanner : FileScanner) (sha256 : String) (content : List UInt8)
    (rules : List MatchingRule) : Prop :=
  (∃ name, scanner.knownHashes.lookup sha256 = some name) ∨ containsBytes content eicarBytes ∨
    ∃ rule ∈ rules, ruleSeverity rule = "malicious" ∨ ruleSeverity rule = "critical"

section score

variable {engine : Engine} {scanner : FileScanner} {context : ScanContext} {path : String}
  {signals : Signals} {n : ℕ}

/-- The severity of a rule does not lower a score. -/
theorem le_severityScore (severity : String) {score : ℕ} (h : n ≤ score) (hn : n ≤ 100) :
    n ≤ severityScore severity score := by
  unfold severityScore
  split_ifs
  · exact hn
  · exact le_max_of_le_left h
  · exact le_max_of_le_left h
  · exact h

/-- No rule lowers a score. -/
theorem le_score_foldl_addRule (rules : List MatchingRule) (h : n ≤ signals.score)
    (hn : n ≤ 100) : n ≤ (rules.foldl Signals.addRule signals).score := by
  induction rules generalizing signals with
  | nil => exact h
  | cons rule rules ih =>
      rw [List.foldl_cons]
      exact ih (le_severityScore _ h hn)

/-- A rule for malicious content is enough, whatever other rules match before and after it. -/
theorem le_score_of_malicious_rule {rules : List MatchingRule} {rule : MatchingRule}
    (hrule : rule ∈ rules) (h : ruleSeverity rule = "malicious" ∨ ruleSeverity rule = "critical")
    (signals : Signals) : 100 ≤ (rules.foldl Signals.addRule signals).score := by
  obtain ⟨before, after, rfl⟩ := List.append_of_mem hrule
  rw [List.foldl_append, List.foldl_cons]
  apply le_score_foldl_addRule _ _ le_rfl
  rw [ruleSeverity] at h
  simp [Signals.addRule, severityScore, h]

/-- A certain detection has the highest score. -/
theorem le_score_contentSignals {sha256 : String} {content : List UInt8}
    {rules : List MatchingRule} (h : Certain scanner sha256 content rules) :
    100 ≤ (contentSignals scanner sha256 content rules).score := by
  unfold contentSignals
  rcases h with ⟨name, hname⟩ | heicar | ⟨rule, hrule, hseverity⟩
  · apply le_score_foldl_addRule _ _ le_rfl
    simp only [hname]
    split_ifs <;> simp [Signals.certain]
  · apply le_score_foldl_addRule _ _ le_rfl
    simp [heicar, Signals.certain]
  · exact le_score_of_malicious_rule hrule hseverity _

/-- What the name and the place of a file add does not lower a score. -/
theorem le_score_addPlace (h : n ≤ signals.score) (hn : n ≤ 65535) :
    n ≤ (signals.addPlace context path).score := by
  have hplace (base : Signals) (hbase : n ≤ base.score) :
      n ≤ (if isExecutablePath path then
        (base.add 8 ["Authenticode trust has not yet been evaluated"]).add
          (locationRisk context path).1 (locationRisk context path).2.toList
        else base).score := by
    split_ifs
    · exact Signals.le_score_add (Signals.le_score_add hbase hn _ _) hn _ _
    · exact hbase
  unfold Signals.addPlace
  cases deceptiveDoubleExtension path with
  | none => exact hplace _ h
  | some double => exact hplace _ (Signals.le_score_add h hn _ _)

/-- Nothing that the scan finds lowers the score of a certain detection. -/
theorem score_findingOf_of_certain {hash : HashOutcome} {content : List UInt8}
    {rules : List MatchingRule} (h : Certain scanner hash.sha256 content rules)
    (fileSize : UInt64) :
    (findingOf context path hash rules
      (((contentSignals scanner hash.sha256 content rules).addPlace context
        path).addInspections engine path content fileSize)).score.toNat = 100 := by
  have hplace : 100 ≤
      ((contentSignals scanner hash.sha256 content rules).addPlace context path).score :=
    le_score_addPlace (le_score_contentSignals h) (by decide)
  have hscore : 100 ≤ (((contentSignals scanner hash.sha256 content rules).addPlace context
      path).addInspections engine path content fileSize).1.score :=
    Signals.le_score_addInspections hplace (by decide) content fileSize
  simp only [findingOf, toNat_findingScore]
  exact Nat.min_eq_right hscore

end score

/-! ## The verdict -/

theorem scanVerdict_eq_malicious {score : UInt8} (h : 85 ≤ score.toNat) :
    scanVerdict score = .malicious := by
  have hscore : (85 : UInt8) ≤ score := UInt8.le_iff_toNat_le.mpr h
  rw [scanVerdict, if_pos hscore]

/-- Neither the signature nor the provider brings the highest score below the verdict. -/
theorem le_opinionScore_signedScore (signature trust : SignatureStatus) (amsi : String) :
    85 ≤ opinionScore amsi (signedScore signature trust 100) := by
  have hsigned : 92 ≤ signedScore signature trust 100 := by
    unfold signedScore
    split_ifs
    · cases trust <;> decide
    · decide
  unfold opinionScore
  split_ifs <;> omega

/-- **A certain detection stays malicious**: after the scan of the file, and after the signals of
Windows, whatever else was found and whatever they are. -/
theorem malicious_of_certain (engine : Engine) (scanner : FileScanner) (context : ScanContext)
    (path : String) (reads : FileReads) (view : WindowsView) (finding : ScanFinding)
    (hash : HashOutcome) (content : List UInt8) (rules : List MatchingRule)
    (hscan : scanFile engine scanner context path reads = .ok finding)
    (hread : readHashAndContent engine scanner.maximumBytes reads = .ok (hash, content))
    (hrules : engine.yara scanner.rules content = .ok rules)
    (hcertain : Certain scanner hash.sha256 content rules) :
    finding.verdict = .malicious ∧
      (applyWindowsScanSignals view finding).verdict = .malicious := by
  obtain ⟨fileSize, hash', content', rules', -, hread', hrules', rfl⟩ := scanFile_eq_ok hscan
  obtain ⟨rfl, rfl⟩ := Prod.mk.inj (Except.ok.inj (hread.symm.trans hread'))
  obtain rfl := Except.ok.inj (hrules.symm.trans hrules')
  have hscore : (findingOf context path hash rules
      (((contentSignals scanner hash.sha256 content rules).addPlace context
        path).addInspections engine path content fileSize)).score.toNat = 100 :=
    score_findingOf_of_certain hcertain fileSize
  generalize findingOf context path hash rules _ = finding at hscan hscore ⊢
  constructor
  · rw [(scanFile_ok hscan).verdict]
    exact scanVerdict_eq_malicious (by omega)
  · rw [verdict_applyWindowsScanSignals]
    apply scanVerdict_eq_malicious
    rw [toNat_applyWindowsScanSignals hscore.le, hscore]
    exact le_opinionScore_signedScore _ _ _

/-- `malicious_of_certain` for an executable with a known digest and a trusted signature. -/
theorem malicious_of_known_digest :
    ∃ finding, scanFile ⟨fun _ => "00", fun _ _ => .ok [], fun _ => none, fun _ => none⟩
        ⟨[], [("00", "Sample")], 1024⟩ ⟨fun _ => none, fun _ => none, "unix:0"⟩ "a.exe"
        ⟨.ok (true, 3), .ok 3, [⟨false, .ok [1, 2, 3]⟩]⟩ = .ok finding ∧
      finding.verdict = .malicious ∧
        (applyWindowsScanSignals ⟨true, 0, some 3, some 3, true, some 0⟩ finding).verdict =
          .malicious :=
  ⟨_, rfl, malicious_of_certain ⟨fun _ => "00", fun _ _ => .ok [], fun _ => none, fun _ => none⟩
    ⟨[], [("00", "Sample")], 1024⟩ ⟨fun _ => none, fun _ => none, "unix:0"⟩ "a.exe"
    ⟨.ok (true, 3), .ok 3, [⟨false, .ok [1, 2, 3]⟩]⟩ ⟨true, 0, some 3, some 3, true, some 0⟩ _
    ⟨"00", 3⟩ [1, 2, 3] [] rfl rfl rfl (Or.inl ⟨"Sample", rfl⟩)⟩

end OpenGuard.Windows
