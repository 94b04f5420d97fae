import OpenGuard.Windows.ScanSignals

/-!
# What a finding gives as its reasons

A scan that finds nothing says so. The signals of Windows take the reason away that an executable
has as long as its signature has not been looked at, and say nothing in its place if the signature
is trusted.

* `contentReasons`, `placeReasons`, `inspectionReasons`: the reasons that the scan adds.
* `Explained`: what is expected of a finding.
* `explained_iff`: **every verdict is explained, except that of an executable with a trusted
  signature about which there is nothing else to say.**
-/

namespace OpenGuard.Windows

open OpenGuard.Lib OpenGuard.Domain OpenGuard.Detection

/-! ## Every text once -/

section deduplicate

variable {values : List String} {value : String}

/-- One more value. -/
theorem deduplicate_concat (values : List String) (value : String) :
    deduplicate (values ++ [value]) =
      if value ∈ deduplicate values then deduplicate values
      else deduplicate values ++ [value] := by
  rw [deduplicate, List.foldl_append]
  rfl

theorem mem_deduplicate : value ∈ deduplicate values ↔ value ∈ values := by
  induction values using List.reverseRecOn with
  | nil => simp [deduplicate]
  | append_singleton values last ih =>
      rw [deduplicate_concat]
      split_ifs with hlast
      · rw [ih, List.mem_append, List.mem_singleton]
        refine ⟨Or.inl, fun h => h.elim id ?_⟩
        rintro rfl
        exact ih.mp hlast
      · simp [ih]

theorem nodup_deduplicate (values : List String) : (deduplicate values).Nodup := by
  induction values using List.reverseRecOn with
  | nil => simp [deduplicate]
  | append_singleton values last ih =>
      rw [deduplicate_concat]
      split_ifs with hlast
      · exact ih
      · simpa using ih.concat hlast

theorem deduplicate_eq_nil : deduplicate values = [] ↔ values = [] := by
  simp [List.eq_nil_iff_forall_not_mem, mem_deduplicate]

end deduplicate

/-! ## The reasons of the scan -/

section reasons

variable (engine : Engine) (scanner : FileScanner) (context : ScanContext) (path : String)

/-- What the digest, the content and the rules that match are reported as. -/
def contentReasons (sha256 : String) (content : List UInt8) (rules : List MatchingRule) :
    List String :=
  ((scanner.knownHashes.lookup sha256).map ("Known signature match: " ++ ·)).toList ++
    (if containsBytes content eicarBytes then
      ["EICAR antivirus test signature detected"] else []) ++
    rules.map fun rule =>
      "YARA-X " ++ rule.identifier ++ ": " ++
        metaText "description" "Local content rule matched" rule.metadata

/-- What the name of a file is reported as. -/
def nameReasons : List String :=
  ((deceptiveDoubleExtension path).map fun double =>
    "Executable uses a deceptive double extension (" ++ double ++ ")").toList

/-- What the place of a file is reported as. -/
def placeReasons : List String :=
  if isExecutablePath path then unevaluatedReason :: (locationRisk context path).2.toList else []

/-- What the inspections of executables and scripts report. -/
def inspectionReasons (content : List UInt8) (fileSize : UInt64) : List String :=
  (if isPe content then (inspectPe engine content fileSize).2 else []) ++
    (if isPe content || isScript path content then
      (inspectCapabilities engine.importNames content).capabilities.map capabilityReason else []) ++
    if isScript path content then (inspectScript content).2 else []

theorem reasons_foldl_addRule (rules : List MatchingRule) (signals : Signals) :
    (rules.foldl Signals.addRule signals).reasons =
      signals.reasons ++ rules.map fun rule =>
        "YARA-X " ++ rule.identifier ++ ": " ++
          metaText "description" "Local content rule matched" rule.metadata := by
  induction rules generalizing signals with
  | nil => simp
  | cons rule rules ih => simp [ih, Signals.addRule]

theorem reasons_contentSignals (sha256 : String) (content : List UInt8)
    (rules : List MatchingRule) :
    (contentSignals scanner sha256 content rules).reasons =
      contentReasons scanner sha256 content rules := by
  unfold contentSignals contentReasons
  rw [reasons_foldl_addRule]
  congr 1
  cases scanner.knownHashes.lookup sha256 with
  | none => split_ifs <;> simp [Signals.certain]
  | some name => split_ifs <;> simp [Signals.certain]

theorem reasons_addPlace (signals : Signals) :
    (signals.addPlace context path).reasons =
      signals.reasons ++ nameReasons path ++ placeReasons context path := by
  unfold Signals.addPlace nameReasons placeReasons
  cases deceptiveDoubleExtension path with
  | none => split_ifs <;> simp [Signals.add, unevaluatedReason]
  | some double => split_ifs <;> simp [Signals.add, unevaluatedReason]

theorem reasons_addInspections (signals : Signals) (content : List UInt8) (fileSize : UInt64) :
    (signals.addInspections engine path content fileSize).1.reasons =
      signals.reasons ++ inspectionReasons engine path content fileSize := by
  unfold Signals.addInspections inspectionReasons
  cases isPe content <;> cases isScript path content <;> simp [Signals.add]

/-- Every reason of the scan. -/
theorem reasons_signals (hash : HashOutcome) (content : List UInt8) (rules : List MatchingRule)
    (fileSize : UInt64) :
    (((contentSignals scanner hash.sha256 content rules).addPlace context path).addInspections
        engine path content fileSize).1.reasons =
      contentReasons scanner hash.sha256 content rules ++ nameReasons path ++
        placeReasons context path ++ inspectionReasons engine path content fileSize := by
  rw [reasons_addInspections, reasons_addPlace, reasons_contentSignals]

end reasons

/-! ## The reasons that speak of the signature -/

/-- Source: `windows/lib.rs`, `apply_windows_scan_signals` -/
def failedReason : String := "Authenticode trust verification failed"

/-- Source: `windows/lib.rs`, `apply_windows_scan_signals` -/
def unconfirmedReason : String := "No trusted Authenticode signature was confirmed"

/-- The reason speaks of the signature. -/
def AboutSignature (reason : String) : Prop :=
  reason = unevaluatedReason ∨ reason = failedReason ∨ reason = unconfirmedReason

/-- The reason says of the signature what its status does not. -/
def Contradicts (signature : SignatureStatus) (reason : String) : Prop :=
  (reason = unevaluatedReason ∧ signature ≠ .unknown) ∨
    (reason = failedReason ∧ signature ≠ .untrusted) ∨
    (reason = unconfirmedReason ∧ signature ≠ .unknown)

theorem not_contradicts {signature : SignatureStatus} {reason : String}
    (h : ¬AboutSignature reason) : ¬Contradicts signature reason := by
  rintro (⟨rfl, -⟩ | ⟨rfl, -⟩ | ⟨rfl, -⟩)
  · exact h (Or.inl rfl)
  · exact h (Or.inr (Or.inl rfl))
  · exact h (Or.inr (Or.inr rfl))

/-- A reason that starts with another letter does not speak of the signature. -/
theorem not_aboutSignature {reason : String} {c : Char} (hc : c ≠ 'A' ∧ c ≠ 'N')
    (hfirst : reason.toList.head? = some c) : ¬AboutSignature reason := by
  rintro (rfl | rfl | rfl)
  · exact hc.1 (Option.some.inj hfirst).symm
  · exact hc.1 (Option.some.inj hfirst).symm
  · exact hc.2 (Option.some.inj hfirst).symm

section other

variable {engine : Engine} {scanner : FileScanner} {context : ScanContext} {path reason : String}
  {content : List UInt8}

theorem not_aboutSignature_contentReasons {sha256 : String} {rules : List MatchingRule}
    (h : reason ∈ contentReasons scanner sha256 content rules) : ¬AboutSignature reason := by
  simp only [contentReasons, List.mem_append, Option.mem_toList,
    Option.map_eq_some_iff, List.mem_map] at h
  rcases h with (⟨name, -, rfl⟩ | heicar) | ⟨rule, -, rfl⟩
  · exact not_aboutSignature (by decide) (head?_toList_append rfl)
  · split_ifs at heicar
    · obtain rfl := List.mem_singleton.mp heicar
      exact not_aboutSignature (by decide) rfl
    · cases heicar
  · exact not_aboutSignature (by decide)
      (head?_toList_append (head?_toList_append (head?_toList_append rfl)))

theorem not_aboutSignature_nameReasons (h : reason ∈ nameReasons path) :
    ¬AboutSignature reason := by
  simp only [nameReasons, Option.mem_toList, Option.map_eq_some_iff] at h
  obtain ⟨double, -, rfl⟩ := h
  exact not_aboutSignature (by decide) (head?_toList_append (head?_toList_append rfl))

theorem not_aboutSignature_locationRisk (h : reason ∈ (locationRisk context path).2) :
    ¬AboutSignature reason := by
  unfold locationRisk at h
  simp only at h
  split_ifs at h
  · obtain rfl := Option.some.inj h
    exact not_aboutSignature (by decide) rfl
  · split at h
    · split_ifs at h
      · obtain rfl := Option.some.inj h
        exact not_aboutSignature (by decide) rfl
      · cases h
    · cases h

/-- No reason speaks of the signature. -/
def Unrelated (signals : Signals) : Prop := ∀ reason ∈ signals.reasons, ¬AboutSignature reason

theorem unrelated_nil (score : ℕ) : Unrelated ⟨score, []⟩ := by
  simp [Unrelated]

theorem Unrelated.addIf {signals : Signals} {text : String} (h : Unrelated signals)
    (htext : ¬AboutSignature text) (condition : Bool) (score : ℕ) :
    Unrelated (signals.addIf condition score text) := by
  intro reason hreason
  cases condition with
  | false => exact h reason hreason
  | true =>
      rcases List.mem_append.mp hreason with hbefore | hlast
      · exact h reason hbefore
      · rwa [List.mem_singleton.mp hlast]

/-- Signals with texts that do not speak of the signature are counted. -/
theorem Unrelated.foldl {count : List String × ℕ × String → Bool}
    {texts : List (List String × ℕ × String)} {signals : Signals} (h : Unrelated signals)
    (htexts : ∀ signal ∈ texts, ¬AboutSignature signal.2.2) :
    Unrelated (texts.foldl (fun signals signal =>
      signals.addIf (count signal) signal.2.1 signal.2.2) signals) := by
  induction texts generalizing signals with
  | nil => exact h
  | cons signal texts ih =>
      apply ih (h.addIf (htexts signal List.mem_cons_self) _ _)
      intro other hother
      exact htexts other (List.mem_cons_of_mem _ hother)

theorem not_aboutSignature_scriptSignals :
    ∀ signal ∈ scriptSignals, ¬AboutSignature signal.2.2 := by
  intro signal hsignal
  simp only [scriptSignals, List.mem_cons, List.not_mem_nil, or_false] at hsignal
  rcases hsignal with rfl | rfl | rfl | rfl | rfl | rfl <;>
    exact not_aboutSignature (by decide) rfl

theorem not_aboutSignature_inspectScript :
    ∀ reason ∈ (inspectScript content).2, ¬AboutSignature reason := by
  apply Unrelated.addIf
  · apply Unrelated.addIf
    · exact (unrelated_nil 0).foldl not_aboutSignature_scriptSignals
    · exact not_aboutSignature (by decide) rfl
  · exact not_aboutSignature (by decide) rfl

theorem not_aboutSignature_inspectPe (content : List UInt8) (fileSize : UInt64) :
    ∀ reason ∈ (inspectPe engine content fileSize).2, ¬AboutSignature reason := by
  unfold inspectPe
  simp only
  split_ifs
  · have htruncated : ¬AboutSignature "Truncated DOS/PE header" :=
      not_aboutSignature (by decide) rfl
    simp [htruncated]
  · have hmalformed : ¬AboutSignature "Malformed PE header" := not_aboutSignature (by decide) rfl
    simp [hmalformed]
  · have hheader (sections timestamp : Bool) (count : String) : Unrelated
        (((Signals.mk 0 []).addIf sections 20
          ("Unusual PE section count (" ++ count ++ ")")).addIf timestamp 5
            "PE build timestamp is zero") := by
      apply Unrelated.addIf
      · apply (unrelated_nil 0).addIf
        exact not_aboutSignature (by decide) (head?_toList_append (head?_toList_append rfl))
      · exact not_aboutSignature (by decide) rfl
    apply Unrelated.addIf
    · cases engine.highEntropy (content.take (2 * 1024 * 1024)) with
      | none => exact hheader _ _ _
      | some entropy =>
          apply (hheader _ _ _).addIf
          exact not_aboutSignature (by decide) (head?_toList_append (head?_toList_append rfl))
    · exact not_aboutSignature (by decide) rfl

theorem not_aboutSignature_inspectionReasons {fileSize : UInt64}
    (h : reason ∈ inspectionReasons engine path content fileSize) : ¬AboutSignature reason := by
  simp only [inspectionReasons, List.mem_append] at h
  rcases h with (hpe | hcapability) | hscript
  · split_ifs at hpe
    · exact not_aboutSignature_inspectPe content fileSize reason hpe
    · cases hpe
  · split_ifs at hcapability
    · obtain ⟨capability, -, rfl⟩ := List.mem_map.mp hcapability
      apply not_aboutSignature (c := 'C') (by decide)
      repeat apply head?_toList_append
      rfl
    · cases hcapability
  · split_ifs at hscript
    · exact not_aboutSignature_inspectScript reason hscript
    · cases hscript

end other

/-! ## The reasons of a finding -/

/-- What is expected of a finding: it has reasons, each once, its verdict is that of its score, and
no reason contradicts what it says of the signature. -/
structure Explained (finding : ScanFinding) : Prop where
  reasons : finding.reasons ≠ []
  distinct : finding.reasons.Nodup
  verdict : finding.verdict = scanVerdict finding.score
  score : finding.score.toNat ≤ 100
  agrees : ∀ reason ∈ finding.reasons, ¬Contradicts finding.signature reason

/-- Besides that its signature has not been looked at, there is nothing to say of the file. -/
structure NothingElse (engine : Engine) (scanner : FileScanner) (context : ScanContext)
    (path sha256 : String) (content : List UInt8) (rules : List MatchingRule)
    (fileSize : UInt64) : Prop where
  known : scanner.knownHashes.lookup sha256 = none
  eicar : containsBytes content eicarBytes = false
  rules : rules = []
  name : deceptiveDoubleExtension path = none
  place : (locationRisk context path).2 = none
  pe : isPe content → (inspectPe engine content fileSize).2 = []
  capabilities : isPe content || isScript path content →
    (inspectCapabilities engine.importNames content).capabilities = []
  script : isScript path content → (inspectScript content).2 = []

section finding

variable {engine : Engine} {scanner : FileScanner} {context : ScanContext} {path : String}
  {hash : HashOutcome} {content : List UInt8} {rules : List MatchingRule} {fileSize : UInt64}
  {signals : Signals × List ThreatCapability} {view : WindowsView} {finding : ScanFinding}

/-- What the scan counts before it makes a finding of it. -/
abbrev allSignals (engine : Engine) (scanner : FileScanner) (context : ScanContext)
    (path sha256 : String) (content : List UInt8) (rules : List MatchingRule)
    (fileSize : UInt64) : Signals × List ThreatCapability :=
  ((contentSignals scanner sha256 content rules).addPlace context path).addInspections engine path
    content fileSize

/-- There is nothing else to say exactly when every other list of reasons is empty. -/
theorem nothingElse_iff :
    NothingElse engine scanner context path hash.sha256 content rules fileSize ↔
      contentReasons scanner hash.sha256 content rules = [] ∧ nameReasons path = [] ∧
        (locationRisk context path).2 = none ∧
        inspectionReasons engine path content fileSize = [] := by
  simp only [contentReasons, nameReasons, inspectionReasons, List.append_eq_nil_iff,
    Option.toList_eq_nil_iff, Option.map_eq_none_iff, List.map_eq_nil_iff, ite_eq_right_iff,
    List.cons_ne_nil, imp_false, Bool.not_eq_true]
  constructor
  · rintro ⟨hknown, heicar, hrules, hname, hplace, hpe, hcapabilities, hscript⟩
    exact ⟨⟨⟨hknown, heicar⟩, hrules⟩, hname, hplace, ⟨hpe, hcapabilities⟩, hscript⟩
  · rintro ⟨⟨⟨hknown, heicar⟩, hrules⟩, hname, hplace, ⟨hpe, hcapabilities⟩, hscript⟩
    exact ⟨hknown, heicar, hrules, hname, hplace, hpe, hcapabilities, hscript⟩

/-- A reason of the scan does not speak of the signature, or says that it has not been looked
at. -/
theorem mem_reasons_signals {reason : String}
    (h : reason ∈ (allSignals engine scanner context path hash.sha256 content rules
      fileSize).1.reasons) :
    ¬AboutSignature reason ∨ isExecutablePath path ∧ reason = unevaluatedReason := by
  rw [allSignals, reasons_signals] at h
  simp only [List.mem_append] at h
  rcases h with ((hcontent | hname) | hplace) | hinspection
  · exact Or.inl (not_aboutSignature_contentReasons hcontent)
  · exact Or.inl (not_aboutSignature_nameReasons hname)
  · unfold placeReasons at hplace
    split_ifs at hplace with hexecutable
    · rcases List.mem_cons.mp hplace with rfl | hlocation
      · exact Or.inr ⟨hexecutable, rfl⟩
      · exact Or.inl (not_aboutSignature_locationRisk (Option.mem_toList.mp hlocation))
    · cases hplace
  · exact Or.inl (not_aboutSignature_inspectionReasons hinspection)

/-- **The only reason is that the signature of an executable has not been looked at** exactly when
there is nothing else to say of it. -/
theorem forall_reasons_iff (hexecutable : isExecutablePath path) :
    (∀ reason ∈ (allSignals engine scanner context path hash.sha256 content rules
        fileSize).1.reasons, reason = unevaluatedReason) ↔
      NothingElse engine scanner context path hash.sha256 content rules fileSize := by
  have hother {reason : String} (h : ¬AboutSignature reason) : reason ≠ unevaluatedReason :=
    fun hreason => h (Or.inl hreason)
  rw [nothingElse_iff, allSignals, reasons_signals, placeReasons, if_pos hexecutable]
  simp only [List.mem_append, List.mem_cons]
  constructor
  · intro h
    refine ⟨?_, ?_, ?_, ?_⟩
    · refine List.eq_nil_iff_forall_not_mem.mpr fun reason hreason => ?_
      exact hother (not_aboutSignature_contentReasons hreason)
        (h reason (Or.inl (Or.inl (Or.inl hreason))))
    · refine List.eq_nil_iff_forall_not_mem.mpr fun reason hreason => ?_
      exact hother (not_aboutSignature_nameReasons hreason)
        (h reason (Or.inl (Or.inl (Or.inr hreason))))
    · refine Option.eq_none_iff_forall_not_mem.mpr fun reason hreason => ?_
      exact hother (not_aboutSignature_locationRisk hreason)
        (h reason (Or.inl (Or.inr (Or.inr (Option.mem_toList.mpr hreason)))))
    · refine List.eq_nil_iff_forall_not_mem.mpr fun reason hreason => ?_
      exact hother (not_aboutSignature_inspectionReasons hreason) (h reason (Or.inr hreason))
  · rintro ⟨hcontent, hname, hplace, hinspection⟩ reason hreason
    simpa [hcontent, hname, hplace, hinspection] using hreason

/-- The reasons of a finding are those of its signals, or there are none and it says so. -/
theorem mem_reasons_findingOf {reason : String} :
    reason ∈ (findingOf context path hash rules signals).reasons ↔
      reason ∈ signals.1.reasons ∨
        signals.1.reasons = [] ∧ reason = "No configured local detection signal matched" := by
  simp only [findingOf, mem_deduplicate]
  split_ifs with h <;> simp [h]

/-- **What the scan reports is explained.** -/
theorem explained_findingOf :
    Explained (findingOf context path hash rules
      (allSignals engine scanner context path hash.sha256 content rules fileSize)) where
  reasons h := by
    simp only [findingOf, deduplicate_eq_nil] at h
    split_ifs at h with hnone
    exact hnone h
  distinct := by
    simp only [findingOf]
    exact nodup_deduplicate _
  verdict := by simp only [findingOf]
  score := by
    simp only [findingOf, toNat_findingScore]
    exact Nat.min_le_right _ _
  agrees reason hreason := by
    rcases mem_reasons_findingOf.mp hreason with hsignal | ⟨-, rfl⟩
    · rcases mem_reasons_signals hsignal with hother | ⟨hexecutable, rfl⟩
      · exact not_contradicts hother
      · simp only [findingOf, hexecutable, if_true]
        unfold Contradicts
        decide
    · apply not_contradicts
      unfold AboutSignature
      decide

/-! ## The reasons after the signals of Windows -/

/-- What is said of a signature that was looked at.
Source: `windows/lib.rs`, `apply_windows_scan_signals` -/
def trustReasons : SignatureStatus → List String
  | .untrusted => [failedReason]
  | .unknown => [unconfirmedReason]
  | .trusted => []
  | .notApplicable => []

/-- What the signature makes of the reasons.
Source: `windows/lib.rs`, `apply_windows_scan_signals` -/
def signedReasons (signature trust : SignatureStatus) (reasons : List String) : List String :=
  if signature = .unknown then reasons.filter (· ≠ unevaluatedReason) ++ trustReasons trust
  else reasons

/-- What is said of the opinion of the provider.
Source: `windows/lib.rs`, `apply_windows_scan_signals` -/
def opinionReasons (amsi : String) : List String :=
  if amsi = "detected" then ["The installed Windows AMSI provider detected malware"]
  else if amsi = "blocked_by_admin" then
    ["The installed Windows AMSI provider blocked this content by policy"]
  else []

theorem reasons_applySignature :
    (applySignature view finding).reasons =
      signedReasons finding.signature (signatureStatus view finding.path) finding.reasons := by
  unfold applySignature signedReasons
  split_ifs
  · cases signatureStatus view finding.path with
    | trusted => simp [trustReasons]
    | untrusted => rfl
    | unknown => rfl
    | notApplicable => simp [trustReasons]
  · rfl

theorem signature_applySignature :
    (applySignature view finding).signature =
      if finding.signature = .unknown then signatureStatus view finding.path
      else finding.signature := by
  unfold applySignature
  split_ifs with hunknown
  · cases hstatus : signatureStatus view finding.path <;> simp [hunknown]
  · rfl

theorem reasons_applyWindowsScanSignals :
    (applyWindowsScanSignals view finding).reasons =
      deduplicate (signedReasons finding.signature (signatureStatus view finding.path)
        finding.reasons ++ opinionReasons (amsiStatus view)) := by
  rw [← reasons_applySignature]
  unfold applyWindowsScanSignals applyAmsi opinionReasons
  simp only
  split_ifs <;> simp

theorem signature_applyWindowsScanSignals :
    (applyWindowsScanSignals view finding).signature =
      if finding.signature = .unknown then signatureStatus view finding.path
      else finding.signature := by
  rw [← signature_applySignature]
  unfold applyWindowsScanSignals applyAmsi
  simp only
  split_ifs <;> rfl

theorem opinionReasons_eq_nil {amsi : String} :
    opinionReasons amsi = [] ↔ amsi ≠ "detected" ∧ amsi ≠ "blocked_by_admin" := by
  unfold opinionReasons
  split_ifs <;> simp_all

theorem not_aboutSignature_opinionReasons {amsi reason : String}
    (h : reason ∈ opinionReasons amsi) : ¬AboutSignature reason := by
  unfold opinionReasons at h
  split_ifs at h
  · obtain rfl := List.mem_singleton.mp h
    exact not_aboutSignature (by decide) rfl
  · obtain rfl := List.mem_singleton.mp h
    exact not_aboutSignature (by decide) rfl
  · cases h

/-- What is said of a signature that was looked at agrees with it. -/
theorem trustReasons_agree {trust : SignatureStatus} {reason : String}
    (h : reason ∈ trustReasons trust) :
    ¬Contradicts trust reason ∧ reason ≠ unevaluatedReason := by
  cases trust <;> simp only [trustReasons, List.mem_singleton, List.not_mem_nil] at h <;>
    subst h <;> unfold Contradicts <;> decide

/-- A reason after the signals of Windows agrees with the signature, and no longer says that it has
not been looked at. -/
theorem signedReasons_agree {trust : SignatureStatus} {reason : String}
    (hfinding : ∀ reason ∈ finding.reasons, ¬AboutSignature reason ∨
      finding.signature = .unknown ∧ reason = unevaluatedReason)
    (h : reason ∈ signedReasons finding.signature trust finding.reasons) :
    ¬Contradicts (if finding.signature = .unknown then trust else finding.signature) reason ∧
      reason ≠ unevaluatedReason := by
  have hother (hreason : ¬AboutSignature reason) (signature : SignatureStatus) :
      ¬Contradicts signature reason ∧ reason ≠ unevaluatedReason :=
    ⟨not_contradicts hreason, fun heq => hreason (Or.inl heq)⟩
  unfold signedReasons at h
  split_ifs at h ⊢ with hunknown
  · rcases List.mem_append.mp h with hkept | htrust
    · obtain ⟨hmem, hne⟩ := List.mem_filter.mp hkept
      rcases hfinding reason hmem with hreason | ⟨-, rfl⟩
      · exact hother hreason trust
      · simp at hne
    · exact trustReasons_agree htrust
  · rcases hfinding reason h with hreason | ⟨hsignature, -⟩
    · exact hother hreason finding.signature
    · exact absurd hsignature hunknown

/-- Nothing is left to say exactly when the reason that is taken away was the only one, and neither
the signature nor the provider gives another. -/
theorem reasons_applyWindowsScanSignals_eq_nil (hreasons : finding.reasons ≠ []) :
    (applyWindowsScanSignals view finding).reasons = [] ↔
      finding.signature = .unknown ∧ (∀ reason ∈ finding.reasons, reason = unevaluatedReason) ∧
        trustReasons (signatureStatus view finding.path) = [] ∧
        opinionReasons (amsiStatus view) = [] := by
  rw [reasons_applyWindowsScanSignals, deduplicate_eq_nil, List.append_eq_nil_iff, signedReasons]
  split_ifs with hunknown
  · simp [hunknown, List.filter_eq_nil_iff, and_assoc]
  · simp [hunknown, hreasons]

/-- After the signals of Windows a finding is explained as soon as it has a reason. -/
theorem explained_applyWindowsScanSignals (hexplained : Explained finding)
    (hfinding : ∀ reason ∈ finding.reasons, ¬AboutSignature reason ∨
      finding.signature = .unknown ∧ reason = unevaluatedReason)
    (hreasons : (applyWindowsScanSignals view finding).reasons ≠ []) :
    Explained (applyWindowsScanSignals view finding) ∧
      unevaluatedReason ∉ (applyWindowsScanSignals view finding).reasons := by
  have hagree : ∀ reason ∈ (applyWindowsScanSignals view finding).reasons,
      ¬Contradicts (applyWindowsScanSignals view finding).signature reason ∧
        reason ≠ unevaluatedReason := by
    intro reason hreason
    rw [reasons_applyWindowsScanSignals, mem_deduplicate, List.mem_append] at hreason
    rw [signature_applyWindowsScanSignals]
    rcases hreason with hsigned | hopinion
    · exact signedReasons_agree hfinding hsigned
    · have hother := not_aboutSignature_opinionReasons hopinion
      exact ⟨not_contradicts hother, fun heq => hother (Or.inl heq)⟩
  refine ⟨⟨hreasons, ?_, verdict_applyWindowsScanSignals view finding, ?_, ?_⟩, ?_⟩
  · rw [reasons_applyWindowsScanSignals]
    exact nodup_deduplicate _
  · rw [toNat_applyWindowsScanSignals hexplained.score]
    exact opinionScore_le (signedScore_le _ _ hexplained.score)
  · exact fun reason hreason => (hagree reason hreason).1
  · exact fun h => (hagree _ h).2 rfl

/-- What a finding of the scan says of the signature. -/
theorem mem_reasons_scan {reason : String}
    (h : reason ∈ (findingOf context path hash rules
      (allSignals engine scanner context path hash.sha256 content rules fileSize)).reasons) :
    ¬AboutSignature reason ∨ isExecutablePath path ∧ reason = unevaluatedReason := by
  rcases mem_reasons_findingOf.mp h with hsignal | ⟨-, rfl⟩
  · exact mem_reasons_signals hsignal
  · unfold AboutSignature
    exact Or.inl (by decide)

/-- **The finding of an executable has only the reason that is taken away** exactly when there is
nothing else to say of it. -/
theorem forall_reasons_scan_iff (hexecutable : isExecutablePath path) :
    (∀ reason ∈ (findingOf context path hash rules
        (allSignals engine scanner context path hash.sha256 content rules fileSize)).reasons,
      reason = unevaluatedReason) ↔
      NothingElse engine scanner context path hash.sha256 content rules fileSize := by
  rw [← forall_reasons_iff hexecutable]
  have hne : (allSignals engine scanner context path hash.sha256 content rules
      fileSize).1.reasons ≠ [] := by
    rw [allSignals, reasons_signals, placeReasons, if_pos hexecutable]
    simp
  simp only [mem_reasons_findingOf, hne, false_and, or_false]

theorem trustReasons_eq_nil {trust : SignatureStatus} :
    trustReasons trust = [] ↔ trust = .trusted ∨ trust = .notApplicable := by
  cases trust <;> simp [trustReasons]

/-- **Every verdict is explained, except that of an executable with a trusted signature about which
there is nothing else to say**: neither the scan nor the provider has found anything. -/
theorem explained_iff (engine : Engine) (scanner : FileScanner) (context : ScanContext)
    (path : String) (reads : FileReads) (view : WindowsView) (finding : ScanFinding)
    (fileSize : UInt64) (hash : HashOutcome) (content : List UInt8) (rules : List MatchingRule)
    (hscan : scanFile engine scanner context path reads = .ok finding)
    (hmetadata : reads.metadata = .ok (true, fileSize))
    (hread : readHashAndContent engine scanner.maximumBytes reads = .ok (hash, content))
    (hrules : engine.yara scanner.rules content = .ok rules) :
    (Explained finding ∧ Explained (applyWindowsScanSignals view finding) ∧
        unevaluatedReason ∉ (applyWindowsScanSignals view finding).reasons) ↔
      ¬(isExecutablePath path ∧
        NothingElse engine scanner context path hash.sha256 content rules fileSize ∧
        (signatureStatus view ((context.canonicalize path).getD path) = .trusted ∨
          signatureStatus view ((context.canonicalize path).getD path) = .notApplicable) ∧
        amsiStatus view ≠ "detected" ∧ amsiStatus view ≠ "blocked_by_admin") := by
  obtain ⟨fileSize', hash', content', rules', hmetadata', hread', hrules', rfl⟩ :=
    scanFile_eq_ok hscan
  obtain ⟨-, rfl⟩ := Prod.mk.inj (Except.ok.inj (hmetadata.symm.trans hmetadata'))
  obtain ⟨rfl, rfl⟩ := Prod.mk.inj (Except.ok.inj (hread.symm.trans hread'))
  obtain rfl := Except.ok.inj (hrules.symm.trans hrules')
  have hexplained : Explained (findingOf context path hash rules
      (allSignals engine scanner context path hash.sha256 content rules fileSize)) :=
    explained_findingOf
  have hmem : ∀ reason ∈ (findingOf context path hash rules
      (allSignals engine scanner context path hash.sha256 content rules fileSize)).reasons,
      ¬AboutSignature reason ∨ isExecutablePath path ∧ reason = unevaluatedReason :=
    fun _ => mem_reasons_scan
  have honly : isExecutablePath path → ((∀ reason ∈ (findingOf context path hash rules
      (allSignals engine scanner context path hash.sha256 content rules fileSize)).reasons,
      reason = unevaluatedReason) ↔
        NothingElse engine scanner context path hash.sha256 content rules fileSize) :=
    forall_reasons_scan_iff
  have hsignature : (findingOf context path hash rules (allSignals engine scanner context path
      hash.sha256 content rules fileSize)).signature = .unknown ↔ isExecutablePath path := by
    simp [findingOf]
  have hpath : (findingOf context path hash rules (allSignals engine scanner context path
      hash.sha256 content rules fileSize)).path = (context.canonicalize path).getD path := rfl
  generalize findingOf context path hash rules _ = finding at *
  have hempty : (applyWindowsScanSignals view finding).reasons = [] ↔ _ :=
    reasons_applyWindowsScanSignals_eq_nil hexplained.reasons
  rw [hsignature, hpath, trustReasons_eq_nil, opinionReasons_eq_nil] at hempty
  constructor
  · rintro ⟨-, hafter, -⟩ ⟨hexecutable, hnothing, htrust, hamsi⟩
    exact hafter.reasons (hempty.mpr ⟨hexecutable, (honly hexecutable).mpr hnothing, htrust, hamsi⟩)
  · intro hsaid
    refine ⟨hexplained, explained_applyWindowsScanSignals hexplained ?_ fun h => hsaid ?_⟩
    · simpa only [hsignature] using hmem
    · obtain ⟨hexecutable, hreasons, htrust, hamsi⟩ := hempty.mp h
      exact ⟨hexecutable, (honly hexecutable).mp hreasons, htrust, hamsi⟩

/-! ## An executable with a trusted signature -/

/-- A rule engine without rules. -/
def ruleless : Engine := ⟨fun _ => "00", fun _ _ => .ok [], fun _ => none, fun _ => none⟩

/-- No path resolves, and no variable is set. -/
def bareContext : ScanContext := ⟨fun _ => none, fun _ => none, "unix:0"⟩

/-- Three bytes, which are no program. -/
def threeBytes : FileReads := ⟨.ok (true, 3), .ok 3, [⟨false, .ok [1, 2, 3]⟩]⟩

/-- The signature is trusted, and the provider has nothing to say. -/
def trustedView : WindowsView := ⟨true, 0, some 3, some 3, true, some 0⟩

/-- `explained_iff` for a file that is no executable. -/
theorem explained_text :
    ∃ finding, scanFile ruleless ⟨[], [], 1024⟩ bareContext "a.txt" threeBytes = .ok finding ∧
      Explained finding ∧ Explained (applyWindowsScanSignals trustedView finding) ∧
        unevaluatedReason ∉ (applyWindowsScanSignals trustedView finding).reasons :=
  ⟨_, rfl, (explained_iff ruleless ⟨[], [], 1024⟩ bareContext "a.txt" threeBytes trustedView _ 3
    ⟨"00", 3⟩ [1, 2, 3] [] rfl rfl rfl rfl).mpr fun h => absurd h.1 (by decide)⟩

/-- An executable with a trusted signature, in which nothing is found, has no reasons. -/
theorem trusted_not_explained :
    ∃ finding, scanFile ruleless ⟨[], [], 1024⟩ bareContext "a.exe" threeBytes = .ok finding ∧
      ¬Explained (applyWindowsScanSignals trustedView finding) := by
  refine ⟨_, rfl, fun h => h.reasons ?_⟩
  decide

end finding

end OpenGuard.Windows
