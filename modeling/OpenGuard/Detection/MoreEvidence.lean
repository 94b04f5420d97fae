import Mathlib.Algebra.Order.BigOperators.Group.List
import Mathlib.Algebra.Ring.Nat
import OpenGuard.Detection.Capabilities
import OpenGuard.Lib.Fallible
import OpenGuard.Lib.Occurrence

/-!
# More evidence

An assessment as a list of rules: when a rule holds, its capability is reported and its score is
added. The rules of an input with more imports and a longer text hold more often, with more
evidence.

* `assess_eq`: the assessment applies the rules one after the other.
* `mem_capabilities`, `score_assess`: what is reported, and the score.
* `assess_mono`: **with more imports and a longer text nothing that was reported is missing, and the
  score is not lower.**
-/

namespace OpenGuard.Detection

open OpenGuard.Lib OpenGuard.Domain

/-! ## The rules -/

/-- When a capability is reported, and what it counts. -/
structure CapabilityRule where
  holds : Bool
  score : ℕ
  capability : ThreatCapability

/-- The texts that name what a browser stores. -/
def browserArtifacts : List String :=
  ["\\google\\chrome\\user data", "\\microsoft\\edge\\user data",
    "\\mozilla\\firefox\\profiles", "login data", "network\\cookies", "cookies.sqlite"]

/-- The names of functions that control the keyboard or the mouse. -/
def inputNames : List String := ["sendinput", "mouse_event", "keybd_event"]

/-- The names of functions that open a connection. -/
def networkNames : List String :=
  ["connect", "wsaconnect", "internetconnecta", "internetconnectw", "winhttpconnect"]

section rules

variable (imports : List String) (strings : String)

/-- The condition of `keyboard_input_capture`. -/
def capturesKeyboard : Bool := 2 ≤ primitiveCount imports strings keyboardNames

/-- The condition of `screen_capture`. -/
def capturesScreen : Bool := 2 ≤ primitiveCount imports strings captureNames

/-- The condition of `process_injection`. -/
def injectsProcess : Bool :=
  hasPrimitive imports strings writeNames && hasPrimitive imports strings allocateNames &&
    hasPrimitive imports strings executeNames

/-- There is a function that decrypts what a browser stores. -/
def decryptsSecrets : Bool :=
  hasAny imports ["cryptunprotectdata", "ncryptdecrypt"] ||
    containsAny strings ["cryptunprotectdata", "os_crypt.encrypted_key"]

/-- There is a function that reads a database or copies a file. -/
def accessesDatabase : Bool :=
  containsAny strings ["sqlite3_open", "sqlite3_prepare", "cookies.sqlite"] ||
    hasAny imports ["copyfilea", "copyfilew"]

/-- The condition of `browser_credential_access`. -/
def accessesBrowser : Bool :=
  containsAny strings browserArtifacts && decryptsSecrets imports strings &&
    accessesDatabase imports strings

/-- There is a function or a tool that dumps a process. -/
def dumpsProcess : Bool :=
  hasPrimitive imports strings ["minidumpwritedump"] ||
    containsAny strings ["comsvcs.dll", "procdump", "sekurlsa"]

/-- The condition of `os_credential_dumping`. -/
def dumpsCredentials : Bool := containsStr strings "lsass" && dumpsProcess imports strings

/-- The input is watched or controlled. -/
def handlesInput : Bool :=
  0 < primitiveCount imports strings keyboardNames || hasPrimitive imports strings inputNames

/-- The condition of `remote_control_stack`. -/
def controlsRemotely : Bool :=
  capturesScreen imports strings && handlesInput imports strings &&
    hasPrimitive imports strings networkNames

/-- The rules, in their order.
Source: `capabilities.rs`, `assess` -/
def capabilityRules : List CapabilityRule :=
  [⟨capturesKeyboard imports strings, 12, "keyboard_input_capture", "T1056.001", 62,
      importEvidence imports keyboardNames⟩,
    ⟨capturesScreen imports strings, 10, "screen_capture", "T1113", 58,
      importEvidence imports captureNames⟩,
    ⟨injectsProcess imports strings, 48, "process_injection", "T1055", 94,
      importEvidence imports (writeNames ++ allocateNames ++ executeNames)⟩,
    ⟨accessesBrowser imports strings, 34, "browser_credential_access", "T1555.003", 88,
      ["browser profile artifact references", "credential decryption primitive",
        "database or file-copy primitive"]⟩,
    ⟨dumpsCredentials imports strings, 45, "os_credential_dumping", "T1003.001", 92,
      ["LSASS target reference", "process dump or credential extraction primitive"]⟩,
    ⟨controlsRemotely imports strings, 24, "remote_control_stack", "T1219.002", 76,
      ["screen-capture primitives", "input-monitoring or control primitives",
        "outbound network primitive"]⟩]

end rules

/-- A rule is applied. -/
def CapabilityAssessment.apply (assessment : CapabilityAssessment) (rule : CapabilityRule) :
    CapabilityAssessment :=
  assessment.pushIf rule.holds rule.score rule.capability.category rule.capability.mitreTechnique
    rule.capability.confidence rule.capability.evidence

/-- The assessment before its score is capped. -/
def applyRules (rules : List CapabilityRule) : CapabilityAssessment :=
  rules.foldl CapabilityAssessment.apply ⟨0, []⟩

/-- What the rules that hold count together. -/
def rulesScore (rules : List CapabilityRule) : ℕ :=
  ((rules.filter (·.holds)).map (·.score)).sum

section assess

variable {imports more : List String} {strings longer : String} {rules others : List CapabilityRule}
  {assessment : CapabilityAssessment} {capability : ThreatCapability}

theorem assess_eq : assess imports strings =
    { applyRules (capabilityRules imports strings) with
      score := min (applyRules (capabilityRules imports strings)).score 70 } := rfl

theorem capabilities_foldl_apply :
    (rules.foldl CapabilityAssessment.apply assessment).capabilities =
      assessment.capabilities ++ (rules.filter (·.holds)).map (·.capability) := by
  induction rules generalizing assessment with
  | nil => simp
  | cons rule rest ih =>
      rw [List.foldl_cons, ih]
      unfold CapabilityAssessment.apply CapabilityAssessment.pushIf CapabilityAssessment.push
      cases hholds : rule.holds <;> simp [hholds]

@[simp]
theorem rulesScore_nil : rulesScore [] = 0 := rfl

theorem rulesScore_cons (rule : CapabilityRule) (rest : List CapabilityRule) :
    rulesScore (rule :: rest) = (if rule.holds then rule.score else 0) + rulesScore rest := by
  cases hholds : rule.holds <;> simp [rulesScore, hholds]

theorem score_foldl_apply (h : assessment.score + rulesScore rules ≤ 65535) :
    (rules.foldl CapabilityAssessment.apply assessment).score =
      assessment.score + rulesScore rules := by
  induction rules generalizing assessment with
  | nil => simp
  | cons rule rest ih =>
      have happly : (assessment.apply rule).score =
          assessment.score + if rule.holds then rule.score else 0 := by
        unfold CapabilityAssessment.apply CapabilityAssessment.pushIf CapabilityAssessment.push
          saturatingAdd16
        split_ifs with hholds
        · rw [rulesScore_cons, if_pos hholds] at h
          exact min_eq_left (by omega)
        · rfl
      rw [rulesScore_cons] at h
      rw [List.foldl_cons, ih (by rw [happly]; omega), happly, rulesScore_cons, add_assoc]

/-- The rules of an assessment count less than what saturates. -/
theorem rulesScore_le (imports : List String) (strings : String) :
    rulesScore (capabilityRules imports strings) ≤ 173 := by
  have hall : ((capabilityRules imports strings).map (·.score)).sum = 173 := rfl
  rw [← hall]
  exact (List.filter_sublist.map _).sum_le_sum fun _ _ => Nat.zero_le _

/-- **What is reported**: the capabilities of the rules that hold. -/
theorem mem_capabilities : capability ∈ (assess imports strings).capabilities ↔
    ∃ rule ∈ capabilityRules imports strings, rule.holds ∧ rule.capability = capability := by
  rw [assess_eq, applyRules, capabilities_foldl_apply]
  simp [and_assoc]

/-- **The score**: what the rules that hold count, and at most 70. -/
theorem score_assess (imports : List String) (strings : String) :
    (assess imports strings).score = min (rulesScore (capabilityRules imports strings)) 70 := by
  rw [assess_eq, applyRules, score_foldl_apply, zero_add]
  rw [zero_add]
  exact (rulesScore_le imports strings).trans (by decide)

end assess

/-! ## More imports and a longer text -/

/-- A rule that holds whenever another does, with the same score, and reports the same with at least
its evidence. -/
structure CapabilityRule.Below (rule other : CapabilityRule) : Prop where
  holds : rule.holds → other.holds
  score : rule.score = other.score
  category : rule.capability.category = other.capability.category
  technique : rule.capability.mitreTechnique = other.capability.mitreTechnique
  confidence : rule.capability.confidence = other.capability.confidence
  evidence : rule.capability.evidence.Sublist other.capability.evidence

/-- The capability is reported with the same technique and confidence, and at least its evidence. -/
def CapabilityAssessment.Reports (assessment : CapabilityAssessment)
    (capability : ThreatCapability) : Prop :=
  ∃ other ∈ assessment.capabilities, other.category = capability.category ∧
    other.mitreTechnique = capability.mitreTechnique ∧
    other.confidence = capability.confidence ∧ capability.evidence.Sublist other.evidence

section more

variable {imports more : List String} {strings longer : String} {names : List String}
  {rules others : List CapabilityRule}

theorem primitive_mono (hi : imports ⊆ more) (hs : containsStr longer strings) {name : String}
    (h : imports.contains name || containsStr strings name) :
    more.contains name || containsStr longer name := by
  rw [Bool.or_eq_true, List.contains_iff_mem] at *
  exact h.imp (@hi name) (containsStr_trans hs)

theorem primitiveCount_mono (hi : imports ⊆ more) (hs : containsStr longer strings)
    (names : List String) :
    primitiveCount imports strings names ≤ primitiveCount more longer names :=
  (List.monotone_filter_right names fun _ => primitive_mono hi hs).length_le

theorem hasPrimitive_mono (hi : imports ⊆ more) (hs : containsStr longer strings)
    (h : hasPrimitive imports strings names) : hasPrimitive more longer names := by
  unfold hasPrimitive at *
  rw [List.any_eq_true] at *
  exact h.imp fun _ h => h.imp_right (primitive_mono hi hs)

theorem hasAny_mono (hi : imports ⊆ more) (h : hasAny imports names) : hasAny more names := by
  unfold hasAny at *
  rw [List.any_eq_true] at *
  obtain ⟨name, hname, hmem⟩ := h
  exact ⟨name, hname, List.contains_iff_mem.mpr (hi (List.contains_iff_mem.mp hmem))⟩

theorem containsAny_mono (hs : containsStr longer strings) (h : containsAny strings names) :
    containsAny longer names := by
  unfold containsAny at *
  rw [List.any_eq_true] at *
  exact h.imp fun _ h => h.imp_right (containsStr_trans hs)

theorem importEvidence_mono (hi : imports ⊆ more) (names : List String) :
    (importEvidence imports names).Sublist (importEvidence more names) := by
  refine (List.monotone_filter_right names fun name h => ?_).map _
  exact List.contains_iff_mem.mpr (hi (List.contains_iff_mem.mp h))

theorem capturesScreen_mono (hi : imports ⊆ more) (hs : containsStr longer strings)
    (h : capturesScreen imports strings) : capturesScreen more longer := by
  unfold capturesScreen at *
  rw [decide_eq_true_eq] at *
  exact h.trans (primitiveCount_mono hi hs captureNames)

theorem handlesInput_mono (hi : imports ⊆ more) (hs : containsStr longer strings)
    (h : handlesInput imports strings) : handlesInput more longer := by
  unfold handlesInput at *
  rw [Bool.or_eq_true, decide_eq_true_eq] at *
  exact h.imp (fun h => h.trans_le (primitiveCount_mono hi hs keyboardNames))
    (hasPrimitive_mono hi hs)

/-- Every rule holds of the larger input when it holds of the smaller one. -/
theorem forall₂_below (hi : imports ⊆ more) (hs : containsStr longer strings) :
    List.Forall₂ CapabilityRule.Below (capabilityRules imports strings)
      (capabilityRules more longer) := by
  refine .cons ⟨?_, rfl, rfl, rfl, rfl, importEvidence_mono hi _⟩ <|
    .cons ⟨capturesScreen_mono hi hs, rfl, rfl, rfl, rfl, importEvidence_mono hi _⟩ <|
    .cons ⟨?_, rfl, rfl, rfl, rfl, importEvidence_mono hi _⟩ <|
    .cons ⟨?_, rfl, rfl, rfl, rfl, .refl _⟩ <|
    .cons ⟨?_, rfl, rfl, rfl, rfl, .refl _⟩ <| .cons ⟨?_, rfl, rfl, rfl, rfl, .refl _⟩ .nil
  · intro h
    simp only [capturesKeyboard, decide_eq_true_eq] at *
    exact h.trans (primitiveCount_mono hi hs keyboardNames)
  · intro h
    simp only [injectsProcess, Bool.and_eq_true] at *
    exact h.imp (And.imp (hasPrimitive_mono hi hs) (hasPrimitive_mono hi hs))
      (hasPrimitive_mono hi hs)
  · intro h
    simp only [accessesBrowser, decryptsSecrets, accessesDatabase, Bool.and_eq_true,
      Bool.or_eq_true] at *
    exact h.imp (And.imp (containsAny_mono hs) (Or.imp (hasAny_mono hi) (containsAny_mono hs)))
      (Or.imp (containsAny_mono hs) (hasAny_mono hi))
  · intro h
    simp only [dumpsCredentials, dumpsProcess, Bool.and_eq_true, Bool.or_eq_true] at *
    exact h.imp (containsStr_trans hs) (Or.imp (hasPrimitive_mono hi hs) (containsAny_mono hs))
  · intro h
    simp only [controlsRemotely, Bool.and_eq_true] at *
    exact h.imp (And.imp (capturesScreen_mono hi hs) (handlesInput_mono hi hs))
      (hasPrimitive_mono hi hs)

/-- Rules that hold more often count more. -/
theorem rulesScore_mono (h : List.Forall₂ CapabilityRule.Below rules others) :
    rulesScore rules ≤ rulesScore others := by
  induction h with
  | nil => exact Nat.le_refl _
  | @cons rule other rest others hbelow _ ih =>
      rw [rulesScore_cons, rulesScore_cons]
      refine Nat.add_le_add ?_ ih
      split_ifs with hrule hother
      · exact hbelow.score.le
      · exact absurd (hbelow.holds hrule) hother
      · exact Nat.zero_le _
      · exact Nat.le_refl _

/-- **More evidence never hides a capability**: with more imports and a longer text everything is
reported again, with at least the same evidence, and the score is at least as high; it never exceeds
70. -/
theorem assess_mono (hi : imports ⊆ more) (hs : containsStr longer strings) :
    (∀ capability ∈ (assess imports strings).capabilities,
      (assess more longer).Reports capability) ∧
      (assess imports strings).score ≤ (assess more longer).score ∧
      (assess imports strings).score ≤ 70 ∧ (assess more longer).score ≤ 70 := by
  have hbelow := forall₂_below hi hs
  refine ⟨?_, ?_, ?_, ?_⟩
  · intro capability hcapability
    obtain ⟨rule, hrule, hholds, rfl⟩ := mem_capabilities.mp hcapability
    obtain ⟨other, hother, h⟩ := exists_of_forall₂ hbelow hrule
    exact ⟨other.capability, mem_capabilities.mpr ⟨other, hother, h.holds hholds, rfl⟩,
      h.category.symm, h.technique.symm, h.confidence.symm, h.evidence⟩
  · rw [score_assess, score_assess]
    exact min_le_min_right 70 (rulesScore_mono hbelow)
  · exact score_assess imports strings ▸ min_le_right _ _
  · exact score_assess more longer ▸ min_le_right _ _

/-- One import more, and a longer text. -/
theorem assess_mono_capture :
    (["getdc"] ⊆ ["getdc", "bitblt"] ∧ containsStr "printwindow and connect" "printwindow") ∧
      (∀ capability ∈ (assess ["getdc"] "printwindow").capabilities,
        (assess ["getdc", "bitblt"] "printwindow and connect").Reports capability) ∧
      (assess ["getdc"] "printwindow").score ≤
        (assess ["getdc", "bitblt"] "printwindow and connect").score := by
  have hi : ["getdc"] ⊆ ["getdc", "bitblt"] := by decide
  have hs : containsStr "printwindow and connect" "printwindow" := by decide
  exact ⟨⟨hi, hs⟩, (assess_mono hi hs).1, (assess_mono hi hs).2.1⟩

end more

end OpenGuard.Detection
