import OpenGuard.Domain.Models
import OpenGuard.Lib.SortDedup
import OpenGuard.Lib.Text
import Mathlib.Algebra.Order.BigOperators.Group.List
import Mathlib.Algebra.Ring.Nat

/-!
# Cross-signal risk correlation

`correlateBehavior` adds the behaviour rules that fire for a process to its risk assessment: a
score that saturates at 100, and a reason per rule, sorted and without repetitions.

* `behaviorSignals`: the rules that fire, which depend on the process and its context but not on
  the assessment they are added to; `correlateBehavior_eq` rewrites the function to adding them
  one by one.
* `score_correlateBehavior` and `reasons_correlateBehavior`: what that adds up to.
* `correlateBehavior_idem_iff`: a second pass changes nothing exactly when no rule fires or the
  score is already saturated. The reasons never change on a second pass
  (`reasons_correlateBehavior_twice`); the score is what is added again.
-/

namespace OpenGuard.Detection

open OpenGuard.Lib OpenGuard.Domain

/-- Source: `risk.rs`, `DUAL_USE_NAMES` -/
def dualUseNames : List String :=
  ["certutil.exe", "cmd.exe", "cscript.exe", "mshta.exe", "powershell.exe", "pwsh.exe",
    "regsvr32.exe", "rundll32.exe", "wscript.exe"]

/-- Source: `risk.rs`, `OFFICE_PARENT_NAMES` -/
def officeParentNames : List String :=
  ["excel.exe", "msaccess.exe", "onenote.exe", "outlook.exe", "powerpnt.exe", "winword.exe"]

/-- Source: `risk.rs`, `BROWSER_PARENT_NAMES` -/
def browserParentNames : List String := ["brave.exe", "chrome.exe", "firefox.exe", "msedge.exe"]

/-- Source: `risk.rs`, `BehaviorContext` -/
structure BehaviorContext where
  parentName : String
  hasPublicNetwork : Bool
  suspiciousDestination : Bool
  maliciousDestination : Bool
  deriving DecidableEq, Inhabited

/-- `u8::saturating_add`. -/
def saturatingAdd (a b : UInt8) : UInt8 :=
  if a.toNat + b.toNat < 256 then a + b else 255

/-- Source: `risk.rs`, `add` -/
def add (score amount : UInt8) : UInt8 := min (saturatingAdd score amount) 100

/-- Adds one rule that fired: its amount to the score and its reason to the reasons. -/
def addSignal (result : RiskAssessment) (signal : UInt8 × String) : RiskAssessment :=
  { result with score := add result.score signal.1, reasons := result.reasons ++ [signal.2] }

section correlate

variable (name : String) (signature : SignatureStatus) (isNew : Bool) (context : BehaviorContext)

/-- Source: `risk.rs`, `correlate_behavior` -/
def correlateBehavior (base : RiskAssessment) : RiskAssessment :=
  let loweredName := toAsciiLowercase name
  let loweredParent := toAsciiLowercase context.parentName
  let isDualUse := dualUseNames.contains loweredName
  let result := base
  let result :=
    if context.maliciousDestination then
      addSignal result
        (50, "Behavior: process communicates with a locally classified malicious destination")
    else if context.suspiciousDestination && (isNew || signature != .trusted) then
      addSignal result
        (25, "Behavior: new or untrusted process communicates with a suspicious destination")
    else result
  let result :=
    if isNew && context.hasPublicNetwork then
      addSignal result
        (15, "Behavior: newly observed executable opened a public network connection")
    else result
  let result :=
    if signature == .untrusted && context.hasPublicNetwork then
      addSignal result (12, "Behavior: untrusted executable has active public network access")
    else result
  let result :=
    if isDualUse && officeParentNames.contains loweredParent then
      addSignal result
        (45, "Behavior: Office application " ++ context.parentName ++ " launched dual-use tool "
          ++ name)
    else if isDualUse && browserParentNames.contains loweredParent
        && (isNew || signature != .trusted) then
      addSignal result
        (25, "Behavior: browser " ++ context.parentName
          ++ " launched a new or untrusted dual-use tool " ++ name)
    else result
  { result with
    severity := Severity.fromScore result.score
    reasons := sortDedup result.reasons }

/-- The rules of `correlateBehavior` that fire, with their amounts and reasons in the order in
which they are added. -/
def behaviorSignals : List (UInt8 × String) :=
  let isDualUse := dualUseNames.contains (toAsciiLowercase name)
  let loweredParent := toAsciiLowercase context.parentName
  (if context.maliciousDestination then
    [(50, "Behavior: process communicates with a locally classified malicious destination")]
  else if context.suspiciousDestination && (isNew || signature != .trusted) then
    [(25, "Behavior: new or untrusted process communicates with a suspicious destination")]
  else []) ++
  (if isNew && context.hasPublicNetwork then
    [(15, "Behavior: newly observed executable opened a public network connection")]
  else []) ++
  (if signature == .untrusted && context.hasPublicNetwork then
    [(12, "Behavior: untrusted executable has active public network access")]
  else []) ++
  if isDualUse && officeParentNames.contains loweredParent then
    [(45, "Behavior: Office application " ++ context.parentName ++ " launched dual-use tool "
      ++ name)]
  else if isDualUse && browserParentNames.contains loweredParent
      && (isNew || signature != .trusted) then
    [(25, "Behavior: browser " ++ context.parentName
      ++ " launched a new or untrusted dual-use tool " ++ name)]
  else []

/-- The total amount of the rules that fire, before any saturation. -/
def behaviorWeight : ℕ := ((behaviorSignals name signature isNew context).map (·.1.toNat)).sum

end correlate

/-! ## Adding signals -/

theorem toNat_saturatingAdd (a b : UInt8) :
    (saturatingAdd a b).toNat = min 255 (a.toNat + b.toNat) := by
  unfold saturatingAdd
  split_ifs with h
  · rw [UInt8.toNat_add]
    omega
  · show 255 = _
    omega

theorem toNat_add (score amount : UInt8) :
    (add score amount).toNat = min 100 (score.toNat + amount.toNat) := by
  have hsat := toNat_saturatingAdd score amount
  unfold add
  show (if saturatingAdd score amount ≤ 100 then saturatingAdd score amount else 100).toNat = _
  split_ifs with h
  · have h' : (saturatingAdd score amount).toNat ≤ 100 := UInt8.le_iff_toNat_le.mp h
    omega
  · have h' : ¬ (saturatingAdd score amount).toNat ≤ 100 :=
      fun h' => h (UInt8.le_iff_toNat_le.mpr h')
    show 100 = _
    omega

/-- The score after adding a list of signals: unchanged when there are none, else the sum capped
at 100. -/
theorem score_foldl_addSignal (l : List (UInt8 × String)) (result : RiskAssessment) :
    (l.foldl addSignal result).score.toNat =
      if l = [] then result.score.toNat
      else min 100 (result.score.toNat + (l.map (·.1.toNat)).sum) := by
  induction l generalizing result with
  | nil => rfl
  | cons signal l ih =>
      rw [List.foldl_cons, ih, if_neg (List.cons_ne_nil _ _), List.map_cons, List.sum_cons]
      have hadd : (addSignal result signal).score.toNat =
          min 100 (result.score.toNat + signal.1.toNat) := toNat_add _ _
      split_ifs with h
      · subst h
        simpa using hadd
      · omega

theorem reasons_foldl_addSignal (l : List (UInt8 × String)) (result : RiskAssessment) :
    (l.foldl addSignal result).reasons = result.reasons ++ l.map (·.2) := by
  induction l generalizing result with
  | nil => simp
  | cons signal l ih =>
      rw [List.foldl_cons, ih]
      simp [addSignal]

/-! ## What one pass does -/

section pass

variable (name : String) (signature : SignatureStatus) (isNew : Bool) (context : BehaviorContext)
variable (base : RiskAssessment)

/-- The signals of a rule are added if it fires. -/
theorem foldl_ite (c : Prop) [Decidable c] (l m : List (UInt8 × String)) (result : RiskAssessment) :
    (if c then l else m).foldl addSignal result =
      if c then l.foldl addSignal result else m.foldl addSignal result :=
  apply_ite (List.foldl addSignal result) c l m

/-- One pass adds the signals in order and then settles severity and reasons. -/
theorem correlateBehavior_eq :
    correlateBehavior name signature isNew context base =
      let result := (behaviorSignals name signature isNew context).foldl addSignal base
      { result with
        severity := Severity.fromScore result.score
        reasons := sortDedup result.reasons } := by
  unfold correlateBehavior behaviorSignals
  simp only [List.foldl_append, foldl_ite, List.foldl_cons, List.foldl_nil]

theorem score_correlateBehavior :
    (correlateBehavior name signature isNew context base).score.toNat =
      if behaviorSignals name signature isNew context = [] then base.score.toNat
      else min 100 (base.score.toNat + behaviorWeight name signature isNew context) := by
  rw [correlateBehavior_eq]
  exact score_foldl_addSignal _ _

theorem reasons_correlateBehavior :
    (correlateBehavior name signature isNew context base).reasons =
      sortDedup (base.reasons ++ (behaviorSignals name signature isNew context).map (·.2)) := by
  rw [correlateBehavior_eq]
  exact congrArg sortDedup (reasons_foldl_addSignal _ _)

theorem severity_correlateBehavior :
    (correlateBehavior name signature isNew context base).severity =
      Severity.fromScore (correlateBehavior name signature isNew context base).score := by
  rw [correlateBehavior_eq]

/-- Every rule that fires adds to the score and gives a reason that starts with `Behavior:`. -/
theorem of_mem_behaviorSignals {signal : UInt8 × String}
    (h : signal ∈ behaviorSignals name signature isNew context) :
    0 < signal.1.toNat ∧ startsWith signal.2 "Behavior:" := by
  unfold behaviorSignals at h
  simp only [List.mem_append] at h
  rcases h with ((h | h) | h) | h <;> split_ifs at h <;>
    simp only [List.mem_singleton, List.not_mem_nil] at h <;> subst h
  · exact ⟨by decide, by decide +kernel⟩
  · exact ⟨by decide, by decide +kernel⟩
  · exact ⟨by decide, by decide +kernel⟩
  · exact ⟨by decide, by decide +kernel⟩
  · refine ⟨by simp, startsWith_append _ (startsWith_append _ (startsWith_append _ ?_))⟩
    decide
  · refine ⟨by simp, startsWith_append _ (startsWith_append _ (startsWith_append _ ?_))⟩
    decide

/-- If some rule fires, the score grows by at least one before it is capped. -/
theorem behaviorWeight_pos (h : behaviorSignals name signature isNew context ≠ []) :
    0 < behaviorWeight name signature isNew context := by
  obtain ⟨signal, hmem⟩ := List.exists_mem_of_ne_nil _ h
  have hle := List.single_le_sum (fun _ _ => Nat.zero_le _) _
    (List.mem_map_of_mem (f := fun s : UInt8 × String => s.1.toNat) hmem)
  exact (of_mem_behaviorSignals name signature isNew context hmem).1.trans_le hle

/-- A second pass finds all its reasons already there. -/
theorem reasons_correlateBehavior_twice :
    (correlateBehavior name signature isNew context
      (correlateBehavior name signature isNew context base)).reasons =
      (correlateBehavior name signature isNew context base).reasons := by
  simp only [reasons_correlateBehavior]
  exact sortDedup_append_of_subset (List.subset_append_right _ _)

/-- If the second pass leaves the score, it leaves the whole assessment. -/
theorem correlateBehavior_twice_of_score
    (h : (correlateBehavior name signature isNew context
        (correlateBehavior name signature isNew context base)).score =
      (correlateBehavior name signature isNew context base).score) :
    correlateBehavior name signature isNew context
        (correlateBehavior name signature isNew context base) =
      correlateBehavior name signature isNew context base := by
  have hseverity := severity_correlateBehavior name signature isNew context
    (correlateBehavior name signature isNew context base)
  rw [h, ← severity_correlateBehavior name signature isNew context base] at hseverity
  have hreasons := reasons_correlateBehavior_twice name signature isNew context base
  exact RiskAssessment.ext h hseverity hreasons

/-- **A second pass changes nothing exactly when no rule fires or the score is saturated.** The
reasons are the same after the second pass in any case; a score below the cap is added to again. -/
theorem correlateBehavior_idem_iff :
    correlateBehavior name signature isNew context
        (correlateBehavior name signature isNew context base) =
      correlateBehavior name signature isNew context base ↔
    behaviorSignals name signature isNew context = [] ∨
      100 ≤ base.score.toNat + behaviorWeight name signature isNew context := by
  have h₁ := score_correlateBehavior name signature isNew context base
  have h₂ := score_correlateBehavior name signature isNew context
    (correlateBehavior name signature isNew context base)
  have hpos := behaviorWeight_pos name signature isNew context
  by_cases hnil : behaviorSignals name signature isNew context = []
  · rw [if_pos hnil] at h₁ h₂
    refine iff_of_true ?_ (Or.inl hnil)
    exact correlateBehavior_twice_of_score name signature isNew context base (UInt8.toNat_inj.mp h₂)
  · rw [if_neg hnil] at h₁ h₂
    have hpos := hpos hnil
    constructor
    · intro heq
      rw [heq] at h₂
      exact Or.inr (by omega)
    · intro hor
      have hsat := hor.resolve_left hnil
      refine correlateBehavior_twice_of_score name signature isNew context base
        (UInt8.toNat_inj.mp ?_)
      omega

end pass

end OpenGuard.Detection
