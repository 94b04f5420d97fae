import OpenGuard.Detection.FileScan
import OpenGuard.Lib.Machine

/-!
# The header of an executable

The inspection of an executable, with every index and every sum checked as the machine does it.

* `inspectPeChecked`: nothing comes of it when an index is outside of the content, or a sum is no
  size.
* `PointsToHeader`, `headerFindings`: what the bytes of the content say.
* `inspectPe_inside`: **no index is outside and no sum overflows, and the findings are those of the
  header.**
-/

namespace OpenGuard.Detection

open OpenGuard.Lib

/-! ## The inspection on a machine -/

/-- One more reason, if it is there, and its score. -/
def addFinding (condition : Bool) (score : ℕ) (reason : String) (signals : Signals) :
    Option Signals :=
  if condition then
    (addSize 16 signals.score score).map fun sum => ⟨sum, signals.reasons ++ [reason]⟩
  else some signals

/-- Source: `scan.rs`, `inspect_pe` -/
def inspectPeChecked {width : ℕ} (engine : Engine) (content : Memory width) (fileSize : UInt64) :
    Option (ℕ × List String) :=
  if content.bytes.length < 64 then some (25, ["Truncated DOS/PE header"])
  else do
    let peOffset := sizeOrMaximum width (fromLe (← content.bytesFrom 0 [0x3c, 0x3d, 0x3e, 0x3f]))
    if peOffset < 64 || content.bytes.length < saturatingAddSize width peOffset 24 ||
        content.slice peOffset (saturatingAddSize width peOffset 4) ≠ some [0x50, 0x45, 0, 0] then
      return (25, ["Malformed PE header"])
    else
      let sectionCount := fromLe (← content.bytesFrom peOffset [6, 7])
      let timestamp := fromLe (← content.bytesFrom peOffset [8, 9, 10, 11])
      let signals ← addFinding (sectionCount = 0 || 32 < sectionCount) 20
        ("Unusual PE section count (" ++ toString sectionCount ++ ")") ⟨0, []⟩
      let signals ← addFinding (timestamp = 0) 5 "PE build timestamp is zero" signals
      let sample ← content.slice 0 (min content.bytes.length (2 * 1024 * 1024))
      let signals ←
        match engine.highEntropy sample with
        | some entropy =>
            addFinding (4096 ≤ sample.length) 18
              ("High file entropy may indicate packing or encryption (" ++ entropy ++ ")") signals
        | none => some signals
      let signals ← addFinding (fileSize < 512) 10 "PE file is unusually small" signals
      return (signals.score, signals.reasons)

/-! ## What the bytes say -/

/-- The offset at `0x3c` leads behind the first header, to a signature with a header behind it. -/
def PointsToHeader (content : List UInt8) : Prop :=
  64 ≤ le32 content 0x3c ∧ le32 content 0x3c + 24 ≤ content.length ∧
    bytesAt content (le32 content 0x3c) 4 = [0x50, 0x45, 0, 0]

instance : DecidablePred PointsToHeader := fun content =>
  inferInstanceAs (Decidable (64 ≤ le32 content 0x3c ∧ le32 content 0x3c + 24 ≤ content.length ∧
    bytesAt content (le32 content 0x3c) 4 = [0x50, 0x45, 0, 0]))

/-- A finding, if it is there. -/
def findingIf (condition : Bool) (score : ℕ) (reason : String) : List (ℕ × String) :=
  if condition then [(score, reason)] else []

/-- The findings of a header with so many sections and that time stamp. -/
def headerFindings (sectionCount timestamp : ℕ) : List (ℕ × String) :=
  findingIf (sectionCount = 0 || 32 < sectionCount) 20
      ("Unusual PE section count (" ++ toString sectionCount ++ ")") ++
    findingIf (timestamp = 0) 5 "PE build timestamp is zero"

/-- The finding of the entropy of a sample. -/
def entropyFindings (engine : Engine) (sample : List UInt8) : List (ℕ × String) :=
  match engine.highEntropy sample with
  | some entropy =>
      findingIf (4096 ≤ sample.length) 18
        ("High file entropy may indicate packing or encryption (" ++ entropy ++ ")")
  | none => []

/-- The findings of a content that points to a header. -/
def peFindings (engine : Engine) (content : List UInt8) (fileSize : UInt64) : List (ℕ × String) :=
  let peOffset := le32 content 0x3c
  headerFindings (le16 content (peOffset + 6)) (le32 content (peOffset + 8)) ++
    entropyFindings engine (content.take (2 * 1024 * 1024)) ++
    findingIf (fileSize < 512) 10 "PE file is unusually small"

/-- The sum of the scores, and the reasons. -/
def totals (findings : List (ℕ × String)) : Signals :=
  ⟨(findings.map Prod.fst).sum, findings.map Prod.snd⟩

section header

variable {width : ℕ} {content : List UInt8} {memory : Memory width} {engine : Engine}
  {fileSize : UInt64} {findings : List (ℕ × String)} {condition : Bool}
  {score bound place : ℕ}
  {reason : String}

/-! ## Findings one by one -/

theorem score_findingIf (h : (totals findings).score ≤ bound) :
    (totals (findings ++ findingIf condition score reason)).score ≤ bound + score := by
  have hadded : (totals (findingIf condition score reason)).score ≤ score := by
    cases condition <;> simp [totals, findingIf]
  have happend : (totals (findings ++ findingIf condition score reason)).score =
      (totals findings).score + (totals (findingIf condition score reason)).score := by
    simp [totals]
  omega

/-- A finding is added as long as the score is small. -/
theorem addFinding_totals (h : (totals findings).score ≤ bound) (hbound : bound + score < 2 ^ 16) :
    addFinding condition score reason (totals findings) =
      some (totals (findings ++ findingIf condition score reason)) := by
  cases condition with
  | false => simp [addFinding, findingIf]
  | true =>
      rw [addFinding, if_pos rfl, addSize_of_lt (by omega)]
      simp [totals, findingIf]

theorem addIf_totals (h : (totals findings).score ≤ bound) (hbound : bound + score < 2 ^ 16) :
    (totals findings).addIf condition score reason =
      totals (findings ++ findingIf condition score reason) := by
  cases condition with
  | false => simp [Signals.addIf, findingIf]
  | true =>
      have hsum : min ((totals findings).score + score) 65535 = (totals findings).score + score := by
        omega
      simp only [Signals.addIf, Signals.add, saturatingAdd16, hsum, if_true]
      simp [totals, findingIf]

/-- The findings of the header. -/
theorem header_totals (sectionCount timestamp : ℕ) :
    (Signals.addIf ⟨0, []⟩ (sectionCount = 0 || 32 < sectionCount) 20
      ("Unusual PE section count (" ++ toString sectionCount ++ ")")).addIf (timestamp = 0) 5
        "PE build timestamp is zero" = totals (headerFindings sectionCount timestamp) := by
  have hstart : (⟨0, []⟩ : Signals) = totals [] := rfl
  rw [hstart, addIf_totals (Nat.le_refl 0) (by decide),
    addIf_totals (score_findingIf (Nat.le_refl 0)) (by decide)]
  rfl

theorem header_checked {α : Type} (sectionCount timestamp : ℕ) (next : Signals → Option α) :
    ((addFinding (sectionCount = 0 || 32 < sectionCount) 20
      ("Unusual PE section count (" ++ toString sectionCount ++ ")") ⟨0, []⟩).bind fun signals =>
        (addFinding (timestamp = 0) 5 "PE build timestamp is zero" signals).bind next) =
      next (totals (headerFindings sectionCount timestamp)) := by
  have hstart : (⟨0, []⟩ : Signals) = totals [] := rfl
  rw [hstart, addFinding_totals (Nat.le_refl 0) (by decide), Option.bind_some,
    addFinding_totals (score_findingIf (Nat.le_refl 0)) (by decide)]
  rfl

/-- What a header counts stays small. -/
theorem score_header (sectionCount timestamp : ℕ) :
    (totals (headerFindings sectionCount timestamp)).score ≤ 25 :=
  score_findingIf (score_findingIf (Nat.le_refl (totals []).score))

/-! ## Numbers in the content -/

theorem fromLe_two (content : List UInt8) (place : ℕ) :
    fromLe [content.getD place 0, content.getD (place + 1) 0] = le16 content place := by
  simp [fromLe, le16]

theorem fromLe_four (content : List UInt8) (place : ℕ) :
    fromLe [content.getD place 0, content.getD (place + 1) 0, content.getD (place + 2) 0,
      content.getD (place + 3) 0] = le32 content place := by
  simp only [fromLe, List.foldr_cons, List.foldr_nil, le32, le16, Nat.add_assoc, Nat.reduceAdd]
  omega

/-- So many bytes, when there are. -/
theorem bytesAt_eq {count : ℕ} (h : place + count ≤ content.length) :
    bytesAt content place count = (List.range count).map fun k => content.getD (place + k) 0 := by
  refine List.ext_getElem (by simp [bytesAt]; omega) fun k hk _ => ?_
  have hlt : place + k < content.length := by
    simp [bytesAt] at hk
    omega
  simp [bytesAt, hlt]

/-- The number at the end of the first header. -/
theorem fromLe_offset (h : 64 ≤ content.length) :
    fromLe (bytesAt content 0x3c 4) = le32 content 0x3c := by
  rw [bytesAt_eq (by omega), ← fromLe_four]
  rfl

/-- What is checked of the offset. -/
theorem pointsToHeader_iff (h : 64 ≤ content.length) :
    (fromLe (bytesAt content 0x3c 4) < 64 ||
      content.length < fromLe (bytesAt content 0x3c 4) + 24 ||
      bytesAt content (fromLe (bytesAt content 0x3c 4)) 4 ≠ [0x50, 0x45, 0, 0]) = false ↔
      PointsToHeader content := by
  rw [fromLe_offset h]
  simp [PointsToHeader, and_assoc]

theorem sections_eq (h : place + 24 ≤ content.length) :
    fromLe (bytesAt content (place + 6) 2) = le16 content (place + 6) := by
  rw [bytesAt_eq (by omega), ← fromLe_two]
  rfl

theorem timestamp_eq (h : place + 24 ≤ content.length) :
    fromLe (bytesAt content (place + 8) 4) = le32 content (place + 8) := by
  rw [bytesAt_eq (by omega), ← fromLe_four]
  rfl

/-- The findings of the inspection are those of the header. -/
theorem inspectPe_eq : inspectPe engine content fileSize =
    if content.length < 64 then (25, ["Truncated DOS/PE header"])
    else if PointsToHeader content then
      ((totals (peFindings engine content fileSize)).score,
        (totals (peFindings engine content fileSize)).reasons)
    else (25, ["Malformed PE header"]) := by
  unfold inspectPe
  split_ifs with hshort hpoints
  · rfl
  · have hlong : 64 ≤ content.length := by omega
    have hfalse := (pointsToHeader_iff hlong).mpr hpoints
    have hbehind := hpoints.2.1
    dsimp only
    rw [hfalse, if_neg (by simp), fromLe_offset hlong, sections_eq hbehind, timestamp_eq hbehind]
    rw [header_totals]
    have hheader := score_header (le16 content (le32 content 0x3c + 6))
      (le32 content (le32 content 0x3c + 8))
    cases hentropy : engine.highEntropy (content.take (2 * 1024 * 1024)) with
    | none =>
        dsimp only
        rw [addIf_totals hheader (by decide)]
        simp only [peFindings, entropyFindings, hentropy, List.append_nil]
    | some entropy =>
        dsimp only
        rw [addIf_totals hheader (by decide), addIf_totals (score_findingIf hheader) (by decide)]
        simp only [peFindings, entropyFindings, hentropy]
  · have htrue := Bool.eq_true_of_not_eq_false fun hfalse =>
      hpoints ((pointsToHeader_iff (by omega)).mp hfalse)
    dsimp only
    rw [if_pos htrue]

/-! ## Nothing fails -/

/-- More than half of the sizes are too large for a place in the memory. -/
theorem length_lt_half (h : 64 ≤ memory.bytes.length) :
    memory.bytes.length + memory.bytes.length < 2 ^ width := by
  have hbounded := memory.bounded
  cases width with
  | zero =>
      simp only [Nat.zero_sub, pow_zero] at hbounded
      omega
  | succ width =>
      rw [Nat.add_sub_cancel] at hbounded
      rw [pow_succ]
      omega

/-- What is checked of the offset, on a machine. -/
theorem checked_iff (h : 64 ≤ memory.bytes.length) :
    (sizeOrMaximum width (le32 memory.bytes 0x3c) < 64 ||
      memory.bytes.length <
        saturatingAddSize width (sizeOrMaximum width (le32 memory.bytes 0x3c)) 24 ||
      memory.slice (sizeOrMaximum width (le32 memory.bytes 0x3c))
        (saturatingAddSize width (sizeOrMaximum width (le32 memory.bytes 0x3c)) 4) ≠
          some [0x50, 0x45, 0, 0]) = false ↔ PointsToHeader memory.bytes := by
  have hhalf := length_lt_half h
  by_cases hfits : le32 memory.bytes 0x3c + 24 < 2 ^ width
  · have hoffset : sizeOrMaximum width (le32 memory.bytes 0x3c) = le32 memory.bytes 0x3c := by
      unfold sizeOrMaximum
      omega
    have hbehind : saturatingAddSize width (le32 memory.bytes 0x3c) 24 =
        le32 memory.bytes 0x3c + 24 := by
      unfold saturatingAddSize
      omega
    have hsignature : saturatingAddSize width (le32 memory.bytes 0x3c) 4 =
        le32 memory.bytes 0x3c + 4 := by
      unfold saturatingAddSize
      omega
    rw [hoffset, hbehind, hsignature]
    simp only [Bool.or_eq_false_iff, decide_eq_false_iff_not, Nat.not_lt, not_not,
      Memory.slice_eq_some, Nat.add_sub_cancel_left, PointsToHeader, bytesAt]
    constructor
    · rintro ⟨⟨hfirst, hlength⟩, -, -, hfound⟩
      exact ⟨hfirst, hlength, hfound⟩
    · rintro ⟨hfirst, hlength, hfound⟩
      exact ⟨⟨hfirst, hlength⟩, Nat.le_add_right _ _, by omega, hfound⟩
  · -- the sum is cut to the largest size, which is no place in the memory
    have hcut : memory.bytes.length <
        saturatingAddSize width (sizeOrMaximum width (le32 memory.bytes 0x3c)) 24 := by
      unfold saturatingAddSize sizeOrMaximum
      omega
    simp only [hcut, decide_true, Bool.or_true, Bool.true_or, Bool.true_eq_false, false_iff]
    rintro ⟨-, hlength, -⟩
    omega

/-- An offset that is accepted is the one in the content. -/
theorem sizeOrMaximum_eq (h : PointsToHeader memory.bytes) :
    sizeOrMaximum width (le32 memory.bytes 0x3c) = le32 memory.bytes 0x3c := by
  have hlength := memory.length_lt
  have hbehind := h.2.1
  unfold sizeOrMaximum
  omega

/-- Two bytes in the memory. -/
theorem read_le16 (memory : Memory width) (place first : ℕ)
    (h : place + first + 1 < memory.bytes.length) :
    ∃ bytes, memory.bytesFrom place [first, first + 1] = some bytes ∧
      fromLe bytes = le16 memory.bytes (place + first) := by
  refine ⟨_, Memory.bytesFrom_eq (by simp; omega), ?_⟩
  rw [← fromLe_two]
  rfl

/-- Four bytes in the memory. -/
theorem read_le32 (memory : Memory width) (place first : ℕ)
    (h : place + first + 3 < memory.bytes.length) :
    ∃ bytes, memory.bytesFrom place [first, first + 1, first + 2, first + 3] = some bytes ∧
      fromLe bytes = le32 memory.bytes (place + first) := by
  refine ⟨_, Memory.bytesFrom_eq (by simp; omega), ?_⟩
  rw [← fromLe_four]
  rfl

/-- No index is outside of the content, and no sum overflows. -/
theorem inspectPeChecked_eq :
    inspectPeChecked engine memory fileSize = some (inspectPe engine memory.bytes fileSize) := by
  rw [inspectPe_eq, inspectPeChecked]
  split_ifs with hshort hpoints
  · rfl
  · have hlong : 64 ≤ memory.bytes.length := by omega
    have hbehind := hpoints.2.1
    obtain ⟨offset, hoffset, hoffsetvalue⟩ :
        ∃ bytes, memory.bytesFrom 0 [0x3c, 0x3d, 0x3e, 0x3f] = some bytes ∧
          fromLe bytes = le32 memory.bytes 0x3c := read_le32 memory 0 0x3c (by omega)
    obtain ⟨sections, hsections, hsectionsvalue⟩ :
        ∃ bytes, memory.bytesFrom (le32 memory.bytes 0x3c) [6, 7] = some bytes ∧
          fromLe bytes = le16 memory.bytes (le32 memory.bytes 0x3c + 6) :=
      read_le16 memory (le32 memory.bytes 0x3c) 6 (by omega)
    obtain ⟨timestamp, htimestamp, htimestampvalue⟩ :
        ∃ bytes, memory.bytesFrom (le32 memory.bytes 0x3c) [8, 9, 10, 11] = some bytes ∧
          fromLe bytes = le32 memory.bytes (le32 memory.bytes 0x3c + 8) :=
      read_le32 memory (le32 memory.bytes 0x3c) 8 (by omega)
    have hchecked := (checked_iff hlong).mpr hpoints
    rw [sizeOrMaximum_eq hpoints] at hchecked
    have hsample : memory.slice 0 (min memory.bytes.length (2 * 1024 * 1024)) =
        some (memory.bytes.take (2 * 1024 * 1024)) := by
      refine Memory.slice_eq_some.mpr ⟨Nat.zero_le _, Nat.min_le_left _ _, ?_⟩
      rw [List.drop_zero, Nat.sub_zero, List.take_eq_take_iff]
      omega
    simp only [hoffset, Option.bind_eq_bind, Option.bind_some, hoffsetvalue, hchecked,
      Bool.false_eq_true, if_false, sizeOrMaximum_eq hpoints, hsections, htimestamp,
      hsectionsvalue, htimestampvalue, hsample]
    have hheader := score_header (le16 memory.bytes (le32 memory.bytes 0x3c + 6))
      (le32 memory.bytes (le32 memory.bytes 0x3c + 8))
    rw [header_checked]
    cases hentropy : engine.highEntropy (memory.bytes.take (2 * 1024 * 1024)) with
    | none =>
        dsimp only
        rw [addFinding_totals hheader (by decide)]
        simp only [peFindings, entropyFindings, hentropy, List.append_nil]
        rfl
    | some entropy =>
        dsimp only
        rw [addFinding_totals hheader (by decide), Option.bind_some,
          addFinding_totals (score_findingIf hheader) (by decide)]
        simp only [peFindings, entropyFindings, hentropy]
        rfl
  · obtain ⟨offset, hoffset, hoffsetvalue⟩ :
        ∃ bytes, memory.bytesFrom 0 [0x3c, 0x3d, 0x3e, 0x3f] = some bytes ∧
          fromLe bytes = le32 memory.bytes 0x3c := read_le32 memory 0 0x3c (by omega)
    have hchecked := Bool.eq_true_of_not_eq_false fun hfalse =>
      hpoints ((checked_iff (by omega)).mp hfalse)
    simp only [hoffset, Option.bind_eq_bind, Option.bind_some, hoffsetvalue, hchecked, if_true]
    rfl

/-! ## Which answer there is -/

/-- Every reason of a header begins with another letter than those of a content without one. -/
theorem head_peFindings {finding : ℕ × String} (h : finding ∈ peFindings engine content fileSize) :
    finding.2.toList.head? ∈ [some 'U', some 'P', some 'H'] := by
  have hmem {condition : Bool} {score : ℕ} {reason : String}
      (hfinding : finding ∈ findingIf condition score reason) : finding = (score, reason) := by
    cases condition with
    | false => cases hfinding
    | true => exact List.mem_singleton.mp hfinding
  have hhead (c : Char) {start rest : String} (hstart : start.toList.head? = some c)
      (hc : some c ∈ [some 'U', some 'P', some 'H']) :
      (start ++ rest ++ ")").toList.head? ∈ [some 'U', some 'P', some 'H'] := by
    rwa [head?_toList_append (head?_toList_append hstart)]
  rcases List.mem_append.mp h with h | h
  · rcases List.mem_append.mp h with h | h
    · rcases List.mem_append.mp h with h | h
      · rw [hmem h]
        exact hhead 'U' (by decide) (by decide)
      · rw [hmem h]
        decide
    · unfold entropyFindings at h
      cases hentropy : engine.highEntropy (content.take (2 * 1024 * 1024)) with
      | none =>
          rw [hentropy] at h
          cases h
      | some entropy =>
          rw [hentropy] at h
          rw [hmem h]
          exact hhead 'H' (by decide) (by decide)
  · rw [hmem h]
    decide

/-- **The inspection stays in the content.** No index is outside of it and no sum overflows, whatever
its bytes are; the header is truncated when the content is shorter than 64 bytes, and malformed when
the offset at `0x3c` does not lead to a header; otherwise the findings are those of the header. -/
theorem inspectPe_inside :
    inspectPeChecked engine memory fileSize = some (inspectPe engine memory.bytes fileSize) ∧
      ((inspectPe engine memory.bytes fileSize).2 = ["Truncated DOS/PE header"] ↔
        memory.bytes.length < 64) ∧
      ((inspectPe engine memory.bytes fileSize).2 = ["Malformed PE header"] ↔
        64 ≤ memory.bytes.length ∧ ¬ PointsToHeader memory.bytes) ∧
      inspectPe engine memory.bytes fileSize =
        if memory.bytes.length < 64 then (25, ["Truncated DOS/PE header"])
        else if PointsToHeader memory.bytes then
          ((totals (peFindings engine memory.bytes fileSize)).score,
            (totals (peFindings engine memory.bytes fileSize)).reasons)
        else (25, ["Malformed PE header"]) := by
  have hother : ∀ text, text.toList.head? ∉ [some 'U', some 'P', some 'H'] →
      (totals (peFindings engine memory.bytes fileSize)).reasons ≠ [text] := by
    intro text htext hreasons
    have hmem : text ∈ (totals (peFindings engine memory.bytes fileSize)).reasons := by
      rw [hreasons]
      exact List.mem_singleton_self text
    obtain ⟨finding, hfinding, rfl⟩ := List.mem_map.mp hmem
    exact htext (head_peFindings hfinding)
  refine ⟨inspectPeChecked_eq, ?_, ?_, inspectPe_eq⟩
  · rw [inspectPe_eq]
    split_ifs with hshort hpoints
    · exact iff_of_true rfl hshort
    · exact iff_of_false (hother _ (by decide)) hshort
    · exact iff_of_false (by decide) hshort
  · rw [inspectPe_eq]
    split_ifs with hshort hpoints
    · exact iff_of_false (by decide) fun h => by omega
    · exact iff_of_false (hother _ (by decide)) fun h => h.2 hpoints
    · exact iff_of_true rfl ⟨by omega, hpoints⟩

end header

end OpenGuard.Detection
