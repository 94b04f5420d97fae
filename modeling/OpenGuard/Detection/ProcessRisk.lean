import OpenGuard.Detection.Risk
import OpenGuard.Lib.Lowercase

/-!
# The risk of a process

A process is judged by the place of its executable, its signature and its name. The name that is
reported is compared with the last component of the path: the one in the lowercase of ASCII, the
other in that of Unicode.

* `assessProcess`: the assessment; `processSignals`: the signals that it adds up.
* `honestName_iff`: **the comparison is right exactly for names whose capital letters are those of
  ASCII.**
-/

namespace OpenGuard.Detection

open OpenGuard.Lib OpenGuard.Domain

/-- Source: `risk.rs`, `RiskEnvironment` -/
structure RiskEnvironment where
  userProfile : String
  tempRoots : List String
  trustedRoots : List String
  deriving DecidableEq, Inhabited

/-- What Unicode says of characters; a backslash belongs to no word. -/
structure UnicodeTables extends CaseTables where
  backslash : toCaseTables.Boundary '\\'

/-- `str::trim_end_matches` with both separators. -/
def trimEndSeparators (s : String) : String :=
  String.ofList (s.toList.reverse.dropWhile isSeparator).reverse

/-- Source: `risk.rs`, `is_beneath` -/
def isBeneath (candidate root : String) : Bool :=
  root ≠ "" && (candidate == root || startsWith candidate (root ++ "\\"))

/-- The signal of a name that is not that of the executable.
Source: `risk.rs`, `assess_process` -/
def mismatchSignal : UInt8 × String :=
  (25, "Reported process name does not match the executable filename")

section assess

variable (tables : UnicodeTables) (name path : String) (signature : SignatureStatus)
  (environment : RiskEnvironment)

/-- Source: `risk.rs`, `normalize` -/
def normalize (value : String) : String :=
  tables.toLowercase (trimEndSeparators (replaceChar value '/' '\\'))

/-- Source: `risk.rs`, `assess_process` -/
def assessProcess (accessible : Bool) : RiskAssessment :=
  if !accessible || path = "" then
    ⟨5, .info, ["Windows limited access to executable details"]⟩
  else
    let loweredName := toAsciiLowercase name
    let loweredPath := normalize tables path
    let inTemp := environment.tempRoots.any (isBeneath loweredPath)
    let inDownloads := environment.userProfile ≠ "" &&
      isBeneath loweredPath (environment.userProfile ++ "\\downloads")
    let inTrustedRoot := environment.trustedRoots.any (isBeneath loweredPath)
    let result : RiskAssessment := ⟨0, .info, []⟩
    let result :=
      if inTemp then addSignal result (35, "Executable is running from a temporary directory")
      else if inDownloads then
        addSignal result (18, "Executable is running directly from Downloads")
      else if environment.userProfile ≠ "" && isBeneath loweredPath environment.userProfile then
        addSignal result (8, "Executable is running from a user-writable profile directory")
      else result
    let result :=
      if signature == .untrusted then
        addSignal result
          (25, "Authenticode trust verification failed or no trusted signature was found")
      else if signature == .unknown then
        addSignal result (5, "Authenticode trust could not be determined")
      else result
    let result :=
      if dualUseNames.contains loweredName then
        let result := addSignal result (7, "Process is a legitimate dual-use execution tool")
        if inTemp || inDownloads then
          addSignal result (13, "Dual-use tool was launched from a higher-risk location")
        else result
      else result
    let actualName := rsplitNext (· == '\\') loweredPath
    let result :=
      if actualName ≠ "" && loweredName ≠ "" && actualName ≠ loweredName then
        addSignal result mismatchSignal
      else result
    let result :=
      if !inTrustedRoot && signature == .untrusted then
        addSignal result (10, "Unsigned executable is outside Windows and Program Files")
      else result
    { result with severity := Severity.fromScore result.score }

/-- The signals of a process, with or without that of its name, in the order in which they are
added. -/
def processSignals (mismatch : Bool) : List (UInt8 × String) :=
  let loweredPath := normalize tables path
  let inTemp := environment.tempRoots.any (isBeneath loweredPath)
  let inDownloads := environment.userProfile ≠ "" &&
    isBeneath loweredPath (environment.userProfile ++ "\\downloads")
  let inTrustedRoot := environment.trustedRoots.any (isBeneath loweredPath)
  (if inTemp then [(35, "Executable is running from a temporary directory")]
  else if inDownloads then [(18, "Executable is running directly from Downloads")]
  else if environment.userProfile ≠ "" && isBeneath loweredPath environment.userProfile then
    [(8, "Executable is running from a user-writable profile directory")]
  else []) ++
  (if signature == .untrusted then
    [(25, "Authenticode trust verification failed or no trusted signature was found")]
  else if signature == .unknown then [(5, "Authenticode trust could not be determined")]
  else []) ++
  (if dualUseNames.contains (toAsciiLowercase name) then
    if inTemp || inDownloads then
      [(7, "Process is a legitimate dual-use execution tool"),
        (13, "Dual-use tool was launched from a higher-risk location")]
    else [(7, "Process is a legitimate dual-use execution tool")]
  else []) ++
  (if mismatch then [mismatchSignal] else []) ++
  if !inTrustedRoot && signature == .untrusted then
    [(10, "Unsigned executable is outside Windows and Program Files")]
  else []

/-- Signals are added up. -/
def assessmentOf (signals : List (UInt8 × String)) : RiskAssessment :=
  let result := signals.foldl addSignal ⟨0, .info, []⟩
  { result with severity := Severity.fromScore result.score }

/-- The name that is reported is not taken for that of the executable.
Source: `risk.rs`, `assess_process` -/
def nameMismatch : Bool :=
  let actualName := rsplitNext (· == '\\') (normalize tables path)
  let loweredName := toAsciiLowercase name
  actualName ≠ "" && loweredName ≠ "" && actualName ≠ loweredName

/-- **The assessment of a process that is accessible** adds up its signals. -/
theorem assessProcess_eq (hpath : path ≠ "") :
    assessProcess tables name path signature environment true =
      assessmentOf (processSignals tables name path signature environment
        (nameMismatch tables name path)) := by
  unfold assessProcess assessmentOf processSignals nameMismatch
  simp only [Bool.not_true, Bool.false_or, decide_eq_true_eq, hpath, if_false, List.foldl_append,
    foldl_ite, List.foldl_cons, List.foldl_nil]

end assess

/-! ## The name of the executable -/

/-- The last component of a path: what is between the last separator, if there is one, and the
separators at the end. -/
def IsFileName (path file : String) : Prop :=
  ∃ directory trailing : List Char, path.toList = directory ++ file.toList ++ trailing ∧
    file ≠ "" ∧ (∀ c ∈ file.toList, isSeparator c = false) ∧
    (∀ c ∈ trailing, isSeparator c = true) ∧
    (directory = [] ∨ ∃ before c, directory = before ++ [c] ∧ isSeparator c = true)

section file

variable {tables : UnicodeTables} {name path file : String} {signature : SignatureStatus}
  {environment : RiskEnvironment}

/-- A slash counts as a backslash. -/
def backslashed (c : Char) : Char := if c = '/' then '\\' else c

theorem toList_replaceChar (path : String) :
    (replaceChar path '/' '\\').toList = path.toList.map backslashed := String.toList_ofList

theorem backslashed_of_isSeparator {c : Char} (h : isSeparator c = true) :
    backslashed c = '\\' := by
  simp only [isSeparator, Bool.or_eq_true, beq_iff_eq] at h
  rcases h with rfl | rfl <;> rfl

theorem map_backslashed {chars : List Char} (h : ∀ c ∈ chars, isSeparator c = false) :
    chars.map backslashed = chars := by
  have hid : chars.map backslashed = chars.map id := by
    apply List.map_congr_left
    intro c hc
    have hne : c ≠ '/' := by
      rintro rfl
      exact absurd (h '/' hc) (by decide)
    exact if_neg hne
  rwa [List.map_id] at hid

theorem map_backslashed_trailing {chars : List Char} (h : ∀ c ∈ chars, isSeparator c = true) :
    chars.map backslashed = List.replicate chars.length '\\' := by
  rw [List.eq_replicate_iff]
  refine ⟨by simp, fun c hc => ?_⟩
  obtain ⟨d, hd, rfl⟩ := List.mem_map.mp hc
  exact backslashed_of_isSeparator (h d hd)

/-- What the separators at the end leave of a path. -/
theorem trimEndSeparators_of_isFileName (h : IsFileName path file) :
    ∃ directory : List Char,
      (trimEndSeparators (replaceChar path '/' '\\')).toList = directory ++ file.toList ∧
        (directory = [] ∨ ∃ before, directory = before ++ ['\\']) := by
  obtain ⟨directory, trailing, hpath, hfile, hname, htrailing, hdirectory⟩ := h
  refine ⟨directory.map backslashed, ?_, ?_⟩
  · have hchars : (replaceChar path '/' '\\').toList =
        directory.map backslashed ++ file.toList ++ List.replicate trailing.length '\\' := by
      rw [toList_replaceChar, hpath, List.map_append, List.map_append, map_backslashed hname,
        map_backslashed_trailing htrailing]
    obtain ⟨last, first, hsplit⟩ : ∃ last first, file.toList.reverse = last :: first := by
      cases hreverse : file.toList.reverse with
      | nil =>
          exact absurd (String.toList_eq_nil_iff.mp (List.reverse_eq_nil_iff.mp hreverse)) hfile
      | cons last first => exact ⟨last, first, rfl⟩
    have hlast : isSeparator last = false :=
      hname last (List.mem_reverse.mp (hsplit ▸ List.mem_cons_self))
    rw [trimEndSeparators, String.toList_ofList, hchars, List.reverse_append,
      List.reverse_replicate, List.dropWhile_append_of_pos]
    · rw [List.reverse_append, hsplit, List.cons_append,
        List.dropWhile_cons_of_neg (by simp [hlast]),
        ← List.cons_append, ← hsplit, ← List.reverse_append, List.reverse_reverse]
    · intro c hc
      rw [List.eq_of_mem_replicate hc]
      rfl
  · rcases hdirectory with rfl | ⟨before, c, rfl, hc⟩
    · exact Or.inl rfl
    · exact Or.inr ⟨before.map backslashed, by simp [backslashed_of_isSeparator hc]⟩

/-- **The name that the code takes from the path** is the lowercase of its last component. -/
theorem rsplitNext_normalize (h : IsFileName path file) :
    rsplitNext (· == '\\') (normalize tables path) = tables.toLowercase file := by
  have hname := h
  obtain ⟨-, -, -, -, hname, -⟩ := hname
  obtain ⟨directory, hchars, hdirectory⟩ := trimEndSeparators_of_isFileName h
  rw [normalize, tables.backslash.rsplitNext_toLowercase]
  have hall : ∀ c ∈ file.toList.reverse, (!(c == '\\')) = true := by
    intro c hc
    have hc := hname c (List.mem_reverse.mp hc)
    simp only [isSeparator, Bool.or_eq_false_iff] at hc
    simp [hc.1]
  have hlast : (trimEndSeparators (replaceChar path '/' '\\')).toList.reverse.takeWhile
      (fun c => !(c == '\\')) = file.toList.reverse := by
    rw [hchars, List.reverse_append, List.takeWhile_append_of_pos hall]
    rcases hdirectory with rfl | ⟨before, rfl⟩ <;> simp
  rw [rsplitNext, hlast, List.reverse_reverse, String.ofList_toList]

theorem toAsciiLowercase_eq_empty {s : String} : toAsciiLowercase s = "" ↔ s = "" := by
  rw [toAsciiLowercase, ← String.toList_inj, String.toList_ofList, ← String.toList_inj]
  exact List.map_eq_nil_iff

/-- When the name is taken for another one. -/
theorem nameMismatch_iff (h : IsFileName path file) :
    nameMismatch tables name path = true ↔
      name ≠ "" ∧ toAsciiLowercase name ≠ tables.toLowercase file := by
  have hfile : tables.toLowercase file ≠ "" := by
    obtain ⟨-, -, -, hne, -⟩ := h
    exact fun heq => hne (CaseTables.toLowercase_eq_empty.mp heq)
  rw [nameMismatch, rsplitNext_normalize h]
  simp only [Bool.and_eq_true, decide_eq_true_eq, ne_eq, hfile, toAsciiLowercase_eq_empty,
    not_false_eq_true, true_and]
  exact and_congr_right fun _ => not_congr eq_comm

theorem ne_empty_of_isFileName (h : IsFileName path file) : path ≠ "" := by
  rintro rfl
  obtain ⟨directory, trailing, hpath, hne, -⟩ := h
  simp only [String.toList_empty, List.nil_eq, List.append_eq_nil_iff] at hpath
  exact hne (String.toList_eq_nil_iff.mp hpath.1.2)

/-- No other signal has the reason of the name. -/
theorem mem_reasons_assessmentOf {mismatch : Bool} :
    mismatchSignal.2 ∈ (assessmentOf (processSignals tables name path signature environment
      mismatch)).reasons ↔ mismatch = true := by
  have hreasons (signals : List (UInt8 × String)) :
      (assessmentOf signals).reasons = signals.map (·.2) := reasons_foldl_addSignal signals _
  rw [hreasons]
  unfold processSignals
  cases mismatch with
  | true => simp
  | false =>
      simp only [Bool.false_eq_true, if_false, iff_false, List.map_append, List.mem_append, not_or]
      refine ⟨⟨⟨⟨?_, ?_⟩, ?_⟩, by simp⟩, ?_⟩ <;> split_ifs <;> decide

/-- A name is treated as it should be: one that is the name of the executable up to case adds
neither a reason nor a score, and any other one does. -/
structure HonestName (tables : UnicodeTables) (name path file : String)
    (signature : SignatureStatus) (environment : RiskEnvironment) : Prop where
  same : tables.toLowercase name = tables.toLowercase file →
    assessProcess tables name path signature environment true =
        assessmentOf (processSignals tables name path signature environment false) ∧
      mismatchSignal.2 ∉ (assessProcess tables name path signature environment true).reasons
  other : tables.toLowercase name ≠ tables.toLowercase file →
    assessProcess tables name path signature environment true =
        assessmentOf (processSignals tables name path signature environment true) ∧
      mismatchSignal.2 ∈ (assessProcess tables name path signature environment true).reasons

/-- Of a name that is not empty, the comparison can only say too often that it is another one. -/
theorem toAsciiLowercase_ne (h : tables.toLowercase name ≠ tables.toLowercase file) :
    toAsciiLowercase name ≠ tables.toLowercase file := by
  intro hsame
  apply h
  rw [← CaseTables.toLowercase_toAsciiLowercase, hsame, CaseTables.toLowercase_idem]

/-- **A name is treated as it should be exactly if it is not empty and, where it is the name of the
executable up to case, the lowercase of ASCII is its lowercase**: its capital letters are those of
ASCII. -/
theorem honestName_iff (tables : UnicodeTables) (name path file : String)
    (signature : SignatureStatus) (environment : RiskEnvironment) (hfile : IsFileName path file) :
    HonestName tables name path file signature environment ↔
      name ≠ "" ∧ (tables.toLowercase name = tables.toLowercase file →
        toAsciiLowercase name = tables.toLowercase name) := by
  have hassess := assessProcess_eq tables name path signature environment
    (ne_empty_of_isFileName hfile)
  have hmismatch : nameMismatch tables name path = true ↔
      name ≠ "" ∧ toAsciiLowercase name ≠ tables.toLowercase file := nameMismatch_iff hfile
  constructor
  · intro honest
    by_cases hsame : tables.toLowercase name = tables.toLowercase file
    · have hno := (honest.same hsame).2
      rw [hassess, mem_reasons_assessmentOf, hmismatch, not_and, not_ne_iff] at hno
      have hname : name ≠ "" := by
        rintro rfl
        obtain ⟨-, -, -, hne, -⟩ := hfile
        rw [CaseTables.toLowercase_eq_empty.mpr rfl, eq_comm] at hsame
        exact hne (CaseTables.toLowercase_eq_empty.mp hsame)
      exact ⟨hname, fun _ => (hno hname).trans hsame.symm⟩
    · have hyes := (honest.other hsame).2
      rw [hassess, mem_reasons_assessmentOf, hmismatch] at hyes
      exact ⟨hyes.1, fun h => absurd h hsame⟩
  · rintro ⟨hname, hlower⟩
    constructor
    · intro hsame
      have hno : nameMismatch tables name path = false := by
        rw [← Bool.not_eq_true, hmismatch]
        exact fun h => h.2 ((hlower hsame).trans hsame)
      rw [hno] at hassess
      refine ⟨hassess, ?_⟩
      rw [hassess, mem_reasons_assessmentOf]
      exact Bool.false_ne_true
    · intro hother
      rw [hmismatch.mpr ⟨hname, toAsciiLowercase_ne hother⟩] at hassess
      refine ⟨hassess, ?_⟩
      rw [hassess, mem_reasons_assessmentOf]

/-! ## A capital letter outside ASCII -/

/-- Of the capital letters, those of ASCII, `Ä` and the sigma. -/
def umlautLowercase (c : Char) : List Char :=
  if c = 'Σ' then ['σ'] else if c = 'Ä' then ['ä'] else [c.toLower]

/-- What the tables of Unicode say of the letters of ASCII, `Ä` and the sigma, of the dot and of the
colon. -/
def umlautTables : UnicodeTables where
  lowercase := umlautLowercase
  cased c := c.isAlpha || ['Ä', 'ä', 'Σ', 'σ', 'ς'].contains c
  caseIgnorable c := ['.', ':'].contains c
  lowercase_ne_nil c := by
    unfold umlautLowercase
    split_ifs <;> simp
  settled c d hd := by
    unfold umlautLowercase at hd
    split_ifs at hd with hsigma humlaut
    · rw [List.mem_singleton.mp hd]
      rfl
    · rw [List.mem_singleton.mp hd]
      rfl
    · rw [List.mem_singleton.mp hd, umlautLowercase, if_neg, if_neg,
        Char.toLower_toLower_eq_toLower]
      · rwa [toLower_eq_iff rfl]
      · rwa [toLower_eq_iff rfl]
  sigma := ⟨rfl, rfl, rfl, rfl⟩
  letters c hc := by
    have hne (d : Char) (hd : d.isAlpha = false) : c ≠ d := by
      rintro rfl
      rw [hc] at hd
      cases hd
    refine ⟨?_, by simp [hc], ?_⟩
    · rw [umlautLowercase, if_neg (hne 'Σ' rfl), if_neg (hne 'Ä' rfl)]
    · simp [hne '.' rfl, hne ':' rfl]
  backslash :=
    { lowercase := rfl
      only := fun c hc => by
        replace hc : '\\' ∈ umlautLowercase c := hc
        unfold umlautLowercase at hc
        split_ifs at hc
        · simp at hc
        · simp at hc
        · exact (toLower_eq_iff rfl).mp (List.mem_singleton.mp hc).symm
      uncased := rfl
      noticed := rfl }

/-- `honestName_iff` for the name of a program in lowercase. -/
theorem honestName_tool :
    HonestName umlautTables "tool.exe" "C:\\Tools\\Tool.exe" "Tool.exe" .trusted ⟨"", [], []⟩ :=
  (honestName_iff umlautTables "tool.exe" "C:\\Tools\\Tool.exe" "Tool.exe" .trusted ⟨"", [], []⟩
    ⟨"C:\\Tools\\".toList, [], rfl, by decide, by simp [isSeparator], by simp,
      Or.inr ⟨"C:\\Tools".toList, '\\', rfl, rfl⟩⟩).mpr ⟨by decide, fun _ => rfl⟩

/-- A program that reports its own name, with a capital letter outside ASCII. -/
theorem umlaut_not_honestName :
    IsFileName "C:\\Tools\\Ärger.exe" "Ärger.exe" ∧
      ¬HonestName umlautTables "Ärger.exe" "C:\\Tools\\Ärger.exe" "Ärger.exe" .trusted
        ⟨"", [], []⟩ := by
  refine ⟨⟨"C:\\Tools\\".toList, [], rfl, by decide, by simp [isSeparator], by simp,
    Or.inr ⟨"C:\\Tools".toList, '\\', rfl, rfl⟩⟩, fun honest => ?_⟩
  have hno := (honest.same rfl).2
  rw [assessProcess_eq _ _ _ _ _ (by decide), mem_reasons_assessmentOf] at hno
  exact hno (by decide)

end file

end OpenGuard.Detection
