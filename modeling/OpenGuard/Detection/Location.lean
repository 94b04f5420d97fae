import OpenGuard.Detection.FileScan
import OpenGuard.Lib.Components
import OpenGuard.Lib.Lowercase

/-!
# Risky locations

An executable counts for more in a temporary directory or in the downloads of the user. The path of
the file is resolved first, and Windows gives it a prefix that the variables of the environment do
not have.

* `LiesBeneath`: a file is beneath a directory, by what both resolve to.
* `locationRecognized_iff`: **no risky location is recognized.**
-/

namespace OpenGuard.Detection

open OpenGuard.Lib

/-- The prefix of the paths that `canonicalize` gives. -/
def verbatimPrefix : String := "\\\\?\\"

/-- An ordinary path on a drive: a letter, a colon, and more. -/
def IsDrivePath (path : String) : Prop :=
  ∃ letter rest, path.toList = letter :: ':' :: rest ∧ letter.isAlpha = true

section location

variable (context : ScanContext) (path : String)

/-- The file is beneath the directory: the components of the one directory that its path resolves
to are the first of those of the one file. -/
def LiesBeneath (directory : String) : Prop :=
  ∃ file above, context.canonicalize path = some file ∧
    context.canonicalize directory = some above ∧ IsAbove '\\' (trimEndMatches '\\' above) file

/-- The file is beneath the directory that `TEMP` or `TMP` names. -/
def InTemporary : Prop :=
  ∃ name ∈ ["TEMP", "TMP"], ∃ value, context.envVar name = some value ∧
    LiesBeneath context path value

/-- The file is beneath the downloads of the user. -/
def InDownloads : Prop :=
  ∃ value, context.envVar "USERPROFILE" = some value ∧
    LiesBeneath context path (value ++ "\\Downloads")

/-- The place of a file counts for what it is. -/
structure LocationRecognized : Prop where
  temporary : InTemporary context path →
    locationRisk context path = (30, some "Executable is stored in a temporary directory")
  downloads : ¬InTemporary context path → InDownloads context path →
    locationRisk context path = (18, some "Executable is stored in Downloads")
  elsewhere : ¬InTemporary context path → ¬InDownloads context path →
    locationRisk context path = (0, none)

variable {context path}

/-- What is trimmed from the end of a path leaves its first character. -/
theorem head?_trimEndMatches {s : String} {a c : Char} (h : s.toList.head? = some a)
    (hne : a ≠ c) : (trimEndMatches c s).toList.head? = some a := by
  obtain ⟨rest, hs⟩ := List.head?_eq_some_iff.mp h
  rw [trimEndMatches, String.toList_ofList, hs, List.reverse_cons, List.dropWhile_append]
  split_ifs <;> simp [hne]

/-- The path of a directory in a variable does not start with a separator. -/
theorem head?_lowerRoot {value : String} (h : IsDrivePath value) :
    ∃ first, first ≠ '\\' ∧ (lowerRoot value).toList.head? = some first := by
  obtain ⟨letter, rest, hvalue, hletter⟩ := h
  have hslash : letter ≠ '/' := by
    rintro rfl
    exact absurd hletter (by decide)
  have hbackslash : letter ≠ '\\' := by
    rintro rfl
    exact absurd hletter (by decide)
  have hreplaced : (replaceChar value '/' '\\').toList.head? = some letter := by
    rw [replaceChar, String.toList_ofList, hvalue, List.map_cons, if_neg hslash]
    rfl
  refine ⟨letter.toLower, fun heq => hbackslash ((toLower_eq_iff rfl).mp heq), ?_⟩
  rw [lowerRoot, toAsciiLowercase, String.toList_ofList, List.head?_map,
    head?_trimEndMatches hreplaced hbackslash]
  rfl

/-- A string does not start with one that starts differently. -/
theorem startsWith_eq_false {s pattern : String} {a b : Char} (hs : s.toList.head? = some a)
    (hpattern : pattern.toList.head? = some b) (hne : b ≠ a) : startsWith s pattern = false := by
  obtain ⟨rest, hs⟩ := List.head?_eq_some_iff.mp hs
  obtain ⟨more, hpattern⟩ := List.head?_eq_some_iff.mp hpattern
  rw [startsWith, hs, hpattern]
  simp [List.isPrefixOf, hne]

/-- The path that is compared starts with a separator. -/
theorem head?_lowered {file : String} (h : startsWith file verbatimPrefix) :
    (toAsciiLowercase (replaceChar file '/' '\\')).toList.head? = some '\\' := by
  rw [startsWith, List.isPrefixOf_iff_prefix] at h
  obtain ⟨rest, hrest⟩ := h
  have hhead : file.toList.head? = some '\\' := by
    rw [← hrest]
    rfl
  rw [toAsciiLowercase, replaceChar, String.toList_ofList, String.toList_ofList, List.head?_map,
    List.head?_map, hhead]
  rfl

/-- **The place of a file that exists is never counted**: what it resolves to starts with the
prefix, and no variable does. -/
theorem locationRisk_eq {file : String} (hfile : context.canonicalize path = some file)
    (hverbatim : startsWith file verbatimPrefix)
    (hvariables : ∀ name ∈ ["TEMP", "TMP", "USERPROFILE"], ∀ value,
      context.envVar name = some value → IsDrivePath value) :
    locationRisk context path = (0, none) := by
  have hlowered := head?_lowered hverbatim
  unfold locationRisk
  rw [hfile, Option.getD_some]
  generalize toAsciiLowercase (replaceChar file '/' '\\') = lowered at hlowered ⊢
  have hbelow : ∀ value ∈ ["TEMP", "TMP"].filterMap context.envVar,
      (lowerRoot value ≠ "" && (lowered = lowerRoot value ||
        startsWith lowered (lowerRoot value ++ "\\"))) = false := by
    intro value hvalue
    obtain ⟨name, hname, henv⟩ := List.mem_filterMap.mp hvalue
    obtain ⟨first, hne, hfirst⟩ := head?_lowerRoot
      (hvariables name (List.mem_of_mem_take (i := 2) hname) value henv)
    have hdifferent : lowered ≠ lowerRoot value := by
      rintro rfl
      exact hne (Option.some.inj (hfirst.symm.trans hlowered))
    simp [hdifferent, startsWith_eq_false hlowered (head?_toList_append hfirst) hne]
  have hany : (["TEMP", "TMP"].filterMap context.envVar).any (fun value =>
      lowerRoot value ≠ "" && (lowered = lowerRoot value ||
        startsWith lowered (lowerRoot value ++ "\\"))) = false := by
    rw [List.any_eq_false]
    intro value hvalue
    rw [hbelow value hvalue]
    exact Bool.false_ne_true
  simp only [hany, Bool.false_eq_true, if_false]
  cases hprofile : context.envVar "USERPROFILE" with
  | none => rfl
  | some value =>
      obtain ⟨first, hne, hfirst⟩ := head?_lowerRoot
        (hvariables "USERPROFILE" (by simp) value hprofile)
      simp only [startsWith_eq_false hlowered (head?_toList_append hfirst) hne,
        Bool.false_eq_true, if_false]

/-- **A location is recognized for what it is exactly when there is nothing to recognize**: the
file is neither beneath the temporary directories nor beneath the downloads. -/
theorem locationRecognized_iff (context : ScanContext) (path file : String)
    (hfile : context.canonicalize path = some file) (hverbatim : startsWith file verbatimPrefix)
    (hvariables : ∀ name ∈ ["TEMP", "TMP", "USERPROFILE"], ∀ value,
      context.envVar name = some value → IsDrivePath value) :
    LocationRecognized context path ↔ ¬InTemporary context path ∧ ¬InDownloads context path := by
  have hrisk := locationRisk_eq hfile hverbatim hvariables
  constructor
  · intro h
    have htemporary : ¬InTemporary context path := by
      intro hin
      have hscore := hrisk.symm.trans (h.temporary hin)
      cases hscore
    refine ⟨htemporary, fun hin => ?_⟩
    have hscore := hrisk.symm.trans (h.downloads htemporary hin)
    cases hscore
  · rintro ⟨htemporary, hdownloads⟩
    exact ⟨fun h => absurd h htemporary, fun _ h => absurd h hdownloads, fun _ _ => hrisk⟩

/-! ## A program in the temporary directory -/

/-- A system with a temporary directory, a program in it and another one. -/
def verbatimContext : ScanContext where
  canonicalize path :=
    if path ∈ ["C:\\Temp", "C:\\Temp\\a.exe", "C:\\b.exe"] then some (verbatimPrefix ++ path)
    else none
  envVar name := if name = "TEMP" then some "C:\\Temp" else none
  timestamp := "unix:0"

theorem isDrivePath_of_verbatimContext :
    ∀ name ∈ ["TEMP", "TMP", "USERPROFILE"], ∀ value,
      verbatimContext.envVar name = some value → IsDrivePath value := by
  intro name _ value hvalue
  simp only [verbatimContext] at hvalue
  split_ifs at hvalue
  rw [← Option.some.inj hvalue]
  exact ⟨'C', "\\Temp".toList, rfl, rfl⟩

/-- `locationRecognized_iff` for a program that is elsewhere. -/
theorem locationRecognized_elsewhere :
    LocationRecognized verbatimContext "C:\\b.exe" ↔
      ¬InTemporary verbatimContext "C:\\b.exe" ∧ ¬InDownloads verbatimContext "C:\\b.exe" :=
  locationRecognized_iff verbatimContext "C:\\b.exe" _ rfl rfl isDrivePath_of_verbatimContext

/-- A program in the directory that `TEMP` names is not recognized. -/
theorem temporary_not_recognized : ¬LocationRecognized verbatimContext "C:\\Temp\\a.exe" := by
  intro h
  have hin : InTemporary verbatimContext "C:\\Temp\\a.exe" :=
    ⟨"TEMP", by simp, "C:\\Temp", rfl, _, _, rfl, rfl, isAbove_iff.mpr ⟨"a.exe", rfl⟩⟩
  have hscore := h.temporary hin
  rw [locationRisk_eq rfl rfl isDrivePath_of_verbatimContext] at hscore
  cases hscore

end location

end OpenGuard.Detection
