import Mathlib
import OpenGuard.Lib.Text

/-!
# The lowercase of a string

`str::to_lowercase` takes the lowercase of every character from the tables of Unicode, of which
only some laws are used here. One character is treated by its surroundings: a capital sigma at the
end of a word has a lowercase of its own.

* `toLowercase_idem`, `toLowercase_toAsciiLowercase`: it takes no second pass, nor one before it for
  the letters of ASCII.
* `rsplitNext_toLowercase`: a character that belongs to no word cuts a string in parts whose
  lowercases are independent.
-/

namespace OpenGuard.Lib

theorem isAlpha_of_isUpper {c : Char} (h : c.isUpper) : c.isAlpha := by
  simp [Char.isAlpha, h]

/-- Only a letter of ASCII becomes one. -/
theorem toLower_eq_iff {c d : Char} (hd : d.isAlpha = false) : c.toLower = d ↔ c = d := by
  by_cases hupper : c.isUpper
  · have hc := isAlpha_of_isUpper hupper
    constructor
    · rintro rfl
      rw [Char.isAlpha_toLower_eq_isAlpha, hc] at hd
      cases hd
    · rintro rfl
      rw [hc] at hd
      cases hd
  · rw [Char.toLower_eq_of_not_isUpper hupper]

/-- What Unicode says of characters: the lowercase of each, and whether it is cased or can be
ignored between cased ones. -/
structure CaseTables where
  lowercase : Char → List Char
  cased : Char → Bool
  caseIgnorable : Char → Bool
  lowercase_ne_nil : ∀ c, lowercase c ≠ []
  /-- What is a lowercase is its own lowercase. -/
  settled : ∀ c, ∀ d ∈ lowercase c, lowercase d = [d]
  sigma : lowercase 'Σ' = ['σ'] ∧ lowercase 'σ' = ['σ'] ∧ lowercase 'ς' = ['ς'] ∧ cased 'ς'
  letters : ∀ c : Char, c.isAlpha → lowercase c = [c.toLower] ∧ cased c ∧ !caseIgnorable c

namespace CaseTables

variable (tables : CaseTables)

/-- After what can be ignored there is something cased.
`case_ignorable_then_cased` of the standard library -/
def casedFollows (chars : List Char) : Bool :=
  ((chars.dropWhile tables.caseIgnorable).head?).any tables.cased

/-- The lowercase of a character, before and after which there are others.
`map_uppercase_sigma` of the standard library -/
def lowerChar (before after : List Char) (c : Char) : List Char :=
  if c = 'Σ' then
    [if tables.casedFollows before && !tables.casedFollows after then 'ς' else 'σ']
  else tables.lowercase c

/-- The lowercase of the rest of a string; what is before it is in reverse. -/
def lowerFrom (before : List Char) : List Char → List Char
  | [] => []
  | c :: after => tables.lowerChar before after c ++ lowerFrom (c :: before) after

/-- `str::to_lowercase` -/
def toLowercase (s : String) : String := String.ofList (tables.lowerFrom [] s.toList)

variable {tables}

/-! ## What is a lowercase -/

/-- A character of a lowercase is its own lowercase, and no capital sigma. -/
theorem settled_of_mem_lowerChar {before after : List Char} {c d : Char}
    (h : d ∈ tables.lowerChar before after c) : tables.lowercase d = [d] ∧ d ≠ 'Σ' := by
  have hsettled : tables.lowercase d = [d] := by
    unfold lowerChar at h
    split_ifs at h
    · rw [List.mem_singleton.mp h]
      exact tables.sigma.2.2.1
    · rw [List.mem_singleton.mp h]
      exact tables.sigma.2.1
    · exact tables.settled c d h
  refine ⟨hsettled, ?_⟩
  rintro rfl
  rw [tables.sigma.1] at hsettled
  exact absurd (List.cons.inj hsettled).1 (by decide)

theorem settled_of_mem_lowerFrom {before chars : List Char} {d : Char}
    (h : d ∈ tables.lowerFrom before chars) : tables.lowercase d = [d] ∧ d ≠ 'Σ' := by
  induction chars generalizing before with
  | nil => cases h
  | cons c chars ih =>
      rcases List.mem_append.mp h with hchar | hrest
      · exact settled_of_mem_lowerChar hchar
      · exact ih hrest

/-- Characters that are their own lowercase stay. -/
theorem lowerFrom_eq_self {chars : List Char}
    (h : ∀ d ∈ chars, tables.lowercase d = [d] ∧ d ≠ 'Σ') (before : List Char) :
    tables.lowerFrom before chars = chars := by
  induction chars generalizing before with
  | nil => rfl
  | cons c chars ih =>
      obtain ⟨hc, hsigma⟩ := h c List.mem_cons_self
      rw [lowerFrom, lowerChar, if_neg hsigma, hc,
        ih fun d hd => h d (List.mem_cons_of_mem c hd)]
      rfl

/-- **A lowercase is its own lowercase.** -/
theorem toLowercase_idem (s : String) :
    tables.toLowercase (tables.toLowercase s) = tables.toLowercase s := by
  unfold toLowercase
  rw [String.toList_ofList]
  congr 1
  exact lowerFrom_eq_self (fun d hd => settled_of_mem_lowerFrom hd) []

/-- Only the empty string has an empty lowercase. -/
theorem toLowercase_eq_empty {s : String} : tables.toLowercase s = "" ↔ s = "" := by
  have hchars : tables.lowerFrom [] s.toList = [] ↔ s.toList = [] := by
    cases s.toList with
    | nil => simp [lowerFrom]
    | cons c chars =>
        simp only [lowerFrom, List.append_eq_nil_iff, List.cons_ne_nil, iff_false, not_and]
        intro hnil
        unfold lowerChar at hnil
        split_ifs at hnil
        exact absurd hnil (tables.lowercase_ne_nil c)
  rw [toLowercase, ← String.toList_inj, String.toList_ofList, ← String.toList_inj]
  exact hchars

/-! ## The letters of ASCII -/

/-- The lowercase of an ASCII letter has the properties of the letter. -/
theorem toLower_properties (tables : CaseTables) (c : Char) :
    tables.lowercase c.toLower = tables.lowercase c ∧ tables.cased c.toLower = tables.cased c ∧
      tables.caseIgnorable c.toLower = tables.caseIgnorable c := by
  by_cases hupper : c.isUpper
  · have hc := tables.letters c (isAlpha_of_isUpper hupper)
    have hlower := tables.letters c.toLower (by simpa using isAlpha_of_isUpper hupper)
    refine ⟨?_, hlower.2.1.trans hc.2.1.symm, ?_⟩
    · rw [hlower.1, hc.1, Char.toLower_toLower_eq_toLower]
    · have hignorable := hlower.2.2.trans hc.2.2.symm
      simpa using hignorable
  · rw [Char.toLower_eq_of_not_isUpper hupper]
    exact ⟨rfl, rfl, rfl⟩

theorem casedFollows_map_toLower (chars : List Char) :
    tables.casedFollows (chars.map Char.toLower) = tables.casedFollows chars := by
  induction chars with
  | nil => rfl
  | cons c chars ih =>
      obtain ⟨-, hcased, hignorable⟩ := tables.toLower_properties c
      unfold casedFollows at ih ⊢
      rw [List.map_cons, List.dropWhile_cons, List.dropWhile_cons, hignorable]
      split_ifs
      · exact ih
      · simp [hcased]

theorem toLower_eq_sigma {c : Char} : c.toLower = 'Σ' ↔ c = 'Σ' := toLower_eq_iff rfl

theorem lowerFrom_map_toLower (before chars : List Char) :
    tables.lowerFrom (before.map Char.toLower) (chars.map Char.toLower) =
      tables.lowerFrom before chars := by
  induction chars generalizing before with
  | nil => rfl
  | cons c chars ih =>
      rw [List.map_cons, lowerFrom, lowerFrom, ← List.map_cons, ih]
      congr 1
      simp only [lowerChar, toLower_eq_sigma, casedFollows_map_toLower,
        (tables.toLower_properties c).1]

/-- **The lowercase of ASCII comes first or not at all**: it makes no difference. -/
theorem toLowercase_toAsciiLowercase (s : String) :
    tables.toLowercase (toAsciiLowercase s) = tables.toLowercase s := by
  rw [toLowercase, toLowercase, toAsciiLowercase, String.toList_ofList]
  exact congrArg String.ofList (lowerFrom_map_toLower [] s.toList)

/-! ## A character between words -/

/-- The character belongs to no word: it is not cased and not ignored, and it is the lowercase of
itself and of nothing else. -/
structure Boundary (tables : CaseTables) (a : Char) : Prop where
  lowercase : tables.lowercase a = [a]
  only : ∀ c, a ∈ tables.lowercase c → c = a
  uncased : tables.cased a = false
  noticed : tables.caseIgnorable a = false

section boundary

variable {a : Char} (h : tables.Boundary a)

include h

theorem Boundary.ne_sigma : a ≠ 'Σ' := by
  rintro rfl
  have hlowercase := tables.sigma.1.symm.trans h.lowercase
  exact absurd (List.cons.inj hlowercase).1 (by decide)

theorem Boundary.casedFollows (near far : List Char) :
    tables.casedFollows (near ++ a :: far) = tables.casedFollows near := by
  unfold CaseTables.casedFollows
  induction near with
  | nil => simp [h.noticed, h.uncased]
  | cons c near ih =>
      rw [List.cons_append, List.dropWhile_cons, List.dropWhile_cons]
      split_ifs
      · exact ih
      · rfl

theorem Boundary.lowerFrom_before (near far chars : List Char) :
    tables.lowerFrom (near ++ a :: far) chars = tables.lowerFrom near chars := by
  induction chars generalizing near with
  | nil => rfl
  | cons c chars ih =>
      rw [lowerFrom, lowerFrom, ← List.cons_append, ih]
      simp only [lowerChar, h.casedFollows]

/-- The parts of a string before and after such a character have independent lowercases. -/
theorem Boundary.lowerFrom_append (before chars rest : List Char) :
    tables.lowerFrom before (chars ++ a :: rest) =
      tables.lowerFrom before chars ++ a :: tables.lowerFrom [] rest := by
  induction chars generalizing before with
  | nil =>
      have hrest := h.lowerFrom_before [] before rest
      rw [List.nil_append] at hrest
      simp only [lowerFrom, hrest, lowerChar, if_neg h.ne_sigma, h.lowercase, List.nil_append,
        List.cons_append]
  | cons c chars ih =>
      rw [List.cons_append, lowerFrom, lowerFrom, ih, ← List.append_assoc]
      simp only [lowerChar, h.casedFollows]

theorem Boundary.not_mem_lowerFrom {chars : List Char} (hchars : a ∉ chars)
    (before : List Char) : a ∉ tables.lowerFrom before chars := by
  induction chars generalizing before with
  | nil => exact hchars
  | cons c chars ih =>
      rw [List.mem_cons, not_or] at hchars
      rw [lowerFrom, List.mem_append, not_or]
      refine ⟨fun hmem => ?_, ih hchars.2 _⟩
      unfold lowerChar at hmem
      split_ifs at hmem with hsigma hfinal
      · have hcased := tables.sigma.2.2.2
        rw [← List.mem_singleton.mp hmem, h.uncased] at hcased
        cases hcased
      · apply h.ne_sigma
        exact (h.only 'Σ' (by simp [tables.sigma.1, List.mem_singleton.mp hmem])).symm
      · exact hchars.1 (h.only c hmem).symm

/-- **The lowercase of the last part is the last part of the lowercase.** -/
theorem Boundary.rsplitNext_toLowercase (s : String) :
    rsplitNext (· == a) (tables.toLowercase s) = tables.toLowercase (rsplitNext (· == a) s) := by
  have hlast {chars : List Char} (hchars : a ∉ chars) (before : List Char) :
      ((before ++ a :: chars).reverse.takeWhile fun c => !(c == a)).reverse = chars := by
    rw [List.reverse_append, List.reverse_cons, List.append_assoc, List.takeWhile_append_of_pos]
    · simp
    · intro c hc
      have hne : c ≠ a := fun heq => hchars (heq ▸ List.mem_reverse.mp hc)
      simpa using hne
  have hall {chars : List Char} (hchars : a ∉ chars) :
      (chars.reverse.takeWhile fun c => !(c == a)).reverse = chars := by
    rw [List.takeWhile_eq_self_iff.mpr, List.reverse_reverse]
    intro c hc
    have hne : c ≠ a := fun heq => hchars (heq ▸ List.mem_reverse.mp hc)
    simpa using hne
  unfold rsplitNext toLowercase
  rw [String.toList_ofList, String.toList_ofList]
  congr 1
  by_cases hmem : a ∈ s.toList
  · obtain ⟨last, first, hsplit, hnot⟩ :=
      List.eq_append_cons_of_mem (List.mem_reverse.mpr hmem)
    have hchars : s.toList = first.reverse ++ a :: last.reverse := by
      rw [← List.reverse_reverse s.toList, hsplit]
      simp
    have hnot' : a ∉ last.reverse := by simpa using hnot
    rw [hchars, h.lowerFrom_append, hlast hnot', hlast (h.not_mem_lowerFrom hnot' [])]
  · rw [hall hmem, hall (h.not_mem_lowerFrom hmem [])]

end boundary

end CaseTables

end OpenGuard.Lib
