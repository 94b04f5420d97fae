import OpenGuard.Lib.Text
import Mathlib.Data.List.Infix

/-!
# The operator `LIKE` and substrings

A text between two percent signs is a pattern for what contains the text, as long as no character of
it is a wildcard.

* `foldCase`: characters without their ASCII case, `containsFolded`: a text is a part of another one.
* `like_between_iff`: without wildcards the pattern is matched by what contains the text.
* `like_between_fill`: a text with wildcards is also matched by one without, which does not contain
  it.
-/

namespace OpenGuard.Lib

/-! ## Parts of a text -/

/-- A character that does not stand for itself in a pattern. -/
def isWildcard (c : Char) : Bool := c == '%' || c == '_'

/-- Characters without their ASCII case. -/
def foldCase (chars : List Char) : List Char := chars.map Char.toLower

/-- The text contains the part, when ASCII letters are compared without case. -/
def containsFolded (text part : String) : Bool :=
  decide (foldCase part.toList <:+: foldCase text.toList)

section like

variable {pattern part rest text : List Char}

/-- Cutting folded characters cuts the characters. -/
theorem exists_of_foldCase_append {front back : List Char}
    (h : foldCase text = front ++ back) :
    ∃ first last, text = first ++ last ∧ foldCase first = front ∧ foldCase last = back := by
  obtain ⟨first, last, rfl, hfirst, hlast⟩ := List.map_eq_append_iff.mp h
  exact ⟨first, last, rfl, hfirst, hlast⟩

theorem foldCase_append : foldCase (part ++ rest) = foldCase part ++ foldCase rest :=
  List.map_append

/-! ## Patterns -/

/-- A percent sign skips any number of characters. -/
theorem likeChars_percent :
    likeChars ('%' :: pattern) text = true ↔ ∃ later, later <:+ text ∧ likeChars pattern later := by
  rw [likeChars.eq_def]
  simp only [if_true, List.any_eq_true, List.mem_tails]

/-- The last percent sign takes what is left. -/
theorem likeChars_percent_end : likeChars ['%'] text = true :=
  likeChars_percent.mpr ⟨[], List.nil_suffix, rfl⟩

/-- Characters that are no wildcards are matched by the same ones, up to case. -/
theorem likeChars_literal (h : part.all fun c => !isWildcard c) :
    likeChars (part ++ rest) text = true ↔
      ∃ front back, text = front ++ back ∧ foldCase front = foldCase part ∧
        likeChars rest back := by
  induction part generalizing text with
  | nil =>
      constructor
      · exact fun hrest => ⟨[], text, rfl, rfl, hrest⟩
      · rintro ⟨front, back, rfl, hfront, hrest⟩
        rwa [List.map_eq_nil_iff.mp hfront]
  | cons c part ih =>
      rw [List.all_cons, Bool.and_eq_true] at h
      obtain ⟨hc, hpart⟩ := h
      have hpercent : c ≠ '%' := by rintro rfl; exact absurd hc (by decide)
      have hunderscore : c ≠ '_' := by rintro rfl; exact absurd hc (by decide)
      cases text with
      | nil =>
          rw [List.cons_append, likeChars, if_neg hpercent]
          constructor
          · intro hfalse; cases hfalse
          · rintro ⟨front, back, hsplit, hfront, -⟩
            obtain ⟨rfl, -⟩ := List.append_eq_nil_iff.mp hsplit.symm
            cases hfront
      | cons d text =>
          have hstep : likeChars (c :: part ++ rest) (d :: text) = true ↔
              c.toLower = d.toLower ∧ likeChars (part ++ rest) text = true := by
            rw [List.cons_append, likeChars, if_neg hpercent]
            simp [hunderscore]
          rw [hstep, ih hpart]
          constructor
          · rintro ⟨hsame, front, back, rfl, hfront, hrest⟩
            exact ⟨d :: front, back, rfl, congrArg₂ List.cons hsame.symm hfront, hrest⟩
          · rintro ⟨front, back, hsplit, hfront, hrest⟩
            cases front with
            | nil => cases hfront
            | cons first front =>
                obtain ⟨rfl, rfl⟩ := List.cons_eq_cons.mp hsplit
                obtain ⟨hsame, hfront⟩ := List.cons_eq_cons.mp hfront
                exact ⟨hsame.symm, front, back, rfl, hfront, hrest⟩

/-- **Between percent signs a text without wildcards is matched by what contains it.** -/
theorem like_between_iff {text part : String} (h : part.toList.all fun c => !isWildcard c) :
    like text ("%" ++ part ++ "%") = containsFolded text part := by
  have hpattern : ("%" ++ part ++ "%").toList = '%' :: (part.toList ++ ['%']) := by
    rw [String.toList_append, String.toList_append]
    rfl
  rw [Bool.eq_iff_iff, like, hpattern, likeChars_percent, containsFolded, decide_eq_true_eq]
  constructor
  · rintro ⟨later, ⟨before, hlater⟩, hmatch⟩
    obtain ⟨front, back, rfl, hfront, -⟩ := (likeChars_literal h).mp hmatch
    refine ⟨foldCase before, foldCase back, ?_⟩
    rw [← hlater, foldCase_append, foldCase_append, hfront, List.append_assoc]
  · rintro ⟨before, back, hfold⟩
    obtain ⟨first, last, hsplit, hfirst, -⟩ := exists_of_foldCase_append hfold.symm
    obtain ⟨skipped, front, rfl, -, hfront⟩ := exists_of_foldCase_append hfirst
    refine ⟨front ++ last, ⟨skipped, by rw [hsplit, List.append_assoc]⟩, ?_⟩
    exact (likeChars_literal h).mpr ⟨front, last, rfl, hfront, likeChars_percent_end⟩

/-! ## What wildcards match -/

/-- A letter in the place of each wildcard. -/
def fillWildcards (chars : List Char) : List Char :=
  chars.map fun c => if isWildcard c then 'x' else c

theorem likeChars_fill : likeChars (part ++ ['%']) (fillWildcards part) = true := by
  induction part with
  | nil => exact likeChars_percent_end
  | cons c part ih =>
      by_cases hpercent : c = '%'
      · subst hpercent
        exact likeChars_percent.mpr ⟨fillWildcards part, List.suffix_cons _ _, ih⟩
      · have hc : (c == '_' ||
            c.toLower == (if isWildcard c then 'x' else c).toLower) = true := by
          by_cases hunderscore : c = '_'
          · simp [hunderscore]
          · simp [isWildcard, hpercent, hunderscore]
        have hfill : fillWildcards (c :: part) =
            (if isWildcard c then 'x' else c) :: fillWildcards part := rfl
        rw [hfill, List.cons_append, likeChars, if_neg hpercent, hc, Bool.true_and]
        exact ih

/-- A text in which the wildcards are filled does not contain the text with them. -/
theorem not_infix_fill (h : ¬ part.all fun c => !isWildcard c) :
    ¬ foldCase part <:+: foldCase (fillWildcards part) := by
  intro hinfix
  have hlength : (foldCase part).length = (foldCase (fillWildcards part)).length := by
    simp [foldCase, fillWildcards]
  have hsame := hinfix.eq_of_length hlength
  simp only [List.all_eq_true, not_forall] at h
  obtain ⟨c, hmem, hc⟩ := h
  have hwild : isWildcard c = true := by simpa using hc
  have hfilled : c.toLower = (if isWildcard c then 'x' else c).toLower := by
    rw [foldCase, foldCase, fillWildcards, List.map_map] at hsame
    exact List.map_inj_left.mp hsame c hmem
  rw [if_pos hwild] at hfilled
  rcases Bool.or_eq_true_iff.mp hwild with hc | hc
  · rw [beq_iff_eq.mp hc] at hfilled
    exact absurd hfilled (by decide)
  · rw [beq_iff_eq.mp hc] at hfilled
    exact absurd hfilled (by decide)

/-- **A text with wildcards is matched by one that does not contain it.** -/
theorem like_between_fill {part : String} (h : ¬ part.toList.all fun c => !isWildcard c) :
    like (String.ofList (fillWildcards part.toList)) ("%" ++ part ++ "%") = true ∧
      containsFolded (String.ofList (fillWildcards part.toList)) part = false := by
  have hpattern : ("%" ++ part ++ "%").toList = '%' :: (part.toList ++ ['%']) := by
    rw [String.toList_append, String.toList_append]
    rfl
  constructor
  · rw [like, hpattern, String.toList_ofList]
    exact likeChars_percent.mpr ⟨_, List.suffix_rfl, likeChars_fill⟩
  · rw [containsFolded, decide_eq_false_iff_not, String.toList_ofList]
    exact not_infix_fill h

end like

end OpenGuard.Lib
