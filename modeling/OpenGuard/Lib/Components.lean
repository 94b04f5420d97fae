import Mathlib.Data.List.Infix
import Mathlib.Data.String.Basic

/-!
# Components of a path

A path is cut into components at a separator. Whether one path lies above another is a matter of
their components: those of the one are the first of the other, which has more.

* `isAbove_iff`: the same in terms of the characters: the one, followed by a separator, is how the
  other starts.
-/

namespace OpenGuard.Lib

/-- The components between the separators. -/
def components (separator : Char) (path : String) : List (List Char) :=
  path.toList.splitOn separator

/-- The components of the one path are a proper prefix of those of the other. -/
def IsAbove (separator : Char) (path other : String) : Prop :=
  components separator path <+: components separator other ∧
    components separator path ≠ components separator other

section components

variable {separator : Char} {path other : String}

/-- Joining two lists of components one after the other. -/
theorem intercalate_append {a : Char} {l m : List (List Char)} (hl : l ≠ []) (hm : m ≠ []) :
    [a].intercalate (l ++ m) = [a].intercalate l ++ a :: [a].intercalate m := by
  induction l with
  | nil => exact absurd rfl hl
  | cons first l ih =>
      cases l with
      | nil => simp [List.intercalate_cons_of_ne_nil hm]
      | cons second l =>
          have hrest := ih (List.cons_ne_nil second l)
          simp only [List.cons_append, List.intercalate_cons_cons] at hrest ⊢
          rw [hrest]
          simp

theorem components_append (path rest : String) :
    components separator (path ++ String.singleton separator ++ rest) =
      components separator path ++ components separator rest := by
  simp [components, List.splitOn_append_cons_self]

/-- **A path lies above another exactly when the other is the path, a separator, and more.** -/
theorem isAbove_iff :
    IsAbove separator path other ↔
      ∃ rest, other = path ++ String.singleton separator ++ rest := by
  constructor
  · rintro ⟨⟨more, hmore⟩, hne⟩
    have hmore' : more ≠ [] := by
      rintro rfl
      exact hne (by simpa using hmore)
    refine ⟨String.ofList ([separator].intercalate more), ?_⟩
    have hchars := congrArg [separator].intercalate hmore
    rw [components, components, intercalate_append (List.splitOn_ne_nil _ _) hmore',
      List.intercalate_splitOn, List.intercalate_splitOn] at hchars
    apply String.toList_inj.mp
    simp [← hchars]
  · rintro ⟨rest, rfl⟩
    rw [IsAbove, components_append]
    refine ⟨List.prefix_append _ _, fun h => ?_⟩
    exact List.splitOn_ne_nil separator rest.toList (List.self_eq_append_right.mp h)

end components

end OpenGuard.Lib
