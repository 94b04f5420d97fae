import Mathlib.Data.List.Count
import Mathlib.Data.List.Perm.Basic

/-!
# The first elements of a sorted list

The rank of an element is the number of elements before it, which does not depend on how the list is
sorted. Over an asymmetric order the first elements of a sorted list are those of small rank.

* `rank`: the number of elements before an element.
* `mem_take_iff_rank_lt`: the first elements by their ranks.
* `first_rel_iff`: what it takes that the first elements are in a relation to all elements after
  them.
-/

namespace OpenGuard.Lib

variable {α : Type*} (before : α → α → Prop) [DecidableRel before]

/-- The number of elements before an element. -/
def rank (l : List α) (x : α) : ℕ := l.countP fun y => before y x

variable {before} {l m : List α} {x y : α} {count : ℕ}

theorem rank_perm (h : l.Perm m) : rank before l x = rank before m x := h.countP_eq _

/-- The first elements of a sorted list are those of small rank. -/
theorem mem_take_iff_rank_lt (hasymm : ∀ x y, before x y → ¬ before y x) (h : l.Pairwise before)
    (hx : x ∈ l) : x ∈ l.take count ↔ rank before l x < count := by
  induction l generalizing count with
  | nil => simp at hx
  | cons y l ih =>
      obtain ⟨hfirst, hrest⟩ := List.pairwise_cons.mp h
      rcases List.mem_cons.mp hx with rfl | hx
      · have hzero : rank before (x :: l) x = 0 := by
          refine List.countP_eq_zero.mpr fun z hz => ?_
          rcases List.mem_cons.mp hz with rfl | hz
          · simpa using fun hself => hasymm z z hself hself
          · simpa using hasymm x z (hfirst z hz)
        rw [hzero]
        cases count <;> simp
      · have hbefore : before y x := hfirst x hx
        have hne : x ≠ y := fun heq => hasymm y x hbefore (heq ▸ hbefore)
        have hsucc : rank before (y :: l) x = rank before l x + 1 := by simp [rank, hbefore]
        cases count with
        | zero => simp
        | succ count => simp [hsucc, hne, ih hrest hx]

/-- The first elements are in a relation to all elements after them exactly when every element of
small rank is in the relation to the elements after it. -/
theorem first_rel_iff {r : α → α → Prop} (hasymm : ∀ x y, before x y → ¬ before y x)
    (h : l.Pairwise before) :
    (l.take count).Pairwise r ∧ (∀ x ∈ l.take count, ∀ y ∈ l.drop count, r x y) ↔
      ∀ x ∈ l, ∀ y ∈ l, rank before l x < count → before x y → r x y := by
  have hsplit : l.take count ++ l.drop count = l := List.take_append_drop count l
  constructor
  · rintro ⟨hfirst, hlater⟩ x hx y hy hrank hbefore
    have hxFirst := (mem_take_iff_rank_lt hasymm h hx).mpr hrank
    rw [← hsplit] at hy
    rcases List.mem_append.mp hy with hyFirst | hyLater
    · have hsorted := h.sublist (List.take_sublist count l)
      have hordered : ∀ ⦃x⦄, x ∈ l.take count → ∀ ⦃y⦄, y ∈ l.take count → before x y → r x y := by
        apply List.Pairwise.forall_of_forall_of_flip
        · exact fun x _ hself => absurd hself (hasymm x x hself)
        · refine hfirst.imp ?_
          exact fun hr _ => hr
        · exact hsorted.imp fun hxy hyx => absurd hyx (hasymm _ _ hxy)
      exact hordered hxFirst hyFirst hbefore
    · exact hlater x hxFirst y hyLater
  · intro hall
    have hfirst : ∀ x ∈ l.take count, ∀ y ∈ l, before x y → r x y := by
      intro x hx y hy
      have hmem := List.mem_of_mem_take hx
      exact hall x hmem y hy ((mem_take_iff_rank_lt hasymm h hmem).mp hx)
    rw [← hsplit] at h
    obtain ⟨hsorted, -, hcross⟩ := List.pairwise_append.mp h
    refine ⟨hsorted.imp_of_mem fun hx hy => hfirst _ hx _ (List.mem_of_mem_take hy), ?_⟩
    exact fun x hx y hy => hfirst x hx y (List.mem_of_mem_drop hy) (hcross x hx y hy)

end OpenGuard.Lib
