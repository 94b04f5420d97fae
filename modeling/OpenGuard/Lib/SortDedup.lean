import Mathlib.Data.List.Sort
import Mathlib.Data.List.Destutter

/-!
# Sorting a list and dropping repeated neighbours

`sortDedup l` is what `sort` followed by `dedup` leaves of a list over a linear order: `dedup`
only drops an element equal to the one before it, which after sorting is every repetition.

* `sortDedup_pairwise`: the result is strictly increasing; `mem_sortDedup`: it has the same
  elements.
* `sortDedup_eq_iff`: two lists have the same result exactly when they have the same elements,
  so `sortDedup_append_of_subset`: adding elements that are already there changes nothing.
-/

namespace OpenGuard.Lib

variable {α : Type*} [LinearOrder α]

/-- `sort` followed by `dedup`. -/
def sortDedup (l : List α) : List α := (l.insertionSort (· ≤ ·)).destutter (· ≠ ·)

theorem sortDedup_eq_dedup (l : List α) : sortDedup l = (l.insertionSort (· ≤ ·)).dedup :=
  (l.pairwise_insertionSort (· ≤ ·)).destutter_eq_dedup

@[simp] theorem mem_sortDedup {l : List α} {a : α} : a ∈ sortDedup l ↔ a ∈ l := by
  rw [sortDedup_eq_dedup, List.mem_dedup, (l.perm_insertionSort (· ≤ ·)).mem_iff]

/-- The result of `sortDedup` is strictly increasing. -/
theorem sortDedup_pairwise (l : List α) : (sortDedup l).Pairwise (· < ·) := by
  rw [sortDedup_eq_dedup]
  have hle := ((l.pairwise_insertionSort (· ≤ ·)).sublist
    (List.dedup_sublist (l.insertionSort (· ≤ ·))))
  have hne := List.nodup_dedup (l.insertionSort (· ≤ ·))
  exact (hle.and hne).imp fun h => lt_of_le_of_ne h.1 h.2

/-- Two lists sort and dedup to the same list exactly when they have the same elements. -/
theorem sortDedup_eq_iff {l m : List α} : sortDedup l = sortDedup m ↔ ∀ a, a ∈ l ↔ a ∈ m := by
  constructor
  · intro h a
    rw [← mem_sortDedup, h, mem_sortDedup]
  · intro h
    refine (sortDedup_pairwise l).eq_of_mem_iff (sortDedup_pairwise m) fun a => ?_
    rw [mem_sortDedup, mem_sortDedup, h a]

/-- Adding elements that are already in the list changes nothing. -/
theorem sortDedup_append_of_subset {l m : List α} (h : m ⊆ l) :
    sortDedup (sortDedup l ++ m) = sortDedup l := by
  refine sortDedup_eq_iff.mpr fun a => ?_
  rw [List.mem_append, mem_sortDedup]
  exact ⟨fun ha => ha.elim id fun hm => h hm, Or.inl⟩

theorem length_sortDedup_le (l : List α) : (sortDedup l).length ≤ l.length :=
  ((l.insertionSort (· ≤ ·)).destutter_sublist (· ≠ ·)).length_le.trans
    (l.perm_insertionSort (· ≤ ·)).length_eq.le

end OpenGuard.Lib
