import Mathlib.Data.List.Induction
import Mathlib.Data.List.Nodup

/-!
# Lists without covered items

The items of a list are gone through in order, and one is kept when its key is not blank and none of
the items kept so far covers its key. What is kept may miss a key when items cover more than their
own key.

* `uncovered`: the items that are kept; `firsts` is the case in which an item covers its own key
  alone.
* `represents_uncovered_iff`: **every key is kept** exactly when no key that occurs for the first
  time is covered by the first item of an earlier key.
-/

namespace OpenGuard.Lib

variable {α κ : Type*}

section uncovered

variable [DecidableEq κ] (key : α → κ) (blank : κ) (covers : α → κ → Bool)

/-- The items that are kept. -/
def uncovered (items : List α) : List α :=
  items.foldl
    (fun kept item =>
      if key item ≠ blank ∧ ∀ other ∈ kept, covers other (key item) = false then kept ++ [item]
      else kept)
    []

/-- The first item of each key. -/
def firsts (items : List α) : List α :=
  uncovered key blank (fun item k => decide (key item = k)) items

/-- Every item is kept, or an earlier one with its key is. -/
def Represents (items kept : List α) : Prop :=
  ∀ before item after, items = before ++ item :: after → key item ≠ blank →
    item ∈ kept ∨ ∃ earlier ∈ before, earlier ∈ kept ∧ key earlier = key item

/-- No key that occurs for the first time is covered by the first item of an earlier key. -/
def NoneCovered (items : List α) : Prop :=
  ∀ before item after, items = before ++ item :: after → key item ≠ blank →
    (∃ earlier ∈ before, key earlier = key item) ∨
      ∀ earlier ∈ firsts key blank before, covers earlier (key item) = false

end uncovered

section lemmas

variable [DecidableEq κ] {key : α → κ} {blank : κ} {covers : α → κ → Bool} {items : List α}
  {item : α}

theorem uncovered_append_singleton :
    uncovered key blank covers (items ++ [item]) =
      if key item ≠ blank ∧
          ∀ other ∈ uncovered key blank covers items, covers other (key item) = false then
        uncovered key blank covers items ++ [item]
      else uncovered key blank covers items := by
  rw [uncovered, List.foldl_append]
  rfl

theorem uncovered_sublist : (uncovered key blank covers items).Sublist items := by
  induction items using List.reverseRecOn with
  | nil => exact List.Sublist.refl _
  | append_singleton items item ih =>
      rw [uncovered_append_singleton]
      split_ifs
      · exact ih.append (List.Sublist.refl _)
      · exact ih.trans (List.sublist_append_left _ _)

theorem uncovered_subset_append (later : List α) :
    uncovered key blank covers items ⊆ uncovered key blank covers (items ++ later) := by
  induction later using List.reverseRecOn with
  | nil => rw [List.append_nil]; exact fun _ => id
  | append_singleton later item ih =>
      rw [← List.append_assoc, uncovered_append_singleton]
      split_ifs
      · exact List.Subset.trans ih (List.subset_append_left _ _)
      · exact ih

/-- What stands before the end of a list with one more item. -/
theorem append_singleton_eq_iff {before after : List α} {last : α} :
    items ++ [last] = before ++ item :: after ↔
      (∃ rest, after = rest ++ [last] ∧ items = before ++ item :: rest) ∨
        after = [] ∧ before = items ∧ item = last := by
  constructor
  · intro h
    rcases List.eq_nil_or_concat after with rfl | ⟨rest, other, rfl⟩
    · obtain ⟨hitems, hlast⟩ := List.append_inj' h rfl
      exact Or.inr ⟨rfl, hitems.symm, (List.singleton_inj.mp hlast).symm⟩
    · rw [List.concat_eq_append, ← List.cons_append, ← List.append_assoc] at h
      obtain ⟨hitems, hlast⟩ := List.append_inj' h rfl
      rw [List.concat_eq_append, List.singleton_inj.mp hlast]
      exact Or.inl ⟨rest, rfl, hitems⟩
  · rintro (⟨rest, rfl, rfl⟩ | ⟨rfl, rfl, rfl⟩)
    · simp
    · rfl

/-- The keys are those of the first items. -/
theorem exists_mem_firsts (hmem : item ∈ items) (hne : key item ≠ blank) :
    ∃ first ∈ firsts key blank items, key first = key item := by
  induction items using List.reverseRecOn with
  | nil => exact absurd hmem List.not_mem_nil
  | append_singleton items last ih =>
      rcases List.mem_append.mp hmem with hold | hlast
      · obtain ⟨first, hfirst, hkey⟩ := ih hold
        exact ⟨first, uncovered_subset_append _ hfirst, hkey⟩
      · obtain rfl := List.mem_singleton.mp hlast
        unfold firsts
        rw [uncovered_append_singleton]
        split_ifs with hnew
        · exact ⟨item, List.mem_append_right _ hlast, rfl⟩
        · by_contra hnone
          refine hnew ⟨hne, fun other hother => decide_eq_false fun hkey => ?_⟩
          exact hnone ⟨other, hother, hkey⟩

theorem noneCovered_append_singleton :
    NoneCovered key blank covers (items ++ [item]) ↔
      NoneCovered key blank covers items ∧
        (key item ≠ blank → (∃ earlier ∈ items, key earlier = key item) ∨
          ∀ earlier ∈ firsts key blank items, covers earlier (key item) = false) := by
  constructor
  · intro h
    refine ⟨fun before other after hitems => ?_, h items item [] rfl⟩
    exact h before other (after ++ [item]) (by rw [hitems]; simp)
  · rintro ⟨hbefore, hlast⟩ before other after hitems
    rcases append_singleton_eq_iff.mp hitems with ⟨rest, -, hrest⟩ | ⟨-, rfl, rfl⟩
    · exact hbefore before other rest hrest
    · exact hlast

/-- If nothing is covered, the first items are kept. -/
theorem NoneCovered.uncovered_eq (hcovers : ∀ item, covers item (key item))
    (h : NoneCovered key blank covers items) :
    uncovered key blank covers items = firsts key blank items := by
  induction items using List.reverseRecOn with
  | nil => rfl
  | append_singleton items last ih =>
      obtain ⟨hbefore, hlast⟩ := noneCovered_append_singleton.mp h
      have hsame := ih hbefore
      unfold firsts at hsame ⊢
      rw [uncovered_append_singleton, uncovered_append_singleton, hsame]
      refine if_congr (and_congr_right fun hne => ⟨fun hnone other hother => ?_, fun hnew => ?_⟩)
        rfl rfl
      · refine decide_eq_false fun hkey => ?_
        have hcovered := hcovers other
        rw [hkey, hnone other hother] at hcovered
        exact Bool.false_ne_true hcovered
      · refine (hlast hne).resolve_left ?_
        rintro ⟨earlier, hearlier, hkey⟩
        obtain ⟨first, hfirst, hfirstKey⟩ := exists_mem_firsts hearlier (hkey ▸ hne)
        exact of_decide_eq_false (hnew first hfirst) (hfirstKey.trans hkey)

theorem represents_firsts : Represents key blank items (firsts key blank items) := by
  rintro before item after rfl hne
  have hmem : item ∈ before ++ [item] := List.mem_append_right _ (List.mem_singleton_self item)
  obtain ⟨first, hfirst, hkey⟩ := exists_mem_firsts hmem hne
  have hkept : first ∈ firsts key blank (before ++ item :: after) := by
    rw [List.append_cons]
    exact uncovered_subset_append _ hfirst
  rcases List.mem_append.mp (uncovered_sublist.subset hfirst) with hearlier | hself
  · exact Or.inr ⟨first, hearlier, hkept, hkey⟩
  · exact Or.inl (List.mem_singleton.mp hself ▸ hkept)

/-- **Every key is kept** exactly when no key that occurs for the first time is covered by the first
item of an earlier key. -/
theorem represents_uncovered_iff (hcovers : ∀ item, covers item (key item))
    (hnodup : items.Nodup) :
    Represents key blank items (uncovered key blank covers items) ↔
      NoneCovered key blank covers items := by
  refine ⟨fun h => ?_, fun h => h.uncovered_eq hcovers ▸ represents_firsts⟩
  induction items using List.reverseRecOn with
  | nil => intro before item after hitems; simp at hitems
  | append_singleton items last ih =>
      obtain ⟨hitems, -, hdisjoint⟩ := List.nodup_append.mp hnodup
      have hlast : last ∉ items := fun hmem =>
        hdisjoint last hmem last (List.mem_singleton_self last) rfl
      have hkept : ∀ item ∈ items, item ∈ uncovered key blank covers (items ++ [last]) →
          item ∈ uncovered key blank covers items := by
        intro item hmem hkept
        rw [uncovered_append_singleton] at hkept
        split_ifs at hkept
        · refine (List.mem_append.mp hkept).resolve_right fun hself => hlast ?_
          exact List.mem_singleton.mp hself ▸ hmem
        · exact hkept
      have hbefore : NoneCovered key blank covers items := by
        refine ih hitems fun before item after hsplit hne => ?_
        have hmem : ∀ other ∈ before ++ [item], other ∈ items := by
          intro other hother
          rw [hsplit, List.append_cons]
          exact List.mem_append_left _ hother
        rcases h before item (after ++ [last]) (by rw [hsplit]; simp) hne with
          hself | ⟨earlier, hearlier, hshown, hkey⟩
        · exact Or.inl (hkept item (hmem item (by simp)) hself)
        · exact Or.inr ⟨earlier, hearlier, hkept earlier (hmem earlier (by simp [hearlier])) hshown,
            hkey⟩
      refine noneCovered_append_singleton.mpr ⟨hbefore, fun hne => ?_⟩
      by_cases hsame : ∃ earlier ∈ items, key earlier = key last
      · exact Or.inl hsame
      · refine Or.inr fun earlier hearlier => ?_
        have hshown : last ∈ uncovered key blank covers (items ++ [last]) := by
          refine (h items last [] rfl hne).resolve_right ?_
          rintro ⟨other, hother, -, hkey⟩
          exact hsame ⟨other, hother, hkey⟩
        rw [uncovered_append_singleton] at hshown
        split_ifs at hshown with hcond
        · rw [← hbefore.uncovered_eq hcovers] at hearlier
          exact hcond.2 earlier hearlier
        · exact absurd (uncovered_sublist.subset hshown) hlast

end lemmas

end OpenGuard.Lib
