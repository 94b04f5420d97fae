import OpenGuard.Lib.Components
import OpenGuard.Storage.Policy

/-!
# What exclusions cover

An exclusion is stored under the key of its path. It covers the path with that key and, if it is
recursive, everything below.

* `mem_ownerRows`, `covers_iff`: the rows of an owner, and what one of them covers.
* `pathExcluded_covers`: **exclusions cover exactly their subtrees**, whatever the order in which
  they were added.
-/

namespace OpenGuard.Storage

open OpenGuard.Lib OpenGuard.Domain

/-- The exclusion under a key covers a path: it is that path, or it is recursive and lies above. -/
def Covers (key : String) (record : ExclusionRecord) (candidateKey : String) : Prop :=
  key = candidateKey ∨ record.recursive = true ∧ IsAbove '\\' key candidateKey

section coverage

variable {ownerSid candidateKey key : String} {record : ExclusionRecord} {rows others : Exclusions}

/-- What follows a key in a longer path starts with a separator exactly when the key lies above. -/
theorem any_stripPrefix_iff :
    ((stripPrefix candidateKey key).any fun suffix => startsWith suffix "\\") = true ↔
      IsAbove '\\' key candidateKey := by
  rw [isAbove_iff]
  unfold stripPrefix startsWith
  constructor
  · intro h
    split_ifs at h with hprefix
    · obtain ⟨suffix, hsuffix⟩ := List.isPrefixOf_iff_prefix.mp hprefix
      rw [← hsuffix, List.drop_left, Option.any_some, String.toList_ofList,
        List.isPrefixOf_iff_prefix] at h
      obtain ⟨rest, hrest⟩ := h
      rw [String.toList_ofList] at hrest
      exact ⟨String.ofList rest, String.toList_inj.mp (by simp [← hsuffix, ← hrest])⟩
    · cases h
  · rintro ⟨rest, rfl⟩
    simp [List.isPrefixOf_iff_prefix, List.append_assoc]

theorem covers_iff : covers candidateKey (key, record) = true ↔ Covers key record candidateKey := by
  rw [covers, Covers, Bool.or_eq_true, beq_iff_eq, Bool.and_eq_true, any_stripPrefix_iff,
    eq_comm]

/-- The rows of an owner are those that are stored for it. -/
theorem mem_ownerRows {ν : Type*} {rows : Table (String × String) ν} {value : ν} :
    (key, value) ∈ ownerRows ownerSid rows ↔ rows.lookup (ownerSid, key) = some value := by
  rw [← Table.mem_entries_iff, ownerRows, List.mem_insertionSort]
  simp only [List.mem_map, List.mem_filter, beq_iff_eq, Prod.mk.injEq]
  constructor
  · rintro ⟨⟨⟨owner, key'⟩, value'⟩, ⟨hrow, rfl⟩, rfl, rfl⟩
    exact hrow
  · intro hrow
    exact ⟨⟨(ownerSid, key), value⟩, ⟨hrow, rfl⟩, rfl, rfl⟩

/-- A path is excluded exactly when an exclusion of the owner covers it. -/
theorem pathExcluded_iff :
    pathExcluded none ownerSid candidateKey rows = .ok true ↔
      ∃ key record, rows.lookup (ownerSid, key) = some record ∧ Covers key record candidateKey := by
  rw [pathExcluded, call_none, Except.ok.injEq, List.any_eq_true]
  constructor
  · rintro ⟨⟨key, record⟩, hrow, hcovers⟩
    exact ⟨key, record, mem_ownerRows.mp hrow, covers_iff.mp hcovers⟩
  · rintro ⟨key, record, hrow, hcovers⟩
    exact ⟨(key, record), mem_ownerRows.mpr hrow, covers_iff.mpr hcovers⟩

/-- What is beside a path, with a name that only starts like its own, is not covered. -/
theorem not_covers_append {suffix : String} (hne : suffix ≠ "")
    (hsuffix : ¬startsWith suffix "\\") : ¬Covers key record (key ++ suffix) := by
  rintro (hsame | ⟨-, habove⟩)
  · exact hne (by simpa using congrArg String.toList hsame)
  · obtain ⟨rest, hrest⟩ := isAbove_iff.mp habove
    rw [String.append_assoc] at hrest
    apply hsuffix
    rw [String.append_right_inj] at hrest
    simp [hrest, startsWith]

/-- The answer depends on what is stored for the owner, and on nothing else. -/
theorem pathExcluded_eq_of_lookup
    (h : ∀ key, others.lookup (ownerSid, key) = rows.lookup (ownerSid, key)) :
    pathExcluded none ownerSid candidateKey others =
      pathExcluded none ownerSid candidateKey rows := by
  have hiff : pathExcluded none ownerSid candidateKey others = .ok true ↔
      pathExcluded none ownerSid candidateKey rows = .ok true := by
    simp only [pathExcluded_iff, h]
  rw [pathExcluded, pathExcluded, call_none, call_none, Except.ok.injEq, Except.ok.injEq] at hiff
  rw [pathExcluded, pathExcluded, call_none, call_none, Bool.eq_iff_iff.mpr hiff]

/-- Exclusions are added one after the other, each under its owner and key. -/
def addAll (additions : List ((String × String) × ExclusionRecord)) (rows : Exclusions) :
    Exclusions :=
  additions.foldl (fun rows added => (addExclusion none added.1.1 added.1.2 added.2 rows).2) rows

theorem lookup_addAll (additions : List ((String × String) × ExclusionRecord)) (rows : Exclusions)
    (key : String × String) :
    (addAll additions rows).lookup key =
      ((additions.reverse.find? fun added => added.1 = key).map Prod.snd).or (rows.lookup key) :=
  Table.lookup_foldl_insert additions rows key

/-- Among additions under different keys, the order does not matter. -/
theorem lookup_addAll_perm {additions permuted : List ((String × String) × ExclusionRecord)}
    (hperm : additions.Perm permuted) (hnodup : (additions.map Prod.fst).Nodup)
    (rows : Exclusions) (key : String × String) :
    (addAll permuted rows).lookup key = (addAll additions rows).lookup key := by
  have hfind {l : List ((String × String) × ExclusionRecord)} (hl : (l.map Prod.fst).Nodup)
      (added : (String × String) × ExclusionRecord) :
      l.reverse.find? (fun added => added.1 = key) = some added ↔ added ∈ l ∧ added.1 = key := by
    constructor
    · intro h
      exact ⟨List.mem_reverse.mp (List.mem_of_find?_eq_some h), by simpa using List.find?_some h⟩
    · rintro ⟨hmem, hkey⟩
      have hsome : (l.reverse.find? fun added => added.1 = key).isSome := by
        rw [List.find?_isSome]
        exact ⟨added, List.mem_reverse.mpr hmem, by simpa using hkey⟩
      obtain ⟨found, hfound⟩ := Option.isSome_iff_exists.mp hsome
      have hsame : found.1 = added.1 := by
        rw [hkey]
        simpa using List.find?_some hfound
      rw [hfound, List.inj_on_of_nodup_map hl
        (List.mem_reverse.mp (List.mem_of_find?_eq_some hfound)) hmem hsame]
  have hpermuted : (permuted.map Prod.fst).Nodup := (hperm.map Prod.fst).nodup_iff.mp hnodup
  have hsame : permuted.reverse.find? (fun added => added.1 = key) =
      additions.reverse.find? fun added => added.1 = key := by
    apply Option.ext
    intro added
    rw [hfind hpermuted, hfind hnodup, hperm.mem_iff]
  rw [lookup_addAll, lookup_addAll, hsame]

/-- **Exclusions cover exactly their subtrees.** A path is excluded if an exclusion of the owner
has its key, or is recursive and has a key above it. A name that only starts like an excluded one
does not make a path excluded. And neither the order in which exclusions were added matters, nor
anything else that leaves the same exclusions stored. -/
theorem pathExcluded_covers (ownerSid candidateKey : String) (rows : Exclusions) :
    (pathExcluded none ownerSid candidateKey rows = .ok true ↔
      ∃ key record, rows.lookup (ownerSid, key) = some record ∧
        (key = candidateKey ∨ record.recursive = true ∧
          components '\\' key <+: components '\\' candidateKey ∧
            components '\\' key ≠ components '\\' candidateKey)) ∧
      ((∀ key record, rows.lookup (ownerSid, key) = some record →
        ∃ suffix, candidateKey = key ++ suffix ∧ suffix ≠ "" ∧ ¬startsWith suffix "\\") →
          pathExcluded none ownerSid candidateKey rows = .ok false) ∧
      (∀ additions permuted, List.Perm additions permuted → (additions.map Prod.fst).Nodup →
        pathExcluded none ownerSid candidateKey (addAll permuted rows) =
          pathExcluded none ownerSid candidateKey (addAll additions rows)) ∧
      ∀ others : Exclusions,
        (∀ key, others.lookup (ownerSid, key) = rows.lookup (ownerSid, key)) →
        pathExcluded none ownerSid candidateKey others =
          pathExcluded none ownerSid candidateKey rows := by
  refine ⟨pathExcluded_iff, ?_, ?_, fun others => pathExcluded_eq_of_lookup⟩
  · intro hsiblings
    have hnot : ¬pathExcluded none ownerSid candidateKey rows = .ok true := by
      rw [pathExcluded_iff]
      rintro ⟨key, record, hrow, hcovers⟩
      obtain ⟨suffix, rfl, hne, hsuffix⟩ := hsiblings key record hrow
      exact not_covers_append hne hsuffix hcovers
    rw [pathExcluded, call_none, Except.ok.injEq, Bool.not_eq_true] at hnot
    rw [pathExcluded, call_none, hnot]
  · intro additions permuted hperm hnodup
    apply pathExcluded_eq_of_lookup
    intro key
    exact lookup_addAll_perm hperm hnodup rows (ownerSid, key)

end coverage

end OpenGuard.Storage
