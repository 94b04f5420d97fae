import OpenGuard.Service.PolicyRequests
import OpenGuard.Storage.Coverage

/-!
# The withdrawal of an exclusion

An exclusion is stored under a key that the service makes of the resolved path. A request to remove
it names the path that is shown, of which the service makes a key again: it resolves the path as it
is then.

* `pathKey`: the key of a path that is resolved.
* `Withdrawn`: what a withdrawal should do.
* `withdrawn_iff`: **an exclusion can be withdrawn exactly while the path that is shown leads to
  where it led when the exclusion was added.**
-/

namespace OpenGuard.Service

open OpenGuard.Lib OpenGuard.Domain OpenGuard.Storage

/-- The key of a path that is resolved.
Source: `main.rs`, `normalized_path_key` -/
def pathKey (resolved : String) : String :=
  let display := replaceChar resolved '/' '\\'
  let display :=
    match stripPrefix display "\\\\?\\UNC\\" with
    | some unc => "\\\\" ++ unc
    | none => (stripPrefix display "\\\\?\\").getD display
  toAsciiLowercase (trimEndMatches '\\' display)

/-- Where a path leads: a path that does not resolve leads to itself. -/
def leadsTo (canonicalize : String → Option String) (path : String) : String :=
  (canonicalize path).getD path

theorem normalizedPathKey_eq (canonicalize : String → Option String) (path : String) :
    normalizedPathKey canonicalize path = pathKey (leadsTo canonicalize path) := by
  unfold normalizedPathKey pathKey leadsTo
  rfl

section withdrawal

variable {clientSid path key other : String} {recursive : Bool} {choice : PolicyChoice}
  {record : ExclusionRecord} {rows : Exclusions}

/-- The exclusion that is stored under a key is withdrawn by the path that is listed for it: the
request succeeds, this exclusion is removed and no other, and a path is still excluded only because
of another one. -/
structure Withdrawn (clientSid key : String) (record : ExclusionRecord) (choice : PolicyChoice)
    (rows : Exclusions) : Prop where
  listed : ∃ records, listExclusions none clientSid rows = .ok records ∧ record ∈ records
  removed : removeExclusionRequest clientSid record.path choice rows =
    (.ok (), rows.erase (clientSid, key))
  uncovered : ∀ candidateKey,
    pathExcluded none clientSid candidateKey
        (removeExclusionRequest clientSid record.path choice rows).2 = .ok true ↔
      ∃ other record', other ≠ key ∧ rows.lookup (clientSid, other) = some record' ∧
        Covers other record' candidateKey

/-- An exclusion that is stored is listed. -/
theorem exists_listExclusions (h : rows.lookup (clientSid, key) = some record) :
    ∃ records, listExclusions none clientSid rows = .ok records ∧ record ∈ records := by
  refine ⟨_, rfl, ?_⟩
  rw [List.mem_insertionSort]
  exact List.mem_map.mpr ⟨(key, record), mem_ownerRows.mpr h, rfl⟩

/-- Without the exclusion under a key, what others cover is excluded. -/
theorem pathExcluded_erase (clientSid key candidateKey : String) (rows : Exclusions) :
    pathExcluded none clientSid candidateKey (rows.erase (clientSid, key)) = .ok true ↔
      ∃ other record', other ≠ key ∧ rows.lookup (clientSid, other) = some record' ∧
        Covers other record' candidateKey := by
  rw [pathExcluded_iff]
  apply exists_congr
  intro other
  by_cases hother : other = key
  · subst hother
    simp [AList.lookup_erase]
  · have hne : (clientSid, other) ≠ (clientSid, key) := by simpa using hother
    simp [AList.lookup_erase_ne hne, hother]

/-- What a request to remove an exclusion does, if the database works. -/
theorem removeExclusionRequest_of_lookup (hfault : choice.fault = none)
    (h : rows.lookup (clientSid, normalizedPathKey choice.canonicalize path) = some record) :
    removeExclusionRequest clientSid path choice rows =
      (.ok (), rows.erase (clientSid, normalizedPathKey choice.canonicalize path)) := by
  rw [removeExclusionRequest, removeExclusion, hfault, call_none, deleteKey, h]
  rfl

/-- A request that succeeds has removed what is under the key that it made. -/
theorem removeExclusionRequest_ok
    (h : (removeExclusionRequest clientSid path choice rows).1 = .ok ()) :
    choice.fault = none ∧ (removeExclusionRequest clientSid path choice rows).2 =
      rows.erase (clientSid, normalizedPathKey choice.canonicalize path) := by
  unfold removeExclusionRequest removeExclusion at h ⊢
  cases hfault : choice.fault with
  | some error => simp [hfault, call] at h
  | none =>
      rw [hfault, call_none, deleteKey] at h
      rw [call_none, deleteKey]
      cases hrow : (rows.lookup (clientSid, normalizedPathKey choice.canonicalize path)).isSome with
      | false => simp [hrow] at h
      | true => exact ⟨rfl, rfl⟩

/-- A request to add an exclusion that succeeds has stored it. -/
theorem addExclusionRequest_ok {after : Exclusions}
    (h : addExclusionRequest clientSid path recursive choice rows = (.ok (), after)) :
    ∃ resolved, choice.resolved path = .ok resolved ∧
      after = rows.insert (clientSid, pathKey (leadsTo choice.canonicalize resolved))
        ⟨resolved, recursive, choice.now.unixTimestamp⟩ := by
  unfold addExclusionRequest addExclusion at h
  cases hresolved : choice.resolved path with
  | error error => simp [hresolved] at h
  | ok resolved =>
      cases hfault : choice.fault with
      | some error => simp [hresolved, hfault, call] at h
      | none =>
          simp only [hresolved, hfault, call_none, Prod.mk.injEq, true_and] at h
          exact ⟨resolved, rfl, h.symm⟩

/-- Removing one exclusion is not removing another one, if the one is stored. -/
theorem erase_ne_erase (h : rows.lookup (clientSid, key) = some record) (hne : other ≠ key) :
    rows.erase (clientSid, other) ≠ rows.erase (clientSid, key) := by
  intro hsame
  have hkey : (clientSid, key) ≠ (clientSid, other) := by simpa using hne.symm
  have hlookup := congrArg (AList.lookup (clientSid, key)) hsame
  rw [AList.lookup_erase_ne hkey, AList.lookup_erase, h] at hlookup
  cases hlookup

/-- An exclusion that was withdrawn was removed under its own key. -/
theorem Withdrawn.pathKey_eq (hwithdrawn : Withdrawn clientSid key record choice rows)
    (hstored : rows.lookup (clientSid, key) = some record) :
    choice.fault = none ∧ pathKey (leadsTo choice.canonicalize record.path) = key := by
  obtain ⟨hfault, hrows⟩ := removeExclusionRequest_ok (congrArg Prod.fst hwithdrawn.removed)
  refine ⟨hfault, ?_⟩
  by_contra hne
  rw [congrArg Prod.snd hwithdrawn.removed] at hrows
  exact erase_ne_erase hstored hne hrows.symm

/-- **An exclusion can be withdrawn exactly while its path leads to where it led**: the path that
is shown is resolved again when the exclusion is removed, and has to give the same key. -/
theorem withdrawn_iff (clientSid path : String) (recursive : Bool) (added : PolicyChoice)
    (before after : Exclusions)
    (hadded : addExclusionRequest clientSid path recursive added before = (.ok (), after)) :
    ∃ key record, added.resolved path = .ok record.path ∧
      key = pathKey (leadsTo added.canonicalize record.path) ∧
      after.lookup (clientSid, key) = some record ∧
      ∀ (removed : PolicyChoice) (rows : Exclusions),
        rows.lookup (clientSid, key) = some record →
        (Withdrawn clientSid key record removed rows ↔
          removed.fault = none ∧
            pathKey (leadsTo removed.canonicalize record.path) =
              pathKey (leadsTo added.canonicalize record.path)) := by
  obtain ⟨resolved, hresolved, rfl⟩ := addExclusionRequest_ok hadded
  refine ⟨_, ⟨resolved, recursive, added.now.unixTimestamp⟩, hresolved, rfl,
    AList.lookup_insert _, fun removed rows hstored => ?_⟩
  constructor
  · intro hwithdrawn
    exact hwithdrawn.pathKey_eq hstored
  · rintro ⟨hfault, hkey⟩
    have hremoved : removeExclusionRequest clientSid resolved removed rows =
        (.ok (), rows.erase (clientSid, pathKey (leadsTo added.canonicalize resolved))) := by
      rw [← hkey] at hstored ⊢
      exact removeExclusionRequest_of_lookup hfault hstored
    refine ⟨exists_listExclusions hstored, hremoved, fun candidateKey => ?_⟩
    rw [hremoved]
    exact pathExcluded_erase clientSid _ candidateKey rows

/-! ## A directory that is replaced by a link -/

/-- The directory is there, under its own name. -/
def directoryThere : PolicyChoice where
  resolved _ := .ok "\\\\?\\C:\\work"
  canonicalize path := if path = "\\\\?\\C:\\work" then some path else none
  now := ⟨0, 1760000000⟩
  fault := none

/-- A junction to another drive has its name. -/
def junctionThere : PolicyChoice :=
  { directoryThere with
    canonicalize := fun path =>
      if path = "\\\\?\\C:\\work" then some "\\\\?\\D:\\old" else none }

/-- The exclusion of the directory. -/
def workExclusion : ExclusionRecord := ⟨"\\\\?\\C:\\work", true, "unix:1760000000"⟩

/-- What is stored after the request to exclude the directory. -/
def workStored : Exclusions :=
  (addExclusionRequest "S-1" "C:\\work" true directoryThere ∅).2

/-- `withdrawn_iff` for the directory. -/
theorem withdrawn_work :
    ∃ key record, directoryThere.resolved "C:\\work" = .ok record.path ∧
      key = pathKey (leadsTo directoryThere.canonicalize record.path) ∧
      workStored.lookup ("S-1", key) = some record ∧
      ∀ (removed : PolicyChoice) (rows : Exclusions),
        rows.lookup ("S-1", key) = some record →
        (Withdrawn "S-1" key record removed rows ↔
          removed.fault = none ∧
            pathKey (leadsTo removed.canonicalize record.path) =
              pathKey (leadsTo directoryThere.canonicalize record.path)) :=
  withdrawn_iff "S-1" "C:\\work" true directoryThere ∅ workStored rfl

/-- The directory is excluded, and then replaced by a junction: the exclusion that is listed cannot
be withdrawn. -/
theorem replaced_not_withdrawn :
    addExclusionRequest "S-1" "C:\\work" true directoryThere ∅ = (.ok (), workStored) ∧
      workStored.lookup ("S-1", pathKey workExclusion.path) = some workExclusion ∧
      ¬Withdrawn "S-1" (pathKey workExclusion.path) workExclusion junctionThere workStored := by
  have hstored : workStored.lookup ("S-1", pathKey workExclusion.path) = some workExclusion :=
    AList.lookup_insert _
  refine ⟨rfl, hstored, fun hwithdrawn => ?_⟩
  have hkey := (hwithdrawn.pathKey_eq hstored).2
  revert hkey
  decide

end withdrawal

end OpenGuard.Service
