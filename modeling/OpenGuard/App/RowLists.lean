import Mathlib.Data.Finset.Dedup
import Mathlib.Data.Finset.Insert
import Mathlib.Data.List.Induction

/-!
# Lists of rows

The lists that the window shows are changed in place, so that the rows that stay keep their
selection. An index out of range throws; rows have no equality of their own, so two are the same
when they are one object.

* `synchronizeCollection`: the list becomes the target, by moves, insertions and removals.
* `synchronizeMembership`: the list loses the rows that are not in the target, and gets the others at
  its end.
* `synchronized`: **both end in what they are to reach**, and no row is moved to a later place.
-/

namespace OpenGuard.App

variable {α : Type*}

/-! ## Changes of an observable collection -/

/-- `Collection<T>.InsertItem` -/
def insertAt (index : ℕ) (item : α) (items : List α) : Option (List α) :=
  if index ≤ items.length then some (items.insertIdx index item) else none

/-- `Collection<T>.RemoveItem` -/
def removeAt (index : ℕ) (items : List α) : Option (List α) :=
  if index < items.length then some (items.eraseIdx index) else none

/-- A change of an observable collection. -/
inductive Change (α : Type*) where
  | move (oldIndex newIndex : ℕ)
  | insert (index : ℕ) (item : α)
  | remove (index : ℕ)

namespace Change

/-- What a change leaves. -/
def apply : Change α → List α → Option (List α)
  | .move oldIndex newIndex, items => do
      let item ← items[oldIndex]?
      insertAt newIndex item (← removeAt oldIndex items)
  | .insert index item, items => insertAt index item items
  | .remove index, items => removeAt index items

/-- Nothing is moved to a later place. -/
def Forward : Change α → Prop
  | .move oldIndex newIndex => newIndex ≤ oldIndex
  | _ => True

end Change

section split

variable {matched front rest back : List α} {item : α}

theorem insertIdx_of_split : (matched ++ rest).insertIdx matched.length item =
    matched ++ item :: rest := by
  induction matched with
  | nil => rfl
  | cons first matched ih =>
      simp only [List.cons_append, List.length_cons, List.insertIdx_succ_cons, ih]

theorem insertAt_of_split : insertAt matched.length item (matched ++ rest) =
    some (matched ++ item :: rest) := by
  unfold insertAt
  rw [if_pos (by simp), insertIdx_of_split]

theorem removeAt_of_split : removeAt matched.length (matched ++ item :: rest) =
    some (matched ++ rest) := by
  unfold removeAt
  rw [if_pos (by simp), List.eraseIdx_append_of_length_le (Nat.le_refl _), Nat.sub_self,
    List.eraseIdx_cons_zero]

/-- An item at a later place is moved to the end of the matched items. -/
theorem apply_move : (Change.move (matched ++ front).length matched.length).apply
    (matched ++ front ++ item :: back) = some (matched ++ item :: (front ++ back)) := by
  have hat : (matched ++ front ++ item :: back)[(matched ++ front).length]? = some item := by
    rw [List.getElem?_append_right (Nat.le_refl _), Nat.sub_self, List.getElem?_cons_zero]
  simp only [Change.apply, hat, removeAt_of_split, Option.bind_eq_bind, Option.bind_some]
  rw [List.append_assoc, insertAt_of_split]

end split

/-- The items of a collection, and the changes that were made to it. -/
structure Collection (α : Type*) where
  items : List α
  changes : List (Change α)

/-! ## The target as it is -/

namespace Collection

/-- A change is made. -/
def perform (change : Change α) (collection : Collection α) : Option (Collection α) :=
  (change.apply collection.items).map fun items => ⟨items, collection.changes ++ [change]⟩

theorem length_of_remove {collection next : Collection α}
    (h : collection.perform (.remove (collection.items.length - 1)) = some next) :
    next.items.length < collection.items.length := by
  obtain ⟨items, hremove, rfl⟩ := Option.map_eq_some_iff.mp h
  simp only [Change.apply, removeAt, Option.ite_none_right_eq_some] at hremove
  obtain ⟨hlast, hitems⟩ := hremove
  rw [← Option.some.inj hitems, List.length_eraseIdx_of_lt hlast]
  omega

/-- The loop that removes what is beyond the target.
Source: `ShellViewModel.cs`, `SynchronizeCollection` -/
def trim (count : ℕ) (collection : Collection α) : Option (Collection α) :=
  if count < collection.items.length then
    match _h : collection.perform (.remove (collection.items.length - 1)) with
    | none => none
    | some next => next.trim count
  else some collection
termination_by collection.items.length
decreasing_by exact length_of_remove _h

variable [DecidableEq α]

/-- One round of the loop over the target.
Source: `ShellViewModel.cs`, `SynchronizeCollection` -/
def place (index : ℕ) (item : α) (collection : Collection α) : Option (Collection α) :=
  if collection.items[index]? = some item then some collection
  else match collection.items.idxOf? item with
    | some existingIndex => collection.perform (.move existingIndex index)
    | none => collection.perform (.insert index item)

/-- The loop over the target.
Source: `ShellViewModel.cs`, `SynchronizeCollection` -/
def placeAll : ℕ → List α → Collection α → Option (Collection α)
  | _, [], collection => some collection
  | index, item :: rest, collection => do placeAll (index + 1) rest (← collection.place index item)

end Collection

variable [DecidableEq α]

/-- Source: `ShellViewModel.cs`, `SynchronizeCollection` -/
def synchronizeCollection (collection target : List α) : Option (Collection α) := do
  (← Collection.placeAll 0 target ⟨collection, []⟩).trim target.length

/-! ## The target as a set -/

/-- The loop that removes what is not in the target, from the end.
Source: `ShellViewModel.cs`, `SynchronizeMembership` -/
def keepMembers (targetSet : Finset α) : ℕ → List α → Option (List α)
  | 0, items => some items
  | index + 1, items => do
      let item ← items[index]?
      if item ∈ targetSet then keepMembers targetSet index items
      else keepMembers targetSet index (← removeAt index items)

/-- The loop that adds what is not visible.
Source: `ShellViewModel.cs`, `SynchronizeMembership` -/
def addMissing : List α → Finset α → List α → List α
  | [], _, items => items
  | item :: rest, visible, items =>
      if item ∈ visible then addMissing rest visible items
      else addMissing rest (insert item visible) (items ++ [item])

/-- Source: `ShellViewModel.cs`, `SynchronizeMembership` -/
def synchronizeMembership (collection target : List α) : Option (List α) := do
  let items ← keepMembers target.toFinset collection.length collection
  return addMissing target items.toFinset items

/-! ## What they reach -/

section synchronized

variable {collection target matched front items : List α} (rest back : List α) {item : α}
  (changes : List (Change α)) {visible : Finset α} (targetSet : Finset α) {index : ℕ}

/-- The first place of an item, as a split of the list. -/
theorem split_of_idxOf? (h : items.idxOf? item = some index) :
    ∃ front back, items = front ++ item :: back ∧ front.length = index := by
  obtain ⟨hlt, hitem, -⟩ := List.idxOf?_eq_some_iff.mp h
  refine ⟨items.take index, items.drop (index + 1), ?_, by rw [List.length_take]; omega⟩
  rw [← hitem, List.getElem_cons_drop, List.take_append_drop]

/-- **One round puts its item behind the matched ones**, whatever is behind them. -/
theorem place_spec (hitem : item ∉ matched) :
    ∃ after added, Collection.place matched.length item ⟨matched ++ rest, changes⟩ =
      some ⟨matched ++ item :: after, changes ++ added⟩ ∧ ∀ change ∈ added, change.Forward := by
  unfold Collection.place
  split_ifs with hsame
  · -- the item is already there
    rw [List.getElem?_append_right (Nat.le_refl _), Nat.sub_self] at hsame
    obtain ⟨after, rfl⟩ : ∃ after, rest = item :: after := by
      cases rest with
      | nil => simp at hsame
      | cons first after => exact ⟨after, by rw [Option.some.inj hsame]⟩
    exact ⟨after, [], by rw [List.append_nil], by simp⟩
  · cases hfound : (matched ++ rest).idxOf? item with
    | none =>
        refine ⟨rest, [.insert matched.length item], ?_, by simp [Change.Forward]⟩
        simp [Collection.perform, Change.apply, insertAt_of_split]
    | some existingIndex =>
        obtain ⟨before, back, hsplit, hlength⟩ := split_of_idxOf? hfound
        -- the item is not among the matched ones, so they are where the split begins
        obtain ⟨front, rfl⟩ : ∃ front, before = matched ++ front := by
          obtain ⟨front, hfront, -⟩ | ⟨tail, hmatched, htail⟩ :=
            List.append_eq_append_iff.mp hsplit
          · exact ⟨front, hfront⟩
          · cases tail with
            | nil => exact ⟨[], by rw [hmatched, List.append_nil, List.append_nil]⟩
            | cons first tail =>
                obtain ⟨rfl, -⟩ := List.cons_eq_cons.mp htail
                exact absurd (hmatched ▸ by simp) hitem
        refine ⟨front ++ back, [.move existingIndex matched.length], ?_, ?_⟩
        · simp only [Collection.perform, hsplit, ← hlength, apply_move, Option.map_some]
        · simp [Change.Forward, ← hlength]

variable (matched) in
/-- The rounds put the rest of the target behind what is matched. -/
theorem placeAll_spec (hnodup : (matched ++ target).Nodup) :
    ∃ after added, Collection.placeAll matched.length target ⟨matched ++ rest, changes⟩ =
      some ⟨matched ++ target ++ after, changes ++ added⟩ ∧ ∀ change ∈ added, change.Forward := by
  induction target generalizing matched rest changes with
  | nil => exact ⟨rest, [], by simp [Collection.placeAll], by simp⟩
  | cons item todo ih =>
      have hitem : item ∉ matched := fun h =>
        List.disjoint_of_nodup_append hnodup h List.mem_cons_self
      obtain ⟨after, added, hplace, hforward⟩ := place_spec rest changes hitem
      have hnext : (matched ++ [item] ++ todo).Nodup := by
        rwa [List.append_assoc, List.singleton_append]
      obtain ⟨last, more, hrest, hmore⟩ := ih (matched ++ [item]) after (changes ++ added) hnext
      refine ⟨last, added ++ more, ?_, ?_⟩
      · simp only [Collection.placeAll, hplace, Option.bind_eq_bind, Option.bind_some]
        simpa using hrest
      · intro change hchange
        rcases List.mem_append.mp hchange with h | h
        · exact hforward change h
        · exact hmore change h

omit [DecidableEq α] in
variable (target) in
/-- What is behind the target is removed. -/
theorem trim_spec : ∃ added, Collection.trim target.length ⟨target ++ rest, changes⟩ =
    some ⟨target, changes ++ added⟩ ∧ ∀ change ∈ added, change.Forward := by
  induction rest using List.reverseRec generalizing changes with
  | nil =>
      refine ⟨[], ?_, by simp⟩
      rw [Collection.trim, if_neg (by simp), List.append_nil, List.append_nil]
  | append_singleton rest last ih =>
      let change : Change α := .remove (target ++ rest).length
      obtain ⟨added, htrim, hforward⟩ := ih (changes ++ [change])
      refine ⟨change :: added, ?_, ?_⟩
      · have hperform : Collection.perform (.remove ((target ++ (rest ++ [last])).length - 1))
            ⟨target ++ (rest ++ [last]), changes⟩ =
              some ⟨target ++ rest, changes ++ [change]⟩ := by
          have hlast : (target ++ (rest ++ [last])).length - 1 = (target ++ rest).length := by
            simp
          have hremove : removeAt (target ++ rest).length (target ++ rest ++ [last]) =
              some (target ++ rest) := by
            rw [removeAt_of_split, List.append_nil]
          rw [hlast, ← List.append_assoc]
          unfold Collection.perform
          rw [Change.apply, hremove, Option.map_some]
        rw [Collection.trim, if_pos (by simp)]
        split
        · next hnone => rw [hperform] at hnone; cases hnone
        · next next hnext =>
            obtain rfl := Option.some.inj (hperform.symm.trans hnext)
            rw [htrim, List.append_assoc, List.singleton_append]
      · intro other hother
        rcases List.mem_cons.mp hother with rfl | h
        · exact trivial
        · exact hforward other h

variable (front) in
/-- Behind the first `index` items nothing changes any more; of these the members stay. -/
theorem keepMembers_spec : keepMembers targetSet front.length (front ++ back) =
    some (front.filter (· ∈ targetSet) ++ back) := by
  induction front using List.reverseRec generalizing back with
  | nil => rfl
  | append_singleton front item ih =>
      have hat : (front ++ [item] ++ back)[front.length]? = some item := by simp
      rw [List.length_append, List.length_singleton]
      simp only [keepMembers, hat, Option.bind_eq_bind, Option.bind_some]
      split_ifs with hmem
      · rw [List.append_assoc, ih]
        simp [hmem]
      · rw [List.append_assoc, List.singleton_append, removeAt_of_split, Option.bind_some, ih]
        simp [hmem]

/-- A target without duplicates is added but for what is visible. -/
theorem addMissing_spec (hnodup : target.Nodup) :
    addMissing target visible items = items ++ target.filter (· ∉ visible) := by
  induction target generalizing visible items with
  | nil => simp [addMissing]
  | cons item rest ih =>
      obtain ⟨hitem, hrest⟩ := List.nodup_cons.mp hnodup
      unfold addMissing
      split_ifs with hmem
      · rw [ih hrest, List.filter_cons_of_neg (by simpa using hmem)]
      · have hsame : rest.filter (· ∉ insert item visible) = rest.filter (· ∉ visible) :=
          List.filter_congr fun other hother => by
            have hne : other ≠ item := fun h => hitem (h ▸ hother)
            simp [hne]
        rw [ih hrest, hsame, List.filter_cons_of_pos (by simpa using hmem), List.append_assoc,
          List.singleton_append]

/-- What is in the target stays, and the others come behind it. -/
theorem synchronizeMembership_eq (hnodup : target.Nodup) :
    synchronizeMembership collection target =
      some (collection.filter (· ∈ target) ++ target.filter (· ∉ collection)) := by
  have hkeep : keepMembers target.toFinset collection.length collection =
      some (collection.filter (· ∈ target)) := by
    simpa using keepMembers_spec collection [] target.toFinset
  have hmissing : target.filter (· ∉ (collection.filter (· ∈ target)).toFinset) =
      target.filter (· ∉ collection) :=
    List.filter_congr fun item hitem => by simp [hitem]
  simp only [synchronizeMembership, hkeep, Option.bind_eq_bind, Option.bind_some,
    addMissing_spec hnodup, hmissing]
  rfl

/-- **Both lists reach their target.** The one that keeps the target's order becomes the target, and
each item that is moved comes from the place it is moved to or from a later one. The other one keeps
its members of the target in their order, has the rest of the target behind them, and holds what
the target holds, once. -/
theorem synchronized (hcollection : collection.Nodup) (htarget : target.Nodup) :
    (∃ changes, synchronizeCollection collection target = some ⟨target, changes⟩ ∧
      ∀ change ∈ changes, change.Forward) ∧
    ∃ items, synchronizeMembership collection target = some items ∧
      items = collection.filter (· ∈ target) ++ target.filter (· ∉ collection) ∧
      items.Nodup ∧ ∀ item, item ∈ items ↔ item ∈ target := by
  refine ⟨?_, _, synchronizeMembership_eq htarget, rfl, ?_, ?_⟩
  · obtain ⟨after, placed, hplace, hplaced⟩ :=
      placeAll_spec [] collection [] htarget
    obtain ⟨removed, htrim, hremoved⟩ :=
      trim_spec target after placed
    refine ⟨placed ++ removed, ?_, ?_⟩
    · simp only [List.nil_append, List.length_nil] at hplace
      simp only [synchronizeCollection, hplace, Option.bind_eq_bind, Option.bind_some, htrim]
    · intro change hchange
      rcases List.mem_append.mp hchange with h | h
      · exact hplaced change h
      · exact hremoved change h
  · rw [List.nodup_append]
    refine ⟨hcollection.filter _, htarget.filter _, fun kept hkept added hadded => ?_⟩
    rintro rfl
    simp only [List.mem_filter, decide_eq_true_eq] at hkept hadded
    exact hadded.2 hkept.1
  · intro item
    simp only [List.mem_append, List.mem_filter, decide_eq_true_eq]
    tauto

/-- Rows that stay, go, come and change places. -/
theorem synchronized_rows :
    (∃ changes, synchronizeCollection [1, 2, 3, 4] [4, 5, 2] = some ⟨[4, 5, 2], changes⟩ ∧
      ∀ change ∈ changes, change.Forward) ∧
    ∃ items, synchronizeMembership [1, 2, 3, 4] [4, 5, 2] = some items ∧
      items = [1, 2, 3, 4].filter (· ∈ [4, 5, 2]) ++ [4, 5, 2].filter (· ∉ [1, 2, 3, 4]) ∧
      items.Nodup ∧ ∀ item, item ∈ items ↔ item ∈ [4, 5, 2] :=
  synchronized (by decide) (by decide)

end synchronized

end OpenGuard.App
