import OpenGuard.Storage.Isolation

/-!
# The comparison of two inventories

What is stored for an item and what the new inventory says of it decide which change is reported, if
any. `syncPersistenceInventory` computes this in two loops over the inventory and the stored items.

* `expectedChange`: the change of one item.
* `lookup_upserted`, `lookup_deactivated`: what the two loops leave of an item.
* `ExactDiff`: a comparison reports each change once, and stores the inventory.
* `sync_exact_diff`: every comparison does, when the items of the inventory have distinct ids.
-/

namespace OpenGuard.Storage

open OpenGuard.Lib OpenGuard.Domain

/-! ## One item -/

/-- The change of an item: by its stored row and by the new inventory. -/
def expectedChange : Option PersistenceRow → Option PersistenceItem → Option String
  | none, none => none
  | none, some _ => some "added"
  | some row, some item =>
      if row.active = false ∨ row.command ≠ item.command ∨ row.state ≠ item.state then
        some "changed"
      else none
  | some row, none => if row.active then some "removed" else none

/-- The item of an inventory with an id. -/
def listedItem (items : List PersistenceItem) (id : String) : Option PersistenceItem :=
  items.find? fun item => item.id = id

/-- The row of an item after the comparison. -/
def upsertedRow (observedAt : String) (item : PersistenceItem) (stored : Option PersistenceRow) :
    PersistenceRow where
  category := item.category
  name := item.name
  command := item.command
  location := item.location
  state := item.state
  risk := item.risk.display
  evidence := item.evidence
  firstSeen := (stored.map PersistenceRow.firstSeen).getD observedAt
  lastSeen := observedAt
  active := true
  responseCapability := item.responseCapability

/-- The row of an item that is gone. -/
def deactivatedRow (observedAt : String) (row : PersistenceRow) : PersistenceRow :=
  if row.active then { row with active := false, lastSeen := observedAt } else row

section loops

variable {ownerSid id observedAt : String} {rows : PersistenceItems} {items : List PersistenceItem}
  {item : PersistenceItem} {row : PersistenceRow} {order : IterOrder String PersistenceRow}
  {existing : Table String PersistenceRow}

/-- The stored items are the rows of the owner. -/
theorem lookup_existingItems : (existingItems ownerSid rows).lookup id =
    rows.lookup (ownerSid, id) := by
  have hkeys := (List.nodupKeys_iff_pairwise.mp rows.nodupKeys).filter
    fun row => row.1.1 == ownerSid
  have hnodup : (((rows.entries.filter fun row => row.1.1 == ownerSid).map fun row =>
      (row.1.2, row.2)).map Prod.fst).Nodup := by
    rw [List.map_map]
    refine List.pairwise_map.mpr (hkeys.imp_of_mem fun hfirst hsecond hne hsame => hne ?_)
    have howner := (List.mem_filter.mp hfirst).2
    rw [← beq_iff_eq.mp (List.mem_filter.mp hsecond).2] at howner
    exact Prod.ext (beq_iff_eq.mp howner) hsame
  refine Option.ext fun row => ?_
  rw [existingItems, Table.lookup_collect_of_nodup hnodup, ← Table.mem_entries_iff, List.mem_map]
  constructor
  · rintro ⟨⟨⟨owner, key⟩, found⟩, hmem, hrow⟩
    obtain ⟨hentry, howner⟩ := List.mem_filter.mp hmem
    cases hrow
    cases beq_iff_eq.mp howner
    exact hentry
  · intro hentry
    exact ⟨_, List.mem_filter.mpr ⟨hentry, beq_self_eq_true ownerSid⟩, rfl⟩

theorem upsertItem_eq : upsertItem ownerSid observedAt rows item =
    rows.insert (ownerSid, item.id)
        (upsertedRow observedAt item (rows.lookup (ownerSid, item.id))) :=
  rfl

theorem listedItem_eq_none : listedItem items id = none ↔ ∀ item ∈ items, item.id ≠ id := by
  rw [listedItem, List.find?_eq_none]
  simp only [decide_eq_true_eq]

theorem listedItem_eq_some (h : listedItem items id = some item) : item ∈ items ∧ item.id = id := by
  have hid := List.find?_some h
  exact ⟨List.mem_of_find?_eq_some h, of_decide_eq_true hid⟩

/-- An item is listed first or later. -/
theorem listedItem_cons (first : PersistenceItem) : listedItem (first :: items) id =
    if first.id = id then some first else listedItem items id := by
  rw [listedItem, List.find?_cons]
  by_cases hid : first.id = id
  · rw [if_pos hid, decide_eq_true hid]
  · rw [if_neg hid, decide_eq_false hid]
    rfl

/-- The loop over the inventory: an item that is listed has its row. -/
theorem lookup_upserted (hdistinct : (items.map PersistenceItem.id).Nodup) :
    (items.foldl (upsertItem ownerSid observedAt) rows).lookup (ownerSid, id) =
      match listedItem items id with
      | some item => some (upsertedRow observedAt item (rows.lookup (ownerSid, id)))
      | none => rows.lookup (ownerSid, id) := by
  induction items generalizing rows with
  | nil => rfl
  | cons first items ih =>
      obtain ⟨hfirst, hdistinct⟩ := List.nodup_cons.mp hdistinct
      rw [List.foldl_cons, ih hdistinct, upsertItem_eq, listedItem_cons]
      by_cases hid : first.id = id
      · have hlater : listedItem items id = none := by
          refine listedItem_eq_none.mpr fun item hitem hsame => hfirst ?_
          rw [hid, ← hsame]
          exact List.mem_map_of_mem hitem
        rw [hlater, if_pos hid, hid, AList.lookup_insert]
      · have hother : (ownerSid, id) ≠ (ownerSid, first.id) := fun hsame =>
          hid (congrArg Prod.snd hsame).symm
        rw [if_neg hid, AList.lookup_insert_ne hother]

/-- The loop over the items that are gone. -/
theorem lookup_deactivated {removed : List String} :
    (removed.foldl (deactivateItem ownerSid observedAt) rows).lookup (ownerSid, id) =
      if id ∈ removed then
        (rows.lookup (ownerSid, id)).map fun row =>
          { row with active := false, lastSeen := observedAt }
      else rows.lookup (ownerSid, id) := by
  induction removed generalizing rows with
  | nil => rfl
  | cons first removed ih =>
      have hfirst : (deactivateItem ownerSid observedAt rows first).lookup (ownerSid, id) =
          if id = first then
            (rows.lookup (ownerSid, id)).map fun row =>
              { row with active := false, lastSeen := observedAt }
          else rows.lookup (ownerSid, id) := by
        unfold deactivateItem
        split_ifs with hid
        · rw [hid]
          cases hrow : rows.lookup (ownerSid, first) with
          | none => exact hrow
          | some row => exact AList.lookup_insert rows
        · cases rows.lookup (ownerSid, first) with
          | none => rfl
          | some row => exact AList.lookup_insert_ne fun hsame => hid (congrArg Prod.snd hsame)
      rw [List.foldl_cons, ih, hfirst]
      by_cases hid : id = first
      · rw [if_pos hid, if_pos (List.mem_cons.mpr (.inl hid)), Option.map_map]
        split_ifs <;> rfl
      · rw [if_neg hid]
        exact if_congr (by rw [List.mem_cons, or_iff_right hid]) rfl rfl

/-- The items that are gone: active ones that are not listed. -/
theorem mem_removedItems : id ∈ removedItems order existing items ↔
    ∃ row, existing.lookup id = some row ∧ row.active = true ∧ listedItem items id = none := by
  have hlisted : ∀ key, (!items.any fun item => item.id == key) = true ↔
      listedItem items key = none := by
    intro key
    rw [listedItem_eq_none, Bool.not_eq_true', List.any_eq_false]
    simp only [beq_iff_eq, ne_eq]
  rw [removedItems, List.mem_map]
  constructor
  · rintro ⟨⟨key, row⟩, hrow, rfl⟩
    obtain ⟨hentry, hgone⟩ := List.mem_filter.mp hrow
    rw [Bool.and_eq_true, hlisted] at hgone
    exact ⟨row, Table.mem_entries_iff.mp (order.mem_entries.mp hentry), hgone⟩
  · rintro ⟨row, hlookup, hgone⟩
    refine ⟨⟨id, row⟩, List.mem_filter.mpr ⟨?_, ?_⟩, rfl⟩
    · exact order.mem_entries.mpr (Table.mem_entries_iff.mpr hlookup)
    · rwa [Bool.and_eq_true, hlisted]

theorem nodup_removedItems : (removedItems order existing items).Nodup := by
  have hkeys := List.nodupKeys_iff_pairwise.mp
    ((List.perm_nodupKeys (order.perm existing)).mpr existing.nodupKeys)
  exact List.pairwise_map.mpr (hkeys.filter _)

end loops

/-! ## The changes -/

/-- Changes of different items have different correlation ids. -/
theorem changeId_inj {id other observedAt : String}
    (h : changeId id observedAt = changeId other observedAt) : id = other := by
  unfold changeId at h
  exact (String.append_right_inj _).mp
    ((String.append_left_inj _).mp ((String.append_left_inj _).mp h))

/-- The changes of one item. -/
def changesOf (id observedAt : String) (changes : List TimelineEvent) : List TimelineEvent :=
  changes.filter fun event => event.correlationId = changeId id observedAt

section cons

variable {id observedAt : String} {event : TimelineEvent} {changes : List TimelineEvent}

theorem changesOf_cons_self (h : event.correlationId = changeId id observedAt) :
    changesOf id observedAt (event :: changes) = event :: changesOf id observedAt changes :=
  List.filter_cons_of_pos (decide_eq_true h)

theorem changesOf_cons_ne (h : event.correlationId ≠ changeId id observedAt) :
    changesOf id observedAt (event :: changes) = changesOf id observedAt changes :=
  List.filter_cons_of_neg fun hsame => h (of_decide_eq_true hsame)

end cons

section changes

variable {ownerSid id observedAt : String} {rows : PersistenceItems} {items : List PersistenceItem}
  {order : IterOrder String PersistenceRow} {existing : Table String PersistenceRow}

/-- The changes of an item that the first loop finds. -/
theorem changesOf_listed (hdistinct : (items.map PersistenceItem.id).Nodup) :
    changesOf id observedAt (items.filterMap fun item =>
        (itemChange existing item).map (changeEvent observedAt item)) =
      ((listedItem items id).bind fun item =>
        (itemChange existing item).map (changeEvent observedAt item)).toList := by
  induction items with
  | nil => rfl
  | cons first items ih =>
      obtain ⟨hfirst, hdistinct⟩ := List.nodup_cons.mp hdistinct
      have hrest := ih hdistinct
      rw [listedItem_cons]
      by_cases hid : first.id = id
      · have hlater : listedItem items id = none := by
          refine listedItem_eq_none.mpr fun item hitem hsame => hfirst ?_
          rw [hid, ← hsame]
          exact List.mem_map_of_mem hitem
        rw [hlater] at hrest
        rw [if_pos hid, Option.bind_some]
        cases hchange : itemChange existing first with
        | none =>
            rw [List.filterMap_cons_none (by rw [hchange]; rfl)]
            exact hrest
        | some change =>
            have hown : (changeEvent observedAt first change).correlationId =
                changeId id observedAt := congrArg (changeId · observedAt) hid
            rw [List.filterMap_cons_some (by rw [hchange]; rfl), changesOf_cons_self hown]
            exact congrArg _ hrest
      · rw [if_neg hid]
        cases hchange : itemChange existing first with
        | none =>
            rw [List.filterMap_cons_none (by rw [hchange]; rfl)]
            exact hrest
        | some change =>
            have hother : (changeEvent observedAt first change).correlationId ≠
                changeId id observedAt := fun hsame => hid (changeId_inj hsame)
            rw [List.filterMap_cons_some (by rw [hchange]; rfl), changesOf_cons_ne hother]
            exact hrest

/-- The changes of an item that the second loop finds. -/
theorem changesOf_removed {removed : List String} (hnodup : removed.Nodup) :
    changesOf id observedAt (removed.map (removedEvent observedAt)) =
      if id ∈ removed then [removedEvent observedAt id] else [] := by
  induction removed with
  | nil => rfl
  | cons first removed ih =>
      obtain ⟨hfirst, hnodup⟩ := List.nodup_cons.mp hnodup
      rw [List.map_cons]
      by_cases hid : first = id
      · subst hid
        rw [changesOf_cons_self rfl, if_pos List.mem_cons_self]
        exact congrArg _ ((ih hnodup).trans (if_neg hfirst))
      · rw [changesOf_cons_ne fun hsame => hid (changeId_inj hsame)]
        refine (ih hnodup).trans (if_congr ?_ rfl rfl)
        rw [List.mem_cons, or_iff_right (Ne.symm hid)]

/-- The change that the first loop finds of a listed item. -/
theorem action_itemChange {item : PersistenceItem} :
    ((itemChange existing item).map (changeEvent observedAt item)).map TimelineEvent.action =
      expectedChange (existing.lookup item.id) (some item) := by
  unfold itemChange
  cases existing.lookup item.id with
  | none => rfl
  | some row =>
      have hcond : (!row.active || row.command != item.command || row.state != item.state) = true ↔
          row.active = false ∨ row.command ≠ item.command ∨ row.state ≠ item.state := by
        rw [Bool.or_eq_true, Bool.or_eq_true, Bool.not_eq_true', bne_iff_ne, bne_iff_ne, or_assoc]
      show Option.map _ (Option.map _ (if _ then _ else none)) = if _ then _ else none
      by_cases hchanged : row.active = false ∨ row.command ≠ item.command ∨ row.state ≠ item.state
      · rw [if_pos (hcond.mpr hchanged), if_pos hchanged]
        rfl
      · rw [if_neg (hcond.not.mpr hchanged), if_neg hchanged]
        rfl

/-- The change that the second loop finds of an item that is not listed. -/
theorem actions_of_gone (hgone : listedItem items id = none) :
    (if id ∈ removedItems order existing items then [removedEvent observedAt id] else []).map
        TimelineEvent.action =
      (expectedChange (existing.lookup id) none).toList := by
  have hiff : id ∈ removedItems order existing items ↔
      ∃ row, existing.lookup id = some row ∧ row.active = true := by
    rw [mem_removedItems]
    exact ⟨fun ⟨row, hrow, hactive, _⟩ => ⟨row, hrow, hactive⟩,
      fun ⟨row, hrow, hactive⟩ => ⟨row, hrow, hactive, hgone⟩⟩
  cases hrow : existing.lookup id with
  | none =>
      rw [if_neg fun hremoved => ?_]
      · rfl
      · obtain ⟨row, hsome, -⟩ := hiff.mp hremoved
        rw [hrow] at hsome
        cases hsome
  | some row =>
      show _ = (if row.active = true then some "removed" else none : Option String).toList
      by_cases hactive : row.active = true
      · rw [if_pos (hiff.mpr ⟨row, hrow, hactive⟩), if_pos hactive]
        rfl
      · rw [if_neg fun hremoved => ?_, if_neg hactive]
        · rfl
        · obtain ⟨found, hsome, hfound⟩ := hiff.mp hremoved
          rw [hrow] at hsome
          cases hsome
          exact hactive hfound

end changes

/-! ## The comparison -/

/-- A comparison reports each change once and writes it to the timeline, and stores the inventory:
the rows of the listed items are active, all others of the owner are not, and the rows of other
owners stay as they were. -/
structure ExactDiff (ownerSid : String) (items : List PersistenceItem) (observedAt : String)
    (before after : PersistenceItems × RowTable TimelineRow) (changes : List TimelineEvent) :
    Prop where
  actions : ∀ id, (changesOf id observedAt changes).map TimelineEvent.action =
    (expectedChange (before.1.lookup (ownerSid, id)) (listedItem items id)).toList
  named : ∀ event ∈ changes, ∃ id, event.correlationId = changeId id observedAt
  written : ∃ new, after.2.rows = before.2.rows ++ new ∧
    new.map Prod.snd = changes.map (TimelineRow.ofEvent ownerSid)
  listed : ∀ item ∈ items, after.1.lookup (ownerSid, item.id) =
    some (upsertedRow observedAt item (before.1.lookup (ownerSid, item.id)))
  gone : ∀ id, listedItem items id = none → after.1.lookup (ownerSid, id) =
    (before.1.lookup (ownerSid, id)).map (deactivatedRow observedAt)
  others : ∀ other ≠ ownerSid, ∀ id,
    after.1.lookup (other, id) = before.1.lookup (other, id)

section diff

variable {ownerSid observedAt : String} {rows : PersistenceItems} {items : List PersistenceItem}
  {order : IterOrder String PersistenceRow} {timeline : RowTable TimelineRow}

/-- The rows of the timeline that are written. -/
theorem rows_foldl_insertTimeline (ownerSid : String) (changes : List TimelineEvent)
    (timeline : RowTable TimelineRow) :
    ∃ new, (changes.foldl (fun timeline event => insertTimeline ownerSid event timeline)
        timeline).rows = timeline.rows ++ new ∧
      new.map Prod.snd = changes.map (TimelineRow.ofEvent ownerSid) := by
  induction changes generalizing timeline with
  | nil => exact ⟨[], (List.append_nil _).symm, rfl⟩
  | cons event changes ih =>
      obtain ⟨new, hrows, hnew⟩ := ih (insertTimeline ownerSid event timeline)
      refine ⟨(timeline.nextId, TimelineRow.ofEvent ownerSid event) :: new, ?_, ?_⟩
      · rw [List.foldl_cons, hrows, insertTimeline, RowTable.rows_insert, List.append_assoc]
        rfl
      · rw [List.map_cons, hnew, List.map_cons]

theorem listedItem_of_mem {item : PersistenceItem}
    (hdistinct : (items.map PersistenceItem.id).Nodup)
    (hitem : item ∈ items) : listedItem items item.id = some item := by
  cases hlisted : listedItem items item.id with
  | none => exact absurd rfl (listedItem_eq_none.mp hlisted item hitem)
  | some found =>
      obtain ⟨hfound, hid⟩ := listedItem_eq_some hlisted
      exact congrArg some (List.inj_on_of_nodup_map hdistinct hfound hitem hid)

/-- The rows that a comparison leaves. -/
theorem lookup_compared {id : String} (hdistinct : (items.map PersistenceItem.id).Nodup) :
    ((removedItems order (existingItems ownerSid rows) items).foldl
        (deactivateItem ownerSid observedAt)
        (items.foldl (upsertItem ownerSid observedAt) rows)).lookup (ownerSid, id) =
      match listedItem items id with
      | some item => some (upsertedRow observedAt item (rows.lookup (ownerSid, id)))
      | none => (rows.lookup (ownerSid, id)).map (deactivatedRow observedAt) := by
  rw [lookup_deactivated, lookup_upserted hdistinct]
  have hremoved : id ∈ removedItems order (existingItems ownerSid rows) items ↔
      ∃ row, rows.lookup (ownerSid, id) = some row ∧ row.active = true ∧
        listedItem items id = none := by
    rw [mem_removedItems, lookup_existingItems]
  cases hlisted : listedItem items id with
  | some item =>
      rw [hlisted] at hremoved
      refine if_neg fun h => ?_
      obtain ⟨row, -, -, hnone⟩ := hremoved.mp h
      cases hnone
  | none =>
      cases hrow : rows.lookup (ownerSid, id) with
      | none => rw [Option.map_none, Option.map_none, ite_self]
      | some row =>
          rw [Option.map_some, Option.map_some, deactivatedRow]
          by_cases hactive : row.active = true
          · rw [if_pos hactive, if_pos (hremoved.mpr ⟨row, hrow, hactive, hlisted⟩)]
          · rw [if_neg hactive]
            refine if_neg fun h => hactive ?_
            obtain ⟨found, hsome, hfound, -⟩ := hremoved.mp h
            rw [hrow] at hsome
            cases hsome
            exact hfound

/-- A comparison that commits is exact. -/
theorem exactDiff_of_commit (hdistinct : (items.map PersistenceItem.id).Nodup) :
    ∃ changes after, syncPersistenceInventory none order ownerSid items observedAt
        (rows, timeline) = (.ok changes, after) ∧
      ExactDiff ownerSid items observedAt (rows, timeline) after changes := by
  refine ⟨_, _, rfl, ?_⟩
  have hexisting : ∀ id, (existingItems ownerSid rows).lookup id = rows.lookup (ownerSid, id) :=
    fun _ => lookup_existingItems
  refine ⟨fun id => ?_, ?_, rows_foldl_insertTimeline _ _ _, ?_, ?_, ?_⟩
  · have hsplit : ∀ first second, changesOf id observedAt (first ++ second) =
        changesOf id observedAt first ++ changesOf id observedAt second := fun _ _ =>
      List.filter_append ..
    rw [hsplit, changesOf_listed hdistinct, changesOf_removed nodup_removedItems, List.map_append,
      ← hexisting]
    cases hlisted : listedItem items id with
    | some item =>
        have hid := (listedItem_eq_some hlisted).2
        have hkept : id ∉ removedItems order (existingItems ownerSid rows) items := by
          intro hremoved
          obtain ⟨row, -, -, hnone⟩ := mem_removedItems.mp hremoved
          rw [hlisted] at hnone
          cases hnone
        rw [if_neg hkept, List.map_nil, List.append_nil, Option.bind_some, ← Option.toList_map,
          action_itemChange, hid]
    | none =>
        rw [Option.bind_none, Option.toList_none, List.map_nil, List.nil_append]
        exact actions_of_gone hlisted
  · intro event hevent
    rcases List.mem_append.mp hevent with hevent | hevent
    · obtain ⟨item, -, hchange⟩ := List.mem_filterMap.mp hevent
      obtain ⟨change, -, rfl⟩ := Option.map_eq_some_iff.mp hchange
      exact ⟨item.id, rfl⟩
    · obtain ⟨id, -, rfl⟩ := List.mem_map.mp hevent
      exact ⟨id, rfl⟩
  · intro item hitem
    refine (lookup_compared hdistinct).trans ?_
    rw [listedItem_of_mem hdistinct hitem]
  · intro id hgone
    refine (lookup_compared hdistinct).trans ?_
    rw [hgone]
  · intro other hne id
    exact lookup_congr (syncPersistenceInventory_other timeline (Ne.symm hne)) id

/-- What a comparison has stored differs from the inventory in nothing. -/
theorem ExactDiff.expectedChange_none {before after : PersistenceItems × RowTable TimelineRow}
    {changes : List TimelineEvent} {id : String}
    (h : ExactDiff ownerSid items observedAt before after changes) :
    expectedChange (after.1.lookup (ownerSid, id)) (listedItem items id) = none := by
  cases hlisted : listedItem items id with
  | some item =>
      obtain ⟨hitem, rfl⟩ := listedItem_eq_some hlisted
      rw [h.listed item hitem]
      refine if_neg fun hchanged => ?_
      obtain hinactive | hcommand | hstate := hchanged
      · cases hinactive
      · exact hcommand rfl
      · exact hstate rfl
  | none =>
      rw [h.gone id hlisted]
      cases before.1.lookup (ownerSid, id) with
      | none => rfl
      | some row =>
          refine if_neg ?_
          unfold deactivatedRow
          split_ifs with hactive
          · exact not_false
          · exact hactive

/-- The same inventory changes nothing. -/
theorem sync_again {before after : PersistenceItems × RowTable TimelineRow}
    {changes : List TimelineEvent} (hdistinct : (items.map PersistenceItem.id).Nodup)
    (h : ExactDiff ownerSid items observedAt before after changes)
    (again : IterOrder String PersistenceRow) (later : String) :
    (syncPersistenceInventory none again ownerSid items later after).1 = .ok [] := by
  obtain ⟨rows, timeline⟩ := after
  have hsync : ∃ found last, syncPersistenceInventory none again ownerSid items later
      (rows, timeline) = (.ok found, last) ∧
      ExactDiff ownerSid items later (rows, timeline) last found := exactDiff_of_commit hdistinct
  obtain ⟨found, last, hsync, hdiff⟩ := hsync
  rw [hsync]
  refine congrArg Except.ok (List.eq_nil_iff_forall_not_mem.mpr fun event hevent => ?_)
  obtain ⟨id, hid⟩ := hdiff.named event hevent
  have hactions := hdiff.actions id
  rw [h.expectedChange_none, Option.toList_none, List.map_eq_nil_iff] at hactions
  have hmem : event ∈ changesOf id later found :=
    List.mem_filter.mpr ⟨hevent, decide_eq_true hid⟩
  rw [hactions] at hmem
  exact List.not_mem_nil hmem

end diff

/-- **A comparison is exact**: each change is reported and written once, and a second comparison
with the same inventory finds nothing; one that fails changes nothing. -/
theorem sync_exact_diff (fault : Fault) (order : IterOrder String PersistenceRow)
    (ownerSid : String) (items : List PersistenceItem) (observedAt : String)
    (tables : PersistenceItems × RowTable TimelineRow)
    (hdistinct : (items.map PersistenceItem.id).Nodup) :
    match syncPersistenceInventory fault order ownerSid items observedAt tables with
    | (.ok changes, after) =>
        ExactDiff ownerSid items observedAt tables after changes ∧
          ∀ again later,
            (syncPersistenceInventory none again ownerSid items later after).1 = .ok []
    | (.error _, after) => after = tables := by
  cases fault with
  | some error => rfl
  | none =>
      obtain ⟨changes, after, hsync, hdiff⟩ := exactDiff_of_commit hdistinct
      rw [hsync]
      exact ⟨hdiff, sync_again hdistinct hdiff⟩

/-- A service that starts with the system. -/
def startupItem : PersistenceItem where
  id := "service-example"
  category := "service"
  name := "Example"
  command := "C:\\Example\\service.exe"
  location := "HKLM\\Services\\Example"
  state := "automatic"
  risk := .info
  evidence := ["test"]
  detectedAt := "unix:1"
  responseCapability := "disable_restore"

theorem sync_exact_diff_startup : ∃ changes after,
    syncPersistenceInventory none .stored "S-1" [startupItem] "unix:1" (∅, .empty) =
        (.ok changes, after) ∧
      ExactDiff "S-1" [startupItem] "unix:1" (∅, .empty) after changes :=
  ⟨_, _, rfl, (sync_exact_diff none .stored "S-1" [startupItem] "unix:1" (∅, .empty)
    (List.nodup_singleton _)).1⟩

end OpenGuard.Storage
