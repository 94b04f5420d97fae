import OpenGuard.Storage.Database

/-!
# Security events and their mirrors

A row of the timeline mirrors a security event when its correlation id names the event. The
transaction that writes an event writes the mirror, the initialization writes a missing one, and a
pruning cuts both tables back on their own.

* `Mirrors`: an event has at most one mirror, which agrees with it; `one_mirror_per_event`.
* `AllMirrored`: no event lacks its mirror; `initialize_same_iff` says that the initialization then
  changes nothing, and only then.
* `reopening_changes_nothing`: the runs in which no pruning drops the mirror of an event it keeps.
* `pruned_history_returns`: one that does, and the history that comes back.
-/

namespace OpenGuard.Storage

open OpenGuard.Lib OpenGuard.Domain Database

/-! ## Correlation ids -/

theorem mirrorId_injective : Function.Injective mirrorId := by
  intro m n h
  exact toString_nat_injective ((String.append_right_inj "security-event-").mp h)

/-- The id of a change starts with another letter. -/
theorem changeId_ne_mirrorId (id observedAt : String) (n : ℕ) :
    changeId id observedAt ≠ mirrorId n := by
  intro h
  have hchange : (changeId id observedAt).toList.head? = some 'p' := by
    unfold changeId
    exact head?_toList_append (head?_toList_append (head?_toList_append (by decide)))
  have hmirror : (mirrorId n).toList.head? = some 's' := head?_toList_append (by decide)
  rw [h, hmirror] at hchange
  simp at hchange

/-- The row that `record_event` writes is the one that the initialization would write. -/
theorem ofEvent_mirrorEvent (ownerSid : String) (id : ℕ) (event : SecurityEvent) :
    TimelineRow.ofEvent ownerSid (mirrorEvent id event) =
      mirrorRow (id, .ofEvent ownerSid event) := rfl

theorem isMirrored_iff {rows : RowTable TimelineRow} {event : ℕ × SecurityEventRow} :
    isMirrored rows event ↔ ∃ row ∈ rows.rows, row.2.correlationId = mirrorId event.1 := by
  simp [isMirrored]

/-! ## One mirror for each event -/

/-- A correlation id of a security event stands in one row at most, belongs to an event that was
recorded, and stands in a row that agrees with the event while there is one. -/
structure Mirrors (history : EventHistory) : Prop where
  unique : ∀ n, ∀ x ∈ history.timelineEvents.rows, ∀ y ∈ history.timelineEvents.rows,
    x.2.correlationId = mirrorId n → y.2.correlationId = mirrorId n → x = y
  recorded : ∀ n, ∀ x ∈ history.timelineEvents.rows, x.2.correlationId = mirrorId n →
    n ≤ history.securityEvents.sequence
  agree : ∀ event ∈ history.securityEvents.rows, ∀ x ∈ history.timelineEvents.rows,
    x.2.correlationId = mirrorId event.1 → x.2 = mirrorRow event

/-- The operation writes no row of its own under the correlation id of a security event. -/
def Operation.IsHonest (operation : Operation) : Prop :=
  ∀ ownerSid event, operation = .recordTimeline ownerSid event → ∀ n,
    event.correlationId ≠ mirrorId n

section mirrors

variable {history after : EventHistory} {event : ℕ × SecurityEventRow} {operation : Operation}

/-- A row under another correlation id is no mirror. -/
theorem Mirrors.insert_other (row : TimelineRow) (h : Mirrors history)
    (hother : ∀ n, row.correlationId ≠ mirrorId n) :
    Mirrors { history with timelineEvents := history.timelineEvents.insert row } where
  unique n x hx y hy hxn hyn := by
    rcases RowTable.mem_insert.mp hx with hx | rfl
    · rcases RowTable.mem_insert.mp hy with hy | rfl
      · exact h.unique n x hx y hy hxn hyn
      · exact absurd hyn (hother n)
    · exact absurd hxn (hother n)
  recorded n x hx hxn := by
    rcases RowTable.mem_insert.mp hx with hx | rfl
    · exact h.recorded n x hx hxn
    · exact absurd hxn (hother n)
  agree event hevent x hx hxn := by
    rcases RowTable.mem_insert.mp hx with hx | rfl
    · exact h.agree event hevent x hx hxn
    · exact absurd hxn (hother event.1)

/-- An event without a mirror gets one. -/
theorem Mirrors.insert_mirror (h : Mirrors history)
    (hevent : event ∈ history.securityEvents.rows)
    (hnone : ¬ isMirrored history.timelineEvents event) :
    Mirrors { history with timelineEvents := history.timelineEvents.insert (mirrorRow event) } := by
  have hfresh : ∀ x ∈ history.timelineEvents.rows, x.2.correlationId ≠ mirrorId event.1 :=
    fun x hx hxn => hnone (isMirrored_iff.mpr ⟨x, hx, hxn⟩)
  have hsame : ∀ n, (mirrorRow event).correlationId = mirrorId n → event.1 = n := fun n hn =>
    mirrorId_injective hn
  refine ⟨?_, ?_, ?_⟩
  · intro n x hx y hy hxn hyn
    rcases RowTable.mem_insert.mp hx with hx | rfl
    · rcases RowTable.mem_insert.mp hy with hy | rfl
      · exact h.unique n x hx y hy hxn hyn
      · exact absurd (hsame n hyn ▸ hxn) (hfresh x hx)
    · rcases RowTable.mem_insert.mp hy with hy | rfl
      · exact absurd (hsame n hxn ▸ hyn) (hfresh y hy)
      · rfl
  · intro n x hx hxn
    rcases RowTable.mem_insert.mp hx with hx | rfl
    · exact h.recorded n x hx hxn
    · exact hsame n hxn ▸ history.securityEvents.given event hevent
  · intro other hother x hx hxn
    rcases RowTable.mem_insert.mp hx with hx | rfl
    · exact h.agree other hother x hx hxn
    · rw [RowTable.eq_of_mem hother hevent (hsame other.1 hxn).symm]

/-- A new event has no mirror yet. -/
theorem Mirrors.insert_event (h : Mirrors history) (row : SecurityEventRow) :
    Mirrors { history with securityEvents := history.securityEvents.insert row } ∧
      ¬ isMirrored history.timelineEvents (history.securityEvents.nextId, row) := by
  have hfresh : ∀ x ∈ history.timelineEvents.rows,
      x.2.correlationId ≠ mirrorId history.securityEvents.nextId := fun x hx hxn =>
    absurd (h.recorded _ x hx hxn) (Nat.not_le.mpr (Nat.lt_succ_self _))
  refine ⟨⟨h.unique, ?_, ?_⟩, ?_⟩
  · intro n x hx hxn
    exact (h.recorded n x hx hxn).trans (Nat.le_succ _)
  · intro event hevent x hx hxn
    rcases RowTable.mem_insert.mp hevent with hevent | rfl
    · exact h.agree event hevent x hx hxn
    · exact absurd hxn (hfresh x hx)
  · intro hmirrored
    obtain ⟨x, hx, hxn⟩ := isMirrored_iff.mp hmirrored
    exact hfresh x hx hxn

/-- Rows that go take nothing from the others. -/
theorem Mirrors.prune (h : Mirrors history) (events rows : ℕ) :
    Mirrors { securityEvents := history.securityEvents.keepNewest events
              timelineEvents := history.timelineEvents.keepNewest rows } where
  unique n x hx y hy :=
    h.unique n x (RowTable.keepNewest_subset hx) y (RowTable.keepNewest_subset hy)
  recorded n x hx := h.recorded n x (RowTable.keepNewest_subset hx)
  agree event hevent x hx :=
    h.agree event (RowTable.keepNewest_subset hevent) x (RowTable.keepNewest_subset hx)

/-- Several events without a mirror get theirs. -/
theorem Mirrors.insert_mirrors {events : List (ℕ × SecurityEventRow)} (h : Mirrors history)
    (hordered : events.Pairwise fun x y => x.1 < y.1)
    (hevents : ∀ event ∈ events, event ∈ history.securityEvents.rows ∧
      ¬ isMirrored history.timelineEvents event) :
    Mirrors { history with
      timelineEvents := events.foldl (fun rows event => rows.insert (mirrorRow event))
        history.timelineEvents } := by
  induction events generalizing history with
  | nil => exact h
  | cons event events ih =>
      obtain ⟨hlater, hordered⟩ := List.pairwise_cons.mp hordered
      obtain ⟨hevent, hnone⟩ := hevents event List.mem_cons_self
      refine ih (h.insert_mirror hevent hnone) hordered ?_
      intro other hother
      obtain ⟨hmem, hnone⟩ := hevents other (List.mem_cons_of_mem event hother)
      refine ⟨hmem, fun hmirrored => ?_⟩
      -- the new mirror is that of another event
      obtain ⟨x, hx, hxn⟩ := isMirrored_iff.mp hmirrored
      rcases RowTable.mem_insert.mp hx with hx | rfl
      · exact hnone (isMirrored_iff.mpr ⟨x, hx, hxn⟩)
      · exact absurd (mirrorId_injective hxn) (Nat.ne_of_lt (hlater other hother))

/-- Every operation that forges no mirror preserves `Mirrors`. -/
theorem Mirrors.change (h : Mirrors history) (hchange : HistoryChange history operation after)
    (hhonest : operation.IsHonest) : Mirrors after := by
  cases hchange with
  | same => exact h
  | event ownerSid event =>
      obtain ⟨hafter, hnone⟩ := h.insert_event (.ofEvent ownerSid event)
      rw [insertTimeline, ofEvent_mirrorEvent]
      exact hafter.insert_mirror (RowTable.mem_insert.mpr (Or.inr rfl)) hnone
  | timeline ownerSid event => exact h.insert_other _ (hhonest ownerSid event rfl)
  | changes order ownerSid items observedAt events hids =>
      clear hhonest
      induction events generalizing history with
      | nil => exact h
      | cons event events ih =>
          obtain ⟨id, hid⟩ := hids event List.mem_cons_self
          have hfirst := h.insert_other (.ofEvent ownerSid event) fun n heq =>
            changeId_ne_mirrorId id observedAt n (hid.symm.trans heq)
          exact ih hfirst fun other hother => hids other (List.mem_cons_of_mem event hother)
  | pruned => exact h.prune _ _
  | backfilled =>
      refine h.insert_mirrors (history.securityEvents.ordered.sublist List.filter_sublist) ?_
      intro event hevent
      obtain ⟨hmem, hnone⟩ := List.mem_filter.mp hevent
      exact ⟨hmem, by simpa using hnone⟩

theorem mirrors_created : Mirrors created.history := by
  refine ⟨?_, ?_, ?_⟩ <;>
    simp [created, initializeDatabase, blank, history_migrate, backfill, RowTable.empty]

/-- `Mirrors` holds after every run. -/
theorem mirrors_of_run {calls : List DatabaseCall} {db : Database}
    (hhonest : ∀ call ∈ calls, call.2.IsHonest)
    (hrun : run databaseStep created calls = some db) : Mirrors db.history := by
  refine run_invariant_of_meets (I := fun db => Mirrors db.history)
    (P := fun _ call => call.2.IsHonest) ?_ mirrors_created
    (StepsMeet.of_forall fun call hcall _ => hhonest call hcall) hrun
  intro before call after h hcall hstep
  cases hstep
  exact h.change (historyChange_apply call.1 call.2 before) hcall

end mirrors

/-- **One mirror per event.** In every run in which no other row is written under such a correlation
id, a correlation id `security-event-<n>` stands in one row of the timeline at most, and while event
`n` exists that row has its owner and its content. -/
theorem one_mirror_per_event (calls : List DatabaseCall) (db : Database)
    (hhonest : ∀ call ∈ calls, call.2.IsHonest)
    (hrun : run databaseStep created calls = some db) (n : ℕ) :
    (db.history.timelineEvents.rows.filter fun row =>
        row.2.correlationId = mirrorId n).length ≤ 1 ∧
      ∀ event row, (n, event) ∈ db.history.securityEvents.rows →
        row ∈ db.history.timelineEvents.rows → row.2.correlationId = mirrorId n →
        row.2.ownerSid = event.ownerSid ∧ row.2.action = event.eventType ∧
          row.2.severity = event.severity ∧ row.2.title = event.title ∧
          row.2.detail = event.detail ∧ row.2.processId = event.processId ∧
          row.2.path = event.path ∧ row.2.occurredAt = event.createdAt := by
  have hmirrors := mirrors_of_run hhonest hrun
  constructor
  · apply RowTable.length_filter_le_one
    intro x hx y hy hxn hyn
    exact hmirrors.unique n x hx y hy (of_decide_eq_true hxn) (of_decide_eq_true hyn)
  · intro event row hevent hrow hid
    rw [hmirrors.agree (n, event) hevent row hrow hid]
    simp [mirrorRow]

/-- Two events are recorded, and the service restarts. -/
def sampleCalls : List DatabaseCall :=
  [(none, .recordEvent "owner-a" sampleEvent), (none, .recordEvent "owner-b" sampleEvent),
    (none, .initializeDatabase)]

/-- `one_mirror_per_event` for the second event of the sample. -/
theorem one_mirror_per_event_sample :
    ∃ db, run databaseStep created sampleCalls = some db ∧
      (db.history.timelineEvents.rows.filter fun row =>
        row.2.correlationId = mirrorId 2).length ≤ 1 := by
  refine ⟨_, rfl, (one_mirror_per_event sampleCalls _ ?_ rfl 2).1⟩
  intro call hcall ownerSid event heq
  simp only [sampleCalls, List.mem_cons, List.not_mem_nil, or_false] at hcall
  rcases hcall with rfl | rfl | rfl <;> simp at heq

/-! ## Reopening -/

/-- Every event has its mirror. -/
def AllMirrored (history : EventHistory) : Prop :=
  ∀ event ∈ history.securityEvents.rows, isMirrored history.timelineEvents event

/-- Every table has the same rows. -/
structure Database.SameRows (before after : Database) : Prop where
  metadata : ∀ key, after.metadata.lookup key = before.metadata.lookup key
  tables : after = { before with metadata := after.metadata }

/-- The migrations find nothing to do. -/
structure Database.IsMigrated (db : Database) : Prop where
  primaryKey : db.seenPrimaryKey ≠ ["identity"]
  capabilities : db.scanHasCapabilities = true

/-- The database is at the current schema. -/
structure Database.IsCurrent (db : Database) : Prop extends db.IsMigrated where
  version : db.metadata.lookup "schema_version" = some (toString databaseSchemaVersion)

/-- A pruning keeps the mirrors of the events that it keeps. -/
def KeepsMirrors (db : Database) (call : DatabaseCall) : Prop :=
  ∀ maximumSecurityEvents maximumTimelineEvents,
    call = (none, .pruneEventHistory maximumSecurityEvents maximumTimelineEvents) →
    ∀ event ∈ (db.history.securityEvents.keepNewest (keptRows maximumSecurityEvents)).rows,
      isMirrored (db.history.timelineEvents.keepNewest (keptRows maximumTimelineEvents)) event

section reopening

variable {db : Database} {history after : EventHistory} {event : ℕ × SecurityEventRow}
  {rows rows' : RowTable TimelineRow} {operation : Operation}

theorem Database.IsMigrated.migrate (h : db.IsMigrated) :
    migrateScanCapabilities (migrateSeenExecutables db) = db := by
  rw [migrateSeenExecutables, if_neg h.primaryKey, migrateScanCapabilities, if_pos h.capabilities]

/-- The migrations leave nothing to do. -/
theorem isMigrated_migrate (db : Database) :
    (migrateScanCapabilities (migrateSeenExecutables db)).IsMigrated where
  primaryKey := by
    unfold migrateScanCapabilities migrateSeenExecutables
    split_ifs <;> simp [currentPrimaryKey, *]
  capabilities := by
    unfold migrateScanCapabilities
    split_ifs with hcapabilities
    · exact hcapabilities
    · rfl

/-- The schema of a current database stays as it is. -/
theorem initializeDatabase_of_isMigrated (h : db.IsMigrated) :
    (initializeDatabase none db).2 =
      { db with
        history := backfill db.history
        metadata := db.metadata.insert "schema_version" (toString databaseSchemaVersion) } := by
  simp [initializeDatabase, h.migrate]

/-- The backfill changes nothing when no event lacks its mirror. -/
theorem backfill_eq_iff : backfill history = history ↔ AllMirrored history := by
  have hall : AllMirrored history ↔ (history.securityEvents.rows.filter fun event =>
      !isMirrored history.timelineEvents event) = [] := by
    simp [AllMirrored, List.filter_eq_nil_iff]
  rw [hall]
  constructor
  · intro h
    have hsequence := congrArg (·.timelineEvents.sequence) h
    simp only [backfill, RowTable.sequence_foldl_insert] at hsequence
    exact List.length_eq_zero_iff.mp (by omega)
  · intro h
    simp [backfill, h]

/-- **When reopening changes nothing.** At the current schema the initialization leaves every row of
every table as it is exactly when every event has its mirror. -/
theorem initialize_same_iff (h : db.IsCurrent) :
    db.SameRows (initializeDatabase none db).2 ↔ AllMirrored db.history := by
  rw [initializeDatabase_of_isMigrated h.toIsMigrated, ← backfill_eq_iff]
  constructor
  · intro hsame
    have htables := congrArg Database.history hsame.tables
    exact htables
  · intro hbackfill
    refine ⟨fun key => ?_, by rw [hbackfill]⟩
    by_cases hkey : key = "schema_version"
    · rw [hkey, AList.lookup_insert, h.version]
    · exact AList.lookup_insert_ne hkey

theorem isMirrored_of_subset (hsub : ∀ x ∈ rows.rows, x ∈ rows'.rows)
    (h : isMirrored rows event) : isMirrored rows' event := by
  obtain ⟨x, hx, hid⟩ := isMirrored_iff.mp h
  exact isMirrored_iff.mpr ⟨x, hsub x hx, hid⟩

/-- After the backfill no event lacks its mirror. -/
theorem allMirrored_backfill : AllMirrored (backfill history) := by
  intro event hevent
  by_cases hmirrored : isMirrored history.timelineEvents event
  · exact isMirrored_of_subset (fun x hx => RowTable.mem_foldl_insert _ _ hx) hmirrored
  · have hmem : event ∈ history.securityEvents.rows.filter fun event =>
        !isMirrored history.timelineEvents event :=
      List.mem_filter.mpr ⟨hevent, by simpa using hmirrored⟩
    obtain ⟨id, hid⟩ := RowTable.exists_mem_foldl_insert mirrorRow history.timelineEvents hmem
    exact isMirrored_iff.mpr ⟨_, hid, rfl⟩

/-- Every operation but a pruning preserves `AllMirrored`. -/
theorem AllMirrored.change (h : AllMirrored history)
    (hchange : HistoryChange history operation after)
    (hpruned : ∀ maximumSecurityEvents maximumTimelineEvents,
      operation = .pruneEventHistory maximumSecurityEvents maximumTimelineEvents →
      AllMirrored after) : AllMirrored after := by
  cases hchange with
  | same => exact h
  | event ownerSid recorded =>
      intro event hevent
      rcases RowTable.mem_insert.mp hevent with hevent | rfl
      · exact isMirrored_of_subset (fun x hx => RowTable.mem_insert.mpr (Or.inl hx))
          (h event hevent)
      · exact isMirrored_iff.mpr ⟨_, RowTable.mem_insert.mpr (Or.inr rfl), rfl⟩
  | timeline ownerSid recorded =>
      exact fun event hevent => isMirrored_of_subset
        (fun x hx => RowTable.mem_insert.mpr (Or.inl hx)) (h event hevent)
  | changes order ownerSid items observedAt events hids =>
      exact fun event hevent => isMirrored_of_subset
        (fun x hx => RowTable.mem_foldl_insert _ _ hx) (h event hevent)
  | pruned => exact hpruned _ _ rfl
  | backfilled => exact allMirrored_backfill

theorem isMigrated_initializeDatabase (db : Database) :
    (initializeDatabase none db).2.IsMigrated :=
  ⟨(isMigrated_migrate db).primaryKey, (isMigrated_migrate db).capabilities⟩

/-- No operation brings an older schema back. -/
theorem Database.IsMigrated.apply (h : db.IsMigrated) (fault : Fault) (operation : Operation) :
    (operation.apply fault db).IsMigrated := by
  cases fault with
  | some error =>
      rw [Operation.apply_some]
      exact h
  | none =>
      cases operation with
      | initializeDatabase => exact isMigrated_initializeDatabase db
      | _ => exact ⟨h.primaryKey, h.capabilities⟩

/-- What holds after every run whose prunings keep the mirrors of the events that they keep. -/
theorem allMirrored_of_run {file : Database} {calls : List DatabaseCall}
    (hkeeps : StepsMeet KeepsMirrors databaseStep (initializeDatabase none file).2 calls)
    (hrun : run databaseStep (initializeDatabase none file).2 calls = some db) :
    db.IsMigrated ∧ AllMirrored db.history := by
  refine run_invariant_of_meets
    (I := fun db : Database => db.IsMigrated ∧ AllMirrored db.history) ?_ ?_ hkeeps hrun
  · rintro before ⟨fault, operation⟩ after ⟨hmigrated, hmirrored⟩ hkeepsCall hstep
    cases hstep
    refine ⟨hmigrated.apply fault operation, ?_⟩
    refine hmirrored.change (historyChange_apply fault operation before) ?_
    rintro maximumSecurityEvents maximumTimelineEvents rfl
    cases fault with
    | some error =>
        rw [Operation.apply_some]
        exact hmirrored
    | none => exact hkeepsCall _ _ rfl
  · exact ⟨isMigrated_initializeDatabase file, allMirrored_backfill⟩

/-- **Reopening changes nothing** after every run, on a new file or an older one, whose prunings
keep the mirrors of the events that they keep, if the database is at the current schema version. -/
theorem reopening_changes_nothing (file : Database) (calls : List DatabaseCall) (db : Database)
    (fault : Fault)
    (hkeeps : StepsMeet KeepsMirrors databaseStep (initializeDatabase none file).2 calls)
    (hrun : run databaseStep (initializeDatabase none file).2 calls = some db)
    (hversion : db.metadata.lookup "schema_version" = some (toString databaseSchemaVersion)) :
    db.SameRows (initializeDatabase fault db).2 := by
  obtain ⟨hmigrated, hmirrored⟩ := allMirrored_of_run hkeeps hrun
  cases fault with
  | some error => exact ⟨fun _ => rfl, rfl⟩
  | none => exact (initialize_same_iff ⟨hmigrated, hversion⟩).mpr hmirrored

/-- `reopening_changes_nothing` for the sample. -/
theorem reopening_changes_nothing_sample :
    ∃ db, run databaseStep created sampleCalls = some db ∧
      db.SameRows (initializeDatabase none db).2 := by
  refine ⟨_, rfl, reopening_changes_nothing blank sampleCalls _ none ?_ rfl (by decide +kernel)⟩
  refine StepsMeet.of_forall fun call hcall db maximumSecurityEvents maximumTimelineEvents heq => ?_
  simp only [sampleCalls, List.mem_cons, List.not_mem_nil, or_false] at hcall
  rcases hcall with rfl | rfl | rfl <;> simp at heq

/-- Two events are recorded, and a pruning keeps both but only one row of the timeline. -/
def prunedCalls : List DatabaseCall :=
  [(none, .recordEvent "owner-a" sampleEvent), (none, .recordEvent "owner-b" sampleEvent),
    (none, .pruneEventHistory 2 1)]

/-- The mirror that was pruned comes back with a fresh id when the service restarts. -/
theorem pruned_history_returns :
    ∃ db, run databaseStep created prunedCalls = some db ∧ db.IsCurrent ∧
      ¬ db.SameRows (initializeDatabase none db).2 ∧
      (initializeDatabase none db).2.history.timelineEvents.rows.map Prod.fst = [2, 3] := by
  have hcurrent : ∀ {db}, run databaseStep created prunedCalls = some db → db.IsCurrent := by
    rintro db ⟨⟩
    exact ⟨⟨by decide, rfl⟩, by decide +kernel⟩
  refine ⟨_, rfl, hcurrent rfl, fun hsame => ?_, by decide +kernel⟩
  -- the first event is there and its mirror is not
  have hall := List.all_eq_true.mpr ((initialize_same_iff (hcurrent rfl)).mp hsame)
  exact absurd hall (by decide +kernel)

end reopening

end OpenGuard.Storage
