import OpenGuard.Domain.Models
import OpenGuard.Lib.RowTable
import OpenGuard.Lib.Text
import OpenGuard.Storage.Store
import Mathlib.Data.List.Sort

/-!
# Security events and the timeline

Two tables with automatic keys hold the history. A security event is written together with a row of
the timeline that mirrors it, and both tables are cut back to their newest rows from time to time.

* `recordEvent`, `recordTimeline`, `pruneEventHistory`: the writers.
* `recentEvents`: the newest events of an owner, `timeline`: a page of the timeline.
* `timeline_ok`: what a page is.
-/

namespace OpenGuard.Storage

open OpenGuard.Lib OpenGuard.Domain

/-! ## Rows -/

/-- A row of `security_events` besides its id. -/
structure SecurityEventRow where
  ownerSid : String
  eventType : String
  severity : String
  title : String
  detail : String
  processId : Option UInt32
  path : String
  createdAt : String
  resolved : Bool
  deriving DecidableEq, Inhabited

/-- A row of `timeline_events` besides its id. -/
structure TimelineRow where
  ownerSid : String
  category : String
  action : String
  severity : String
  title : String
  detail : String
  processId : Option UInt32
  path : String
  remoteAddress : String
  correlationId : String
  occurredAt : String
  deriving DecidableEq, Inhabited

/-- The tables `security_events` and `timeline_events`. -/
structure EventHistory where
  securityEvents : RowTable SecurityEventRow
  timelineEvents : RowTable TimelineRow

/-- The row of an event. -/
def SecurityEventRow.ofEvent (ownerSid : String) (event : SecurityEvent) : SecurityEventRow where
  ownerSid
  eventType := event.eventType
  severity := event.severity.display
  title := event.title
  detail := event.detail
  processId := event.processId
  path := event.path
  createdAt := event.createdAt
  resolved := event.resolved

/-- The row of an event of the timeline. -/
def TimelineRow.ofEvent (ownerSid : String) (event : TimelineEvent) : TimelineRow where
  ownerSid
  category := event.category
  action := event.action
  severity := event.severity.display
  title := event.title
  detail := event.detail
  processId := event.processId
  path := event.path
  remoteAddress := event.remoteAddress
  correlationId := event.correlationId
  occurredAt := event.occurredAt

/-- The error of a row whose severity is not one. -/
def severityError (index : ℕ) (value : String) : StorageError :=
  .database ("Conversion error from type Text at index: " ++ toString index ++
    ", invalid severity " ++ value)

/-- Source: `storage/lib.rs`, `severity_from_row` -/
def severityFromRow (index : ℕ) (value : String) : Except StorageError Severity :=
  match Severity.parse value with
  | some severity => .ok severity
  | none => .error (severityError index value)

/-- Source: `storage/lib.rs`, `timeline_from_row` -/
def timelineFromRow (row : ℕ × TimelineRow) : Except StorageError (ℕ × TimelineEvent) :=
  (severityFromRow 3 row.2.severity).map fun severity =>
    (row.1,
      { category := row.2.category
        action := row.2.action
        severity
        title := row.2.title
        detail := row.2.detail
        processId := row.2.processId
        path := row.2.path
        remoteAddress := row.2.remoteAddress
        correlationId := row.2.correlationId
        occurredAt := row.2.occurredAt })

/-- The closure that reads a row. The index in its error is the length of the text.
Source: `storage/lib.rs`, `Database::recent_events` -/
def securityEventFromRow (row : ℕ × SecurityEventRow) : Except StorageError (ℕ × SecurityEvent) :=
  (severityFromRow row.2.severity.utf8ByteSize row.2.severity).map fun severity =>
    (row.1,
      { eventType := row.2.eventType
        severity
        title := row.2.title
        detail := row.2.detail
        processId := row.2.processId
        path := row.2.path
        createdAt := row.2.createdAt
        resolved := row.2.resolved })

/-! ## Writers -/

/-- Source: `storage/lib.rs`, `insert_timeline` -/
def insertTimeline (ownerSid : String) (event : TimelineEvent) (rows : RowTable TimelineRow) :
    RowTable TimelineRow := rows.insert (.ofEvent ownerSid event)

/-- The correlation id of the row that mirrors a security event. -/
def mirrorId (id : ℕ) : String := "security-event-" ++ toString id

/-- The event of the timeline that mirrors a security event. -/
def mirrorEvent (id : ℕ) (event : SecurityEvent) : TimelineEvent where
  category := "detection"
  action := event.eventType
  severity := event.severity
  title := event.title
  detail := event.detail
  processId := event.processId
  path := event.path
  remoteAddress := ""
  correlationId := mirrorId id
  occurredAt := event.createdAt

/-- Source: `storage/lib.rs`, `Database::record_event` -/
def recordEvent (fault : Fault) (ownerSid : String) (event : SecurityEvent)
    (history : EventHistory) : Except StorageError ℕ × EventHistory :=
  call fault
    (fun history =>
      let id := history.securityEvents.nextId
      (.ok id,
        { securityEvents := history.securityEvents.insert (.ofEvent ownerSid event)
          timelineEvents :=
            insertTimeline ownerSid (mirrorEvent id event) history.timelineEvents }))
    history

/-- Source: `storage/lib.rs`, `Database::record_timeline` -/
def recordTimeline (fault : Fault) (ownerSid : String) (event : TimelineEvent)
    (rows : RowTable TimelineRow) : Except StorageError ℕ × RowTable TimelineRow :=
  call fault (fun rows => (.ok rows.nextId, insertTimeline ownerSid event rows)) rows

/-- The number of rows that a pruning keeps: at least one. -/
def keptRows (maximum : UInt32) : ℕ := max maximum.toNat 1

/-- Source: `storage/lib.rs`, `Database::prune_event_history` -/
def pruneEventHistory (fault : Fault) (maximumSecurityEvents maximumTimelineEvents : UInt32)
    (history : EventHistory) : Except StorageError (ℕ × ℕ) × EventHistory :=
  call fault
    (fun history =>
      let securityEvents := history.securityEvents.keepNewest (keptRows maximumSecurityEvents)
      let timelineEvents := history.timelineEvents.keepNewest (keptRows maximumTimelineEvents)
      (.ok (history.securityEvents.rows.length - securityEvents.rows.length,
          history.timelineEvents.rows.length - timelineEvents.rows.length),
        { securityEvents, timelineEvents }))
    history

/-! ## Readers -/

/-- A limit that a caller asks for, brought between one and a maximum. -/
def safeLimit (limit : UInt32) (maximum : ℕ) : ℕ := max 1 (min limit.toNat maximum)

/-- The order of `created_at DESC, id DESC`; texts are compared by their characters. -/
def listedBefore (x y : ℕ × SecurityEventRow) : Prop :=
  y.2.createdAt < x.2.createdAt ∨ x.2.createdAt = y.2.createdAt ∧ y.1 ≤ x.1

instance : DecidableRel listedBefore := fun x y =>
  inferInstanceAs (Decidable (y.2.createdAt < x.2.createdAt ∨
    x.2.createdAt = y.2.createdAt ∧ y.1 ≤ x.1))

/-- The rows of the owner and the shared ones, in the order of the list. -/
def listedEvents (ownerSid : String) (rows : RowTable SecurityEventRow) :
    List (ℕ × SecurityEventRow) :=
  (rows.rows.filter fun row => row.2.ownerSid == ownerSid || row.2.ownerSid == "").insertionSort
    listedBefore

/-- Source: `storage/lib.rs`, `Database::recent_events` -/
def recentEvents (fault : Fault) (ownerSid : String) (limit : UInt32)
    (rows : RowTable SecurityEventRow) : Except StorageError (List (ℕ × SecurityEvent)) :=
  (call fault
    (fun rows =>
      (((listedEvents ownerSid rows).take (safeLimit limit 2000)).mapM securityEventFromRow, rows))
    rows).1

/-- The condition of the query on the columns of a row.
Source: `storage/lib.rs`, `Database::timeline` -/
def timelineMatches (ownerSid : String) (category : Option String) (processId : Option UInt32)
    (search : Option String) (row : TimelineRow) : Bool :=
  let contains := fun column text => like column ("%" ++ text ++ "%")
  (row.ownerSid == ownerSid || row.ownerSid == "") &&
    category.all (row.category == ·) && processId.all (row.processId == some ·) &&
    search.all fun text =>
      contains row.title text || contains row.detail text || contains row.path text ||
        contains row.remoteAddress text

/-- The search text that the query uses: nothing for a blank one.
Source: `storage/lib.rs`, `Database::timeline` -/
def normalizedSearch (search : Option String) : Option String := (search.map trim).filter (· != "")

/-- The rows that satisfy the condition of the query, newest first.
Source: `storage/lib.rs`, `Database::timeline` -/
def fetchedRows (ownerSid : String) (beforeId : Option ℤ) (category : Option String)
    (processId : Option UInt32) (search : Option String) (rows : RowTable TimelineRow) :
    List (ℕ × TimelineRow) :=
  rows.newest fun row =>
    timelineMatches ownerSid category processId (normalizedSearch search) row.2 &&
      beforeId.all fun before => (row.1 : ℤ) < before

/-- Source: `storage/lib.rs`, `Database::timeline` -/
def timeline (fault : Fault) (ownerSid : String) (beforeId : Option ℤ) (limit : UInt32)
    (category : Option String) (processId : Option UInt32) (search : Option String)
    (rows : RowTable TimelineRow) : Except StorageError TimelinePage :=
  (call fault
    (fun rows =>
      let safeLimit := safeLimit limit 500
      let fetched := fetchedRows ownerSid beforeId category processId search rows
      match (fetched.take (safeLimit + 1)).mapM timelineFromRow with
      | .error error => (.error error, rows)
      | .ok events =>
          -- the row beyond the page only tells that there is more
          let hasMore := decide (safeLimit < events.length)
          let events := if hasMore then events.take safeLimit else events
          let nextBeforeId := if hasMore then events.getLast?.map Prod.fst else none
          (.ok { events, nextBeforeId }, rows))
    rows).1

/-! ## What is read -/

section read

variable {α β : Type*} {f : α → Except StorageError β}

/-- A list that is read row by row. -/
theorem mapM_ok_iff {l : List α} {results : List β} :
    l.mapM f = .ok results ↔ List.Forall₂ (fun row result => f row = .ok result) l results := by
  induction l generalizing results with
  | nil => cases results <;> simp [pure, Except.pure]
  | cons row l ih =>
      rw [List.mapM_cons]
      cases hrow : f row with
      | error error => cases results <;> simp [bind, Except.bind, hrow]
      | ok result =>
          cases hrest : l.mapM f with
          | error error =>
              cases results <;> simp [bind, Except.bind, hrow, hrest, ← ih]
          | ok rest =>
              cases results <;> simp [bind, Except.bind, pure, Except.pure, hrow, hrest, ← ih]

/-- A row that is read gives one of the results. -/
theorem exists_of_mem_left {R : α → β → Prop} {l : List α} {results : List β}
    (h : List.Forall₂ R l results) {row : α} (hrow : row ∈ l) :
    ∃ result ∈ results, R row result := by
  induction h with
  | nil => simp at hrow
  | cons hfirst _ ih =>
      rcases List.mem_cons.mp hrow with rfl | hrow
      · exact ⟨_, List.mem_cons_self, hfirst⟩
      · obtain ⟨result, hresult, hread⟩ := ih hrow
        exact ⟨result, List.mem_cons_of_mem _ hresult, hread⟩

/-- A row keeps its id when the rest of it is read. -/
theorem fst_of_map_ok {σ ε : Type*} {severity : Except StorageError σ} {g : σ → ε} {id : ℕ}
    {event : ℕ × ε} (h : (severity.map fun value => (id, g value)) = .ok event) : event.1 = id := by
  cases severity with
  | error error => simp [Except.map] at h
  | ok value => rw [← Except.ok.inj h]

/-- Rows that keep their ids when they are read. -/
theorem map_fst_of_mapM {ρ ε : Type*} {f : ℕ × ρ → Except StorageError (ℕ × ε)}
    (hf : ∀ row event, f row = .ok event → event.1 = row.1) {rows : List (ℕ × ρ)}
    {events : List (ℕ × ε)} (h : List.Forall₂ (fun row event => f row = .ok event) rows events) :
    events.map Prod.fst = rows.map Prod.fst := by
  induction h with
  | nil => rfl
  | cons hrow _ ih => rw [List.map_cons, List.map_cons, hf _ _ hrow, ih]

/-- Rows that can be read one by one can be read together. -/
theorem exists_mapM {l : List α} (h : ∀ row ∈ l, ∃ result, f row = .ok result) :
    ∃ results, l.mapM f = .ok results := by
  simp only [mapM_ok_iff]
  induction l with
  | nil => exact ⟨[], List.Forall₂.nil⟩
  | cons row l ih =>
      obtain ⟨result, hresult⟩ := h row List.mem_cons_self
      obtain ⟨results, hresults⟩ := ih fun other hother => h other (List.mem_cons_of_mem row hother)
      exact ⟨result :: results, List.Forall₂.cons hresult hresults⟩

end read

section page

variable {fault : Fault} {ownerSid : String} {beforeId : Option ℤ} {limit : UInt32}
  {category : Option String} {processId : Option UInt32} {search : Option String}
  {rows : RowTable TimelineRow} {page : TimelinePage}

/-- A row of the timeline keeps its id when it is read. -/
theorem fst_timelineFromRow {row : ℕ × TimelineRow} {event : ℕ × TimelineEvent}
    (h : timelineFromRow row = .ok event) : event.1 = row.1 := fst_of_map_ok h

theorem map_fst_of_read {rows : List (ℕ × TimelineRow)} {events : List (ℕ × TimelineEvent)}
    (h : List.Forall₂ (fun row event => timelineFromRow row = .ok event) rows events) :
    events.map Prod.fst = rows.map Prod.fst := map_fst_of_mapM (fun _ _ => fst_timelineFromRow) h

/-- What a page is: as many of the rows as the limit allows, and the id of the last of them if
there are more. -/
theorem timeline_ok
    (h : timeline fault ownerSid beforeId limit category processId search rows = .ok page) :
    let fetched := fetchedRows ownerSid beforeId category processId search rows
    List.Forall₂ (fun row event => timelineFromRow row = .ok event)
        (fetched.take (safeLimit limit 500)) page.events ∧
      page.nextBeforeId = if safeLimit limit 500 < fetched.length then
        ((fetched.take (safeLimit limit 500)).getLast?).map Prod.fst else none := by
  intro fetched
  unfold timeline at h
  cases fault with
  | some error => simp at h
  | none =>
      rw [call_none] at h
      dsimp only at h
      cases hread : (fetched.take (safeLimit limit 500 + 1)).mapM timelineFromRow with
      | error error => simp [hread, fetched] at h
      | ok events =>
          have hrows := mapM_ok_iff.mp hread
          have hlength := hrows.length_eq
          rw [List.length_take] at hlength
          simp only [fetched] at hread
          rw [hread] at h
          have hpage := Except.ok.inj h
          by_cases hmore : safeLimit limit 500 < fetched.length
          · have hevents : safeLimit limit 500 < events.length := by omega
            have hcut := List.forall₂_take (safeLimit limit 500) hrows
            rw [List.take_take, Nat.min_eq_left (Nat.le_succ _)] at hcut
            simp only [hevents, decide_true, if_true] at hpage
            rw [← hpage, if_pos hmore, ← List.getLast?_map, ← List.getLast?_map,
              map_fst_of_read hcut]
            exact ⟨hcut, rfl⟩
          · have hevents : ¬ safeLimit limit 500 < events.length := by omega
            simp only [hevents, decide_false, Bool.false_eq_true, if_false] at hpage
            rw [List.take_of_length_le (by omega)] at hrows
            rw [← hpage, if_neg hmore, List.take_of_length_le (by omega)]
            exact ⟨hrows, rfl⟩

end page

/-- An event of the service. -/
def sampleEvent : SecurityEvent where
  eventType := "new_executable"
  severity := .high
  title := "New executable"
  detail := "Unsigned program contacted a new destination"
  processId := some 42
  path := "C:\\Users\\Test\\Downloads\\sample.exe"
  createdAt := "unix:1786090000"
  resolved := false

end OpenGuard.Storage
