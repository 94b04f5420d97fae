import OpenGuard.Ipc.Frame
import OpenGuard.Ipc.Protocol
import OpenGuard.Lib.JsonText
import OpenGuard.Storage.Mirrors
import Mathlib.Algebra.Group.Action.Defs
import Mathlib.Algebra.Order.BigOperators.Group.List

/-!
# The answers to history requests

The two requests that read the history, their answers as JSON, and the frame that carries an answer
back. A row of the history holds texts of any length, so the frame can be too large: a response
request that is rejected is written to the timeline with all of its path, also when the path is the
reason of the rejection.

* `serveHistory`: the answer to a request, `responseCodec`: its JSON.
* `answerBytes`: the bytes of the answer, from the rows that the request selects.
* `history_answered`: when the answer can be written.
-/

namespace OpenGuard.Ipc

open OpenGuard.Lib OpenGuard.Domain OpenGuard.Service OpenGuard.Storage

/-! ## Answers -/

/-- Source: `protocol.rs`, `PROTOCOL_VERSION` -/
def protocolVersion : UInt16 := 1

/-- The data that answers a request for the history.
Source: `protocol.rs`, `ResponseData` -/
inductive ResponseData where
  | events (events : List (ℕ × SecurityEvent))
  | timeline (page : TimelinePage)

/-- Source: `protocol.rs`, `Response` -/
inductive Response where
  | success (data : ResponseData)
  | error (error : ApiError)

/-- Source: `protocol.rs`, `ResponseEnvelope` -/
structure ResponseEnvelope where
  protocol : UInt16
  requestId : String
  body : Response

/-- Source: `ipc/lib.rs`, `valid_request_id` -/
def validRequestId (value : String) : Bool :=
  value != "" && value.utf8ByteSize ≤ 64 &&
    value.toList.all fun c => c.isAlphanum || c == '-' || c == '_'

/-- Source: `ipc/lib.rs`, `validate_request` -/
def validateRequest (request : RequestEnvelope) : Except FrameError Unit :=
  if request.protocol ≠ protocolVersion then
    .error (.unsupportedProtocol request.protocol protocolVersion)
  else if !validRequestId request.requestId then .error .invalidRequestId
  else .ok ()

/-- The text `Display` gives an error of a frame. -/
def FrameError.display : FrameError → String
  | .io message => "I/O error: " ++ message
  | .json message => "JSON error: " ++ message
  | .invalidSize actual maximum =>
      "frame size " ++ toString actual ++ " is outside the allowed range 1..=" ++ toString maximum
  | .unsupportedProtocol actual expected =>
      "unsupported protocol version " ++ toString actual.toNat ++ "; expected " ++
        toString expected.toNat
  | .invalidRequestId =>
      "request identifier must be 1..=64 visible ASCII letters, digits, '-' or '_'"

/-- The result of a request for the history, on the database as it is once the service has stored
the activity that was waiting; other requests have none here.
Source: `main.rs`, `handle_request` -/
def handleHistory (fault : Fault) (ownerSid : String) (db : Database) :
    Request → Option (Except ApiError ResponseData)
  | .recentEvents limit =>
      some (((recentEvents fault ownerSid limit db.history.securityEvents).map .events).mapError
        fun error => ⟨.internal, error.display, true⟩)
  | .getTimeline beforeId limit category processId search =>
      some (((timeline fault ownerSid beforeId limit category processId search
        db.history.timelineEvents).map .timeline).mapError
          (storageApiError "Read investigation timeline"))
  | _ => none

/-- Source: `main.rs`, `serve_connection` -/
def serveHistory (fault : Fault) (ownerSid : String) (db : Database)
    (request : RequestEnvelope) : Option ResponseEnvelope :=
  match validateRequest request with
  | .error error =>
      some ⟨protocolVersion, request.requestId, .error ⟨.invalidRequest, error.display, false⟩⟩
  | .ok () =>
      (handleHistory fault ownerSid db request.body).map fun
        | .ok data => ⟨protocolVersion, request.requestId, .success data⟩
        | .error error => ⟨protocolVersion, request.requestId, .error error⟩

/-! ## Their JSON -/

/-- Source: `protocol.rs`, `ErrorCode` -/
def errorCodeText : ErrorCode → String
  | .invalidRequest => "invalid_request"
  | .unsupportedProtocol => "unsupported_protocol"
  | .unauthorized => "unauthorized"
  | .forbidden => "forbidden"
  | .notFound => "not_found"
  | .conflict => "conflict"
  | .busy => "busy"
  | .limitedCoverage => "limited_coverage"
  | .internal => "internal"

/-- An optional number. -/
def optionJson : Option ℕ → Json
  | none => .null
  | some n => .int n

/-- Source: `models.rs`, `SecurityEvent` -/
def securityEventJson (event : ℕ × SecurityEvent) : Json :=
  .object [("id", .int event.1), ("event_type", .string event.2.eventType),
    ("severity", .string event.2.severity.display), ("title", .string event.2.title),
    ("detail", .string event.2.detail),
    ("process_id", optionJson (event.2.processId.map UInt32.toNat)),
    ("path", .string event.2.path), ("created_at", .string event.2.createdAt),
    ("resolved", .bool event.2.resolved)]

/-- Source: `models.rs`, `TimelineEvent` -/
def timelineEventJson (event : ℕ × TimelineEvent) : Json :=
  .object [("id", .int event.1), ("category", .string event.2.category),
    ("action", .string event.2.action), ("severity", .string event.2.severity.display),
    ("title", .string event.2.title), ("detail", .string event.2.detail),
    ("process_id", optionJson (event.2.processId.map UInt32.toNat)),
    ("path", .string event.2.path), ("remote_address", .string event.2.remoteAddress),
    ("correlation_id", .string event.2.correlationId),
    ("occurred_at", .string event.2.occurredAt)]

/-- Source: `protocol.rs`, `ResponseData`; `models.rs`, `TimelinePage` -/
def ResponseData.json : ResponseData → Json
  | events rows =>
      .object [("type", .string "events"), ("value", .array (rows.map securityEventJson))]
  | timeline page =>
      .object [("type", .string "timeline"), ("value", .object
        [("events", .array (page.events.map timelineEventJson)),
          ("next_before_id", optionJson page.nextBeforeId)])]

/-- Source: `protocol.rs`, `ApiError` -/
def apiErrorJson (error : ApiError) : Json :=
  .object [("code", .string (errorCodeText error.code)), ("message", .string error.message),
    ("retryable", .bool error.retryable)]

/-- Source: `protocol.rs`, `Response` -/
def Response.json : Response → Json
  | success data => .object [("status", .string "success"), ("data", data.json)]
  | error failure => .object [("status", .string "error"), ("error", apiErrorJson failure)]

/-- Source: `protocol.rs`, `ResponseEnvelope` -/
def ResponseEnvelope.json (envelope : ResponseEnvelope) : Json :=
  .object [("protocol", .int envelope.protocol.toNat), ("request_id", .string envelope.requestId),
    ("body", envelope.body.json)]

/-- The JSON of a response; how the client reads it is left open. -/
def responseCodec
    (deserialize : List UInt8 → Except String (ResponseEnvelope × List UInt8)) :
    JsonCodec ResponseEnvelope where
  serialize envelope := .ok envelope.json.render.toUTF8.data.toList
  deserialize

/-! ## Sizes -/

/-- The decimal digits of a number. -/
def digits (n : ℕ) : ℕ := (toString n).utf8ByteSize

/-- The bytes of an optional number. -/
def optionBytes : Option ℕ → ℕ
  | none => 4
  | some n => digits n

/-- The bytes of a security event: those of its values, and of the braces, the commas, the names and
the quotation marks. -/
def securityRowBytes (row : ℕ × SecurityEventRow) : ℕ :=
  112 + digits row.1 + escapedBytes row.2.eventType + escapedBytes row.2.severity +
    escapedBytes row.2.title + escapedBytes row.2.detail +
    optionBytes (row.2.processId.map UInt32.toNat) + escapedBytes row.2.path +
    escapedBytes row.2.createdAt + if row.2.resolved then 4 else 5

/-- The bytes of a row of the timeline. -/
def timelineRowBytes (row : ℕ × TimelineRow) : ℕ :=
  151 + digits row.1 + escapedBytes row.2.category + escapedBytes row.2.action +
    escapedBytes row.2.severity + escapedBytes row.2.title + escapedBytes row.2.detail +
    optionBytes (row.2.processId.map UInt32.toNat) + escapedBytes row.2.path +
    escapedBytes row.2.remoteAddress + escapedBytes row.2.correlationId +
    escapedBytes row.2.occurredAt

/-- The bytes of rows in a list: they are separated by commas. -/
def listBytes {α : Type} (bytes : α → ℕ) (rows : List α) : ℕ :=
  (rows.map bytes).sum + (rows.length - 1)

/-- The bytes of the answer, from the rows that the request selects. -/
def answerBytes (ownerSid : String) (db : Database) (request : RequestEnvelope) : ℕ :=
  match request.body with
  | .recentEvents limit =>
      escapedBytes request.requestId + 94 +
        listBytes securityRowBytes
          ((listedEvents ownerSid db.history.securityEvents).take (safeLimit limit 2000))
  | .getTimeline beforeId limit category processId search =>
      let fetched :=
        fetchedRows ownerSid beforeId category processId search db.history.timelineEvents
      let rows := fetched.take (safeLimit limit 500)
      escapedBytes request.requestId + 125 + listBytes timelineRowBytes rows +
        optionBytes (if safeLimit limit 500 < fetched.length then rows.getLast?.map Prod.fst
          else none)
  | _ => 0

section sizes

/-- The names of the fields need no escapes. -/
theorem nameBytes : escapedBytes "id" = 2 ∧ escapedBytes "event_type" = 10 ∧
    escapedBytes "severity" = 8 ∧ escapedBytes "title" = 5 ∧ escapedBytes "detail" = 6 ∧
    escapedBytes "process_id" = 10 ∧ escapedBytes "path" = 4 ∧ escapedBytes "created_at" = 10 ∧
    escapedBytes "resolved" = 8 ∧ escapedBytes "category" = 8 ∧ escapedBytes "action" = 6 ∧
    escapedBytes "remote_address" = 14 ∧ escapedBytes "correlation_id" = 14 ∧
    escapedBytes "occurred_at" = 11 ∧ escapedBytes "type" = 4 ∧ escapedBytes "value" = 5 ∧
    escapedBytes "events" = 6 ∧ escapedBytes "timeline" = 8 ∧ escapedBytes "next_before_id" = 14 ∧
    escapedBytes "status" = 6 ∧ escapedBytes "success" = 7 ∧ escapedBytes "data" = 4 ∧
    escapedBytes "protocol" = 8 ∧ escapedBytes "request_id" = 10 ∧ escapedBytes "body" = 4 := by
  decide

theorem byteSize_natCast (n : ℕ) : Json.byteSize (.int n) = digits n := rfl

theorem byteSize_optionJson (n : Option ℕ) : Json.byteSize (optionJson n) = optionBytes n := by
  cases n <;> rfl

/-- The row is one of an event: its severity is one. -/
def ReadableSeverity (severity : String) : Prop := ∃ value : Severity, severity = value.display

theorem byteSize_securityEvent (row : ℕ × SecurityEventRow) (event : ℕ × SecurityEvent)
    (hreadable : ReadableSeverity row.2.severity) (h : securityEventFromRow row = .ok event) :
    Json.byteSize (securityEventJson event) = securityRowBytes row := by
  obtain ⟨severity, hseverity⟩ := hreadable
  rw [securityEventFromRow, severityFromRow, hseverity, Severity.parse_display] at h
  rw [← Except.ok.inj h]
  have hresolved : Json.byteSize (.bool row.2.resolved) = if row.2.resolved then 4 else 5 := by
    cases row.2.resolved <;> rfl
  simp only [securityEventJson, Json.byteSize_object, List.map_cons, List.map_nil, List.sum_cons,
    List.sum_nil, List.length_cons, List.length_nil, Json.entryBytes, nameBytes,
    Json.byteSize_string, byteSize_natCast, byteSize_optionJson, hresolved, securityRowBytes,
    hseverity]
  omega

theorem byteSize_timelineEvent (row : ℕ × TimelineRow) (event : ℕ × TimelineEvent)
    (hreadable : ReadableSeverity row.2.severity) (h : timelineFromRow row = .ok event) :
    Json.byteSize (timelineEventJson event) = timelineRowBytes row := by
  obtain ⟨severity, hseverity⟩ := hreadable
  rw [timelineFromRow, severityFromRow, hseverity, Severity.parse_display] at h
  rw [← Except.ok.inj h]
  simp only [timelineEventJson, Json.byteSize_object, List.map_cons, List.map_nil, List.sum_cons,
    List.sum_nil, List.length_cons, List.length_nil, Json.entryBytes, nameBytes,
    Json.byteSize_string, byteSize_natCast, byteSize_optionJson, timelineRowBytes, hseverity]
  omega

/-- The JSON of rows that are read takes the bytes of the rows. -/
theorem byteSize_rows {ρ ε : Type} {read : ρ → Except StorageError ε} {json : ε → Json}
    {bytes : ρ → ℕ} {P : ρ → Prop} {rows : List ρ} {events : List ε}
    (hsize : ∀ row event, P row → read row = .ok event → (json event).byteSize = bytes row)
    (hrows : ∀ row ∈ rows, P row)
    (h : List.Forall₂ (fun row event => read row = .ok event) rows events) :
    Json.byteSize (.array (events.map json)) = listBytes bytes rows + 2 := by
  have hsizes : (events.map json).map Json.byteSize = rows.map bytes := by
    induction h with
    | nil => rfl
    | cons hrow _ ih =>
        obtain ⟨hfirst, hrest⟩ := List.forall_mem_cons.mp hrows
        simp only [List.map_cons, hsize _ _ hfirst hrow, ih hrest]
  rw [Json.byteSize_array, hsizes, List.length_map, ← h.length_eq, listBytes]

theorem byteSize_success (requestId : String) (data : ResponseData) :
    Json.byteSize (ResponseEnvelope.json ⟨protocolVersion, requestId, .success data⟩) =
      escapedBytes requestId + 66 + Json.byteSize data.json := by
  have hversion : digits protocolVersion.toNat = 1 := rfl
  simp only [ResponseEnvelope.json, Response.json, Json.byteSize_object, List.map_cons,
    List.map_nil, List.sum_cons, List.sum_nil, List.length_cons, List.length_nil, Json.entryBytes,
    nameBytes, Json.byteSize_string, byteSize_natCast, hversion]
  omega

theorem byteSize_events {rows : List (ℕ × SecurityEventRow)} {events : List (ℕ × SecurityEvent)}
    (hreadable : ∀ row ∈ rows, ReadableSeverity row.2.severity)
    (h : List.Forall₂ (fun row event => securityEventFromRow row = .ok event) rows events) :
    Json.byteSize (ResponseData.events events).json = 28 + listBytes securityRowBytes rows := by
  have hsizes := byteSize_rows byteSize_securityEvent hreadable h
  simp only [ResponseData.json, Json.byteSize_object, List.map_cons, List.map_nil, List.sum_cons,
    List.sum_nil, List.length_cons, List.length_nil, Json.entryBytes, nameBytes,
    Json.byteSize_string, hsizes]
  omega

theorem byteSize_timeline {rows : List (ℕ × TimelineRow)} {page : TimelinePage}
    (hreadable : ∀ row ∈ rows, ReadableSeverity row.2.severity)
    (h : List.Forall₂ (fun row event => timelineFromRow row = .ok event) rows page.events) :
    Json.byteSize (ResponseData.timeline page).json =
      59 + listBytes timelineRowBytes rows + optionBytes page.nextBeforeId := by
  have hsizes := byteSize_rows byteSize_timelineEvent hreadable h
  simp only [ResponseData.json, Json.byteSize_object, List.map_cons, List.map_nil, List.sum_cons,
    List.sum_nil, List.length_cons, List.length_nil, Json.entryBytes, nameBytes,
    Json.byteSize_string, hsizes, byteSize_optionJson]
  omega

end sizes

/-! ## Reading -/

/-- Every row of the history is one of an event. -/
structure Readable (history : EventHistory) : Prop where
  security : ∀ row ∈ history.securityEvents.rows, ReadableSeverity row.2.severity
  timeline : ∀ row ∈ history.timelineEvents.rows, ReadableSeverity row.2.severity

section reading

variable {history after : EventHistory} {operation : Operation} {ownerSid : String} {db : Database}
  {request : RequestEnvelope} {response : ResponseEnvelope}

/-- A row of the timeline is readable. -/
def ReadableTimelineRow (row : TimelineRow) : Prop := ReadableSeverity row.severity

/-- Every operation writes rows of events. -/
theorem Readable.change (h : Readable history) (hchange : HistoryChange history operation after) :
    Readable after := by
  cases hchange with
  | same => exact h
  | event ownerSid event =>
      exact ⟨RowTable.forall_insert (fun row : SecurityEventRow => ReadableSeverity row.severity)
          h.security ⟨_, rfl⟩,
        RowTable.forall_insert ReadableTimelineRow h.timeline ⟨_, rfl⟩⟩
  | timeline ownerSid event =>
      exact ⟨h.security, RowTable.forall_insert ReadableTimelineRow h.timeline ⟨_, rfl⟩⟩
  | changes order ownerSid items observedAt events _ =>
      exact ⟨h.security, RowTable.forall_foldl_insert ReadableTimelineRow events h.timeline
        fun event _ => ⟨_, rfl⟩⟩
  | pruned =>
      exact ⟨fun row hrow => h.security row (RowTable.keepNewest_subset hrow),
        fun row hrow => h.timeline row (RowTable.keepNewest_subset hrow)⟩
  | backfilled =>
      exact ⟨h.security, RowTable.forall_foldl_insert ReadableTimelineRow _ h.timeline
        fun event hevent => h.security event (List.mem_of_mem_filter hevent)⟩

theorem readable_created : Readable Database.created.history := by
  constructor <;>
    simp [Database.created, Database.initializeDatabase, Database.blank, history_migrate,
      Database.backfill, RowTable.empty]

theorem readable_of_run {calls : List DatabaseCall}
    (hrun : run databaseStep Database.created calls = some db) : Readable db.history := by
  refine run_invariant (I := fun db : Database => Readable db.history) ?_ readable_created hrun
  intro db call after h hstep
  rw [← Option.some.inj hstep]
  exact h.change (historyChange_apply call.1 call.2 db)

/-- A readable row is read. -/
theorem exists_severityFromRow (index : ℕ) {severity : String} (h : ReadableSeverity severity) :
    ∃ value, severityFromRow index severity = .ok value := by
  obtain ⟨value, rfl⟩ := h
  exact ⟨value, by simp [severityFromRow]⟩

theorem mem_of_mem_listedEvents {rows : RowTable SecurityEventRow} {row : ℕ × SecurityEventRow}
    (h : row ∈ listedEvents ownerSid rows) : row ∈ rows.rows :=
  List.mem_of_mem_filter ((List.perm_insertionSort _ _).mem_iff.mp h)

/-- The list of recent events is read. -/
theorem exists_recentEvents (h : Readable db.history) (ownerSid : String) (limit : UInt32) :
    ∃ events, recentEvents none ownerSid limit db.history.securityEvents = .ok events ∧
      List.Forall₂ (fun row event => securityEventFromRow row = .ok event)
        ((listedEvents ownerSid db.history.securityEvents).take (safeLimit limit 2000)) events := by
  have hread :
      ∀ row ∈ (listedEvents ownerSid db.history.securityEvents).take (safeLimit limit 2000),
      ∃ event, securityEventFromRow row = .ok event := by
    intro row hrow
    obtain ⟨severity, hseverity⟩ := exists_severityFromRow row.2.severity.utf8ByteSize
      (h.security row (mem_of_mem_listedEvents (List.mem_of_mem_take hrow)))
    exact ⟨_, by rw [securityEventFromRow, hseverity]; rfl⟩
  obtain ⟨events, hevents⟩ := exists_mapM hread
  exact ⟨events, hevents, mapM_ok_iff.mp hevents⟩

/-- A page of the timeline is read. -/
theorem exists_timeline (h : Readable db.history) (ownerSid : String) (beforeId : Option ℤ)
    (limit : UInt32) (category : Option String) (processId : Option UInt32)
    (search : Option String) :
    ∃ page, timeline none ownerSid beforeId limit category processId search
      db.history.timelineEvents = .ok page := by
  have hread : ∀ row ∈ (fetchedRows ownerSid beforeId category processId search
      db.history.timelineEvents).take (safeLimit limit 500 + 1),
      ∃ event, timelineFromRow row = .ok event := by
    intro row hrow
    obtain ⟨severity, hseverity⟩ := exists_severityFromRow 3
      (h.timeline row (RowTable.mem_newest.mp (List.mem_of_mem_take hrow)).1)
    exact ⟨_, by rw [timelineFromRow, hseverity]; rfl⟩
  obtain ⟨events, hevents⟩ := exists_mapM hread
  simp only [timeline, call_none, hevents]
  exact ⟨_, rfl⟩

/-- The answer takes the bytes that the selected rows give. -/
theorem byteSize_serveHistory (h : Readable db.history)
    (hvalid : validateRequest request = .ok ())
    (hresponse : serveHistory none ownerSid db request = some response) :
    response.json.byteSize = answerBytes ownerSid db request := by
  rw [serveHistory, hvalid] at hresponse
  obtain ⟨protocol, requestId, body⟩ := request
  cases body with
  | recentEvents limit =>
      obtain ⟨events, hevents, hrows⟩ := exists_recentEvents h ownerSid limit
      simp only [handleHistory, hevents] at hresponse
      cases hresponse
      have hreadable : ∀ row ∈ (listedEvents ownerSid db.history.securityEvents).take
          (safeLimit limit 2000), ReadableSeverity row.2.severity := fun row hrow =>
        h.security row (mem_of_mem_listedEvents (List.mem_of_mem_take hrow))
      show Json.byteSize (ResponseEnvelope.json ⟨_, _, .success (.events events)⟩) = _
      rw [byteSize_success, byteSize_events hreadable hrows]
      dsimp only [answerBytes]
      omega
  | getTimeline beforeId limit category processId search =>
      obtain ⟨page, hpage⟩ := exists_timeline h ownerSid beforeId limit category processId search
      obtain ⟨hrows, hnext⟩ := timeline_ok hpage
      simp only [handleHistory, hpage] at hresponse
      cases hresponse
      have hreadable : ∀ row ∈ (fetchedRows ownerSid beforeId category processId search
          db.history.timelineEvents).take (safeLimit limit 500),
          ReadableSeverity row.2.severity := fun row hrow =>
        h.timeline row (RowTable.mem_newest.mp (List.mem_of_mem_take hrow)).1
      show Json.byteSize (ResponseEnvelope.json ⟨_, _, .success (.timeline page)⟩) = _
      rw [byteSize_success, byteSize_timeline hreadable hrows, hnext]
      dsimp only [answerBytes]
      omega
  | _ => cases hresponse

/-- A response is written when its text has a length that a frame can have. -/
theorem writeFrame_responseCodec
    (deserialize : List UInt8 → Except String (ResponseEnvelope × List UInt8)) :
    (∃ bytes, writeFrame (responseCodec deserialize) default response = .ok bytes) ↔
      response.json.byteSize ≤ maxFrameBytes := by
  have hlength : response.json.render.toUTF8.data.toList.length = response.json.byteSize := rfl
  have hpositive : response.json.byteSize ≠ 0 := by
    rw [ResponseEnvelope.json, Json.byteSize_object]
    omega
  have hwrite : writeFrame (responseCodec deserialize) default response = _ :=
    writeFrame_of_serialize rfl
  rw [hwrite, hlength]
  split_ifs with hsize
  · simp only [exists_false, false_iff]
    omega
  · simp only [Except.ok.injEq, exists_eq', true_iff]
    omega

end reading

/-! ## Small rows -/

/-- Every row that the step writes takes at most 2048 bytes in the list of the events, or 8192 in a
page of the timeline. -/
def WritesSmallRows (db : Database) (call : DatabaseCall) : Prop :=
  let after := (call.2.apply call.1 db).history
  (∀ row ∈ after.securityEvents.rows,
    row ∈ db.history.securityEvents.rows ∨ securityRowBytes row ≤ 2048) ∧
  ∀ row ∈ after.timelineEvents.rows,
    row ∈ db.history.timelineEvents.rows ∨ timelineRowBytes row ≤ 8192

/-- All rows are small. -/
structure SmallRows (history : EventHistory) : Prop where
  security : ∀ row ∈ history.securityEvents.rows, securityRowBytes row ≤ 2048
  timeline : ∀ row ∈ history.timelineEvents.rows, timelineRowBytes row ≤ 8192

section small

variable {calls : List DatabaseCall} {db : Database} {request : RequestEnvelope}

theorem SmallRows.step (h : SmallRows db.history) {call : DatabaseCall}
    (hcall : WritesSmallRows db call) : SmallRows (call.2.apply call.1 db).history where
  security row hrow := (hcall.1 row hrow).elim (h.security row) id
  timeline row hrow := (hcall.2 row hrow).elim (h.timeline row) id

theorem smallRows_of_run (hmeet : StepsMeet WritesSmallRows databaseStep Database.created calls)
    (hrun : run databaseStep Database.created calls = some db) : SmallRows db.history := by
  refine run_invariant_of_meets (I := fun db : Database => SmallRows db.history) ?_ ?_ hmeet hrun
  · intro before call after h hcall hstep
    rw [← Option.some.inj hstep]
    exact h.step hcall
  · constructor <;>
      simp [Database.created, Database.initializeDatabase, Database.blank, history_migrate,
        Database.backfill, RowTable.empty]

theorem safeLimit_le (limit : UInt32) {maximum : ℕ} (h : 1 ≤ maximum) :
    safeLimit limit maximum ≤ maximum := by
  unfold safeLimit
  omega

/-- Rows of at most so many bytes each. -/
theorem listBytes_le {α : Type} {bytes : α → ℕ} {rows : List α} {bound : ℕ} (count : ℕ)
    (hbound : ∀ row ∈ rows, bytes row ≤ bound) (hcount : rows.length ≤ count) :
    listBytes bytes rows ≤ count * (bound + 1) := by
  have hsum : (rows.map bytes).sum ≤ rows.length * bound := by
    have hsizes : ∀ size ∈ rows.map bytes, size ≤ bound := by
      intro size hsize
      obtain ⟨row, hrow, rfl⟩ := List.mem_map.mp hsize
      exact hbound row hrow
    have hcard := List.sum_le_card_nsmul (rows.map bytes) bound hsizes
    rwa [List.length_map, smul_eq_mul] at hcard
  calc listBytes bytes rows ≤ rows.length * bound + rows.length := by
        unfold listBytes
        omega
    _ = rows.length * (bound + 1) := (Nat.mul_succ _ _).symm
    _ ≤ count * (bound + 1) := Nat.mul_le_mul_right _ hcount

theorem escapedBytes_requestId_le (hvalid : validateRequest request = .ok ()) :
    escapedBytes request.requestId ≤ 384 := by
  have hid : request.requestId.utf8ByteSize ≤ 64 := by
    by_contra hlong
    have hinvalid : validRequestId request.requestId = false := by
      simp [validRequestId, hlong]
    rw [validateRequest, hinvalid] at hvalid
    split_ifs at hvalid with hversion hid
    exact hid rfl
  have hle := Json.escapedBytes_le request.requestId
  omega

/-- Small rows give small answers. -/
theorem SmallRows.answerBytes_le (h : SmallRows db.history) (ownerSid : String)
    (hvalid : validateRequest request = .ok ()) :
    answerBytes ownerSid db request ≤ maxFrameBytes := by
  have hid := escapedBytes_requestId_le hvalid
  unfold answerBytes maxFrameBytes
  split
  · rename_i limit hbody
    have hsmall : ∀ row ∈ (listedEvents ownerSid db.history.securityEvents).take
        (safeLimit limit 2000), securityRowBytes row ≤ 2048 := fun row hrow =>
      h.security row (mem_of_mem_listedEvents (List.mem_of_mem_take hrow))
    have hrows := listBytes_le 2000 hsmall
      ((List.length_take_le _ _).trans (safeLimit_le limit (by decide)))
    omega
  · rename_i beforeId limit category processId search hbody
    dsimp only
    generalize hfetched : fetchedRows ownerSid beforeId category processId search
      db.history.timelineEvents = fetched
    have hsmall : ∀ row ∈ fetched.take (safeLimit limit 500), timelineRowBytes row ≤ 8192 := by
      intro row hrow
      have hmem := List.mem_of_mem_take hrow
      rw [← hfetched] at hmem
      exact h.timeline row (RowTable.mem_newest.mp hmem).1
    have hrows := listBytes_le 500 hsmall
      ((List.length_take_le _ _).trans (safeLimit_le limit (by decide)))
    -- the cursor is the id of the last row, whose digits are among the bytes of that row
    have hcursor : optionBytes (if safeLimit limit 500 < fetched.length then
        (fetched.take (safeLimit limit 500)).getLast?.map Prod.fst else none) ≤ 8192 := by
      split_ifs with hmore
      · rcases hlast : (fetched.take (safeLimit limit 500)).getLast? with _ | last
        · show 4 ≤ 8192
          omega
        · have hle := hsmall last (List.mem_of_getLast? hlast)
          unfold timelineRowBytes at hle
          show digits last.1 ≤ 8192
          omega
      · show 4 ≤ 8192
        omega
    omega
  · omega

end small

/-! ## Rejected requests -/

/-- The event that is stored for a response request that is rejected or fails.
Source: `main.rs`, `ServiceState::audit_response_failure` -/
def auditResponseFailure (request : ResponseActionRequest) (message correlationId : String)
    (now : Clock) : TimelineEvent where
  category := "response"
  action := responseActionName request.action ++ "_failed"
  severity := .medium
  title := "Response action rejected or failed"
  detail := message
  processId := request.processId
  path := request.expectedPath
  remoteAddress := request.remoteAddress
  correlationId
  occurredAt := now.unixTimestamp

/-- What a request that does not pass the checks writes.
Source: `main.rs`, `ServiceState::execute_response` -/
def rejectResponse (clientSid : String) (request : ResponseActionRequest) (correlationId : String)
    (now : Clock) : Option Operation :=
  match checkResponse request with
  | .ok () => none
  | .error error =>
      some (.recordTimeline clientSid
        (auditResponseFailure request error.message correlationId now))

/-- **When a history request is answered.** In every run, a valid request is answered exactly when
the rows that it selects leave the frame within its maximum; so it is when every step of the run
writes small rows only. -/
theorem history_answered (calls : List DatabaseCall) (db : Database)
    (hrun : run databaseStep Database.created calls = some db)
    (deserialize : List UInt8 → Except String (ResponseEnvelope × List UInt8)) (ownerSid : String)
    (request : RequestEnvelope) (hvalid : validateRequest request = .ok ())
    (response : ResponseEnvelope)
    (hresponse : serveHistory none ownerSid db request = some response) :
    ((∃ bytes, writeFrame (responseCodec deserialize) default response = .ok bytes) ↔
      answerBytes ownerSid db request ≤ maxFrameBytes) ∧
    (StepsMeet WritesSmallRows databaseStep Database.created calls →
      ∃ bytes, writeFrame (responseCodec deserialize) default response = .ok bytes) := by
  have hiff : (∃ bytes, writeFrame (responseCodec deserialize) default response = .ok bytes) ↔
      answerBytes ownerSid db request ≤ maxFrameBytes := by
    rw [writeFrame_responseCodec, byteSize_serveHistory (readable_of_run hrun) hvalid hresponse]
  refine ⟨hiff, fun hmeet => hiff.mpr ?_⟩
  exact (smallRows_of_run hmeet hrun).answerBytes_le ownerSid hvalid

/-- A request to end a process at a path of this name, without a process and a confirmation. -/
def pathRequest (path : String) : ResponseActionRequest :=
  ⟨.terminateProcess, none, path, "", "", none, "", "", ""⟩

/-- The request as the client sends it. -/
def pathRequestJson (path : String) : Json :=
  .object [("protocol", .int 1), ("request_id", .string "one"),
    ("body", .object [("operation", .string "execute_response"), ("payload", .object
      [("request", .object
        [("action", .string "terminate_process"), ("expected_path", .string path),
        ("target", .string ""), ("remote_address", .string ""), ("persistence_id", .string ""),
        ("rollback_id", .string ""), ("confirmation", .string "")])])])]

/-- What it writes. -/
def pathAudit (path : String) : TimelineEvent :=
  auditResponseFailure (pathRequest path) "Response target fields exceed the IPC safety limits"
    "0a1b2c3d" ⟨0, 1786090000⟩

/-- The request, twice. -/
def pathCalls (path : String) : List DatabaseCall :=
  [(none, .recordTimeline "S-1-5-21-7" (pathAudit path)),
    (none, .recordTimeline "S-1-5-21-7" (pathAudit path))]

/-- A request for the newest rows of the timeline. -/
def firstPage : RequestEnvelope := ⟨1, "two", .getTimeline none 100 none none none⟩

theorem history_answered_path : ∃ db response,
    run databaseStep Database.created (pathCalls "agent.exe") = some db ∧
    serveHistory none "S-1-5-21-7" db firstPage = some response ∧
    ((∃ bytes, writeFrame (responseCodec fun _ => .error "closed") default response = .ok bytes) ↔
      answerBytes "S-1-5-21-7" db firstPage ≤ maxFrameBytes) ∧
    (StepsMeet WritesSmallRows databaseStep Database.created (pathCalls "agent.exe") →
      ∃ bytes, writeFrame (responseCodec fun _ => .error "closed") default response = .ok bytes) :=
  ⟨_, _, rfl, rfl, history_answered (pathCalls "agent.exe") _ rfl (fun _ => .error "closed")
    "S-1-5-21-7" firstPage rfl _ rfl⟩

section rejected

/-- A path of more than 32768 bytes is rejected. -/
theorem checkResponse_pathRequest {path : String} (h : 32768 < path.utf8ByteSize) :
    checkResponse (pathRequest path) =
      .error (invalidResponse "Response target fields exceed the IPC safety limits") := by
  have hlong : ¬path.utf8ByteSize ≤ 32768 := Nat.not_le.mpr h
  simp [checkResponse, boundedRequest, boundedResponseField, pathRequest, hlong]

/-- The request fits into a frame when the path does. -/
theorem byteSize_pathRequestJson (path : String) :
    (pathRequestJson path).byteSize = escapedBytes path + 232 := by
  have hnames : escapedBytes "protocol" = 8 ∧ escapedBytes "request_id" = 10 ∧
      escapedBytes "one" = 3 ∧ escapedBytes "body" = 4 ∧ escapedBytes "operation" = 9 ∧
      escapedBytes "execute_response" = 16 ∧ escapedBytes "payload" = 7 ∧
      escapedBytes "request" = 7 ∧ escapedBytes "action" = 6 ∧
      escapedBytes "terminate_process" = 17 ∧ escapedBytes "expected_path" = 13 ∧
      escapedBytes "target" = 6 ∧ escapedBytes "remote_address" = 14 ∧
      escapedBytes "persistence_id" = 14 ∧ escapedBytes "rollback_id" = 11 ∧
      escapedBytes "confirmation" = 12 ∧ escapedBytes "" = 0 := by
    decide
  have hversion : Json.byteSize (.int 1) = 1 := rfl
  simp only [pathRequestJson, Json.byteSize_object, List.map_cons, List.map_nil, List.sum_cons,
    List.sum_nil, List.length_cons, List.length_nil, Json.entryBytes, Json.byteSize_string, hnames,
    hversion]
  omega

/-- Both rows are on the page. -/
theorem answerBytes_pathCalls {path : String} {db : Database}
    (hrun : run databaseStep Database.created (pathCalls path) = some db) :
    2 * escapedBytes path ≤ answerBytes "S-1-5-21-7" db firstPage := by
  have hrows : fetchedRows "S-1-5-21-7" none none none none db.history.timelineEvents =
      [(2, .ofEvent "S-1-5-21-7" (pathAudit path)),
        (1, .ofEvent "S-1-5-21-7" (pathAudit path))] := by
    rw [← Option.some.inj hrun]
    rfl
  simp only [answerBytes, firstPage, hrows]
  show 2 * escapedBytes path ≤ _ + 125 + listBytes timelineRowBytes [_, _] + _
  simp only [listBytes, List.map_cons, List.map_nil, List.sum_cons, List.sum_nil, timelineRowBytes]
  have hpath : (TimelineRow.ofEvent "S-1-5-21-7" (pathAudit path)).path = path := rfl
  rw [hpath]
  omega

/-- So many times the letter `a`. -/
def letters (count : ℕ) : String := String.ofList (List.replicate count 'a')

theorem escapedBytes_letters (count : ℕ) : escapedBytes (letters count) = count := by
  have hletter : charBytes (escape 'a') = 1 := by decide
  simp [escapedBytes, letters, hletter]

theorem utf8ByteSize_letters (count : ℕ) : (letters count).utf8ByteSize = count := by
  have hletter : Char.utf8Size 'a' = 1 := by decide
  rw [letters, Json.utf8ByteSize_ofList]
  simp [charBytes, hletter]

end rejected

/-- **A client loses its timeline.** A response request with a path of 2200000 letters fits into a
frame and is rejected. After two such requests the page of the timeline is larger than a frame, and
the request for it gets no answer. -/
theorem rejected_requests_hide_timeline :
    (pathRequestJson (letters 2200000)).byteSize ≤ maxFrameBytes ∧
    decodeRequestEnvelope (pathRequestJson (letters 2200000)) =
      .ok ⟨1, "one", .executeResponse (pathRequest (letters 2200000))⟩ ∧
    pathCalls (letters 2200000) = List.replicate 2 (none, .recordTimeline "S-1-5-21-7"
      (pathAudit (letters 2200000))) ∧
    rejectResponse "S-1-5-21-7" (pathRequest (letters 2200000)) "0a1b2c3d" ⟨0, 1786090000⟩ =
      some (.recordTimeline "S-1-5-21-7" (pathAudit (letters 2200000))) ∧
    ∃ db, run databaseStep Database.created (pathCalls (letters 2200000)) = some db ∧
      validateRequest firstPage = .ok () ∧
      ∃ response, serveHistory none "S-1-5-21-7" db firstPage = some response ∧
        ∀ deserialize, ¬∃ bytes,
          writeFrame (responseCodec deserialize) default response = .ok bytes := by
  have hescaped := escapedBytes_letters 2200000
  have hrejected : checkResponse (pathRequest (letters 2200000)) = _ :=
    checkResponse_pathRequest (by rw [utf8ByteSize_letters]; omega)
  generalize letters 2200000 = path at hescaped hrejected ⊢
  obtain ⟨db, hrun⟩ : ∃ db, run databaseStep Database.created (pathCalls path) = some db := ⟨_, rfl⟩
  obtain ⟨response, hresponse⟩ : ∃ response,
      serveHistory none "S-1-5-21-7" db firstPage = some response := ⟨_, rfl⟩
  refine ⟨?_, rfl, rfl, ?_, db, hrun, rfl, response, hresponse, fun deserialize => ?_⟩
  · rw [byteSize_pathRequestJson, hescaped]
    decide
  · rw [rejectResponse, hrejected]
    rfl
  · have hbytes := answerBytes_pathCalls hrun
    rw [writeFrame_responseCodec, byteSize_serveHistory (readable_of_run hrun) rfl hresponse,
      maxFrameBytes]
    omega

end OpenGuard.Ipc
