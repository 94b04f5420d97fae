import OpenGuard.Windows.EtwHelper
import OpenGuard.Windows.Persistence

/-!
# The reader of the event helper

A thread of the service reads what the helper writes line by line. A line that is not JSON is passed
over, but the first line that is not UTF-8 ends the loop.

* `readEvents`: what the thread makes of a stream.
* `monitored_foldl`: the lines that are read, one after the other.
* `monitored_iff`: **every event is counted, and delivered or dropped**, exactly when every line is
  UTF-8; `monitored_eventBodies_iff` is the same for what the helper writes.
-/

namespace OpenGuard.Service

open OpenGuard.Lib OpenGuard.Windows

/-! ## The loop -/

/-- Source: `main.rs`, `EtwProcessEvent` -/
structure EtwProcessEvent where
  kind : String
  pid : UInt32
  parentPid : UInt32
  image : String
  commandLine : String
  deriving DecidableEq, Inhabited

/-- What the reader changes: the state of the monitor, its counters, and the events that were sent.
Source: `main.rs`, `EtwProcessMonitor`, `EtwMonitorState` -/
structure EtwProcessMonitor where
  status : String
  detail : String
  eventCount : ℕ
  droppedEvents : ℕ
  sent : List EtwProcessEvent
  deriving DecidableEq, Inhabited

/-- A text field of a value, empty when there is none. -/
def textField (value : Json) (name : String) : String := ((value.get name).bind jsonStr).getD ""

/-- A field of 32 bits of a value, zero when there is none. -/
def u32Field (value : Json) (name : String) : UInt32 :=
  match (value.get name).bind Json.asU64 with
  | some n => if n < 2 ^ 32 then .ofNat n else 0
  | none => 0

/-- The value is the start or the stop of a process.
Source: `main.rs`, `spawn_etw_reader` -/
def isProcessEvent (value : Json) : Bool :=
  ((value.get "type").bind jsonStr).any fun kind => kind == "start" || kind == "stop"

/-- Source: `main.rs`, `spawn_etw_reader` -/
def processEvent (value : Json) : EtwProcessEvent where
  kind := textField value "type"
  pid := u32Field value "pid"
  parentPid := u32Field value "parent_pid"
  image := textField value "image"
  commandLine := textField value "command_line"

section reader

variable {ε : Type*}
-- `serde_json::from_str`, and whether the channel takes an event after so many counted ones
variable (fromStr : String → Option Json) (sender : Option (ℕ → Bool))

/-- The body of the loop.
Source: `main.rs`, `spawn_etw_reader` -/
def readLine (monitor : EtwProcessMonitor) (line : String) : EtwProcessMonitor :=
  match fromStr line with
  | none => monitor
  | some value =>
      if isProcessEvent value then
        let counted := { monitor with eventCount := monitor.eventCount + 1 }
        match sender with
        | none => counted
        | some accepts =>
            if accepts monitor.eventCount then
              { counted with sent := monitor.sent ++ [processEvent value] }
            else { counted with droppedEvents := monitor.droppedEvents + 1 }
      else
        match (value.get "status").bind jsonStr with
        | some status => { monitor with status := status, detail := line }
        | none => monitor

/-- The monitor when the reader has stopped, and the error that stopped it.
Source: `main.rs`, `spawn_etw_reader` -/
def readEvents (monitor : EtwProcessMonitor) (source : Source ε) :
    EtwProcessMonitor × Option (LineError ε) :=
  let (lines, stop) := source.lines
  (lines.foldl (readLine fromStr sender) monitor, stop)

/-- The event of a text. -/
def eventOfText (text : String) : Option EtwProcessEvent :=
  (fromStr text).bind fun value => if isProcessEvent value then some (processEvent value) else none

/-- The event of a line. -/
def eventOfLine (body : List UInt8) : Option EtwProcessEvent :=
  (Source.lineText body).bind (eventOfText fromStr)

end reader

/-! ## What the monitor sees -/

/-- Every event is counted; each is delivered once, in order, or counted as dropped; and the reader
stops at the end of the stream or because reading failed. -/
structure Monitored {ε : Type*} (before after : EtwProcessMonitor) (events : List EtwProcessEvent)
    (stop : Option (LineError ε)) : Prop where
  counted : after.eventCount = before.eventCount + events.length
  delivered : ∃ delivered : List EtwProcessEvent, delivered.Sublist events ∧
    after.sent = before.sent ++ delivered ∧
    after.droppedEvents + delivered.length = before.droppedEvents + events.length
  stops : stop ≠ some .invalidData

section monitored

variable {ε : Type*} {fromStr : String → Option Json} {accepts : ℕ → Bool}
  {before : EtwProcessMonitor} {source : Source ε} {bodies : List (List UInt8)} {tail : List UInt8}

/-- A line has a text exactly when it is UTF-8. -/
theorem isSome_lineText_iff {body : List UInt8} :
    (Source.lineText body).isSome ↔ IsUtf8 body := by
  rw [Source.lineText, Option.isSome_map, isSome_fromUTF8?_iff,
    isUtf8_append_cons_iff (by decide)]
  exact and_iff_left (isUtf8_iff.mpr ⟨[], rfl⟩)

/-- What one line adds. -/
theorem monitored_readLine (line : String) :
    Monitored (ε := ε) before (readLine fromStr (some accepts) before line)
      (eventOfText fromStr line).toList none := by
  unfold eventOfText readLine
  cases fromStr line with
  | none => exact ⟨rfl, ⟨[], List.Sublist.refl _, (List.append_nil _).symm, rfl⟩, by simp⟩
  | some value =>
      dsimp only [Option.bind_some]
      split_ifs with hevent haccepts
      · exact ⟨rfl, ⟨[processEvent value], List.Sublist.refl _, rfl, rfl⟩, by simp⟩
      · exact ⟨rfl, ⟨[], List.nil_sublist _, (List.append_nil _).symm, rfl⟩, by simp⟩
      · split
        · exact ⟨rfl, ⟨[], List.Sublist.refl _, (List.append_nil _).symm, rfl⟩, by simp⟩
        · exact ⟨rfl, ⟨[], List.Sublist.refl _, (List.append_nil _).symm, rfl⟩, by simp⟩

/-- The lines that are read, one after the other. -/
theorem monitored_foldl (lines : List String) :
    Monitored (ε := ε) before (lines.foldl (readLine fromStr (some accepts)) before)
      (lines.filterMap (eventOfText fromStr)) none := by
  induction lines generalizing before with
  | nil => exact ⟨rfl, ⟨[], List.Sublist.refl _, (List.append_nil _).symm, rfl⟩, by simp⟩
  | cons line lines ih =>
      have hline : Monitored (ε := ε) before (readLine fromStr (some accepts) before line)
          (eventOfText fromStr line).toList none := monitored_readLine line
      obtain ⟨hcounted, ⟨first, hfirst, hsent, hdropped⟩, -⟩ := hline
      obtain ⟨hcounted', ⟨later, hlater, hsent', hdropped'⟩, -⟩ :=
        @ih (readLine fromStr (some accepts) before line)
      have hevents : (line :: lines).filterMap (eventOfText fromStr) =
          (eventOfText fromStr line).toList ++ lines.filterMap (eventOfText fromStr) := by
        rw [List.filterMap_cons]
        cases eventOfText fromStr line <;> rfl
      rw [List.foldl_cons, hevents]
      refine ⟨?_, ⟨first ++ later, hfirst.append hlater, ?_, ?_⟩, by simp⟩
      · rw [hcounted', hcounted, List.length_append, Nat.add_assoc]
      · rw [hsent', hsent, List.append_assoc]
      · rw [List.length_append, List.length_append]
        omega

/-- **Every event is counted, and delivered or dropped**, and the reader goes on to the end, exactly
when every line of the stream is UTF-8. -/
theorem monitored_iff (h : source.GivesLines bodies tail) :
    Monitored before (readEvents fromStr (some accepts) before source).1
        (bodies.filterMap (eventOfLine fromStr))
        (readEvents fromStr (some accepts) before source).2 ↔
      ∀ body ∈ bodies, IsUtf8 body := by
  simp only [readEvents, h.lines_eq, ← isSome_lineText_iff]
  constructor
  · intro hmonitored
    by_contra hbad
    exact hmonitored.stops (if_neg hbad)
  · intro hall
    have hread : bodies.takeWhile (fun body => (Source.lineText body).isSome) = bodies :=
      List.takeWhile_eq_self_iff.mpr hall
    have hevents : bodies.filterMap (eventOfLine fromStr) =
        (bodies.filterMap Source.lineText).filterMap (eventOfText fromStr) :=
      (List.filterMap_filterMap).symm
    rw [if_pos hall, hread, hevents]
    have hlines : Monitored (ε := ε) before
        ((bodies.filterMap Source.lineText).foldl (readLine fromStr (some accepts)) before)
        ((bodies.filterMap Source.lineText).filterMap (eventOfText fromStr)) none :=
      monitored_foldl _
    obtain ⟨hcounted, hdelivered, -⟩ := hlines
    refine ⟨hcounted, hdelivered, ?_⟩
    cases source.failure <;> simp

/-- Of what the helper writes for some events, every one is counted exactly when the texts of all of
them are UTF-8. -/
theorem monitored_eventBodies_iff {toUtf8 : List UInt16 → List UInt8} {events : List EventRecord}
    (hgiven : source.given = Source.terminated (eventBodies toUtf8 events))
    (hevents : ∀ event ∈ events, event.ofProvider ∧ (event.id = 1 ∨ event.id = 2)) :
    Monitored before (readEvents fromStr (some accepts) before source).1
        ((eventBodies toUtf8 events).filterMap (eventOfLine fromStr))
        (readEvents fromStr (some accepts) before source).2 ↔
      ∀ event ∈ events, IsUtf8 (writtenText toUtf8 event "ImageName") ∧
        IsUtf8 (writtenText toUtf8 event "CommandLine") := by
  have hall : eventBodies toUtf8 events = events.map (eventBody toUtf8) := by
    rw [eventBodies, List.filter_eq_self.mpr]
    intro event hevent
    simpa using hevents event hevent
  have hlines : source.GivesLines (eventBodies toUtf8 events) [] := by
    refine ⟨by rw [hgiven, List.append_nil], ?_, List.not_mem_nil, Or.inl rfl⟩
    rw [hall]
    intro body hbody
    obtain ⟨event, -, rfl⟩ := List.mem_map.mp hbody
    exact newline_notMem_eventBody
  rw [monitored_iff hlines, hall, List.forall_mem_map]
  simp only [isUtf8_eventBody_iff]

/-- A process with a narrow name of an odd number of bytes starts, -/
def narrowStart : EventRecord where
  ofProvider := true
  id := 1
  processId := 7
  property := fun name => if name = "ImageName" then [0xE9, 0x2E, 0x65, 0x78, 0x65] else []

/-- and stops. -/
def narrowStop : EventRecord where
  ofProvider := true
  id := 2
  processId := 7
  property := fun _ => []

/-- The text of the second event. -/
def stopText : String :=
  "\x7b\"type\":\"stop\",\"pid\":7,\"parent_pid\":0,\"image\":\"\",\"command_line\":\"\"," ++
    "\"event_id\":2\x7d"

/-- The value of that text. -/
def parseStop (text : String) : Option Json :=
  if text = stopText then
    some (.object [("command_line", .string ""), ("event_id", .int 2), ("image", .string ""),
      ("parent_pid", .int 0), ("pid", .int 7), ("type", .string "stop")])
  else none

/-- The events as the helper writes them, of whose texts none is wide. -/
def narrowSource (events : List EventRecord) : Source String :=
  [.chunk (Source.terminated (eventBodies (fun _ => []) events))]

theorem monitored_iff_stop :
    (narrowSource [narrowStop]).GivesLines (eventBodies (fun _ => []) [narrowStop]) [] ∧
      Monitored default
        (readEvents parseStop (some fun _ => true) default (narrowSource [narrowStop])).1
        ((eventBodies (fun _ => []) [narrowStop]).filterMap (eventOfLine parseStop))
        (readEvents parseStop (some fun _ => true) default (narrowSource [narrowStop])).2 := by
  have hlines : (narrowSource [narrowStop]).GivesLines (eventBodies (fun _ => []) [narrowStop]) [] :=
    ⟨by decide +kernel, by decide +kernel, List.not_mem_nil, Or.inl rfl⟩
  exact ⟨hlines, (monitored_iff hlines).mpr (by decide +kernel)⟩

/-- The stop of a process is neither delivered nor dropped after the narrow name. -/
theorem narrowName_not_monitored :
    ¬ ∀ (fromStr : String → Option Json) (accepts : ℕ → Bool) (before : EtwProcessMonitor)
      (source : Source String) (bodies : List (List UInt8)) (tail : List UInt8),
      source.GivesLines bodies tail →
        Monitored before (readEvents fromStr (some accepts) before source).1
          (bodies.filterMap (eventOfLine fromStr))
          (readEvents fromStr (some accepts) before source).2 := by
  intro h
  have hlines : (narrowSource [narrowStart, narrowStop]).GivesLines
      (eventBodies (fun _ => []) [narrowStart, narrowStop]) [] :=
    ⟨by decide +kernel, by decide +kernel, List.not_mem_nil, Or.inl rfl⟩
  have hcounted := (h parseStop (fun _ => true) default _ _ _ hlines).counted
  have hzero : (readEvents parseStop (some fun _ => true) default
      (narrowSource [narrowStart, narrowStop])).1.eventCount = 0 := by
    decide +kernel
  have hone : ((eventBodies (fun _ => []) [narrowStart, narrowStop]).filterMap
      (eventOfLine parseStop)).length = 1 := by
    decide +kernel
  rw [hzero, hone] at hcounted
  exact absurd hcounted (by decide)

end monitored

end OpenGuard.Service
