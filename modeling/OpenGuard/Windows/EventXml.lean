import OpenGuard.Windows.Sysmon
import Mathlib.Data.List.Dedup
import Mathlib.Tactic.FinCases

/-!
# Parsing a rendered event

`parseEventXml` reads the events of an XML reader one by one and keeps the last open element, the
name of the last open `Data` element, and the fields read so far. The reader is a library the
repository uses; it is a parameter here, from a text to the events it delivers.

The reader delivers the text of an element in pieces: a `Text` event, without the white space at
its ends, for each stretch between two references, and a `GeneralRef` event for each reference.
`XmlText` is a text with its references, and `XmlText.deliver` what the reader makes of it.

* `parseEvents_fieldsNamed`: every stored field has the name of some `Data` element.
* `stored_mem_pieces`: what is stored for a field is one of the pieces of its text.
* `fieldValue_stored_iff`: which values survive.
-/

namespace OpenGuard.Windows

open OpenGuard.Lib

/-- Source: `sysmon.rs`, `MAXIMUM_EVENT_XML_BYTES` -/
def maximumEventXmlBytes : ℕ := 512 * 1024

/-- Source: `sysmon.rs`, `MAXIMUM_FIELDS` -/
def maximumFields : ℕ := 128

/-- Source: `sysmon.rs`, `MAXIMUM_FIELD_NAME_BYTES` -/
def maximumFieldNameBytes : ℕ := 128

/-- Source: `sysmon.rs`, `MAXIMUM_FIELD_VALUE_BYTES` -/
def maximumFieldValueBytes : ℕ := 32 * 1024

/-! ## The reader's events -/

/-- An attribute with its decoded value, or the message of the decoding error. -/
structure XmlAttribute where
  localKey : String
  value : Except String String

/-- An event of the XML reader. A text carries its decoded content, or the message of the decoding
error; `other` is every event the parser passes over, such as a comment. -/
inductive XmlEvent where
  | start (localName : String) (attributes : List XmlAttribute)
  | empty (localName : String) (attributes : List XmlAttribute)
  | text (content : Except String String)
  | generalRef (name : String)
  | close (localName : String)
  | other
  | error (message : String)

/-- The end of the input is the end of the list. -/
abbrev XmlReader := String → List XmlEvent

/-! ## The parser -/

/-- The variables of the parser's loop. -/
structure ParseState where
  eventId : Option UInt32
  occurredAt : String
  activeElement : String
  activeDataName : String
  fields : Table String String

/-- Source: `sysmon.rs`, `parse_event_xml` -/
def ParseState.initial : ParseState := ⟨none, "", "", "", ∅⟩

/-- Source: `sysmon.rs`, `attribute_value` -/
def attributeValue (attributes : List XmlAttribute) (wanted : String) : Except String String :=
  match attributes.find? (·.localKey == wanted) with
  | none => .ok ""
  | some found => found.value.mapError fun error => "decode XML attribute: " ++ error

/-- The loop over the attributes of a `Data` element.
Source: `sysmon.rs`, `parse_event_xml` -/
def dataName : List XmlAttribute → String → Except String String
  | [], name => .ok name
  | first :: rest, name =>
      if first.localKey = "Name" then
        match first.value with
        | .error error => .error ("decode field name: " ++ error)
        | .ok value =>
            dataName rest (if value.utf8ByteSize ≤ maximumFieldNameBytes then value else name)
      else dataName rest name

/-- One event of the loop.
Source: `sysmon.rs`, `parse_event_xml` -/
def parseStep (state : ParseState) : XmlEvent → Except String ParseState
  | .start name attributes =>
      let state := { state with activeElement := name }
      if name = "Data" then
        (dataName attributes "").map fun dataName => { state with activeDataName := dataName }
      else if name = "TimeCreated" then
        (attributeValue attributes "SystemTime").map fun time => { state with occurredAt := time }
      else .ok state
  | .empty name attributes =>
      if name = "TimeCreated" then
        (attributeValue attributes "SystemTime").map fun time => { state with occurredAt := time }
      else .ok state
  | .text (.error error) => .error ("decode event text: " ++ error)
  | .text (.ok value) =>
      if state.activeElement = "EventID" then
        .ok { state with eventId := parseU32 (trim value) }
      else if state.activeElement = "Data" ∧ state.activeDataName ≠ ""
          ∧ state.fields.size < maximumFields
          ∧ value.utf8ByteSize ≤ maximumFieldValueBytes then
        .ok { state with fields := state.fields.insert state.activeDataName value }
      else .ok state
  | .close name =>
      .ok { state with
        activeDataName := if name = "Data" then "" else state.activeDataName
        activeElement := "" }
  | .generalRef _ => .ok state
  | .other => .ok state
  | .error error => .error ("parse event XML: " ++ error)

/-- The loop. -/
def parseEvents : ParseState → List XmlEvent → Except String ParseState
  | state, [] => .ok state
  | state, event :: rest => (parseStep state event).bind fun state => parseEvents state rest

/-- Source: `sysmon.rs`, `parse_event_xml` -/
def parseEventXml (reader : XmlReader) (now xml : String) : Except String SysmonEvent :=
  if maximumEventXmlBytes < xml.utf8ByteSize then
    .error "event XML exceeds the bounded parser limit"
  else
    (parseEvents .initial (reader xml)).bind fun state =>
      match state.eventId with
      | none => .error "Sysmon event has no numeric EventID"
      | some eventId =>
          .ok
            { eventId := eventId
              occurredAt := if state.occurredAt = "" then now else state.occurredAt
              fields := state.fields }

/-! ## The text of an element -/

/-- A reference in a text, with the character it stands for. -/
structure Reference where
  name : String
  resolved : Char

/-- The text of an element: a first stretch of characters, then references, each with the stretch
that follows it. -/
structure XmlText where
  head : String
  rest : List (Reference × String)

/-- The white space that the reader trims. -/
def isXmlSpace (c : Char) : Bool := c == ' ' || c == '\t' || c == '\n' || c == '\r'

/-- The text without the white space at its ends. -/
def xmlTrim (s : String) : String := trimMatches isXmlSpace s

namespace XmlText

/-- The value the text stands for. -/
def value (text : XmlText) : String :=
  text.rest.foldl (fun value piece => value ++ piece.1.resolved.toString ++ piece.2) text.head

/-- The stretches between the references. -/
def pieces (text : XmlText) : List String := text.head :: text.rest.map (·.2)

end XmlText

/-- The event for one stretch, when there is something left of it. -/
def deliverPiece (piece : String) : List XmlEvent :=
  if xmlTrim piece = "" then [] else [.text (.ok (xmlTrim piece))]

/-- The events the reader delivers for the text of an element. -/
def XmlText.deliver (text : XmlText) : List XmlEvent :=
  deliverPiece text.head ++
    text.rest.flatMap fun piece => .generalRef piece.1.name :: deliverPiece piece.2

/-! ## Well-formed streams -/

/-- The field name an attribute gives, if it gives one. -/
def XmlAttribute.fieldName (item : XmlAttribute) : Option String :=
  if item.localKey = "Name" then
    item.value.toOption.filter (·.utf8ByteSize ≤ maximumFieldNameBytes)
  else none

/-- The names a `Data` element can give the field it opens. -/
def XmlEvent.dataNames : XmlEvent → List String
  | .start name attributes =>
      if name = "Data" then attributes.filterMap XmlAttribute.fieldName else []
  | _ => []

/-- The names of the `Data` elements of a stream. -/
def dataNames (events : List XmlEvent) : List String := events.flatMap XmlEvent.dataNames

/-- Nothing in the event fails to decode. -/
def XmlEvent.Decodes : XmlEvent → Prop
  | .start _ attributes | .empty _ attributes => ∀ item ∈ attributes, item.value.isOk
  | .text content => content.isOk
  | .error _ => False
  | .generalRef _ | .close _ | .other => True

/-- The last open element, and the number read directly inside the last `EventID` element. -/
def trackEventId (state : String × Option UInt32) : XmlEvent → String × Option UInt32
  | .start name _ => (name, state.2)
  | .text (.ok value) =>
      if state.1 = "EventID" then (state.1, parseU32 (trim value)) else state
  | .close _ => ("", state.2)
  | .text (.error _) | .empty _ _ | .generalRef _ | .other | .error _ => state

/-- The number that the `EventID` element of a stream declares. -/
def declaredEventId (events : List XmlEvent) : Option UInt32 :=
  (events.foldl trackEventId ("", none)).2

/-! ## One event -/

section step

variable {s t : ParseState} {event : XmlEvent} {attributes : List XmlAttribute} {name : String}

/-- The attributes of an element whose values decode give a name. -/
theorem exists_dataName (h : ∀ item ∈ attributes, item.value.isOk) (start : String) :
    ∃ result, dataName attributes start = .ok result := by
  induction attributes generalizing start with
  | nil => exact ⟨start, rfl⟩
  | cons first rest ih =>
      have hrest := fun item hmem => h item (List.mem_cons_of_mem first hmem)
      have hfirst := h first List.mem_cons_self
      unfold dataName
      split_ifs
      · cases hvalue : first.value with
        | error message =>
            rw [hvalue] at hfirst
            exact absurd hfirst Bool.false_ne_true
        | ok value => exact ih hrest _
      · exact ih hrest _

/-- The name is one of those that the attributes give, or the one it was before. -/
theorem dataName_mem {start result : String} (h : dataName attributes start = .ok result) :
    result = start ∨ result ∈ attributes.filterMap XmlAttribute.fieldName := by
  induction attributes generalizing start with
  | nil => exact Or.inl (Except.ok.inj h).symm
  | cons first rest ih =>
      have hkeep : result ∈ rest.filterMap XmlAttribute.fieldName →
          result ∈ (first :: rest).filterMap XmlAttribute.fieldName := fun hmem =>
        ((List.sublist_cons_self first rest).filterMap _).subset hmem
      unfold dataName at h
      split_ifs at h with hkey
      · cases hvalue : first.value with
        | error message => simp [hvalue] at h
        | ok value =>
            rw [hvalue] at h
            rcases ih h with heq | hmem
            · split_ifs at heq with hsize
              · subst heq
                right
                simp [XmlAttribute.fieldName, hkey, hvalue, hsize, Except.toOption]
              · exact Or.inl heq
            · exact Or.inr (hkeep hmem)
      · rcases ih h with heq | hmem
        · exact Or.inl heq
        · exact Or.inr (hkeep hmem)

theorem exists_attributeValue (h : ∀ item ∈ attributes, item.value.isOk) (wanted : String) :
    ∃ result, attributeValue attributes wanted = .ok result := by
  unfold attributeValue
  cases hfind : attributes.find? (·.localKey == wanted) with
  | none => exact ⟨"", rfl⟩
  | some found =>
      have hok := h found (List.mem_of_find?_eq_some hfind)
      cases hvalue : found.value with
      | error message =>
          rw [hvalue] at hok
          exact absurd hok Bool.false_ne_true
      | ok value => exact ⟨value, by simp [hvalue, Except.mapError]⟩

/-- An event that decodes lets the loop go on. -/
theorem exists_parseStep (h : event.Decodes) (s : ParseState) : ∃ t, parseStep s event = .ok t := by
  cases event with
  | start name attributes =>
      obtain ⟨data, hdata⟩ := exists_dataName h ""
      obtain ⟨time, htime⟩ := exists_attributeValue h "SystemTime"
      unfold parseStep
      simp only [hdata, htime, Except.map]
      split_ifs
      · exact ⟨_, rfl⟩
      · exact ⟨_, rfl⟩
      · exact ⟨_, rfl⟩
  | empty name attributes =>
      obtain ⟨time, htime⟩ := exists_attributeValue h "SystemTime"
      unfold parseStep
      simp only [htime, Except.map]
      split_ifs
      · exact ⟨_, rfl⟩
      · exact ⟨_, rfl⟩
  | text content =>
      cases content with
      | error message => exact absurd h Bool.false_ne_true
      | ok value =>
          unfold parseStep
          dsimp only
          split_ifs
          · exact ⟨_, rfl⟩
          · exact ⟨_, rfl⟩
          · exact ⟨_, rfl⟩
  | generalRef name => exact ⟨s, rfl⟩
  | close name => exact ⟨_, rfl⟩
  | other => exact ⟨s, rfl⟩
  | error message => exact h.elim

/-- **What one event can do.** The element and the number are tracked; the data name stays, is
cleared, or is one that the event gives; the fields stay, or a text inside a named `Data` element
is stored. -/
theorem parseStep_cases (h : parseStep s event = .ok t) :
    (t.activeElement, t.eventId) = trackEventId (s.activeElement, s.eventId) event ∧
      (t.activeDataName = s.activeDataName ∨ t.activeDataName = "" ∨
        t.activeDataName ∈ event.dataNames) ∧
      (t.fields = s.fields ∨ ∃ value, event = .text (.ok value) ∧ s.activeElement = "Data" ∧
        s.activeDataName ≠ "" ∧ s.fields.size < maximumFields ∧
        t.fields = s.fields.insert s.activeDataName value) := by
  cases event with
  | start name attributes =>
      unfold parseStep at h
      dsimp only at h
      split_ifs at h with hdata htime
      · cases hname : dataName attributes "" with
        | error message => simp [hname, Except.map] at h
        | ok data =>
            simp only [hname, Except.map, Except.ok.injEq] at h
            subst h
            refine ⟨rfl, Or.inr ?_, Or.inl rfl⟩
            unfold XmlEvent.dataNames
            dsimp only
            rw [if_pos hdata]
            exact dataName_mem hname
      · cases hvalue : attributeValue attributes "SystemTime" with
        | error message => simp [hvalue, Except.map] at h
        | ok time =>
            simp only [hvalue, Except.map, Except.ok.injEq] at h
            subst h
            exact ⟨rfl, Or.inl rfl, Or.inl rfl⟩
      · rw [← Except.ok.inj h]
        exact ⟨rfl, Or.inl rfl, Or.inl rfl⟩
  | empty name attributes =>
      unfold parseStep at h
      dsimp only at h
      split_ifs at h
      · cases hvalue : attributeValue attributes "SystemTime" with
        | error message => simp [hvalue, Except.map] at h
        | ok time =>
            simp only [hvalue, Except.map, Except.ok.injEq] at h
            subst h
            exact ⟨rfl, Or.inl rfl, Or.inl rfl⟩
      · rw [← Except.ok.inj h]
        exact ⟨rfl, Or.inl rfl, Or.inl rfl⟩
  | text content =>
      cases content with
      | error message => simp [parseStep] at h
      | ok value =>
          unfold parseStep at h
          dsimp only at h
          split_ifs at h with hid hdata
          · rw [← Except.ok.inj h]
            exact ⟨by simp [trackEventId, hid], Or.inl rfl, Or.inl rfl⟩
          · rw [← Except.ok.inj h]
            refine ⟨by simp [trackEventId, hid], Or.inl rfl, Or.inr ⟨value, rfl, ?_⟩⟩
            exact ⟨hdata.1, hdata.2.1, hdata.2.2.1, rfl⟩
          · rw [← Except.ok.inj h]
            exact ⟨by simp [trackEventId, hid], Or.inl rfl, Or.inl rfl⟩
  | close name =>
      rw [← Except.ok.inj h]
      refine ⟨rfl, ?_, Or.inl rfl⟩
      dsimp only
      split_ifs
      · exact Or.inr (Or.inl rfl)
      · exact Or.inl rfl
  | generalRef name =>
      rw [← Except.ok.inj h]
      exact ⟨rfl, Or.inl rfl, Or.inl rfl⟩
  | other =>
      rw [← Except.ok.inj h]
      exact ⟨rfl, Or.inl rfl, Or.inl rfl⟩
  | error message => simp [parseStep] at h

end step

/-! ## The loop -/

section loop

variable {s t : ParseState} {events more : List XmlEvent} {name : String} {names : List String}
  {value : Option String}

theorem parseEvents_cons (s : ParseState) (event : XmlEvent) (rest : List XmlEvent) :
    parseEvents s (event :: rest) =
      (parseStep s event).bind fun state => parseEvents state rest := rfl

theorem parseEvents_cons_of_ok {u : ParseState} {event : XmlEvent}
    (h : parseStep s event = .ok u) : parseEvents s (event :: events) = parseEvents u events := by
  rw [parseEvents_cons, h]
  rfl

theorem parseEvents_append_eq_ok :
    parseEvents s (events ++ more) = .ok t ↔
      ∃ u, parseEvents s events = .ok u ∧ parseEvents u more = .ok t := by
  induction events generalizing s with
  | nil => simp [parseEvents]
  | cons event rest ih =>
      rw [List.cons_append, parseEvents_cons, parseEvents_cons]
      cases parseStep s event with
      | error message => simp [Except.bind]
      | ok u => exact ih

theorem exists_parseEvents (h : ∀ event ∈ events, event.Decodes) (s : ParseState) :
    ∃ t, parseEvents s events = .ok t := by
  induction events generalizing s with
  | nil => exact ⟨s, rfl⟩
  | cons event rest ih =>
      obtain ⟨u, hu⟩ := exists_parseStep (h event List.mem_cons_self) s
      rw [parseEvents_cons, hu]
      exact ih (fun e hmem => h e (List.mem_cons_of_mem event hmem)) u

/-- What every event of a stream preserves, the loop preserves. -/
theorem parseEvents_invariant {Inv : ParseState → Prop}
    (hstep : ∀ event ∈ events, ∀ s t, Inv s → parseStep s event = .ok t → Inv t)
    (hs : Inv s) (h : parseEvents s events = .ok t) : Inv t := by
  induction events generalizing s with
  | nil => exact Except.ok.inj h ▸ hs
  | cons event rest ih =>
      rw [parseEvents_cons] at h
      cases hu : parseStep s event with
      | error message => simp [hu, Except.bind] at h
      | ok u =>
          rw [hu] at h
          exact ih (fun e hmem => hstep e (List.mem_cons_of_mem event hmem))
            (hstep event List.mem_cons_self s u hs hu) h

theorem parseEvents_track (h : parseEvents s events = .ok t) :
    (t.activeElement, t.eventId) = events.foldl trackEventId (s.activeElement, s.eventId) := by
  induction events generalizing s with
  | nil => rw [← Except.ok.inj h, List.foldl_nil]
  | cons event rest ih =>
      rw [parseEvents_cons] at h
      cases hu : parseStep s event with
      | error message => simp [hu, Except.bind] at h
      | ok u =>
          rw [hu] at h
          rw [ih h, (parseStep_cases hu).1, List.foldl_cons]

/-- Every stored field, and the field that is open, has one of the names. -/
def FieldsNamed (names : List String) (s : ParseState) : Prop :=
  (∀ k ∈ s.fields, k ∈ names) ∧ (s.activeDataName = "" ∨ s.activeDataName ∈ names)

/-- The fields get their names from the `Data` elements. -/
theorem parseEvents_fieldsNamed (hnames : dataNames events ⊆ names) (hs : FieldsNamed names s)
    (h : parseEvents s events = .ok t) : FieldsNamed names t := by
  refine parseEvents_invariant ?_ hs h
  intro event hevent s t hs hstep
  obtain ⟨-, hname, hfields⟩ := parseStep_cases hstep
  constructor
  · rcases hfields with heq | ⟨value, -, -, hne, -, heq⟩
    · rw [heq]
      exact hs.1
    · intro k hk
      rw [heq, AList.mem_insert] at hk
      rcases hk with rfl | hk
      · exact hs.2.resolve_left hne
      · exact hs.1 k hk
  · rcases hname with heq | hempty | hmem
    · rw [heq]
      exact hs.2
    · exact Or.inl hempty
    · exact Or.inr (hnames (List.mem_flatMap.mpr ⟨event, hevent, hmem⟩))

/-- The field is not open, and is stored with the value. -/
def FieldIs (name : String) (value : Option String) (s : ParseState) : Prop :=
  s.activeDataName ≠ name ∧ s.fields.lookup name = value

/-- A stream without a `Data` element of a name leaves the field of that name as it is. -/
theorem parseEvents_fieldIs (hne : name ≠ "") (hname : name ∉ dataNames events)
    (hs : FieldIs name value s) (h : parseEvents s events = .ok t) : FieldIs name value t := by
  refine parseEvents_invariant ?_ hs h
  intro event hevent s t hs hstep
  obtain ⟨-, hactive, hfields⟩ := parseStep_cases hstep
  constructor
  · rcases hactive with heq | hempty | hmem
    · rw [heq]
      exact hs.1
    · rw [hempty]
      exact hne.symm
    · intro heq
      exact hname (List.mem_flatMap.mpr ⟨event, hevent, heq ▸ hmem⟩)
  · rcases hfields with heq | ⟨value, -, -, -, -, heq⟩
    · rw [heq]
      exact hs.2
    · rw [heq, AList.lookup_insert_ne hs.1.symm]
      exact hs.2

/-- Fewer fields are stored than there are names, when one of the names is not stored. -/
theorem size_fields_lt (hs : FieldsNamed names s) (hmem : name ∈ names) (hnew : name ∉ s.fields) :
    s.fields.size < names.dedup.length := by
  have hnodup : (name :: s.fields.keys).Nodup := by
    rw [List.nodup_cons]
    exact ⟨hnew, s.fields.nodupKeys⟩
  have hsub : name :: s.fields.keys ⊆ names.dedup := by
    intro k hk
    rw [List.mem_dedup]
    rcases List.mem_cons.mp hk with rfl | hk
    · exact hmem
    · exact hs.1 k hk
  have hle := (List.subperm_of_subset hnodup hsub).length_le
  have hkeys : s.fields.keys.length = s.fields.size := List.length_map _
  rw [List.length_cons] at hle
  omega

end loop

/-! ## The pieces of a text -/

section pieces

variable {s t : ParseState} {name : String} {text : XmlText}

/-- Inside the element, what is stored under its name is one of the pieces. -/
def StoresPiece (name : String) (pieces : List String) (s : ParseState) : Prop :=
  s.activeElement = "Data" ∧ s.activeDataName = name ∧
    ∀ value, s.fields.lookup name = some value → value ∈ pieces

theorem mem_deliverPiece {piece : String} {event : XmlEvent} (h : event ∈ deliverPiece piece) :
    event = .text (.ok (xmlTrim piece)) := by
  unfold deliverPiece at h
  split_ifs at h
  · exact absurd h List.not_mem_nil
  · exact List.mem_singleton.mp h

/-- The events of a text are references and the trimmed stretches between them. -/
theorem mem_deliver {event : XmlEvent} (h : event ∈ text.deliver) :
    (∃ reference, event = .generalRef reference) ∨
      ∃ piece ∈ text.pieces, event = .text (.ok (xmlTrim piece)) := by
  unfold XmlText.deliver at h
  rcases List.mem_append.mp h with hhead | hrest
  · exact Or.inr ⟨text.head, List.mem_cons_self, mem_deliverPiece hhead⟩
  · obtain ⟨piece, hpiece, hmem⟩ := List.mem_flatMap.mp hrest
    rcases List.mem_cons.mp hmem with heq | hmem
    · exact Or.inl ⟨piece.1.name, heq⟩
    · exact Or.inr ⟨piece.2, List.mem_cons_of_mem _ (List.mem_map_of_mem hpiece),
        mem_deliverPiece hmem⟩

/-- Reading a text stores pieces of it and nothing else. -/
theorem stored_mem_pieces (hs : StoresPiece name (text.pieces.map xmlTrim) s)
    (h : parseEvents s text.deliver = .ok t) :
    StoresPiece name (text.pieces.map xmlTrim) t := by
  refine parseEvents_invariant ?_ hs h
  intro event hevent s t hs hstep
  rcases mem_deliver hevent with ⟨reference, rfl⟩ | ⟨piece, hpiece, rfl⟩
  · exact Except.ok.inj hstep ▸ hs
  · unfold parseStep at hstep
    dsimp only at hstep
    split_ifs at hstep with hid hdata
    · exact absurd (hid.symm.trans hs.1) (by decide)
    · rw [← Except.ok.inj hstep]
      refine ⟨hs.1, hs.2.1, ?_⟩
      intro value hvalue
      dsimp only at hvalue
      rw [hs.2.1, AList.lookup_insert, Option.some_inj] at hvalue
      exact hvalue ▸ List.mem_map_of_mem hpiece
    · exact Except.ok.inj hstep ▸ hs

/-- A reference takes at least one character of the value, so a piece of a text with references
is shorter than its value. -/
theorem length_piece_le (text : XmlText) {piece : String} (h : piece ∈ text.pieces) :
    piece.toList.length + text.rest.length ≤ text.value.toList.length := by
  have hfold : ∀ (rest : List (Reference × String)) (start : String),
      (∀ p ∈ rest, p.2.toList.length + start.toList.length + rest.length ≤
        (rest.foldl (fun value piece => value ++ piece.1.resolved.toString ++ piece.2)
          start).toList.length) ∧
      start.toList.length + rest.length ≤
        (rest.foldl (fun value piece => value ++ piece.1.resolved.toString ++ piece.2)
          start).toList.length := by
    intro rest
    induction rest with
    | nil => simp
    | cons first rest ih =>
        intro start
        obtain ⟨hpieces, hstart⟩ := ih (start ++ first.1.resolved.toString ++ first.2)
        have hlen : (start ++ first.1.resolved.toString ++ first.2).toList.length =
            start.toList.length + 1 + first.2.toList.length := by
          simp only [Char.toString_eq_singleton, String.toList_append, List.length_append,
            String.toList_singleton, List.length_singleton]
        rw [hlen] at hpieces hstart
        rw [List.foldl_cons, List.length_cons]
        refine ⟨?_, by omega⟩
        intro p hp
        rcases List.mem_cons.mp hp with rfl | hp
        · omega
        · have := hpieces p hp
          omega
  obtain ⟨hpieces, hstart⟩ := hfold text.rest text.head
  unfold XmlText.pieces at h
  rcases List.mem_cons.mp h with rfl | h
  · exact hstart
  · obtain ⟨p, hp, rfl⟩ := List.mem_map.mp h
    have := hpieces p hp
    exact Nat.le_trans (by omega) this

end pieces

/-! ## Which values survive -/

/-- The reader delivers, for the text `xml`, a document with a numeric `EventID`, at most 128 names
of data fields, and one `Data` element of the name `name` whose text is `text`. -/
structure DeliversField (reader : XmlReader) (xml : String) (pre : List XmlEvent)
    (attributes : List XmlAttribute) (name : String) (text : XmlText) (post : List XmlEvent) :
    Prop where
  events : reader xml =
    pre ++ (.start "Data" attributes :: (text.deliver ++ (.close "Data" :: post)))
  name_eq : dataName attributes "" = .ok name
  name_ne : name ≠ ""
  notMem_pre : name ∉ dataNames pre
  notMem_post : name ∉ dataNames post
  count : (name :: (dataNames pre ++ dataNames post)).dedup.length ≤ maximumFields
  decodes_pre : ∀ event ∈ pre, event.Decodes
  decodes_post : ∀ event ∈ post, event.Decodes
  numbered : (declaredEventId (reader xml)).isSome

section survive

variable {reader : XmlReader} {xml : String} {pre post : List XmlEvent}
  {attributes : List XmlAttribute} {name : String} {text : XmlText}

theorem deliver_decodes {event : XmlEvent} (h : event ∈ text.deliver) : event.Decodes := by
  rcases mem_deliver h with ⟨reference, rfl⟩ | ⟨piece, -, rfl⟩
  · trivial
  · rfl

/-- A text without references is delivered in one piece and stored, unless nothing is left of
it. -/
theorem lookup_of_rest_eq_nil {s t : ParseState} (hrest : text.rest = [])
    (htrim : xmlTrim text.value = text.value)
    (hvalue : text.value.utf8ByteSize ≤ maximumFieldValueBytes)
    (hs : s.activeElement = "Data" ∧ s.activeDataName = name) (hne : name ≠ "")
    (hnone : s.fields.lookup name = none) (hroom : s.fields.size < maximumFields)
    (h : parseEvents s text.deliver = .ok t) :
    t.fields.lookup name = if text.value = "" then none else some text.value := by
  have hhead : text.value = text.head := by rw [XmlText.value, hrest, List.foldl_nil]
  unfold XmlText.deliver deliverPiece at h
  rw [hrest, List.flatMap_nil, List.append_nil, ← hhead, htrim] at h
  by_cases hempty : text.value = ""
  · rw [if_pos hempty] at h ⊢
    rw [← Except.ok.inj h]
    exact hnone
  · rw [if_neg hempty] at h ⊢
    have hid : s.activeElement ≠ "EventID" := by
      rw [hs.1]
      decide
    rw [parseEvents_cons] at h
    unfold parseStep at h
    dsimp only at h
    rw [if_neg hid, if_pos ⟨hs.1, hs.2.symm ▸ hne, hroom, hvalue⟩] at h
    rw [← Except.ok.inj h, hs.2]
    exact AList.lookup_insert _

/-- A document within the size limit is parsed; what it stores under the name is a piece of the
text, and all of it when the text has no references. -/
theorem exists_parseEventXml (now : String)
    (h : DeliversField reader xml pre attributes name text post)
    (hxml : xml.utf8ByteSize ≤ maximumEventXmlBytes)
    (htrim : xmlTrim text.value = text.value)
    (hvalue : text.value.utf8ByteSize ≤ maximumFieldValueBytes) :
    ∃ event, parseEventXml reader now xml = .ok event ∧
      (∀ value, event.fields.lookup name = some value → value ∈ text.pieces.map xmlTrim) ∧
      (text.rest = [] →
        event.fields.lookup name = if text.value = "" then none else some text.value) := by
  -- up to the element, its name is not stored and there is room for it
  obtain ⟨s, hs⟩ := exists_parseEvents h.decodes_pre .initial
  have hnamed : FieldsNamed (dataNames pre) s := by
    refine parseEvents_fieldsNamed (List.Subset.refl _) ⟨?_, Or.inl rfl⟩ hs
    intro k hk
    exact absurd hk (AList.notMem_empty k)
  have hnew : name ∉ s.fields := fun hmem => h.notMem_pre (hnamed.1 name hmem)
  have hroom : s.fields.size < maximumFields := by
    have hall : FieldsNamed (name :: (dataNames pre ++ dataNames post)) s := by
      have hsub : ∀ k ∈ dataNames pre, k ∈ name :: (dataNames pre ++ dataNames post) :=
        fun k hk => List.mem_cons_of_mem name (List.mem_append_left _ hk)
      exact ⟨fun k hk => hsub k (hnamed.1 k hk), hnamed.2.imp_right (hsub _)⟩
    exact (size_fields_lt hall List.mem_cons_self hnew).trans_le h.count
  -- the element opens, its text is read, it closes
  set opened : ParseState := { s with activeElement := "Data", activeDataName := name }
  have hopen : parseStep s (.start "Data" attributes) = .ok opened := by
    unfold parseStep
    simp only [h.name_eq, Except.map, if_true]
    rfl
  obtain ⟨u, hu⟩ := exists_parseEvents (fun _ => deliver_decodes) opened
  have hnone : opened.fields.lookup name = none := AList.lookup_eq_none.mpr hnew
  have hpieces : StoresPiece name (text.pieces.map xmlTrim) u := by
    refine stored_mem_pieces ⟨rfl, rfl, ?_⟩ hu
    intro value hsome
    rw [hnone] at hsome
    cases hsome
  set closed : ParseState := { u with activeDataName := "", activeElement := "" }
  have hclose : parseStep u (.close "Data") = .ok closed := by
    unfold parseStep
    dsimp only
    rw [if_pos rfl]
  -- the rest of the document leaves the field alone
  obtain ⟨t, ht⟩ := exists_parseEvents h.decodes_post closed
  have hclosed : FieldIs name (u.fields.lookup name) closed := ⟨h.name_ne.symm, rfl⟩
  have hfield : FieldIs name (u.fields.lookup name) t :=
    parseEvents_fieldIs h.name_ne h.notMem_post hclosed ht
  have hall : parseEvents .initial (reader xml) = .ok t := by
    rw [h.events, parseEvents_append_eq_ok]
    refine ⟨s, hs, ?_⟩
    rw [parseEvents_cons_of_ok hopen, parseEvents_append_eq_ok]
    refine ⟨u, hu, ?_⟩
    rw [parseEvents_cons_of_ok hclose]
    exact ht
  have hid : t.eventId = declaredEventId (reader xml) :=
    congrArg Prod.snd (parseEvents_track hall)
  obtain ⟨eventId, heventId⟩ := Option.isSome_iff_exists.mp h.numbered
  refine ⟨⟨eventId, if t.occurredAt = "" then now else t.occurredAt, t.fields⟩, ?_, ?_, ?_⟩
  · unfold parseEventXml
    rw [if_neg (Nat.not_lt.mpr hxml), hall]
    simp [Except.bind, hid, heventId]
  · intro value hsome
    exact hpieces.2.2 value (hfield.2.symm.trans hsome)
  · intro hrest
    exact hfield.2.trans
      (lookup_of_rest_eq_nil hrest htrim hvalue ⟨rfl, rfl⟩ h.name_ne hnone hroom hu)

/-- A piece of a text with references is not its value, trimmed or not. -/
theorem value_notMem_pieces (hrest : text.rest ≠ []) :
    text.value ∉ text.pieces.map xmlTrim := by
  intro hmem
  obtain ⟨piece, hpiece, heq⟩ := List.mem_map.mp hmem
  have hle := length_piece_le text hpiece
  have htrim := length_trimMatches_le isXmlSpace piece
  have hpos := List.length_pos_of_ne_nil hrest
  unfold xmlTrim at heq
  rw [heq] at htrim
  omega

/-- **Which values survive parsing.** For a document of the reader with a numeric `EventID`, at
most 128 field names, and a field whose value has no white space at its ends and is at most 32 KiB
long, exactly that value is stored if and only if the document is within the size limit, the value
is not empty, and its text contains no reference. An empty value is not stored, but an absent
field reads as the empty string. -/
theorem fieldValue_stored_iff (reader : XmlReader) (now xml : String) (pre : List XmlEvent)
    (attributes : List XmlAttribute) (name : String) (text : XmlText) (post : List XmlEvent)
    (h : DeliversField reader xml pre attributes name text post)
    (htrim : xmlTrim text.value = text.value)
    (hvalue : text.value.utf8ByteSize ≤ maximumFieldValueBytes) :
    ((∃ event, parseEventXml reader now xml = .ok event ∧
        event.fields.lookup name = some text.value) ↔
      xml.utf8ByteSize ≤ maximumEventXmlBytes ∧ text.value ≠ "" ∧ text.rest = []) ∧
    ((∃ event, parseEventXml reader now xml = .ok event ∧ event.field name = text.value) ↔
      xml.utf8ByteSize ≤ maximumEventXmlBytes ∧ text.rest = []) := by
  by_cases hxml : xml.utf8ByteSize ≤ maximumEventXmlBytes
  · obtain ⟨event, hparse, hpieces, hwhole⟩ := exists_parseEventXml now h hxml htrim hvalue
    have hparsed {P : SysmonEvent → Prop} :
        (∃ event, parseEventXml reader now xml = .ok event ∧ P event) ↔ P event := by
      rw [hparse]
      simp
    rw [hparsed, hparsed]
    by_cases hrest : text.rest = []
    · have hlookup := hwhole hrest
      unfold SysmonEvent.field
      by_cases hempty : text.value = ""
      · simp [hlookup, hempty, hrest, hxml]
      · simp [hlookup, hempty, hrest, hxml]
    · have hne : event.fields.lookup name ≠ some text.value := fun hsome =>
        value_notMem_pieces hrest (hpieces _ hsome)
      have hlong : text.value ≠ "" := by
        intro hempty
        have hle := length_piece_le text List.mem_cons_self
        have hpos := List.length_pos_of_ne_nil hrest
        rw [hempty] at hle
        simp only [String.toList_empty, List.length_nil] at hle
        omega
      refine ⟨iff_of_false hne (by simp [hrest]), iff_of_false ?_ (by simp [hrest])⟩
      unfold SysmonEvent.field
      cases hlookup : event.fields.lookup name with
      | none => exact hlong.symm
      | some value =>
          intro heq
          exact hne (hlookup.trans (congrArg some heq))
  · have hfail : ∀ event, parseEventXml reader now xml ≠ .ok event := by
      intro event
      unfold parseEventXml
      rw [if_pos (Nat.lt_of_not_le hxml)]
      simp
    constructor
    · exact iff_of_false (fun ⟨event, heq, _⟩ => hfail event heq) fun hcond => hxml hcond.1
    · exact iff_of_false (fun ⟨event, heq, _⟩ => hfail event heq) fun hcond => hxml hcond.1

/-- A process creation whose command line is `a & b`, as the reader delivers it. -/
def commandLine : XmlText := ⟨"a ", [(⟨"amp", '&'⟩, " b")]⟩

/-- The events before the field `CommandLine`. -/
def processCreate : List XmlEvent :=
  [.start "Event" [], .start "System" [], .start "EventID" [], .text (.ok "1"), .close "EventID",
    .close "System", .start "EventData" []]

/-- A reader that delivers that document for every text. -/
def commandLineReader : XmlReader := fun _ =>
  processCreate ++ (.start "Data" [⟨"Name", .ok "CommandLine"⟩] ::
    (commandLine.deliver ++ (.close "Data" :: [.close "EventData", .close "Event"])))

theorem delivers_commandLine : DeliversField commandLineReader "<Event/>" processCreate
    [⟨"Name", .ok "CommandLine"⟩] "CommandLine" commandLine
    [.close "EventData", .close "Event"] where
  events := rfl
  name_eq := by decide
  name_ne := by decide
  notMem_pre := by decide
  notMem_post := by decide
  count := by decide
  decodes_pre := by
    intro event hmem
    fin_cases hmem
    all_goals first | trivial | exact fun item h => absurd h List.not_mem_nil
  decodes_post := by
    intro event hmem
    fin_cases hmem
    all_goals trivial
  numbered := by decide

/-- `fieldValue_stored_iff` at the command line `a & b`. -/
theorem fieldValue_stored_commandLine :
    (∃ event, parseEventXml commandLineReader "unix:0" "<Event/>" = .ok event ∧
        event.fields.lookup "CommandLine" = some commandLine.value) ↔
      "<Event/>".utf8ByteSize ≤ maximumEventXmlBytes ∧ commandLine.value ≠ "" ∧
        commandLine.rest = [] :=
  (fieldValue_stored_iff commandLineReader "unix:0" "<Event/>" processCreate _ "CommandLine"
    commandLine _ delivers_commandLine (by decide) (by decide)).1

/-- The command line `a & b` is stored as `b`. -/
theorem fieldValue_lost_commandLine :
    commandLine.value = "a & b" ∧
      ((parseEventXml commandLineReader "unix:0" "<Event/>").toOption.map fun event =>
        event.fields.lookup "CommandLine") = some (some "b") := by
  decide

end survive

end OpenGuard.Windows
