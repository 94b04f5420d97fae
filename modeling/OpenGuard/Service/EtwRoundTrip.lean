import OpenGuard.Lib.JsonFlat
import OpenGuard.Service.EtwReader

/-!
# From the event helper to its reader

The helper writes an event as one line, and escapes its texts byte by byte; the reader parses the line
and takes the fields out of it.

* `eventBody_eq`: where the texts are UTF-8, the line is the compact text of a flat object.
* `decodesBack_iff`: **the reader gets what was sent**, exactly when the texts are UTF-8.
-/

namespace OpenGuard.Service

open OpenGuard.Lib OpenGuard.Windows OpenGuard.Ipc
open FileTree (utf8)

/-! ## The line as a text -/

/-- `start` or `stop`.
Source: `openguard_etw.cpp`, `OnEvent` -/
def eventKind (event : EventRecord) : String := if event.id = 1 then "start" else "stop"

/-- The process that started this one; only the start of a process has one.
Source: `openguard_etw.cpp`, `OnEvent` -/
def parentPid (event : EventRecord) : ℕ :=
  if event.id = 1 then eventUlong event "ParentProcessID" else 0

/-- The fields of the line. -/
def eventFields (event : EventRecord) (image commandLine : String) : List (String × Json) :=
  [("type", .string (eventKind event)), ("pid", .int (eventProcessId event)),
    ("parent_pid", .int (parentPid event)), ("image", .string image),
    ("command_line", .string commandLine), ("event_id", .int event.id.toNat)]

section line

variable {toUtf8 : List UInt16 → List UInt8} {event : EventRecord} {image commandLine : String}

/-- One character below 128 is escaped as the compact text escapes it. -/
theorem escapeByte_ofNat {n : ℕ} (h : n < 128) :
    escapeByte (.ofNat n) = encodeChars (escape (Char.ofNat n)) := by
  have hall : ∀ n < 128, escapeByte (.ofNat n) = encodeChars (escape (Char.ofNat n)) := by
    decide
  exact hall n h

theorem toNat_ofNat_of_lt {n : ℕ} (h : n < 128) : (Char.ofNat n).toNat = n := by
  have hvalid : n.isValidChar := Or.inl (by omega)
  rw [Char.ofNat, dif_pos hvalid]
  rfl

/-- A character is escaped as the compact text escapes it. -/
theorem flatMap_escapeByte_char (c : Char) :
    (String.utf8EncodeChar c).flatMap escapeByte = encodeChars (escape c) := by
  by_cases hlow : c.toNat < 128
  · rw [(utf8EncodeChar_eq_singleton_iff hlow).mpr rfl, List.flatMap_singleton,
      escapeByte_ofNat hlow, Char.ofNat_toNat]
  · have hhigh : ∀ b ∈ String.utf8EncodeChar c, escapeByte b = [b] := by
      intro b hb
      refine escapeByte_of_high fun hbyte => ?_
      rw [UInt8.lt_iff_toNat_lt] at hbyte
      have hnat : (Char.ofNat b.toNat).toNat = b.toNat := toNat_ofNat_of_lt hbyte
      have hsingle := eq_singleton_of_mem hb (UInt8.lt_iff_toNat_lt.mpr hbyte)
      rw [← UInt8.ofNat_toNat (x := b), ← hnat] at hsingle
      rw [(utf8EncodeChar_eq_singleton_iff (by rw [hnat]; exact hbyte)).mp hsingle, hnat] at hlow
      exact hlow hbyte
    have hne (d : Char) (hd : d.toNat < 128) : c ≠ d := fun heq => hlow (heq ▸ hd)
    have hplain : escape c = [c] := by
      unfold escape
      rw [if_neg (hne _ (by decide)), if_neg (hne _ (by decide)), if_neg (hne _ (by decide)),
        if_neg (hne _ (by decide)), if_neg (hne _ (by decide)), if_neg (hne _ (by decide)),
        if_neg (hne _ (by decide)), if_neg (by omega)]
    rw [hplain, List.flatMap_congr hhigh, encodeChars, List.flatMap_singleton]
    exact List.flatMap_singleton' _

/-- A text is escaped as the compact text escapes it. -/
theorem jsonEscape_utf8 (text : String) :
    jsonEscape (utf8 text) = utf8 (String.ofList (text.toList.flatMap escape)) := by
  rw [utf8_eq, utf8_eq, String.toList_ofList, jsonEscape, encodeChars, encodeChars,
    List.flatMap_assoc, List.flatMap_assoc]
  exact List.flatMap_congr fun c _ => flatMap_escapeByte_char c

/-- The compact text of the fields. -/
theorem render_eventFields : Json.render (.object (eventFields event image commandLine)) =
    "\x7b\"type\":\"" ++ eventKind event ++ "\",\"pid\":" ++ toString (eventProcessId event) ++
      ",\"parent_pid\":" ++ toString (parentPid event) ++ ",\"image\":\"" ++
      String.ofList (image.toList.flatMap escape) ++ "\",\"command_line\":\"" ++
      String.ofList (commandLine.toList.flatMap escape) ++ "\",\"event_id\":" ++
      toString event.id.toNat ++ "\x7d" := by
  have hkind : String.ofList ((eventKind event).toList.flatMap escape) = eventKind event := by
    unfold eventKind
    split_ifs
    · decide
    · decide
  have hnames : ∀ name ∈ ["type", "pid", "parent_pid", "image", "command_line", "event_id"],
      String.ofList (name.toList.flatMap escape) = name := by decide
  have htype := hnames "type" (by decide)
  have hpid := hnames "pid" (by decide)
  have hparent := hnames "parent_pid" (by decide)
  have himage := hnames "image" (by decide)
  have hcommand := hnames "command_line" (by decide)
  have hid := hnames "event_id" (by decide)
  simp only [eventFields, Json.render, Json.renderEntries, joinWith, Json.quoted, hkind, htype,
    hpid, hparent, himage, hcommand, hid]
  rw [show "\x7b\"type\":\"" = "\x7b" ++ "\"" ++ "type" ++ "\"" ++ ":" ++ "\"" from rfl,
    show "\",\"pid\":" = "\"" ++ "," ++ "\"" ++ "pid" ++ "\"" ++ ":" from rfl,
    show ",\"parent_pid\":" = "," ++ "\"" ++ "parent_pid" ++ "\"" ++ ":" from rfl,
    show ",\"image\":\"" = "," ++ "\"" ++ "image" ++ "\"" ++ ":" ++ "\"" from rfl,
    show "\",\"command_line\":\"" =
      "\"" ++ "," ++ "\"" ++ "command_line" ++ "\"" ++ ":" ++ "\"" from rfl,
    show "\",\"event_id\":" = "\"" ++ "," ++ "\"" ++ "event_id" ++ "\"" ++ ":" from rfl]
  simp only [String.append_assoc]
  rfl

/-- **Where its texts are UTF-8, the line of an event is the compact text of its fields.** -/
theorem eventBody_eq (himage : writtenText toUtf8 event "ImageName" = utf8 image)
    (hcommand : writtenText toUtf8 event "CommandLine" = utf8 commandLine) :
    eventBody toUtf8 event =
      utf8 (Json.render (.object (eventFields event image commandLine))) := by
  rw [render_eventFields, eventBody, himage, hcommand, jsonEscape_utf8, jsonEscape_utf8]
  simp only [← utf8_append, String.append_assoc]
  rfl

/-! ## The reader -/

theorem lineText_utf8 {text : String} {last : Char} (h : text.toList.getLast? = some last)
    (hlast : last ≠ '\r') : Source.lineText (utf8 text) = some text := by
  have hbytes : utf8 text ++ [Source.newline] = utf8 (text ++ "\n") := by
    rw [utf8_append]
    rfl
  have hstrip : Source.stripNewline (text ++ "\n") = text := by
    obtain ⟨front, hfront⟩ := List.getLast?_eq_some_iff.mp h
    have hreverse : (text ++ "\n").toList.reverse = '\n' :: last :: front.reverse := by
      rw [String.toList_append, hfront]
      simp
    have htext : String.ofList (last :: front.reverse).reverse = text := by
      rw [List.reverse_cons, List.reverse_reverse, ← hfront, String.ofList_toList]
    unfold Source.stripNewline
    rw [hreverse]
    split
    · next heq => exact absurd (List.cons.inj (List.cons.inj heq).2).1 hlast
    · next heq => rw [← (List.cons.inj heq).2, htext]
    · next hnone => exact absurd rfl (hnone _)
  rw [Source.lineText, hbytes, FileTree.fromUTF8?_utf8, Option.map_some, hstrip]

theorem fromLeBytes_lt (bytes : List UInt8) : fromLeBytes bytes < 256 ^ bytes.length := by
  induction bytes with
  | nil => exact Nat.zero_lt_one
  | cons byte rest ih =>
      have hbyte := byte.toNat_lt
      rw [fromLeBytes, List.length_cons, pow_succ]
      omega

theorem eventProcessId_lt : eventProcessId event < 2 ^ 32 := by
  unfold eventProcessId
  dsimp only
  split_ifs
  · exact event.processId.toNat_lt
  · exact Nat.mod_lt _ (by decide)

theorem parentPid_lt : parentPid event < 2 ^ 32 := by
  unfold parentPid eventUlong
  dsimp only
  split_ifs with hstart hlong
  · have hlt := fromLeBytes_lt ((eventProperty event "ParentProcessID").take 4)
    rw [List.length_take, Nat.min_eq_left hlong] at hlt
    exact hlt
  · decide
  · decide

/-- The fields of the line have different names, and their numbers have 64 bits. -/
theorem isFlat_eventFields : Json.IsFlat (eventFields event image commandLine) := by
  have hnames : (eventFields event image commandLine).map Prod.fst =
      ["type", "pid", "parent_pid", "image", "command_line", "event_id"] := rfl
  have hid : event.id.toNat < 2 ^ 64 := event.id.toNat_lt.trans (by decide)
  refine ⟨by rw [hnames]; decide, ?_⟩
  simp only [eventFields, List.forall_mem_cons, List.not_mem_nil, false_imp_iff, implies_true,
    and_true]
  exact ⟨.inl ⟨_, rfl⟩, .inr ⟨_, eventProcessId_lt.trans (by decide), rfl⟩,
    .inr ⟨_, parentPid_lt.trans (by decide), rfl⟩, .inl ⟨_, rfl⟩, .inl ⟨_, rfl⟩, .inr ⟨_, hid, rfl⟩⟩

theorem textField_of_get {value : Json} {name text : String}
    (h : value.get name = some (.string text)) : textField value name = text := by
  rw [textField, h]
  rfl

theorem u32Field_of_get {value : Json} {name : String} {n : ℕ}
    (h : value.get name = some (.int n)) (hn : n < 2 ^ 32) : u32Field value name = .ofNat n := by
  have hsize : (0 : ℤ) ≤ n ∧ (n : ℤ) < 2 ^ 64 := by omega
  have hnumber : Json.asU64 (.int n) = some n := by
    rw [Json.asU64, if_pos hsize, Int.toNat_natCast]
  rw [u32Field, h, Option.bind_some, hnumber]
  exact if_pos hn

/-- The event that the reader makes of the line. -/
theorem processEvent_eventFields {value : Json}
    (hget : ∀ name, value.get name = (eventFields event image commandLine).lookup name) :
    isProcessEvent value = true ∧ processEvent value =
      ⟨eventKind event, .ofNat (eventProcessId event), .ofNat (parentPid event), image,
        commandLine⟩ := by
  have htype : value.get "type" = some (.string (eventKind event)) := by
    rw [hget]
    simp [eventFields]
  have hpid : value.get "pid" = some (.int (eventProcessId event)) := by
    rw [hget]
    simp [eventFields, List.lookup_cons]
  have hparent : value.get "parent_pid" = some (.int (parentPid event)) := by
    rw [hget]
    simp [eventFields, List.lookup_cons]
  have himage : value.get "image" = some (.string image) := by
    rw [hget]
    simp [eventFields, List.lookup_cons]
  have hcommand : value.get "command_line" = some (.string commandLine) := by
    rw [hget]
    simp [eventFields, List.lookup_cons]
  constructor
  · rw [isProcessEvent, htype]
    unfold eventKind
    split_ifs
    · simp [jsonStr]
    · simp [jsonStr]
  · rw [processEvent, textField_of_get htype, u32Field_of_get hpid eventProcessId_lt,
      u32Field_of_get hparent parentPid_lt, textField_of_get himage, textField_of_get hcommand]

theorem exists_text {bytes : List UInt8} (h : IsUtf8 bytes) : ∃ text, bytes = utf8 text := by
  obtain ⟨chars, rfl⟩ := isUtf8_iff.mp h
  exact ⟨String.ofList chars, by rw [utf8_eq, String.toList_ofList]⟩

theorem last_render (entries : List (String × Json)) :
    (Json.render (.object entries)).toList.getLast? = some '\x7d' := by
  rw [Json.render, String.toList_append, List.getLast?_append]
  rfl

/-- What the reader gets of an event is what was sent: one line of UTF-8, that is parsed to an event with
the same kind, the same processes and the same texts. -/
structure DecodesBack (fromStr : String → Option Json) (toUtf8 : List UInt16 → List UInt8)
    (event : EventRecord) : Prop where
  single : Source.newline ∉ eventBody toUtf8 event
  valid : IsUtf8 (eventBody toUtf8 event)
  same : ∃ read, eventOfLine fromStr (eventBody toUtf8 event) = some read ∧
    read.kind = eventKind event ∧ read.pid.toNat = eventProcessId event ∧
    read.parentPid.toNat = parentPid event ∧
    utf8 read.image = writtenText toUtf8 event "ImageName" ∧
    utf8 read.commandLine = writtenText toUtf8 event "CommandLine"

/-- **The reader gets what was sent**, exactly when the image and the command line are UTF-8. -/
theorem decodesBack_iff {fromStr : String → Option Json} (hparse : Json.ReadsFlat fromStr) :
    DecodesBack fromStr toUtf8 event ↔
      IsUtf8 (writtenText toUtf8 event "ImageName") ∧
        IsUtf8 (writtenText toUtf8 event "CommandLine") := by
  constructor
  · exact fun h => isUtf8_eventBody_iff.mp h.valid
  · rintro ⟨himage, hcommand⟩
    obtain ⟨image, himage⟩ := exists_text himage
    obtain ⟨commandLine, hcommand⟩ := exists_text hcommand
    have hbody := eventBody_eq himage hcommand
    obtain ⟨value, hvalue, hget⟩ := hparse (eventFields event image commandLine) isFlat_eventFields
    obtain ⟨hevent, hread⟩ := processEvent_eventFields hget
    have hline : Source.lineText (eventBody toUtf8 event) =
        some (Json.render (.object (eventFields event image commandLine))) := by
      rw [hbody]
      exact lineText_utf8 (last_render _) (by decide)
    refine ⟨newline_notMem_eventBody, hbody ▸ isUtf8_utf8 _, ⟨eventKind event,
      .ofNat (eventProcessId event), .ofNat (parentPid event), image, commandLine⟩, ?_, rfl,
      ?_, ?_, ?_, ?_⟩
    · rw [eventOfLine, hline, Option.bind_some, eventOfText, hvalue, Option.bind_some,
        if_pos hevent, hread]
    · exact UInt32.toNat_ofNat_of_lt eventProcessId_lt
    · exact UInt32.toNat_ofNat_of_lt parentPid_lt
    · exact himage.symm
    · exact hcommand.symm

/-- A process whose command line has a quotation mark, a backslash and a line feed starts. -/
def quotedStart : EventRecord where
  ofProvider := true
  id := 1
  processId := 7
  property := fun name => if name = "CommandLine" then [0x22, 0x5C, 0x0A] else []

theorem decodesBack_iff_quoted : Json.ReadsFlat Json.parseFlat ∧
    DecodesBack Json.parseFlat (fun _ => []) quotedStart := by
  have hcommand : writtenText (fun _ => []) quotedStart "CommandLine" = utf8 "\"\\\n" := by
    decide
  have himage : writtenText (fun _ => []) quotedStart "ImageName" = utf8 "" := by decide
  refine ⟨Json.readsFlat_parseFlat, (decodesBack_iff Json.readsFlat_parseFlat).mpr ⟨?_, ?_⟩⟩
  · exact himage ▸ isUtf8_utf8 _
  · exact hcommand ▸ isUtf8_utf8 _

/-- The line of a narrow name is not UTF-8. -/
theorem narrowName_not_decodesBack : ¬ ∀ (fromStr : String → Option Json),
    Json.ReadsFlat fromStr → ∀ (toUtf8 : List UInt16 → List UInt8) (event : EventRecord),
      event.ofProvider ∧ (event.id = 1 ∨ event.id = 2) → DecodesBack fromStr toUtf8 event := by
  intro h
  have hstart := h Json.parseFlat Json.readsFlat_parseFlat (fun _ => []) narrowStart
    ⟨rfl, Or.inl rfl⟩
  have himage : ¬ IsUtf8 (writtenText (fun _ => []) narrowStart "ImageName") := by decide
  exact himage (isUtf8_eventBody_iff.mp hstart.valid).1

end line

end OpenGuard.Service
