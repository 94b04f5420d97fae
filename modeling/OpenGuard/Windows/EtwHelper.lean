import OpenGuard.Ipc.Frame
import OpenGuard.Lib.Lines
import OpenGuard.Lib.Text
import OpenGuard.Lib.Utf8Bytes

/-!
# The event helper

A process of its own receives the kernel's process events and writes one line of JSON for each. The
texts of an event are passed on as bytes: a property that is not wide text is written as it is.

* `newline_notMem_eventBody`: an event is one line.
* `isUtf8_eventBody_iff`: the line is UTF-8 exactly when the texts of the event are.
-/

namespace OpenGuard.Windows

open OpenGuard.Lib OpenGuard.Ipc
open FileTree (utf8)

/-- An event as the tracing library gives it: the bytes of its properties, none where one cannot be
read. -/
structure EventRecord where
  /-- The event is one of `kKernelProcessProvider`. -/
  ofProvider : Bool
  id : UInt16
  processId : UInt32
  property : String → List UInt8

/-- Source: `openguard_etw.cpp`, `EventProcessId` -/
def eventProcessId (event : EventRecord) : ℕ :=
  let value := event.property "ProcessID"
  if value = [] ∨ 8 < value.length then event.processId.toNat else fromLeBytes value % 2 ^ 32

/-- Source: `openguard_etw.cpp`, `EventProperty` -/
def eventProperty (event : EventRecord) (requestedName : String) : List UInt8 :=
  let value := event.property requestedName
  if 64 * 1024 < value.length then [] else value

/-- Source: `openguard_etw.cpp`, `EventUlong` -/
def eventUlong (event : EventRecord) (name : String) : ℕ :=
  let value := eventProperty event name
  if 4 ≤ value.length then fromLeBytes (value.take 4) else 0

/-- The wide characters of some bytes. -/
def wideChars : List UInt8 → List UInt16
  | low :: high :: rest => .ofNat (low.toNat + 256 * high.toNat) :: wideChars rest
  | _ => []

section helper

-- `WideCharToMultiByte` with `CP_UTF8`
variable (toUtf8 : List UInt16 → List UInt8)

/-- Source: `openguard_etw.cpp`, `EventText`, `Utf8` -/
def eventText (event : EventRecord) (name : String) : List UInt8 :=
  let value := eventProperty event name
  let wide := (wideChars value).takeWhile (· ≠ 0)
  let decoded := if wide = [] then [] else toUtf8 wide
  if value = [] then []
  else if 2 ≤ value.length ∧ value.length % 2 = 0 ∧ decoded ≠ [] then decoded
  else value.takeWhile (· ≠ 0)

/-- Source: `openguard_etw.cpp`, `JsonEscape` -/
def escapeByte (character : UInt8) : List UInt8 :=
  if character = 92 then utf8 "\\\\"
  else if character = 34 then utf8 "\\\""
  else if character = 8 then utf8 "\\b"
  else if character = 12 then utf8 "\\f"
  else if character = 10 then utf8 "\\n"
  else if character = 13 then utf8 "\\r"
  else if character = 9 then utf8 "\\t"
  else if character < 32 then
    utf8 "\\u00" ++ [character / 16, character % 16].map fun digit =>
      .ofNat (Nat.digitChar digit.toNat).toNat
  else [character]

/-- Source: `openguard_etw.cpp`, `JsonEscape` -/
def jsonEscape (value : List UInt8) : List UInt8 := value.flatMap escapeByte

/-- A text of an event as it is written; only the start of a process has texts.
Source: `openguard_etw.cpp`, `OnEvent` -/
def writtenText (event : EventRecord) (name : String) : List UInt8 :=
  if event.id = 1 then eventText toUtf8 event name else []

/-- The line of an event, without its newline.
Source: `openguard_etw.cpp`, `OnEvent` -/
def eventBody (event : EventRecord) : List UInt8 :=
  let parentPid := if event.id = 1 then eventUlong event "ParentProcessID" else 0
  utf8 ("\x7b\"type\":\"" ++ (if event.id = 1 then "start" else "stop") ++ "\",\"pid\":" ++
      toString (eventProcessId event) ++ ",\"parent_pid\":" ++ toString parentPid ++
      ",\"image\":\"") ++
    jsonEscape (writtenText toUtf8 event "ImageName") ++ utf8 "\",\"command_line\":\"" ++
    jsonEscape (writtenText toUtf8 event "CommandLine") ++
    utf8 ("\",\"event_id\":" ++ toString event.id.toNat ++ "\x7d")

/-- The lines that are written for some events.
Source: `openguard_etw.cpp`, `OnEvent` -/
def eventBodies (events : List EventRecord) : List (List UInt8) :=
  (events.filter fun event => event.ofProvider && (event.id = 1 || event.id = 2)).map
    (eventBody toUtf8)

end helper

/-! ## The lines -/

section lines

variable {toUtf8 : List UInt16 → List UInt8} {event : EventRecord} {value : List UInt8}

theorem escapeByte_of_high {b : UInt8} (h : ¬b < 128) : escapeByte b = [b] := by
  have hall : ∀ n < 256, ¬UInt8.ofNat n < 128 → escapeByte (.ofNat n) = [.ofNat n] := by
    decide +kernel
  have hbyte := hall b.toNat b.toNat_lt
  rw [UInt8.ofNat_toNat] at hbyte
  exact hbyte h

theorem escapeByte_of_low {b : UInt8} (h : b < 128) :
    escapeByte b ≠ [] ∧ ∀ c ∈ escapeByte b, 32 ≤ c ∧ c < 128 := by
  have hall : ∀ n < 128, escapeByte (.ofNat n) ≠ [] ∧
      (escapeByte (.ofNat n)).all (fun c => 32 ≤ c ∧ c < 128) := by
    decide +kernel
  obtain ⟨hne, hbytes⟩ := hall b.toNat (UInt8.lt_iff_toNat_lt.mp h)
  rw [UInt8.ofNat_toNat] at hne hbytes
  exact ⟨hne, fun c hc => of_decide_eq_true (List.all_eq_true.mp hbytes c hc)⟩

/-- What is escaped has no control characters. -/
theorem le_of_mem_jsonEscape {b : UInt8} (h : b ∈ jsonEscape value) : 32 ≤ b := by
  obtain ⟨c, -, hb⟩ := List.mem_flatMap.mp h
  by_cases hlow : c < 128
  · exact ((escapeByte_of_low hlow).2 b hb).1
  · rw [escapeByte_of_high hlow, List.mem_singleton] at hb
    rw [hb]
    exact UInt8.le_trans (by decide) (UInt8.not_lt.mp hlow)

/-- Escaping neither makes a text UTF-8 nor spoils it. -/
theorem isUtf8_jsonEscape_iff : IsUtf8 (jsonEscape value) ↔ IsUtf8 value :=
  isUtf8_flatMap_iff (fun _ => escapeByte_of_high) fun _ hb =>
    ⟨(escapeByte_of_low hb).1, fun c hc => ((escapeByte_of_low hb).2 c hc).2⟩

theorem newline_notMem_toString (n : ℕ) : '\n' ∉ (toString n).toList :=
  fun h => absurd (isDigit_of_mem_toString h) (by decide)

theorem newline_notMem_utf8 {text : String} (h : '\n' ∉ text.toList) :
    Source.newline ∉ utf8 text :=
  fun hmem => h ((mem_utf8_iff (by decide)).mp hmem)

theorem newline_notMem_jsonEscape : Source.newline ∉ jsonEscape value :=
  fun h => absurd (le_of_mem_jsonEscape h) (by decide)

/-- An event is one line. -/
theorem newline_notMem_eventBody : Source.newline ∉ eventBody toUtf8 event := by
  unfold eventBody
  simp only [List.mem_append, not_or]
  refine ⟨⟨⟨⟨newline_notMem_utf8 ?_, newline_notMem_jsonEscape⟩, newline_notMem_utf8 (by decide)⟩,
    newline_notMem_jsonEscape⟩, newline_notMem_utf8 ?_⟩
  · simp only [String.toList_append, List.mem_append, not_or]
    refine ⟨⟨⟨⟨⟨⟨by decide, ?_⟩, by decide⟩, newline_notMem_toString _⟩, by decide⟩,
      newline_notMem_toString _⟩, by decide⟩
    split_ifs <;> decide
  · simp only [String.toList_append, List.mem_append, not_or]
    exact ⟨⟨by decide, newline_notMem_toString _⟩, by decide⟩

theorem utf8_append (first second : String) : utf8 (first ++ second) = utf8 first ++ utf8 second := by
  rw [utf8_eq, utf8_eq, utf8_eq, String.toList_append, encodeChars, List.flatMap_append]
  rfl

/-- **The line of an event is UTF-8 exactly when its texts are.** -/
theorem isUtf8_eventBody_iff :
    IsUtf8 (eventBody toUtf8 event) ↔
      IsUtf8 (writtenText toUtf8 event "ImageName") ∧
        IsUtf8 (writtenText toUtf8 event "CommandLine") := by
  have hquote : utf8 "\"" = [34] := by decide +kernel
  have himage (text : String) :
      utf8 (text ++ ",\"image\":\"") = utf8 (text ++ ",\"image\":") ++ [34] := by
    rw [show ",\"image\":\"" = ",\"image\":" ++ "\"" from rfl, ← String.append_assoc,
      utf8_append, hquote]
  have hcommand : utf8 "\",\"command_line\":\"" = 34 :: (utf8 ",\"command_line\":" ++ [34]) := by
    decide +kernel
  have hid (text back : String) :
      utf8 ("\",\"event_id\":" ++ text ++ back) = 34 :: utf8 (",\"event_id\":" ++ text ++ back) := by
    rw [show "\",\"event_id\":" = "\"" ++ ",\"event_id\":" from rfl, String.append_assoc,
      String.append_assoc, utf8_append, hquote, List.singleton_append, String.append_assoc]
  unfold eventBody
  dsimp only
  rw [himage, hcommand, hid]
  -- the four quotation marks around the two texts
  simp only [List.append_assoc, List.cons_append, List.nil_append]
  rw [isUtf8_append_cons_iff (by decide), isUtf8_append_cons_iff (by decide),
    isUtf8_append_cons_iff (by decide), isUtf8_append_cons_iff (by decide),
    isUtf8_jsonEscape_iff, isUtf8_jsonEscape_iff]
  simp only [isUtf8_utf8, true_and, and_true]

/-- A text of an odd number of bytes is written as it is. -/
theorem eventText_of_odd {name : String} (hodd : (eventProperty event name).length % 2 = 1) :
    eventText toUtf8 event name = (eventProperty event name).takeWhile (· ≠ 0) := by
  have hwide (decoded : List UInt8) : ¬(2 ≤ (eventProperty event name).length ∧
      (eventProperty event name).length % 2 = 0 ∧ decoded ≠ []) := by
    rintro ⟨-, heven, -⟩
    omega
  unfold eventText
  dsimp only
  rw [if_neg (hwide _)]
  split_ifs with hnone
  · rw [hnone]
    rfl
  · rfl

end lines

end OpenGuard.Windows
