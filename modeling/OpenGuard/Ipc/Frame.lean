import OpenGuard.Lib.Stream
import Mathlib.Algebra.Ring.Nat
import Mathlib.Data.List.TakeWhile

/-!
# Frames

A message on the pipe is the JSON text of a value behind its length in four bytes, the least first.
The texts of JSON are written and parsed by another library, which is a parameter here: `serialize`
writes a value, `deserialize` parses the value at the front of a text and leaves the rest.

* `writeFrame`, `readFrame`: one frame.
* `readFrame_frame`: what is read from the bytes of a frame, however the stream cuts them.
* `framed_stream`: a list of messages survives the stream, and nothing else is accepted.
-/

namespace OpenGuard.Ipc

open OpenGuard.Lib

/-- Source: `ipc/lib.rs`, `MAX_FRAME_BYTES` -/
def maxFrameBytes : ℕ := 4 * 1024 * 1024

/-- Source: `ipc/lib.rs`, `FrameError` -/
inductive FrameError where
  | io (message : String)
  | json (message : String)
  | invalidSize (actual maximum : ℕ)
  | unsupportedProtocol (actual expected : UInt16)
  | invalidRequestId
  deriving DecidableEq, Inhabited

/-- The JSON library at a type of messages. -/
structure JsonCodec (M : Type) where
  serialize : M → Except String (List UInt8)
  /-- The value at the front of the text, and what follows it. -/
  deserialize : List UInt8 → Except String (M × List UInt8)

/-- Parsing undoes serialization. -/
def JsonCodec.RoundTrips {M : Type} (codec : JsonCodec M) : Prop :=
  ∀ message payload, codec.serialize message = .ok payload →
    codec.deserialize payload = .ok (message, [])

/-- `u32::to_le_bytes`. -/
def toLeBytes (size : ℕ) : List UInt8 :=
  [.ofNat (size % 256), .ofNat (size / 256 % 256), .ofNat (size / 65536 % 256),
    .ofNat (size / 16777216 % 256)]

/-- `u32::from_le_bytes`. -/
def fromLeBytes : List UInt8 → ℕ
  | [] => 0
  | byte :: rest => byte.toNat + 256 * fromLeBytes rest

/-- The white space of JSON. -/
def isJsonWhitespace (byte : UInt8) : Bool := byte == 32 || byte == 9 || byte == 10 || byte == 13

/-- How the writer fails while a frame is written. -/
structure WriteFaults where
  header : Option String
  payload : Option String
  flush : Option String
  deriving Inhabited

/-- `Write::write_all`, `Write::flush`: the error of a step that fails. -/
def step (fault : Option String) : Except FrameError Unit :=
  match fault with
  | some message => .error (.io message)
  | none => .ok ()

/-- The bytes that are written to the pipe.
Source: `ipc/lib.rs`, `write_frame` -/
def writeFrame {M : Type} (codec : JsonCodec M) (faults : WriteFaults) (value : M) :
    Except FrameError (List UInt8) := do
  let payload ← (codec.serialize value).mapError .json
  if payload = [] ∨ maxFrameBytes < payload.length then
    throw (.invalidSize payload.length maxFrameBytes)
  -- the conversion of the size to 32 bits
  if 2 ^ 32 ≤ payload.length then
    throw (.invalidSize payload.length maxFrameBytes)
  step faults.header
  step faults.payload
  step faults.flush
  return toLeBytes payload.length ++ payload

/-- Several messages, one behind the other. -/
def writeFrames {M : Type} (codec : JsonCodec M) : List M → Except FrameError (List UInt8)
  | [] => .ok []
  | message :: rest => do
      let written ← writeFrame codec default message
      return written ++ (← writeFrames codec rest)

/-- `serde_json::Deserializer::end`. -/
def finish (rest : List UInt8) : Except FrameError Unit :=
  if rest.dropWhile isJsonWhitespace = [] then .ok () else .error (.json "trailing characters")

/-- The value of a payload, if nothing but white space follows it. -/
def decodePayload {M : Type} (codec : JsonCodec M) (payload : List UInt8) :
    Except FrameError M := do
  let (value, rest) ← (codec.deserialize payload).mapError .json
  finish rest
  return value

/-- The error of a stream that ends too early. -/
def unexpectedEof : FrameError := .io "failed to fill whole buffer"

/-- The value, and what the source still has.
Source: `ipc/lib.rs`, `read_frame` -/
def readFrame {M : Type} (codec : JsonCodec M) (reader : Source FrameError) :
    Except FrameError M × Source FrameError :=
  match Source.readExact unexpectedEof 4 reader with
  | (.error error, reader) => (.error error, reader)
  | (.ok header, reader) =>
      let size := fromLeBytes header
      if size = 0 ∨ maxFrameBytes < size then (.error (.invalidSize size maxFrameBytes), reader)
      else
        match Source.readExact unexpectedEof size reader with
        | (.error error, reader) => (.error error, reader)
        | (.ok payload, reader) => (decodePayload codec payload, reader)

/-- As many frames as asked for, or the first error. -/
def readFrames {M : Type} (codec : JsonCodec M) :
    ℕ → Source FrameError → Except FrameError (List M) × Source FrameError
  | 0, reader => (.ok [], reader)
  | count + 1, reader =>
      match readFrame codec reader with
      | (.error error, reader) => (.error error, reader)
      | (.ok value, reader) =>
          let (rest, reader) := readFrames codec count reader
          (rest.map (value :: ·), reader)

/-! ## One frame -/

/-- The bytes of a frame. -/
def frame (payload : List UInt8) : List UInt8 := toLeBytes payload.length ++ payload

/-- The length of a payload is one that both sides allow. -/
def Allowed (size : ℕ) : Prop := 1 ≤ size ∧ size ≤ maxFrameBytes

section frame

variable {M : Type} {codec : JsonCodec M} {message : M} {payload rest header : List UInt8}
  {reader : Source FrameError}

@[simp] theorem length_toLeBytes (size : ℕ) : (toLeBytes size).length = 4 := rfl

theorem length_frame : (frame payload).length = 4 + payload.length := by simp [frame]

/-- The length that is written is read. -/
theorem fromLeBytes_toLeBytes {size : ℕ} (h : size < 2 ^ 32) :
    fromLeBytes (toLeBytes size) = size := by
  simp only [toLeBytes, fromLeBytes, UInt8.toNat_ofNat', Nat.mod_mod]
  omega

theorem Allowed.lt {size : ℕ} (h : Allowed size) : size < 2 ^ 32 := by
  have hle := h.2
  unfold maxFrameBytes at hle
  omega

theorem not_allowed_iff {size : ℕ} : ¬Allowed size ↔ size = 0 ∨ maxFrameBytes < size := by
  unfold Allowed
  omega

/-- What is written of a message, when the writer takes it: exactly the allowed payloads. -/
theorem writeFrame_of_serialize (h : codec.serialize message = .ok payload) :
    writeFrame codec default message =
      if payload.length = 0 ∨ maxFrameBytes < payload.length then
        .error (.invalidSize payload.length maxFrameBytes)
      else .ok (frame payload) := by
  unfold writeFrame
  rw [h]
  by_cases hsize : payload.length = 0 ∨ maxFrameBytes < payload.length
  · have hguard : payload = [] ∨ maxFrameBytes < payload.length :=
      hsize.imp_left List.length_eq_zero_iff.mp
    rw [if_pos hsize]
    simp only [Except.mapError, bind, Except.bind, if_pos hguard]
    rfl
  · have hguard : ¬(payload = [] ∨ maxFrameBytes < payload.length) := fun hguard =>
      hsize (hguard.imp_left List.length_eq_zero_iff.mpr)
    have hshort : ¬2 ^ 32 ≤ payload.length := by
      have hlt := (not_not.mp (mt not_allowed_iff.mp hsize)).lt
      omega
    rw [if_neg hsize]
    simp only [Except.mapError, bind, Except.bind, if_neg hguard, if_neg hshort]
    rfl

/-- The bytes of a frame are read up to its end. -/
theorem readFrame_frame (codec : JsonCodec M) (hreliable : reader.Reliable)
    (hallowed : Allowed payload.length)
    (hcontents : reader.contents = frame payload ++ rest) :
    ∃ after, readFrame codec reader = (decodePayload codec payload, after) ∧
      after.contents = rest ∧ after.Reliable := by
  have hframe : reader.contents = toLeBytes payload.length ++ (payload ++ rest) := by
    rw [hcontents, frame, List.append_assoc]
  obtain ⟨body, hheader, hbody, hbodyReliable⟩ :=
    Source.readExact_of_le unexpectedEof hreliable (show 4 ≤ _ by simp [hframe])
  rw [hframe, List.take_left' (length_toLeBytes _)] at hheader
  rw [hframe, List.drop_left' (length_toLeBytes _)] at hbody
  obtain ⟨after, hpayload, hafter, hafterReliable⟩ :=
    Source.readExact_of_le unexpectedEof hbodyReliable (show payload.length ≤ _ by simp [hbody])
  rw [hbody, List.take_left' rfl] at hpayload
  rw [hbody, List.drop_left' rfl] at hafter
  refine ⟨after, ?_, hafter, hafterReliable⟩
  have hsize : ¬(payload.length = 0 ∨ maxFrameBytes < payload.length) :=
    fun h => not_allowed_iff.mpr h hallowed
  simp only [readFrame, hheader, fromLeBytes_toLeBytes hallowed.lt, if_neg hsize, hpayload]

/-- The front of a frame is an error. -/
theorem readFrame_strictPrefix (codec : JsonCodec M) (hreliable : reader.Reliable)
    (hallowed : Allowed payload.length)
    (hfront : reader.contents <+: frame payload) (hstrict : reader.contents ≠ frame payload) :
    (readFrame codec reader).1 = .error unexpectedEof := by
  have hlength : reader.contents.length < 4 + payload.length := by
    rw [← length_frame]
    exact Nat.lt_of_le_of_ne hfront.length_le fun h => hstrict (hfront.eq_of_length h)
  by_cases hshort : reader.contents.length < 4
  · have hheader := Source.readExact_of_lt unexpectedEof hreliable hshort
    rcases hread : Source.readExact unexpectedEof 4 reader with ⟨error | header, after⟩
    · rw [hread] at hheader
      simp only [readFrame, hread]
      exact congrArg _ (Except.error.inj hheader)
    · rw [hread] at hheader
      cases hheader
  · obtain ⟨body, hheader, hbody, hbodyReliable⟩ :=
      Source.readExact_of_le unexpectedEof hreliable (Nat.le_of_not_lt hshort)
    have htake : reader.contents.take 4 = toLeBytes payload.length := by
      rw [List.prefix_iff_eq_take.mp hfront, List.take_take, Nat.min_eq_left (by omega), frame,
        List.take_left' (length_toLeBytes _)]
    rw [htake] at hheader
    have hmissing : body.contents.length < payload.length := by
      rw [hbody, List.length_drop]
      omega
    have hpayload := Source.readExact_of_lt unexpectedEof hbodyReliable hmissing
    have hsize : ¬(payload.length = 0 ∨ maxFrameBytes < payload.length) :=
      fun h => not_allowed_iff.mpr h hallowed
    simp only [readFrame, hheader, fromLeBytes_toLeBytes hallowed.lt, if_neg hsize]
    rcases hread : Source.readExact unexpectedEof payload.length body with ⟨error | read, after⟩
    · rw [hread] at hpayload
      exact congrArg _ (Except.error.inj hpayload)
    · rw [hread] at hpayload
      cases hpayload

/-- A length that is not allowed is an error, and nothing behind it is read. -/
theorem readFrame_invalidSize (codec : JsonCodec M) (hreliable : reader.Reliable)
    (hheader : header.length = 4)
    (hcontents : reader.contents = header ++ rest) (hsize : ¬Allowed (fromLeBytes header)) :
    ∃ after, readFrame codec reader =
      (.error (.invalidSize (fromLeBytes header) maxFrameBytes), after) ∧
        after.contents = rest := by
  obtain ⟨after, hread, hafter, -⟩ :=
    Source.readExact_of_le unexpectedEof hreliable (show 4 ≤ _ by simp [hcontents, hheader])
  rw [hcontents, List.take_left' hheader] at hread
  rw [hcontents, List.drop_left' hheader] at hafter
  refine ⟨after, ?_, hafter⟩
  simp only [readFrame, hread, if_pos (not_allowed_iff.mp hsize)]

/-- Anything but white space behind the value is an error. -/
theorem decodePayload_trailing {value : M} (h : codec.deserialize payload = .ok (value, rest)) :
    decodePayload codec payload =
      if rest.all isJsonWhitespace then .ok value else .error (.json "trailing characters") := by
  have hrest : rest.dropWhile isJsonWhitespace = [] ↔ rest.all isJsonWhitespace := by
    rw [List.dropWhile_eq_nil_iff, List.all_eq_true]
  by_cases hall : rest.all isJsonWhitespace
  · simp [decodePayload, h, finish, hrest, hall, Except.mapError, bind, Except.bind, pure,
      Except.pure]
  · simp [decodePayload, h, finish, hrest, hall, Except.mapError, bind, Except.bind]

/-- Whatever the stream does, a read takes no more than the header and the declared length. -/
theorem readFrame_consumed (codec : JsonCodec M) (reader : Source FrameError) :
    ∃ consumed, reader.contents = consumed ++ (readFrame codec reader).2.contents ∧
      consumed.length ≤ 4 + fromLeBytes (reader.contents.take 4) := by
  obtain ⟨taken, hcontents, hlength, hread⟩ := Source.readExact_front unexpectedEof 4 reader
  rcases hheader : Source.readExact unexpectedEof 4 reader with ⟨error | header, body⟩
  · rw [hheader] at hcontents
    refine ⟨taken, ?_, by omega⟩
    simpa only [readFrame, hheader] using hcontents
  · rw [hheader] at hcontents hread
    obtain ⟨rfl, hfour⟩ := hread header rfl
    have htake : reader.contents.take 4 = taken := by
      rw [hcontents, List.take_left' hfour]
    rw [htake]
    by_cases hsize : fromLeBytes taken = 0 ∨ maxFrameBytes < fromLeBytes taken
    · refine ⟨taken, ?_, by omega⟩
      simpa only [readFrame, hheader, if_pos hsize] using hcontents
    · obtain ⟨more, hbody, hmore, -⟩ :=
        Source.readExact_front unexpectedEof (fromLeBytes taken) body
      refine ⟨taken ++ more, ?_, ?_⟩
      · simp only [readFrame, hheader, if_neg hsize]
        rcases hpayload : Source.readExact unexpectedEof (fromLeBytes taken) body with
          ⟨error | payload, after⟩ <;>
        · rw [hpayload] at hbody
          rw [hcontents, hbody, List.append_assoc]
      · rw [List.length_append]
        omega

end frame

/-! ## The stream -/

/-- The payload of the message is between one byte and the maximum. -/
def Fits {M : Type} (codec : JsonCodec M) (message : M) : Prop :=
  ∃ payload, codec.serialize message = .ok payload ∧ Allowed payload.length

/-- Messages survive the stream, and nothing else is read. -/
structure SurvivesStream {M : Type} (codec : JsonCodec M) : Prop where
  /-- What is written is read again, and exactly that. -/
  roundTrip : ∀ messages : List M, (∀ message ∈ messages, Fits codec message) →
    ∃ written, writeFrames codec messages = .ok written ∧
      ∀ (reader : Source FrameError) (rest : List UInt8), reader.Reliable →
        reader.contents = written ++ rest →
          ∃ after, readFrames codec messages.length reader = (.ok messages, after) ∧
            after.contents = rest
  /-- A strict prefix of a frame is an error. -/
  prefixes : ∀ (payload : List UInt8) (reader : Source FrameError), Allowed payload.length →
    reader.Reliable → reader.contents <+: frame payload → reader.contents ≠ frame payload →
      ∃ error, (readFrame codec reader).1 = .error error
  /-- A length of zero or beyond the maximum is an error. -/
  sizes : ∀ (header rest : List UInt8) (reader : Source FrameError), header.length = 4 →
    reader.Reliable → reader.contents = header ++ rest →
      fromLeBytes header = 0 ∨ maxFrameBytes < fromLeBytes header →
        ∃ error, (readFrame codec reader).1 = .error error
  /-- Anything but white space behind the value of a payload is an error. -/
  trailing : ∀ (payload rest following : List UInt8) (value : M) (reader : Source FrameError),
    Allowed payload.length → codec.deserialize payload = .ok (value, rest) →
      (∃ byte ∈ rest, ¬isJsonWhitespace byte) → reader.Reliable →
        reader.contents = frame payload ++ following →
          ∃ error, (readFrame codec reader).1 = .error error
  /-- No read takes more than the header and the declared length. -/
  bounded : ∀ reader : Source FrameError, ∃ consumed,
    reader.contents = consumed ++ (readFrame codec reader).2.contents ∧
      consumed.length ≤ 4 + fromLeBytes (reader.contents.take 4)

section stream

variable {M : Type} {codec : JsonCodec M} {message : M} {messages : List M}

theorem writeFrame_of_fits {payload : List UInt8} (h : codec.serialize message = .ok payload)
    (hallowed : Allowed payload.length) :
    writeFrame codec default message = .ok (frame payload) := by
  rw [writeFrame_of_serialize h, if_neg fun hsize => not_allowed_iff.mpr hsize hallowed]

/-- A message that was written is read. -/
theorem decodePayload_of_serialize (hround : codec.RoundTrips) {payload : List UInt8}
    (h : codec.serialize message = .ok payload) : decodePayload codec payload = .ok message := by
  rw [decodePayload_trailing (hround message payload h)]
  rfl

/-- Reading a list of messages, by induction on the list: each frame leaves the source at the next
one. -/
theorem readFrames_writeFrames (hround : codec.RoundTrips)
    (hfits : ∀ message ∈ messages, Fits codec message) :
    ∃ written, writeFrames codec messages = .ok written ∧
      ∀ (reader : Source FrameError) (rest : List UInt8), reader.Reliable →
        reader.contents = written ++ rest →
          ∃ after, readFrames codec messages.length reader = (.ok messages, after) ∧
            after.contents = rest := by
  induction messages with
  | nil => exact ⟨[], rfl, fun reader rest _ h => ⟨reader, rfl, h⟩⟩
  | cons message messages ih =>
      obtain ⟨payload, hpayload, hallowed⟩ := hfits message List.mem_cons_self
      obtain ⟨written, hwritten, hread⟩ :=
        ih fun other hmem => hfits other (List.mem_cons_of_mem message hmem)
      refine ⟨frame payload ++ written, ?_, ?_⟩
      · rw [writeFrames, writeFrame_of_fits hpayload hallowed, hwritten]
        rfl
      · intro reader rest hreliable hcontents
        rw [List.append_assoc] at hcontents
        obtain ⟨next, hfirst, hnext, hnextReliable⟩ :=
          readFrame_frame codec hreliable hallowed hcontents
        obtain ⟨after, hrest, hafter⟩ := hread next rest hnextReliable hnext
        refine ⟨after, ?_, hafter⟩
        rw [List.length_cons, readFrames, hfirst, decodePayload_of_serialize hround hpayload]
        simp only [hrest]
        rfl

end stream

/-- **Framed messages survive the stream.** -/
theorem framed_stream {M : Type} (codec : JsonCodec M) (hround : codec.RoundTrips) :
    SurvivesStream codec where
  roundTrip _ hfits := readFrames_writeFrames hround hfits
  prefixes _ _ hallowed hreliable hfront hstrict :=
    ⟨_, readFrame_strictPrefix codec hreliable hallowed hfront hstrict⟩
  sizes header rest reader hheader hreliable hcontents hsize := by
    obtain ⟨after, hread, -⟩ :=
      readFrame_invalidSize codec hreliable hheader hcontents (not_allowed_iff.mpr hsize)
    exact ⟨_, congrArg Prod.fst hread⟩
  trailing payload rest following value reader hallowed hparsed htrailing hreliable hcontents := by
    obtain ⟨after, hread, -⟩ := readFrame_frame codec hreliable hallowed hcontents
    refine ⟨.json "trailing characters", (congrArg Prod.fst hread).trans ?_⟩
    obtain ⟨byte, hbyte, hother⟩ := htrailing
    rw [decodePayload_trailing hparsed, if_neg]
    exact fun hall => hother (List.all_eq_true.mp hall byte hbyte)
  bounded := readFrame_consumed codec

/-- The JSON texts of the two truth values. -/
def boolCodec : JsonCodec Bool where
  serialize value := .ok (if value then [116, 114, 117, 101] else [102, 97, 108, 115, 101])
  deserialize text :=
    match text.dropWhile isJsonWhitespace with
    | 116 :: 114 :: 117 :: 101 :: rest => .ok (true, rest)
    | 102 :: 97 :: 108 :: 115 :: 101 :: rest => .ok (false, rest)
    | _ => .error "expected value"

theorem framed_stream_bool : SurvivesStream boolCodec := by
  refine framed_stream boolCodec fun message payload hpayload => ?_
  rw [← Except.ok.inj hpayload]
  cases message <;> rfl

end OpenGuard.Ipc
