import OpenGuard.Ipc.History

/-!
# One request and its answer

A client writes one request and reads one response; the server reads one request, finds out who
sent it, and writes one response. The responses carry the data of some type, and what the server does
with a request that is well formed is a parameter.

* `accepted_agrees`: what a client accepts is the answer to its own request, carried out once in the
  name of the client that the server found; whatever is lost, cut or delayed on the pipe.
* `exchange_completes`: when nothing is lost, the client gets that answer.
* `respond_history`: the answers to history requests are those of a server.
-/

namespace OpenGuard.Ipc

open OpenGuard.Lib OpenGuard.Domain OpenGuard.Service OpenGuard.Storage

/-! ## Envelopes -/

/-- A response with data of some type.
Source: `protocol.rs`, `Response` -/
inductive ResponseOf (D : Type) where
  | success (data : D)
  | error (error : ApiError)
  deriving DecidableEq

/-- Source: `protocol.rs`, `ResponseEnvelope` -/
structure EnvelopeOf (D : Type) where
  protocol : UInt16
  requestId : String
  body : ResponseOf D
  deriving DecidableEq

/-- Source: `protocol.rs`, `RequestEnvelope::new` -/
def RequestEnvelope.new (requestId : String) (body : Request) : RequestEnvelope :=
  ⟨protocolVersion, requestId, body⟩

/-- Source: `protocol.rs`, `ResponseEnvelope::success` -/
def EnvelopeOf.success {D : Type} (requestId : String) (data : D) : EnvelopeOf D :=
  ⟨protocolVersion, requestId, .success data⟩

/-- Source: `protocol.rs`, `ResponseEnvelope::error` -/
def EnvelopeOf.error {D : Type} (requestId : String) (error : ApiError) : EnvelopeOf D :=
  ⟨protocolVersion, requestId, .error error⟩

/-- Source: `ipc/lib.rs`, `validate_response` -/
def validateResponse {D : Type} (response : EnvelopeOf D) : Except FrameError Unit :=
  if response.protocol ≠ protocolVersion then
    .error (.unsupportedProtocol response.protocol protocolVersion)
  else if !validRequestId response.requestId then .error .invalidRequestId
  else .ok ()

/-! ## The server -/

/-- How the messages are written, and what the service does with a request of a client. -/
structure Server (σ κ D : Type) where
  requests : JsonCodec RequestEnvelope
  responses : JsonCodec (EnvelopeOf D)
  handle : κ → Request → σ → Except ApiError D × σ

/-- What the server finds in a connection: what it can read, and who the client is. -/
structure Connection (κ : Type) where
  incoming : Source FrameError
  client : Except String κ

/-- Why a connection comes to no answer.
Source: `main.rs`, `serve_connection` -/
inductive ServeError where
  | request (error : FrameError)
  | client (message : String)

namespace Server

variable {σ κ D : Type} (server : Server σ κ D)

/-- Source: `main.rs`, `handle_request` -/
def handleRequest (client : κ) (request : RequestEnvelope) (state : σ) : EnvelopeOf D × σ :=
  match server.handle client request.body state with
  | (.ok data, state) => (.success request.requestId data, state)
  | (.error error, state) => (.error request.requestId error, state)

/-- The response to a client, before it is written.
Source: `main.rs`, `serve_connection` -/
def respond (connection : Connection κ) (state : σ) :
    Except ServeError (EnvelopeOf D) × σ :=
  match (readFrame server.requests connection.incoming).1 with
  | .error error => (.error (.request error), state)
  | .ok request =>
      match connection.client with
      | .error message => (.error (.client message), state)
      | .ok client =>
          match validateRequest request with
          | .ok () =>
              let (response, state) := server.handleRequest client request state
              (.ok response, state)
          | .error error =>
              (.ok (.error request.requestId ⟨.invalidRequest, error.display, false⟩), state)

/-- The bytes that the server hands to the pipe, if nothing fails while it does so.
Source: `main.rs`, `serve_connection` -/
def answer (connection : Connection κ) (state : σ) : List UInt8 :=
  match (server.respond connection state).1 with
  | .error _ => []
  | .ok response =>
      match writeFrame server.responses default response with
      | .ok bytes => bytes
      | .error _ => []

end Server

/-! ## The client -/

/-- Why a client accepts no response, and the error that the service answers with.
Source: `cli/main.rs`, `send` -/
inductive SendError where
  | read (error : FrameError)
  | validate (error : FrameError)
  | identifierMismatch
  | service (code : ErrorCode) (message : String)

/-- What a client that has written its request makes of what it can read.
Source: `cli/main.rs`, `send` -/
def receive {D : Type} (responses : JsonCodec (EnvelopeOf D)) (requestId : String)
    (incoming : Source FrameError) : Except SendError (ResponseOf D) :=
  match (readFrame responses incoming).1 with
  | .error error => .error (.read error)
  | .ok response =>
      match validateResponse response with
      | .error error => .error (.validate error)
      | .ok () =>
          if response.requestId ≠ requestId then .error .identifierMismatch
          else
            match response.body with
            | .error error => .error (.service error.code error.message)
            | .success data => .ok (.success data)

/-! ## Frames that are read -/

section frames

variable {M : Type} {codec : JsonCodec M} {message value : M} {payload bytes : List UInt8}
  {reader : Source FrameError}

/-- What was written is the frame of the text. -/
theorem writeFrame_eq_ok {faults : WriteFaults} (h : writeFrame codec faults message = .ok bytes) :
    ∃ payload, codec.serialize message = .ok payload ∧ Allowed payload.length ∧
      bytes = frame payload := by
  unfold writeFrame at h
  cases hserialize : codec.serialize message with
  | error error =>
      rw [hserialize] at h
      cases h
  | ok payload =>
      simp only [hserialize, Except.mapError, bind, Except.bind] at h
      split_ifs at h with hsize
      · obtain ⟨header, payloadFault, flush⟩ := faults
        cases header <;> cases payloadFault <;> cases flush <;> simp [step] at h
        refine ⟨payload, rfl, ?_, (Except.ok.inj h).symm⟩
        by_contra hnot
        refine hsize ((not_allowed_iff.mp hnot).imp_left ?_)
        exact List.length_eq_zero_iff.mp

/-- A reader that has at most one frame before it reads that frame or nothing. -/
theorem readFrame_of_front (hallowed : Allowed payload.length)
    (hfront : reader.contents <+: frame payload) (h : (readFrame codec reader).1 = .ok value) :
    decodePayload codec payload = .ok value := by
  obtain ⟨header, hheader, -, hread⟩ := Source.readExact_front unexpectedEof 4 reader
  rcases hfour : Source.readExact unexpectedEof 4 reader with ⟨error | read, body⟩
  · simp only [readFrame, hfour] at h
    cases h
  rw [hfour] at hheader hread
  obtain ⟨rfl, hlength⟩ := hread read rfl
  have htake : header = toLeBytes payload.length := by
    have hprefix : header <+: frame payload := (List.prefix_append _ _).trans (hheader ▸ hfront)
    rw [List.prefix_iff_eq_take.mp hprefix, hlength, frame, List.take_left' (length_toLeBytes _)]
  have hsize : ¬(payload.length = 0 ∨ maxFrameBytes < payload.length) :=
    fun h => not_allowed_iff.mpr h hallowed
  simp only [readFrame, hfour, htake, fromLeBytes_toLeBytes hallowed.lt, if_neg hsize] at h
  obtain ⟨taken, hbody, -, hrest⟩ := Source.readExact_front unexpectedEof payload.length body
  rcases hpayload : Source.readExact unexpectedEof payload.length body with ⟨error | text, after⟩
  · rw [hpayload] at h
    cases h
  rw [hpayload] at h hrest hbody
  obtain ⟨rfl, htext⟩ := hrest text rfl
  rw [hheader, hbody, htake, frame] at hfront
  have hprefix : taken <+: payload :=
    (List.prefix_append _ _).trans ((List.prefix_append_right_inj _).mp hfront)
  rw [← hprefix.eq_of_length htext]
  exact h

theorem contents_ne_nil_of_readFrame (h : (readFrame codec reader).1 = .ok value) :
    reader.contents ≠ [] := by
  obtain ⟨header, hheader, -, hread⟩ := Source.readExact_front unexpectedEof 4 reader
  rcases hfour : Source.readExact unexpectedEof 4 reader with ⟨error | read, body⟩
  · simp only [readFrame, hfour] at h
    cases h
  · rw [hfour] at hheader hread
    obtain ⟨rfl, hlength⟩ := hread read rfl
    rw [hheader]
    exact List.append_ne_nil_of_left_ne_nil (List.ne_nil_of_length_pos (by omega)) _

end frames

/-! ## The exchange -/

section exchange

variable {σ κ D : Type} {server : Server σ κ D} {requestId : String} {body : Request}
  {connection : Connection κ} {state : σ} {incoming : Source FrameError} {sent : List UInt8}

theorem validateRequest_new (hid : validRequestId requestId) :
    validateRequest (.new requestId body) = .ok () := by
  simp [validateRequest, RequestEnvelope.new, hid]

theorem validateResponse_of_valid {response : ResponseOf D} (hid : validRequestId requestId) :
    validateResponse ⟨protocolVersion, requestId, response⟩ = .ok () := by
  simp [validateResponse, hid]

/-- What a client concludes from the answer to its request.
Source: `cli/main.rs`, `send` -/
def conclusion : Except ApiError D → Except SendError (ResponseOf D)
  | .ok data => .ok (.success data)
  | .error error => .error (.service error.code error.message)

/-- A client that reads the response concludes what it says. -/
theorem receive_handleRequest {client : κ} {source : Source FrameError}
    (hid : validRequestId requestId)
    (hread : (readFrame server.responses source).1 =
      .ok (server.handleRequest client (.new requestId body) state).1) :
    receive server.responses requestId source = conclusion (server.handle client body state).1 := by
  rcases hhandle : server.handle client body state with ⟨error | data, after⟩
  all_goals
    simp only [Server.handleRequest, RequestEnvelope.new, hhandle] at hread
    simp [receive, hread, EnvelopeOf.error, EnvelopeOf.success, validateResponse_of_valid hid,
      conclusion]

/-- The server that has read the request of a client it knows answers it. -/
theorem respond_of_read {client : κ} (hid : validRequestId requestId)
    (hread : (readFrame server.requests connection.incoming).1 = .ok (.new requestId body))
    (hclient : connection.client = .ok client) :
    server.respond connection state =
      (.ok (server.handleRequest client (.new requestId body) state).1,
        (server.handleRequest client (.new requestId body) state).2) := by
  simp only [Server.respond, hread, hclient, validateRequest_new hid]

/-- What a client concludes is what the service did: nothing but its own request, in the name of the
client that the server found. -/
structure Agrees (server : Server σ κ D) (body : Request) (connection : Connection κ) (state : σ)
    (result : Except SendError (ResponseOf D)) : Prop where
  accepted : ∀ response, result = .ok response → ∃ client data, connection.client = .ok client ∧
    server.handle client body state = (.ok data, (server.respond connection state).2) ∧
      response = .success data
  refused : ∀ code message, result = .error (.service code message) →
    ∃ client error, connection.client = .ok client ∧
      server.handle client body state = (.error error, (server.respond connection state).2) ∧
        error.code = code ∧ error.message = message
  /-- Otherwise the response cannot be read. -/
  unread : ∀ error, result = .error error →
    (∃ code message, error = .service code message) ∨ ∃ cause, error = .read cause

/-- The conclusion of a client that was answered. -/
theorem agrees_conclusion {client : κ} (hclient : connection.client = .ok client)
    (hstate : (server.respond connection state).2 = (server.handle client body state).2) :
    Agrees server body connection state (conclusion (server.handle client body state).1) := by
  rcases hhandle : server.handle client body state with ⟨error | data, after⟩
  · rw [hhandle] at hstate
    refine ⟨nofun, ?_, ?_⟩
    · rintro code message h
      cases h
      exact ⟨client, error, hclient, by rw [hhandle, hstate], rfl, rfl⟩
    · rintro other h
      cases h
      exact .inl ⟨_, _, rfl⟩
  · rw [hhandle] at hstate
    refine ⟨?_, nofun, nofun⟩
    rintro response h
    cases h
    exact ⟨client, data, hclient, by rw [hhandle, hstate], rfl⟩

theorem handleRequest_state (client : κ) (request : RequestEnvelope) :
    (server.handleRequest client request state).2 = (server.handle client request.body state).2 := by
  unfold Server.handleRequest
  rcases server.handle client request.body state with ⟨error | data, after⟩ <;> rfl

/-- **A client accepts only the answer to its own request.** The server reads what the client wrote
or the front of it, and the client what the server handed to the pipe or the front of it. -/
theorem accepted_agrees {faults : WriteFaults} (hrequests : server.requests.RoundTrips)
    (hresponses : server.responses.RoundTrips) (hid : validRequestId requestId)
    (hsent : writeFrame server.requests faults (.new requestId body) = .ok sent)
    (hconnection : connection.incoming.contents <+: sent)
    (hincoming : incoming.contents <+: server.answer connection state) :
    Agrees server body connection state (receive server.responses requestId incoming) := by
  rcases hread : (readFrame server.responses incoming).1 with error | response
  · have hreceive : receive server.responses requestId incoming = .error (.read error) := by
      simp only [receive, hread]
    rw [hreceive]
    refine ⟨nofun, nofun, ?_⟩
    rintro other h
    cases h
    exact .inr ⟨error, rfl⟩
  have hanswered : server.answer connection state ≠ [] := fun h =>
    contents_ne_nil_of_readFrame hread (List.prefix_nil.mp (h ▸ hincoming))
  -- what the server read is the request of the client
  obtain ⟨text, htext, htextAllowed, rfl⟩ := writeFrame_eq_ok hsent
  rcases hrequest : (readFrame server.requests connection.incoming).1 with error | request
  · simp [Server.answer, Server.respond, hrequest] at hanswered
  have hown := readFrame_of_front htextAllowed hconnection hrequest
  rw [decodePayload_of_serialize hrequests htext] at hown
  obtain rfl := Except.ok.inj hown
  rcases hclient : connection.client with message | client
  · simp [Server.answer, Server.respond, hrequest, hclient] at hanswered
  have hrespond : server.respond connection state = _ := respond_of_read hid hrequest hclient
  -- what the client read is the response of the server
  rcases hwrite : writeFrame server.responses default
    (server.handleRequest client (.new requestId body) state).1 with error | bytes
  · simp [Server.answer, hrespond, hwrite] at hanswered
  obtain ⟨payload, hpayload, hallowed, rfl⟩ := writeFrame_eq_ok hwrite
  simp only [Server.answer, hrespond, hwrite] at hincoming
  have hresponse := readFrame_of_front hallowed hincoming hread
  rw [decodePayload_of_serialize hresponses hpayload] at hresponse
  obtain rfl := Except.ok.inj hresponse
  rw [receive_handleRequest hid hread]
  refine agrees_conclusion hclient ?_
  rw [hrespond, handleRequest_state]
  rfl

/-- The server answers a request that arrives whole. -/
theorem respond_of_sent {client : κ} {more : List UInt8}
    (hrequests : server.requests.RoundTrips) (hid : validRequestId requestId)
    (hsent : writeFrame server.requests default (.new requestId body) = .ok sent)
    (hreliable : connection.incoming.Reliable)
    (hconnection : connection.incoming.contents = sent ++ more)
    (hclient : connection.client = .ok client) :
    server.respond connection state =
      (.ok (server.handleRequest client (.new requestId body) state).1,
        (server.handleRequest client (.new requestId body) state).2) := by
  obtain ⟨text, htext, htextAllowed, rfl⟩ := writeFrame_eq_ok hsent
  obtain ⟨rest, hrequest, -, -⟩ :=
    readFrame_frame server.requests hreliable htextAllowed hconnection
  rw [decodePayload_of_serialize hrequests htext] at hrequest
  exact respond_of_read hid (congrArg Prod.fst hrequest) hclient

/-- **A client whose exchange is not disturbed gets the answer**, also when more follows on the
pipe. -/
theorem exchange_completes {client : κ} {more after : List UInt8}
    (hrequests : server.requests.RoundTrips) (hresponses : server.responses.RoundTrips)
    (hid : validRequestId requestId)
    (hsent : writeFrame server.requests default (.new requestId body) = .ok sent)
    (hreliable : connection.incoming.Reliable)
    (hconnection : connection.incoming.contents = sent ++ more)
    (hclient : connection.client = .ok client)
    (hfits : Fits server.responses (server.handleRequest client (.new requestId body) state).1)
    (hback : incoming.Reliable)
    (hincoming : incoming.contents = server.answer connection state ++ after) :
    receive server.responses requestId incoming = conclusion (server.handle client body state).1 ∧
      (server.respond connection state).2 = (server.handle client body state).2 := by
  have hrespond : server.respond connection state = _ :=
    respond_of_sent hrequests hid hsent hreliable hconnection hclient
  obtain ⟨payload, hpayload, hallowed⟩ := hfits
  simp only [Server.answer, hrespond, writeFrame_of_fits hpayload hallowed] at hincoming
  obtain ⟨rest, hresponse, -, -⟩ :=
    readFrame_frame server.responses hback hallowed hincoming
  rw [decodePayload_of_serialize hresponses hpayload] at hresponse
  refine ⟨receive_handleRequest hid (congrArg Prod.fst hresponse), ?_⟩
  rw [hrespond, handleRequest_state]
  rfl

/-- The response of the history, as one of a server. -/
def ResponseEnvelope.general (envelope : ResponseEnvelope) : EnvelopeOf ResponseData where
  protocol := envelope.protocol
  requestId := envelope.requestId
  body :=
    match envelope.body with
    | .success data => .success data
    | .error error => .error error

/-- A server that answers the history requests from the history gives the answers of the history. -/
theorem respond_history {server : Server σ κ ResponseData} {client : κ} {request : RequestEnvelope}
    {fault : Fault} {ownerSid : String} {db : Database} {envelope : ResponseEnvelope}
    (hread : (readFrame server.requests connection.incoming).1 = .ok request)
    (hclient : connection.client = .ok client)
    (hhandle : handleHistory fault ownerSid db request.body =
      some (server.handle client request.body state).1)
    (hserve : serveHistory fault ownerSid db request = some envelope) :
    (server.respond connection state).1 = .ok envelope.general := by
  simp only [serveHistory] at hserve
  simp only [Server.respond, hread, hclient]
  cases hvalid : validateRequest request with
  | error error =>
      simp only [hvalid] at hserve ⊢
      obtain rfl := Option.some.inj hserve
      rfl
  | ok =>
      simp only [hvalid, hhandle, Option.map_some] at hserve ⊢
      obtain rfl := Option.some.inj hserve
      unfold Server.handleRequest
      rcases server.handle client request.body state with ⟨error | data, after⟩ <;> rfl

end exchange

/-! ## The request that wakes the server -/

/-- The bytes of a text in ASCII. -/
def asciiBytes (text : String) : List UInt8 := text.toList.map fun c => .ofNat c.toNat

/-- The JSON library, as far as one message is concerned. -/
def messageCodec {M : Type} [DecidableEq M] (message : M) (text : List UInt8) : JsonCodec M where
  serialize other := if other = message then .ok text else .error "expected the message"
  deserialize other := if other = text then .ok (message, []) else .error "expected the text"

theorem messageCodec_roundTrips {M : Type} [DecidableEq M] (message : M) (text : List UInt8) :
    (messageCodec message text).RoundTrips := by
  intro other payload h
  simp only [messageCodec] at h
  split_ifs at h with hsame
  obtain rfl := Except.ok.inj h
  simp [messageCodec, hsame]

def pingText : List UInt8 :=
  asciiBytes "\x7b\"protocol\":1,\"request_id\":\"service-stop\",\"body\":\x7b\"operation\":\"ping\"\x7d\x7d"

def pongText : List UInt8 :=
  asciiBytes ("\x7b\"protocol\":1,\"request_id\":\"service-stop\",\"body\":\x7b\"status\":\"success\"," ++
    "\"data\":\x7b\"type\":\"pong\",\"value\":\x7b\"service_version\":\"0.7.0\"\x7d\x7d\x7d\x7d")

/-- A service that knows its version. -/
def pingServer : Server Unit String String where
  requests := messageCodec (.new "service-stop" .ping) pingText
  responses := messageCodec (.success "service-stop" "0.7.0") pongText
  handle _ _ _ := (.ok "0.7.0", ())

def pingConnection : Connection String := ⟨[.chunk (frame pingText)], .ok "S-1-5-18"⟩

theorem pingText_allowed : Allowed pingText.length := by
  rw [pingText, asciiBytes, List.length_map]
  unfold Allowed
  decide

theorem pongText_allowed : Allowed pongText.length := by
  rw [pongText, asciiBytes, List.length_map, String.toList_append, List.length_append]
  unfold Allowed
  decide

theorem writeFrame_ping : writeFrame pingServer.requests default (.new "service-stop" .ping) =
    .ok (frame pingText) :=
  writeFrame_of_fits (by simp [pingServer, messageCodec]) pingText_allowed

theorem pingConnection_reliable : pingConnection.incoming.Reliable :=
  ⟨by simp [frame, toLeBytes], trivial⟩

theorem answer_ping : pingServer.answer pingConnection () = frame pongText := by
  have hpong : pingServer.responses.serialize (.success "service-stop" "0.7.0") = .ok pongText := by
    simp [pingServer, messageCodec]
  have hrespond : pingServer.respond pingConnection () =
      (.ok (.success "service-stop" "0.7.0"), ()) :=
    respond_of_sent (messageCodec_roundTrips _ _) (by decide) writeFrame_ping
      pingConnection_reliable (List.append_nil _).symm rfl
  simp only [Server.answer, hrespond, writeFrame_of_fits hpong pongText_allowed]

/-- `accepted_agrees` for a response that arrives in two pieces. -/
theorem accepted_agrees_ping :
    Agrees pingServer .ping pingConnection ()
      (receive pingServer.responses "service-stop"
        [.chunk (toLeBytes pongText.length), .chunk pongText]) :=
  accepted_agrees (messageCodec_roundTrips _ _) (messageCodec_roundTrips _ _) (by decide)
    writeFrame_ping (by simp [pingConnection, Source.contents])
    (by rw [answer_ping]; simp [Source.contents, frame])

/-- `exchange_completes` for the request that wakes the server. -/
theorem exchange_completes_ping :
    receive pingServer.responses "service-stop" [.chunk (frame pongText)] =
        .ok (.success "0.7.0") ∧ (pingServer.respond pingConnection ()).2 = () :=
  exchange_completes (messageCodec_roundTrips _ _) (messageCodec_roundTrips _ _) (by decide)
    writeFrame_ping pingConnection_reliable (List.append_nil _).symm rfl
    ⟨pongText, by simp [pingServer, messageCodec, Server.handleRequest, RequestEnvelope.new],
      pongText_allowed⟩
    ⟨by simp [frame, toLeBytes], trivial⟩ (congrArg (· ++ []) answer_ping.symm)

end OpenGuard.Ipc
