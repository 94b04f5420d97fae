import OpenGuard.Lib.Serde
import OpenGuard.Service.Response

/-!
# Requests

The request envelope and the requests, and how they are decoded from a JSON value. The envelope and
the records inside a payload deny unknown fields; the request itself, an adjacently tagged
enumeration, does not.

* `rejects_unknown_iff`: the levels at which an unknown field is rejected.
-/

namespace OpenGuard.Ipc

open OpenGuard.Lib OpenGuard.Domain OpenGuard.Service

/-- Source: `protocol.rs`, `Request` -/
inductive Request where
  | ping
  | getHealth
  | getSnapshot
  | recentEvents (limit : UInt32)
  | getTimeline (beforeId : Option ℤ) (limit : UInt32) (category : Option String)
      (processId : Option UInt32) (search : Option String)
  | getPersistence (refresh : Bool)
  | executeResponse (request : ResponseActionRequest)
  | startScan (target : String) (profile : Option ScanProfile)
  | cancelScan (scanId : String)
  | getScan (scanId : String)
  | quarantine (finding : ScanFinding)
  | listQuarantine (limit : UInt32)
  | restoreQuarantine (quarantineId : String) (destination : Option String)
  | getContentStatus
  | installContentUpdate
  | rollbackContentUpdate
  | listExclusions
  | addExclusion (path : String) (recursive : Bool)
  | removeExclusion (path : String)
  | listAllowedHashes
  | allowHash (sha256 label : String)
  | removeAllowedHash (sha256 : String)
  deriving DecidableEq, Inhabited

/-- Source: `protocol.rs`, `RequestEnvelope` -/
structure RequestEnvelope where
  protocol : UInt16
  requestId : String
  body : Request
  deriving DecidableEq, Inhabited

/-! ## Decoding -/

/-- Every name of a field that the protocol has. -/
def protocolNames : List String :=
  ["protocol", "request_id", "body", "operation", "payload", "limit", "before_id", "category",
    "process_id", "search", "refresh", "request", "target", "profile", "scan_id", "finding",
    "quarantine_id", "destination", "path", "recursive", "sha256", "label", "action",
    "expected_path", "remote_address", "duration_minutes", "persistence_id", "rollback_id",
    "confirmation", "verdict", "score", "reasons", "size_bytes", "signature", "amsi_result",
    "yara_status", "yara_matches", "capabilities", "scanned_at", "mitre_technique", "confidence",
    "evidence"]

/-- Source: `models.rs`, `ResponseActionKind` -/
def responseActionKind : StrictDecoder protocolNames ResponseActionKind :=
  .unitEnum [("terminate_process", .terminateProcess),
    ("terminate_process_tree", .terminateProcessTree), ("suspend_process", .suspendProcess),
    ("resume_process", .resumeProcess), ("quarantine_file", .quarantineFile),
    ("block_remote_address", .blockRemoteAddress),
    ("unblock_remote_address", .unblockRemoteAddress),
    ("disable_persistence", .disablePersistence), ("restore_persistence", .restorePersistence)]

/-- Source: `models.rs`, `ScanVerdict` -/
def scanVerdict : StrictDecoder protocolNames ScanVerdict :=
  .unitEnum [("clean", .clean), ("low_risk", .lowRisk), ("suspicious", .suspicious),
    ("malicious", .malicious), ("skipped", .skipped), ("error", .error),
    ("cancelled", .cancelled)]

/-- Source: `models.rs`, `SignatureStatus` -/
def signatureStatus : StrictDecoder protocolNames SignatureStatus :=
  .unitEnum [("trusted", .trusted), ("untrusted", .untrusted), ("unknown", .unknown),
    ("not_applicable", .notApplicable)]

/-- Source: `models.rs`, `ScanProfile` -/
def scanProfile : StrictDecoder protocolNames ScanProfile :=
  .unitEnum [("quick", .quick), ("full", .full), ("startup", .startup), ("downloads", .downloads)]

/-- Source: `models.rs`, `ResponseActionRequest` -/
def responseActionRequest : StrictDecoder protocolNames ResponseActionRequest :=
  .denyUnknown (ResponseActionRequest.mk <$> .required "action" responseActionKind
    <*> .optional "process_id" .u32
    <*> .required "expected_path" .string
    <*> .required "target" .string
    <*> .required "remote_address" .string
    <*> .optional "duration_minutes" .u32
    <*> .required "persistence_id" .string
    <*> .required "rollback_id" .string
    <*> .required "confirmation" .string) (by decide) (by decide)

/-- Source: `models.rs`, `ThreatCapability` -/
def threatCapability : StrictDecoder protocolNames ThreatCapability :=
  .denyUnknown (ThreatCapability.mk <$> .required "category" .string
    <*> .required "mitre_technique" .string
    <*> .required "confidence" .u8
    <*> .required "evidence" (.vec .string)) (by decide) (by decide)

/-- Source: `models.rs`, `ScanFinding` -/
def scanFinding : StrictDecoder protocolNames ScanFinding :=
  .denyUnknown (ScanFinding.mk <$> .required "path" .string
    <*> .required "verdict" scanVerdict
    <*> .required "score" .u8
    <*> .required "reasons" (.vec .string)
    <*> .required "sha256" .string
    <*> .required "size_bytes" .u64
    <*> .required "signature" signatureStatus
    <*> .required "amsi_result" .string
    <*> .required "yara_status" .string
    <*> .required "yara_matches" (.vec .string)
    <*> .defaulted "capabilities" (.vec threatCapability) []
    <*> .required "scanned_at" .string) (by decide) (by decide)

/-- Source: `protocol.rs`, `Request` -/
def requestVariants : List (String × Variant protocolNames Request) :=
  [("ping", .unit .ping),
    ("get_health", .unit .getHealth),
    ("get_snapshot", .unit .getSnapshot),
    ("recent_events", .struct (Request.recentEvents <$> .required "limit" .u32)),
    ("get_timeline", .struct (Request.getTimeline <$> .optional "before_id" .i64
      <*> .required "limit" .u32
      <*> .optional "category" .string
      <*> .optional "process_id" .u32
      <*> .optional "search" .string)),
    ("get_persistence", .struct (Request.getPersistence <$> .required "refresh" .bool)),
    ("execute_response",
      .struct (Request.executeResponse <$> .required "request" responseActionRequest)),
    ("start_scan", .struct (Request.startScan <$> .required "target" .string
      <*> .optional "profile" scanProfile)),
    ("cancel_scan", .struct (Request.cancelScan <$> .required "scan_id" .string)),
    ("get_scan", .struct (Request.getScan <$> .required "scan_id" .string)),
    ("quarantine", .struct (Request.quarantine <$> .required "finding" scanFinding)),
    ("list_quarantine", .struct (Request.listQuarantine <$> .required "limit" .u32)),
    ("restore_quarantine", .struct (Request.restoreQuarantine <$> .required "quarantine_id" .string
      <*> .optional "destination" .string)),
    ("get_content_status", .unit .getContentStatus),
    ("install_content_update", .unit .installContentUpdate),
    ("rollback_content_update", .unit .rollbackContentUpdate),
    ("list_exclusions", .unit .listExclusions),
    ("add_exclusion", .struct (Request.addExclusion <$> .required "path" .string
      <*> .required "recursive" .bool)),
    ("remove_exclusion", .struct (Request.removeExclusion <$> .required "path" .string)),
    ("list_allowed_hashes", .unit .listAllowedHashes),
    ("allow_hash", .struct (Request.allowHash <$> .required "sha256" .string
      <*> .required "label" .string)),
    ("remove_allowed_hash",
      .struct (Request.removeAllowedHash <$> .required "sha256" .string))]

/-- Source: `protocol.rs`, `Request` -/
def decodeRequest (j : Json) : Except DecodeError Request :=
  adjacent "operation" "payload" requestVariants j

/-- The fields of the envelope, in the order of the declaration. -/
def envelopeNames : List String := ["protocol", "request_id", "body"]

/-- Source: `protocol.rs`, `RequestEnvelope` -/
def decodeRequestEnvelope (j : Json) : Except DecodeError RequestEnvelope := do
  let found ← structEntries envelopeNames 3 true j
  return {
    protocol := ← readField found "protocol" (decodeUnsigned 16 UInt16.ofNat)
    requestId := ← readField found "request_id" decodeString
    body := ← readField found "body" decodeRequest }

/-! ## The levels -/

/-- The names of the fields of the payload. -/
def Request.payloadNames : Request → List String
  | recentEvents _ => ["limit"]
  | getTimeline .. => ["before_id", "limit", "category", "process_id", "search"]
  | getPersistence _ => ["refresh"]
  | executeResponse _ => ["request"]
  | startScan .. => ["target", "profile"]
  | cancelScan _ => ["scan_id"]
  | getScan _ => ["scan_id"]
  | quarantine _ => ["finding"]
  | listQuarantine _ => ["limit"]
  | restoreQuarantine .. => ["quarantine_id", "destination"]
  | addExclusion .. => ["path", "recursive"]
  | removeExclusion _ => ["path"]
  | allowHash .. => ["sha256", "label"]
  | removeAllowedHash _ => ["sha256"]
  | _ => []

/-- The levels at which an unknown field is ignored: the request itself, its payload, and what lies
in a field that one of these two does not have. -/
def IgnoredAt (request : Request) : List Json.Step → Prop
  | [] => False
  | step :: rest =>
      fieldOf envelopeNames step = some "body" ∧
        Ignored "operation" "payload" request.payloadNames rest

section levels

variable {name : String} {value j j' : Json} {path : List Json.Step}

/-- Every variant knows the names of the protocol only, and its fields are those of its payload. -/
theorem requestVariants_names : ∀ entry ∈ requestVariants, entry.2.names ⊆ protocolNames ∧
    entry.2.Yields fun request => request.payloadNames = entry.2.names := by
  intro entry hentry
  refine ⟨?_, ?_⟩
  · revert entry
    decide
  · simp only [requestVariants, List.mem_cons, List.not_mem_nil, or_false] at hentry
    rcases hentry with rfl | rfl | rfl | rfl | rfl | rfl | rfl | rfl | rfl | rfl | rfl | rfl |
      rfl | rfl | rfl | rfl | rfl | rfl | rfl | rfl | rfl | rfl
    all_goals first
      | rfl
      | exact Fields.yields_map fun _ => rfl
      | exact Fields.yields_seq (Fields.yields_map fun _ _ => rfl)
      | exact Fields.yields_seq (Fields.yields_seq (Fields.yields_seq (Fields.yields_seq
          (Fields.yields_map fun _ _ _ _ _ => rfl))))

theorem decodeRequest_addsField {request : Request} (hname : name ∉ protocolNames)
    (hadds : Json.AddsField name value path j j') (hdecoded : decodeRequest j = .ok request) :
    (Ignored "operation" "payload" request.payloadNames path → decodeRequest j' = .ok request) ∧
      (¬Ignored "operation" "payload" request.payloadNames path → ¬(decodeRequest j').isOk) :=
  adjacent_addsField (by decide) (by decide) (by decide) requestVariants_names hname hadds hdecoded

/-- An envelope is read from three fields. -/
theorem decodeRequestEnvelope_eq_ok_iff {envelope : RequestEnvelope} :
    decodeRequestEnvelope j = .ok envelope ↔
      ∃ found, structEntries envelopeNames 3 true j = .ok found ∧
        readField found "protocol" (decodeUnsigned 16 UInt16.ofNat) = .ok envelope.protocol ∧
        readField found "request_id" decodeString = .ok envelope.requestId ∧
        readField found "body" decodeRequest = .ok envelope.body := by
  unfold decodeRequestEnvelope
  rcases structEntries envelopeNames 3 true j with error | found
  · simp [bind, Except.bind]
  · rcases hprotocol : readField found "protocol" (decodeUnsigned 16 UInt16.ofNat) with
      error | protocol
    · simp [hprotocol, bind, Except.bind]
    · rcases hid : readField found "request_id" decodeString with error | requestId
      · simp [hprotocol, hid, bind, Except.bind]
      · rcases hbody : readField found "body" decodeRequest with error | body
        · simp [hprotocol, hid, hbody, bind, Except.bind]
        · rcases envelope with ⟨protocol', requestId', body'⟩
          simp [hprotocol, hid, hbody, bind, Except.bind, pure, Except.pure]

/-- Where the field is ignored the same request is decoded; elsewhere there is an error. -/
theorem decodeRequestEnvelope_addsField {envelope : RequestEnvelope} (hname : name ∉ protocolNames)
    (hadds : Json.AddsField name value path j j')
    (hdecoded : decodeRequestEnvelope j = .ok envelope) :
    (IgnoredAt envelope.body path → decodeRequestEnvelope j' = .ok envelope) ∧
      (¬IgnoredAt envelope.body path → ¬(decodeRequestEnvelope j').isOk) := by
  obtain ⟨found, hfound, hprotocol, hid, hbody⟩ := decodeRequestEnvelope_eq_ok_iff.mp hdecoded
  have hunknown : name ∉ envelopeNames := fun hmem =>
    hname ((show envelopeNames ⊆ protocolNames by decide) hmem)
  obtain ⟨rfl, hdenied⟩ | ⟨step, rest, key, inner, inner', found', rfl, hstep, hkey, hlookup, hfound',
    hlookup', hothers, hinner⟩ := structEntries_addsField (by decide) hunknown hadds hfound
  · refine ⟨False.elim, fun _ hok => ?_⟩
    obtain ⟨other, hother⟩ := isOk_iff.mp hok
    obtain ⟨found', hfound', -⟩ := decodeRequestEnvelope_eq_ok_iff.mp hother
    exact hdenied (hfound' ▸ rfl)
  · -- a result on the changed value reads the three fields of the changed entries
    have hfields : ∀ other, decodeRequestEnvelope j' = .ok other →
        readField found' "protocol" (decodeUnsigned 16 UInt16.ofNat) = .ok other.protocol ∧
        readField found' "request_id" decodeString = .ok other.requestId ∧
        readField found' "body" decodeRequest = .ok other.body := by
      intro other hother
      obtain ⟨entries, hentries, hread⟩ := decodeRequestEnvelope_eq_ok_iff.mp hother
      rwa [Except.ok.inj (hfound'.symm.trans hentries)]
    have hstrict : key ≠ "body" → ¬IgnoredAt envelope.body (step :: rest) := fun hne h =>
      hne (Option.some.inj (hstep.symm.trans h.1))
    simp only [envelopeNames, List.mem_cons, List.not_mem_nil, or_false] at hkey
    rcases hkey with rfl | rfl | rfl
    · refine ⟨fun h => absurd h (hstrict (by decide)), fun _ hok => ?_⟩
      obtain ⟨other, hother⟩ := isOk_iff.mp hok
      rw [readField_of_lookup hlookup] at hprotocol
      have hread := (hfields other hother).1
      rw [readField_of_lookup hlookup'] at hread
      exact strict_decodeUnsigned 16 UInt16.ofNat hname hinner (hprotocol ▸ rfl) (hread ▸ rfl)
    · refine ⟨fun h => absurd h (hstrict (by decide)), fun _ hok => ?_⟩
      obtain ⟨other, hother⟩ := isOk_iff.mp hok
      rw [readField_of_lookup hlookup] at hid
      have hread := (hfields other hother).2.1
      rw [readField_of_lookup hlookup'] at hread
      exact strict_decodeString hname hinner (hid ▸ rfl) (hread ▸ rfl)
    · have hiff : IgnoredAt envelope.body (step :: rest) ↔
          Ignored "operation" "payload" envelope.body.payloadNames rest := and_iff_right hstep
      rw [readField_of_lookup hlookup] at hbody
      obtain ⟨hsame, hrejects⟩ := decodeRequest_addsField hname hinner hbody
      rw [hiff]
      refine ⟨fun h => decodeRequestEnvelope_eq_ok_iff.mpr ⟨found', hfound', ?_, ?_, ?_⟩,
        fun h hok => ?_⟩
      · rw [readField_congr (hothers "protocol" (by decide)), hprotocol]
      · rw [readField_congr (hothers "request_id" (by decide)), hid]
      · rw [readField_of_lookup hlookup', hsame h]
      · obtain ⟨other, hother⟩ := isOk_iff.mp hok
        have hread := (hfields other hother).2.2
        rw [readField_of_lookup hlookup'] at hread
        exact hrejects h (hread ▸ rfl)

end levels

/-- **An unknown field is rejected exactly at the levels that deny it.** -/
theorem rejects_unknown_iff (j j' value : Json) (name : String) (path : List Json.Step)
    (envelope : RequestEnvelope) (hdecoded : decodeRequestEnvelope j = .ok envelope)
    (hname : name ∉ protocolNames) (hadds : Json.AddsField name value path j j') :
    (∃ error, decodeRequestEnvelope j' = .error error) ↔ ¬IgnoredAt envelope.body path := by
  obtain ⟨hsame, hrejects⟩ := decodeRequestEnvelope_addsField hname hadds hdecoded
  constructor
  · rintro ⟨error, herror⟩ hignored
    rw [hsame hignored] at herror
    cases herror
  · exact fun h => not_isOk_iff.mp (hrejects h)

/-- A request for the timeline, with more entries in the envelope, the body and the payload. -/
def timelineRequest (envelope body payload : List (String × Json)) : Json :=
  .object (("protocol", .int 1) :: ("request_id", .string "one") ::
    ("body", .object (("operation", .string "get_timeline") ::
      ("payload", .object (("limit", .int 100) :: payload)) :: body)) :: envelope)

theorem rejects_unknown_iff_envelope :
    (∃ error,
      decodeRequestEnvelope (timelineRequest [("extra", .bool true)] [] []) = .error error) ↔
      ¬IgnoredAt (.getTimeline none 100 none none none) [] := by
  refine rejects_unknown_iff (timelineRequest [] [] []) _ (.bool true) "extra" []
    ⟨1, "one", .getTimeline none 100 none none none⟩ rfl (by decide) ?_
  exact .here [("protocol", _), ("request_id", _), ("body", _)] []

/-- A field in the body and a misspelt filter in the payload are ignored. -/
theorem unknown_fields_ignored :
    "extra" ∉ protocolNames ∧ "categories" ∉ protocolNames ∧
    decodeRequestEnvelope (timelineRequest [] [] []) =
      .ok ⟨1, "one", .getTimeline none 100 none none none⟩ ∧
    (Json.AddsField "extra" (.bool true) [.field "body"] (timelineRequest [] [] [])
        (timelineRequest [] [("extra", .bool true)] []) ∧
      decodeRequestEnvelope (timelineRequest [] [("extra", .bool true)] []) =
        .ok ⟨1, "one", .getTimeline none 100 none none none⟩) ∧
    Json.AddsField "categories" (.string "network") [.field "body", .field "payload"]
        (timelineRequest [] [] []) (timelineRequest [] [] [("categories", .string "network")]) ∧
      decodeRequestEnvelope (timelineRequest [] [] [("categories", .string "network")]) =
        .ok ⟨1, "one", .getTimeline none 100 none none none⟩ := by
  refine ⟨by decide, by decide, rfl, ⟨?_, rfl⟩, ?_, rfl⟩
  · exact .field [("protocol", _), ("request_id", _)] [] "body"
      (.here [("operation", _), ("payload", _)] [])
  · exact .field [("protocol", _), ("request_id", _)] [] "body"
      (.field [("operation", _)] [] "payload" (.here [("limit", _)] []))

end OpenGuard.Ipc
