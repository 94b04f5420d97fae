import OpenGuard.Lib.Fallible
import OpenGuard.Lib.FileTree
import OpenGuard.Lib.IpAddr
import OpenGuard.Lib.JsonValue
import OpenGuard.Lib.Serde
import OpenGuard.Windows.Error

/-!
# Reputation feeds

A feed is a JSON document of network indicators with a verdict. Unknown fields are ignored, and so
are entries with a verdict that is neither suspicious nor malicious; everything else has to be well
formed.

* `fromJson`: the parser.
* `exists_fromJson_iff`: which documents it takes, of those whose schema and list of entries were
  checked in the way of the updater.
-/

namespace OpenGuard.Windows

open OpenGuard.Lib

/-- Source: `windows/lib.rs`, `ReputationIndicator` -/
structure ReputationIndicator where
  network : IpAddr
  prefixLength : UInt8
  verdict : String
  label : String
  deriving DecidableEq

/-- Source: `windows/lib.rs`, `ReputationFeed` -/
structure ReputationFeed where
  version : String
  indicators : List ReputationIndicator
  deriving DecidableEq

/-- Source: `windows/lib.rs`, `ReputationEntry` -/
structure ReputationEntry where
  indicator : String
  verdict : String
  label : String
  deriving DecidableEq, Inhabited

/-- Source: `windows/lib.rs`, `ReputationDocument` -/
structure ReputationDocument where
  schema : UInt32
  version : String
  entries : List ReputationEntry
  deriving DecidableEq, Inhabited

/-- Source: `windows/lib.rs`, `default_reputation_verdict` -/
def defaultReputationVerdict : String := "suspicious"

/-- The fields of an entry, in the order of the declaration. -/
def entryNames : List String := ["indicator", "verdict", "label"]

/-- The fields of the document, in the order of the declaration. -/
def documentNames : List String := ["schema", "version", "entries"]

/-- Source: `windows/lib.rs`, `ReputationEntry` -/
def decodeReputationEntry (j : Json) : Except DecodeError ReputationEntry := do
  let found ← structEntries entryNames 1 false j
  return {
    indicator := ← readField found "indicator" decodeString
    verdict := ← readFieldOr found "verdict" decodeString defaultReputationVerdict
    label := ← readFieldOr found "label" decodeString "" }

/-- Source: `windows/lib.rs`, `ReputationDocument` -/
def decodeReputationDocument (j : Json) : Except DecodeError ReputationDocument := do
  let found ← structEntries documentNames 1 false j
  return {
    schema := ← readField found "schema" (decodeUnsigned 32 UInt32.ofNat)
    version := ← readFieldOr found "version" decodeString ""
    entries := ← readFieldOr found "entries" (decodeVec decodeReputationEntry) [] }

/-! ## The parser -/

/-- One digit of `str::parse::<u8>`. -/
def parseU8Digit (value : ℕ) (c : Char) : Except String ℕ := do
  let digit ← okOr "invalid digit found in string" (toDigit 10 c)
  ensure (value * 10 + digit < 256) "number too large to fit in target type"
  return value * 10 + digit

/-- `str::parse::<u8>`, with the text of the error. -/
def parseU8 (s : String) : Except String UInt8 := do
  let digits := match s.toList with
    | '+' :: rest => rest
    | other => other
  ensure (s ≠ "") "cannot parse integer from empty string"
  ensure (digits ≠ []) "invalid digit found in string"
  let value ← digits.foldlM parseU8Digit 0
  return UInt8.ofNat value

/-- `str::split_once` at a character, or the whole string. -/
def splitOnce (c : Char) (s : String) : String × Option String :=
  let before := s.toList.takeWhile (· ≠ c)
  match s.toList.drop before.length with
  | [] => (s, none)
  | _ :: after => (String.ofList before, some (String.ofList after))

/-- The longest network part of an address. -/
def maximumPrefix : IpAddr → UInt8
  | .v4 _ => 32
  | .v6 _ => 128

/-- The verdict as it is compared. -/
def normalizedVerdict (verdict : String) : String := toAsciiLowercase (trim verdict)

/-- The verdict is one that a feed can give. -/
def isRated (verdict : String) : Bool :=
  normalizedVerdict verdict = "suspicious" || normalizedVerdict verdict = "malicious"

/-- The network that an indicator names.
Source: `windows/lib.rs`, `ReputationFeed::from_json` -/
def readNetwork (indicator : String) : Except WindowsError (IpAddr × UInt8) := do
  let parts := splitOnce '/' indicator
  let network ← okOr
    (.api ("invalid reputation indicator '" ++ indicator ++ "': invalid IP address syntax"))
    (parseIpAddr parts.1)
  let length ← (parts.2.elim (.ok (maximumPrefix network)) parseU8).mapError fun error =>
    .api ("invalid reputation prefix '" ++ indicator ++ "': " ++ error)
  ensure (length ≤ maximumPrefix network)
    (.api ("reputation prefix is out of range: " ++ indicator))
  return (network, length)

/-- One turn of the loop over the entries.
Source: `windows/lib.rs`, `ReputationFeed::from_json` -/
def readEntry (entry : ReputationEntry) : Except WindowsError (Option ReputationIndicator) :=
  if isRated entry.verdict then do
    let network ← readNetwork entry.indicator
    return some
      { network := network.1
        prefixLength := network.2
        verdict := normalizedVerdict entry.verdict
        label := if trim entry.label = "" then entry.indicator else entry.label }
  else return none

section parser

variable (parseJson : List UInt8 → Except String Json) (describe : DecodeError → String)

/-- Source: `windows/lib.rs`, `ReputationFeed::from_json` -/
def ReputationFeed.fromJson (data : List UInt8) : Except WindowsError ReputationFeed := do
  let text ← (parseJson data).mapError fun error => .api ("parse reputation feed: " ++ error)
  let document ← (decodeReputationDocument text).mapError fun error =>
    .api ("parse reputation feed: " ++ describe error)
  ensure (document.schema = 1)
    (.api ("unsupported reputation schema " ++ toString document.schema.toNat))
  let indicators ← document.entries.mapM readEntry
  return ⟨document.version, indicators.filterMap id⟩

/-- The feed at a path, of which `shown` is the text.
Source: `windows/lib.rs`, `ReputationFeed::from_path` -/
def ReputationFeed.fromPath (names : FileNames) (ioText : IoError → String) (shown : String)
    (path : List String) (root : FileTree) : Except WindowsError ReputationFeed := do
  let data ← (FileTree.read names path (some root)).mapError fun error =>
    .api ("read reputation feed " ++ shown ++ ": " ++ ioText error)
  ReputationFeed.fromJson parseJson describe data

end parser

/-! ## What is accepted -/

/-- The field is a text, when it is there. -/
def TextField (found : List (String × Json)) (name : String) : Prop :=
  ∀ value, found.lookup name = some value → ∃ text, value = .string text

/-- The text of a field. -/
def fieldText (found : List (String × Json)) (name fallback : String) : String :=
  match found.lookup name with
  | some (.string text) => text
  | _ => fallback

/-- An indicator is an address, and after a slash possibly a number of at most as many bits as the
address has. -/
def ValidIndicator (indicator : String) : Prop :=
  ∃ network, parseIpAddr (splitOnce '/' indicator).1 = some network ∧
    ∀ text, (splitOnce '/' indicator).2 = some text →
      ∃ length, parseU8 text = .ok length ∧ length ≤ maximumPrefix network

/-- An entry has its known fields at most once, all of them texts, and an indicator that is valid
when it is rated. -/
def EntryAccepted (item : Json) : Prop :=
  ∃ found indicator, structEntries entryNames 1 false item = .ok found ∧
    found.lookup "indicator" = some (.string indicator) ∧
    TextField found "verdict" ∧ TextField found "label" ∧
    (isRated (fieldText found "verdict" defaultReputationVerdict) → ValidIndicator indicator)

/-- A document has its known fields at most once, a version that is a text, and entries that are
accepted. -/
structure DocumentAccepted (fields : List (String × Json)) : Prop where
  once : ((fields.filter (·.1 ∈ documentNames)).map Prod.fst).Nodup
  version : TextField fields "version"
  entries : ∀ items, fields.lookup "entries" = some (.array items) →
    ∀ item ∈ items, EntryAccepted item

section accepted

variable {found fields : List (String × Json)} {name fallback text indicator : String} {item : Json}

theorem readFieldOr_string_eq_ok :
    readFieldOr found name decodeString fallback = .ok text ↔
      TextField found name ∧ fieldText found name fallback = text := by
  unfold readFieldOr TextField fieldText
  rcases found.lookup name with _ | value
  · simp
  · cases value <;> simp [decodeString]

theorem exists_readNetwork_iff :
    (∃ network, readNetwork indicator = .ok network) ↔ ValidIndicator indicator := by
  simp only [readNetwork, bind_eq_ok, okOr_eq_ok, mapError_eq_ok, ensure_eq_ok, pure_eq_ok,
    ValidIndicator]
  constructor
  · rintro ⟨_, network, hnetwork, length, hlength, -, hle, -⟩
    refine ⟨network, hnetwork, fun text htext => ⟨length, ?_, hle⟩⟩
    rwa [htext] at hlength
  · rintro ⟨network, hnetwork, hlength⟩
    cases hparts : (splitOnce '/' indicator).2 with
    | none => exact ⟨_, network, hnetwork, _, rfl, (), UInt8.le_refl _, rfl⟩
    | some text =>
        obtain ⟨length, hparsed, hle⟩ := hlength text hparts
        exact ⟨_, network, hnetwork, length, hparsed, (), hle, rfl⟩

theorem exists_readEntry_iff (entry : ReputationEntry) :
    (∃ result, readEntry entry = .ok result) ↔
      (isRated entry.verdict → ValidIndicator entry.indicator) := by
  rw [← exists_readNetwork_iff]
  by_cases hrated : isRated entry.verdict
  · rw [readEntry, if_pos hrated]
    simp only [bind_eq_ok, pure_eq_ok, hrated, forall_const]
    constructor
    · rintro ⟨_, network, hnetwork, -⟩
      exact ⟨network, hnetwork⟩
    · rintro ⟨network, hnetwork⟩
      exact ⟨_, network, hnetwork, rfl⟩
  · rw [readEntry, if_neg hrated]
    exact iff_of_true ⟨none, rfl⟩ fun h => absurd h hrated

theorem decodeReputationEntry_eq_ok {entry : ReputationEntry} :
    decodeReputationEntry item = .ok entry ↔
      ∃ found, structEntries entryNames 1 false item = .ok found ∧
        found.lookup "indicator" = some (.string entry.indicator) ∧
        (TextField found "verdict" ∧
          fieldText found "verdict" defaultReputationVerdict = entry.verdict) ∧
        TextField found "label" ∧ fieldText found "label" "" = entry.label := by
  simp only [decodeReputationEntry, bind_eq_ok, pure_eq_ok, readField_string_eq_ok,
    readFieldOr_string_eq_ok]
  constructor
  · rintro ⟨found, hfound, indicator, hindicator, verdict, hverdict, label, hlabel, rfl⟩
    exact ⟨found, hfound, hindicator, hverdict, hlabel⟩
  · rintro ⟨found, hfound, hindicator, hverdict, hlabel⟩
    exact ⟨found, hfound, _, hindicator, _, hverdict, _, hlabel, rfl⟩

/-- The accepted entries are those that are decoded and read. -/
theorem entryAccepted_iff :
    EntryAccepted item ↔
      ∃ entry, decodeReputationEntry item = .ok entry ∧ ∃ result, readEntry entry = .ok result := by
  simp only [exists_readEntry_iff, decodeReputationEntry_eq_ok]
  constructor
  · rintro ⟨found, indicator, hfound, hindicator, hverdict, hlabel, hvalid⟩
    exact ⟨⟨indicator, _, _⟩, ⟨found, hfound, hindicator, ⟨hverdict, rfl⟩, hlabel, rfl⟩, hvalid⟩
  · rintro ⟨entry, ⟨found, hfound, hindicator, ⟨hverdict, htext⟩, hlabel, -⟩, hvalid⟩
    exact ⟨found, entry.indicator, hfound, hindicator, hverdict, hlabel, htext ▸ hvalid⟩

/-- The entries of a document that are decoded and read. -/
theorem exists_entries_iff {items : List Json} :
    (∃ entries, items.mapM decodeReputationEntry = .ok entries ∧
      ∃ indicators, entries.mapM readEntry = .ok indicators) ↔
      ∀ item ∈ items, EntryAccepted item := by
  simp only [entryAccepted_iff]
  constructor
  · rintro ⟨entries, hentries, hread⟩ item hitem
    obtain ⟨entry, hentry, hdecoded⟩ := exists_of_forall₂ (mapM_eq_ok.mp hentries) hitem
    exact ⟨entry, hdecoded, exists_mapM_ok.mp hread entry hentry⟩
  · intro h
    obtain ⟨entries, hentries⟩ :=
      exists_mapM_ok.mpr fun item hitem => (h item hitem).imp fun _ hentry => hentry.1
    refine ⟨entries, hentries, exists_mapM_ok.mpr fun entry hentry => ?_⟩
    obtain ⟨item, hitem, hdecoded⟩ := exists_of_forall₂ (mapM_eq_ok.mp hentries).flip hentry
    obtain ⟨other, hother, hread⟩ := h item hitem
    rwa [Except.ok.inj (hdecoded.symm.trans hother)]

end accepted

section document

variable {parseJson : List UInt8 → Except String Json} {describe : DecodeError → String}
  {data : List UInt8} {text : Json} {fields : List (String × Json)}

/-- A document is decoded from its known fields, which it has at most once. -/
theorem decodeReputationDocument_eq_ok {document : ReputationDocument} :
    decodeReputationDocument (.object fields) = .ok document ↔
      ((fields.filter (·.1 ∈ documentNames)).map Prod.fst).Nodup ∧
        readField fields "schema" (decodeUnsigned 32 UInt32.ofNat) = .ok document.schema ∧
        (TextField fields "version" ∧ fieldText fields "version" "" = document.version) ∧
        readFieldOr fields "entries" (decodeVec decodeReputationEntry) [] =
          .ok document.entries := by
  have hlookup : ∀ name ∈ documentNames,
      (fields.filter (·.1 ∈ documentNames)).lookup name = fields.lookup name := fun name hname =>
    Json.lookup_filter (fun key => decide (key ∈ documentNames)) (decide_eq_true hname)
  rw [← readFieldOr_string_eq_ok, readField, readFieldOr, readFieldOr,
    ← hlookup "schema" (by decide), ← hlookup "version" (by decide),
    ← hlookup "entries" (by decide)]
  simp only [decodeReputationDocument, structEntries, bind_eq_ok, pure_eq_ok,
    knownEntries_eq_ok_iff]
  constructor
  · rintro ⟨found, ⟨-, hnodup, rfl⟩, schema, hschema, version, hversion, entries, hentries, rfl⟩
    exact ⟨hnodup, hschema, hversion, hentries⟩
  · rintro ⟨hnodup, hschema, hversion, hentries⟩
    exact ⟨_, ⟨Bool.false_ne_true.elim, hnodup, rfl⟩, _, hschema, _, hversion, _, hentries, rfl⟩

/-- A document whose schema and list of entries are known is taken when it is accepted. -/
theorem exists_fromJson_object_iff {items : List Json}
    (hparse : parseJson data = .ok (.object fields))
    (hfields : ((fields.filter (·.1 ∈ documentNames)).map Prod.fst).Nodup →
      fields.lookup "schema" = some (.int 1) ∧ fields.lookup "entries" = some (.array items)) :
    (∃ feed, ReputationFeed.fromJson parseJson describe data = .ok feed) ↔
      DocumentAccepted fields := by
  simp only [ReputationFeed.fromJson, hparse, bind_eq_ok, mapError_eq_ok, ensure_eq_ok, pure_eq_ok,
    Except.ok.injEq, exists_eq_left', decodeReputationDocument_eq_ok]
  constructor
  · rintro ⟨_, document, ⟨honce, -, ⟨hversion, -⟩, hentries⟩, _, -, indicators, hread, -⟩
    obtain ⟨-, hlist⟩ := hfields honce
    rw [readFieldOr, hlist] at hentries
    refine ⟨honce, hversion, fun items' hitems => ?_⟩
    obtain rfl := Json.array.inj (Option.some.inj (hlist.symm.trans hitems))
    exact exists_entries_iff.mp ⟨_, hentries, _, hread⟩
  · rintro ⟨honce, hversion, haccepted⟩
    obtain ⟨hone, hlist⟩ := hfields honce
    obtain ⟨entries, hentries, indicators, hread⟩ :=
      exists_entries_iff.mpr (haccepted items hlist)
    refine ⟨_, ⟨1, _, entries⟩, ⟨honce, ?_, ⟨hversion, rfl⟩, ?_⟩, (), rfl, indicators, hread, rfl⟩
    · rw [readField, hone]
      rfl
    · rw [readFieldOr, hlist]
      exact hentries

/-- **A document whose schema and list of entries were checked is taken exactly when it is
accepted.** -/
theorem exists_fromJson_iff (hparse : parseJson data = .ok text)
    (hschema : (text.toValue.get "schema").bind Json.asU64 = some 1)
    (hentries : (text.toValue.get "entries").any Json.isArray) :
    (∃ feed, ReputationFeed.fromJson parseJson describe data = .ok feed) ↔
      ∃ fields, text = .object fields ∧ DocumentAccepted fields := by
  obtain ⟨value, hvalue, hone⟩ := Option.bind_eq_some_iff.mp hschema
  obtain ⟨fields, schema, rfl, hlookup, rfl⟩ := Json.get_toValue hvalue
  obtain rfl := Json.eq_int_of_asU64_toValue hone
  obtain ⟨value, hvalue, harray⟩ := (Option.any_eq_true _ _).mp hentries
  obtain ⟨fields', list, hfields, hlist, rfl⟩ := Json.get_toValue hvalue
  obtain rfl := Json.object.inj hfields
  obtain ⟨items, rfl⟩ := Json.exists_array_of_isArray_toValue harray
  rw [exists_fromJson_object_iff hparse fun honce =>
    ⟨(Json.lookup_reverse_of_known honce (by decide)).symm.trans hlookup,
      (Json.lookup_reverse_of_known honce (by decide)).symm.trans hlist⟩]
  constructor
  · exact fun h => ⟨fields, rfl, h⟩
  · rintro ⟨_, heq, h⟩
    exact Json.object.inj heq ▸ h

end document

end OpenGuard.Windows
