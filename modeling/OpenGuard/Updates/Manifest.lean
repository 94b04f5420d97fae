import OpenGuard.Lib.Fallible
import OpenGuard.Lib.FileTree
import OpenGuard.Lib.JsonValue
import OpenGuard.Lib.Serde

/-!
# Manifests of security content

A signed manifest lists the files of a version of the security content. The signature covers the
compact JSON of the manifest without its signature, with the keys in order.

* `contentPath`: the grammar of the paths; `contentPath_cases` says which names an accepted path
  goes through.
* `verifyManifest`: what is checked; `verifyManifest_valid` is what the rest relies on.
-/

namespace OpenGuard.Updates

open OpenGuard.Lib

/-- Source: `updates/lib.rs`, `UpdateError` -/
inductive UpdateError where
  | manifest (message : String)
  | invalidSignature
  | network (message : String)
  | content (message : String)
  | io (error : IoError)
  | json (message : String)
  deriving DecidableEq, Inhabited

/-- The text `Display` gives an error.
Source: `updates/lib.rs`, `UpdateError` -/
def UpdateError.display (ioText : IoError → String) : UpdateError → String
  | .manifest message => "security-content manifest is invalid: " ++ message
  | .invalidSignature => "security-content signature is invalid"
  | .network message => "security-content download failed: " ++ message
  | .content message => "security-content file failed validation: " ++ message
  | .io error => "security-content I/O failed: " ++ ioText error
  | .json message => "security-content JSON failed: " ++ message

/-- What is asked of a parsed URL. -/
structure Url where
  scheme : String
  host : Option String
  username : String
  password : Option String
  deriving DecidableEq, Inhabited

/-- The functions of other crates: the JSON parser with the texts of the decoding errors, base64,
the strict verification of a signature of some bytes under the key of the updater, the URL parser,
SHA-256 as hexadecimal text, what the rule compiler says of a source after others, and the texts of
the I/O errors. -/
structure Crates where
  parseJson : List UInt8 → Except String Json
  describe : DecodeError → String
  base64 : String → Option (List UInt8)
  verifyStrict : List UInt8 → List UInt8 → Bool
  parseUrl : String → Except String Url
  sha256 : List UInt8 → String
  checkRules : List String → String → Except String Unit
  ioText : IoError → String

/-- Source: `updates/lib.rs`, `ContentFile` -/
structure ContentFile where
  path : String
  url : String
  sha256 : String
  size : UInt64
  deriving DecidableEq, Inhabited

/-- Source: `updates/lib.rs`, `ContentManifest` -/
structure ContentManifest where
  schema : UInt32
  version : String
  publishedAt : String
  files : List ContentFile
  signature : String
  deriving DecidableEq, Inhabited

/-- Source: `updates/lib.rs`, `MANIFEST_LIMIT` -/
def manifestLimit : ℕ := 1024 * 1024

/-- Source: `updates/lib.rs`, `FILE_LIMIT` -/
def fileLimit : ℕ := 64 * 1024 * 1024

/-! ## Paths -/

/-- A component of a path, `std::path::Component` on Windows. -/
inductive Component where
  | drive (letter : Char)
  | rootDir
  | curDir
  | parentDir
  | normal (name : String)
  deriving DecidableEq, Inhabited

/-- The name of a normal component. -/
def Component.name? : Component → Option String
  | .normal name => some name
  | _ => none

/-- The pieces of a path between its separators, without those that say nothing. -/
def pathParts (chars : List Char) : List (List Char) :=
  (chars.splitOnP (· == '/')).filter fun part => part ≠ [] && part ≠ ['.']

/-- The component that a piece of a path is. -/
def partComponent (part : List Char) : Component :=
  if part = ['.', '.'] then .parentDir else .normal (String.ofList part)

/-- The drive that a path starts with, and what follows. -/
def splitDrive : List Char → List Component × List Char
  | letter :: ':' :: rest =>
      if letter.isAlpha then ([.drive letter], rest) else ([], letter :: ':' :: rest)
  | chars => ([], chars)

/-- The component of a root, or of a leading `.`. -/
def startComponent : List Char → List Component
  | '/' :: _ => [.rootDir]
  | ['.'] => [.curDir]
  | '.' :: '/' :: _ => [.curDir]
  | _ => []

/-- `Path::components` of a path that has no backslash. A leading `.` is a component of its own; the
share of a server counts as a root. -/
def components (path : String) : List Component :=
  let (drive, rest) := splitDrive path.toList
  drive ++ startComponent rest ++ (pathParts rest).map partComponent

/-- The names that a path goes through. -/
def pathNames (path : String) : List String := (components path).filterMap Component.name?

/-- `Path::extension` of a path that ends in the name: what follows the last dot, unless that dot is
the first character. -/
def fileExtension (name : String) : Option String :=
  let after := rsplitNext (· == '.') name
  if '.' ∈ name.toList ∧ after.toList.length + 1 < name.toList.length then some after else none

/-- Source: `updates/lib.rs`, `content_path` -/
def contentPath (value : String) : Except UpdateError String := do
  let normalized := replaceChar value '\\' '/'
  ensure (!isAbsolutePath normalized && (components normalized).all (·.name?.isSome))
    (.manifest "unsafe content path")
  ensure
    (normalized = "reputation.json" ∨
      startsWith normalized "rules/" ∧
        ((pathNames normalized).getLast?.bind fileExtension).any (eqIgnoreAsciiCase · "yar"))
    (.manifest ("unsupported content path " ++ value))
  return normalized

/-! ## Verification -/

/-- Source: `updates/lib.rs`, `validate_https_url` -/
def validateHttpsUrl (crates : Crates) (value : String) : Except UpdateError Unit := do
  let url ← (crates.parseUrl value).mapError fun error =>
    .manifest ("invalid content URL: " ++ error)
  ensure (url.scheme = "https" ∧ url.host.isSome ∧ url.username = "" ∧ url.password.isNone)
    (.manifest "content URL must be credential-free HTTPS")

/-- Source: `updates/lib.rs`, `validate_version` -/
def validateVersion (version : String) : Except UpdateError Unit :=
  ensure
    (version ≠ "" ∧ version.utf8ByteSize ≤ 64 ∧
      version.toList.all fun c => c.isAlphanum || c == '.' || c == '_' || c == '-')
    (.manifest "invalid content version")

/-- `u8::is_ascii_hexdigit` -/
def isAsciiHexdigit (c : Char) : Bool := (toDigit 16 c).isSome

/-- The checks of one file, after files with some lower-cased paths.
Source: `updates/lib.rs`, `validate_manifest_fields` -/
def validateFile (crates : Crates) (paths : List String) (item : ContentFile) :
    Except UpdateError Unit := do
  let _ ← contentPath item.path
  validateHttpsUrl crates item.url
  ensure (item.size.toNat ≤ fileLimit) (.manifest (item.path ++ " exceeds the 64 MiB file limit"))
  ensure (item.sha256.utf8ByteSize = 64 ∧ item.sha256.toList.all isAsciiHexdigit)
    (.manifest (item.path ++ " has an invalid SHA-256"))
  ensure (toAsciiLowercase item.path ∉ paths) (.manifest ("duplicate content path " ++ item.path))

/-- The loop over the files.
Source: `updates/lib.rs`, `validate_manifest_fields` -/
def validateFiles (crates : Crates) : List String → List ContentFile → Except UpdateError Unit
  | _, [] => .ok ()
  | paths, item :: items => do
      validateFile crates paths item
      validateFiles crates (toAsciiLowercase item.path :: paths) items

/-- Source: `updates/lib.rs`, `validate_manifest_fields` -/
def validateManifestFields (crates : Crates) (manifest : ContentManifest) :
    Except UpdateError Unit := do
  ensure (manifest.schema = 1) (.manifest "unsupported schema")
  validateVersion manifest.version
  ensure (manifest.files ≠ []) (.manifest "manifest contains no files")
  validateFiles crates [] manifest.files

/-- Source: `updates/lib.rs`, `ContentFile` -/
def decodeContentFile (j : Json) : Except DecodeError ContentFile := do
  let found ← structEntries ["path", "url", "sha256", "size"] 4 true j
  return {
    path := ← readField found "path" decodeString
    url := ← readField found "url" decodeString
    sha256 := ← readField found "sha256" decodeString
    size := ← readField found "size" (decodeUnsigned 64 UInt64.ofNat) }

/-- Source: `updates/lib.rs`, `ContentManifest` -/
def decodeContentManifest (j : Json) : Except DecodeError ContentManifest := do
  let found ← structEntries ["schema", "version", "published_at", "files", "signature"] 5 true j
  return {
    schema := ← readField found "schema" (decodeUnsigned 32 UInt32.ofNat)
    version := ← readField found "version" decodeString
    publishedAt := ← readField found "published_at" decodeString
    files := ← readField found "files" (decodeVec decodeContentFile)
    signature := ← readField found "signature" decodeString }

/-- The signature is taken out of a manifest. -/
def takeSignature : Json → Option (String × List (String × Json))
  | .object entries =>
      match entries.lookup "signature" with
      | some (.string text) => some (text, entries.filter fun entry => entry.1 ≠ "signature")
      | _ => none
  | _ => none

/-- The bytes that a signature covers.
Source: `updates/lib.rs`, `canonical_manifest_bytes` -/
def canonicalManifestBytes (value : Json) : List UInt8 := FileTree.utf8 value.canonicalText

/-- Source: `updates/lib.rs`, `SecurityContentUpdater::verify_manifest` -/
def verifyManifest (crates : Crates) (manifestBytes : List UInt8) :
    Except UpdateError ContentManifest := do
  ensure (manifestBytes.length ≤ manifestLimit) (.manifest "manifest exceeds 1 MiB")
  let text ← (crates.parseJson manifestBytes).mapError .json
  let taken ← okOr (.manifest "missing signature") (takeSignature text.toValue)
  let signature ← okOr .invalidSignature (crates.base64 taken.1)
  ensure
    (signature.length = 64 ∧
      crates.verifyStrict (canonicalManifestBytes (.object taken.2)) signature)
    .invalidSignature
  let complete := Json.object (taken.2 ++ [("signature", .string taken.1)])
  let manifest ← (decodeContentManifest complete).mapError fun error =>
    .json (crates.describe error)
  validateManifestFields crates manifest
  return manifest

/-! ## What verified manifests have -/

section paths

variable {value path : String}

/-- The names of a path in the directory of the rules. -/
theorem pathNames_rules (h : startsWith path "rules/") :
    ∃ rest, pathNames path = "rules" :: rest := by
  rw [startsWith, List.isPrefixOf_iff_prefix] at h
  obtain ⟨rest, hrest⟩ := h
  have hchars : path.toList = "rules".toList ++ '/' :: rest := by
    rw [← hrest]
    rfl
  have hsplit : path.toList.splitOnP (· == '/') =
      "rules".toList :: rest.splitOnP (· == '/') := by
    rw [hchars]
    exact List.splitOnP_append_cons_of_forall_mem (by simp) '/' rfl rest
  have hparts : pathParts path.toList = "rules".toList :: pathParts rest := by
    rw [pathParts, hsplit]
    rfl
  have hdrive : splitDrive path.toList = ([], path.toList) := by
    rw [hchars]
    rfl
  have hstart : startComponent path.toList = [] := by
    rw [hchars]
    rfl
  refine ⟨((pathParts rest).map partComponent).filterMap Component.name?, ?_⟩
  rw [pathNames, components, hdrive]
  simp only [hstart, hparts, List.nil_append, List.map_cons]
  rfl

/-- An accepted path is that of the reputation feed, or goes through `rules` to another name. -/
theorem contentPath_cases (h : contentPath value = .ok path) :
    path = replaceChar value '\\' '/' ∧
      (path = "reputation.json" ∨
        startsWith path "rules/" ∧ ∃ name rest, pathNames path = "rules" :: name :: rest) := by
  simp only [contentPath, bind_eq_ok, ensure_eq_ok, pure_eq_ok] at h
  obtain ⟨-, -, -, hallowed, rfl⟩ := h
  refine ⟨rfl, hallowed.imp id fun ⟨hstart, hextension⟩ => ⟨hstart, ?_⟩⟩
  obtain ⟨rest, hnames⟩ := pathNames_rules hstart
  cases rest with
  | nil =>
      -- the name of the directory has no extension
      rw [hnames] at hextension
      exact absurd hextension (by decide)
  | cons name rest => exact ⟨name, rest, hnames⟩

end paths

section verified

variable {crates : Crates} {manifest : ContentManifest} {manifestBytes : List UInt8}
  {items : List ContentFile} {paths : List String}

theorem validateFile_ok {item : ContentFile} (h : validateFile crates paths item = .ok ()) :
    (∃ path, contentPath item.path = .ok path) ∧ toAsciiLowercase item.path ∉ paths := by
  simp only [validateFile, bind_eq_ok, ensure_eq_ok] at h
  obtain ⟨path, hpath, -, -, -, -, -, -, hnot⟩ := h
  exact ⟨⟨path, hpath⟩, hnot⟩

/-- Every path of the files is accepted, and no two have the same lower-case spelling. -/
theorem validateFiles_ok (h : validateFiles crates paths items = .ok ()) :
    (∀ item ∈ items, ∃ path, contentPath item.path = .ok path) ∧
      (items.map fun item => toAsciiLowercase item.path).Nodup ∧
      ∀ item ∈ items, toAsciiLowercase item.path ∉ paths := by
  induction items generalizing paths with
  | nil => simp
  | cons item items ih =>
      obtain ⟨_, hitem, hrest⟩ := bind_eq_ok.mp h
      obtain ⟨hpaths, hnodup, hfresh⟩ := ih hrest
      obtain ⟨hpath, hnot⟩ := validateFile_ok hitem
      refine ⟨List.forall_mem_cons.mpr ⟨hpath, hpaths⟩, List.nodup_cons.mpr ⟨?_, hnodup⟩,
        List.forall_mem_cons.mpr ⟨hnot, fun other hother => ?_⟩⟩
      · intro hmem
        obtain ⟨other, hother, heq⟩ := List.mem_map.mp hmem
        exact hfresh other hother (heq ▸ List.mem_cons_self)
      · exact fun hmem => hfresh other hother (List.mem_cons_of_mem _ hmem)

/-- What is relied on of a verified manifest. -/
structure ContentManifest.Valid (manifest : ContentManifest) : Prop where
  version : validateVersion manifest.version = .ok ()
  paths : ∀ item ∈ manifest.files, ∃ path, contentPath item.path = .ok path
  nodup : (manifest.files.map fun item => toAsciiLowercase item.path).Nodup

/-- A verified manifest is valid. -/
theorem verifyManifest_valid (h : verifyManifest crates manifestBytes = .ok manifest) :
    manifest.Valid := by
  simp only [verifyManifest, validateManifestFields, bind_eq_ok, pure_eq_ok] at h
  obtain ⟨-, -, _, -, _, -, _, -, -, -, manifest, -, _, ⟨-, -, _, hversion, -, -, hfiles⟩, rfl⟩ := h
  obtain ⟨hpaths, hnodup, -⟩ := validateFiles_ok hfiles
  exact ⟨hversion, hpaths, hnodup⟩

end verified

end OpenGuard.Updates
