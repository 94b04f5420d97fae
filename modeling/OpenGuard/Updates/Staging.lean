import Mathlib.Algebra.Order.BigOperators.Group.List
import OpenGuard.Updates.Install

/-!
# What is staged and what is installed

Distinct paths may lead to one file. The key of an item is the list of the keys of the names its
path goes through; items with one key are written to one file.

* `stageItems_staged`: after the files of a manifest are staged, a file holds what was delivered
  for the last item of its key, and the directory of the rules has the first spelling of each name.
* `installed_cases`: what an installation that succeeds has found or done.
-/

namespace OpenGuard.Updates

open OpenGuard.Lib OpenGuard.Lib.FileTree OpenGuard.Detection

/-- The names that the path of an item goes through. -/
def itemNames (item : ContentFile) : List String := pathNames (replaceChar item.path '\\' '/')

/-- The keys of these names. -/
def itemKey (names : FileNames) (item : ContentFile) : List String :=
  (itemNames item).map names.key

/-- The name in the directory of the rules that the path of an item goes through. -/
def ruleName? (item : ContentFile) : Option String := (itemNames item)[1]?

/-- What the fetcher delivers for some files, asked in order, up to its first failure. -/
def downloads {σ : Type} (fetch : Fetcher σ) :
    List ContentFile → σ → List (ContentFile × List UInt8)
  | [], _ => []
  | item :: items, s =>
      match fetch item.url (fetchLimit item) s with
      | (.error _, _) => []
      | (.ok data, s) => (item, data) :: downloads fetch items s

/-- The data has the declared size and digest. -/
def Matches (crates : Crates) (item : ContentFile) (data : List UInt8) : Prop :=
  data.length = item.size.toNat ∧ eqIgnoreAsciiCase (crates.sha256 data) item.sha256

section items

variable {crates : Crates} {names : ContentNames} {item : ContentFile} {data : List UInt8}
  {staging after : FileTree}

theorem validateContentBytes_eq_ok :
    validateContentBytes crates item data = .ok () ↔ Matches crates item data := by
  simp only [validateContentBytes, bind_eq_ok, ensure_eq_ok, Matches]
  exact exists_const _

/-- The path of an item that is accepted goes through the name of the feed, or through the directory
of the rules. -/
theorem itemNames_cases {path : String} (h : contentPath item.path = .ok path) :
    pathNames path = itemNames item ∧
      (itemNames item = ["reputation.json"] ∨
        ∃ name rest, itemNames item = "rules" :: name :: rest) := by
  obtain ⟨rfl, hfeed | ⟨-, hrules⟩⟩ := contentPath_cases h
  · refine ⟨rfl, .inl ?_⟩
    rw [itemNames, hfeed]
    decide
  · exact ⟨rfl, .inr hrules⟩

/-- What one file changes in the staging directory. -/
theorem stageItem_spec (h : stageItem crates names staging item data = .ok after) :
    Matches crates item data ∧ opensFile (replaceChar item.path '\\' '/') ∧
      (∀ path, fileAt names path (some after) =
        if path.map names.key = itemKey names item then some data
        else fileAt names path (some staging)) ∧
      childNames names ["rules"] (some after) =
        (ruleName? item).toList.foldl (addName names)
          (childNames names ["rules"] (some staging)) := by
  simp only [stageItem, bind_eq_ok, mapError_eq_ok] at h
  obtain ⟨_, hbytes, path, hpath, ready, hready, hwrite⟩ := h
  obtain ⟨hnames, hcases⟩ := itemNames_cases hpath
  obtain ⟨rfl, -⟩ := contentPath_cases hpath
  unfold writeContent at hwrite
  split_ifs at hwrite with hopens
  rw [hnames] at hready hwrite
  refine ⟨validateContentBytes_eq_ok.mp hbytes, hopens, fun other => ?_, ?_⟩
  · rw [fileAt_write hwrite, fileAt_createDirAll hready]
    rfl
  · rw [ruleName?]
    rcases hcases with hfeed | ⟨name, rest, hrules⟩
    · rw [hfeed] at hready hwrite ⊢
      rw [childNames_alter_of_ne hwrite names.rules_ne_reputation]
      rw [createDirAll_nil hready]
      rfl
    · rw [hrules] at hready hwrite ⊢
      rw [childNames_alter ["rules"] name rest hwrite]
      cases rest with
      | nil =>
          have hsame : childNames names ["rules"] (some ready) =
              childNames names ["rules"] (some staging) := childNames_createDirAll hready
          rw [hsame]
          rfl
      | cons next rest =>
          rw [childNames_alter ["rules"] name (next :: rest).dropLast hready, addName_addName]
          rfl

end items

/-! ## Reading -/

section reading

variable {crates : Crates} {names : ContentNames} {path : String} {directory : Option FileTree}
  {data : List UInt8} {items : List ContentFile}

theorem readContent_eq_ok : readContent names path directory = .ok data ↔
    opensFile path ∧ fileAt names (pathNames path) directory = some data := by
  unfold readContent
  split_ifs with hopens
  · rw [read_eq_ok, and_iff_right hopens]
  · exact iff_of_false nofun fun h => hopens h.1

/-- Every item names a file with the declared size and digest.
Source: `updates/lib.rs`, `validate_installed` -/
def HoldsSigned (crates : Crates) (names : FileNames) (items : List ContentFile)
    (directory : Option FileTree) : Prop :=
  ∀ item ∈ items, ∃ path data, contentPath item.path = .ok path ∧
    readContent names path directory = .ok data ∧ Matches crates item data

theorem validateItems_eq_ok : validateItems crates names directory items = .ok () ↔
    HoldsSigned crates names items directory := by
  induction items with
  | nil => exact iff_of_true rfl nofun
  | cons item items ih =>
      rw [HoldsSigned, List.forall_mem_cons]
      simp only [validateItems, bind_eq_ok, mapError_eq_ok]
      constructor
      · rintro ⟨path, hpath, data, hread, _, hbytes, hrest⟩
        exact ⟨⟨path, data, hpath, hread, validateContentBytes_eq_ok.mp hbytes⟩, ih.mp hrest⟩
      · rintro ⟨⟨path, data, hpath, hread, hbytes⟩, hrest⟩
        exact ⟨path, hpath, data, hread, (), validateContentBytes_eq_ok.mpr hbytes, ih.mpr hrest⟩

end reading

/-! ## Staged files -/

/-- What the staging directory is after some files were delivered. -/
structure Staged (crates : Crates) (names : FileNames)
    (delivered : List (ContentFile × List UInt8)) (staging after : FileTree) : Prop where
  matching : ∀ download ∈ delivered, Matches crates download.1 download.2
  opens : ∀ download ∈ delivered, opensFile (replaceChar download.1.path '\\' '/')
  file : ∀ path, fileAt names path (some after) =
    ((delivered.reverse.find? fun download =>
        itemKey names download.1 = path.map names.key).map Prod.snd).or
      (fileAt names path (some staging))
  children : childNames names ["rules"] (some after) =
    (delivered.filterMap fun download => ruleName? download.1).foldl (addName names)
      (childNames names ["rules"] (some staging))

section staged

variable {σ : Type} {crates : Crates} {names : ContentNames} {fetch : Fetcher σ}
  {items : List ContentFile} {staging after : FileTree} {s t : σ}

/-- One more file, before the others. -/
theorem Staged.cons {delivered : List (ContentFile × List UInt8)} {item : ContentFile}
    {data : List UInt8} {first : FileTree}
    (hitem : stageItem crates names staging item data = .ok first)
    (hrest : Staged crates names delivered first after) :
    Staged crates names ((item, data) :: delivered) staging after := by
  obtain ⟨hmatches, hopens, hfile, hchildren⟩ := stageItem_spec hitem
  refine ⟨List.forall_mem_cons.mpr ⟨hmatches, hrest.matching⟩,
    List.forall_mem_cons.mpr ⟨hopens, hrest.opens⟩, fun path => ?_, ?_⟩
  · rw [hrest.file, hfile, List.reverse_cons, List.find?_append, Option.map_or, Option.or_assoc]
    refine congrArg (Option.or _) ?_
    by_cases hkey : path.map names.key = itemKey names item
    · simp [hkey]
    · simp [hkey, Ne.symm hkey]
  · rw [hrest.children, hchildren, List.filterMap_cons]
    cases ruleName? item <;> rfl

/-- Nothing is staged. -/
theorem staged_nil (staging : FileTree) : Staged crates names [] staging staging :=
  ⟨nofun, nofun, fun _ => rfl, rfl⟩

/-- The run of the loop: every file was delivered, and the directory is what they make of it. -/
theorem stageItems_staged (h : stageItems crates names fetch items staging s = (.ok after, t)) :
    (downloads fetch items s).map Prod.fst = items ∧
      Staged crates names (downloads fetch items s) staging after := by
  induction items generalizing staging s with
  | nil =>
      obtain ⟨hafter, -⟩ := Prod.mk.inj h
      rw [← Except.ok.inj hafter]
      exact ⟨rfl, staged_nil staging⟩
  | cons item items ih =>
      rw [stageItems] at h
      split at h
      · cases (Prod.mk.inj h).1
      · next data next hfetch =>
          split at h
          · cases (Prod.mk.inj h).1
          · next first hitem =>
              obtain ⟨hitems, hrest⟩ := ih h
              have hdownloads : downloads fetch (item :: items) s =
                  (item, data) :: downloads fetch items next := by
                rw [downloads, hfetch]
              rw [hdownloads]
              exact ⟨congrArg (item :: ·) hitems, hrest.cons hitem⟩

end staged

/-! ## Directories with the same content -/

/-- Two directories are the same but for the manifest. -/
def SameContent (names : FileNames) (a b : Option FileTree) : Prop :=
  ∀ first rest, names.key first ≠ names.key "manifest.json" →
    lookup names (first :: rest) a = lookup names (first :: rest) b

section same

variable {crates : Crates} {names : ContentNames} {a b : Option FileTree}

/-- A scanner is made of the directory of the rules. -/
theorem scannerFromDirectory_congr (h : lookup names ["rules"] a = lookup names ["rules"] b) :
    scannerFromDirectory crates names a = scannerFromDirectory crates names b := by
  have hpaths : rulePaths crates names a = rulePaths crates names b := by
    rw [rulePaths, rulePaths, readDir, readDir, h]
  have hread : ∀ name,
      readToString names ["rules", name] a = readToString names ["rules", name] b := by
    intro name
    have hlookup : lookup names ["rules", name] a = lookup names ["rules", name] b := by
      rw [← List.singleton_append, lookup_append, lookup_append, h]
    rw [readToString, readToString, FileTree.read, FileTree.read, hlookup]
  simp only [scannerFromDirectory, hpaths, hread]

theorem SameContent.validateContentDirectory (h : SameContent names a b) :
    validateContentDirectory crates names a = validateContentDirectory crates names b := by
  have hfeed := h "reputation.json" [] names.reputation_ne_manifest
  have hexists : pathExists names ["reputation.json"] a =
      pathExists names ["reputation.json"] b := by
    rw [pathExists, pathExists, hfeed]
  have hread : FileTree.read names ["reputation.json"] a =
      FileTree.read names ["reputation.json"] b := by
    rw [FileTree.read, FileTree.read, hfeed]
  have hscanner : scannerFromDirectory crates names a = scannerFromDirectory crates names b :=
    scannerFromDirectory_congr (h "rules" [] names.rules_ne_manifest)
  rw [Updates.validateContentDirectory, Updates.validateContentDirectory, hscanner, hexists, hread]

/-- The files of items are those of both. -/
theorem SameContent.fileAt (h : SameContent names a b) {item : ContentFile} {path : String}
    (hpath : contentPath item.path = .ok path) :
    fileAt names (itemNames item) a = fileAt names (itemNames item) b := by
  unfold FileTree.fileAt
  rcases (itemNames_cases hpath).2 with hfeed | ⟨name, rest, hrules⟩
  · rw [hfeed, h _ _ names.reputation_ne_manifest]
  · rw [hrules, h _ _ names.rules_ne_manifest]

/-- Writing the manifest changes nothing else. -/
theorem sameContent_write {staging after : FileTree} {data : List UInt8}
    (h : staging.write names ["manifest.json"] data = .ok after) :
    SameContent names (some after) (some staging) := fun _ rest hfirst =>
  lookup_alter_of_ne h hfirst rest

end same

/-! ## Installations that succeed -/

section installed

variable {σ : Type} {crates : Crates} {names : ContentNames} {manifestBytes : List UInt8}
  {fetch : Fetcher σ} {root ready after : FileTree} {s t : σ} {version : String}
  {manifest : ContentManifest}

/-- A directory without entries is no version. -/
theorem validateContentDirectory_empty :
    validateContentDirectory crates names (some (.directory [])) ≠ .ok () := nofun

/-- What an installation that succeeds has found or done: the version was there and valid, and
nothing but the directory of the versions has changed; or it was staged from what the fetcher
delivered. -/
inductive Installed {σ : Type} (crates : Crates) (names : FileNames) (manifestBytes : List UInt8)
    (manifest : ContentManifest) (fetch : Fetcher σ) (root : FileTree) (s : σ)
    (after : FileTree) : Prop where
  | found
      (existed : (versionDirectory names manifest.version root).isSome)
      (valid : validateInstalled crates names (versionDirectory names manifest.version after)
        manifest = .ok ())
      (opened : createDirAll names ["versions"] root = .ok after)
  | staged (staging installed : FileTree)
      (absent : versionDirectory names manifest.version root = none)
      (delivered : (downloads fetch manifest.files s).map Prod.fst = manifest.files)
      (staged : Staged crates names (downloads fetch manifest.files s) (.directory []) staging)
      (valid : validateContentDirectory crates names (some staging) = .ok ())
      (same : SameContent names (some installed) (some staging))
      (placed : versionDirectory names manifest.version after = some installed)
      (versions : ∃ entries, lookup names ["versions"] (some after) = some (.directory entries))

/-- The directory of an installed version is valid. -/
theorem Installed.validateContentDirectory
    (h : Installed crates names manifestBytes manifest fetch root s after) :
    validateContentDirectory crates names (versionDirectory names manifest.version after) =
      .ok () := by
  cases h with
  | found existed valid opened =>
      obtain ⟨_, -, hdirectory⟩ := bind_eq_ok.mp valid
      exact hdirectory
  | staged staging installed absent delivered staged valid same placed versions =>
      rw [placed, same.validateContentDirectory]
      exact valid

/-- A version is there before the directory of the versions is made, unless it is an empty directory
afterwards. -/
theorem versionDirectory_of_ready (hready : createDirAll names ["versions"] root = .ok ready)
    (h : versionDirectory names version ready ≠ some (.directory [])) :
    (versionDirectory names version ready).isSome =
      (versionDirectory names version root).isSome := by
  unfold versionDirectory at h ⊢
  rcases hpath : versionPath version with _ | ⟨first, rest⟩
  · rfl
  · rw [hpath] at h
    obtain hsame | ⟨-, hafter⟩ := lookup_createDirAll_single hready first rest
    · rw [hsame]
    · exact absurd hafter h

/-- The directory of the versions is there once a version is put into it. -/
theorem lookup_versions_attach {installed : FileTree}
    (hready : createDirAll names ["versions"] root = .ok ready)
    (habsent : versionDirectory names version ready = none)
    (h : ready.attach names (versionPath version) installed = .ok after) :
    ∃ entries, lookup names ["versions"] (some after) = some (.directory entries) := by
  obtain ⟨entries, hentries⟩ := lookup_createDirAll hready
  unfold versionDirectory at habsent
  unfold versionPath at habsent h
  split_ifs at habsent h
  · rw [hentries] at habsent
    cases habsent
  · cases habsent
  · obtain ⟨top, child, -, hchild, rfl⟩ := alter_cons h
    obtain ⟨versions, version, -, -, rfl⟩ := alter_cons hchild
    rw [lookup, entry_setEntry rfl]
    exact ⟨_, rfl⟩

/-- An installation that succeeds has found its version, or staged it. -/
theorem installed_cases (hmanifest : verifyManifest crates manifestBytes = .ok manifest)
    (h : installWithFetcher crates names manifestBytes fetch root s = (.ok version, after, t)) :
    version = manifest.version ∧
      Installed crates names manifestBytes manifest fetch root s after := by
  rw [installWithFetcher, hmanifest] at h
  dsimp only at h
  split at h
  · cases (Prod.mk.inj h).1
  · next ready hready =>
      split_ifs at h with hexists
      · obtain ⟨hchecked, hstate⟩ := Prod.mk.inj h
        obtain ⟨rfl, -⟩ := Prod.mk.inj hstate
        obtain ⟨_, hvalid, rfl⟩ := map_eq_ok.mp hchecked
        refine ⟨rfl, .found ?_ hvalid hready⟩
        rw [← versionDirectory_of_ready hready, hexists]
        intro hempty
        obtain ⟨_, -, hdirectory⟩ := bind_eq_ok.mp hvalid
        exact validateContentDirectory_empty (hempty ▸ hdirectory)
      · have habsent : versionDirectory names manifest.version ready = none := by
          simpa using hexists
        split at h
        · cases (Prod.mk.inj h).1
        · next staging next hstaged =>
            split at h
            · cases (Prod.mk.inj h).1
            · next installed hfinish =>
                split at h
                · cases (Prod.mk.inj h).1
                · next after' hattach =>
                    obtain ⟨hversion, hstate⟩ := Prod.mk.inj h
                    obtain ⟨rfl, -⟩ := Prod.mk.inj hstate
                    obtain ⟨hdelivered, hfiles⟩ := stageItems_staged hstaged
                    obtain ⟨_, hvalid, hwrite⟩ := bind_eq_ok.mp hfinish
                    refine ⟨(Except.ok.inj hversion).symm, .staged staging installed ?_ hdelivered
                      hfiles hvalid (sameContent_write (mapError_eq_ok.mp hwrite))
                      (lookup_attach hattach) (lookup_versions_attach hready habsent hattach)⟩
                    have hroot : (versionDirectory names manifest.version ready).isSome =
                        (versionDirectory names manifest.version root).isSome :=
                      versionDirectory_of_ready hready (by rw [habsent]; exact nofun)
                    simpa [habsent] using hroot

end installed

/-! ## A sample -/

/-- The JSON of a manifest. -/
def manifestJson (manifest : ContentManifest) : Json :=
  .object [("schema", .int manifest.schema.toNat), ("version", .string manifest.version),
    ("published_at", .string manifest.publishedAt),
    ("files", .array (manifest.files.map fun item => .object
      [("path", .string item.path), ("url", .string item.url), ("sha256", .string item.sha256),
        ("size", .int item.size.toNat)])),
    ("signature", .string manifest.signature)]

/-- The JSON of a manifest, without its signature. -/
def unsignedEntries (manifest : ContentManifest) : List (String × Json) :=
  [("schema", .int manifest.schema.toNat), ("version", .string manifest.version),
    ("published_at", .string manifest.publishedAt),
    ("files", .array (manifest.files.map fun item => .object
      [("path", .string item.path), ("url", .string item.url), ("sha256", .string item.sha256),
        ("size", .int item.size.toNat)]))]

/-- A rule source. -/
def firstRule : String := "rule a \x7b condition: true \x7d\n"

/-- Another one. -/
def secondRule : String := "rule bb \x7b condition: true \x7d\n"

/-- The first source under some path. -/
def firstItem (path : String) : ContentFile :=
  ⟨path, "https://updates.example/a.yar",
    "3b4b902238e9854d06e297b618a5d5ae7606824f186a9834d6415b1830d2b639", 27⟩

/-- The second source under some path. -/
def secondItem (path : String) : ContentFile :=
  ⟨path, "https://updates.example/b.yar",
    "c1b74c07b49a0527e58fb59833f23c7d7ab45898994dc077615f3b707643eb14", 28⟩

/-- A manifest of both. -/
def sampleManifest (firstPath secondPath signature : String) : ContentManifest :=
  ⟨1, "1.0", "2026-08-06T00:00:00Z", [firstItem firstPath, secondItem secondPath], signature⟩

/-- Its text. -/
def manifestText (manifest : ContentManifest) : List UInt8 := utf8 (manifestJson manifest).render

/-- The JSON of a file of a manifest. -/
def itemJson (item : ContentFile) : Json := .object
  [("path", .string item.path), ("url", .string item.url), ("sha256", .string item.sha256),
    ("size", .int item.size.toNat)]

/-- The most bytes that it can take. -/
def itemBound (item : ContentFile) : ℕ :=
  6 * (item.path.utf8ByteSize + item.url.utf8ByteSize + item.sha256.utf8ByteSize) +
    (toString (item.size.toNat : ℤ)).utf8ByteSize + 42

/-- The most bytes that the text of a manifest can take. -/
def manifestBound (manifest : ContentManifest) : ℕ :=
  6 * (manifest.version.utf8ByteSize + manifest.publishedAt.utf8ByteSize +
      manifest.signature.utf8ByteSize) +
    (toString (manifest.schema.toNat : ℤ)).utf8ByteSize +
    (manifest.files.map itemBound).sum + manifest.files.length + 80

theorem byteSize_itemJson_le (item : ContentFile) : (itemJson item).byteSize ≤ itemBound item := by
  have hnames : escapedBytes "path" = 4 ∧ escapedBytes "url" = 3 ∧ escapedBytes "sha256" = 6 ∧
      escapedBytes "size" = 4 := by
    decide
  have hpath := Json.escapedBytes_le item.path
  have hurl := Json.escapedBytes_le item.url
  have hsha256 := Json.escapedBytes_le item.sha256
  simp only [itemJson, Json.byteSize_object, Json.entryBytes, Json.byteSize_string,
    Json.byteSize_int, List.map_cons, List.map_nil, List.sum_cons, List.sum_nil, List.length_cons,
    List.length_nil, itemBound]
  omega

theorem length_manifestText_le (manifest : ContentManifest) :
    (manifestText manifest).length ≤ manifestBound manifest := by
  have hnames : escapedBytes "schema" = 6 ∧ escapedBytes "version" = 7 ∧
      escapedBytes "published_at" = 12 ∧ escapedBytes "files" = 5 ∧
      escapedBytes "signature" = 9 := by
    decide
  have hversion := Json.escapedBytes_le manifest.version
  have hpublished := Json.escapedBytes_le manifest.publishedAt
  have hsignature := Json.escapedBytes_le manifest.signature
  have hfiles : ((manifest.files.map itemJson).map Json.byteSize).sum ≤
      (manifest.files.map itemBound).sum := by
    rw [List.map_map]
    exact List.sum_le_sum fun item _ => byteSize_itemJson_le item
  rw [manifestText, length_utf8]
  show (manifestJson manifest).byteSize ≤ _
  simp only [manifestJson, Json.byteSize_object, Json.entryBytes, Json.byteSize_string,
    Json.byteSize_int, Json.byteSize_array, List.map_cons, List.map_nil, List.sum_cons,
    List.sum_nil, List.length_cons, List.length_nil, List.length_map, manifestBound]
  unfold itemJson at hfiles
  omega

/-- Functions that are those of the other crates on a manifest of the two sources and its
signature. -/
def sampleCrates (manifest : ContentManifest) (signature : List UInt8) : Crates where
  parseJson _ := .ok (manifestJson manifest)
  describe _ := ""
  base64 text := if text = manifest.signature then some signature else none
  verifyStrict _ given := given = signature
  parseUrl _ := .ok ⟨"https", some "updates.example", "", none⟩
  sha256 data := if data = utf8 firstRule then (firstItem "").sha256 else (secondItem "").sha256
  checkRules _ _ := .ok ()
  ioText _ := ""

/-- A disk that ignores the case of letters. -/
def sampleNames : ContentNames where
  key := toAsciiLowercase
  accepts _ := true
  rules_ne_reputation := by decide
  rules_ne_manifest := by decide
  reputation_ne_manifest := by decide

/-- A fetcher that has both sources. -/
def sampleFetch : Fetcher Unit := fun url _ s =>
  (.ok (utf8 (if url = (firstItem "").url then firstRule else secondRule)), s)

/-- The installation of a sample on an empty disk. -/
def sampleInstall (manifest : ContentManifest) (signature : List UInt8) :
    Except UpdateError String × FileTree × Unit :=
  installWithFetcher (sampleCrates manifest signature) sampleNames (manifestText manifest)
    sampleFetch (.directory []) ()

theorem sampleInstall_eq {manifest : ContentManifest} {signature : List UInt8} {version : String}
    (h : (sampleInstall manifest signature).1 = .ok version) :
    installWithFetcher (sampleCrates manifest signature) sampleNames (manifestText manifest)
      sampleFetch (.directory []) () =
        (.ok version, (sampleInstall manifest signature).2.1, ()) :=
  Prod.ext h rfl

/-- A manifest of two rules and nothing else. -/
def rulesOnlyManifest : ContentManifest :=
  sampleManifest "rules/a.yar" "rules/b.yar"
    ("HR6CNhsfA68xIAso+zFy+w/k/i3rtkmMlkOebaFes1GlBY9TTZlR3lUTL1VrudL3AjQZ5KQH4OtMuOuhKuOhBw==")

/-- Its signature. -/
def rulesOnlySignature : List UInt8 :=
  [29, 30, 130, 54, 27, 31, 3, 175, 49, 32, 11, 40, 251, 49, 114, 251, 15, 228, 254, 45, 235, 182,
    73, 140, 150, 67, 158, 109, 161, 94, 179, 81, 165, 5, 143, 83, 77, 153, 81, 222, 85, 19, 47, 85,
    107, 185, 210, 247, 2, 52, 25, 228, 164, 7, 224, 235, 76, 184, 235, 161, 42, 227, 161, 7]

section sample

variable {manifest : ContentManifest} {signature : List UInt8} {first second text : String}

theorem toValue_itemJson (item : ContentFile) : (itemJson item).toValue = itemJson item := by
  simp [itemJson, Json.toValue, Json.toValueEntries]

theorem toValueItems_itemJson (items : List ContentFile) :
    Json.toValueItems (items.map itemJson) = items.map itemJson := by
  induction items with
  | nil => rfl
  | cons item items ih => rw [List.map_cons, Json.toValueItems, toValue_itemJson, ih]

theorem manifestJson_eq (manifest : ContentManifest) : manifestJson manifest =
    .object (unsignedEntries manifest ++ [("signature", Json.string manifest.signature)]) := rfl

/-- No key of a manifest is there twice. -/
theorem toValue_manifestJson (manifest : ContentManifest) :
    (manifestJson manifest).toValue = manifestJson manifest := by
  have hfiles := toValueItems_itemJson manifest.files
  unfold itemJson at hfiles
  simp [manifestJson, Json.toValue, Json.toValueEntries, hfiles]

theorem decodeContentFile_itemJson (item : ContentFile) :
    decodeContentFile (itemJson item) = .ok item := by
  have hknown : structEntries ["path", "url", "sha256", "size"] 4 true (itemJson item) = .ok
      [("path", .string item.path), ("url", .string item.url), ("sha256", .string item.sha256),
        ("size", .int item.size.toNat)] := by
    rw [itemJson, structEntries, knownEntries_eq_ok_iff]
    simp
  have hsize := decodeUnsigned_natCast UInt64.ofNat item.size.toNat_lt
  rw [UInt64.ofNat_toNat] at hsize
  refine bind_eq_ok.mpr ⟨_, hknown, bind_eq_ok.mpr ⟨item.path, rfl, ?_⟩⟩
  refine bind_eq_ok.mpr ⟨item.url, rfl, bind_eq_ok.mpr ⟨item.sha256, rfl, ?_⟩⟩
  exact bind_eq_ok.mpr ⟨item.size, hsize, rfl⟩

/-- A manifest is read back from its JSON. -/
theorem decodeContentManifest_manifestJson (manifest : ContentManifest) :
    decodeContentManifest (manifestJson manifest) = .ok manifest := by
  have hknown : structEntries ["schema", "version", "published_at", "files", "signature"] 5 true
      (manifestJson manifest) =
        .ok (unsignedEntries manifest ++ [("signature", .string manifest.signature)]) := by
    rw [manifestJson_eq, structEntries, knownEntries_eq_ok_iff]
    simp [unsignedEntries]
  have hschema := decodeUnsigned_natCast UInt32.ofNat manifest.schema.toNat_lt
  rw [UInt32.ofNat_toNat] at hschema
  have hfiles : decodeVec decodeContentFile (.array (manifest.files.map itemJson)) =
      .ok manifest.files := by
    rw [decodeVec, mapM_eq_ok, List.forall₂_map_left_iff, List.forall₂_same]
    exact fun item _ => decodeContentFile_itemJson item
  refine bind_eq_ok.mpr ⟨_, hknown, bind_eq_ok.mpr ⟨manifest.schema, hschema, ?_⟩⟩
  refine bind_eq_ok.mpr ⟨manifest.version, rfl, bind_eq_ok.mpr ⟨manifest.publishedAt, rfl, ?_⟩⟩
  refine bind_eq_ok.mpr ⟨manifest.files, hfiles, bind_eq_ok.mpr ⟨manifest.signature, rfl, rfl⟩⟩

/-- A manifest with valid fields is verified under its signature. -/
theorem verifyManifest_manifestText {crates : Crates} {manifest : ContentManifest}
    {signature : List UInt8} (hsize : (manifestText manifest).length ≤ manifestLimit)
    (hparse : crates.parseJson (manifestText manifest) = .ok (manifestJson manifest))
    (hbase64 : crates.base64 manifest.signature = some signature)
    (hstrict : signature.length = 64 ∧
      crates.verifyStrict (canonicalManifestBytes (.object (unsignedEntries manifest))) signature)
    (hfields : validateManifestFields crates manifest = .ok ()) :
    verifyManifest crates (manifestText manifest) = .ok manifest := by
  have htaken : takeSignature (manifestJson manifest).toValue =
      some (manifest.signature, unsignedEntries manifest) := by
    rw [toValue_manifestJson]
    rfl
  refine bind_eq_ok.mpr ⟨(), ensure_eq_ok.mpr hsize, ?_⟩
  refine bind_eq_ok.mpr ⟨_, mapError_eq_ok.mpr hparse, ?_⟩
  refine bind_eq_ok.mpr ⟨_, okOr_eq_ok.mpr htaken, bind_eq_ok.mpr ⟨_, okOr_eq_ok.mpr hbase64, ?_⟩⟩
  refine bind_eq_ok.mpr ⟨(), ensure_eq_ok.mpr hstrict, ?_⟩
  refine bind_eq_ok.mpr ⟨_, mapError_eq_ok.mpr (decodeContentManifest_manifestJson manifest), ?_⟩
  exact bind_eq_ok.mpr ⟨(), hfields, rfl⟩

theorem sha256_firstItem (path : String) : (firstItem path).sha256.utf8ByteSize = 64 ∧
    (firstItem path).sha256.toList.all isAsciiHexdigit := by
  rw [show (firstItem path).sha256 = (firstItem "").sha256 from rfl]
  decide

theorem sha256_secondItem (path : String) : (secondItem path).sha256.utf8ByteSize = 64 ∧
    (secondItem path).sha256.toList.all isAsciiHexdigit := by
  rw [show (secondItem path).sha256 = (secondItem "").sha256 from rfl]
  decide

/-- An item with a valid path, size and digest, whose path is new. -/
theorem validateFile_eq_ok {crates : Crates} {paths : List String} {item : ContentFile}
    (hurl : validateHttpsUrl crates item.url = .ok ())
    (hpath : ∃ path, contentPath item.path = .ok path) (hsize : item.size.toNat ≤ fileLimit)
    (hdigest : item.sha256.utf8ByteSize = 64 ∧ item.sha256.toList.all isAsciiHexdigit)
    (hnew : toAsciiLowercase item.path ∉ paths) :
    validateFile crates paths item = .ok () := by
  obtain ⟨path, hpath⟩ := hpath
  refine bind_eq_ok.mpr ⟨path, hpath, bind_eq_ok.mpr ⟨(), hurl, ?_⟩⟩
  refine bind_eq_ok.mpr ⟨(), ensure_eq_ok.mpr hsize, ?_⟩
  exact bind_eq_ok.mpr ⟨(), ensure_eq_ok.mpr hdigest, ensure_eq_ok.mpr hnew⟩

/-- A manifest of the two sources has valid fields. -/
theorem validateManifestFields_sample {crates : Crates}
    (hurls : ∀ url, validateHttpsUrl crates url = .ok ()) (hschema : manifest.schema = 1)
    (hversion : validateVersion manifest.version = .ok ())
    (hfiles : manifest.files = [firstItem first, secondItem second])
    (hfirst : ∃ path, contentPath first = .ok path)
    (hsecond : ∃ path, contentPath second = .ok path)
    (hdistinct : toAsciiLowercase second ≠ toAsciiLowercase first) :
    validateManifestFields crates manifest = .ok () := by
  have hfirstFile : validateFile crates [] (firstItem first) = .ok () :=
    validateFile_eq_ok (hurls _) hfirst (show (27 : UInt64).toNat ≤ fileLimit by decide)
      (sha256_firstItem first) List.not_mem_nil
  have hsecondFile : validateFile crates [toAsciiLowercase first] (secondItem second) = .ok () :=
    validateFile_eq_ok (hurls _) hsecond (show (28 : UInt64).toNat ≤ fileLimit by decide)
      (sha256_secondItem second) fun hmem => hdistinct (List.mem_singleton.mp hmem)
  refine bind_eq_ok.mpr ⟨(), ensure_eq_ok.mpr hschema, bind_eq_ok.mpr ⟨(), hversion, ?_⟩⟩
  rw [hfiles]
  refine bind_eq_ok.mpr ⟨(), ensure_eq_ok.mpr (List.cons_ne_nil _ _), ?_⟩
  exact bind_eq_ok.mpr ⟨(), hfirstFile, bind_eq_ok.mpr ⟨(), hsecondFile, rfl⟩⟩

theorem validateHttpsUrl_sample (url : String) :
    validateHttpsUrl (sampleCrates manifest signature) url = .ok () :=
  bind_eq_ok.mpr ⟨_, rfl, ensure_eq_ok.mpr (by decide)⟩

/-- **A manifest with valid fields is verified** by the functions of the sample. -/
theorem verifyManifest_sample (hlength : signature.length = 64)
    (hshort : manifestBound manifest ≤ manifestLimit)
    (hfields : validateManifestFields (sampleCrates manifest signature) manifest = .ok ()) :
    verifyManifest (sampleCrates manifest signature) (manifestText manifest) = .ok manifest :=
  verifyManifest_manifestText ((length_manifestText_le _).trans hshort) rfl (if_pos rfl)
    ⟨hlength, decide_eq_true rfl⟩ hfields

/-- An item is written under its path. -/
def placeItem (item : ContentFile) (data : List UInt8) (staging : FileTree) :
    Except UpdateError FileTree := do
  let target ← contentPath item.path
  let staging ← (staging.createDirAll sampleNames (pathNames target).dropLast).mapError .io
  (writeContent sampleNames target data staging).mapError .io

theorem stageItem_of_valid {crates : Crates} {item : ContentFile} {data : List UInt8}
    {staging : FileTree} (h : validateContentBytes crates item data = .ok ()) :
    stageItem crates sampleNames staging item data = placeItem item data staging := by
  unfold stageItem placeItem
  rw [h]
  rfl

theorem stageItems_of_fetched {σ : Type} {crates : Crates} {names : FileNames} {fetch : Fetcher σ}
    {item : ContentFile} {items : List ContentFile} {data : List UInt8} {staging : FileTree}
    {s t : σ} (h : fetch item.url (fetchLimit item) s = (.ok data, t)) :
    stageItems crates names fetch (item :: items) staging s =
      match stageItem crates names staging item data with
      | .error error => (.error error, t)
      | .ok staging => stageItems crates names fetch items staging t := by
  have hturn : stageItems crates names fetch (item :: items) staging s =
      match fetch item.url (fetchLimit item) s with
      | (.error error, s) => (.error error, s)
      | (.ok data, s) =>
          match stageItem crates names staging item data with
          | .error error => (.error error, s)
          | .ok staging => stageItems crates names fetch items staging s := rfl
  rw [hturn, h]

/-- The sources of a manifest are written one after the other. -/
theorem stageItems_sample (first second : String) (staging : FileTree) :
    stageItems (sampleCrates manifest signature) sampleNames sampleFetch
        [firstItem first, secondItem second] staging () =
      (placeItem (firstItem first) (utf8 firstRule) staging >>=
        placeItem (secondItem second) (utf8 secondRule), ()) := by
  have hfirstLength : (utf8 firstRule).length = 27 := by decide
  have hsecondLength : (utf8 secondRule).length = 28 := by decide
  have hdata : utf8 secondRule ≠ utf8 firstRule := by decide
  have hurl : (secondItem "").url ≠ (firstItem "").url := by decide
  have hfirst : validateContentBytes (sampleCrates manifest signature) (firstItem first)
      (utf8 firstRule) = .ok () := by
    refine bind_eq_ok.mpr ⟨(), ensure_eq_ok.mpr hfirstLength, ensure_eq_ok.mpr ?_⟩
    rw [show (firstItem first).sha256 = (firstItem "").sha256 from rfl]
    dsimp only [sampleCrates]
    rw [if_pos rfl]
    exact beq_self_eq_true _
  have hsecond : validateContentBytes (sampleCrates manifest signature) (secondItem second)
      (utf8 secondRule) = .ok () := by
    refine bind_eq_ok.mpr ⟨(), ensure_eq_ok.mpr hsecondLength, ensure_eq_ok.mpr ?_⟩
    rw [show (secondItem second).sha256 = (secondItem "").sha256 from rfl]
    dsimp only [sampleCrates]
    rw [if_neg hdata]
    exact beq_self_eq_true _
  have hfetchFirst (limit : ℕ) :
      sampleFetch (firstItem first).url limit () = (.ok (utf8 firstRule), ()) := by
    rw [show (firstItem first).url = (firstItem "").url from rfl]
    unfold sampleFetch
    rw [if_pos rfl]
  have hfetchSecond (limit : ℕ) :
      sampleFetch (secondItem second).url limit () = (.ok (utf8 secondRule), ()) := by
    rw [show (secondItem second).url = (secondItem "").url from rfl]
    unfold sampleFetch
    rw [if_neg hurl]
  rw [stageItems_of_fetched (hfetchFirst _), stageItem_of_valid hfirst]
  cases placeItem (firstItem first) (utf8 firstRule) staging with
  | error error => rfl
  | ok staging =>
      dsimp only [bind, Except.bind]
      rw [stageItems_of_fetched (hfetchSecond _), stageItem_of_valid hsecond]
      cases placeItem (secondItem second) (utf8 secondRule) staging with
      | error error => rfl
      | ok staging => rfl

end sample

theorem rulesOnly_verified :
    verifyManifest (sampleCrates rulesOnlyManifest rulesOnlySignature)
      (manifestText rulesOnlyManifest) = .ok rulesOnlyManifest :=
  verifyManifest_sample rfl (by decide) (validateManifestFields_sample validateHttpsUrl_sample rfl
    (by decide) rfl ⟨_, rfl⟩ ⟨_, rfl⟩ (by decide))

theorem rulesOnly_installed :
    (sampleInstall rulesOnlyManifest rulesOnlySignature).1 = .ok "1.0" := by
  rw [sampleInstall, installWithFetcher, rulesOnly_verified]
  dsimp only
  rw [show rulesOnlyManifest.files = [firstItem "rules/a.yar", secondItem "rules/b.yar"] from rfl,
    stageItems_sample]
  decide +kernel

end OpenGuard.Updates
