import OpenGuard.Updates.Staging
import Mathlib.Data.List.Dedup
import Mathlib.Data.List.Find

/-!
# Every signed rule is loaded

A manifest may list rules at any depth under `rules`, with an extension in any case. The scanner of
a version has the files that lie directly in that directory, with the extension `yar` as it is
written there.

* `loads_signed_iff`: after an installation the scanner has every rule of the manifest, once, and
  nothing else, exactly when the manifest and the disk before meet `EveryRuleListed`.
-/

namespace OpenGuard.Updates

open OpenGuard.Lib OpenGuard.Lib.FileTree OpenGuard.Detection

/-- The path of the item lies under `rules`. -/
def isRule (item : ContentFile) : Bool := startsWith (replaceChar item.path '\\' '/') "rules/"

/-- The rule files of a manifest by their keys, each once. -/
def ruleFiles (names : FileNames) (manifest : ContentManifest) : List (List String) :=
  ((manifest.files.filter isRule).map (itemKey names)).dedup

/-- The key of a file in the directory of the rules. -/
def ruleKey (names : FileNames) (name : String) : List String := [names.key "rules", names.key name]

/-- The names in the directory of the rules that the scanner reads. -/
def listedRules (names : FileNames) (directory : Option FileTree) : List String :=
  (childNames names ["rules"] directory).filter fun name => fileExtension name = some "yar"

/-- The scanner of a version is compiled from the texts of the rule files of the manifest, each
once, and of no other file. -/
def LoadsSigned (crates : Crates) (names : FileNames) (manifest : ContentManifest)
    (version : String) (root : FileTree) : Prop :=
  ∃ scanner paths, scannerForVersion crates names root version = .ok scanner ∧
    rulePaths crates names (versionDirectory names version root) = .ok paths ∧
    (paths.map (ruleKey names)).Perm (ruleFiles names manifest) ∧
    List.Forall₂ (fun name source =>
      readToString names ["rules", name] (versionDirectory names version root) = .ok source)
      paths scanner.rules

/-- When the version is on the disk, the files with the extension `yar` in its directory of rules
are the rules of the manifest. When it is not, the first item of every rule file lies directly in
that directory, with the extension `yar` in lower case. -/
def EveryRuleListed (names : FileNames) (manifest : ContentManifest) (root : FileTree) : Prop :=
  match versionDirectory names manifest.version root with
  | some found =>
      ((listedRules names (some found)).map (ruleKey names)).Perm (ruleFiles names manifest)
  | none =>
      ∀ item ∈ manifest.files, isRule item → ∃ first name,
        manifest.files.find? (fun other => itemKey names other = itemKey names item) = some first ∧
          itemNames first = ["rules", name] ∧ fileExtension name = some "yar"

section items

variable {crates : Crates} {names : ContentNames} {item : ContentFile} {manifest : ContentManifest}
  {directory : Option FileTree}

theorem isRule_iff {path : String} (h : contentPath item.path = .ok path) :
    isRule item ↔ ∃ name rest, itemNames item = "rules" :: name :: rest := by
  obtain ⟨rfl, hfeed | ⟨hstart, hrules⟩⟩ := contentPath_cases h
  · have hnames : pathNames "reputation.json" = ["reputation.json"] := by decide
    rw [isRule, itemNames, hfeed, hnames]
    exact iff_of_false (by decide) (by simp)
  · exact iff_of_true hstart hrules

/-- What the scanner of a directory is compiled from. -/
theorem scannerFromDirectory_ok {scanner : FileScanner}
    (h : scannerFromDirectory crates names directory = .ok scanner) :
    ∃ paths, rulePaths crates names directory = .ok paths ∧
      List.Forall₂ (fun name source => readToString names ["rules", name] directory = .ok source)
        paths scanner.rules := by
  simp only [scannerFromDirectory, bind_eq_ok, mapError_eq_ok, mapM_eq_ok] at h
  obtain ⟨paths, hpaths, _, -, sources, hsources, hscanner⟩ := h
  exact ⟨paths, hpaths, (withRuleSources_rules hscanner).symm ▸ hsources⟩

/-- The scanner reads the listed rules, in some order. -/
theorem rulePaths_perm {paths : List String}
    (h : rulePaths crates names directory = .ok paths) :
    paths.Perm (listedRules names directory) := by
  simp only [rulePaths, bind_eq_ok, mapError_eq_ok, pure_eq_ok] at h
  obtain ⟨found, hfound, rfl⟩ := h
  have hchildren : childNames names ["rules"] directory = found := by
    unfold readDir at hfound
    unfold childNames
    rcases hlookup : lookup names ["rules"] directory with _ | ⟨content⟩ | ⟨entries⟩
    all_goals rw [hlookup] at hfound
    · cases hfound
    · cases hfound
    · exact Except.ok.inj hfound
  rw [listedRules, hchildren]
  exact List.perm_insertionSort _ _

/-- A listed rule of a valid directory is a file. -/
theorem exists_fileAt_of_listed {name : String}
    (hvalid : validateContentDirectory crates names directory = .ok ())
    (h : name ∈ listedRules names directory) :
    ∃ data, fileAt names ["rules", name] directory = some data := by
  obtain ⟨scanner, hscanner, -⟩ := bind_eq_ok.mp hvalid
  obtain ⟨paths, hpaths, hsources⟩ := scannerFromDirectory_ok hscanner
  have hmem := (rulePaths_perm hpaths).mem_iff.mpr h
  obtain ⟨source, -, hread⟩ := exists_of_forall₂ hsources hmem
  obtain ⟨data, hdata, -⟩ := bind_eq_ok.mp hread
  exact ⟨data, read_eq_ok.mp hdata⟩

/-- After an installation the scanner is there, so that the listed rules decide. -/
theorem loadsSigned_iff_perm {version : String} {root : FileTree}
    (hversion : validateVersion version = .ok ())
    (hvalid : validateContentDirectory crates names (versionDirectory names version root) =
      .ok ()) :
    LoadsSigned crates names manifest version root ↔
      ((listedRules names (versionDirectory names version root)).map (ruleKey names)).Perm
        (ruleFiles names manifest) := by
  obtain ⟨scanner, hscanner, -⟩ := bind_eq_ok.mp hvalid
  obtain ⟨paths, hpaths, hsources⟩ := scannerFromDirectory_ok hscanner
  have hperm := (rulePaths_perm hpaths).map (ruleKey names)
  constructor
  · rintro ⟨_, paths', -, hpaths', hfiles, -⟩
    obtain rfl := Except.ok.inj (hpaths.symm.trans hpaths')
    exact hperm.symm.trans hfiles
  · intro hfiles
    refine ⟨scanner, paths, ?_, hpaths, hperm.trans hfiles, hsources⟩
    rw [scannerForVersion, bind_eq_ok]
    exact ⟨(), hversion, hscanner⟩

end items

/-! ## A version that is staged -/

section staged

variable {crates : Crates} {names : ContentNames} {manifest : ContentManifest}
  {delivered : List (ContentFile × List UInt8)} {staging : FileTree}

theorem listedRules_staged (hdelivered : delivered.map Prod.fst = manifest.files)
    (hstaged : Staged crates names delivered (.directory []) staging) :
    listedRules names (some staging) =
      ((manifest.files.filterMap ruleName?).foldl (addName names) []).filter fun name =>
        fileExtension name = some "yar" := by
  rw [listedRules, hstaged.children, ← hdelivered, List.filterMap_map]
  rfl

/-- The listed rules have different keys, -/
theorem nodup_listedRules (hdelivered : delivered.map Prod.fst = manifest.files)
    (hstaged : Staged crates names delivered (.directory []) staging) :
    ((listedRules names (some staging)).map (ruleKey names)).Nodup := by
  rw [listedRules_staged hdelivered hstaged]
  have hkeys : (((manifest.files.filterMap ruleName?).foldl (addName names) []).map
      names.key).Nodup := nodup_foldl_addName _ List.nodup_nil
  have hfiltered := hkeys.sublist (List.filter_sublist
    (p := fun name => decide (fileExtension name = some "yar")).map names.key)
  have hinjective : Function.Injective fun key : String => [names.key "rules", key] := by
    intro key other h
    simpa using h
  have hmap := hfiltered.map hinjective
  rwa [List.map_map] at hmap

/-- and each is a rule of the manifest. -/
theorem ruleKey_mem_ruleFiles {name : String} (hmanifest : manifest.Valid)
    (hdelivered : delivered.map Prod.fst = manifest.files)
    (hstaged : Staged crates names delivered (.directory []) staging)
    (hvalid : validateContentDirectory crates names (some staging) = .ok ())
    (h : name ∈ listedRules names (some staging)) :
    ruleKey names name ∈ ruleFiles names manifest := by
  obtain ⟨data, hdata⟩ := exists_fileAt_of_listed hvalid h
  rw [hstaged.file] at hdata
  cases hlast : delivered.reverse.find? fun download =>
      itemKey names download.1 = ["rules", name].map names.key with
  | none =>
      rw [hlast] at hdata
      cases hdata
  | some last =>
      have hmem := List.mem_reverse.mp (List.mem_of_find?_eq_some hlast)
      have hkey : itemKey names last.1 = ruleKey names name := by
        simpa [ruleKey] using List.find?_some hlast
      have hitem : last.1 ∈ manifest.files := hdelivered ▸ List.mem_map_of_mem hmem
      obtain ⟨path, hpath⟩ := hmanifest.paths last.1 hitem
      refine List.mem_dedup.mpr (List.mem_map.mpr
        ⟨last.1, List.mem_filter.mpr ⟨hitem, (isRule_iff hpath).mpr ?_⟩, hkey⟩)
      rcases (itemNames_cases hpath).2 with hfeed | hrules
      · rw [itemKey, hfeed] at hkey
        exact absurd (congrArg List.length hkey) (by simp [ruleKey])
      · exact hrules

/-- A rule whose key is that of a file in the directory of the rules lies directly in it. -/
theorem itemNames_of_key {item : ContentFile} {name : String} (hmanifest : manifest.Valid)
    (hitem : item ∈ manifest.files) (hkey : itemKey names item = ruleKey names name) :
    ∃ spelling, itemNames item = ["rules", spelling] ∧ names.key spelling = names.key name := by
  obtain ⟨path, hpath⟩ := hmanifest.paths item hitem
  rcases (itemNames_cases hpath).2 with hfeed | ⟨spelling, rest, hrules⟩
  · rw [itemKey, hfeed] at hkey
    exact absurd (congrArg List.length hkey) (by simp [ruleKey])
  · rw [itemKey, hrules, ruleKey] at hkey
    obtain ⟨hspelling, hrest⟩ : names.key spelling = names.key name ∧ rest = [] := by
      simpa using hkey
    exact ⟨spelling, hrest ▸ hrules, hspelling⟩

/-- The first spelling of a rule is that of the first item of its file, when every rule lies
directly in the directory of the rules. -/
theorem find?_ruleName? {item : ContentFile} {name : String} (hmanifest : manifest.Valid)
    (hdirect : ∀ other ∈ manifest.files, isRule other →
      ∃ name, itemKey names other = ruleKey names name)
    (hkey : itemKey names item = ruleKey names name) :
    (manifest.files.filterMap ruleName?).find? (fun other => names.key other = names.key name) =
      (manifest.files.find? fun other => itemKey names other = itemKey names item).bind
        ruleName? := by
  rw [List.find?_filterMap, hkey]
  have hsame : ∀ other ∈ manifest.files,
      ((ruleName? other).any fun spelling => names.key spelling = names.key name) =
        decide (itemKey names other = ruleKey names name) := by
    intro other hother
    obtain ⟨path, hpath⟩ := hmanifest.paths other hother
    by_cases hrule : isRule other
    · obtain ⟨_, hotherKey⟩ := hdirect other hother hrule
      obtain ⟨spelling, hnames, -⟩ := itemNames_of_key hmanifest hother hotherKey
      simp [ruleName?, itemKey, hnames, ruleKey]
    · have hfeed := (itemNames_cases hpath).2.resolve_right fun h =>
        hrule ((isRule_iff hpath).mpr h)
      simp [ruleName?, itemKey, hfeed, ruleKey]
  rw [List.find?_congr hsame]

/-- The listed rules are those of the manifest exactly when the first item of each rule file is
spelled as the scanner reads it. -/
theorem listed_perm_iff (hmanifest : manifest.Valid)
    (hdelivered : delivered.map Prod.fst = manifest.files)
    (hstaged : Staged crates names delivered (.directory []) staging)
    (hvalid : validateContentDirectory crates names (some staging) = .ok ()) :
    ((listedRules names (some staging)).map (ruleKey names)).Perm (ruleFiles names manifest) ↔
      ∀ item ∈ manifest.files, isRule item → ∃ first name,
        manifest.files.find? (fun other => itemKey names other = itemKey names item) = some first ∧
          itemNames first = ["rules", name] ∧ fileExtension name = some "yar" := by
  have hlisted : ∀ name, name ∈ listedRules names (some staging) ↔
      (manifest.files.filterMap ruleName?).find? (fun other => names.key other = names.key name) =
        some name ∧ fileExtension name = some "yar" := by
    intro name
    rw [listedRules_staged hdelivered hstaged, List.mem_filter, mem_foldl_addName,
      decide_eq_true_eq]
  rw [ruleFiles, List.perm_ext_iff_of_nodup (nodup_listedRules hdelivered hstaged)
    (List.nodup_dedup _)]
  constructor
  · intro h item hitem hrule
    have hfile : ∀ other ∈ manifest.files, isRule other →
        ∃ name ∈ listedRules names (some staging), ruleKey names name = itemKey names other := by
      intro other hother hotherRule
      exact List.mem_map.mp ((h _).mpr (List.mem_dedup.mpr
        (List.mem_map_of_mem (List.mem_filter.mpr ⟨hother, hotherRule⟩))))
    obtain ⟨name, hname, hkey⟩ := hfile item hitem hrule
    obtain ⟨hfind, hextension⟩ := (hlisted name).mp hname
    rw [find?_ruleName? hmanifest (fun other hother hotherRule =>
      (hfile other hother hotherRule).imp fun _ h => h.2.symm) hkey.symm] at hfind
    obtain ⟨first, hfirst, hspelling⟩ := Option.bind_eq_some_iff.mp hfind
    have hfirstKey : itemKey names first = itemKey names item := by
      simpa using List.find?_some hfirst
    obtain ⟨spelling, hnames, -⟩ := itemNames_of_key hmanifest
      (List.mem_of_find?_eq_some hfirst) (hfirstKey.trans hkey.symm)
    rw [ruleName?, hnames] at hspelling
    obtain rfl : spelling = name := Option.some.inj hspelling
    exact ⟨first, spelling, hfirst, hnames, hextension⟩
  · intro h key
    have hdirect : ∀ item ∈ manifest.files, isRule item →
        ∃ name, itemKey names item = ruleKey names name := by
      intro item hitem hrule
      obtain ⟨first, name, hfirst, hnames, -⟩ := h item hitem hrule
      have hkey : itemKey names first = itemKey names item := by
        simpa using List.find?_some hfirst
      exact ⟨name, by rw [← hkey, itemKey, hnames]; rfl⟩
    constructor
    · intro hkey
      obtain ⟨name, hname, rfl⟩ := List.mem_map.mp hkey
      exact ruleKey_mem_ruleFiles hmanifest hdelivered hstaged hvalid hname
    · intro hkey
      obtain ⟨item, hmem, rfl⟩ := List.mem_map.mp (List.mem_dedup.mp hkey)
      obtain ⟨hitem, hrule⟩ := List.mem_filter.mp hmem
      obtain ⟨first, name, hfirst, hnames, hextension⟩ := h item hitem hrule
      have hfirstKey : itemKey names first = itemKey names item := by
        simpa using List.find?_some hfirst
      have hkey : itemKey names item = ruleKey names name := by
        rw [← hfirstKey, itemKey, hnames]
        rfl
      refine List.mem_map.mpr ⟨name, (hlisted name).mpr ⟨?_, hextension⟩, hkey.symm⟩
      rw [find?_ruleName? hmanifest hdirect hkey, hfirst, Option.bind_some, ruleName?, hnames]
      rfl

end staged

/-- The listed rules of a version that was there are those before the installation. -/
theorem listedRules_found {names : ContentNames} {version : String} {root after : FileTree}
    (h : createDirAll names ["versions"] root = .ok after) :
    listedRules names (versionDirectory names version after) =
      listedRules names (versionDirectory names version root) := by
  have hchildren : ∀ tree, childNames names ["rules"] (versionDirectory names version tree) =
      childNames names (versionPath version ++ ["rules"]) (some tree) := by
    intro tree
    rw [childNames, childNames, versionDirectory, lookup_append]
  rw [listedRules, listedRules, hchildren, hchildren]
  cases hpath : versionPath version ++ ["rules"] with
  | nil => exact absurd hpath (by simp)
  | cons first rest => rw [childNames_createDirAll_single h]

/-- **Every signed rule is loaded, exactly when the scanner lists every rule of the manifest.** -/
theorem loads_signed_iff {σ : Type} (crates : Crates) (names : ContentNames)
    (manifestBytes : List UInt8) (manifest : ContentManifest) (fetch : Fetcher σ)
    (root after : FileTree) (s t : σ) (version : String)
    (hmanifest : verifyManifest crates manifestBytes = .ok manifest)
    (hinstall : installWithFetcher crates names manifestBytes fetch root s =
      (.ok version, after, t)) :
    LoadsSigned crates names manifest version after ↔ EveryRuleListed names manifest root := by
  obtain ⟨rfl, hinstalled⟩ := installed_cases hmanifest hinstall
  have hvalid := verifyManifest_valid hmanifest
  rw [loadsSigned_iff_perm hvalid.version hinstalled.validateContentDirectory, EveryRuleListed]
  cases hinstalled with
  | found existed valid opened =>
      obtain ⟨directory, hroot⟩ := Option.isSome_iff_exists.mp existed
      rw [listedRules_found opened, hroot]
  | staged staging installed absent delivered staged valid same placed versions =>
      have hlisted : listedRules names (some installed) = listedRules names (some staging) := by
        rw [listedRules, listedRules, childNames, childNames,
          same "rules" [] names.rules_ne_manifest]
      rw [placed, hlisted, absent]
      exact listed_perm_iff hvalid delivered staged valid

/-! ## An extension in upper case -/

/-- A manifest of two rules, one with an extension in upper case, under the same key. -/
def upperCaseManifest : ContentManifest :=
  sampleManifest "rules/a.yar" "rules/b.YAR"
    ("MZwmVfgZWYlyrIKcwzFEp/RzRORL1DhPPPdGQpbJafOjoSdWMwhuZw6lvFcYWODXRTaBSBt2b/SlhjE1BzuiCQ==")

/-- Its signature. -/
def upperCaseSignature : List UInt8 :=
  [49, 156, 38, 85, 248, 25, 89, 137, 114, 172, 130, 156, 195, 49, 68, 167, 244, 115, 68, 228, 75,
    212, 56, 79, 60, 247, 70, 66, 150, 201, 105, 243, 163, 161, 39, 86, 51, 8, 110, 103, 14, 165,
    188, 87, 24, 88, 224, 215, 69, 54, 129, 72, 27, 118, 111, 244, 165, 134, 49, 53, 7, 59, 162, 9]

theorem upperCase_verified :
    verifyManifest (sampleCrates upperCaseManifest upperCaseSignature)
      (manifestText upperCaseManifest) = .ok upperCaseManifest :=
  verifyManifest_sample rfl (by decide) (validateManifestFields_sample validateHttpsUrl_sample rfl
    (by decide) rfl ⟨_, rfl⟩ ⟨_, rfl⟩ (by decide))

/-- The installation, with the two sources written one after the other. -/
theorem upperCase_staged :
    stageItems (sampleCrates upperCaseManifest upperCaseSignature) sampleNames sampleFetch
        upperCaseManifest.files (.directory []) () =
      (placeItem (firstItem "rules/a.yar") (utf8 firstRule) (.directory []) >>=
        placeItem (secondItem "rules/b.YAR") (utf8 secondRule), ()) :=
  stageItems_sample _ _ _

/-- The installation succeeds; what the scanner lists, and both files. -/
theorem upperCase_directory :
    (sampleInstall upperCaseManifest upperCaseSignature).1 = .ok "1.0" ∧
    rulePaths (sampleCrates upperCaseManifest upperCaseSignature) sampleNames
      (versionDirectory sampleNames "1.0"
        (sampleInstall upperCaseManifest upperCaseSignature).2.1) = .ok ["a.yar"] ∧
    FileTree.read sampleNames ["rules", "a.yar"] (versionDirectory sampleNames "1.0"
      (sampleInstall upperCaseManifest upperCaseSignature).2.1) = .ok (utf8 firstRule) ∧
    FileTree.read sampleNames ["rules", "b.YAR"] (versionDirectory sampleNames "1.0"
      (sampleInstall upperCaseManifest upperCaseSignature).2.1) = .ok (utf8 secondRule) ∧
    (ruleFiles sampleNames upperCaseManifest).length = 2 := by
  rw [sampleInstall, installWithFetcher, upperCase_verified]
  dsimp only
  rw [upperCase_staged]
  decide +kernel

theorem upperCase_installed :
    (sampleInstall upperCaseManifest upperCaseSignature).1 = .ok "1.0" := upperCase_directory.1

theorem loads_signed_iff_upperCase :
    LoadsSigned (sampleCrates upperCaseManifest upperCaseSignature) sampleNames upperCaseManifest
        "1.0" (sampleInstall upperCaseManifest upperCaseSignature).2.1 ↔
      EveryRuleListed sampleNames upperCaseManifest (.directory []) :=
  loads_signed_iff (sampleCrates upperCaseManifest upperCaseSignature) sampleNames
    (manifestText upperCaseManifest) upperCaseManifest sampleFetch (.directory [])
    (sampleInstall upperCaseManifest upperCaseSignature).2.1 () () "1.0" upperCase_verified
    (sampleInstall_eq upperCase_installed)

/-- The installation succeeds, both rules are on the disk, and the scanner has the first one. -/
theorem signed_rule_not_loaded :
    verifyManifest (sampleCrates upperCaseManifest upperCaseSignature)
      (manifestText upperCaseManifest) = .ok upperCaseManifest ∧
    (sampleInstall upperCaseManifest upperCaseSignature).1 = .ok "1.0" ∧
    readToString sampleNames ["rules", "b.YAR"] (versionDirectory sampleNames "1.0"
      (sampleInstall upperCaseManifest upperCaseSignature).2.1) = .ok secondRule ∧
    (scannerForVersion (sampleCrates upperCaseManifest upperCaseSignature) sampleNames
      (sampleInstall upperCaseManifest upperCaseSignature).2.1 "1.0").map (·.rules) =
        .ok [firstRule] ∧
    ¬LoadsSigned (sampleCrates upperCaseManifest upperCaseSignature) sampleNames upperCaseManifest
      "1.0" (sampleInstall upperCaseManifest upperCaseSignature).2.1 := by
  obtain ⟨-, hpaths, hfirst, hsecond, hlength⟩ := upperCase_directory
  refine ⟨upperCase_verified, upperCase_installed, ?_, ?_, ?_⟩
  · rw [readToString, bind_eq_ok]
    exact ⟨_, hsecond, okOr_eq_ok.mpr (fromUTF8?_utf8 secondRule)⟩
  · have hsource : readToString sampleNames ["rules", "a.yar"] (versionDirectory sampleNames "1.0"
        (sampleInstall upperCaseManifest upperCaseSignature).2.1) = .ok firstRule := by
      rw [readToString, bind_eq_ok]
      exact ⟨_, hfirst, okOr_eq_ok.mpr (fromUTF8?_utf8 firstRule)⟩
    have hsources : (["a.yar"].mapM fun name => readToString sampleNames ["rules", name]
        (versionDirectory sampleNames "1.0"
          (sampleInstall upperCaseManifest upperCaseSignature).2.1)) = .ok [firstRule] :=
      mapM_eq_ok.mpr (.cons hsource .nil)
    obtain ⟨scanner, hscanner, hrules⟩ : ∃ scanner,
        FileScanner.withRuleSources (sampleCrates upperCaseManifest upperCaseSignature).checkRules
          [firstRule] = .ok scanner ∧ scanner.rules = [firstRule] := ⟨_, rfl, rfl⟩
    refine map_eq_ok.mpr ⟨scanner, ?_, hrules⟩
    rw [scannerForVersion, bind_eq_ok]
    refine ⟨(), by decide, bind_eq_ok.mpr ⟨_, hpaths, bind_eq_ok.mpr ⟨(), ?_, ?_⟩⟩⟩
    · exact ensure_eq_ok.mpr (by decide)
    · exact bind_eq_ok.mpr ⟨_, mapError_eq_ok.mpr hsources, mapError_eq_ok.mpr hscanner⟩
  · rintro ⟨scanner, paths, -, hpaths', hperm, -⟩
    obtain rfl := Except.ok.inj (hpaths.symm.trans hpaths')
    exact absurd (hperm.length_eq.trans hlength) (by decide)

end OpenGuard.Updates
