import OpenGuard.Updates.Staging
import OpenGuard.Windows.Reputation
import Mathlib.Data.List.Find

/-!
# Installed content can be activated

The activation of a version compiles its rules and parses its reputation feed. The installation
checks the rules in the same way; of the feed it checks the schema and that there is a list of
entries, and only when there is a feed.

* `scannerForVersion_installed`: the rules of an installed version are compiled.
* `activatable_iff`: the version can be activated exactly when it has a feed, in the manifest or
  on the disk before, that the parser takes.
-/

namespace OpenGuard.Updates

open OpenGuard.Lib OpenGuard.Lib.FileTree OpenGuard.Detection OpenGuard.Windows

/-- The steps of the activation of a version succeed; `shown` is the text of the path of its feed.
Source: `main.rs`, `ServiceState::install_content_update` -/
def Activatable (crates : Crates) (names : FileNames) (shown version : String)
    (root : FileTree) : Prop :=
  (∃ scanner, scannerForVersion crates names root version = .ok scanner) ∧
    ∃ feed, ReputationFeed.fromPath crates.parseJson crates.describe names crates.ioText shown
      (versionPath version ++ ["reputation.json"]) root = .ok feed

/-- The reputation feed of a version: the file on the disk, when the version is there, and otherwise
what the fetcher delivers for the item of that path. -/
def feedData {σ : Type} (names : FileNames) (manifest : ContentManifest) (fetch : Fetcher σ)
    (root : FileTree) (s : σ) : Option (List UInt8) :=
  match versionDirectory names manifest.version root with
  | some found => fileAt names ["reputation.json"] (some found)
  | none =>
      ((downloads fetch manifest.files s).find? fun download =>
        download.1.path = "reputation.json").map Prod.snd

section feed

variable {crates : Crates} {names : ContentNames} {manifest : ContentManifest}
  {directory : Option FileTree} {data : List UInt8} {version : String} {root : FileTree}

/-- Where a character does not appear, none was replaced by it. -/
theorem eq_of_replaceChar {s t : String} {a b : Char} (h : replaceChar s a b = t)
    (hb : b ∉ t.toList) : s = t := by
  have hchars : (s.toList.map fun c => if c = a then b else c) = t.toList := by
    rw [← h, replaceChar, String.toList_ofList]
  have hsame : (s.toList.map fun c => if c = a then b else c) = s.toList := by
    refine (List.map_congr_left fun c hc => if_neg ?_).trans (List.map_id' _)
    rintro rfl
    exact hb (hchars ▸ List.mem_map.mpr ⟨c, hc, if_pos rfl⟩)
  exact String.toList_inj.mp (hsame.symm.trans hchars)

/-- From either end, an item with a value that no other one has is the same. -/
theorem find?_reverse {α β : Type} [DecidableEq β] {f : α → β} {l : List α}
    (h : (l.map f).Nodup) (b : β) :
    (l.reverse.find? fun a => f a = b) = l.find? fun a => f a = b := by
  induction l with
  | nil => rfl
  | cons a l ih =>
      obtain ⟨hnot, hrest⟩ := List.nodup_cons.mp h
      rw [List.reverse_cons, List.find?_append, ih hrest]
      by_cases ha : f a = b
      · have hnone : (l.find? fun a => f a = b) = none := by
          refine List.find?_eq_none.mpr fun other hother => ?_
          have hne : f other ≠ b := fun heq =>
            hnot (List.mem_map.mpr ⟨other, hother, heq.trans ha.symm⟩)
          simpa using hne
        simp [ha, hnone]
      · simp [ha]

/-- An accepted item has the key of the feed exactly when it has its path. -/
theorem itemKey_eq_reputation_iff {item : ContentFile} {path : String}
    (h : contentPath item.path = .ok path) :
    itemKey names item = ["reputation.json"].map names.key ↔ item.path = "reputation.json" := by
  obtain ⟨rfl, hfeed | ⟨hstart, name, rest, hrules⟩⟩ := contentPath_cases h
  · have hnames : pathNames "reputation.json" = ["reputation.json"] := by decide
    refine iff_of_true ?_ (eq_of_replaceChar hfeed (by decide))
    rw [itemKey, itemNames, hfeed, hnames]
  · refine iff_of_false (fun hkey => ?_) (fun hpath => ?_)
    · rw [itemKey, itemNames, hrules] at hkey
      exact absurd (congrArg List.length hkey) (by simp)
    · rw [hpath] at hstart
      exact absurd hstart (by decide)

theorem validateReputation_of_fileAt
    (hvalid : validateContentDirectory crates names directory = .ok ())
    (h : fileAt names ["reputation.json"] directory = some data) :
    validateReputation crates data = .ok () := by
  obtain ⟨_, -, hfeed⟩ := bind_eq_ok.mp hvalid
  have hexists : pathExists names ["reputation.json"] directory := by
    unfold fileAt at h
    unfold pathExists
    cases hlookup : lookup names ["reputation.json"] directory with
    | none =>
        rw [hlookup] at h
        cases h
    | some found => rfl
  rw [if_pos hexists, bind_eq_ok] at hfeed
  obtain ⟨read, hread, hchecked⟩ := hfeed
  rw [read_eq_ok.mp (mapError_eq_ok.mp hread), Option.some_inj] at h
  exact h ▸ hchecked

/-- A feed that was checked in the staging directory is taken when its document is accepted. -/
theorem exists_fromJson_of_checked (h : validateReputation crates data = .ok ()) :
    (∃ feed, ReputationFeed.fromJson crates.parseJson crates.describe data = .ok feed) ↔
      ∃ fields, crates.parseJson data = .ok (.object fields) ∧ DocumentAccepted fields := by
  simp only [validateReputation, bind_eq_ok, mapError_eq_ok, ensure_eq_ok] at h
  obtain ⟨text, hparse, hschema, hentries⟩ := h
  rw [exists_fromJson_iff hparse hschema hentries]
  simp only [hparse, Except.ok.injEq]

/-- The feed of an installed version is the one that was there or was delivered. -/
theorem fileAt_installed {σ : Type} {fetch : Fetcher σ} {manifestBytes : List UInt8}
    {after : FileTree} {s : σ} (hmanifest : manifest.Valid)
    (h : Installed crates names manifestBytes manifest fetch root s after) :
    fileAt names ["reputation.json"] (versionDirectory names manifest.version after) =
      feedData names manifest fetch root s := by
  unfold feedData
  cases h with
  | found existed valid opened =>
      obtain ⟨directory, hroot⟩ := Option.isSome_iff_exists.mp existed
      have hfile := fileAt_createDirAll opened
        (versionPath manifest.version ++ ["reputation.json"])
      rw [fileAt, fileAt, lookup_append, lookup_append] at hfile
      rw [hroot]
      exact hfile.trans (congrArg (fileAt names ["reputation.json"]) hroot)
  | staged staging installed absent delivered staged valid same placed versions =>
      have hpaths : ((downloads fetch manifest.files s).map fun download =>
          download.1.path).Nodup := by
        have hlower := hmanifest.nodup
        rw [← delivered, List.map_map] at hlower
        exact List.Nodup.of_map toAsciiLowercase (by rwa [List.map_map])
      have hkey : ∀ download ∈ (downloads fetch manifest.files s).reverse,
          decide (itemKey names download.1 = ["reputation.json"].map names.key) =
            decide (download.1.path = "reputation.json") := by
        intro download hmem
        obtain ⟨path, hpath⟩ := hmanifest.paths download.1
          (delivered ▸ List.mem_map_of_mem (List.mem_reverse.mp hmem))
        exact decide_eq_decide.mpr (itemKey_eq_reputation_iff hpath)
      have hfile : fileAt names ["reputation.json"] (some installed) =
          fileAt names ["reputation.json"] (some staging) := by
        rw [fileAt, fileAt, same _ _ names.reputation_ne_manifest]
      rw [placed, absent, hfile, staged.file, List.find?_congr hkey, find?_reverse hpaths]
      exact Option.or_none

end feed

/-- The rules of an installed version are compiled. -/
theorem scannerForVersion_installed {crates : Crates} {names : ContentNames} {version : String}
    {root : FileTree} (hversion : validateVersion version = .ok ())
    (hvalid : validateContentDirectory crates names (versionDirectory names version root) =
      .ok ()) :
    ∃ scanner, scannerForVersion crates names root version = .ok scanner := by
  obtain ⟨scanner, hscanner, -⟩ := bind_eq_ok.mp hvalid
  exact ⟨scanner, bind_eq_ok.mpr ⟨(), hversion, hscanner⟩⟩

/-- **An installed version can be activated exactly when it has a reputation feed that is
accepted.** -/
theorem activatable_iff {σ : Type} (crates : Crates) (names : ContentNames)
    (manifestBytes : List UInt8) (manifest : ContentManifest) (fetch : Fetcher σ)
    (root after : FileTree) (s t : σ) (shown version : String)
    (hmanifest : verifyManifest crates manifestBytes = .ok manifest)
    (hinstall : installWithFetcher crates names manifestBytes fetch root s =
      (.ok version, after, t)) :
    Activatable crates names shown version after ↔
      ∃ data fields, feedData names manifest fetch root s = some data ∧
        crates.parseJson data = .ok (.object fields) ∧ DocumentAccepted fields := by
  obtain ⟨rfl, hinstalled⟩ := installed_cases hmanifest hinstall
  have hvalid := verifyManifest_valid hmanifest
  have hdirectory := hinstalled.validateContentDirectory
  have hread : ∀ data, FileTree.read names (versionPath manifest.version ++ ["reputation.json"])
      (some after) = .ok data ↔ feedData names manifest fetch root s = some data := by
    intro data
    rw [read_eq_ok, fileAt, lookup_append, ← fileAt_installed hvalid hinstalled]
    rfl
  rw [Activatable, and_iff_right (scannerForVersion_installed hvalid.version hdirectory)]
  simp only [ReputationFeed.fromPath, bind_eq_ok, mapError_eq_ok, hread]
  have htaken : ∀ data, feedData names manifest fetch root s = some data →
      ((∃ feed, ReputationFeed.fromJson crates.parseJson crates.describe data = .ok feed) ↔
        ∃ fields, crates.parseJson data = .ok (.object fields) ∧ DocumentAccepted fields) := by
    intro data hdata
    rw [← fileAt_installed hvalid hinstalled] at hdata
    exact exists_fromJson_of_checked (validateReputation_of_fileAt hdirectory hdata)
  constructor
  · rintro ⟨feed, data, hdata, hfeed⟩
    obtain ⟨fields, hfields⟩ := (htaken data hdata).mp ⟨feed, hfeed⟩
    exact ⟨data, fields, hdata, hfields⟩
  · rintro ⟨data, fields, hdata, hfields⟩
    obtain ⟨feed, hfeed⟩ := (htaken data hdata).mpr ⟨fields, hfields⟩
    exact ⟨feed, data, hdata, hfeed⟩

/-! ## A manifest without a feed -/

theorem activatable_iff_rulesOnly :
    Activatable (sampleCrates rulesOnlyManifest rulesOnlySignature) sampleNames
        "content\\versions\\1.0\\reputation.json" "1.0"
        (sampleInstall rulesOnlyManifest rulesOnlySignature).2.1 ↔
      ∃ data fields, feedData sampleNames rulesOnlyManifest sampleFetch (.directory []) () =
          some data ∧
        (sampleCrates rulesOnlyManifest rulesOnlySignature).parseJson data = .ok (.object fields) ∧
        DocumentAccepted fields :=
  activatable_iff (sampleCrates rulesOnlyManifest rulesOnlySignature) sampleNames
    (manifestText rulesOnlyManifest) rulesOnlyManifest sampleFetch (.directory [])
    (sampleInstall rulesOnlyManifest rulesOnlySignature).2.1 () ()
    "content\\versions\\1.0\\reputation.json" "1.0" rulesOnly_verified
    (sampleInstall_eq rulesOnly_installed)

/-- There is no feed to read. -/
theorem rulesOnly_read :
    FileTree.read sampleNames (versionPath "1.0" ++ ["reputation.json"])
      (some (sampleInstall rulesOnlyManifest rulesOnlySignature).2.1) = .error .notFound := by
  rw [sampleInstall, installWithFetcher, rulesOnly_verified]
  decide +kernel

/-- The installation succeeds and the rules are compiled, but the activation fails at the feed. -/
theorem installed_without_feed :
    verifyManifest (sampleCrates rulesOnlyManifest rulesOnlySignature)
      (manifestText rulesOnlyManifest) = .ok rulesOnlyManifest ∧
    (sampleInstall rulesOnlyManifest rulesOnlySignature).1 = .ok "1.0" ∧
    ReputationFeed.fromPath (sampleCrates rulesOnlyManifest rulesOnlySignature).parseJson
      (sampleCrates rulesOnlyManifest rulesOnlySignature).describe sampleNames
      (sampleCrates rulesOnlyManifest rulesOnlySignature).ioText
      "content\\versions\\1.0\\reputation.json" (versionPath "1.0" ++ ["reputation.json"])
      (sampleInstall rulesOnlyManifest rulesOnlySignature).2.1 =
        .error (.api "read reputation feed content\\versions\\1.0\\reputation.json: ") ∧
    ¬Activatable (sampleCrates rulesOnlyManifest rulesOnlySignature) sampleNames
      "content\\versions\\1.0\\reputation.json" "1.0"
      (sampleInstall rulesOnlyManifest rulesOnlySignature).2.1 := by
  have hfeed : ReputationFeed.fromPath
      (sampleCrates rulesOnlyManifest rulesOnlySignature).parseJson
      (sampleCrates rulesOnlyManifest rulesOnlySignature).describe sampleNames
      (sampleCrates rulesOnlyManifest rulesOnlySignature).ioText
      "content\\versions\\1.0\\reputation.json" (versionPath "1.0" ++ ["reputation.json"])
      (sampleInstall rulesOnlyManifest rulesOnlySignature).2.1 =
        .error (.api "read reputation feed content\\versions\\1.0\\reputation.json: ") := by
    rw [ReputationFeed.fromPath, rulesOnly_read]
    rfl
  refine ⟨rulesOnly_verified, rulesOnly_installed, hfeed, ?_⟩
  rintro ⟨-, feed, htaken⟩
  rw [hfeed] at htaken
  cases htaken

end OpenGuard.Updates
