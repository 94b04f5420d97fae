import OpenGuard.Updates.Staging

/-!
# Installed content is what was signed

The files of a manifest are checked one by one before they are written. Two items with different
paths may name one file, which then holds what was delivered for the last of them.

* `installs_signed_iff`: after an installation every item names a file with its size and digest, and
  the version is accepted once more, exactly when the items that name one file agree.
-/

namespace OpenGuard.Updates

open OpenGuard.Lib OpenGuard.Lib.FileTree

/-- Items that name one file declare the same size and the same digest. -/
def FilesAgree (names : FileNames) (manifest : ContentManifest) : Prop :=
  ∀ a ∈ manifest.files, ∀ b ∈ manifest.files, itemKey names a = itemKey names b →
    a.size = b.size ∧ eqIgnoreAsciiCase a.sha256 b.sha256

/-- The same manifest is installed once more, with any fetcher, which is not called. -/
def Reinstalls (crates : Crates) (names : FileNames) (manifestBytes : List UInt8)
    (version : String) (root : FileTree) : Prop :=
  ∀ (τ : Type) (fetch : Fetcher τ) (s : τ),
    installWithFetcher crates names manifestBytes fetch root s = (.ok version, root, s)

section signed

variable {σ : Type} {crates : Crates} {names : ContentNames} {manifestBytes : List UInt8}
  {manifest : ContentManifest} {root : FileTree} {directory : Option FileTree}

/-- An installation over a version that is there checks it, and changes nothing. -/
theorem install_of_existing (hmanifest : verifyManifest crates manifestBytes = .ok manifest)
    (hversions : ∃ entries, lookup names ["versions"] (some root) = some (.directory entries))
    (hexists : (versionDirectory names manifest.version root).isSome) (fetch : Fetcher σ) (s : σ) :
    installWithFetcher crates names manifestBytes fetch root s =
      ((validateInstalled crates names (versionDirectory names manifest.version root)
        manifest).map fun _ => manifest.version, root, s) := by
  obtain ⟨entries, hentries⟩ := hversions
  rw [installWithFetcher, hmanifest]
  simp only [createDirAll_of_directory hentries, hexists, if_true]

/-- What is valid is there. -/
theorem isSome_of_valid
    (hvalid : validateInstalled crates names directory manifest = .ok ()) : directory.isSome := by
  cases directory with
  | none =>
      obtain ⟨_, -, hempty⟩ := bind_eq_ok.mp hvalid
      cases hempty
  | some directory => rfl

/-- A version that is there and valid is accepted. -/
theorem reinstalls_of_valid (hmanifest : verifyManifest crates manifestBytes = .ok manifest)
    (hversions : ∃ entries, lookup names ["versions"] (some root) = some (.directory entries))
    (hvalid : validateInstalled crates names (versionDirectory names manifest.version root)
      manifest = .ok ()) :
    Reinstalls crates names manifestBytes manifest.version root := by
  intro τ fetch s
  rw [install_of_existing hmanifest hversions (isSome_of_valid hvalid), hvalid]
  rfl

/-- An installed version is there. -/
theorem Installed.there {fetch : Fetcher σ} {s : σ} {after : FileTree}
    (h : Installed crates names manifestBytes manifest fetch root s after) :
    (∃ entries, lookup names ["versions"] (some after) = some (.directory entries)) ∧
      (versionDirectory names manifest.version after).isSome := by
  cases h with
  | found existed valid opened => exact ⟨lookup_createDirAll opened, isSome_of_valid valid⟩
  | staged staging installed absent delivered staged valid same placed versions =>
      exact ⟨versions, Option.isSome_of_eq_some placed⟩

/-- Data that matches one item matches another one that declares the same. -/
theorem Matches.of_agree {a b : ContentFile} {data : List UInt8} (h : Matches crates a data)
    (hsize : a.size = b.size) (hdigest : eqIgnoreAsciiCase a.sha256 b.sha256) :
    Matches crates b data := by
  obtain ⟨hlength, hsha⟩ := h
  refine ⟨hsize ▸ hlength, ?_⟩
  rw [eqIgnoreAsciiCase, beq_iff_eq] at hsha hdigest ⊢
  exact hsha.trans hdigest

/-- Items of one file that both have their size and digest there agree. -/
theorem filesAgree_of_holdsSigned (h : HoldsSigned crates names manifest.files directory) :
    FilesAgree names manifest := by
  intro a ha b hb hkey
  obtain ⟨pathA, dataA, hpathA, hreadA, hlengthA, hshaA⟩ := h a ha
  obtain ⟨pathB, dataB, hpathB, hreadB, hlengthB, hshaB⟩ := h b hb
  have hfileA := (readContent_eq_ok.mp hreadA).2
  have hfileB := (readContent_eq_ok.mp hreadB).2
  rw [(itemNames_cases hpathA).1] at hfileA
  rw [(itemNames_cases hpathB).1, ← fileAt_congr hkey, hfileA] at hfileB
  obtain rfl := Option.some.inj hfileB
  rw [eqIgnoreAsciiCase, beq_iff_eq] at hshaA hshaB ⊢
  exact ⟨UInt64.toNat_inj.mp (hlengthA.symm.trans hlengthB), hshaA.symm.trans hshaB⟩

/-- What was staged has the declared sizes and digests when the items agree. -/
theorem holdsSigned_of_staged {delivered : List (ContentFile × List UInt8)}
    {staging installed : FileTree} (hvalid : manifest.Valid) (hagree : FilesAgree names manifest)
    (hdelivered : delivered.map Prod.fst = manifest.files)
    (hstaged : Staged crates names delivered (.directory []) staging)
    (hsame : SameContent names (some installed) (some staging)) :
    HoldsSigned crates names manifest.files (some installed) := by
  intro item hitem
  obtain ⟨path, hpath⟩ := hvalid.paths item hitem
  obtain ⟨rfl, -⟩ := contentPath_cases hpath
  rw [← hdelivered] at hitem
  obtain ⟨own, hown, rfl⟩ := List.mem_map.mp hitem
  -- the file holds what was delivered for the last item of its key
  obtain ⟨last, hlast⟩ := Option.isSome_iff_exists.mp (List.find?_isSome.mpr
    ⟨own, List.mem_reverse.mpr hown, decide_eq_true rfl⟩ : (delivered.reverse.find? fun download =>
      itemKey names download.1 = (itemNames own.1).map names.key).isSome)
  have hmem := List.mem_reverse.mp (List.mem_of_find?_eq_some hlast)
  have hkey : itemKey names last.1 = (itemNames own.1).map names.key := by
    simpa using List.find?_some hlast
  have hfile := hstaged.file (itemNames own.1)
  rw [hlast, Option.map_some, Option.some_or, ← hsame.fileAt hpath] at hfile
  obtain ⟨hsize, hdigest⟩ := hagree last.1 (hdelivered ▸ List.mem_map_of_mem hmem) own.1
    (hdelivered ▸ List.mem_map_of_mem hown) hkey
  refine ⟨_, last.2, hpath, readContent_eq_ok.mpr ⟨hstaged.opens own hown, hfile⟩, ?_⟩
  exact (hstaged.matching last hmem).of_agree hsize hdigest

end signed

/-- **Installed content is what was signed, exactly when the items that name one file agree.** -/
theorem installs_signed_iff {σ : Type} (crates : Crates) (names : ContentNames)
    (manifestBytes : List UInt8) (manifest : ContentManifest) (fetch : Fetcher σ)
    (root after : FileTree) (s t : σ) (version : String)
    (hmanifest : verifyManifest crates manifestBytes = .ok manifest)
    (hinstall : installWithFetcher crates names manifestBytes fetch root s =
      (.ok version, after, t)) :
    (HoldsSigned crates names manifest.files (versionDirectory names version after) ∧
      Reinstalls crates names manifestBytes version after) ↔ FilesAgree names manifest := by
  obtain ⟨rfl, hinstalled⟩ := installed_cases hmanifest hinstall
  refine ⟨fun h => filesAgree_of_holdsSigned h.1, fun hagree => ?_⟩
  cases hinstalled with
  | found existed valid opened =>
      obtain ⟨_, hitems, -⟩ := bind_eq_ok.mp valid
      exact ⟨validateItems_eq_ok.mp hitems,
        reinstalls_of_valid hmanifest (lookup_createDirAll opened) valid⟩
  | staged staging installed absent delivered staged valid same placed versions =>
      have hholds := holdsSigned_of_staged (verifyManifest_valid hmanifest) hagree delivered staged
        same
      rw [placed]
      refine ⟨hholds, reinstalls_of_valid hmanifest versions ?_⟩
      rw [placed, validateInstalled, bind_eq_ok]
      exact ⟨(), validateItems_eq_ok.mpr hholds, same.validateContentDirectory ▸ valid⟩

/-! ## Two items of one file -/

/-- A manifest whose two paths differ by a separator, under the key whose secret half is the bytes
0 to 31. -/
def overwritingManifest : ContentManifest :=
  sampleManifest "rules/a.yar" "rules//a.yar"
    ("hhTxGcjfTQ4VXqUwgyFEHwHBnqBXNLUGzvRoqzYsQ6aYWTQt3eE+4+UmpgcQ8sDa0fIvDli19A63uwCUYQOuAw==")

/-- Its signature. -/
def overwritingSignature : List UInt8 :=
  [134, 20, 241, 25, 200, 223, 77, 14, 21, 94, 165, 48, 131, 33, 68, 31, 1, 193, 158, 160, 87, 52,
    181, 6, 206, 244, 104, 171, 54, 44, 67, 166, 152, 89, 52, 45, 221, 225, 62, 227, 229, 38, 166,
    7, 16, 242, 192, 218, 209, 242, 47, 14, 88, 181, 244, 14, 183, 187, 0, 148, 97, 3, 174, 3]

theorem overwriting_verified :
    verifyManifest (sampleCrates overwritingManifest overwritingSignature)
      (manifestText overwritingManifest) = .ok overwritingManifest :=
  verifyManifest_sample rfl (by decide) (validateManifestFields_sample validateHttpsUrl_sample rfl
    (by decide) rfl ⟨_, rfl⟩ ⟨_, rfl⟩ (by decide))

/-- The installation, with the two sources written one after the other. -/
theorem overwriting_staged :
    stageItems (sampleCrates overwritingManifest overwritingSignature) sampleNames sampleFetch
        overwritingManifest.files (.directory []) () =
      (placeItem (firstItem "rules/a.yar") (utf8 firstRule) (.directory []) >>=
        placeItem (secondItem "rules//a.yar") (utf8 secondRule), ()) :=
  stageItems_sample _ _ _

/-- The installation succeeds, and the first item does not have its size afterwards. -/
theorem overwriting_items :
    (sampleInstall overwritingManifest overwritingSignature).1 = .ok "1.0" ∧
    validateItems (sampleCrates overwritingManifest overwritingSignature) sampleNames
      (versionDirectory sampleNames "1.0"
        (sampleInstall overwritingManifest overwritingSignature).2.1) overwritingManifest.files =
      .error (.content "rules/a.yar size mismatch") := by
  rw [sampleInstall, installWithFetcher, overwriting_verified]
  dsimp only
  rw [overwriting_staged]
  decide +kernel

theorem overwriting_installed :
    (sampleInstall overwritingManifest overwritingSignature).1 = .ok "1.0" := overwriting_items.1

theorem installs_signed_iff_overwriting :
    (HoldsSigned (sampleCrates overwritingManifest overwritingSignature) sampleNames
        overwritingManifest.files (versionDirectory sampleNames "1.0"
          (sampleInstall overwritingManifest overwritingSignature).2.1) ∧
      Reinstalls (sampleCrates overwritingManifest overwritingSignature) sampleNames
        (manifestText overwritingManifest) "1.0"
        (sampleInstall overwritingManifest overwritingSignature).2.1) ↔
      FilesAgree sampleNames overwritingManifest :=
  installs_signed_iff (sampleCrates overwritingManifest overwritingSignature) sampleNames
    (manifestText overwritingManifest) overwritingManifest sampleFetch (.directory [])
    (sampleInstall overwritingManifest overwritingSignature).2.1 () () "1.0" overwriting_verified
    (sampleInstall_eq overwriting_installed)

/-- The installation succeeds, the first item does not have its size and digest, and the same
manifest is rejected from then on. -/
theorem signed_file_overwritten :
    verifyManifest (sampleCrates overwritingManifest overwritingSignature)
      (manifestText overwritingManifest) = .ok overwritingManifest ∧
    (sampleInstall overwritingManifest overwritingSignature).1 = .ok "1.0" ∧
    ¬HoldsSigned (sampleCrates overwritingManifest overwritingSignature) sampleNames
      overwritingManifest.files (versionDirectory sampleNames "1.0"
        (sampleInstall overwritingManifest overwritingSignature).2.1) ∧
    (installWithFetcher (sampleCrates overwritingManifest overwritingSignature) sampleNames
      (manifestText overwritingManifest) sampleFetch
      (sampleInstall overwritingManifest overwritingSignature).2.1 ()).1 =
        .error (.content "rules/a.yar size mismatch") := by
  obtain ⟨-, hitems⟩ := overwriting_items
  refine ⟨overwriting_verified, overwriting_installed, fun hholds => ?_, ?_⟩
  · rw [validateItems_eq_ok.mpr hholds] at hitems
    cases hitems
  · obtain ⟨-, hinstalled⟩ :=
      installed_cases overwriting_verified (sampleInstall_eq overwriting_installed)
    have hchecked : validateInstalled (sampleCrates overwritingManifest overwritingSignature)
        sampleNames (versionDirectory sampleNames overwritingManifest.version
          (sampleInstall overwritingManifest overwritingSignature).2.1) overwritingManifest =
        .error (.content "rules/a.yar size mismatch") := by
      rw [validateInstalled, show overwritingManifest.version = "1.0" from rfl, hitems]
      rfl
    rw [install_of_existing overwriting_verified hinstalled.there.1 hinstalled.there.2, hchecked]
    rfl

end OpenGuard.Updates
