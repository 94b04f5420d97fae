import OpenGuard.Updates.Activation
import OpenGuard.Updates.Atomicity

/-!
# Installed versions stay as they are

No call of an installation changes anything among the versions that was there before, whatever the
manifest, and wherever the installation fails or is stopped.

* `Kept`: what is there stays, and nothing outside the versions changes.
* `kept_installRun`: every run of an installation.
* `Loaded`: the scanner and the feed of a version; `Kept.loaded` says that they stay the same.
-/

namespace OpenGuard.Updates

open OpenGuard.Lib OpenGuard.Lib.FileTree OpenGuard.Lib.Program OpenGuard.Detection
  OpenGuard.Windows

/-- What is among the versions stays there, and what is elsewhere does not change. -/
structure Kept (names : FileNames) (before after : Option FileTree) : Prop where
  versions : ∀ ⦃name tree⦄, lookup names ["versions", name] before = some tree →
    lookup names ["versions", name] after = some tree
  others : ∀ ⦃name⦄, names.key name ≠ names.key "versions" → ∀ rest,
    lookup names (name :: rest) after = lookup names (name :: rest) before

section kept

variable {names : FileNames} {staging : String} {before between after : Option FileTree}
  {path : List String} {tree : FileTree} {disk : Disk} {choice : DiskChoice}

theorem Kept.refl (node : Option FileTree) : Kept names node node :=
  ⟨fun _ _ h => h, fun _ _ _ => rfl⟩

theorem Kept.trans (h : Kept names before between) (h' : Kept names between after) :
    Kept names before after :=
  ⟨fun _ _ htree => h'.versions (h.versions htree),
    fun _ hname rest => (h'.others hname rest).trans (h.others hname rest)⟩

/-- The same, but for what has the name of the staging directory. -/
structure KeptBut (names : FileNames) (staging : String) (before after : Option FileTree) :
    Prop where
  versions : ∀ ⦃name tree⦄, names.key name ≠ names.key staging →
    lookup names ["versions", name] before = some tree →
      lookup names ["versions", name] after = some tree
  others : ∀ ⦃name⦄, names.key name ≠ names.key "versions" → ∀ rest,
    lookup names (name :: rest) after = lookup names (name :: rest) before

theorem KeptBut.refl (node : Option FileTree) : KeptBut names staging node node :=
  ⟨fun _ _ _ h => h, fun _ _ _ => rfl⟩

/-- Where there was nothing of that name, nothing is excepted. -/
theorem Kept.trans_keptBut (hnone : lookup names ["versions", staging] before = none)
    (h : Kept names before between) (h' : KeptBut names staging between after) :
    Kept names before after := by
  refine ⟨fun name tree htree => h'.versions (fun hkey => ?_) (h.versions htree),
    fun _ hname rest => (h'.others hname rest).trans (h.others hname rest)⟩
  have hpath : lookup names ["versions", name] before = lookup names ["versions", staging] before :=
    lookup_congr (by simp [hkey]) before
  rw [htree, hnone] at hpath
  cases hpath

theorem keptBut_of_sameBut (hsame : SameBut names [staging] before after)
    (hothers : ∀ ⦃name⦄, names.key name ≠ names.key "versions" → ∀ rest,
      lookup names (name :: rest) after = lookup names (name :: rest) before) :
    KeptBut names staging before after := by
  refine ⟨fun name tree hname htree => ?_, hothers⟩
  rw [hsame name (by simpa using hname), htree]

end kept

/-! ## The calls -/

section calls

variable {names : FileNames} {staging name : String} {root : Option FileTree}
  {path : List String} {choice : DiskChoice} {disk : Disk}

theorem lookup_madeBefore (hname : names.key name ≠ names.key "versions")
    (path rest : List String) :
    lookup names (name :: rest) (madeBefore names ("versions" :: path) choice root) =
      lookup names (name :: rest) root := by
  unfold madeBefore
  split
  · next made =>
      split
      · next tree htree =>
          cases made with
          | zero => exact lookup_makeDirectory htree name rest
          | succ made => exact lookup_alter_of_ne htree hname rest
      · rfl
  · rfl

theorem lookup_leftBehind (hname : names.key name ≠ names.key "versions")
    (path rest : List String) :
    lookup names (name :: rest) (leftBehind names ("versions" :: path) choice root) =
      lookup names (name :: rest) root := by
  unfold leftBehind
  split
  · exact lookup_detach_of_ne hname rest
  · split
    · next htree => exact lookup_alter_of_ne htree hname rest
    · rfl
  · rfl

theorem lookup_attempt (hname : names.key name ≠ names.key "versions") {make : Bool}
    {f : Option FileTree → Except IoError FileTree} (path rest : List String) (disk : Disk) :
    lookup names (name :: rest) (attempt (fun root =>
        (alter names make f ("versions" :: path) root).map some) disk).2.root =
      lookup names (name :: rest) disk.root := by
  obtain ⟨tree, htree, hattempt⟩ | ⟨error, hattempt⟩ :=
    attempt_alter_cases names make f ("versions" :: path) disk
  · rw [hattempt]
    exact lookup_alter_of_ne htree hname rest
  · rw [hattempt]

/-- A call in the staging directory changes nothing outside the versions. -/
theorem lookup_answer {op : DiskOp} (h : StaysIn staging op)
    (hname : names.key name ≠ names.key "versions") (rest : List String) (choice : DiskChoice)
    (disk : Disk) :
    lookup names (name :: rest) (answer names op choice disk).2.root =
      lookup names (name :: rest) disk.root := by
  cases op with
  | createDirAll path =>
      obtain ⟨below, rfl⟩ := h
      rw [answer]
      split
      · exact lookup_attempt hname _ rest disk
      · exact lookup_madeBefore hname _ rest
  | pathExists path => rfl
  | createDir path =>
      obtain ⟨below, rfl⟩ := h
      rw [answer]
      split
      · exact lookup_attempt hname _ rest disk
      · rfl
  | fetch url limit => cases choice <;> rfl
  | inspect path =>
      rw [answer]
      split <;> rfl
  | write path data =>
      obtain ⟨below, rfl⟩ := h
      rw [answer]
      split
      · exact lookup_attempt hname _ rest disk
      · exact lookup_leftBehind hname _ rest
  | rename source target => exact h.elim
  | removeDirAll path =>
      obtain ⟨below, rfl⟩ := h
      rw [answer]
      split
      · exact lookup_detach_of_ne hname rest
      · exact lookup_leftBehind hname _ rest

/-- Nothing is renamed to where something is. -/
theorem keptBut_rename (version : String) (choice : DiskChoice) (disk : Disk) :
    KeptBut names staging disk.root (answer names (.rename ["versions", staging]
      (versionPath version)) choice disk).2.root := by
  obtain ⟨moved, tree, hmoved, hplaced, hrename⟩ | ⟨error, hrename⟩ :=
    answer_rename_cases names ["versions", staging] (versionPath version) choice disk
  · rw [hrename]
    obtain ⟨placed, hput, -⟩ := lookup_alter hplaced
    have hnone : lookup names (versionPath version) disk.root = none := by
      unfold putNew at hput
      split at hput
      · assumption
      · cases hput
    have hpath : versionPath version = ["versions", version] := by
      unfold versionPath at hnone ⊢
      split_ifs at hnone ⊢
      · have hinside := @lookup_append names ["versions"] [staging] disk.root
        rw [hnone, lookup_none] at hinside
        cases hmoved.symm.trans hinside
      · have hroot : disk.root = none := hnone
        rw [hroot] at hmoved
        cases hmoved
      · rfl
    rw [hpath] at hplaced hnone
    constructor
    · intro name found hname hfound
      have hversion : names.key name ≠ names.key version := by
        intro hkey
        have hsame : lookup names ["versions", name] disk.root =
            lookup names ["versions", version] disk.root := lookup_congr (by simp [hkey]) disk.root
        rw [hfound, hnone] at hsame
        cases hsame
      calc lookup names ["versions", name] (detach names ["versions", staging] (some tree))
          = lookup names ["versions", name] (some tree) :=
            lookup_detach_beside ["versions"] hname []
        _ = lookup names ["versions", name] disk.root :=
            lookup_alter_beside ["versions"] hplaced hversion []
        _ = some found := hfound
    · intro name hname rest
      exact (lookup_detach_of_ne hname rest).trans (lookup_alter_of_ne hplaced hname rest)
  · rw [hrename]
    exact .refl _

end calls

/-! ## The program -/

/-- A call in the staging directory, or its renaming. -/
def StagingCall (staging : String) (op : DiskOp) : Prop :=
  StaysIn staging op ∨ ∃ version, op = .rename ["versions", staging] (versionPath version)

section program

variable {crates : Crates} {names : FileNames} {staging : String} {manifestBytes : List UInt8}
  {manifest : ContentManifest} {uuid : String} {root : Option FileTree}

theorem keptBut_answer {op : DiskOp} (h : StagingCall staging op) (choice : DiskChoice)
    (disk : Disk) :
    KeptBut names staging disk.root (answer names op choice disk).2.root := by
  rcases h with hstays | ⟨version, rfl⟩
  · exact keptBut_of_sameBut (sameBut_answer names op hstays choice disk) fun _ hname rest =>
      lookup_answer hstays hname rest choice disk
  · exact keptBut_rename version choice disk

theorem calls_stageFile (item : ContentFile) :
    Calls (StagingCall staging) (stageFile crates ["versions", staging] item).run := by
  refine .tryBind (calls_perform.mpr (.inl trivial)) fun data => ?_
  refine .tryBind trivial fun _ => .tryBind trivial fun target => ?_
  refine .tryBind (calls_perform.mpr (.inl ⟨_, rfl⟩)) fun _ => .tryBind trivial fun _ => ?_
  exact calls_perform.mpr (.inl ⟨_, rfl⟩)

theorem calls_stageFiles (items : List ContentFile) :
    Calls (StagingCall staging) (stageFiles crates ["versions", staging] items).run := by
  induction items with
  | nil => trivial
  | cons item items ih => exact .tryBind (calls_stageFile item) fun _ => ih

theorem calls_stageVersion :
    Calls (StagingCall staging)
      (stageVersion crates names manifestBytes manifest ["versions", staging]).run := by
  refine .tryBind (calls_stageFiles manifest.files) fun _ => ?_
  refine .tryBind (calls_perform.mpr (.inl trivial)) fun directory => .tryBind trivial fun _ => ?_
  refine .tryBind (calls_perform.mpr (.inl ⟨_, rfl⟩)) fun _ => ?_
  exact .tryBind (calls_perform.mpr (.inr ⟨manifest.version, rfl⟩)) fun _ => trivial

variable (names) in
/-- Making the directory of the versions keeps everything. -/
theorem kept_createVersions (choice : DiskChoice) (disk : Disk) :
    Kept names disk.root (answer names (.createDirAll ["versions"]) choice disk).2.root := by
  have hsame := sameBut_createVersions names choice disk
  refine ⟨fun name tree htree => ?_, fun name hname rest => ?_⟩
  · rw [hsame name nofun, htree]
  · rw [answer]
    split
    · exact lookup_attempt hname [] rest disk
    · exact lookup_madeBefore hname [] rest

/-- The staging directory is made where there is nothing, and everything after stays in it. -/
theorem safe_kept_staging {ready : Disk} (hready : Kept names root ready.root) :
    Safe (answer names) anyChoice (fun _ disk => Kept names root disk.root)
      (fun _ disk => Kept names root disk.root)
      (do
        step (.createDir ["versions", staging])
        match ← ExceptT.lift
            (stageVersion crates names manifestBytes manifest ["versions", staging]).run with
        | .ok version => return version
        | .error error =>
            let _ ← ExceptT.lift (Program.perform (.removeDirAll ["versions", staging]))
            throw error : DiskProgram String).run ready := by
  refine safe_tryBind.mpr ⟨hready, fun choice _ => ?_⟩
  obtain ⟨tree, hmade, hcreated⟩ | ⟨error, hcreated⟩ :=
    answer_createDir_cases names ["versions", staging] choice ready
  · have hnone : lookup names ["versions", staging] root = none := by
      obtain ⟨placed, hput, -⟩ := lookup_alter hmade
      refine Option.eq_none_iff_forall_ne_some.mpr fun found hfound => ?_
      rw [hready.versions hfound] at hput
      cases hput
    have hcall : ∀ op choice disk, StagingCall staging op → Kept names root disk.root →
        Kept names root (answer names op choice disk).2.root := fun op choice disk hop hkept =>
      hkept.trans_keptBut hnone (keptBut_answer hop choice disk)
    have hdirectory := hcall (.createDir ["versions", staging]) choice ready (.inl ⟨[], rfl⟩) hready
    rw [hcreated] at hdirectory ⊢
    refine safe_liftBind.mpr ((calls_stageVersion.safe hcall hdirectory).mono fun r after hr => ?_)
    cases r with
    | ok version => exact hr
    | error error =>
        exact safe_liftBind.mpr ⟨hr, fun choice _ => hcall _ choice after (.inl ⟨[], rfl⟩) hr⟩
  · rw [hcreated]
    exact hready

/-- **Every run of an installation keeps what is there**, in all its states. -/
theorem safe_kept (crates : Crates) (names : FileNames) (manifestBytes : List UInt8) (uuid : String)
    (root : Option FileTree) :
    Safe (answer names) anyChoice (fun _ disk => Kept names root disk.root)
      (fun _ disk => Kept names root disk.root)
      (installSteps crates names manifestBytes uuid).run ⟨root, []⟩ := by
  refine safe_tryBind.mpr ?_
  cases verifyManifest crates manifestBytes with
  | error error => exact .refl root
  | ok manifest =>
      refine safe_tryBind.mpr ⟨.refl root, fun choice _ => ?_⟩
      have hready := kept_createVersions names choice ⟨root, []⟩
      rcases hanswer : answer names (.createDirAll ["versions"]) choice ⟨root, []⟩ with ⟨r, ready⟩
      rw [hanswer] at hready
      cases r with
      | error error => exact hready
      | ok made =>
          refine safe_tryBind.mpr ⟨hready, fun choice _ => ?_⟩
          rw [answer]
          cases choice.error?.isNone &&
            FileTree.pathExists names (versionPath manifest.version) ready.root with
          | true =>
              refine safe_tryBind.mpr ⟨hready, fun choice _ => ?_⟩
              obtain hinspect | ⟨error, hinspect⟩ :=
                answer_inspect_cases names (versionPath manifest.version) choice ready
              · rw [hinspect]
                refine safe_tryBind.mpr ?_
                cases validateInstalled crates names
                  (lookup names (versionPath manifest.version) ready.root) manifest <;> exact hready
              · rw [hinspect]
                exact hready
          | false => exact safe_kept_staging hready

/-- **An installation keeps what is there**, however it ends and wherever it is stopped. -/
theorem kept_installRun (crates : Crates) (names : FileNames) (manifestBytes : List UInt8)
    (uuid : String) (root : Option FileTree) (choices : List DiskChoice) :
    Kept names root (installRun crates names manifestBytes uuid root choices).2.root := by
  have hallowed : Allowed (answer names) anyChoice
      (installSteps crates names manifestBytes uuid).run ⟨root, []⟩ choices :=
    allowed_of_forall (fun _ _ => trivial) _ _ _
  exact (safe_kept crates names manifestBytes uuid root).invariant hallowed (fun _ _ h => h)
    fun _ _ h => h

end program

/-! ## What is loaded -/

/-- The names of a disk that tells the versions from what lies in one of them. -/
structure StoreNames extends ContentNames where
  rules_ne_versions : key "rules" ≠ key "versions"
  reputation_ne_versions : key "reputation.json" ≠ key "versions"

instance : CoeOut StoreNames ContentNames := ⟨StoreNames.toContentNames⟩

/-- The tree of a disk; where there is no root, nothing is found. -/
def storeTree (root : Option FileTree) : FileTree := root.getD (.directory [])

/-- The reputation feed in the directory of a version.
Source: `main.rs`, `ServiceState::install_content_update` -/
def reputationForVersion (crates : Crates) (names : FileNames) (shown : String → String)
    (root : FileTree) (version : String) : Except WindowsError ReputationFeed :=
  ReputationFeed.fromPath crates.parseJson crates.describe names crates.ioText (shown version)
    (versionPath version ++ ["reputation.json"]) root

/-- The scanner and the feed are those of the directory of the version. -/
structure Loaded (crates : Crates) (names : FileNames) (shown : String → String)
    (root : Option FileTree) (version : String) (scanner : FileScanner) (feed : ReputationFeed) :
    Prop where
  scanner : scannerForVersion crates names (storeTree root) version = .ok scanner
  feed : reputationForVersion crates names shown (storeTree root) version = .ok feed

section loaded

variable {crates : Crates} {names : StoreNames} {shown : String → String}
  {before after : Option FileTree} {version name : String} {scanner : FileScanner}
  {feed : ReputationFeed} {tree : FileTree}

theorem lookup_storeTree (first : String) (rest : List String) (root : Option FileTree) :
    lookup names (first :: rest) (some (storeTree root)) = lookup names (first :: rest) root := by
  cases root with
  | none =>
      rw [storeTree, Option.getD_none, lookup, entry_nil, lookup_none]
      rfl
  | some tree => rfl

/-- What is in the directory of a version stays. -/
theorem Kept.lookup (h : Kept names before after) (hname : names.key name ≠ names.key "versions")
    (htree : FileTree.lookup names (versionPath version ++ [name]) (some (storeTree before)) =
      some tree) :
    FileTree.lookup names (versionPath version ++ [name]) (some (storeTree after)) =
      FileTree.lookup names (versionPath version ++ [name]) (some (storeTree before)) := by
  unfold versionPath at htree ⊢
  split_ifs at htree ⊢
  · -- the directory of the versions itself
    rw [List.singleton_append, lookup_storeTree] at htree ⊢
    rw [h.versions htree, lookup_storeTree, htree]
  · rw [List.nil_append, lookup_storeTree, lookup_storeTree]
    exact h.others hname []
  · have hpath : ["versions", version] ++ [name] = "versions" :: [version, name] := rfl
    rw [hpath, lookup_storeTree] at htree ⊢
    rw [lookup_storeTree]
    have hsplit : ∀ root, FileTree.lookup names ("versions" :: [version, name]) root =
        FileTree.lookup names [name] (FileTree.lookup names ["versions", version] root) :=
      fun root =>
      lookup_append ["versions", version] [name] root
    rw [hsplit] at htree ⊢
    cases hdirectory : FileTree.lookup names ["versions", version] before with
    | none =>
        rw [hdirectory, lookup_none] at htree
        cases htree
    | some directory => rw [h.versions hdirectory, hsplit, hdirectory]

/-- A scanner is made of a directory that is there. -/
theorem exists_rules_of_scanner {root : FileTree}
    (h : scannerForVersion crates names root version = .ok scanner) :
    ∃ tree, FileTree.lookup names (versionPath version ++ ["rules"]) (some root) = some tree := by
  obtain ⟨_, -, hscanner⟩ := bind_eq_ok.mp h
  obtain ⟨paths, hpaths, -⟩ := bind_eq_ok.mp hscanner
  obtain ⟨found, hfound, -⟩ := bind_eq_ok.mp hpaths
  rw [lookup_append]
  rw [mapError_eq_ok, readDir] at hfound
  split at hfound
  · next entries hentries => exact ⟨_, hentries⟩
  · cases hfound
  · cases hfound

/-- **What a version was loaded from stays what it is.** -/
theorem Kept.loaded (h : Kept names before after)
    (hloaded : Loaded crates names shown before version scanner feed) :
    Loaded crates names shown after version scanner feed := by
  constructor
  · obtain ⟨tree, htree⟩ := exists_rules_of_scanner hloaded.scanner
    have hrules := h.lookup names.rules_ne_versions htree
    rw [lookup_append, lookup_append] at hrules
    have hscanner := hloaded.scanner
    unfold scannerForVersion at hscanner ⊢
    rw [versionDirectory, scannerFromDirectory_congr hrules]
    exact hscanner
  · obtain ⟨data, hdata, hfeed⟩ := bind_eq_ok.mp hloaded.feed
    rw [mapError_eq_ok, FileTree.read] at hdata
    split at hdata
    · next content hcontent =>
        refine bind_eq_ok.mpr ⟨data, ?_, hfeed⟩
        rw [mapError_eq_ok, FileTree.read, h.lookup names.reputation_ne_versions hcontent, hcontent]
        exact hdata
    · cases hdata
    · cases hdata

end loaded

end OpenGuard.Updates
