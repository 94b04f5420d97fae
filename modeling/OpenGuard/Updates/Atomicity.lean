import OpenGuard.Updates.Steps

/-!
# The installation is all or nothing

However the calls of an installation end, and wherever it is stopped, the version is either not
there or was staged from the whole manifest and passed every check.

* `sameBut_answer`: a call in the staging directory touches nothing else among the versions.
* `safe_stageFiles`, `safe_stageVersion`: the loop over the files and the renaming.
* `install_all_or_nothing`: every state of every run, for a version that is a name of its own.
-/

namespace OpenGuard.Updates

open OpenGuard.Lib OpenGuard.Lib.FileTree OpenGuard.Lib.Program

/-- Among the versions nothing has changed but what has one of these names. -/
def SameBut (names : FileNames) (skipped : List String) (before after : Option FileTree) : Prop :=
  ∀ name, (∀ other ∈ skipped, names.key name ≠ names.key other) →
    lookup names ["versions", name] after = lookup names ["versions", name] before

/-- The directory was staged from what was fetched for every item of the manifest, each with its
size and digest, and it is a valid one. -/
def Complete (crates : Crates) (names : FileNames) (manifest : ContentManifest)
    (fetched : List (List UInt8)) (directory : FileTree) : Prop :=
  fetched.length = manifest.files.length ∧
    ∃ staging, Staged crates names (manifest.files.zip fetched) (.directory []) staging ∧
      validateContentDirectory crates names (some staging) = .ok () ∧
      SameContent names (some directory) (some staging)

/-- A call that changes nothing outside the directory of that name among the versions. -/
def StaysIn (staging : String) : DiskOp → Prop
  | .createDirAll path => ∃ rest, path = "versions" :: staging :: rest
  | .createDir path => ∃ rest, path = "versions" :: staging :: rest
  | .write path _ => ∃ rest, path = "versions" :: staging :: rest
  | .removeDirAll path => ∃ rest, path = "versions" :: staging :: rest
  | .rename _ _ => False
  | _ => True

/-! ## What lies beside the staging directory -/

section frame

variable {names : FileNames} {staging : String} {skipped : List String}
  {before between after : Option FileTree} {path : List String} {tree : FileTree}

theorem SameBut.refl (skipped : List String) (node : Option FileTree) :
    SameBut names skipped node node := fun _ _ => rfl

theorem SameBut.trans (h : SameBut names skipped before between)
    (h' : SameBut names skipped between after) : SameBut names skipped before after :=
  fun name hname => (h' name hname).trans (h name hname)

theorem SameBut.mono {more : List String} (h : SameBut names skipped before after)
    (hmore : skipped ⊆ more) : SameBut names more before after :=
  fun name hname => h name fun other hother => hname other (hmore hother)

theorem sameBut_alter {make : Bool} {f : Option FileTree → Except IoError FileTree}
    (h : alter names make f ("versions" :: staging :: path) before = .ok tree) :
    SameBut names [staging] before (some tree) := by
  intro name hname
  exact lookup_alter_beside ["versions"] h (hname staging (by simp)) []

theorem sameBut_detach :
    SameBut names [staging] before (detach names ("versions" :: staging :: path) before) := by
  intro name hname
  exact lookup_detach_beside ["versions"] (hname staging (by simp)) []

/-- A renaming touches the old name and the new one. -/
theorem sameBut_renamed {version : String} {moved : FileTree}
    (h : alter names false (putNew moved) ["versions", version] before = .ok tree) :
    SameBut names [staging, version] before (detach names ["versions", staging] (some tree)) :=
  SameBut.trans (SameBut.mono (sameBut_alter h) (by simp)) (SameBut.mono sameBut_detach (by simp))

/-- What is renamed is at its new place. -/
theorem lookup_renamed {version : String} {moved : FileTree}
    (hkey : names.key version ≠ names.key staging)
    (h : alter names false (putNew moved) ["versions", version] before = .ok tree) :
    lookup names ["versions", version] (detach names ["versions", staging] (some tree)) =
      some moved := by
  obtain ⟨placed, hput, hplaced⟩ := lookup_alter h
  rw [← eq_of_putNew hput, ← hplaced]
  exact lookup_detach_beside ["versions"] hkey []

/-- Making the first directories of a path there changes nothing else. -/
theorem sameBut_makeDirectory {count : ℕ} (h : alter names true makeDirectory
    (("versions" :: staging :: path).take count) before = .ok tree) :
    SameBut names [staging] before (some tree) := by
  match count with
  | 0 => exact fun name _ => lookup_makeDirectory h "versions" [name]
  | 1 => exact fun name _ => lookup_makeDirectory h name []
  | count + 2 => exact sameBut_alter h

/-- Making the directory of the versions, or only the root, puts nothing into it. -/
theorem lookup_makeVersions (count : ℕ)
    (h : alter names true makeDirectory (["versions"].take count) before = .ok tree)
    (name : String) :
    lookup names ["versions", name] (some tree) = lookup names ["versions", name] before := by
  match count with
  | 0 => exact lookup_makeDirectory h "versions" [name]
  | count + 1 =>
      rw [List.take_succ_cons, List.take_nil] at h
      exact lookup_makeDirectory h name []

end frame

/-! ## The calls -/

section calls

variable {names : FileNames} {staging : String} {choice : DiskChoice} {disk : Disk}
  {path : List String}

theorem attempt_cases (operation : Option FileTree → Except IoError (Option FileTree))
    (disk : Disk) :
    (∃ root, operation disk.root = .ok root ∧
        attempt operation disk = (.ok (), { disk with root })) ∨
      ∃ error, attempt operation disk = (.error error, disk) := by
  unfold attempt
  cases hroot : operation disk.root with
  | ok root => exact .inl ⟨root, rfl, rfl⟩
  | error error => exact .inr ⟨.io error, rfl⟩

/-- A change of the tree that is attempted is made or not. -/
theorem attempt_alter_cases (names : FileNames) (make : Bool)
    (f : Option FileTree → Except IoError FileTree) (path : List String) (disk : Disk) :
    (∃ tree, alter names make f path disk.root = .ok tree ∧
        attempt (fun root => (alter names make f path root).map some) disk =
          (.ok (), { disk with root := some tree })) ∨
      ∃ error, attempt (fun root => (alter names make f path root).map some) disk =
        (.error error, disk) := by
  obtain ⟨root, hroot, hattempt⟩ | hfails := attempt_cases
    (fun root => (alter names make f path root).map some) disk
  · obtain ⟨tree, htree, rfl⟩ := map_eq_ok.mp hroot
    exact .inl ⟨tree, htree, hattempt⟩
  · exact .inr hfails

theorem sameBut_leftBehind (choice : DiskChoice) (root : Option FileTree) :
    SameBut names [staging] root
      (leftBehind names ("versions" :: staging :: path) choice root) := by
  unfold leftBehind
  split
  · exact sameBut_detach
  · split
    · next h => exact sameBut_alter h
    · exact .refl _ _
  · exact .refl _ _

theorem sameBut_madeBefore (choice : DiskChoice) (root : Option FileTree) :
    SameBut names [staging] root
      (madeBefore names ("versions" :: staging :: path) choice root) := by
  unfold madeBefore
  split
  · split
    · next h => exact sameBut_makeDirectory h
    · exact .refl _ _
  · exact .refl _ _

theorem sameBut_attempt {make : Bool} {f : Option FileTree → Except IoError FileTree} :
    SameBut names [staging] disk.root
      (attempt (fun root => (alter names make f ("versions" :: staging :: path) root).map some)
        disk).2.root := by
  obtain ⟨tree, htree, hattempt⟩ | ⟨error, hattempt⟩ := attempt_alter_cases names make f
    ("versions" :: staging :: path) disk
  · rw [hattempt]
    exact sameBut_alter htree
  · rw [hattempt]
    exact .refl _ _

/-- A call in the staging directory touches nothing else among the versions. -/
theorem sameBut_answer (names : FileNames) (op : DiskOp) (h : StaysIn staging op)
    (choice : DiskChoice) (disk : Disk) :
    SameBut names [staging] disk.root (answer names op choice disk).2.root := by
  cases op with
  | createDirAll path =>
      obtain ⟨rest, rfl⟩ := h
      rw [answer]
      split
      · exact sameBut_attempt
      · exact sameBut_madeBefore choice disk.root
  | pathExists path => exact .refl _ _
  | createDir path =>
      obtain ⟨rest, rfl⟩ := h
      rw [answer]
      split
      · exact sameBut_attempt
      · exact .refl _ _
  | fetch url limit => cases choice <;> exact .refl _ _
  | inspect path =>
      rw [answer]
      split <;> exact .refl _ _
  | write path data =>
      obtain ⟨rest, rfl⟩ := h
      rw [answer]
      split
      · exact sameBut_attempt
      · exact sameBut_leftBehind choice disk.root
  | rename source target => exact h.elim
  | removeDirAll path =>
      obtain ⟨rest, rfl⟩ := h
      rw [answer]
      split
      · exact sameBut_detach
      · exact sameBut_leftBehind choice disk.root

/-- A directory is made, with those on the way, or the call fails. -/
theorem answer_createDirAll_cases (names : FileNames) (path : List String)
    (choice : DiskChoice) (disk : Disk) :
    (∃ tree, alter names true makeDirectory path disk.root = .ok tree ∧
        answer names (.createDirAll path) choice disk =
          (.ok (), { disk with root := some tree })) ∨
      ∃ error after, answer names (.createDirAll path) choice disk = (.error error, after) := by
  rw [answer]
  split
  · exact (attempt_alter_cases _ _ _ _ _).imp id fun ⟨error, h⟩ => ⟨error, disk, h⟩
  · exact .inr ⟨_, _, rfl⟩

theorem answer_createDir_cases (names : FileNames) (path : List String)
    (choice : DiskChoice) (disk : Disk) :
    (∃ tree, alter names false (putNew (.directory [])) path disk.root = .ok tree ∧
        answer names (.createDir path) choice disk = (.ok (), { disk with root := some tree })) ∨
      ∃ error, answer names (.createDir path) choice disk = (.error error, disk) := by
  rw [answer]
  split
  · exact attempt_alter_cases _ _ _ _ _
  · exact .inr ⟨_, rfl⟩

/-- Making the directory of the versions puts nothing into it, also when it fails. -/
theorem sameBut_createVersions (names : FileNames) (choice : DiskChoice) (disk : Disk) :
    SameBut names [] disk.root (answer names (.createDirAll ["versions"]) choice disk).2.root := by
  rw [answer]
  split
  · obtain ⟨tree, htree, hattempt⟩ | ⟨error, hattempt⟩ := attempt_alter_cases names true
      makeDirectory ["versions"] disk
    · rw [hattempt]
      exact fun name _ => lookup_makeVersions 1 htree name
    · rw [hattempt]
      exact .refl _ _
  · unfold madeBefore
    split
    · split
      · next h => exact fun name _ => lookup_makeVersions _ h name
      · exact .refl _ _
    · exact .refl _ _

/-- A file is written, or the call fails. -/
theorem answer_write_cases (names : FileNames) (path : List String) (data : List UInt8)
    (choice : DiskChoice)
    (disk : Disk) :
    (∃ tree, alter names false (putFile data) path disk.root = .ok tree ∧
        answer names (.write path data) choice disk =
          (.ok (), { disk with root := some tree })) ∨
      ∃ error after, answer names (.write path data) choice disk = (.error error, after) := by
  rw [answer]
  split
  · exact (attempt_alter_cases _ _ _ _ _).imp id fun ⟨error, h⟩ => ⟨error, disk, h⟩
  · exact .inr ⟨_, _, rfl⟩

theorem answer_fetch_cases (names : FileNames) (url : String) (limit : ℕ)
    (choice : DiskChoice) (disk : Disk) :
    (∃ data, answer names (.fetch url limit) choice disk =
        (.ok data, { disk with fetched := disk.fetched ++ [data] })) ∨
      ∃ error, answer names (.fetch url limit) choice disk = (.error error, disk) := by
  cases choice with
  | delivers data => exact .inl ⟨data, rfl⟩
  | _ => exact .inr ⟨_, rfl⟩

theorem answer_inspect_cases (names : FileNames) (path : List String)
    (choice : DiskChoice) (disk : Disk) :
    answer names (.inspect path) choice disk = (.ok (lookup names path disk.root), disk) ∨
      ∃ error, answer names (.inspect path) choice disk = (.error error, disk) := by
  rw [answer]
  split
  · exact .inl rfl
  · exact .inr ⟨_, rfl⟩

/-- A directory is renamed as a whole, or not at all. -/
theorem answer_rename_cases (names : FileNames) (source target : List String)
    (choice : DiskChoice) (disk : Disk) :
    (∃ moved tree, lookup names source disk.root = some moved ∧
        alter names false (putNew moved) target disk.root = .ok tree ∧
        answer names (.rename source target) choice disk =
          (.ok (), { disk with root := detach names source (some tree) })) ∨
      ∃ error, answer names (.rename source target) choice disk = (.error error, disk) := by
  rw [answer]
  split
  · obtain ⟨root, hroot, hattempt⟩ | hfails :=
      attempt_cases (FileTree.rename names source target) disk
    · unfold FileTree.rename at hroot
      split at hroot
      · cases hroot
      · next moved hmoved =>
          obtain ⟨tree, htree, rfl⟩ := map_eq_ok.mp hroot
          exact .inl ⟨moved, tree, hmoved, htree, hattempt⟩
    · exact .inr hfails
  · exact .inr ⟨_, rfl⟩

end calls

/-! ## The loop over the files -/

section loop

variable {crates : Crates} {names : ContentNames} {staging : String} {root : Option FileTree}

/-- Every call leaves the other versions as they were. -/
def Beside (names : FileNames) (staging : String) (root : Option FileTree) (_ : DiskOp)
    (disk : Disk) : Prop :=
  SameBut names [staging] root disk.root

/-- Any choice of the environment. -/
def anyChoice (_ : DiskOp) (_ : DiskChoice) : Prop := True

/-- What is in the staging directory was `before`, and is `after` once a call has succeeded
there. -/
def Turns (names : FileNames) (staging : String) (root : Option FileTree) (disk : Disk)
    (operation : Except IoError FileTree) (r : Except UpdateError Unit) (after : Disk) : Prop :=
  SameBut names [staging] root after.root ∧ (r = .ok () → after.fetched = disk.fetched ∧
    ∃ tree, operation = .ok tree ∧ lookup names ["versions", staging] after.root = some tree)

/-- A directory is made in the staging directory, or the call fails. -/
theorem safe_createDirAll (disk : Disk) {before : FileTree} (path : List String)
    (hsame : SameBut names [staging] root disk.root)
    (hlookup : lookup names ["versions", staging] disk.root = some before) :
    Safe (answer names) anyChoice (Beside names staging root)
      (Turns names staging root disk (before.createDirAll names path))
      (step (.createDirAll (["versions", staging] ++ path))).run disk := by
  refine ⟨hsame, fun choice _ => ?_⟩
  have hafter := sameBut_answer names
    (.createDirAll (["versions", staging] ++ path)) ⟨path, rfl⟩ choice disk
  obtain ⟨tree, hmade, hanswer⟩ | ⟨error, after, hanswer⟩ :=
    answer_createDirAll_cases names (["versions", staging] ++ path) choice disk
  · rw [hanswer] at hafter ⊢
    obtain ⟨ready, hready, hbelow⟩ := alter_append hmade
    rw [hlookup] at hready
    exact ⟨hsame.trans hafter, fun _ => ⟨rfl, ready, hready, hbelow⟩⟩
  · rw [hanswer] at hafter ⊢
    exact ⟨hsame.trans hafter, nofun⟩

/-- A file is written in the staging directory, or the call fails. -/
theorem safe_write {disk : Disk} {before : FileTree} (path : List String) (data : List UInt8)
    (hsame : SameBut names [staging] root disk.root)
    (hlookup : lookup names ["versions", staging] disk.root = some before) :
    Safe (answer names) anyChoice (Beside names staging root)
      (Turns names staging root disk (before.write names path data))
      (step (.write (["versions", staging] ++ path) data)).run disk := by
  refine ⟨hsame, fun choice _ => ?_⟩
  have hafter := sameBut_answer names
    (.write (["versions", staging] ++ path) data) ⟨path, rfl⟩ choice disk
  obtain ⟨tree, hwritten, hanswer⟩ | ⟨error, after, hanswer⟩ :=
    answer_write_cases names (["versions", staging] ++ path) data choice disk
  · rw [hanswer] at hafter ⊢
    obtain ⟨ready, hready, hbelow⟩ := alter_append hwritten
    rw [hlookup] at hready
    exact ⟨hsame.trans hafter, fun _ => ⟨rfl, ready, hready, hbelow⟩⟩
  · rw [hanswer] at hafter ⊢
    exact ⟨hsame.trans hafter, nofun⟩

/-- One file is staged, or nothing but the staging directory is touched. -/
theorem safe_stageFile {item : ContentFile} {disk : Disk} {before : FileTree}
    (hsame : SameBut names [staging] root disk.root)
    (hlookup : lookup names ["versions", staging] disk.root = some before) :
    Safe (answer names) anyChoice (Beside names staging root)
      (fun r after => SameBut names [staging] root after.root ∧
        (r = .ok () → ∃ data first, after.fetched = disk.fetched ++ [data] ∧
          lookup names ["versions", staging] after.root = some first ∧
          stageItem crates names before item data = .ok first))
      (stageFile crates ["versions", staging] item).run disk := by
  refine safe_tryBind.mpr ⟨hsame, fun choice _ => ?_⟩
  obtain ⟨data, hfetch⟩ | ⟨error, hfetch⟩ :=
    answer_fetch_cases names item.url (fetchLimit item) choice disk
  · rw [hfetch]
    refine safe_tryBind.mpr ?_
    cases hbytes : validateContentBytes crates item data with
    | error error => exact ⟨hsame, nofun⟩
    | ok checked =>
        refine safe_tryBind.mpr ?_
        cases htarget : contentPath item.path with
        | error error => exact ⟨hsame, nofun⟩
        | ok target =>
            have hready := safe_createDirAll
              { disk with fetched := disk.fetched ++ [data] }
              (pathNames target).dropLast hsame hlookup
            refine hready.tryBind (fun _ _ h => ⟨h.1, nofun⟩) ?_
            rintro ⟨⟩ made ⟨hmade, hturns⟩
            obtain ⟨hfetched, ready, hready, hbelow⟩ := hturns rfl
            refine safe_tryBind.mpr ?_
            cases hopens : opensFile target with
            | false => exact ⟨hmade, nofun⟩
            | true =>
                refine (safe_write (pathNames target) data hmade hbelow).mono ?_
                rintro r written ⟨hwritten, hturns⟩
                refine ⟨hwritten, fun hr => ?_⟩
                obtain ⟨hsame, first, hfirst, hbelow⟩ := hturns hr
                refine ⟨data, first, hsame.trans hfetched, hbelow, ?_⟩
                simp only [stageItem, bind_eq_ok, mapError_eq_ok]
                refine ⟨checked, hbytes, target, htarget, ready, hready, ?_⟩
                rw [writeContent, if_pos hopens]
                exact hfirst
  · rw [hfetch]
    exact ⟨hsame, nofun⟩

/-- What is in the staging directory after some more files. -/
def StagedFrom (crates : Crates) (names : FileNames) (staging : String) (items : List ContentFile)
    (before : FileTree) (fetched : List (List UInt8)) (disk : Disk) : Prop :=
  ∃ data after, disk.fetched = fetched ++ data ∧ data.length = items.length ∧
    lookup names ["versions", staging] disk.root = some after ∧
    Staged crates names (items.zip data) before after

/-- The loop touches only the staging directory; when it ends well, every file was delivered and is
staged. -/
theorem safe_stageFiles {items : List ContentFile} {disk : Disk} {before : FileTree}
    (hsame : SameBut names [staging] root disk.root)
    (hlookup : lookup names ["versions", staging] disk.root = some before) :
    Safe (answer names) anyChoice (Beside names staging root)
      (fun r after => SameBut names [staging] root after.root ∧
        (r = .ok () → StagedFrom crates names staging items before disk.fetched after))
      (stageFiles crates ["versions", staging] items).run disk := by
  induction items generalizing disk before with
  | nil =>
      refine ⟨hsame, fun _ => ⟨[], before, (List.append_nil _).symm, rfl, hlookup, ?_⟩⟩
      exact staged_nil before
  | cons item items ih =>
      refine (safe_stageFile hsame hlookup).tryBind ?_ ?_
      · exact fun error after h => ⟨h.1, nofun⟩
      · rintro ⟨⟩ after ⟨hafter, hstaged⟩
        obtain ⟨data, first, hfetched, hfirst, hitem⟩ := hstaged rfl
        refine (ih hafter hfirst).mono fun r last hlast => ⟨hlast.1, fun hr => ?_⟩
        obtain ⟨rest, final, hrest, hlength, hfinal, hstaged⟩ := hlast.2 hr
        refine ⟨data :: rest, final, ?_, congrArg (· + 1) hlength, hfinal, hstaged.cons hitem⟩
        rw [hrest, hfetched, List.append_assoc, List.singleton_append]

/-- The version is there, complete, and nothing else is changed; or the version is untouched. -/
def Placed (crates : Crates) (names : ContentNames) (manifest : ContentManifest) (staging : String)
    (root : Option FileTree) (r : Except UpdateError String) (after : Disk) : Prop :=
  match r with
  | .ok version => version = manifest.version ∧
      SameBut names [staging, manifest.version] root after.root ∧
      ∃ directory, lookup names ["versions", manifest.version] after.root = some directory ∧
        Complete crates names manifest after.fetched directory
  | .error _ => SameBut names [staging] root after.root

/-- The staging directory is filled, checked and renamed. -/
theorem safe_stageVersion {manifestBytes : List UInt8} {manifest : ContentManifest} (disk : Disk)
    (hpath : versionPath manifest.version = ["versions", manifest.version])
    (hkey : names.key manifest.version ≠ names.key staging)
    (hsame : SameBut names [staging] root disk.root) (hfetched : disk.fetched = [])
    (hlookup : lookup names ["versions", staging] disk.root = some (.directory [])) :
    Safe (answer names) anyChoice (Beside names staging root)
      (Placed crates names manifest staging root)
      (stageVersion crates names manifestBytes manifest ["versions", staging]).run disk := by
  refine (safe_stageFiles hsame hlookup).tryBind (fun _ _ h => h.1) ?_
  rintro ⟨⟩ filled ⟨hfilled, hstaged⟩
  obtain ⟨data, staged, hdata, hlength, hdirectory, hstaged⟩ := hstaged rfl
  refine safe_tryBind.mpr ⟨hfilled, fun choice _ => ?_⟩
  obtain hinspect | ⟨error, hinspect⟩ :=
    answer_inspect_cases names ["versions", staging] choice filled
  · rw [hinspect, hdirectory]
    refine safe_tryBind.mpr ?_
    cases hvalid : validateContentDirectory crates names (some staged) with
    | error error => exact hfilled
    | ok checked =>
        refine (safe_write ["manifest.json"] manifestBytes hfilled hdirectory).tryBind
          (fun _ _ h => h.1) ?_
        rintro ⟨⟩ written ⟨hwritten, hturns⟩
        obtain ⟨hkept, directory, hmanifest, hbelow⟩ := hturns rfl
        refine safe_tryBind.mpr ⟨hwritten, fun choice _ => ?_⟩
        obtain ⟨moved, tree, hmoved, hplaced, hrename⟩ | ⟨error, hrename⟩ := answer_rename_cases
          names ["versions", staging] (versionPath manifest.version) choice written
        · rw [hrename]
          rw [hpath] at hplaced
          rw [hbelow] at hmoved
          refine ⟨rfl, ?_, directory, ?_, ?_, staged, ?_, hvalid, sameContent_write hmanifest⟩
          · exact (hwritten.mono (by simp)).trans (sameBut_renamed hplaced)
          · rw [lookup_renamed hkey hplaced, ← hmoved]
          · rw [hkept, hdata, hfetched, List.nil_append, hlength]
          · rw [hkept, hdata, hfetched, List.nil_append]
            exact hstaged
        · rw [hrename]
          exact hwritten
  · rw [hinspect]
    exact hfilled

end loop

/-! ## The whole installation -/

section installation

variable {crates : Crates} {names : ContentNames} {manifestBytes : List UInt8} {uuid : String}
  {manifest : ContentManifest}

/-- The installation of a version with a name of its own. -/
theorem safe_installSteps (start : Disk)
    (hmanifest : verifyManifest crates manifestBytes = .ok manifest)
    (hpath : versionPath manifest.version = ["versions", manifest.version])
    (hkey : names.key manifest.version ≠ names.key (stagingName manifest.version uuid))
    (hversion : lookup names ["versions", manifest.version] start.root = none)
    (hfetched : start.fetched = []) :
    Safe (answer names) anyChoice
      (Beside names (stagingName manifest.version uuid) start.root)
      (Placed crates names manifest (stagingName manifest.version uuid) start.root)
      (installSteps crates names manifestBytes uuid).run start := by
  refine safe_tryBind.mpr ?_
  rw [hmanifest]
  refine safe_tryBind.mpr ⟨.refl _ _, fun choice _ => ?_⟩
  have hsame := (sameBut_createVersions names choice start).mono
    (List.nil_subset [stagingName manifest.version uuid])
  obtain ⟨tree, -, hanswer⟩ | ⟨error, after, hanswer⟩ :=
    answer_createDirAll_cases names ["versions"] choice start
  · rw [hanswer] at hsame ⊢
    refine safe_tryBind.mpr ⟨hsame, fun choice _ => ?_⟩
    have habsent : lookup names ["versions", manifest.version] (some tree) = none := by
      rw [hsame manifest.version (by simpa using hkey), hversion]
    have hexists : answer names (.pathExists (versionPath manifest.version)) choice
        { start with root := some tree } = (.ok false, { start with root := some tree }) := by
      rw [answer, hpath, FileTree.pathExists, habsent, Option.isSome_none, Bool.and_false]
    rw [hexists]
    refine safe_tryBind.mpr ⟨hsame, fun choice _ => ?_⟩
    obtain ⟨tree', hmade, hdirectory⟩ | ⟨error, hdirectory⟩ := answer_createDir_cases
      names ["versions", stagingName manifest.version uuid] choice
      { start with root := some tree }
    · rw [hdirectory]
      obtain ⟨made, hput, hstaging⟩ := lookup_alter hmade
      rw [eq_of_putNew hput] at hstaging
      refine safe_liftBind.mpr ?_
      have hkept := SameBut.trans hsame (sameBut_alter hmade)
      refine (safe_stageVersion ⟨some tree', start.fetched⟩ hpath hkey hkept hfetched
        hstaging).mono fun r after hplaced => ?_
      cases r with
      | ok version => exact hplaced
      | error error =>
          refine safe_liftBind.mpr ⟨hplaced, fun choice _ => ?_⟩
          have hremoved := sameBut_answer names
            (.removeDirAll ["versions", stagingName manifest.version uuid]) ⟨[], rfl⟩ choice after
          exact hplaced.trans hremoved
    · rw [hdirectory]
      exact hsame
  · rw [hanswer] at hsame ⊢
    exact hsame

/-- The run of an installation, up to where it was stopped. -/
def installRun (crates : Crates) (names : FileNames) (manifestBytes : List UInt8) (uuid : String)
    (root : Option FileTree) (choices : List DiskChoice) :
    Program DiskOp DiskOp.Answer (Except UpdateError String) × Disk :=
  exec (answer names) (installSteps crates names manifestBytes uuid).run ⟨root, []⟩ choices

/-- Neither the version nor the staging directory is there, and their names are different. -/
structure Fresh (names : FileNames) (version uuid : String) (root : Option FileTree) : Prop where
  absent : lookup names (versionPath version) root = none
  unused : lookup names ["versions", stagingName version uuid] root = none
  apart : names.key version ≠ names.key (stagingName version uuid)

/-- Whatever is at the path of the version is complete. An error leaves nothing there, and the other
versions as they were. -/
structure AllOrNothing (crates : Crates) (names : FileNames) (manifest : ContentManifest)
    (uuid : String) (root : Option FileTree)
    (run : Program DiskOp DiskOp.Answer (Except UpdateError String) × Disk) : Prop where
  whole : ∀ directory, lookup names (versionPath manifest.version) run.2.root = some directory →
    Complete crates names manifest run.2.fetched directory
  failed : ∀ error, run.1 = .ret (.error error) →
    lookup names (versionPath manifest.version) run.2.root = none ∧
      SameBut names [stagingName manifest.version uuid] root run.2.root

/-- An installation of a version with a name of its own is all or nothing. -/
theorem allOrNothing_of_named {root : Option FileTree}
    (hmanifest : verifyManifest crates manifestBytes = .ok manifest)
    (hpath : versionPath manifest.version = ["versions", manifest.version])
    (hfresh : Fresh names manifest.version uuid root) (choices : List DiskChoice) :
    AllOrNothing crates names manifest uuid root
      (installRun crates names manifestBytes uuid root choices) := by
  have hversion := hfresh.absent
  rw [hpath] at hversion
  have habsent : ∀ {after}, SameBut names [stagingName manifest.version uuid] root after →
      lookup names ["versions", manifest.version] after = none := by
    intro after hsame
    rw [hsame manifest.version (by simpa using hfresh.apart), hversion]
  have hsafe := safe_installSteps ⟨root, []⟩ hmanifest hpath hfresh.apart hversion rfl
  have hallowed : Allowed (answer names) anyChoice
      (installSteps crates names manifestBytes uuid).run ⟨root, []⟩ choices :=
    allowed_of_forall (fun _ _ => trivial) _ _ _
  constructor
  · rw [hpath]
    refine hsafe.invariant (I := fun disk => ∀ directory,
      lookup names ["versions", manifest.version] disk.root = some directory →
        Complete crates names manifest disk.fetched directory) hallowed ?_ ?_
    · intro op disk hbeside directory hdirectory
      rw [habsent hbeside] at hdirectory
      cases hdirectory
    · intro r disk hplaced directory hdirectory
      cases r with
      | ok version =>
          obtain ⟨-, -, placed, hthere, hcomplete⟩ := hplaced
          rw [hthere] at hdirectory
          rwa [← Option.some.inj hdirectory]
      | error error =>
          rw [habsent hplaced] at hdirectory
          cases hdirectory
  · intro error hret
    have hplaced := hsafe.post_of_ret hallowed hret
    rw [hpath]
    exact ⟨habsent hplaced, hplaced⟩

/-- What was made to hold the versions is no version. -/
theorem not_complete_of_empty {fetched : List (List UInt8)} :
    ¬Complete crates names manifest fetched (.directory []) := by
  rintro ⟨-, staging, -, hvalid, hsame⟩
  rw [← hsame.validateContentDirectory] at hvalid
  exact validateContentDirectory_empty hvalid

variable (names) in
/-- The first call makes the directory of the versions. -/
theorem installRun_cons (hmanifest : verifyManifest crates manifestBytes = .ok manifest)
    (root : Option FileTree) (choice : DiskChoice) (choices : List DiskChoice) :
    ∃ next : DiskOp.Answer (.createDirAll ["versions"]) →
        Program DiskOp DiskOp.Answer (Except UpdateError String),
      (∀ error, next (.error error) = .ret (.error error)) ∧
        installRun crates names manifestBytes uuid root (choice :: choices) =
          exec (answer names)
            (next (answer names (.createDirAll ["versions"]) choice ⟨root, []⟩).1)
            (answer names (.createDirAll ["versions"]) choice ⟨root, []⟩).2 choices := by
  unfold installRun installSteps
  rw [hmanifest]
  exact ⟨_, fun _ => rfl, rfl⟩

/-- A call that succeeds hands its value on. -/
theorem exec_step_of_ok {α : Type} {op : DiskOp} {f : op.Value → DiskProgram α}
    {choice : DiskChoice} {choices : List DiskChoice} {disk after : Disk} {value : op.Value}
    (h : answer names op choice disk = (.ok value, after)) :
    exec (answer names) (step op >>= f).run disk (choice :: choices) =
      exec (answer names) (f value).run after choices := by
  show exec (answer names) (Program.bind _ (.ret (answer names op choice disk).1))
    (answer names op choice disk).2 choices = _
  rw [h]
  rfl

/-- A version that is there and is valid is not installed again. -/
theorem installRun_found (uuid : String) (root : Option FileTree)
    (hmanifest : verifyManifest crates manifestBytes = .ok manifest) {tree : FileTree}
    (hmade : alter names true makeDirectory ["versions"] root = .ok tree)
    (hfound : pathExists names (versionPath manifest.version) (some tree))
    (hvalid : validateInstalled crates names
      (lookup names (versionPath manifest.version) (some tree)) manifest = .ok ()) :
    installRun crates names manifestBytes uuid root [.works, .works, .works] =
      (.ret (.ok manifest.version), ⟨some tree, []⟩) := by
  have hcreated : answer names (.createDirAll ["versions"]) .works ⟨root, []⟩ =
      (.ok (), ⟨some tree, []⟩) := by
    simp only [answer, DiskChoice.error?, attempt, hmade]
    rfl
  have hexists : answer names (.pathExists (versionPath manifest.version)) .works
      ⟨some tree, []⟩ = (.ok true, ⟨some tree, []⟩) := by
    simp only [answer, hfound]
    rfl
  unfold installRun installSteps
  rw [hmanifest]
  calc exec (answer names) _ ⟨root, []⟩ [.works, .works, .works]
      = exec (answer names) _ ⟨some tree, []⟩ [.works, .works] := exec_step_of_ok hcreated
    _ = exec (answer names) _ ⟨some tree, []⟩ [.works] := exec_step_of_ok hexists
    _ = exec (answer names) _ ⟨some tree, []⟩ [] := exec_step_of_ok rfl
    _ = (.ret (.ok manifest.version), ⟨some tree, []⟩) := by
      rw [hvalid]
      rfl

/-- When no directory of the versions can be made, there is none after the attempt. -/
theorem answer_createVersions_fails {root : Option FileTree}
    (habsent : lookup names ["versions"] root = none)
    (hfails : ∀ tree, alter names true makeDirectory ["versions"] root ≠ .ok tree)
    (choice : DiskChoice) :
    ∃ error after, answer names (.createDirAll ["versions"]) choice ⟨root, []⟩ =
      (.error error, after) ∧ lookup names ["versions"] after.root = none := by
  rw [answer]
  split
  · obtain ⟨tree, htree, -⟩ | ⟨error, hattempt⟩ :=
      attempt_alter_cases names true makeDirectory ["versions"] ⟨root, []⟩
    · exact absurd htree (hfails tree)
    · exact ⟨error, _, hattempt, habsent⟩
  · next error _ =>
      refine ⟨error, _, rfl, ?_⟩
      unfold madeBefore
      split
      · next made _ =>
          split
          · next tree htree =>
              cases made with
              | zero => exact (lookup_makeDirectory htree "versions" []).trans habsent
              | succ made =>
                  rw [List.take_succ_cons, List.take_nil] at htree
                  exact absurd htree (hfails tree)
          · exact habsent
      · exact habsent

/-- A version whose directory is that of the versions is never installed, when there cannot be
one. -/
theorem allOrNothing_of_fails {root : Option FileTree}
    (hmanifest : verifyManifest crates manifestBytes = .ok manifest)
    (hpath : versionPath manifest.version = ["versions"])
    (habsent : lookup names ["versions"] root = none)
    (hfails : ∀ tree, alter names true makeDirectory ["versions"] root ≠ .ok tree)
    (choices : List DiskChoice) :
    AllOrNothing crates names manifest uuid root
      (installRun crates names manifestBytes uuid root choices) := by
  have hnone : ∀ run : Program DiskOp DiskOp.Answer (Except UpdateError String) × Disk,
      lookup names ["versions"] run.2.root = none →
      SameBut names [stagingName manifest.version uuid] root run.2.root →
      AllOrNothing crates names manifest uuid root run := by
    intro run hrun hsame
    refine ⟨fun directory hdirectory => ?_, fun _ _ => ⟨by rw [hpath, hrun], hsame⟩⟩
    rw [hpath, hrun] at hdirectory
    cases hdirectory
  cases choices with
  | nil =>
      rw [installRun, exec_nil]
      exact hnone _ habsent (.refl _ _)
  | cons choice choices =>
      obtain ⟨next, hnext, hrun⟩ := installRun_cons names hmanifest root choice choices
      obtain ⟨error, after, hanswer, hafter⟩ := answer_createVersions_fails habsent hfails choice
      have hsame := sameBut_createVersions names choice ⟨root, []⟩
      rw [hanswer] at hrun hsame
      rw [hrun, hnext, exec_ret]
      exact hnone _ hafter (hsame.mono (List.nil_subset _))

end installation

/-- The manifest of two rules, signed with the version `.`. -/
def dotManifest : ContentManifest :=
  { sampleManifest "rules/a.yar" "rules/b.yar"
      ("FVso7KyqcqDLXMcBavrZo4KTc0xAz/KY0q4S4QDMQ4tzmtJpckvsm+7xUL+Br4AAMkolCN4jIfLuwOUqym/RBg==")
    with version := "." }

/-- Its signature. -/
def dotSignature : List UInt8 :=
  [21, 91, 40, 236, 172, 170, 114, 160, 203, 92, 199, 1, 106, 250, 217, 163, 130, 147, 115, 76, 64,
    207, 242, 152, 210, 174, 18, 225, 0, 204, 67, 139, 115, 154, 210, 105, 114, 75, 236, 155, 238,
    241, 80, 191, 129, 175, 128, 0, 50, 74, 37, 8, 222, 35, 33, 242, 238, 192, 229, 42, 202, 111,
    209, 6]

theorem dot_verified : verifyManifest (sampleCrates dotManifest dotSignature)
    (manifestText dotManifest) = .ok dotManifest :=
  verifyManifest_sample rfl (by decide) (validateManifestFields_sample validateHttpsUrl_sample rfl
    (by decide) rfl ⟨_, rfl⟩ ⟨_, rfl⟩ (by decide))

end OpenGuard.Updates
