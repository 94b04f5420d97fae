import Mathlib.Data.List.Destutter
import OpenGuard.Lib.Components
import OpenGuard.Service.ScanTargets

/-!
# The full scan

The root of a full scan is the variable `SystemDrive`, which is a letter and a colon. Windows takes
such a path as the current directory of the process on that drive.

* `SystemVolume`: the system drive, and the current directory on it.
* `fullScan_targets`: the targets are the files below the current directory.
* `scansDrive_iff`: **the targets are the files of the drive exactly when all of them are below the
  current directory**, apart from the limit for their number.
-/

namespace OpenGuard.Service

open OpenGuard.Lib OpenGuard.Lib.FileNode OpenGuard.Domain

/-- The system drive, with the current directory of the service on it. -/
structure SystemVolume where
  letter : Char
  isLetter : letter.isAlpha = true
  tree : FileNode
  named : tree.WellNamed ValidName
  current : List String
  readable : Bool
  entries : List (String × FileNode)
  isCurrent : tree.lookup current = some (.directory readable entries)

namespace SystemVolume

variable (volume : SystemVolume)

/-- The value of `SystemDrive`. -/
def drive : String := String.ofList [volume.letter, ':']

/-- The current directory. -/
def here : FileNode := .directory volume.readable volume.entries

/-- The place a path denotes. Without a separator after the drive it starts at the current
directory. -/
def placeOf (path : String) : Option (List String) :=
  match path.toList with
  | letter :: ':' :: rest =>
      if letter = volume.letter then
        let names := ((rest.splitOn '\\').filter (· ≠ [])).map String.ofList
        some (if rest.head? = some '\\' then names else volume.current ++ names)
      else none
  | _ => none

/-- What is at a path. -/
def inspect (path : String) : Except String FileNode :=
  match (volume.placeOf path).bind volume.tree.lookup with
  | some node => .ok node
  | none => .error "The system cannot find the path specified. (os error 3)"

/-- **The files of the drive are the targets.** -/
def ScansDrive (roots : List String) : Prop :=
  ∃ targets, collectScanTargets volume.inspect neverCancelled roots = .ok targets ∧
    ∀ names, (∃ target ∈ targets, volume.placeOf target = some names) ↔ FileAt volume.tree names

/-- All files of the drive are below the current directory, the others there are not reached from
the root either, and there are fewer than the limit. -/
def DriveIsCurrent : Prop :=
  (∀ names, FileAt volume.tree names → volume.current <+: names) ∧
    (∀ names, FileAt volume.here names → FileAt volume.tree (volume.current ++ names)) ∧
    volume.here.filesBelow.length < maximumFiles

/-! ## Paths on the drive -/

@[simp] theorem toList_drive : volume.drive.toList = [volume.letter, ':'] := String.toList_ofList

theorem isDrive_drive : isDrive volume.drive = true := by
  simp [isDrive, volume.isLetter]

/-- The names of the components that are not empty. -/
theorem names_of_components {names : List String} (h : ∀ name ∈ names, ValidName name) :
    ((names.map String.toList).filter (· ≠ [])).map String.ofList = names := by
  rw [List.filter_eq_self.mpr, List.map_map]
  · simp [Function.comp_def]
  · intro chars hchars
    obtain ⟨name, hname, rfl⟩ := List.mem_map.mp hchars
    simpa using (h name hname).1

/-- Names do not start with a separator. -/
theorem head?_names {name : String} {names : List String} (h : ValidName name) :
    ¬ (['\\'].intercalate ((name :: names).map String.toList)).head? = some '\\' := by
  cases hname : name.toList with
  | nil => exact absurd (String.toList_eq_nil_iff.mp hname) h.1
  | cons c chars =>
      have hc := (h.2 c (by simp [hname])).1
      have hne : c ≠ '\\' := by
        rintro rfl
        simp [isSeparator] at hc
      cases names <;> simp [List.intercalate_cons_cons, hname, hne]

/-- **A path without a separator after the drive starts at the current directory.** -/
theorem placeOf_pathAt {names : List String} (h : ∀ name ∈ names, ValidName name) :
    volume.placeOf (pathAt volume.drive names) = some (volume.current ++ names) := by
  cases names with
  | nil => simp [placeOf]
  | cons name names =>
      have hwith : withSeparator volume.drive = volume.drive := by
        simp [withSeparator, volume.isDrive_drive]
      have hchars := toList_pathAt volume.drive h
      rw [hwith, toList_drive, List.cons_append, List.cons_append, List.nil_append] at hchars
      have hsplit := splitOn_names (List.cons_ne_nil name names) h
      simp only [placeOf, hchars, if_pos, hsplit, if_neg (head?_names (h name List.mem_cons_self)),
        names_of_components h]

/-! ## The scan -/

/-- The roots of a job for a profile are those of the profile. -/
theorem resolveScanRoots_profile {client : ClientContext} {target : String} {profile : ScanProfile}
    {choice : RootsChoice} {roots : List String}
    (h : resolveScanRoots client target (some profile) choice = .ok roots) :
    roots = scanProfileRoots choice.folders choice.pathExists profile ∧ roots ≠ [] := by
  unfold resolveScanRoots at h
  cases htoken : duplicateToken client choice.primaryToken with
  | error error =>
      rw [htoken] at h
      cases h
  | ok token =>
      rw [htoken] at h
      by_cases hroots : scanProfileRoots choice.folders choice.pathExists profile = []
      · simp [hroots, Except.mapError, bind, Except.bind, throw, throwThe, MonadExceptOf.throw] at h
      · simp only [hroots, Except.mapError, bind, Except.bind, Option.isSome_some, if_true,
          if_false] at h
        cases hchecked : withClientImpersonation client choice.impersonation
            (checkRoots choice.metadata
              (scanProfileRoots choice.folders choice.pathExists profile)) with
        | error error => simp [hchecked] at h
        | ok checked =>
            cases checked with
            | error error => simp [hchecked] at h
            | ok checked =>
                simp only [hchecked] at h
                obtain rfl := Except.ok.inj h
                exact ⟨rfl, hroots⟩

/-- A job for a full scan has the drive as its only root. -/
theorem resolveScanRoots_full {client : ClientContext} {target : String} {choice : RootsChoice}
    {roots : List String} (hdrive : choice.folders.systemDrive = some volume.drive)
    (hroots : resolveScanRoots client target (some .full) choice = .ok roots) :
    roots = [volume.drive] := by
  obtain ⟨hprofile, hne⟩ := resolveScanRoots_profile hroots
  rw [scanProfileRoots, hdrive] at hprofile
  by_cases hexists : volume.drive ≠ "" ∧ choice.pathExists volume.drive = true
  · rw [List.filter_cons_of_pos (by simpa using hexists)] at hprofile
    exact hprofile
  · rw [List.filter_cons_of_neg (by simpa using hexists)] at hprofile
    exact absurd hprofile hne

theorem inspect_drive : volume.inspect volume.drive = .ok volume.here := by
  have hplace : volume.placeOf (pathAt volume.drive []) = some (volume.current ++ []) :=
    volume.placeOf_pathAt (by simp)
  rw [pathAt_nil, List.append_nil] at hplace
  simp [inspect, hplace, volume.isCurrent, here]

/-- **The targets of a full scan are the files below the current directory.** -/
theorem fullScan_targets :
    (maximumFiles ≤ volume.here.filesBelow.length →
      collectScanTargets volume.inspect neverCancelled [volume.drive] =
        .error (limitText maximumFiles)) ∧
    (volume.here.filesBelow.length < maximumFiles →
      ∃ targets, collectScanTargets volume.inspect neverCancelled [volume.drive] = .ok targets ∧
        targets.Perm (targetsBelow volume.drive volume.here)) := by
  have hinspect := volume.inspect_drive
  have hroots : Inspectable volume.inspect [volume.drive] := by
    simp [Inspectable, hinspect]
  have hfiles : fileRoots volume.inspect [volume.drive] = [] := by
    simp [fileRoots, hinspect, here]
  have hbelow : (directoryRoots volume.inspect [volume.drive]).flatMap PendingDirectory.targets =
      targetsBelow volume.drive volume.here := by
    simp [directoryRoots, hinspect, here, PendingDirectory.targets]
  have htargets : targetsOf volume.inspect [volume.drive] =
      targetsBelow volume.drive volume.here := by
    simp [targetsOf, hinspect]
  obtain ⟨hlimit, hfound⟩ := collectScanTargets_spec hroots
  rw [hfiles, hbelow] at hlimit hfound
  constructor
  · intro hle
    refine hlimit ⟨?_, by simpa [targetsBelow] using hle⟩
    intro hempty
    have hlength := congrArg List.length hempty
    simp only [targetsBelow, List.length_map, List.length_nil] at hlength
    simp [hlength, maximumFiles] at hle
  · intro hlt
    obtain ⟨targets, hok, hperm, -⟩ := hfound fun hmeets =>
      absurd hmeets.2 (by simpa [targetsBelow] using hlt)
    exact ⟨targets, hok, htargets ▸ hperm⟩

/-- The places of the targets are below the current directory. -/
theorem mem_places {names : List String} :
    (∃ target ∈ targetsBelow volume.drive volume.here, volume.placeOf target = some names) ↔
      ∃ rest, FileAt volume.here rest ∧ names = volume.current ++ rest := by
  have hplace : ∀ rest ∈ volume.here.filesBelow,
      volume.placeOf (pathAt volume.drive rest) = some (volume.current ++ rest) := fun rest hrest =>
    volume.placeOf_pathAt ((mem_filesBelow.mp hrest).valid_names
      (volume.named.lookup volume.isCurrent))
  simp only [targetsBelow, List.mem_map, exists_exists_and_eq_and, ← mem_filesBelow]
  refine exists_congr fun rest => and_congr_right fun hrest => ?_
  rw [hplace rest hrest, Option.some.injEq, eq_comm]

/-- The drive is scanned when there are fewer files below the current directory than the limit, and
they are the files of the drive. -/
theorem scansDrive_drive :
    volume.ScansDrive [volume.drive] ↔ volume.here.filesBelow.length < maximumFiles ∧
      ∀ names, FileAt volume.tree names ↔
        ∃ rest, FileAt volume.here rest ∧ names = volume.current ++ rest := by
  obtain ⟨hlimit, hfound⟩ := volume.fullScan_targets
  constructor
  · rintro ⟨targets, htargets, hplaces⟩
    have hlt : volume.here.filesBelow.length < maximumFiles := by
      by_contra hle
      rw [hlimit (not_lt.mp hle)] at htargets
      cases htargets
    obtain ⟨found, hok, hperm⟩ := hfound hlt
    obtain rfl := Except.ok.inj (hok.symm.trans htargets)
    refine ⟨hlt, fun names => ?_⟩
    rw [← hplaces names, ← volume.mem_places]
    simp only [hperm.mem_iff]
  · rintro ⟨hlt, hsame⟩
    obtain ⟨targets, hok, hperm⟩ := hfound hlt
    refine ⟨targets, hok, fun names => ?_⟩
    rw [hsame names, ← volume.mem_places]
    simp only [hperm.mem_iff]

/-- **A full scan has the files of the drive as its targets exactly when all of them are below the
current directory**, and there are fewer than the limit. -/
theorem scansDrive_iff (client : ClientContext) (target : String) (choice : RootsChoice)
    (roots : List String) (hdrive : choice.folders.systemDrive = some volume.drive)
    (hroots : resolveScanRoots client target (some .full) choice = .ok roots) :
    volume.ScansDrive roots ↔ volume.DriveIsCurrent := by
  obtain rfl := volume.resolveScanRoots_full hdrive hroots
  rw [scansDrive_drive]
  constructor
  · rintro ⟨hlt, hsame⟩
    refine ⟨fun names hnames => ?_, fun rest hrest => (hsame _).mpr ⟨rest, hrest, rfl⟩, hlt⟩
    obtain ⟨rest, -, rfl⟩ := (hsame names).mp hnames
    exact List.prefix_append _ _
  · rintro ⟨hbelow, hreached, hlt⟩
    refine ⟨hlt, fun names => ⟨fun hnames => ?_, ?_⟩⟩
    · obtain ⟨rest, rfl⟩ := hbelow names hnames
      exact ⟨rest, hnames.of_lookup volume.named volume.isCurrent, rfl⟩
    · rintro ⟨rest, hrest, rfl⟩
      exact hreached rest hrest

end SystemVolume

/-! ## The current directory of a service -/

/-- A drive with a file below `Users` and one below `Windows\\System32`. -/
def systemTree : FileNode :=
  .directory true [("Users", .directory true [("report.doc", .file)]),
    ("Windows", .directory true [("System32", .directory true [("ntdll.dll", .file)])])]

theorem named_systemTree : systemTree.WellNamed ValidName := by
  simp [systemTree, ValidName, isSeparator]

/-- The drive, with the current directory at its root. -/
def rootVolume : SystemVolume where
  letter := 'C'
  isLetter := rfl
  tree := systemTree
  named := named_systemTree
  current := []
  readable := true
  entries := _
  isCurrent := rfl

/-- The drive, with the current directory that Windows gives a service. -/
def serviceVolume : SystemVolume where
  letter := 'C'
  isLetter := rfl
  tree := systemTree
  named := named_systemTree
  current := ["Windows", "System32"]
  readable := true
  entries := [("ntdll.dll", .file)]
  isCurrent := by simp [systemTree, lookup]

/-- A client, and an environment in which the drive is there. -/
def someClient : ClientContext := ⟨"S-1-5-21", true⟩

def driveChoice : RootsChoice where
  primaryToken := none
  folders := ⟨none, none, none, none, some "C:"⟩
  pathExists path := path = "C:"
  impersonation := none
  metadata _ := .ok .directory

theorem resolveScanRoots_driveChoice :
    resolveScanRoots someClient "" (some .full) driveChoice = .ok ["C:"] := rfl

/-- At the root of the drive the scan has all files. -/
theorem rootVolume_scansDrive :
    resolveScanRoots someClient "" (some .full) driveChoice = .ok ["C:"] ∧
      rootVolume.ScansDrive ["C:"] := by
  refine ⟨resolveScanRoots_driveChoice, ?_⟩
  refine (rootVolume.scansDrive_iff someClient "" driveChoice ["C:"] rfl
    resolveScanRoots_driveChoice).mpr ⟨fun _ _ => List.nil_prefix, fun names h => h, ?_⟩
  simp [SystemVolume.here, rootVolume, maximumFiles]

/-- In the current directory of a service the scan misses a file. -/
theorem serviceVolume_not_scansDrive :
    resolveScanRoots someClient "" (some .full) driveChoice = .ok ["C:"] ∧
      FileAt serviceVolume.tree ["Users", "report.doc"] ∧ ¬ serviceVolume.ScansDrive ["C:"] := by
  have hfile : FileAt serviceVolume.tree ["Users", "report.doc"] :=
    .entry List.mem_cons_self (.entry List.mem_cons_self .file)
  refine ⟨resolveScanRoots_driveChoice, hfile, fun hscans => ?_⟩
  obtain ⟨-, hsame⟩ := serviceVolume.scansDrive_drive.mp hscans
  obtain ⟨rest, -, hrest⟩ := (hsame _).mp hfile
  simp [serviceVolume] at hrest

end OpenGuard.Service
