import OpenGuard.Lib.DirectoryTree
import OpenGuard.Service.ScanJobs

/-!
# The targets of a scan

The files below the roots are collected with a stack of directories that are still to be read. The
number of files is limited; it is compared with the limit after every file of a directory, but not
after a root that is a file itself.

* `collectScanTargets`: the walk.
* `walkDirectories_spec`: what the directories on the stack add.
* `targetsComplete_iff`: **the targets are complete, except when there are exactly as many files as
  the limit allows.**
-/

namespace OpenGuard.Service

open OpenGuard.Lib OpenGuard.Lib.FileNode OpenGuard.Domain

/-! ## The walk -/

/-- The path is a drive, without a separator. -/
def isDrive (path : String) : Bool :=
  match path.toList with
  | [letter, ':'] => letter.isAlpha
  | _ => false

/-- The path of a directory, with a separator unless it is a drive. -/
def withSeparator (directory : String) : String :=
  if directory = "" || isDrive directory || directory.toList.getLast?.any isSeparator then directory
  else directory ++ "\\"

/-- The path of an entry of a directory: `Path::join` -/
def entryPath (directory name : String) : String := withSeparator directory ++ name

/-- Whether the flag is set when it is looked at: before a directory is read, and before an entry
is. -/
structure CancelChecks where
  atDirectory : String → Bool
  atEntry : String → Bool

/-- Source: `main.rs`, `collect_scan_targets` -/
def limitText (maximum : ℕ) : String :=
  "Scan target exceeds the " ++ toString maximum ++ " file safety limit"

/-- A directory that is still to be read. -/
structure PendingDirectory where
  path : String
  readable : Bool
  entries : List (String × FileNode)

section walk

variable (maximum : ℕ) (cancelled : CancelChecks)

/-- The loop over the entries of a directory. The last directory that is put on the stack is the
first one.
Source: `main.rs`, `collect_scan_targets` -/
def scanEntries (directory : String) : List (String × FileNode) → List PendingDirectory →
    List String → Except String (List PendingDirectory × List String)
  | [], directories, files => .ok (directories, files)
  | (name, node) :: entries, directories, files =>
      let path := entryPath directory name
      if cancelled.atEntry path then .error "Scan cancelled"
      else
        match node with
        | .directory readable below =>
            scanEntries directory entries (⟨path, readable, below⟩ :: directories) files
        | .file =>
            let files := files ++ [path]
            if maximum ≤ files.length then .error (limitText maximum)
            else scanEntries directory entries directories files
        | _ => scanEntries directory entries directories files

/-- The size of what is below the directories of the stack. -/
noncomputable def stackSize (directories : List PendingDirectory) : ℕ :=
  (directories.map fun directory => sizeOf directory.entries).sum

/-- Only what was in the directory comes onto the stack. -/
theorem stackSize_scanEntries {directory : String} {entries : List (String × FileNode)}
    {directories after : List PendingDirectory} {files filesAfter : List String}
    (h : scanEntries maximum cancelled directory entries directories files =
      .ok (after, filesAfter)) :
    stackSize after < stackSize directories + sizeOf entries := by
  induction entries generalizing directories files with
  | nil =>
      obtain ⟨rfl, -⟩ := Prod.mk.inj (Except.ok.inj h)
      simp
  | cons entry entries ih =>
      obtain ⟨name, node⟩ := entry
      by_cases hcancelled : cancelled.atEntry (entryPath directory name)
      · simp [scanEntries, hcancelled] at h
      · cases node with
        | directory readable below =>
            simp only [scanEntries, hcancelled, Bool.false_eq_true, if_false] at h
            have hlt := ih h
            simp only [stackSize, List.map_cons, List.sum_cons, List.cons.sizeOf_spec,
              Prod.mk.sizeOf_spec, FileNode.directory.sizeOf_spec] at hlt ⊢
            omega
        | file =>
            simp only [scanEntries, hcancelled, Bool.false_eq_true, if_false] at h
            split_ifs at h
            have hlt := ih h
            simp only [List.cons.sizeOf_spec]
            omega
        | link | other | unknown =>
            simp only [scanEntries, hcancelled, Bool.false_eq_true, if_false] at h
            have hlt := ih h
            simp only [List.cons.sizeOf_spec]
            omega

/-- The loop over the stack.
Source: `main.rs`, `collect_scan_targets` -/
def walkDirectories (directories : List PendingDirectory) (files : List String) :
    Except String (List String) :=
  match directories with
  | [] => .ok files
  | ⟨path, readable, entries⟩ :: directories =>
      if cancelled.atDirectory path then .error "Scan cancelled"
      else if readable then
        match _h : scanEntries maximum cancelled path entries directories files with
        | .error error => .error error
        | .ok (directories, files) => walkDirectories directories files
      else walkDirectories directories files
termination_by stackSize directories
decreasing_by
  · have hlt := stackSize_scanEntries maximum cancelled _h
    simp only [stackSize, List.map_cons, List.sum_cons] at hlt ⊢
    omega
  · have hpos : 0 < sizeOf entries := by cases entries <;> simp
    simp only [stackSize, List.map_cons, List.sum_cons]
    omega

end walk

/-- The loop over the roots, of which a link is skipped.
Source: `main.rs`, `collect_scan_targets` -/
def scanRoots (inspect : String → Except String FileNode) : List String →
    List PendingDirectory → List String → Except String (List PendingDirectory × List String)
  | [], directories, files => .ok (directories, files)
  | root :: roots, directories, files =>
      match inspect root with
      | .error error => .error error
      | .ok .file => scanRoots inspect roots directories (files ++ [root])
      | .ok (.directory readable entries) =>
          scanRoots inspect roots (⟨root, readable, entries⟩ :: directories) files
      | .ok _ => scanRoots inspect roots directories files

/-- Source: `main.rs`, `collect_scan_targets` -/
def maximumFiles : ℕ := 1000000

/-- Source: `main.rs`, `collect_scan_targets` -/
def collectScanTargets (inspect : String → Except String FileNode) (cancelled : CancelChecks)
    (roots : List String) : Except String (List String) :=
  match scanRoots inspect roots [] [] with
  | .error error => .error error
  | .ok (directories, files) =>
      (walkDirectories maximumFiles cancelled directories files).map fun files =>
        files.insertionSort fun a b => pathOrderKey a ≤ pathOrderKey b

/-! ## What the walk adds -/

/-- Nobody cancels the scan. -/
def neverCancelled : CancelChecks := ⟨fun _ => false, fun _ => false⟩

@[simp] theorem neverCancelled_atDirectory (path : String) :
    neverCancelled.atDirectory path = false := rfl

@[simp] theorem neverCancelled_atEntry (path : String) : neverCancelled.atEntry path = false := rfl

/-- The path of a place below a root. -/
def pathAt (root : String) (names : List String) : String := names.foldl entryPath root

@[simp] theorem pathAt_nil (root : String) : pathAt root [] = root := rfl

@[simp] theorem pathAt_cons (root name : String) (names : List String) :
    pathAt root (name :: names) = pathAt (entryPath root name) names := rfl

/-- The paths of the files below a node. -/
def targetsBelow (path : String) (node : FileNode) : List String :=
  node.filesBelow.map (pathAt path)

/-- The paths of the files below a directory that is still to be read. -/
def PendingDirectory.targets (directory : PendingDirectory) : List String :=
  targetsBelow directory.path (.directory directory.readable directory.entries)

/-- The files among entries. -/
def directFiles (directory : String) (entries : List (String × FileNode)) : List String :=
  entries.filterMap fun
    | (name, .file) => some (entryPath directory name)
    | _ => none

/-- The directories among entries. -/
def directDirectories (directory : String) (entries : List (String × FileNode)) :
    List PendingDirectory :=
  entries.filterMap fun
    | (name, .directory readable below) => some ⟨entryPath directory name, readable, below⟩
    | _ => none

/-- The limit is met, and it is looked at. -/
def MeetsLimit (maximum : ℕ) (files added : List String) : Prop :=
  added ≠ [] ∧ maximum ≤ files.length + added.length

instance (maximum : ℕ) (files added : List String) : Decidable (MeetsLimit maximum files added) :=
  inferInstanceAs (Decidable (_ ∧ _))

section spec

variable {maximum : ℕ}

/-- The first part of what is added meets the limit, or the rest does after it. -/
theorem meetsLimit_append {files first rest : List String} :
    MeetsLimit maximum files (first ++ rest) ↔
      MeetsLimit maximum files first ∨ MeetsLimit maximum (files ++ first) rest := by
  simp only [MeetsLimit, ne_eq, List.append_eq_nil_iff, List.length_append, not_and_or]
  by_cases hrest : rest = []
  · simp [hrest]
  · constructor
    · rintro ⟨-, h⟩
      exact Or.inr ⟨hrest, by omega⟩
    · rintro (⟨-, h⟩ | ⟨-, h⟩)
      · exact ⟨Or.inr hrest, by omega⟩
      · exact ⟨Or.inr hrest, by omega⟩

theorem meetsLimit_cons {files added : List String} {path : String} :
    MeetsLimit maximum files (path :: added) ↔
      maximum ≤ (files ++ [path]).length ∨ MeetsLimit maximum (files ++ [path]) added := by
  rw [← List.singleton_append, meetsLimit_append]
  simp [MeetsLimit]

/-- Only the number of the files that are added counts. -/
theorem meetsLimit_congr {files added others : List String} (h : added.length = others.length) :
    MeetsLimit maximum files added ↔ MeetsLimit maximum files others := by
  simp only [MeetsLimit, ne_eq, ← List.length_eq_zero_iff, h]

/-- **What a directory adds**: its files, and its directories on top of the stack. -/
theorem scanEntries_spec (directory : String) (entries : List (String × FileNode))
    (directories : List PendingDirectory) (files : List String) :
    scanEntries maximum neverCancelled directory entries directories files =
      if MeetsLimit maximum files (directFiles directory entries) then .error (limitText maximum)
      else .ok ((directDirectories directory entries).reverse ++ directories,
        files ++ directFiles directory entries) := by
  induction entries generalizing directories files with
  | nil => simp [scanEntries, directFiles, directDirectories, MeetsLimit]
  | cons entry entries ih =>
      obtain ⟨name, node⟩ := entry
      cases node with
      | file =>
          have hdirect : directFiles directory ((name, .file) :: entries) =
              entryPath directory name :: directFiles directory entries := rfl
          have hbelow : directDirectories directory ((name, .file) :: entries) =
              directDirectories directory entries := rfl
          simp only [hdirect, hbelow, meetsLimit_cons]
          simp only [scanEntries, neverCancelled_atEntry, Bool.false_eq_true, if_false]
          by_cases hlimit : maximum ≤ (files ++ [entryPath directory name]).length
          · rw [if_pos hlimit, if_pos (Or.inl hlimit)]
          · rw [if_neg hlimit, ih, List.append_assoc]
            simp only [hlimit, false_or]
            rfl
      | directory readable below =>
          have hbelow : directDirectories directory ((name, .directory readable below) :: entries) =
              ⟨entryPath directory name, readable, below⟩ ::
                directDirectories directory entries := rfl
          simp only [scanEntries, neverCancelled_atEntry, Bool.false_eq_true, if_false, ih, hbelow,
            List.reverse_cons, List.append_assoc, List.singleton_append]
          rfl
      | link | other | unknown =>
          simp only [scanEntries, neverCancelled_atEntry, Bool.false_eq_true, if_false, ih]
          rfl

/-- The files below a directory are its files and those below its directories. -/
theorem targetsBelow_directory (path : String) (entries : List (String × FileNode)) :
    (targetsBelow path (.directory true entries)).Perm
      (directFiles path entries ++
        (directDirectories path entries).flatMap PendingDirectory.targets) := by
  induction entries with
  | nil => simp [targetsBelow, directFiles, directDirectories]
  | cons entry entries ih =>
      obtain ⟨name, node⟩ := entry
      have hcons : targetsBelow path (.directory true ((name, node) :: entries)) =
          targetsBelow (entryPath path name) node ++
            targetsBelow path (.directory true entries) := by
        simp [targetsBelow, Function.comp_def]
      rw [hcons]
      cases node with
      | file => simpa [targetsBelow, directFiles, directDirectories] using ih
      | directory readable below =>
          exact (ih.append_left _).trans (List.perm_append_comm_assoc _ _ _)
      | link | other | unknown => simpa [targetsBelow, directFiles, directDirectories] using ih

/-- A directory that can be read. -/
theorem walkDirectories_readable (path : String) (entries : List (String × FileNode))
    (directories : List PendingDirectory) (files : List String) :
    walkDirectories maximum neverCancelled (⟨path, true, entries⟩ :: directories) files =
      (scanEntries maximum neverCancelled path entries directories files).bind
        fun state => walkDirectories maximum neverCancelled state.1 state.2 := by
  rw [walkDirectories]
  simp only [neverCancelled_atDirectory, Bool.false_eq_true, if_false, if_true]
  split
  · rename_i error hscan
    rw [hscan]
    rfl
  · rename_i after filesAfter hscan
    rw [hscan]
    rfl

/-- **What the stack adds**: the files below its directories, unless they meet the limit. -/
theorem walkDirectories_spec (maximum : ℕ) (directories : List PendingDirectory)
    (files : List String) :
    (MeetsLimit maximum files (directories.flatMap PendingDirectory.targets) →
      walkDirectories maximum neverCancelled directories files = .error (limitText maximum)) ∧
    (¬ MeetsLimit maximum files (directories.flatMap PendingDirectory.targets) →
      ∃ targets, walkDirectories maximum neverCancelled directories files = .ok targets ∧
        targets.Perm (files ++ directories.flatMap PendingDirectory.targets)) := by
  induction directories, files using walkDirectories.induct maximum neverCancelled with
  | case1 files => simp [MeetsLimit, walkDirectories]
  | case2 files path readable entries directories hcancelled => simp at hcancelled
  | case3 files path entries directories hcancelled error hscan =>
      have hbelow := targetsBelow_directory path entries
      rw [scanEntries_spec] at hscan
      split_ifs at hscan with hlimit
      obtain rfl := Except.error.inj hscan
      have hmeets : MeetsLimit maximum files
          ((⟨path, true, entries⟩ :: directories).flatMap PendingDirectory.targets) := by
        rw [List.flatMap_cons, meetsLimit_append]
        refine Or.inl ((meetsLimit_congr hbelow.length_eq).mpr ?_)
        rw [meetsLimit_append]
        exact Or.inl hlimit
      refine ⟨fun _ => ?_, fun h => absurd hmeets h⟩
      rw [walkDirectories_readable, scanEntries_spec, if_pos hlimit]
      rfl
  | case4 files path entries directories hcancelled after filesAfter hscan ih =>
      have hwalk : walkDirectories maximum neverCancelled (⟨path, true, entries⟩ :: directories)
          files = walkDirectories maximum neverCancelled after filesAfter := by
        rw [walkDirectories_readable, hscan]
        rfl
      rw [scanEntries_spec] at hscan
      split_ifs at hscan with hlimit
      obtain ⟨rfl, rfl⟩ := Prod.mk.inj (Except.ok.inj hscan)
      -- The walk goes on with the same files in another order.
      have hperm : ((⟨path, true, entries⟩ :: directories).flatMap PendingDirectory.targets).Perm
          (directFiles path entries ++
            ((directDirectories path entries).reverse ++ directories).flatMap
              PendingDirectory.targets) := by
        rw [List.flatMap_cons, List.flatMap_append, ← List.append_assoc]
        refine ((targetsBelow_directory path entries).trans ?_).append_right _
        exact ((List.reverse_perm _).symm.flatMap_right _).append_left _
      have hmeets : MeetsLimit maximum files _ ↔ MeetsLimit maximum files _ :=
        meetsLimit_congr hperm.length_eq
      rw [meetsLimit_append, or_iff_right hlimit] at hmeets
      rw [hwalk, hmeets]
      refine ⟨ih.1, fun h => ?_⟩
      obtain ⟨targets, htargets, htargetsPerm⟩ := ih.2 h
      refine ⟨targets, htargets, htargetsPerm.trans ?_⟩
      rw [List.append_assoc]
      exact hperm.symm.append_left files
  | case5 files path readable entries directories hcancelled hreadable ih =>
      obtain rfl : readable = false := by simpa using hreadable
      have hempty : PendingDirectory.targets ⟨path, false, entries⟩ = [] := by
        simp [PendingDirectory.targets, targetsBelow]
      have hwalk : walkDirectories maximum neverCancelled (⟨path, false, entries⟩ :: directories)
          files = walkDirectories maximum neverCancelled directories files := by
        rw [walkDirectories]
        simp
      rw [List.flatMap_cons, hempty, List.nil_append, hwalk]
      exact ih

end spec

/-! ## The paths -/

/-- A name that Windows allows for a file. -/
def ValidName (name : String) : Prop :=
  name ≠ "" ∧ ∀ c ∈ name.toList, isSeparator c = false ∧ c ≠ ':'

/-- Nothing lies below both roots. -/
def RootsApart (root other : String) : Prop :=
  ∀ names others, (∀ name ∈ names, ValidName name) → (∀ name ∈ others, ValidName name) →
    pathAt root names ≠ pathAt other others

section paths

variable {root directory name : String} {names others : List String}

/-- The path of an entry ends like its name. -/
theorem getLast?_entryPath (directory : String) (h : ValidName name) :
    ∃ c ∈ name.toList, (entryPath directory name).toList.getLast? = some c := by
  have hne : name.toList ≠ [] := by simpa using h.1
  refine ⟨name.toList.getLast hne, List.getLast_mem hne, ?_⟩
  rw [entryPath, String.toList_append, List.getLast?_append_of_ne_nil _ hne,
    List.getLast?_eq_some_getLast hne]

theorem getLast?_of_isDrive {path : String} (h : isDrive path = true) :
    path.toList.getLast? = some ':' := by
  unfold isDrive at h
  split at h
  · rename_i hpath
    rw [hpath]
    rfl
  · simp at h

/-- The path of an entry is followed by a separator. -/
theorem withSeparator_entryPath (h : ValidName name) :
    withSeparator (entryPath directory name) = entryPath directory name ++ "\\" := by
  obtain ⟨c, hc, hlast⟩ := getLast?_entryPath directory h
  obtain ⟨hseparator, hcolon⟩ := h.2 c hc
  have hempty : entryPath directory name ≠ "" := by
    intro hempty
    rw [hempty] at hlast
    simp at hlast
  have hdrive : isDrive (entryPath directory name) = false := by
    by_contra hdrive
    rw [getLast?_of_isDrive (by simpa using hdrive)] at hlast
    exact hcolon (Option.some.inj hlast).symm
  simp [withSeparator, hempty, hdrive, hlast, hseparator]

/-- **The path of a place**: the root and the names, with separators between them. -/
theorem toList_pathAt (root : String) (h : ∀ other ∈ name :: names, ValidName other) :
    (pathAt root (name :: names)).toList =
      (withSeparator root).toList ++ ['\\'].intercalate ((name :: names).map String.toList) := by
  induction names generalizing root name with
  | nil => simp [entryPath]
  | cons next names ih =>
      have hrest := fun other hother => h other (List.mem_cons_of_mem _ hother)
      rw [pathAt_cons, ih _ hrest, withSeparator_entryPath (h name List.mem_cons_self)]
      simp [entryPath]

theorem length_le_withSeparator (root : String) : root.length ≤ (withSeparator root).length := by
  rw [withSeparator]
  split
  · exact le_rfl
  · simp

theorem length_le_pathAt (root : String) (names : List String) :
    root.length ≤ (pathAt root names).length := by
  induction names generalizing root with
  | nil => exact le_rfl
  | cons name names ih =>
      refine le_trans ?_ (ih _)
      rw [entryPath, String.length_append]
      exact le_trans (length_le_withSeparator root) (Nat.le_add_right _ _)

/-- What is below a root has a longer path. -/
theorem length_lt_pathAt (root : String) (names : List String) (h : ValidName name) :
    root.length < (pathAt root (name :: names)).length := by
  refine lt_of_lt_of_le ?_ (length_le_pathAt _ names)
  have hname : 0 < name.length := by
    rw [Nat.pos_iff_ne_zero, ne_eq, String.length_eq_zero_iff]
    exact h.1
  have hroot := length_le_withSeparator root
  rw [entryPath, String.length_append]
  omega

/-- The names are found again between the separators. -/
theorem splitOn_names (hne : names ≠ []) (h : ∀ name ∈ names, ValidName name) :
    (['\\'].intercalate (names.map String.toList)).splitOn '\\' = names.map String.toList := by
  refine List.splitOn_intercalate _ ?_ (by simpa using hne)
  intro chars hchars hmem
  obtain ⟨name, hname, rfl⟩ := List.mem_map.mp hchars
  simpa [isSeparator] using ((h name hname).2 _ hmem).1

/-- **A place is determined by its path.** -/
theorem pathAt_injective (hnames : ∀ name ∈ names, ValidName name)
    (hothers : ∀ name ∈ others, ValidName name) (h : pathAt root names = pathAt root others) :
    names = others := by
  cases names with
  | nil =>
      cases others with
      | nil => rfl
      | cons name others =>
          have hlt := length_lt_pathAt root others (hothers name List.mem_cons_self)
          rw [← h] at hlt
          exact absurd hlt (lt_irrefl _)
  | cons name names =>
      cases others with
      | nil =>
          have hlt := length_lt_pathAt root names (hnames name List.mem_cons_self)
          rw [h] at hlt
          exact absurd hlt (lt_irrefl _)
      | cons other others =>
          have hchars := congrArg String.toList h
          rw [toList_pathAt root hnames, toList_pathAt root hothers] at hchars
          have hparts := congrArg (List.splitOn '\\') (List.append_cancel_left hchars)
          rw [splitOn_names (by simp) hnames, splitOn_names (by simp) hothers] at hparts
          exact List.map_injective_iff.mpr (fun _ _ => String.toList_injective) hparts

end paths

/-! ## The targets -/

/-- What is below the roots of a scan. The names in a directory are names that Windows allows. -/
structure ScannedDisk where
  inspect : String → Except String FileNode
  named : ∀ {root node}, inspect root = .ok node → node.WellNamed ValidName

/-- The files that are reached from the roots without links. -/
def reachableFiles (inspect : String → Except String FileNode) (roots : List String) :
    Set String :=
  {path | ∃ root ∈ roots, ∃ node names, inspect root = .ok node ∧ FileAt node names ∧
    path = pathAt root names}

/-- All roots can be inspected. -/
def Inspectable (inspect : String → Except String FileNode) (roots : List String) : Prop :=
  ∀ root ∈ roots, ∃ node, inspect root = .ok node

/-- **The targets of a scan are complete.** -/
structure TargetsComplete (inspect : String → Except String FileNode) (roots : List String) :
    Prop where
  /-- Not too many files are all found, once, in order. -/
  found : Inspectable inspect roots → (reachableFiles inspect roots).ncard ≤ maximumFiles →
    ∃ targets, collectScanTargets inspect neverCancelled roots = .ok targets ∧ targets.Nodup ∧
      targets.Pairwise (pathOrderKey · ≤ pathOrderKey ·) ∧
      ∀ path, path ∈ targets ↔ path ∈ reachableFiles inspect roots
  /-- There is no other error. -/
  failed : ∀ error, collectScanTargets inspect neverCancelled roots = .error error →
    maximumFiles < (reachableFiles inspect roots).ncard ∨ ¬ Inspectable inspect roots

/-- The roots that are files. -/
def fileRoots (inspect : String → Except String FileNode) (roots : List String) : List String :=
  roots.filterMap fun root =>
    match inspect root with
    | .ok .file => some root
    | _ => none

/-- The roots that are directories. -/
def directoryRoots (inspect : String → Except String FileNode) (roots : List String) :
    List PendingDirectory :=
  roots.filterMap fun root =>
    match inspect root with
    | .ok (.directory readable entries) => some ⟨root, readable, entries⟩
    | _ => none

/-- The paths of the files below the roots. -/
def targetsOf (inspect : String → Except String FileNode) (roots : List String) : List String :=
  roots.flatMap fun root =>
    match inspect root with
    | .ok node => targetsBelow root node
    | .error _ => []

section targets

variable {inspect : String → Except String FileNode} {roots : List String}

/-- The roots that can be inspected are taken over. -/
theorem scanRoots_ok (h : Inspectable inspect roots) (directories : List PendingDirectory)
    (files : List String) :
    scanRoots inspect roots directories files =
      .ok ((directoryRoots inspect roots).reverse ++ directories,
        files ++ fileRoots inspect roots) := by
  induction roots generalizing directories files with
  | nil => simp [scanRoots, directoryRoots, fileRoots]
  | cons root roots ih =>
      obtain ⟨node, hnode⟩ := h root List.mem_cons_self
      have hrest := ih fun other hother => h other (List.mem_cons_of_mem _ hother)
      cases node <;> simp [scanRoots, directoryRoots, fileRoots, hnode, hrest]

/-- The files of the roots are those that are roots and those below directories. -/
theorem targetsOf_perm (inspect : String → Except String FileNode) (roots : List String) :
    (targetsOf inspect roots).Perm (fileRoots inspect roots ++
      (directoryRoots inspect roots).flatMap PendingDirectory.targets) := by
  induction roots with
  | nil => simp [targetsOf, fileRoots, directoryRoots]
  | cons root roots ih =>
      have hcons : targetsOf inspect (root :: roots) =
          (match inspect root with
            | .ok node => targetsBelow root node
            | .error _ => []) ++ targetsOf inspect roots := rfl
      rw [hcons]
      cases hroot : inspect root with
      | error error => simpa [fileRoots, directoryRoots, hroot] using ih
      | ok node =>
          cases node with
          | file => simpa [fileRoots, directoryRoots, hroot, targetsBelow] using ih
          | directory readable entries =>
              refine (ih.append_left _).trans ((List.perm_append_comm_assoc _ _ _).trans ?_)
              simp [fileRoots, directoryRoots, hroot, PendingDirectory.targets]
          | link | other | unknown =>
              simpa [fileRoots, directoryRoots, hroot, targetsBelow] using ih

theorem mem_targetsOf {path : String} :
    path ∈ targetsOf inspect roots ↔ path ∈ reachableFiles inspect roots := by
  simp only [targetsOf, List.mem_flatMap, reachableFiles, Set.mem_ofPred_eq]
  refine exists_congr fun root => and_congr_right fun _ => ?_
  cases hroot : inspect root with
  | error error => simp
  | ok node => simp [targetsBelow, mem_filesBelow, eq_comm]

/-- The files below directories are those that are not roots themselves. -/
theorem directoryRoots_ne_nil :
    (directoryRoots inspect roots).flatMap PendingDirectory.targets ≠ [] ↔
      ∃ root ∈ roots, ∃ node name names, inspect root = .ok node ∧
        FileAt node (name :: names) := by
  simp only [ne_eq, List.eq_nil_iff_forall_not_mem, not_forall, not_not, List.mem_flatMap,
    directoryRoots, List.mem_filterMap, PendingDirectory.targets,
    targetsBelow, List.mem_map, mem_filesBelow]
  constructor
  · rintro ⟨path, directory, ⟨root, hroot, hdirectory⟩, names, hfile, -⟩
    split at hdirectory
    · rename_i readable entries hnode
      obtain rfl := Option.some.inj hdirectory
      cases hfile with
      | entry hentry hrest => exact ⟨root, hroot, _, _, _, hnode, .entry hentry hrest⟩
    · simp at hdirectory
  · rintro ⟨root, hroot, node, name, names, hnode, hfile⟩
    cases hfile with
    | @entry entries _ _ _ hentry hrest =>
        exact ⟨_, ⟨root, true, entries⟩, ⟨root, hroot, by rw [hnode]⟩, _, .entry hentry hrest, rfl⟩

/-- The walk fails exactly at the limit, when it is looked at. -/
theorem collectScanTargets_spec (h : Inspectable inspect roots) :
    (MeetsLimit maximumFiles (fileRoots inspect roots)
        ((directoryRoots inspect roots).flatMap PendingDirectory.targets) →
      collectScanTargets inspect neverCancelled roots = .error (limitText maximumFiles)) ∧
    (¬ MeetsLimit maximumFiles (fileRoots inspect roots)
        ((directoryRoots inspect roots).flatMap PendingDirectory.targets) →
      ∃ targets, collectScanTargets inspect neverCancelled roots = .ok targets ∧
        targets.Perm (targetsOf inspect roots) ∧
        targets.Pairwise (pathOrderKey · ≤ pathOrderKey ·)) := by
  have hperm : ((directoryRoots inspect roots).reverse.flatMap PendingDirectory.targets).Perm
      ((directoryRoots inspect roots).flatMap PendingDirectory.targets) :=
    (List.reverse_perm _).flatMap_right _
  obtain ⟨hlimit, hfound⟩ := walkDirectories_spec maximumFiles
    (directoryRoots inspect roots).reverse (fileRoots inspect roots)
  rw [meetsLimit_congr hperm.length_eq] at hlimit hfound
  unfold collectScanTargets
  rw [scanRoots_ok h, List.append_nil, List.nil_append]
  constructor
  · intro hmeets
    simp only [hlimit hmeets]
    rfl
  · intro hmeets
    obtain ⟨files, hfiles, hfilesPerm⟩ := hfound hmeets
    simp only [hfiles]
    refine ⟨_, rfl, ?_, List.pairwise_insertionSort _ _⟩
    refine (List.perm_insertionSort _ _).trans (hfilesPerm.trans ?_)
    exact (hperm.append_left _).trans (targetsOf_perm inspect roots).symm

/-- **Every file is listed once.** -/
theorem nodup_targetsOf (disk : ScannedDisk) (h : roots.Pairwise RootsApart) :
    (targetsOf disk.inspect roots).Nodup := by
  have hvalid : ∀ {root node names}, disk.inspect root = .ok node → names ∈ node.filesBelow →
      ∀ name ∈ names, ValidName name := by
    intro root node names hnode hnames
    exact FileAt.valid_names (mem_filesBelow.mp hnames) (disk.named hnode)
  rw [targetsOf, List.nodup_flatMap]
  constructor
  · intro root _
    cases hnode : disk.inspect root with
    | error error => simp
    | ok node =>
        refine List.Nodup.map_on ?_ (nodup_filesBelow (disk.named hnode))
        intro names hnames others hothers heq
        exact pathAt_injective (hvalid hnode hnames) (hvalid hnode hothers) heq
  · refine h.imp fun {root other} hroots path hpath hother => ?_
    cases hnode : disk.inspect root with
    | error error => simp [hnode] at hpath
    | ok node =>
        cases hotherNode : disk.inspect other with
        | error error => simp [hotherNode] at hother
        | ok otherNode =>
            simp only [hnode, targetsBelow, List.mem_map] at hpath
            simp only [hotherNode, targetsBelow, List.mem_map] at hother
            obtain ⟨names, hnames, rfl⟩ := hpath
            obtain ⟨others, hothers, heq⟩ := hother
            exact hroots names others (hvalid hnode hnames) (hvalid hotherNode hothers) heq.symm

/-- The number of the files. -/
theorem ncard_reachableFiles (disk : ScannedDisk) (h : roots.Pairwise RootsApart) :
    (reachableFiles disk.inspect roots).ncard = (targetsOf disk.inspect roots).length := by
  have hset : reachableFiles disk.inspect roots =
      ((targetsOf disk.inspect roots).toFinset : Set String) := by
    ext path
    simp [mem_targetsOf]
  rw [hset, Set.ncard_coe_finset, List.toFinset_card_of_nodup (nodup_targetsOf disk h)]

/-- There are exactly as many files as the limit allows, and not all of them are roots. -/
def AtLimit (inspect : String → Except String FileNode) (roots : List String) : Prop :=
  Inspectable inspect roots ∧ (reachableFiles inspect roots).ncard = maximumFiles ∧
    ∃ root ∈ roots, ∃ node name names, inspect root = .ok node ∧ FileAt node (name :: names)

/-- When the limit is met. -/
theorem meetsLimit_iff (disk : ScannedDisk) (h : roots.Pairwise RootsApart) :
    MeetsLimit maximumFiles (fileRoots disk.inspect roots)
        ((directoryRoots disk.inspect roots).flatMap PendingDirectory.targets) ↔
      maximumFiles ≤ (reachableFiles disk.inspect roots).ncard ∧
        ∃ root ∈ roots, ∃ node name names, disk.inspect root = .ok node ∧
          FileAt node (name :: names) := by
  rw [MeetsLimit, directoryRoots_ne_nil, ncard_reachableFiles disk h,
    (targetsOf_perm disk.inspect roots).length_eq, List.length_append, and_comm]

/-- At the limit the scan fails. -/
theorem not_complete_of_atLimit (disk : ScannedDisk) (h : roots.Pairwise RootsApart)
    (hlimit : AtLimit disk.inspect roots) : ¬ TargetsComplete disk.inspect roots := by
  intro hcomplete
  obtain ⟨hroots, hcard, hbelow⟩ := hlimit
  obtain ⟨targets, htargets, -⟩ := hcomplete.found hroots hcard.le
  have hmeets := (meetsLimit_iff disk h).mpr ⟨hcard.ge, hbelow⟩
  rw [(collectScanTargets_spec hroots).1 hmeets] at htargets
  cases htargets

/-- Away from the limit the targets are complete. -/
theorem complete_of_not_atLimit (disk : ScannedDisk) (h : roots.Pairwise RootsApart)
    (hlimit : ¬ AtLimit disk.inspect roots) : TargetsComplete disk.inspect roots where
  found hroots hcard := by
    have hmeets : ¬ MeetsLimit maximumFiles (fileRoots disk.inspect roots)
        ((directoryRoots disk.inspect roots).flatMap PendingDirectory.targets) := by
      rw [meetsLimit_iff disk h]
      rintro ⟨hle, hbelow⟩
      exact hlimit ⟨hroots, le_antisymm hcard hle, hbelow⟩
    obtain ⟨targets, htargets, hperm, hsorted⟩ := (collectScanTargets_spec hroots).2 hmeets
    exact ⟨targets, htargets, hperm.nodup_iff.mpr (nodup_targetsOf disk h), hsorted,
      fun path => hperm.mem_iff.trans mem_targetsOf⟩
  failed error herror := by
    rw [or_iff_not_imp_right, not_not]
    intro hroots
    by_cases hmeets : MeetsLimit maximumFiles (fileRoots disk.inspect roots)
        ((directoryRoots disk.inspect roots).flatMap PendingDirectory.targets)
    · obtain ⟨hle, hbelow⟩ := (meetsLimit_iff disk h).mp hmeets
      exact lt_of_le_of_ne hle fun hcard => hlimit ⟨hroots, hcard.symm, hbelow⟩
    · obtain ⟨targets, htargets, -⟩ := (collectScanTargets_spec hroots).2 hmeets
      rw [htargets] at herror
      cases herror

/-- **The targets are complete unless there are exactly as many files as the limit allows.** -/
theorem targetsComplete_iff (disk : ScannedDisk) (roots : List String)
    (h : roots.Pairwise RootsApart) :
    TargetsComplete disk.inspect roots ↔ ¬ AtLimit disk.inspect roots := by
  constructor
  · intro hcomplete hlimit
    exact not_complete_of_atLimit disk h hlimit hcomplete
  · exact complete_of_not_atLimit disk h

end targets

/-! ## A directory with many files -/

theorem validName_toString (n : ℕ) : ValidName (toString n) := by
  have hdigits : (toString n).toList = Nat.toDigits 10 n := String.toList_ofList
  constructor
  · intro hempty
    rw [hempty] at hdigits
    exact Nat.toDigits_ne_nil hdigits.symm
  · intro c hc
    rw [hdigits] at hc
    have hdigit := Nat.isDigit_of_mem_toDigits (by decide) (by decide) hc
    have hne : ∀ other : Char, other.isDigit = false → c ≠ other := by
      rintro other hother rfl
      simp [hdigit] at hother
    simp [isSeparator, hne '\\' rfl, hne '/' rfl, hne ':' rfl]

/-- A directory with numbered files, and a file on another drive. -/
def crowdedDisk (count : ℕ) : ScannedDisk where
  inspect root :=
    if root = "C:\\data" then
      .ok (.directory true ((List.range count).map fun i => (toString i, .file)))
    else if root = "D:\\notes.txt" then .ok .file
    else .error "The system cannot find the file specified. (os error 2)"
  named := by
    intro root node hnode
    split_ifs at hnode
    · obtain rfl := Except.ok.inj hnode
      refine .directory ?_ ?_ ?_
      · rw [List.map_map]
        exact List.nodup_range.map toString_nat_injective
      · intro entry hentry
        obtain ⟨i, -, rfl⟩ := List.mem_map.mp hentry
        exact validName_toString i
      · intro entry hentry
        obtain ⟨i, -, rfl⟩ := List.mem_map.mp hentry
        exact .leaf nofun
    · obtain rfl := Except.ok.inj hnode
      exact .leaf nofun

theorem crowdedDisk_inspect (count : ℕ) :
    (crowdedDisk count).inspect "C:\\data" =
      .ok (.directory true ((List.range count).map fun i => (toString i, .file))) := by
  simp [crowdedDisk]

/-- The path of a place starts with its root. -/
theorem pathAt_eq_append (root : String) (names : List String) :
    ∃ rest, pathAt root names = root ++ rest := by
  induction names generalizing root with
  | nil => exact ⟨"", by simp⟩
  | cons name names ih =>
      obtain ⟨rest, hrest⟩ := ih (entryPath root name)
      rw [pathAt_cons, hrest, entryPath, withSeparator]
      split
      · exact ⟨name ++ rest, String.append_assoc⟩
      · exact ⟨"\\" ++ name ++ rest, by simp [String.append_assoc]⟩

theorem drives_apart : RootsApart "C:\\data" "D:\\notes.txt" := by
  intro names others _ _ h
  obtain ⟨rest, hrest⟩ := pathAt_eq_append "C:\\data" names
  obtain ⟨more, hmore⟩ := pathAt_eq_append "D:\\notes.txt" others
  rw [hrest, hmore] at h
  have hchars := congrArg (fun path => path.toList.head?) h
  simp [String.toList_append] at hchars

theorem ncard_crowdedDisk (count : ℕ) :
    (reachableFiles (crowdedDisk count).inspect ["C:\\data", "D:\\notes.txt"]).ncard =
      count + 1 := by
  rw [ncard_reachableFiles _ (by simpa using drives_apart)]
  simp [targetsOf, crowdedDisk, targetsBelow, List.flatMap_map]

/-- Ten files below one root and one that is a root are all found. -/
theorem crowdedDisk_complete :
    ["C:\\data", "D:\\notes.txt"].Pairwise RootsApart ∧
      TargetsComplete (crowdedDisk 10).inspect ["C:\\data", "D:\\notes.txt"] := by
  have hapart : ["C:\\data", "D:\\notes.txt"].Pairwise RootsApart := by simpa using drives_apart
  refine ⟨hapart, (targetsComplete_iff (crowdedDisk 10) _ hapart).mpr ?_⟩
  rintro ⟨-, hcard, -⟩
  rw [ncard_crowdedDisk] at hcard
  simp [maximumFiles] at hcard

/-- A million files are not found. -/
theorem crowdedDisk_not_complete :
    ["C:\\data", "D:\\notes.txt"].Pairwise RootsApart ∧
      Inspectable (crowdedDisk 999999).inspect ["C:\\data", "D:\\notes.txt"] ∧
      (reachableFiles (crowdedDisk 999999).inspect ["C:\\data", "D:\\notes.txt"]).ncard =
        maximumFiles ∧
      ¬ TargetsComplete (crowdedDisk 999999).inspect ["C:\\data", "D:\\notes.txt"] := by
  have hapart : ["C:\\data", "D:\\notes.txt"].Pairwise RootsApart := by simpa using drives_apart
  have hroots : Inspectable (crowdedDisk 999999).inspect ["C:\\data", "D:\\notes.txt"] := by
    simp [Inspectable, crowdedDisk]
  have hcard := ncard_crowdedDisk 999999
  refine ⟨hapart, hroots, hcard, not_complete_of_atLimit _ hapart ⟨hroots, hcard, ?_⟩⟩
  refine ⟨"C:\\data", List.mem_cons_self, _, toString 0, [], crowdedDisk_inspect _, .entry ?_ .file⟩
  exact List.mem_map.mpr ⟨0, List.mem_range.mpr (by omega), rfl⟩

end OpenGuard.Service
