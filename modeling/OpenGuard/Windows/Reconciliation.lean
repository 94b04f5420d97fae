import OpenGuard.Windows.FileMonitor

/-!
# What a drain reports

`drain` gives the queued notifications, as many as its limit allows, and when a reconciliation is
due also differences between the baseline and an enumeration of the watched roots, under what is
left of the limit.

* `drain_events`: the events of a drain.
* `drain_keeps_bound_iff`: when they are at most as many as the limit allows.
* `Disk`: what is below the roots, and what of it cannot be read at the moment.
* `mem_enumerate_iff`: an enumeration that reads everything and is not cut off finds all files.
* `reconciliation_truthful_iff`: when every report is true of the files.
-/

namespace OpenGuard.Windows

open OpenGuard.Lib

/-! ## The bound of a drain -/

/-- The drain finds a gap, now or one that is left from an earlier drain, and has a baseline.
Source: `file_monitor.rs`, `FileMonitor::drain` -/
def reconcileDue (fs : FileSystem) (monitor : FileMonitor) : Bool :=
  (monitor.pendingReconcile || decide (monitor.previousDropped < monitor.dropped) ||
      journalChanged monitor.checkpoint (monitor.roots.head?.bind fs.usnCheckpoint)) &&
    (receiveBaseline fs monitor).baselineReady

/-- No reconciliation is due; or the notifications leave room under a limit of at most 4096, or the
first file of the enumeration is as in the baseline; or, under a greater limit, the notifications
and the differences together are at most 4096. -/
def BoundKept (fs : FileSystem) (order : IterOrder String FileFingerprint) (limit : ℕ)
    (monitor : FileMonitor) : Prop :=
  let baseline := (receiveBaseline fs monitor).baseline
  let current := enumerate fs monitor.roots
  reconcileDue fs monitor = false ∨
    (limit ≤ 4096 ∧ (monitor.queue.length < max 1 limit ∨
      ∀ file ∈ (order.entries current).head?, reconcileAction baseline file.1 file.2 = none)) ∨
    (4096 < limit ∧ min 4096 monitor.queue.length + (changedFiles baseline current).length +
      (removedFiles baseline current).length ≤ 4096)

section bound

variable {fs : FileSystem} {order : IterOrder String FileFingerprint} {now : String}
  {limit room : ℕ} {baseline current : Fingerprints} {monitor : FileMonitor}

/-- The queue does not matter for the baseline that is received. -/
theorem receiveBaseline_queue (queue : List FileActivity) :
    receiveBaseline fs { monitor with queue } = { receiveBaseline fs monitor with queue } := by
  obtain ⟨_, _, _, _, receiver, ready, _, _, _, _⟩ := monitor
  cases ready with
  | true => rfl
  | false => cases receiver <;> rfl

variable (fs monitor) in
/-- Receiving the baseline changes the baseline only. -/
theorem receiveBaseline_rest :
    (receiveBaseline fs monitor).roots = monitor.roots ∧
      (receiveBaseline fs monitor).dropped = monitor.dropped ∧
      (receiveBaseline fs monitor).previousDropped = monitor.previousDropped ∧
      (receiveBaseline fs monitor).checkpoint = monitor.checkpoint ∧
      (receiveBaseline fs monitor).pendingReconcile = monitor.pendingReconcile := by
  unfold receiveBaseline
  split_ifs
  · exact ⟨rfl, rfl, rfl, rfl, rfl⟩
  · cases monitor.baselineReceiver <;> exact ⟨rfl, rfl, rfl, rfl, rfl⟩

/-- **The events of a drain**: the notifications it takes, and with a reconciliation what that
finds. -/
theorem drain_events (fs : FileSystem) (order : IterOrder String FileFingerprint) (now : String)
    (limit : ℕ) (monitor : FileMonitor) :
    (drain fs order now limit monitor).1.events =
      monitor.queue.take (clampLimit limit) ++
        if reconcileDue fs monitor then
          reconcileEvents order now (limit - (monitor.queue.take (clampLimit limit)).length)
            (receiveBaseline fs monitor).baseline (enumerate fs monitor.roots)
        else [] := by
  obtain ⟨hroots, hdropped, hprevious, hcheckpoint, hpending⟩ :=
    receiveBaseline_rest fs monitor
  unfold drain reconcileDue
  simp only [receiveBaseline_queue, hroots, hdropped, hprevious, hcheckpoint]
  generalize journalChanged monitor.checkpoint _ = changed
  by_cases hgap : monitor.previousDropped < monitor.dropped ∨ changed
  · have hdue : (monitor.pendingReconcile ||
        decide (monitor.previousDropped < monitor.dropped) || changed) = true := by
      simpa [Bool.or_assoc] using Or.inr hgap
    simp only [hgap, if_true, hdue, Bool.true_and]
    cases (receiveBaseline fs monitor).baselineReady with
    | true => simp [reconcile]
    | false => simp
  · have hdue : (monitor.pendingReconcile ||
        decide (monitor.previousDropped < monitor.dropped) || changed) =
          monitor.pendingReconcile := by
      simp only [not_or, Bool.not_eq_true] at hgap
      simp [hgap.1, hgap.2]
    simp only [hgap, if_false, hdue, hpending]
    cases monitor.pendingReconcile && (receiveBaseline fs monitor).baselineReady with
    | true => simp [reconcile]
    | false => cases (receiveBaseline fs monitor).baselineReady <;> simp

/-- The number of reports, with room for at least one. -/
theorem length_reconcileEvents (hroom : 0 < room) :
    (reconcileEvents order now room baseline current).length =
      min room ((changedFiles baseline current).length +
        (removedFiles baseline current).length) := by
  have hpaths : ((reconcileEvents order now room baseline current).map (·.path)).length = _ :=
    congrArg List.length (map_path_reconcileEvents hroom)
  rwa [List.length_map, List.length_map, List.length_take, List.length_append,
    length_changed_order, length_removed_order] at hpaths

/-- Without room there is one report or none. -/
theorem length_reconcileEvents_zero :
    (reconcileEvents order now 0 baseline current).length =
      if ∀ file ∈ (order.entries current).head?, reconcileAction baseline file.1 file.2 = none
        then 0 else 1 := by
  have hpaths : ((reconcileEvents order now 0 baseline current).map (·.path)).length = _ :=
    congrArg List.length map_path_reconcileEvents_zero
  rw [List.length_map, List.length_map] at hpaths
  rw [hpaths]
  cases (order.entries current).head? with
  | none => simp
  | some file => cases haction : reconcileAction baseline file.1 file.2 <;> simp [haction]

end bound

/-- **When a drain keeps its bound.** A drain returns at most as many events as its limit allows
exactly when `BoundKept` holds: without room, one changed file is still reported, and a limit above
4096 is not clamped for the reconciliation. -/
theorem drain_keeps_bound_iff (fs : FileSystem) (order : IterOrder String FileFingerprint)
    (now : String) (limit : ℕ) (monitor : FileMonitor) :
    (drain fs order now limit monitor).1.events.length ≤ clampLimit limit ↔
      BoundKept fs order limit monitor := by
  rw [drain_events, List.length_append]
  unfold BoundKept
  have htaken : (monitor.queue.take (clampLimit limit)).length =
      min (clampLimit limit) monitor.queue.length := List.length_take
  set taken := (monitor.queue.take (clampLimit limit)).length
  generalize (receiveBaseline fs monitor).baseline = baseline
  generalize enumerate fs monitor.roots = current
  have hclamp : clampLimit limit = max 1 (min limit 4096) := rfl
  cases reconcileDue fs monitor with
  | false =>
      simp only [Bool.false_eq_true, if_false, List.length_nil, true_or, iff_true]
      omega
  | true =>
      simp only [if_true, Bool.true_eq_false, false_or]
      rcases Nat.eq_zero_or_pos (limit - taken) with hfull | hroom
      · -- the notifications take all of the limit
        rw [hfull, length_reconcileEvents_zero]
        split_ifs with hsame
        · exact ⟨fun _ => .inl ⟨by omega, .inr hsame⟩, fun _ => by omega⟩
        · simp only [hsame, or_false]
          omega
      · rw [length_reconcileEvents hroom]
        set differences := (changedFiles baseline current).length +
          (removedFiles baseline current).length with hdifferences
        by_cases hlarge : 4096 < limit
        · constructor
          · intro hbound
            refine .inr ⟨hlarge, ?_⟩
            omega
          · rintro (⟨hsmall, -⟩ | ⟨-, hbound⟩)
            · omega
            · omega
        · constructor
          · intro hbound
            refine .inl ⟨by omega, .inl ?_⟩
            omega
          · intro hkept
            omega

/-- The monitor of a folder with two new files, with one notification in its queue. -/
def notifiedMonitor : FileMonitor :=
  { gapMonitor with
    queue := [⟨"modified", "C:\\watched\\b.txt", "read_directory_changes", "unix:19"⟩] }

/-- A drain with the limit 1 gives two events. -/
theorem drain_exceeds_bound :
    (drain twoFiles .stored "unix:20" 1 notifiedMonitor).1.events.length = 2 ∧
      ¬ (drain twoFiles .stored "unix:20" 1 notifiedMonitor).1.events.length ≤ clampLimit 1 := by
  have hlength : (drain twoFiles .stored "unix:20" 1 notifiedMonitor).1.events.length = 2 := by
    decide
  exact ⟨hlength, by rw [hlength]; decide⟩

/-! ## Files below the roots -/

/-- What is below a directory, in the order of its entries. -/
inductive Tree where
  | nil
  | entry (path : String) (metadata : FileMetadata) (contents rest : Tree)
  deriving DecidableEq, Inhabited

/-- What can be read of it while some paths cannot be read. -/
def Tree.listing (denied : String → Bool) : Tree → Listing
  | nil => .nil
  | entry path metadata contents rest =>
      .entry path (if denied path then none else some metadata) (!denied path)
        (contents.listing denied) (rest.listing denied)

/-- The regular files, with their fingerprints. What is behind a link is not below the
directory. -/
def Tree.files : Tree → List (String × FileFingerprint)
  | nil => []
  | entry path metadata contents rest =>
      (if metadata.isDir then if metadata.isSymlink then [] else contents.files
        else if metadata.isFile then [(path, metadata.fingerprint)] else []) ++ rest.files

/-- A file system and what is really there: what is below each root, and the paths that cannot be
read at the moment. `location` tells where a path leads, so a canonical path leads to the same
place. -/
structure Disk (location : String → String) where
  fs : FileSystem
  below : String → Tree
  denied : String → Bool
  readDir : ∀ root, fs.readDir root =
    if denied root then none else some ((below root).listing denied)
  resolves : ∀ path name, fs.canonicalize path = some name → location name = location path

section disk

variable {location : String → String}

/-- The regular files below the roots. -/
def Disk.files (disk : Disk location) (roots : List String) : List (String × FileFingerprint) :=
  roots.flatMap fun root => (disk.below root).files

/-- A regular file is at the path. -/
def Disk.Holds (disk : Disk location) (roots : List String) (path : String) : Prop :=
  ∃ file ∈ disk.files roots, location file.1 = location path

theorem Disk.location_normalized (disk : Disk location) (path : String) :
    location (normalized disk.fs path) = location path := by
  unfold normalized
  cases hname : disk.fs.canonicalize path with
  | none => rfl
  | some name => exact disk.resolves path name hname

end disk

/-! ### What an enumeration finds is there -/

section sound

variable {location : String → String} {fs : FileSystem} {denied : String → Bool}
  {files : List (String × FileFingerprint)}

/-- The entries of a table come from files, under their normalized paths. -/
def ComesFrom (fs : FileSystem) (files : List (String × FileFingerprint)) (found : Fingerprints) :
    Prop :=
  ∀ path fingerprint, found.lookup path = some fingerprint →
    ∃ file ∈ files, normalized fs file.1 = path ∧ file.2 = fingerprint

theorem ComesFrom.insert {found : Fingerprints} (h : ComesFrom fs files found) {path : String}
    {fingerprint : FileFingerprint} (hfile : (path, fingerprint) ∈ files) :
    ComesFrom fs files (found.insert (normalized fs path) fingerprint) := by
  intro other value hlookup
  obtain ⟨rfl, rfl⟩ | ⟨-, hold⟩ := Table.lookup_insert_eq_some_iff.mp hlookup
  · exact ⟨_, hfile, rfl, rfl⟩
  · exact h other value hold

/-- The loop over the entries adds files of the tree only. -/
theorem comesFrom_enumerateEntries {pending : Fingerprints → Fingerprints} (tree : Tree)
    (htree : tree.files ⊆ files)
    (hpending : ∀ found, ComesFrom fs files found → ComesFrom fs files (pending found))
    {found : Fingerprints} (hfound : ComesFrom fs files found) :
    ComesFrom fs files (enumerateEntries fs (tree.listing denied) pending found) := by
  induction tree generalizing pending found with
  | nil => exact hpending found hfound
  | entry path metadata contents rest ihcontents ihrest =>
      rw [Tree.files, List.append_subset] at htree
      obtain ⟨hhere, hrest⟩ := htree
      unfold Tree.listing enumerateEntries
      split_ifs with hfull hdenied
      · exact hfound
      · exact ihrest hrest hpending hfound
      · dsimp only
        by_cases hdir : metadata.isDir = true
        · rw [if_pos hdir] at hhere ⊢
          by_cases hlink : metadata.isSymlink = true
          · simp only [hlink, Bool.not_true, Bool.false_and, Bool.false_eq_true, if_false]
            exact ihrest hrest hpending hfound
          · rw [if_neg hlink] at hhere
            simp only [hlink, hdenied, Bool.not_false, Bool.and_self, if_true]
            exact ihrest hrest (fun found hfound => ihcontents hhere hpending hfound) hfound
        · rw [if_neg hdir] at hhere ⊢
          by_cases hfile : metadata.isFile = true
          · rw [if_pos hfile] at hhere ⊢
            exact ihrest hrest hpending (hfound.insert (hhere List.mem_cons_self))
          · rw [if_neg hfile]
            exact ihrest hrest hpending hfound

/-- The directories on the stack. -/
theorem comesFrom_foldl_roots (disk : Disk location) (roots : List String)
    (hroots : disk.files roots ⊆ files) {pending : Fingerprints → Fingerprints}
    (hpending : ∀ found, ComesFrom disk.fs files found → ComesFrom disk.fs files (pending found))
    {found : Fingerprints} (hfound : ComesFrom disk.fs files found) :
    ComesFrom disk.fs files (roots.foldl (fun pending root =>
      match disk.fs.readDir root with
      | none => pending
      | some entries => enumerateEntries disk.fs entries pending) pending found) := by
  induction roots generalizing pending with
  | nil => exact hpending found hfound
  | cons root roots ih =>
      rw [Disk.files, List.flatMap_cons, List.append_subset] at hroots
      rw [List.foldl_cons, disk.readDir]
      refine ih hroots.2 ?_
      split_ifs
      · exact hpending
      · exact fun found hfound =>
          comesFrom_enumerateEntries (disk.below root) hroots.1 hpending hfound

/-- **What an enumeration finds is there**, with its fingerprint. -/
theorem comesFrom_enumerate (disk : Disk location) (roots : List String) :
    ComesFrom disk.fs (disk.files roots) (enumerate disk.fs roots) :=
  comesFrom_foldl_roots disk roots (List.Subset.refl _) (fun _ h => h) fun path fingerprint h => by
    rw [AList.lookup_empty] at h
    cases h

theorem Disk.holds_of_enumerate (disk : Disk location) {roots : List String} {path : String}
    (h : path ∈ enumerate disk.fs roots) : disk.Holds roots path := by
  obtain ⟨fingerprint, hlookup⟩ := Table.exists_lookup_of_mem h
  obtain ⟨file, hfile, hpath, -⟩ := comesFrom_enumerate disk roots path fingerprint hlookup
  exact ⟨file, hfile, by rw [← hpath, disk.location_normalized]⟩

end sound

/-! ### What is there is found -/

/-- No entry is denied that an enumeration has to read. -/
def Tree.Readable (denied : String → Bool) : Tree → Prop
  | nil => True
  | entry path metadata contents rest =>
      denied path = false ∧ (metadata.isDir = true → metadata.isSymlink = false →
        contents.Readable denied) ∧ rest.Readable denied

section complete

variable {location : String → String} {fs : FileSystem} {denied : String → Bool}
  {files others : List (String × FileFingerprint)} {pending : Fingerprints → Fingerprints}

/-- Nothing below the roots is denied. -/
def Disk.Readable (disk : Disk location) (roots : List String) : Prop :=
  ∀ root ∈ roots, disk.denied root = false ∧ (disk.below root).Readable disk.denied

/-- With room for all of the files, they are added under their normalized paths, and no others. -/
def Adds (fs : FileSystem) (files : List (String × FileFingerprint))
    (pending : Fingerprints → Fingerprints) : Prop :=
  ∀ found : Fingerprints, found.size + files.length ≤ maxReconcileFiles →
    (pending found).size ≤ found.size + files.length ∧
      ∀ path, path ∈ pending found ↔ path ∈ found ∨ ∃ file ∈ files, normalized fs file.1 = path

theorem Adds.perm (h : Adds fs files pending) (hperm : files.Perm others) :
    Adds fs others pending := by
  intro found hroom
  rw [← hperm.length_eq] at hroom ⊢
  obtain ⟨hsize, hmem⟩ := h found hroom
  refine ⟨hsize, fun path => (hmem path).trans (or_congr_right ?_)⟩
  exact exists_congr fun file => and_congr_left fun _ => hperm.mem_iff

/-- A file that is found is one more. -/
theorem Adds.insert (h : Adds fs files pending) (path : String) (fingerprint : FileFingerprint) :
    Adds fs ((path, fingerprint) :: files)
      (fun found => pending (found.insert (normalized fs path) fingerprint)) := by
  intro found hroom
  have hone := Table.size_insert_le found (normalized fs path) fingerprint
  rw [List.length_cons] at hroom ⊢
  obtain ⟨hsize, hmem⟩ := h (found.insert (normalized fs path) fingerprint) (by omega)
  refine ⟨hsize.trans (by omega), fun other => (hmem other).trans ?_⟩
  rw [AList.mem_insert, List.exists_mem_cons_iff, or_assoc, or_left_comm, eq_comm]

/-- The loop over the entries adds all files of the tree. -/
theorem adds_enumerateEntries (tree : Tree) (hread : tree.Readable denied)
    (hpending : Adds fs files pending) :
    Adds fs (tree.files ++ files) (enumerateEntries fs (tree.listing denied) pending) := by
  induction tree generalizing pending files with
  | nil => exact hpending
  | entry path metadata contents rest ihcontents ihrest =>
      obtain ⟨hdenied, hcontents, hrest⟩ := hread
      intro found hroom
      unfold Tree.listing enumerateEntries
      by_cases hfull : maxReconcileFiles ≤ found.size
      · -- the table is full, and so no file is left
        have hnone : Tree.files (.entry path metadata contents rest) ++ files = [] :=
          List.length_eq_zero_iff.mp (by omega)
        rw [if_pos hfull, hnone]
        exact ⟨Nat.le_refl _, fun other => by simp⟩
      · rw [if_neg hfull, if_neg (by simp [hdenied])]
        dsimp only
        rw [hdenied, Bool.not_false, Bool.and_true]
        cases hdir : metadata.isDir with
        | true =>
            cases hlink : metadata.isSymlink with
            | true =>
                have hfiles : Tree.files (.entry path metadata contents rest) = rest.files := by
                  simp [Tree.files, hdir, hlink]
                rw [hfiles] at hroom ⊢
                exact ihrest hrest hpending found hroom
            | false =>
                have hfiles : Tree.files (.entry path metadata contents rest) =
                    contents.files ++ rest.files := by
                  simp [Tree.files, hdir, hlink]
                rw [hfiles] at hroom ⊢
                have hperm : (rest.files ++ (contents.files ++ files)).Perm
                    (contents.files ++ rest.files ++ files) := by
                  rw [← List.append_assoc]
                  exact List.perm_append_comm.append_right files
                have hboth := ihrest hrest (ihcontents (hcontents hdir hlink) hpending)
                exact hboth.perm hperm found hroom
        | false =>
            cases hfile : metadata.isFile with
            | true =>
                have hfiles : Tree.files (.entry path metadata contents rest) =
                    (path, metadata.fingerprint) :: rest.files := by
                  simp [Tree.files, hdir, hfile]
                rw [hfiles] at hroom ⊢
                exact (ihrest hrest hpending).insert path metadata.fingerprint found hroom
            | false =>
                have hfiles : Tree.files (.entry path metadata contents rest) = rest.files := by
                  simp [Tree.files, hdir, hfile]
                rw [hfiles] at hroom ⊢
                exact ihrest hrest hpending found hroom

theorem adds_foldl_roots (disk : Disk location) (roots : List String)
    (hread : disk.Readable roots) (hpending : Adds disk.fs files pending) :
    Adds disk.fs (disk.files roots ++ files) (roots.foldl (fun pending root =>
      match disk.fs.readDir root with
      | none => pending
      | some entries => enumerateEntries disk.fs entries pending) pending) := by
  induction roots generalizing pending files with
  | nil => exact hpending
  | cons root roots ih =>
      obtain ⟨⟨hroot, hbelow⟩, hroots⟩ := List.forall_mem_cons.mp hread
      rw [List.foldl_cons, disk.readDir, hroot]
      have hrest := ih hroots (adds_enumerateEntries (disk.below root) hbelow hpending)
      refine hrest.perm ?_
      rw [Disk.files, Disk.files, List.flatMap_cons, ← List.append_assoc]
      exact List.perm_append_comm.append_right files

/-- **An enumeration that reads everything and is not cut off** finds the files that are there. -/
theorem mem_enumerate_iff (disk : Disk location) {roots : List String}
    (hread : disk.Readable roots) (hfew : (disk.files roots).length ≤ maxReconcileFiles)
    (path : String) :
    path ∈ enumerate disk.fs roots ↔
      ∃ file ∈ disk.files roots, normalized disk.fs file.1 = path := by
  have hnothing : Adds disk.fs [] id := by
    intro found hroom
    exact ⟨Nat.le_refl _, fun path => by simp⟩
  have hall := adds_foldl_roots disk roots hread hnothing
  rw [List.append_nil] at hall
  obtain ⟨-, hmem⟩ := hall ∅ (by
    have hzero : Table.size (∅ : Fingerprints) = 0 := rfl
    omega)
  refine (hmem path).trans (or_iff_right ?_)
  exact AList.notMem_empty path

end complete

/-! ## The truth of the reports -/

section truth

variable {location : String → String}

/-- What a report of a reconciliation says is so: no regular file is at a removed path; at a created
path is a file that the enumeration before did not find because it was not there; at a modified path
is a file with another length or time than in the baseline. -/
structure TrueReport (before disk : Disk location) (roots : List String) (baseline : Fingerprints)
    (activity : FileActivity) : Prop where
  removed : activity.action = "removed" → ¬ disk.Holds roots activity.path
  created : activity.action = "created" → disk.Holds roots activity.path ∧
    activity.path ∉ enumerate before.fs roots ∧ ¬ before.Holds roots activity.path
  modified : activity.action = "modified" → ∃ file ∈ disk.files roots,
    location file.1 = location activity.path ∧
      ∃ previous, baseline.lookup activity.path = some previous ∧ previous ≠ file.2

/-- Every file that is found now and was there at the enumeration before is in the baseline, and,
unless the changed files fill the limit, every file of the baseline that is still there is found
now. -/
def NoneOverlooked (before disk : Disk location) (limit : ℕ) (monitor : FileMonitor) : Prop :=
  let current := enumerate disk.fs monitor.roots
  (∀ path ∈ current, before.Holds monitor.roots path → path ∈ monitor.baseline) ∧
    ((changedFiles monitor.baseline current).length < limit →
      ∀ path ∈ monitor.baseline, disk.Holds monitor.roots path → path ∈ current)

variable {before disk : Disk location} {order : IterOrder String FileFingerprint} {now : String}
  {limit : ℕ} {baseline current : Fingerprints} {roots : List String} {path : String}
  {activity : FileActivity}

/-- The removed files are reported only while the changed files leave room. -/
theorem length_changed_lt
    (h : (pushUntil limit (fun file => (reconcileAction baseline file.1 file.2).map
      fun action => reconciliation now action file.1) (order.entries current) []).length < limit) :
    (changedFiles baseline current).length < limit := by
  rw [pushUntil_of_lt (Nat.zero_lt_of_lt h), List.nil_append, List.length_take, List.length_nil,
    Nat.sub_zero] at h
  have hreports : (((order.entries current).filterMap fun file =>
      (reconcileAction baseline file.1 file.2).map
        fun action => reconciliation now action file.1).map (·.path)).length = _ :=
    congrArg List.length (map_path_filterMap_action now (order.entries current))
  rw [List.length_map, List.length_map, length_changed_order] at hreports
  omega

/-- A report is that of a file of the enumeration, or that of a file of the baseline that the
enumeration misses. -/
theorem mem_reconcileEvents
    (h : activity ∈ reconcileEvents order now limit baseline current) :
    (∃ path fingerprint action, current.lookup path = some fingerprint ∧
        reconcileAction baseline path fingerprint = some action ∧
        activity = reconciliation now action path) ∨
      ((changedFiles baseline current).length < limit ∧ ∃ path, path ∈ baseline ∧ path ∉ current ∧
        activity = reconciliation now "removed" path) := by
  have hchanged {file : Sigma fun _ : String => FileFingerprint}
      (hmem : file ∈ order.entries current)
      (hreport : (reconcileAction baseline file.1 file.2).map
        (fun action => reconciliation now action file.1) = some activity) :
      ∃ path fingerprint action, current.lookup path = some fingerprint ∧
        reconcileAction baseline path fingerprint = some action ∧
        activity = reconciliation now action path := by
    obtain ⟨action, haction, rfl⟩ := Option.map_eq_some_iff.mp hreport
    exact ⟨file.1, file.2, action, Table.mem_entries_iff.mp (order.mem_entries.mp hmem), haction,
      rfl⟩
  unfold reconcileEvents at h
  dsimp only at h
  split_ifs at h with hroom
  · obtain hfirst | ⟨file, hmem, hreport⟩ := mem_pushUntil h
    · obtain hnone | ⟨file, hmem, hreport⟩ := mem_pushUntil hfirst
      · cases hnone
      · exact .inl (hchanged hmem hreport)
    · obtain ⟨hentry, hmissing⟩ := List.mem_filter.mp hmem
      have hlookup : baseline.lookup file.1 = some file.2 :=
        Table.mem_entries_iff.mp (order.mem_entries.mp hentry)
      refine .inr ⟨length_changed_lt hroom, file.1, Table.mem_of_lookup_eq_some hlookup,
        fun hin => ?_, (Option.some.inj hreport).symm⟩
      rw [← AList.lookup_isSome, Option.isNone_iff_eq_none.mp hmissing] at hin
      cases hin
  · obtain hnone | ⟨file, hmem, hreport⟩ := mem_pushUntil h
    · cases hnone
    · exact .inl (hchanged hmem hreport)

/-- A file that the baseline misses is reported as created when it is met first. -/
theorem created_mem_reconcileEvents (limit : ℕ) (hcurrent : path ∈ current)
    (hbaseline : path ∉ baseline) :
    reconciliation now "created" path ∈
      reconcileEvents (.first path) now limit baseline current := by
  obtain ⟨fingerprint, hlookup⟩ := Table.exists_lookup_of_mem hcurrent
  have haction : reconcileAction baseline path fingerprint = some "created" := by
    unfold reconcileAction
    rw [AList.lookup_eq_none.mpr hbaseline]
  have hpath : path ∈
      (reconcileEvents (.first path) now limit baseline current).map (·.path) := by
    rcases Nat.eq_zero_or_pos limit with rfl | hroom
    · have hhead := IterOrder.head?_filter_first (p := fun _ => true) hlookup rfl
      rw [List.filter_true] at hhead
      rw [map_path_reconcileEvents_zero, hhead]
      simp [haction]
    · have hhead := IterOrder.head?_filter_first
        (p := fun file => (reconcileAction baseline file.1 file.2).isSome) hlookup
        (by simp [haction])
      obtain ⟨rest, hrest⟩ := List.head?_eq_some_iff.mp hhead
      obtain ⟨room, rfl⟩ : ∃ room, limit = room + 1 := ⟨limit - 1, by omega⟩
      rw [map_path_reconcileEvents hroom, hrest]
      exact List.mem_cons_self
  obtain ⟨activity, hmem, rfl⟩ := List.mem_map.mp hpath
  obtain ⟨other, fingerprint', action, hlookup', haction', rfl⟩ | ⟨-, other, hin, -, rfl⟩ :=
    mem_reconcileEvents hmem
  · rw [path_reconciliation] at *
    obtain rfl := Option.some.inj (hlookup.symm.trans hlookup')
    obtain rfl := Option.some.inj (haction.symm.trans haction')
    exact hmem
  · exact absurd hin hbaseline

/-- A file that the enumeration misses is reported as removed when it is met first, while the
changed files leave room. -/
theorem removed_mem_reconcileEvents
    (hroom : (changedFiles baseline current).length < limit) (hbaseline : path ∈ baseline)
    (hcurrent : path ∉ current) :
    reconciliation now "removed" path ∈
      reconcileEvents (.first path) now limit baseline current := by
  obtain ⟨fingerprint, hlookup⟩ := Table.exists_lookup_of_mem hbaseline
  have hhead := IterOrder.head?_filter_first (p := fun file => (current.lookup file.1).isNone)
    hlookup (by simp [AList.lookup_eq_none.mpr hcurrent])
  obtain ⟨rest, hrest⟩ := List.head?_eq_some_iff.mp hhead
  have hpath : path ∈
      (reconcileEvents (.first path) now limit baseline current).map (·.path) := by
    obtain ⟨room, hleft⟩ : ∃ room, limit - (changedFiles baseline current).length = room + 1 :=
      ⟨limit - (changedFiles baseline current).length - 1, by omega⟩
    rw [map_path_reconcileEvents (by omega), hrest, List.take_append, length_changed_order, hleft,
      List.map_append]
    exact List.mem_append_right _ List.mem_cons_self
  obtain ⟨activity, hmem, rfl⟩ := List.mem_map.mp hpath
  obtain ⟨other, fingerprint', action, hlookup', -, rfl⟩ | ⟨-, other, -, -, rfl⟩ :=
    mem_reconcileEvents hmem
  · exact absurd (Table.mem_of_lookup_eq_some hlookup') hcurrent
  · exact hmem

/-- What the code calls modified is found with another fingerprint than before. -/
theorem reconcileAction_eq_modified_iff {fingerprint : FileFingerprint} :
    reconcileAction baseline path fingerprint = some "modified" ↔
      ∃ previous, baseline.lookup path = some previous ∧ previous ≠ fingerprint := by
  unfold reconcileAction
  cases baseline.lookup path with
  | none => simp
  | some previous => by_cases hsame : previous = fingerprint <;> simp [hsame]

/-- What the code calls created is missing in the baseline. -/
theorem reconcileAction_eq_created_iff {fingerprint : FileFingerprint} :
    reconcileAction baseline path fingerprint = some "created" ↔ path ∉ baseline := by
  unfold reconcileAction
  rw [← AList.lookup_eq_none]
  cases baseline.lookup path with
  | none => simp
  | some previous => by_cases hsame : previous = fingerprint <;> simp [hsame]

/-- What the code does not find in the enumeration is never called created or modified. -/
theorem reconcileAction_ne_removed {fingerprint : FileFingerprint} :
    reconcileAction baseline path fingerprint ≠ some "removed" := by
  unfold reconcileAction
  cases baseline.lookup path with
  | none => simp
  | some previous => by_cases hsame : previous = fingerprint <;> simp [hsame]

/-- The report of a file that is found. -/
theorem trueReport_of_found {fingerprint : FileFingerprint} {action : String}
    (hlookup : (enumerate disk.fs roots).lookup path = some fingerprint)
    (haction : reconcileAction baseline path fingerprint = some action)
    (hnew : before.Holds roots path → path ∈ baseline) :
    TrueReport before disk roots baseline (reconciliation now action path) where
  removed h := by
    have hremoved : action = "removed" := h
    rw [hremoved] at haction
    exact absurd haction reconcileAction_ne_removed
  created h := by
    have hcreated : action = "created" := h
    rw [hcreated, reconcileAction_eq_created_iff] at haction
    have habsent : ¬ before.Holds roots path := fun hheld => haction (hnew hheld)
    exact ⟨disk.holds_of_enumerate (Table.mem_of_lookup_eq_some hlookup),
      fun hfound => habsent (before.holds_of_enumerate hfound), habsent⟩
  modified h := by
    have hmodified : action = "modified" := h
    rw [hmodified, reconcileAction_eq_modified_iff] at haction
    obtain ⟨previous, hprevious, hdiffers⟩ := haction
    obtain ⟨file, hfile, hname, rfl⟩ := comesFrom_enumerate disk roots path fingerprint hlookup
    refine ⟨file, hfile, ?_, previous, hprevious, hdiffers⟩
    rw [path_reconciliation, ← hname, disk.location_normalized]

/-- The report of a file that is missed. -/
theorem trueReport_of_missed (hgone : ¬ disk.Holds roots path) :
    TrueReport before disk roots baseline (reconciliation now "removed" path) where
  removed _ := hgone
  created h := by
    have hcreated : "removed" = "created" := h
    exact absurd hcreated (by decide)
  modified h := by
    have hmodified : "removed" = "modified" := h
    exact absurd hmodified (by decide)

end truth

/-- **When a reconciliation tells the truth.** In whatever order the tables are iterated, every
report is true exactly when no enumeration overlooks a file that the other one finds. -/
theorem reconciliation_truthful_iff {location : String → String} (before disk : Disk location)
    (now : String) (limit : ℕ) (monitor : FileMonitor) :
    (∀ order, ∀ activity ∈ (reconcile disk.fs order now limit monitor).1,
        TrueReport before disk monitor.roots monitor.baseline activity) ↔
      NoneOverlooked before disk limit monitor := by
  constructor
  · intro htrue
    refine ⟨fun path hcurrent hheld => ?_, fun hroom path hbaseline hheld => ?_⟩
    · by_contra hmissing
      have hreport := htrue (.first path) _ (created_mem_reconcileEvents limit hcurrent hmissing)
      exact (hreport.created rfl).2.2 hheld
    · by_contra hmissing
      have hreport := htrue (.first path) _ (removed_mem_reconcileEvents hroom hbaseline hmissing)
      exact hreport.removed rfl hheld
  · rintro ⟨hfound, hmissed⟩ order activity hmem
    obtain ⟨path, fingerprint, action, hlookup, haction, rfl⟩ | ⟨hroom, path, hbaseline, hgone, rfl⟩ :=
      mem_reconcileEvents hmem
    · exact trueReport_of_found hlookup haction
        (hfound path (Table.mem_of_lookup_eq_some hlookup))
    · exact trueReport_of_missed fun hheld => hgone (hmissed hroom path hbaseline hheld)

/-- The names of files that are at the same place at both moments are the same. -/
def SameNames {location : String → String} (before disk : Disk location) (roots : List String) :
    Prop :=
  ∀ old ∈ before.files roots, ∀ file ∈ disk.files roots, location old.1 = location file.1 →
    normalized before.fs old.1 = normalized disk.fs file.1

/-- Nothing is overlooked when everything can be read at both moments, there are few enough files,
and the baseline is the enumeration before. -/
theorem noneOverlooked_of_readable {location : String → String} {before disk : Disk location}
    {limit : ℕ} {monitor : FileMonitor}
    (hbefore : before.Readable monitor.roots) (hdisk : disk.Readable monitor.roots)
    (hfewBefore : (before.files monitor.roots).length ≤ maxReconcileFiles)
    (hfew : (disk.files monitor.roots).length ≤ maxReconcileFiles)
    (hnames : SameNames before disk monitor.roots)
    (hbaseline : monitor.baseline = enumerate before.fs monitor.roots) :
    NoneOverlooked before disk limit monitor := by
  unfold NoneOverlooked
  rw [hbaseline]
  refine ⟨fun path hfound hheld => ?_, fun _ path hfound hheld => ?_⟩
  · obtain ⟨file, hfile, rfl⟩ := (mem_enumerate_iff disk hdisk hfew path).mp hfound
    obtain ⟨old, hold, hplace⟩ := hheld
    rw [disk.location_normalized] at hplace
    exact (mem_enumerate_iff before hbefore hfewBefore _).mpr
      ⟨old, hold, hnames old hold file hfile hplace⟩
  · obtain ⟨old, hold, rfl⟩ := (mem_enumerate_iff before hbefore hfewBefore path).mp hfound
    obtain ⟨file, hfile, hplace⟩ := hheld
    rw [before.location_normalized] at hplace
    exact (mem_enumerate_iff disk hdisk hfew _).mpr
      ⟨file, hfile, (hnames old hold file hfile hplace.symm).symm⟩

/-- A watched folder with a file in a subfolder, and paths that cannot be read. -/
def nestedDisk (denied : String → Bool) : Disk id where
  fs :=
    { readDir := fun root => if denied root then none else some (Tree.listing denied
        (.entry "C:\\watched\\sub" ⟨true, false, false, 0, some 10⟩
          (.entry "C:\\watched\\sub\\a.txt" ⟨false, true, false, 1, some 10⟩ .nil .nil) .nil))
      canonicalize := fun _ => none
      metadata := fun _ => none
      usnCheckpoint := fun _ => none }
  below _ := .entry "C:\\watched\\sub" ⟨true, false, false, 0, some 10⟩
    (.entry "C:\\watched\\sub\\a.txt" ⟨false, true, false, 1, some 10⟩ .nil .nil) .nil
  denied
  readDir _ := rfl
  resolves _ _ h := by cases h

/-- A monitor whose baseline is an enumeration of the folder. -/
def nestedMonitor : FileMonitor :=
  { gapMonitor with baseline := enumerate (nestedDisk fun _ => false).fs ["C:\\watched"] }

/-- While the subfolder cannot be read, its file is reported as removed, and it is there. -/
theorem reconciliation_reports_false_removal :
    ∃ activity ∈ (reconcile (nestedDisk (· == "C:\\watched\\sub")).fs .stored "unix:20" 512
        nestedMonitor).1,
      activity = reconciliation "unix:20" "removed" "C:\\watched\\sub\\a.txt" ∧
        ¬ TrueReport (nestedDisk fun _ => false) (nestedDisk (· == "C:\\watched\\sub"))
          nestedMonitor.roots nestedMonitor.baseline activity := by
  refine ⟨reconciliation "unix:20" "removed" "C:\\watched\\sub\\a.txt", by decide, rfl, ?_⟩
  intro hreport
  refine hreport.removed rfl ⟨("C:\\watched\\sub\\a.txt", ⟨1, 10⟩), by decide, rfl⟩

end OpenGuard.Windows
