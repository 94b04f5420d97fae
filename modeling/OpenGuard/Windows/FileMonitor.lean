import OpenGuard.Lib.BoundedLoop
import OpenGuard.Lib.Table
import Mathlib.Order.Basic

/-!
# The file monitor

A watcher puts its notifications into a bounded queue and counts those that did not fit. `drain`
empties the queue, and when it finds a gap (a counted drop, or a change of the volume's journal) it
compares an enumeration of the watched roots with a baseline of file fingerprints and reports the
differences; the enumeration then becomes the baseline.

* `drain_eq_of_reconciled`: what a reconciling drain returns and leaves behind.
* `reconcile_events`: the differences that `reconcile` reports, by how much room is left under the
  limit.
* `reconciliation_loses_nothing_iff`: when every difference from the old baseline is reported or
  still a difference from the new one, whatever the order in which the tables are iterated.
-/

namespace OpenGuard.Windows

open OpenGuard.Lib

/-- Source: `file_monitor.rs`, `FILE_EVENT_CAPACITY` -/
def fileEventCapacity : ℕ := 4096

/-- Source: `file_monitor.rs`, `MAX_RECONCILE_FILES` -/
def maxReconcileFiles : ℕ := 50000

/-- Source: `file_monitor.rs`, `FileActivity` -/
structure FileActivity where
  action : String
  path : String
  source : String
  observedAt : String
  deriving DecidableEq, Inhabited

/-- Source: `file_monitor.rs`, `UsnCheckpoint` -/
structure UsnCheckpoint where
  journalId : UInt64
  firstUsn : ℤ
  nextUsn : ℤ
  deriving DecidableEq, Inhabited

/-- Source: `file_monitor.rs`, `FileMonitorSnapshot` -/
structure FileMonitorSnapshot where
  events : List FileActivity
  dropped : ℕ
  reconciled : Bool
  journalChanged : Bool
  checkpoint : Option UsnCheckpoint
  deriving DecidableEq

/-- Source: `file_monitor.rs`, `FileFingerprint` -/
structure FileFingerprint where
  length : UInt64
  modified : UInt64
  deriving DecidableEq, Inhabited

/-! ## The file system -/

/-- What the service reads of a file's metadata; `modified` is the number of seconds since the
epoch when the time can be told and is not before it. -/
structure FileMetadata where
  isDir : Bool
  isFile : Bool
  isSymlink : Bool
  length : UInt64
  modified : Option UInt64
  deriving DecidableEq, Inhabited

/-- Source: `file_monitor.rs`, `enumerate` and `update_baseline` -/
def FileMetadata.fingerprint (metadata : FileMetadata) : FileFingerprint where
  length := metadata.length
  modified := metadata.modified.getD 0

/-- The entries of a directory in the order `read_dir` gives them, each with its path and its
metadata where they can be read. An entry carries what stands beneath it: whether `read_dir`
succeeds on it, and its own entries. -/
inductive Listing where
  | nil
  | entry (path : String) (metadata : Option FileMetadata) (readable : Bool)
      (contents rest : Listing)
  deriving DecidableEq, Inhabited

/-- The file system as one call of the monitor sees it. -/
structure FileSystem where
  /-- `fs::read_dir` of a watched root. -/
  readDir : String → Option Listing
  /-- `fs::canonicalize`. -/
  canonicalize : String → Option String
  /-- `fs::metadata`, which follows links. -/
  metadata : String → Option FileMetadata
  /-- `query_usn_checkpoint` of the volume with a path. -/
  usnCheckpoint : String → Option UsnCheckpoint

/-- Source: `file_monitor.rs`, `normalized` -/
def normalized (fs : FileSystem) (path : String) : String := (fs.canonicalize path).getD path

/-- The files found so far. -/
abbrev Fingerprints := Table String FileFingerprint

/-- The loop over the entries of one directory. `pending` is what the directories on the stack
add when they are popped: a directory found here is pushed on top of them. Reaching
`MAX_RECONCILE_FILES` returns at once.
Source: `file_monitor.rs`, `enumerate` -/
def enumerateEntries (fs : FileSystem) :
    Listing → (Fingerprints → Fingerprints) → Fingerprints → Fingerprints
  | .nil, pending, result => pending result
  | .entry path metadata readable contents rest, pending, result =>
      if maxReconcileFiles ≤ result.size then result
      else
        match metadata with
        | none => enumerateEntries fs rest pending result
        | some metadata =>
            if metadata.isDir then
              if !metadata.isSymlink && readable then
                enumerateEntries fs rest (enumerateEntries fs contents pending) result
              else enumerateEntries fs rest pending result
            else if metadata.isFile then
              enumerateEntries fs rest pending
                (result.insert (normalized fs path) metadata.fingerprint)
            else enumerateEntries fs rest pending result

/-- Source: `file_monitor.rs`, `enumerate` -/
def enumerate (fs : FileSystem) (roots : List String) : Fingerprints :=
  let pending := roots.foldl (fun pending root =>
    match fs.readDir root with
    | none => pending
    | some entries => enumerateEntries fs entries pending) id
  pending ∅

/-! ## The monitor -/

/-- The state of a monitor. `queue` is what the receiver holds; `baselineReceiver` is what the
baseline thread has sent and nobody has received.
Source: `file_monitor.rs`, `FileMonitor` -/
structure FileMonitor where
  queue : List FileActivity
  dropped : ℕ
  roots : List String
  baseline : Fingerprints
  baselineReceiver : Option Fingerprints
  baselineReady : Bool
  prebaselineEvents : List FileActivity
  pendingReconcile : Bool
  previousDropped : ℕ
  checkpoint : Option UsnCheckpoint

/-- The kind of a watcher event, as far as it matters. -/
inductive EventKind where
  | any
  | access
  | create
  | modify
  | remove
  | other
  deriving DecidableEq, Inhabited

/-- Source: `file_monitor.rs`, `enqueue_event` -/
def EventKind.action : EventKind → Option String
  | create => some "created"
  | modify => some "modified"
  | remove => some "removed"
  | access => none
  | other | any => some "changed"

/-- One `try_send`: the queue takes the activity while it has room, else it is counted. -/
def trySend (monitor : FileMonitor) (activity : FileActivity) : FileMonitor :=
  if monitor.queue.length < fileEventCapacity then
    { monitor with queue := monitor.queue ++ [activity] }
  else { monitor with dropped := monitor.dropped + 1 }

/-- Source: `file_monitor.rs`, `enqueue_event` -/
def enqueueEvent (now : String) (kind : EventKind) (paths : List String) (monitor : FileMonitor) :
    FileMonitor :=
  match kind.action with
  | none => monitor
  | some action =>
      paths.foldl (fun monitor path =>
        trySend monitor ⟨action, path, "read_directory_changes", now⟩) monitor

/-- Source: `file_monitor.rs`, `update_baseline` -/
def updateBaseline (fs : FileSystem) (baseline : Fingerprints) (events : List FileActivity) :
    Fingerprints :=
  events.foldl (fun baseline event =>
    let path := normalized fs event.path
    if event.action = "removed" then baseline.erase path
    else
      match fs.metadata path with
      | some metadata =>
          if metadata.isFile then baseline.insert path metadata.fingerprint else baseline
      | none => baseline) baseline

/-- What `reconcile` says about a file of the enumeration.
Source: `file_monitor.rs`, `FileMonitor::reconcile` -/
def reconcileAction (baseline : Fingerprints) (path : String) (fingerprint : FileFingerprint) :
    Option String :=
  match baseline.lookup path with
  | none => some "created"
  | some previous => if previous ≠ fingerprint then some "modified" else none

/-- Source: `file_monitor.rs`, `FileMonitor::reconcile` -/
def reconciliation (now action path : String) : FileActivity :=
  ⟨action, path, "reconciliation", now⟩

@[simp] theorem path_reconciliation (now action path : String) :
    (reconciliation now action path).path = path := rfl

/-- The reports of `reconcile`: the files of the enumeration that the baseline misses or has
otherwise, then the files of the baseline that the enumeration misses.
Source: `file_monitor.rs`, `FileMonitor::reconcile` -/
def reconcileEvents (order : IterOrder String FileFingerprint) (now : String) (limit : ℕ)
    (baseline current : Fingerprints) : List FileActivity :=
  let events := pushUntil limit
    (fun file => (reconcileAction baseline file.1 file.2).map
      fun action => reconciliation now action file.1) (order.entries current) []
  if events.length < limit then
    pushUntil limit (fun file => some (reconciliation now "removed" file.1))
      ((order.entries baseline).filter fun file => (current.lookup file.1).isNone) events
  else events

/-- The reports, and the monitor with the enumeration as its baseline.
Source: `file_monitor.rs`, `FileMonitor::reconcile` -/
def reconcile (fs : FileSystem) (order : IterOrder String FileFingerprint) (now : String)
    (limit : ℕ) (monitor : FileMonitor) : List FileActivity × FileMonitor :=
  let current := enumerate fs monitor.roots
  (reconcileEvents order now limit monitor.baseline current, { monitor with baseline := current })

/-- `usize::clamp(1, 4_096)`. -/
def clampLimit (limit : ℕ) : ℕ := max 1 (min limit 4096)

/-- Takes the baseline the thread has sent, if it has, and replays on it what came before.
Source: `file_monitor.rs`, `FileMonitor::drain` -/
def receiveBaseline (fs : FileSystem) (monitor : FileMonitor) : FileMonitor :=
  if monitor.baselineReady then monitor
  else
    match monitor.baselineReceiver with
    | none => monitor
    | some baseline =>
        { monitor with
          baseline := updateBaseline fs baseline monitor.prebaselineEvents
          prebaselineEvents := []
          baselineReceiver := none
          baselineReady := true }

/-- The journal was replaced, or has lost records the monitor had not reached.
Source: `file_monitor.rs`, `FileMonitor::drain` -/
def journalChanged : Option UsnCheckpoint → Option UsnCheckpoint → Bool
  | some previous, some current =>
      previous.journalId != current.journalId || decide (previous.nextUsn < current.firstUsn)
  | _, _ => false

/-- Source: `file_monitor.rs`, `FileMonitor::drain` -/
def drain (fs : FileSystem) (order : IterOrder String FileFingerprint) (now : String)
    (limit : ℕ) (monitor : FileMonitor) : FileMonitorSnapshot × FileMonitor :=
  let events := monitor.queue.take (clampLimit limit)
  let monitor := { monitor with queue := monitor.queue.drop (clampLimit limit) }
  let monitor := receiveBaseline fs monitor
  let dropped := monitor.dropped
  let currentCheckpoint := monitor.roots.head?.bind fs.usnCheckpoint
  let changed := journalChanged monitor.checkpoint currentCheckpoint
  let monitor :=
    if monitor.previousDropped < dropped ∨ changed then { monitor with pendingReconcile := true }
    else monitor
  let needsReconcile := monitor.pendingReconcile && monitor.baselineReady
  let (events, monitor) :=
    if needsReconcile then
      let (found, monitor) := reconcile fs order now (limit - events.length) monitor
      (events ++ found, { monitor with pendingReconcile := false })
    else if monitor.baselineReady then
      (events, { monitor with baseline := updateBaseline fs monitor.baseline events })
    else
      let remaining := 4096 - monitor.prebaselineEvents.length
      (events,
        { monitor with prebaselineEvents := monitor.prebaselineEvents ++ events.take remaining })
  let checkpoint := currentCheckpoint.or monitor.checkpoint
  let monitor := { monitor with previousDropped := dropped, checkpoint := checkpoint }
  ({ events := events
     dropped := dropped
     reconciled := needsReconcile
     journalChanged := changed
     checkpoint := checkpoint }, monitor)

/-! ## What a reconciling drain reports -/

/-- The files of the enumeration that the baseline misses or has otherwise. -/
def changedFiles (baseline current : Fingerprints) :
    List (Sigma fun _ : String => FileFingerprint) :=
  current.entries.filter fun file => (reconcileAction baseline file.1 file.2).isSome

/-- The files of the baseline that the enumeration misses. -/
def removedFiles (baseline current : Fingerprints) :
    List (Sigma fun _ : String => FileFingerprint) :=
  baseline.entries.filter fun file => (current.lookup file.1).isNone

section reconcile

variable {fs : FileSystem} {order : IterOrder String FileFingerprint} {now : String}
  {limit room : ℕ} {baseline current : Fingerprints} {monitor : FileMonitor} {path : String}

theorem reconcileAction_isSome_iff {fingerprint : FileFingerprint} :
    (reconcileAction baseline path fingerprint).isSome ↔
      baseline.lookup path ≠ some fingerprint := by
  unfold reconcileAction
  cases hlookup : baseline.lookup path with
  | none => simp
  | some previous =>
      by_cases heq : previous = fingerprint
      · simp [heq]
      · simp [heq]

/-- A path on which the two tables differ is that of a changed or of a removed file. -/
theorem lookup_ne_iff :
    baseline.lookup path ≠ current.lookup path ↔
      path ∈ (changedFiles baseline current).map Sigma.fst ∨
        path ∈ (removedFiles baseline current).map Sigma.fst := by
  simp only [List.mem_map, changedFiles, removedFiles, List.mem_filter]
  constructor
  · intro hne
    cases hcurrent : current.lookup path with
    | some fingerprint =>
        rw [hcurrent] at hne
        exact Or.inl ⟨⟨path, fingerprint⟩, ⟨Table.mem_entries_iff.mpr hcurrent,
          reconcileAction_isSome_iff.mpr hne⟩, rfl⟩
    | none =>
        rw [hcurrent] at hne
        obtain ⟨previous, hprevious⟩ := Option.ne_none_iff_exists'.mp hne
        exact Or.inr ⟨⟨path, previous⟩, ⟨Table.mem_entries_iff.mpr hprevious, by simp [hcurrent]⟩,
          rfl⟩
  · rintro (⟨⟨p, fingerprint⟩, ⟨hmem, haction⟩, rfl⟩ | ⟨⟨p, previous⟩, ⟨hmem, hnone⟩, rfl⟩)
    · rw [Table.mem_entries_iff.mp hmem]
      exact reconcileAction_isSome_iff.mp haction
    · rw [Table.mem_entries_iff.mp hmem, Option.isNone_iff_eq_none.mp hnone]
      simp

/-- The paths that the first loop of `reconcile` would report without a limit. -/
theorem map_path_filterMap_action (now : String)
    (l : List (Sigma fun _ : String => FileFingerprint)) :
    (l.filterMap fun file => (reconcileAction baseline file.1 file.2).map
        fun action => reconciliation now action file.1).map (·.path) =
      (l.filter fun file => (reconcileAction baseline file.1 file.2).isSome).map Sigma.fst := by
  induction l with
  | nil => rfl
  | cons file rest ih =>
      cases haction : reconcileAction baseline file.1 file.2 with
      | none => simp [haction, ih]
      | some action => simp [haction, ih]

/-- With room for at least one report, the reports are the changed and then the removed files, in
the order of the loops, as many as there is room for. -/
theorem map_path_reconcileEvents (hroom : 0 < room) :
    (reconcileEvents order now room baseline current).map (·.path) =
      ((((order.entries current).filter fun file =>
          (reconcileAction baseline file.1 file.2).isSome) ++
        (order.entries baseline).filter fun file => (current.lookup file.1).isNone).take room).map
          Sigma.fst := by
  set changed := (order.entries current).filter fun file =>
    (reconcileAction baseline file.1 file.2).isSome with hchanged
  set removed := (order.entries baseline).filter fun file => (current.lookup file.1).isNone
  have hfirst : (pushUntil room (fun file => (reconcileAction baseline file.1 file.2).map
      fun action => reconciliation now action file.1) (order.entries current) []).map (·.path) =
      (changed.take room).map Sigma.fst := by
    rw [pushUntil_of_lt hroom, List.nil_append, List.map_take, map_path_filterMap_action,
      ← hchanged, List.map_take, List.length_nil, Nat.sub_zero]
  have hlen := congrArg List.length hfirst
  simp only [List.length_map, List.length_take] at hlen
  unfold reconcileEvents
  dsimp only
  rw [List.take_append, List.map_append]
  split_ifs with hlt
  · rw [pushUntil_of_lt hlt, List.map_append, hfirst, hlen, List.filterMap_eq_map',
      ← List.map_take, List.map_map,
      show room - min room changed.length = room - changed.length by omega]
    rfl
  · rw [hfirst, show room - changed.length = 0 by omega, List.take_zero, List.map_nil,
      List.append_nil]

/-- Without room, only the first file of the enumeration is looked at. -/
theorem map_path_reconcileEvents_zero :
    (reconcileEvents order now 0 baseline current).map (·.path) =
      (((order.entries current).head?.toList).filter fun file =>
        (reconcileAction baseline file.1 file.2).isSome).map Sigma.fst := by
  unfold reconcileEvents
  dsimp only
  rw [if_neg (Nat.not_lt_zero _), pushUntil_of_le (Nat.zero_le _), List.nil_append,
    ← map_path_filterMap_action now]
  cases (order.entries current).head? with
  | none => rfl
  | some file => cases haction : reconcileAction baseline file.1 file.2 <;> simp [haction]

/-- What a reconciling drain reports and leaves: the notifications it took, then what `reconcile`
found, and the enumeration as the baseline. -/
theorem drain_of_reconciled (hready : monitor.baselineReady)
    (hreconciled : (drain fs order now limit monitor).1.reconciled) :
    let drained := monitor.queue.take (clampLimit limit)
    let current := enumerate fs monitor.roots
    (drain fs order now limit monitor).1.events =
        drained ++ reconcileEvents order now (limit - drained.length) monitor.baseline current ∧
      (drain fs order now limit monitor).2.baseline = current := by
  unfold drain receiveBaseline at *
  simp only [hready, if_true] at *
  generalize journalChanged monitor.checkpoint _ = changed at *
  by_cases hgap : monitor.previousDropped < monitor.dropped ∨ changed
  · simp only [hgap, if_true]
    exact ⟨rfl, rfl⟩
  · simp only [hgap, if_false] at hreconciled ⊢
    simp only [hreconciled, if_true]
    exact ⟨rfl, rfl⟩

end reconcile

/-! ## When no difference is lost -/

/-- An activity names a file: a report of `reconcile` by its own path, a notification also by the
path that its path resolves to. -/
def Names (fs : FileSystem) (activity : FileActivity) (path : String) : Prop :=
  activity.path = path ∨
    (activity.source ≠ "reconciliation" ∧ normalized fs activity.path = path)

/-- Every difference between the old baseline and the file system is among the events of the
drain, or is still a difference of the new baseline. -/
def NothingLost (fs : FileSystem) (order : IterOrder String FileFingerprint) (now : String)
    (limit : ℕ) (monitor : FileMonitor) : Prop :=
  let result := drain fs order now limit monitor
  let current := enumerate fs monitor.roots
  ∀ path, monitor.baseline.lookup path ≠ current.lookup path →
    (∃ activity ∈ result.1.events, Names fs activity path) ∨
      result.2.baseline.lookup path ≠ current.lookup path

/-- The differences that no drained notification names fit into the room that the notifications
leave under the limit: the changed files do, or there is no room and at most one file; and with
them the removed files do. -/
def GapFits (fs : FileSystem) (limit : ℕ) (monitor : FileMonitor) : Prop :=
  let drained := monitor.queue.take (clampLimit limit)
  let room := limit - drained.length
  let current := enumerate fs monitor.roots
  let changed := changedFiles monitor.baseline current
  let removed := removedFiles monitor.baseline current
  ((∀ path ∈ changed.map Sigma.fst, ∃ activity ∈ drained, Names fs activity path) ∨
      changed.length ≤ room ∨ (room = 0 ∧ current.size ≤ 1)) ∧
    ((∀ path ∈ removed.map Sigma.fst, ∃ activity ∈ drained, Names fs activity path) ∨
      changed.length + removed.length ≤ room)

section nothingLost

variable {fs : FileSystem} {order : IterOrder String FileFingerprint} {now : String}
  {limit room : ℕ} {baseline current : Fingerprints} {monitor : FileMonitor} {path : String}

/-- The number of changed files does not depend on the order in which they are met. -/
theorem length_changed_order :
    ((order.entries current).filter fun file =>
      (reconcileAction baseline file.1 file.2).isSome).length =
      (changedFiles baseline current).length :=
  ((order.perm current).filter _).length_eq

theorem length_removed_order :
    ((order.entries baseline).filter fun file => (current.lookup file.1).isNone).length =
      (removedFiles baseline current).length :=
  ((order.perm baseline).filter _).length_eq

/-- A report of `reconcile` names exactly its own path. -/
theorem names_reconcileEvents_iff (fs : FileSystem) :
    (∃ activity ∈ reconcileEvents order now room baseline current, Names fs activity path) ↔
      path ∈ (reconcileEvents order now room baseline current).map (·.path) := by
  have hsource : ∀ activity ∈ reconcileEvents order now room baseline current,
      activity.source = "reconciliation" := by
    intro activity hmem
    have hfirst {file : Sigma fun _ : String => FileFingerprint}
        (h : (reconcileAction baseline file.1 file.2).map
          (fun action => reconciliation now action file.1) = some activity) :
        activity.source = "reconciliation" := by
      obtain ⟨action, -, rfl⟩ := Option.map_eq_some_iff.mp h
      rfl
    unfold reconcileEvents at hmem
    dsimp only at hmem
    split_ifs at hmem
    · rcases mem_pushUntil hmem with hmem | ⟨file, -, h⟩
      · rcases mem_pushUntil hmem with hmem | ⟨file, -, h⟩
        · exact absurd hmem List.not_mem_nil
        · exact hfirst h
      · rw [← Option.some_inj.mp h]
        rfl
    · rcases mem_pushUntil hmem with hmem | ⟨file, -, h⟩
      · exact absurd hmem List.not_mem_nil
      · exact hfirst h
  rw [List.mem_map]
  refine exists_congr fun activity => and_congr_right fun hmem => ?_
  unfold Names
  simp [hsource activity hmem]

/-- For a reconciling drain, nothing is lost exactly when each difference is named by a drained
notification or reported by `reconcile`. -/
theorem nothingLost_iff (hready : monitor.baselineReady)
    (hreconciled : (drain fs order now limit monitor).1.reconciled) :
    let drained := monitor.queue.take (clampLimit limit)
    let current := enumerate fs monitor.roots
    NothingLost fs order now limit monitor ↔
      ∀ path, path ∈ (changedFiles monitor.baseline current).map Sigma.fst ∨
          path ∈ (removedFiles monitor.baseline current).map Sigma.fst →
        (∃ activity ∈ drained, Names fs activity path) ∨
          path ∈ (reconcileEvents order now (limit - drained.length) monitor.baseline
            current).map (·.path) := by
  obtain ⟨hevents, hbaseline⟩ := drain_of_reconciled hready hreconciled
  unfold NothingLost
  dsimp only
  rw [hevents, hbaseline]
  refine forall_congr' fun path => ?_
  rw [lookup_ne_iff, ← names_reconcileEvents_iff fs]
  simp only [ne_eq, not_true_eq_false, or_false, List.mem_append, or_and_right, exists_or]

theorem mem_changed_order (order : IterOrder String FileFingerprint) :
    path ∈ ((order.entries current).filter fun file =>
        (reconcileAction baseline file.1 file.2).isSome).map Sigma.fst ↔
      path ∈ (changedFiles baseline current).map Sigma.fst :=
  (((order.perm current).filter _).map _).mem_iff

theorem mem_removed_order (order : IterOrder String FileFingerprint) :
    path ∈ ((order.entries baseline).filter fun file => (current.lookup file.1).isNone).map
        Sigma.fst ↔
      path ∈ (removedFiles baseline current).map Sigma.fst :=
  (((order.perm baseline).filter _).map _).mem_iff

/-- A changed file is reported in every order when the changed files fit. -/
theorem mem_reconcileEvents_of_changed
    (hmem : path ∈ (changedFiles baseline current).map Sigma.fst)
    (hfits : (changedFiles baseline current).length ≤ room ∨ (room = 0 ∧ current.size ≤ 1)) :
    path ∈ (reconcileEvents order now room baseline current).map (·.path) := by
  have hlen : 0 < (changedFiles baseline current).length := by
    simpa using List.length_pos_of_mem hmem
  rcases hfits with hle | ⟨rfl, hsize⟩
  · rw [map_path_reconcileEvents (by omega), List.take_append, List.map_append,
      List.take_of_length_le (length_changed_order.trans_le hle)]
    exact List.mem_append_left _ ((mem_changed_order order).mpr hmem)
  · -- the only file of the enumeration is the first one met
    have hone : (order.entries current).length ≤ 1 := (order.perm current).length_eq.trans_le hsize
    have hfirst : (order.entries current).head?.toList = order.entries current := by
      generalize order.entries current = l at hone ⊢
      rcases l with _ | ⟨file, _ | ⟨other, rest⟩⟩
      · rfl
      · rfl
      · simp at hone
    rw [map_path_reconcileEvents_zero, hfirst]
    exact (mem_changed_order order).mpr hmem

/-- A removed file is reported in every order when it fits besides the changed files. -/
theorem mem_reconcileEvents_of_removed
    (hmem : path ∈ (removedFiles baseline current).map Sigma.fst)
    (hfits : (changedFiles baseline current).length + (removedFiles baseline current).length
      ≤ room) :
    path ∈ (reconcileEvents order now room baseline current).map (·.path) := by
  have hlen : 0 < (removedFiles baseline current).length := by
    simpa using List.length_pos_of_mem hmem
  rw [map_path_reconcileEvents (by omega), List.take_of_length_le, List.map_append]
  · exact List.mem_append_right _ ((mem_removed_order order).mpr hmem)
  · rw [List.length_append, length_changed_order, length_removed_order]
    exact hfits

/-- A changed file that is met last is missed when the changed files do not fit. -/
theorem notMem_reconcileEvents_of_changed
    (hlarge : room < (changedFiles baseline current).length)
    (hsize : ¬ (room = 0 ∧ current.size ≤ 1)) :
    path ∉ (reconcileEvents (.last path) now room baseline current).map (·.path) := by
  rcases Nat.eq_zero_or_pos room with rfl | hroom
  · rw [map_path_reconcileEvents_zero]
    intro hfirst
    obtain ⟨file, hfile, hpath⟩ := List.mem_map.mp hfirst
    have hhead : ((IterOrder.last path).entries current).head? = some file := by
      simpa using (List.mem_filter.mp hfile).1
    exact IterOrder.head?_last_ne (by omega) hhead hpath
  · have hfew : ((IterOrder.last path).entries current |>.filter fun file =>
        (reconcileAction baseline file.1 file.2).isSome).length =
          (changedFiles baseline current).length := length_changed_order
    rw [map_path_reconcileEvents hroom, List.take_append_of_le_length (by omega)]
    exact IterOrder.notMem_take_filter_last hlarge

/-- A removed file that is met last is missed when it does not fit besides the changed files. -/
theorem notMem_reconcileEvents_of_removed
    (hmem : path ∈ (removedFiles baseline current).map Sigma.fst)
    (hlarge : room < (changedFiles baseline current).length
      + (removedFiles baseline current).length) :
    path ∉ (reconcileEvents (.last path) now room baseline current).map (·.path) := by
  have hchanged : path ∉ (changedFiles baseline current).map Sigma.fst := by
    intro hmem'
    obtain ⟨⟨p, fingerprint⟩, hfile, rfl⟩ := List.mem_map.mp hmem'
    obtain ⟨⟨q, previous⟩, hprevious, hpq⟩ := List.mem_map.mp hmem
    have hsome := Table.mem_entries_iff.mp (List.mem_filter.mp hfile).1
    have hnone := Option.isNone_iff_eq_none.mp (List.mem_filter.mp hprevious).2
    dsimp only at hpq hnone
    rw [hpq, hsome] at hnone
    exact absurd hnone (Option.some_ne_none _)
  rcases Nat.eq_zero_or_pos room with rfl | hroom
  · rw [map_path_reconcileEvents_zero]
    intro hfirst
    obtain ⟨file, hfile, hpath⟩ := List.mem_map.mp hfirst
    obtain ⟨hhead, haction⟩ := List.mem_filter.mp hfile
    have hentry := (IterOrder.mem_entries _).mp (List.mem_of_mem_head? (by simpa using hhead))
    exact hchanged (List.mem_map.mpr ⟨file, List.mem_filter.mpr ⟨hentry, haction⟩, hpath⟩)
  · rw [map_path_reconcileEvents hroom, List.take_append, List.map_append, List.mem_append]
    rintro (hin | hin)
    · refine hchanged ((mem_changed_order (.last path)).mp ?_)
      exact List.map_subset _ (List.take_subset _ _) hin
    · have hlen : 0 < (removedFiles baseline current).length := by
        simpa using List.length_pos_of_mem hmem
      refine IterOrder.notMem_take_filter_last ?_ hin
      rw [length_changed_order]
      have hlen' : (baseline.entries.filter fun file => (current.lookup file.1).isNone).length =
          (removedFiles baseline current).length := rfl
      omega

/-- **When gap reconciliation loses nothing.** For a monitor whose baseline is ready and a drain
that reconciles, no difference is lost in any order of iteration exactly when the differences that
no drained notification names fit under the limit. Whatever does not fit is gone: the enumeration
becomes the baseline with it. -/
theorem reconciliation_loses_nothing_iff (fs : FileSystem) (now : String) (limit : ℕ)
    (monitor : FileMonitor) (hready : monitor.baselineReady)
    (hreconciled : ∀ order, (drain fs order now limit monitor).1.reconciled) :
    (∀ order, NothingLost fs order now limit monitor) ↔ GapFits fs limit monitor := by
  have hiff := fun order => nothingLost_iff hready (hreconciled order)
  dsimp only at hiff
  unfold GapFits
  dsimp only
  constructor
  · intro hall
    constructor
    · by_contra hnot
      push Not at hnot
      obtain ⟨⟨path, hmem, hunnamed⟩, hlarge, hsize⟩ := hnot
      rcases (hiff _).mp (hall (.last path)) path (Or.inl hmem) with ⟨activity, hin, hnames⟩ | hrep
      · exact hunnamed activity hin hnames
      · exact notMem_reconcileEvents_of_changed hlarge (by omega) hrep
    · by_contra hnot
      push Not at hnot
      obtain ⟨⟨path, hmem, hunnamed⟩, hlarge⟩ := hnot
      rcases (hiff _).mp (hall (.last path)) path (Or.inr hmem) with ⟨activity, hin, hnames⟩ | hrep
      · exact hunnamed activity hin hnames
      · exact notMem_reconcileEvents_of_removed hmem hlarge hrep
  · rintro ⟨hchanged, hremoved⟩ order
    refine (hiff order).mpr fun path hpath => ?_
    rcases hpath with hmem | hmem
    · rcases hchanged with hnamed | hfits
      · exact Or.inl (hnamed path hmem)
      · exact Or.inr (mem_reconcileEvents_of_changed hmem hfits)
    · rcases hremoved with hnamed | hfits
      · exact Or.inl (hnamed path hmem)
      · exact Or.inr (mem_reconcileEvents_of_removed hmem hfits)

/-- A watched folder with two files in it. -/
def twoFiles : FileSystem where
  readDir _ := some
    (.entry "C:\\watched\\a.txt" (some ⟨false, true, false, 1, some 10⟩) true .nil
      (.entry "C:\\watched\\b.txt" (some ⟨false, true, false, 2, some 10⟩) true .nil .nil))
  canonicalize _ := none
  metadata _ := none
  usnCheckpoint _ := none

/-- A monitor of that folder whose baseline is empty and that has counted one drop. -/
def gapMonitor : FileMonitor where
  queue := []
  dropped := 1
  roots := ["C:\\watched"]
  baseline := ∅
  baselineReceiver := none
  baselineReady := true
  prebaselineEvents := []
  pendingReconcile := false
  previousDropped := 0
  checkpoint := none

/-- `reconciliation_loses_nothing_iff` at a folder with two new files and the limit 1. -/
theorem reconciliation_loses_nothing_gapMonitor :
    (∀ order, NothingLost twoFiles order "unix:20" 1 gapMonitor) ↔
      GapFits twoFiles 1 gapMonitor :=
  reconciliation_loses_nothing_iff twoFiles "unix:20" 1 gapMonitor rfl fun _ => rfl

/-- The drain reports one of the two files; the other one is in the new baseline unreported. -/
theorem reconciliation_loses_file :
    (drain twoFiles .stored "unix:20" 1 gapMonitor).1.reconciled = true ∧
      (drain twoFiles .stored "unix:20" 1 gapMonitor).1.events.map (·.path) =
        ["C:\\watched\\b.txt"] ∧
      ¬ NothingLost twoFiles .stored "unix:20" 1 gapMonitor := by
  have hevents : (drain twoFiles .stored "unix:20" 1 gapMonitor).1.events =
      [⟨"created", "C:\\watched\\b.txt", "reconciliation", "unix:20"⟩] := by decide
  refine ⟨rfl, by rw [hevents]; rfl, fun hnothing => ?_⟩
  rcases hnothing "C:\\watched\\a.txt" (by decide) with ⟨activity, hmem, hnames⟩ | hdiffers
  · have hmem : activity ∈ (drain twoFiles .stored "unix:20" 1 gapMonitor).1.events := hmem
    rw [hevents, List.mem_singleton] at hmem
    subst hmem
    rcases hnames with hpath | ⟨hsource, -⟩
    · exact absurd hpath (by decide)
    · exact hsource rfl
  · exact hdiffers (by decide)

end nothingLost

end OpenGuard.Windows
