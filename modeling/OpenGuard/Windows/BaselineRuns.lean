import OpenGuard.Windows.Reconciliation
import Mathlib.Data.List.Induction

/-!
# The baseline over a run

Files come, change and go below the watched roots; each change is notified, the notifications are
delivered into the queue of the monitor, drains take them out of it, and at some moment the baseline
thread has sent its enumeration.

* `replay`: what the notifications that are still to be processed make of the entry of a path.
* `updateBaseline_replay`: `update_baseline` does what `replay` says.
* `Settling`: what is under way leads to what is there; `settling_step`.
* `baseline_follows`: when everything is processed, the baseline is the enumeration, in every run
  whose drains process removals under canonical names.
-/

namespace OpenGuard.Windows

open OpenGuard.Lib

/-! ## What a drain leaves -/

/-- What a drain makes of the monitor, as far as the baseline is concerned. -/
structure DrainLeaves (fs : FileSystem) (limit : ℕ) (monitor after : FileMonitor) : Prop where
  queue : after.queue = monitor.queue.drop (clampLimit limit)
  roots : after.roots = monitor.roots
  ready : after.baselineReady = (receiveBaseline fs monitor).baselineReady
  receiver : after.baselineReceiver = (receiveBaseline fs monitor).baselineReceiver
  baseline : after.baseline =
    if reconcileDue fs monitor then enumerate fs monitor.roots
    else if (receiveBaseline fs monitor).baselineReady then
      updateBaseline fs (receiveBaseline fs monitor).baseline
        (monitor.queue.take (clampLimit limit))
    else (receiveBaseline fs monitor).baseline
  prebaseline : after.prebaselineEvents =
    if (receiveBaseline fs monitor).baselineReady then
      (receiveBaseline fs monitor).prebaselineEvents
    else
      (receiveBaseline fs monitor).prebaselineEvents ++ (monitor.queue.take (clampLimit limit)).take
        (4096 - (receiveBaseline fs monitor).prebaselineEvents.length)

/-- **What a drain leaves.** -/
theorem drain_leaves (fs : FileSystem) (order : IterOrder String FileFingerprint) (now : String)
    (limit : ℕ) (monitor : FileMonitor) :
    DrainLeaves fs limit monitor (drain fs order now limit monitor).2 := by
  obtain ⟨hroots, hdropped, hprevious, hcheckpoint, hpending⟩ :=
    receiveBaseline_rest fs monitor
  have hdue : reconcileDue fs monitor =
      ((if monitor.previousDropped < monitor.dropped ∨
          journalChanged monitor.checkpoint (monitor.roots.head?.bind fs.usnCheckpoint)
        then true else monitor.pendingReconcile) &&
        (receiveBaseline fs monitor).baselineReady) := by
    unfold reconcileDue
    by_cases hlost : monitor.previousDropped < monitor.dropped <;>
      cases journalChanged monitor.checkpoint (monitor.roots.head?.bind fs.usnCheckpoint) <;>
      simp [hlost]
  unfold drain
  simp only [receiveBaseline_queue, hroots, hdropped, hprevious, hcheckpoint]
  generalize journalChanged monitor.checkpoint _ = changed at hdue ⊢
  generalize hreceived : receiveBaseline fs monitor = received at *
  by_cases hgap : monitor.previousDropped < monitor.dropped ∨ changed
  · simp only [hgap, if_true, Bool.true_and] at hdue ⊢
    cases hready : received.baselineReady with
    | true =>
        rw [hready] at hdue
        constructor <;> simp [reconcile, hreceived, hready, hdue]
    | false =>
        rw [hready] at hdue
        constructor <;> simp [hreceived, hready, hdue]
  · simp only [hgap, if_false, hpending] at hdue ⊢
    cases hready : received.baselineReady with
    | true =>
        rw [hready, Bool.and_true] at hdue
        cases hrequested : monitor.pendingReconcile with
        | true =>
            rw [hrequested] at hdue
            constructor <;> simp [reconcile, hreceived, hready, hdue]
        | false =>
            rw [hrequested] at hdue
            constructor <;> simp [hreceived, hready, hdue]
    | false =>
        rw [hready, Bool.and_false] at hdue
        constructor <;> simp [hreceived, hready, hdue]

/-! ## Processing notifications -/

section process

variable {location : String → String} {roots : List String}

/-- How the file system answers about the files below the roots: everything can be read, the files
are few enough, and a path is canonicalized to the place of its file; one that leads to no file may
fail. `location` gives the canonical paths. -/
structure Watched (roots : List String) (disk : Disk location) : Prop where
  readable : disk.Readable roots
  few : (disk.files roots).length < maxReconcileFiles
  canonical : ∀ path, location (location path) = location path
  held : ∀ path, disk.Holds roots path → disk.fs.canonicalize path = some (location path)
  missing : ∀ path, ¬ disk.Holds roots path → disk.fs.canonicalize path = none ∨
    disk.fs.canonicalize path = some (location path)
  metadata : ∀ file ∈ disk.files roots, ∃ metadata,
    disk.fs.metadata (location file.1) = some metadata ∧ metadata.isFile = true ∧
      metadata.fingerprint = file.2
  noMetadata : ∀ path, ¬ disk.Holds roots path → ∀ metadata,
    disk.fs.metadata path = some metadata → metadata.isFile = false

/-- What a processed notification makes of the entry of a path, when `now` is what is there. -/
def settle (location : String → String) (now : Option FileFingerprint) (path : String)
    (value : Option FileFingerprint) (event : String × String) : Option FileFingerprint :=
  if location event.2 = path then if event.1 = "removed" then none else now.or value
  else value

/-- What notifications make of the entry of a path. A notification is an action and a path. -/
def replay (location : String → String) (now : Option FileFingerprint) (path : String)
    (events : List (String × String)) (value : Option FileFingerprint) : Option FileFingerprint :=
  events.foldl (settle location now path) value

/-- The action and the path. -/
def FileActivity.event (activity : FileActivity) : String × String :=
  (activity.action, activity.path)

variable {disk : Disk location} {path : String} {baseline : Fingerprints}
  {events : List (String × String)} {now value : Option FileFingerprint}

theorem replay_append {others : List (String × String)} :
    replay location now path (events ++ others) value =
      replay location now path others (replay location now path events value) :=
  List.foldl_append

theorem replay_cons {event : String × String} :
    replay location now path (event :: events) value =
      replay location now path events (settle location now path value event) := rfl

theorem replay_concat {event : String × String} :
    replay location now path (events ++ [event]) value =
      settle location now path (replay location now path events value) event := by
  rw [replay_append]
  rfl

/-- Where notifications lead to what is there, they also do so from what is there. -/
theorem replay_fixed (h : replay location now path events value = now) :
    replay location now path events now = now := by
  induction events using List.reverseRecOn with
  | nil => rfl
  | append_singleton events event ih =>
      rw [replay_concat] at h ⊢
      unfold settle at h ⊢
      by_cases hevent : location event.2 = path
      · rw [if_pos hevent] at h ⊢
        by_cases hremoved : event.1 = "removed"
        · rw [if_pos hremoved] at h ⊢
          exact h
        · rw [if_neg hremoved] at h ⊢
          cases now with
          | none =>
              rw [Option.none_or] at h ⊢
              exact ih h
          | some fingerprint => rfl
      · rw [if_neg hevent] at h ⊢
        exact ih h

/-- Notifications about other files change nothing. -/
theorem replay_of_other (h : ∀ event ∈ events, location event.2 ≠ path) :
    replay location now path events value = value := by
  induction events generalizing value with
  | nil => rfl
  | cons event events ih =>
      obtain ⟨hevent, hevents⟩ := List.forall_mem_cons.mp h
      rw [replay_cons, settle, if_neg hevent]
      exact ih hevents

/-- A file leads to its own place. -/
theorem Disk.holds_congr {other : String} (hsame : location path = location other) :
    disk.Holds roots path ↔ disk.Holds roots other := by
  unfold Disk.Holds
  rw [hsame]

namespace Watched

variable (h : Watched roots disk)

include h

theorem normalized_held (hheld : disk.Holds roots path) :
    normalized disk.fs path = location path := by
  rw [normalized, h.held path hheld]
  rfl

theorem normalized_missing (hmissing : ¬ disk.Holds roots path) :
    normalized disk.fs path = path ∨ normalized disk.fs path = location path := by
  obtain hnone | hsome := h.missing path hmissing
  · rw [normalized, hnone]
    exact .inl rfl
  · rw [normalized, hsome]
    exact .inr rfl

/-- A path that leads to no file is not in the enumeration. -/
theorem lookup_missing (hmissing : ¬ disk.Holds roots path) :
    (enumerate disk.fs roots).lookup (location path) = none := by
  rw [AList.lookup_eq_none]
  intro hmem
  exact hmissing ((Disk.holds_congr (h.canonical path)).mp (disk.holds_of_enumerate hmem))

/-- A path that leads to a file is in the enumeration, as `metadata` tells it. -/
theorem lookup_held (hheld : disk.Holds roots path) :
    ∃ metadata, disk.fs.metadata (location path) = some metadata ∧ metadata.isFile = true ∧
      (enumerate disk.fs roots).lookup (location path) = some metadata.fingerprint := by
  obtain ⟨file, hfile, hplace⟩ := hheld
  have hmem : location path ∈ enumerate disk.fs roots := by
    refine (mem_enumerate_iff disk h.readable h.few.le _).mpr ⟨file, hfile, ?_⟩
    rw [h.normalized_held ⟨file, hfile, rfl⟩, hplace]
  obtain ⟨fingerprint, hlookup⟩ := Table.exists_lookup_of_mem hmem
  obtain ⟨found, hfound, hname, rfl⟩ := comesFrom_enumerate disk roots _ _ hlookup
  rw [h.normalized_held ⟨found, hfound, rfl⟩] at hname
  obtain ⟨metadata, hmetadata, hisFile, hsame⟩ := h.metadata found hfound
  rw [hname] at hmetadata
  exact ⟨metadata, hmetadata, hisFile, by rw [hlookup, hsame]⟩

/-- The enumeration has the files at their places. -/
theorem lookup_eq_some_iff {fingerprint : FileFingerprint} :
    (enumerate disk.fs roots).lookup path = some fingerprint ↔
      ∃ file ∈ disk.files roots, location file.1 = path ∧ file.2 = fingerprint := by
  constructor
  · intro hlookup
    obtain ⟨file, hfile, rfl, hsame⟩ := comesFrom_enumerate disk roots _ _ hlookup
    exact ⟨file, hfile, (h.normalized_held ⟨file, hfile, rfl⟩).symm, hsame⟩
  · rintro ⟨file, hfile, rfl, rfl⟩
    obtain ⟨metadata, hmetadata, -, hlookup⟩ := h.lookup_held ⟨file, hfile, rfl⟩
    obtain ⟨other, hother, -, hsame⟩ := h.metadata file hfile
    obtain rfl := Option.some.inj (hmetadata.symm.trans hother)
    rw [hlookup, hsame]

end Watched

/-- A removal that is processed while its file is missing names it canonically. -/
def NamesCanonically (roots : List String) (disk : Disk location) (activity : FileActivity) :
    Prop :=
  activity.action = "removed" → disk.Holds roots activity.path ∨
    location activity.path = activity.path

/-- One processed notification. -/
theorem updateBaseline_settle (h : Watched roots disk) {activity : FileActivity}
    (hnames : NamesCanonically roots disk activity) :
    (updateBaseline disk.fs baseline [activity]).lookup path =
      settle location ((enumerate disk.fs roots).lookup path) path (baseline.lookup path)
        activity.event := by
  have herase {key : String} (hkey : location activity.path = key) :
      AList.lookup path (baseline.erase key) =
        if location activity.path = path then none else baseline.lookup path := by
    split_ifs with hsame
    · rw [← hsame, hkey, AList.lookup_erase]
    · rw [hkey] at hsame
      exact AList.lookup_erase_ne (Ne.symm hsame)
  show _ = if location activity.path = path then
    if activity.action = "removed" then none
    else ((enumerate disk.fs roots).lookup path).or (baseline.lookup path)
    else baseline.lookup path
  simp only [updateBaseline, List.foldl_cons, List.foldl_nil]
  by_cases hheld : disk.Holds roots activity.path
  · rw [h.normalized_held hheld]
    by_cases hremoved : activity.action = "removed"
    · rw [if_pos hremoved, if_pos hremoved]
      exact herase rfl
    · obtain ⟨metadata, hmetadata, hisFile, hlookup⟩ := h.lookup_held hheld
      rw [if_neg hremoved, if_neg hremoved, hmetadata]
      dsimp only
      rw [if_pos hisFile]
      split_ifs with hsame
      · rw [hsame] at hlookup ⊢
        rw [AList.lookup_insert, hlookup]
        rfl
      · exact AList.lookup_insert_ne (Ne.symm hsame)
  · by_cases hremoved : activity.action = "removed"
    · have hname : location activity.path = activity.path :=
        (hnames hremoved).resolve_left hheld
      rw [if_pos hremoved, if_pos hremoved]
      obtain hsame | hsame := h.normalized_missing hheld
      · rw [hsame]
        exact herase hname
      · rw [hsame]
        exact herase rfl
    · rw [if_neg hremoved, if_neg hremoved]
      have hnone : ¬ disk.Holds roots (normalized disk.fs activity.path) := by
        rwa [Disk.holds_congr (disk.location_normalized activity.path)]
      have hkept : baseline.lookup path = if location activity.path = path then
          ((enumerate disk.fs roots).lookup path).or (baseline.lookup path)
          else baseline.lookup path := by
        split_ifs with hsame
        · rw [← hsame, h.lookup_missing hheld]
          rfl
        · rfl
      cases hmetadata : disk.fs.metadata (normalized disk.fs activity.path) with
      | none => exact hkept
      | some metadata =>
          dsimp only
          rw [if_neg (by simp [h.noMetadata _ hnone metadata hmetadata])]
          exact hkept

/-- **What `update_baseline` does** is what the notifications make of each entry. -/
theorem updateBaseline_replay (h : Watched roots disk) {activities : List FileActivity}
    (hnames : ∀ activity ∈ activities, NamesCanonically roots disk activity) :
    (updateBaseline disk.fs baseline activities).lookup path =
      replay location ((enumerate disk.fs roots).lookup path) path
        (activities.map FileActivity.event) (baseline.lookup path) := by
  induction activities generalizing baseline with
  | nil => rfl
  | cons activity activities ih =>
      obtain ⟨hactivity, hactivities⟩ := List.forall_mem_cons.mp hnames
      have hfirst : (updateBaseline disk.fs baseline [activity]).lookup path = _ :=
        updateBaseline_settle h hactivity
      have hrest : (updateBaseline disk.fs (updateBaseline disk.fs baseline [activity])
          activities).lookup path = _ := ih hactivities
      rw [hfirst] at hrest
      rw [List.map_cons, replay_cons]
      exact hrest

end process

/-! ## Runs -/

section runs

variable {location : String → String}

/-- The files, the monitor, the notifications that are not delivered yet, the places of the files
that have changed since the start, and whether the baseline thread is done. -/
structure WatchState (location : String → String) where
  disk : Disk location
  monitor : FileMonitor
  undelivered : List (EventKind × String)
  changed : List String
  sent : Bool

/-- A file is created, modified or removed, which leaves other files; the next notification is
delivered; the thread has sent its enumeration; the monitor is drained. -/
inductive WatchAction (location : String → String) where
  | change (kind : EventKind) (path : String) (after : Disk location)
  | deliver (now : String)
  | enumerated (found : Fingerprints)
  | drain (order : IterOrder String FileFingerprint) (now : String) (limit : ℕ)

/-- One step. A change of a file is notified under a path that leads to it; what the thread has
enumerated is right where nothing has changed since the start; a notification is delivered while the
queue has room. -/
inductive WatchStep (roots : List String) :
    WatchState location → WatchAction location → WatchState location → Prop
  | change {state : WatchState location} {kind : EventKind} {action path : String}
      {after : Disk location} (hkind : kind.action = some action) (hafter : Watched roots after)
      (hhere : action = "removed" ↔ ¬ after.Holds roots path)
      (hothers : ∀ file, location file.1 ≠ location path →
        (file ∈ after.files roots ↔ file ∈ state.disk.files roots)) :
      WatchStep roots state (.change kind path after)
        { state with
          disk := after
          undelivered := state.undelivered ++ [(kind, path)]
          changed := location path :: state.changed }
  | deliver {state : WatchState location} {kind : EventKind} {path now : String}
      {rest : List (EventKind × String)} (hnext : state.undelivered = (kind, path) :: rest)
      (hroom : state.monitor.queue.length < fileEventCapacity) :
      WatchStep roots state (.deliver now)
        { state with
          monitor := enqueueEvent now kind [path] state.monitor
          undelivered := rest }
  | enumerated {state : WatchState location} {found : Fingerprints} (hsent : state.sent = false)
      (hfound : ∀ path ∉ state.changed,
        found.lookup path = (enumerate state.disk.fs roots).lookup path) :
      WatchStep roots state (.enumerated found)
        { state with
          monitor := { state.monitor with baselineReceiver := some found }
          sent := true }
  | drain {state : WatchState location} {order : IterOrder String FileFingerprint} {now : String}
      {limit : ℕ} :
      WatchStep roots state (.drain order now limit)
        { state with monitor := (drain state.disk.fs order now limit state.monitor).2 }

/-- The notifications that were put aside until the baseline is there. -/
def FileMonitor.aside (monitor : FileMonitor) : List FileActivity :=
  if monitor.baselineReady then [] else monitor.prebaselineEvents

/-- The notifications that a drain processes on the baseline. -/
def processed (fs : FileSystem) (limit : ℕ) (monitor : FileMonitor) : List FileActivity :=
  if (receiveBaseline fs monitor).baselineReady then
    monitor.aside ++
      if reconcileDue fs monitor then [] else monitor.queue.take (clampLimit limit)
  else []

/-- A drain processes each removal whose file is missing under the canonical path of the file; and
before the baseline is there, it puts aside no more than the monitor keeps. -/
structure DrainsCleanly (roots : List String) (state : WatchState location) (limit : ℕ) :
    Prop where
  named : ∀ activity ∈ processed state.disk.fs limit state.monitor,
    NamesCanonically roots state.disk activity
  kept : (receiveBaseline state.disk.fs state.monitor).baselineReady = false →
    state.monitor.prebaselineEvents.length +
      (state.monitor.queue.take (clampLimit limit)).length ≤ 4096

/-- The condition on a step. -/
def StepsCleanly (roots : List String) (state : WatchState location) :
    WatchAction location → Prop
  | .drain _ _ limit => DrainsCleanly roots state limit
  | _ => True

/-- A run whose steps meet a condition. -/
inductive WatchRun (roots : List String)
    (meets : WatchState location → WatchAction location → Prop) :
    WatchState location → WatchState location → Prop
  | start {state : WatchState location} : WatchRun roots meets state state
  | step {first state after : WatchState location} {action : WatchAction location}
      (hrun : WatchRun roots meets first state) (hmeets : meets state action)
      (hstep : WatchStep roots state action after) : WatchRun roots meets first after

/-- A monitor that has just started.
Source: `file_monitor.rs`, `FileMonitor::start` -/
def FileMonitor.started (fs : FileSystem) (roots : List String) : FileMonitor where
  queue := []
  dropped := 0
  roots
  baseline := ∅
  baselineReceiver := none
  baselineReady := false
  prebaselineEvents := []
  pendingReconcile := false
  previousDropped := 0
  checkpoint := roots.head?.bind fs.usnCheckpoint

/-- A run begins when the monitor starts. -/
def WatchState.started (roots : List String) (disk : Disk location) : WatchState location where
  disk
  monitor := .started disk.fs roots
  undelivered := []
  changed := []
  sent := false

/-- Once every notification is processed, the baseline is the enumeration, and a reconciliation
finds nothing. -/
def BaselineFollows (roots : List String) (state : WatchState location) : Prop :=
  state.undelivered = [] → state.monitor.queue = [] → state.monitor.baselineReady = true →
    (∀ path, path ∈ state.monitor.baseline ↔ path ∈ enumerate state.disk.fs roots) ∧
    ∀ order now limit, (reconcile state.disk.fs order now limit state.monitor).1 = []

/-! ### What is under way -/

/-- The notifications that are still to be processed, in their order. -/
def WatchState.pending (state : WatchState location) : List (String × String) :=
  state.monitor.aside.map FileActivity.event ++ state.monitor.queue.map FileActivity.event ++
    state.undelivered.map fun event => (event.1.action.getD "", event.2)

/-- The baseline, or what the thread has sent for it. -/
def WatchState.known (state : WatchState location) : Option Fingerprints :=
  if state.monitor.baselineReady then some state.monitor.baseline
  else state.monitor.baselineReceiver

/-- What is under way leads to what is there: for a place that has changed from anything until the
baseline is known, and for every path from what is known. -/
structure Settling (roots : List String) (state : WatchState location) : Prop where
  monitored : state.monitor.roots = roots
  watched : Watched roots state.disk
  kinds : ∀ event ∈ state.undelivered, event.1.action.isSome
  unsent : state.sent = false → state.monitor.baselineReady = false ∧
    state.monitor.baselineReceiver = none
  notified : state.sent = false → ∀ event ∈ state.pending, location event.2 ∈ state.changed
  changed : state.sent = false → ∀ path ∈ state.changed, ∀ value,
    replay location ((enumerate state.disk.fs roots).lookup path) path state.pending value =
      (enumerate state.disk.fs roots).lookup path
  known : ∀ found, state.known = some found → ∀ path,
    replay location ((enumerate state.disk.fs roots).lookup path) path state.pending
      (found.lookup path) = (enumerate state.disk.fs roots).lookup path

variable {roots : List String} {state after : WatchState location}
  {action : WatchAction location}

/-- A monitor that has just started. -/
theorem settling_started {disk : Disk location} (hwatched : Watched roots disk) :
    Settling roots (.started roots disk) where
  monitored := rfl
  watched := hwatched
  kinds event h := by cases h
  unsent _ := ⟨rfl, rfl⟩
  notified _ event h := by cases h
  changed _ path h := by cases h
  known found h := by cases h

/-- A file that changes leaves the entries of the others. -/
theorem lookup_of_others {before disk : Disk location} {path other : String}
    (hbefore : Watched roots before) (hdisk : Watched roots disk)
    (hothers : ∀ file, location file.1 ≠ location path →
      (file ∈ disk.files roots ↔ file ∈ before.files roots)) (hother : other ≠ location path) :
    (enumerate disk.fs roots).lookup other = (enumerate before.fs roots).lookup other := by
  refine Option.ext fun fingerprint => ?_
  rw [hdisk.lookup_eq_some_iff, hbefore.lookup_eq_some_iff]
  refine exists_congr fun file => ?_
  constructor
  · rintro ⟨hfile, rfl, hsame⟩
    exact ⟨(hothers file hother).mp hfile, rfl, hsame⟩
  · rintro ⟨hfile, rfl, hsame⟩
    exact ⟨(hothers file hother).mpr hfile, rfl, hsame⟩

/-- The notification of a change leads to what there is after it. -/
theorem settle_changed {disk : Disk location} {path name : String}
    (hdisk : Watched roots disk) (hhere : name = "removed" ↔ ¬ disk.Holds roots path)
    (value : Option FileFingerprint) :
    settle location ((enumerate disk.fs roots).lookup (location path)) (location path) value
      (name, path) = (enumerate disk.fs roots).lookup (location path) := by
  unfold settle
  rw [if_pos rfl]
  dsimp only
  by_cases hremoved : name = "removed"
  · rw [if_pos hremoved, hdisk.lookup_missing (hhere.mp hremoved)]
  · rw [if_neg hremoved]
    have hheld : disk.Holds roots path := by
      by_contra hmissing
      exact hremoved (hhere.mpr hmissing)
    obtain ⟨metadata, -, -, hlookup⟩ := hdisk.lookup_held hheld
    rw [hlookup]
    rfl

/-- A change is under way from when it happens. -/
theorem Settling.change (h : Settling roots state) {kind : EventKind} {name path : String}
    {disk : Disk location} (hkind : kind.action = some name) (hdisk : Watched roots disk)
    (hhere : name = "removed" ↔ ¬ disk.Holds roots path)
    (hothers : ∀ file, location file.1 ≠ location path →
      (file ∈ disk.files roots ↔ file ∈ state.disk.files roots)) :
    Settling roots { state with
      disk := disk
      undelivered := state.undelivered ++ [(kind, path)]
      changed := location path :: state.changed } := by
  set next : WatchState location := { state with
    disk := disk
    undelivered := state.undelivered ++ [(kind, path)]
    changed := location path :: state.changed } with hnext
  have hpending : next.pending = state.pending ++ [(name, path)] := by
    rw [hnext, WatchState.pending, WatchState.pending, List.map_append, ← List.append_assoc,
      List.map_singleton, hkind]
    rfl
  have hother {other : String} (hne : other ≠ location path) (value : Option FileFingerprint)
      (hold : replay location ((enumerate state.disk.fs roots).lookup other) other state.pending
        value = (enumerate state.disk.fs roots).lookup other) :
      replay location ((enumerate disk.fs roots).lookup other) other next.pending value =
        (enumerate disk.fs roots).lookup other := by
    rw [hpending, replay_concat, settle, if_neg (Ne.symm hne),
      lookup_of_others h.watched hdisk hothers hne, hold]
  have hplace (value : Option FileFingerprint) :
      replay location ((enumerate disk.fs roots).lookup (location path)) (location path)
        next.pending value = (enumerate disk.fs roots).lookup (location path) := by
    rw [hpending, replay_concat]
    exact settle_changed hdisk hhere _
  refine ⟨h.monitored, hdisk, ?_, h.unsent, ?_, ?_, ?_⟩
  · intro event hevent
    obtain hold | hnew := List.mem_append.mp hevent
    · exact h.kinds event hold
    · rw [List.mem_singleton.mp hnew, hkind]
      rfl
  · intro hsent event hevent
    rw [hpending] at hevent
    obtain hold | hnew := List.mem_append.mp hevent
    · exact List.mem_cons_of_mem _ (h.notified hsent event hold)
    · rw [List.mem_singleton.mp hnew]
      exact List.mem_cons_self
  · intro hsent other hchanged value
    by_cases hsame : other = location path
    · rw [hsame]
      exact hplace value
    · exact hother hsame value
        (h.changed hsent other ((List.mem_cons.mp hchanged).resolve_left hsame) value)
  · intro found hfound other
    by_cases hsame : other = location path
    · rw [hsame]
      exact hplace _
    · exact hother hsame _ (h.known found hfound other)

/-- A delivery changes nothing about what is under way. -/
theorem Settling.deliver (h : Settling roots state) {kind : EventKind} {path : String}
    {rest : List (EventKind × String)} (now : String)
    (hnext : state.undelivered = (kind, path) :: rest)
    (hroom : state.monitor.queue.length < fileEventCapacity) :
    Settling roots { state with
      monitor := enqueueEvent now kind [path] state.monitor
      undelivered := rest } := by
  obtain ⟨name, hkind⟩ : ∃ name, kind.action = some name :=
    Option.isSome_iff_exists.mp (h.kinds (kind, path) (hnext ▸ List.mem_cons_self))
  have hmonitor : enqueueEvent now kind [path] state.monitor = { state.monitor with
      queue := state.monitor.queue ++ [⟨name, path, "read_directory_changes", now⟩] } := by
    simp only [enqueueEvent, hkind, List.foldl_cons, List.foldl_nil, trySend, if_pos hroom]
  rw [hmonitor]
  set next : WatchState location := { state with
    monitor := { state.monitor with
      queue := state.monitor.queue ++ [⟨name, path, "read_directory_changes", now⟩] }
    undelivered := rest } with hdef
  have hpending : next.pending = state.pending := by
    rw [hdef, WatchState.pending, WatchState.pending, hnext]
    simp [FileActivity.event, FileMonitor.aside, hkind]
  refine ⟨h.monitored, h.watched, ?_, h.unsent, ?_, ?_, ?_⟩
  · intro event hevent
    exact h.kinds event (hnext ▸ List.mem_cons_of_mem _ hevent)
  · intro hsent
    rw [hpending]
    exact h.notified hsent
  · intro hsent
    rw [hpending]
    exact h.changed hsent
  · intro found hfound
    rw [hpending]
    exact h.known found hfound

/-- The enumeration of the thread is known from when it is sent. -/
theorem Settling.enumerated (h : Settling roots state) {found : Fingerprints}
    (hsent : state.sent = false) (hfound : ∀ path ∉ state.changed,
      found.lookup path = (enumerate state.disk.fs roots).lookup path) :
    Settling roots { state with
      monitor := { state.monitor with baselineReceiver := some found }
      sent := true } := by
  obtain ⟨hready, -⟩ := h.unsent hsent
  refine ⟨h.monitored, h.watched, h.kinds, nofun, nofun, nofun, ?_⟩
  intro known hknown path
  have hsame : known = found := by
    have hsome : some known = some found := by
      rw [← hknown, WatchState.known]
      dsimp only
      rw [if_neg (by simp [hready])]
    exact Option.some.inj hsome
  rw [hsame]
  show replay location ((enumerate state.disk.fs roots).lookup path) path state.pending
    (found.lookup path) = (enumerate state.disk.fs roots).lookup path
  by_cases hchanged : path ∈ state.changed
  · exact h.changed hsent path hchanged _
  · rw [hfound path hchanged]
    refine replay_of_other fun event hevent hplace => hchanged ?_
    rw [← hplace]
    exact h.notified hsent event hevent

/-- The baseline that is received is what was known, with the notifications that were put aside. -/
theorem receiveBaseline_known {fs : FileSystem} {monitor : FileMonitor}
    (hready : (receiveBaseline fs monitor).baselineReady = true) :
    ∃ found, (if monitor.baselineReady then some monitor.baseline else monitor.baselineReceiver) =
        some found ∧
      (receiveBaseline fs monitor).baseline = updateBaseline fs found monitor.aside := by
  unfold receiveBaseline at hready ⊢
  unfold FileMonitor.aside
  by_cases hbefore : monitor.baselineReady = true
  · simp only [hbefore, if_true]
    exact ⟨_, rfl, rfl⟩
  · simp only [hbefore, if_false, Bool.false_eq_true] at hready ⊢
    cases hreceiver : monitor.baselineReceiver with
    | none =>
        rw [hreceiver] at hready
        exact absurd hready hbefore
    | some found => exact ⟨found, rfl, rfl⟩

/-- Without a baseline to receive, nothing is received. -/
theorem receiveBaseline_eq_self {fs : FileSystem} {monitor : FileMonitor}
    (hready : (receiveBaseline fs monitor).baselineReady = false) :
    receiveBaseline fs monitor = monitor ∧ monitor.baselineReady = false := by
  unfold receiveBaseline at hready ⊢
  split_ifs at hready ⊢ with hbefore
  · exact ⟨rfl, hready⟩
  · cases hreceiver : monitor.baselineReceiver with
    | none => exact ⟨rfl, by simpa using hbefore⟩
    | some found =>
        rw [hreceiver] at hready
        cases hready

/-- A drain without a baseline puts aside what it takes. -/
theorem Settling.drain_aside (h : Settling roots state) {order : IterOrder String FileFingerprint}
    {now : String} {limit : ℕ} (hclean : DrainsCleanly roots state limit)
    (hready : (receiveBaseline state.disk.fs state.monitor).baselineReady = false) :
    Settling roots { state with
      monitor := (drain state.disk.fs order now limit state.monitor).2 } := by
  have hleaves := drain_leaves state.disk.fs order now limit state.monitor
  have hroom := hclean.kept hready
  obtain ⟨hself, hbefore⟩ := receiveBaseline_eq_self hready
  generalize (drain state.disk.fs order now limit state.monitor).2 = monitor at hleaves ⊢
  have hnotready : monitor.baselineReady = false := hleaves.ready.trans hready
  have hreceiver : monitor.baselineReceiver = state.monitor.baselineReceiver := by
    rw [hleaves.receiver, hself]
  have haside : monitor.aside =
      state.monitor.aside ++ state.monitor.queue.take (clampLimit limit) := by
    simp only [FileMonitor.aside, hnotready, hbefore, hleaves.prebaseline, hself,
      Bool.false_eq_true, if_false]
    rw [List.take_of_length_le (by omega)]
  set next : WatchState location := { state with monitor := monitor } with hdef
  have hpending : next.pending = state.pending := by
    rw [hdef, WatchState.pending, WatchState.pending]
    dsimp only
    conv_rhs => rw [← List.take_append_drop (clampLimit limit) state.monitor.queue]
    rw [haside, hleaves.queue]
    simp only [List.map_append, List.append_assoc]
  have hknown : next.known = state.known := by
    simp only [hdef, WatchState.known, hnotready, hbefore, hreceiver, Bool.false_eq_true, if_false]
  refine ⟨hleaves.roots.trans h.monitored, h.watched, h.kinds, ?_, ?_, ?_, ?_⟩
  · intro hsent
    exact ⟨hnotready, hreceiver.trans (h.unsent hsent).2⟩
  · intro hsent
    rw [hpending]
    exact h.notified hsent
  · intro hsent
    rw [hpending]
    exact h.changed hsent
  · intro found hfound
    rw [hpending]
    exact h.known found (hknown ▸ hfound)

/-- A drain with a baseline processes what was put aside and what it takes, or enumerates. -/
theorem Settling.drain_ready (h : Settling roots state) {order : IterOrder String FileFingerprint}
    {now : String} {limit : ℕ} (hclean : DrainsCleanly roots state limit)
    (hready : (receiveBaseline state.disk.fs state.monitor).baselineReady = true) :
    Settling roots { state with
      monitor := (drain state.disk.fs order now limit state.monitor).2 } := by
  have hleaves := drain_leaves state.disk.fs order now limit state.monitor
  have hnamed := hclean.named
  obtain ⟨found, hfound, hreceived⟩ := receiveBaseline_known hready
  have hsent : state.sent = true := by
    by_contra hunsent
    obtain ⟨hnone, hreceiver⟩ := h.unsent (by simpa using hunsent)
    rw [if_neg (by simp [hnone]), hreceiver] at hfound
    cases hfound
  generalize (drain state.disk.fs order now limit state.monitor).2 = monitor at hleaves ⊢
  have hafter : monitor.baselineReady = true := hleaves.ready.trans hready
  set next : WatchState location := { state with monitor := monitor } with hdef
  have hpending : next.pending = (state.monitor.queue.drop (clampLimit limit)).map
      FileActivity.event ++ state.undelivered.map fun event => (event.1.action.getD "", event.2) := by
    simp only [hdef, WatchState.pending, FileMonitor.aside, hafter, hleaves.queue, if_true,
      List.map_nil, List.nil_append]
  have hsplit : state.pending =
      state.monitor.aside.map FileActivity.event ++
        (state.monitor.queue.take (clampLimit limit)).map FileActivity.event ++ next.pending := by
    conv_lhs => rw [WatchState.pending,
      ← List.take_append_drop (clampLimit limit) state.monitor.queue]
    rw [hpending]
    simp only [List.map_append, List.append_assoc]
  have hunsent : ¬ next.sent = false := by
    intro hnot
    have hstate : state.sent = false := hnot
    rw [hsent] at hstate
    cases hstate
  refine ⟨hleaves.roots.trans h.monitored, h.watched, h.kinds, fun hnot => absurd hnot hunsent,
    fun hnot => absurd hnot hunsent, fun hnot => absurd hnot hunsent, ?_⟩
  intro known hknown path
  have hbaseline : known = monitor.baseline := by
    simp only [hdef, WatchState.known, hafter, if_true, Option.some.injEq] at hknown
    exact hknown.symm
  have hold := h.known found hfound path
  rw [hsplit, replay_append, replay_append] at hold
  rw [hbaseline, hleaves.baseline]
  unfold processed at hnamed
  rw [if_pos hready] at hnamed
  cases hdue : reconcileDue state.disk.fs state.monitor with
  | true =>
      rw [if_pos rfl, h.monitored]
      exact replay_fixed hold
  | false =>
      simp only [hdue, Bool.false_eq_true, if_false] at hnamed ⊢
      rw [if_pos hready, hreceived,
        updateBaseline_replay h.watched fun activity hmem =>
          hnamed activity (List.mem_append_right _ hmem),
        updateBaseline_replay h.watched fun activity hmem =>
          hnamed activity (List.mem_append_left _ hmem)]
      exact hold

/-- **Every step** keeps what is under way. -/
theorem settling_step (h : Settling roots state) (hclean : StepsCleanly roots state action)
    (hstep : WatchStep roots state action after) : Settling roots after := by
  cases hstep with
  | change hkind hafter hhere hothers => exact h.change hkind hafter hhere hothers
  | deliver hnext hroom => exact h.deliver _ hnext hroom
  | enumerated hsent hfound => exact h.enumerated hsent hfound
  | drain =>
      cases hready : (receiveBaseline state.disk.fs state.monitor).baselineReady with
      | true => exact h.drain_ready hclean hready
      | false => exact h.drain_aside hclean hready

/-- Nothing is found where the baseline is the enumeration. -/
theorem reconcileEvents_of_same {baseline current : Fingerprints}
    (hsame : ∀ path, baseline.lookup path = current.lookup path)
    (order : IterOrder String FileFingerprint) (now : String) (limit : ℕ) :
    reconcileEvents order now limit baseline current = [] := by
  refine List.eq_nil_iff_forall_not_mem.mpr fun activity hmem => ?_
  obtain ⟨path, fingerprint, action, hlookup, haction, -⟩ | ⟨-, path, hbaseline, hmissing, -⟩ :=
    mem_reconcileEvents hmem
  · have hdiffers : baseline.lookup path ≠ some fingerprint :=
      reconcileAction_isSome_iff.mp (haction ▸ rfl)
    exact hdiffers ((hsame path).trans hlookup)
  · rw [← AList.lookup_isSome, hsame, AList.lookup_isSome] at hbaseline
    exact hmissing hbaseline

/-- When nothing is under way, the baseline is the enumeration. -/
theorem Settling.follows (h : Settling roots state) : BaselineFollows roots state := by
  intro hundelivered hqueue hready
  have hpending : state.pending = [] := by
    rw [WatchState.pending, FileMonitor.aside, if_pos hready, hqueue, hundelivered]
    rfl
  have hsame : ∀ path, state.monitor.baseline.lookup path =
      (enumerate state.disk.fs roots).lookup path := by
    intro path
    have hknown := h.known state.monitor.baseline (by rw [WatchState.known, if_pos hready]) path
    rwa [hpending] at hknown
  refine ⟨fun path => ?_, fun order now limit => ?_⟩
  · rw [← AList.lookup_isSome, hsame, AList.lookup_isSome]
  · show reconcileEvents order now limit state.monitor.baseline
      (enumerate state.disk.fs state.monitor.roots) = []
    rw [h.monitored]
    exact reconcileEvents_of_same hsame order now limit

/-- **The baseline follows the notifications**: in every state of a run in which each removal is
processed under the canonical path of its file, or while a file is there again, and no notification
that is put aside is dropped. -/
theorem baseline_follows (roots : List String) (disk : Disk location)
    (hwatched : Watched roots disk)
    (hrun : WatchRun roots (StepsCleanly roots) (.started roots disk) state) :
    BaselineFollows roots state := by
  have hsettling : Settling roots state := by
    generalize hfirst : WatchState.started roots disk = first at hrun
    induction hrun with
    | start => exact hfirst ▸ settling_started hwatched
    | step hrun hmeets hstep ih => exact settling_step ih hmeets hstep
  exact hsettling.follows

/-! ### A file that goes -/

/-- The file is at its verbatim path. -/
def verbatim (path : String) : String :=
  if path = "C:\\watched\\a.txt" then "\\\\?\\C:\\watched\\a.txt" else path

/-- What is below the watched folder while the file is there, and when it is gone. -/
def watchedTree (present : Bool) : Tree :=
  if present then .entry "C:\\watched\\a.txt" ⟨false, true, false, 1, some 10⟩ .nil .nil else .nil

/-- The folder. -/
def watchedDisk (present : Bool) : Disk verbatim where
  fs :=
    { readDir := fun root =>
        some ((if root = "C:\\watched" then watchedTree present else .nil).listing fun _ => false)
      canonicalize := fun path =>
        if present && verbatim path == "\\\\?\\C:\\watched\\a.txt" then some (verbatim path)
        else none
      metadata := fun path =>
        if present && verbatim path == "\\\\?\\C:\\watched\\a.txt" then
          some ⟨false, true, false, 1, some 10⟩
        else none
      usnCheckpoint := fun _ => none }
  below root := if root = "C:\\watched" then watchedTree present else .nil
  denied _ := false
  readDir _ := (if_neg Bool.false_ne_true).symm
  resolves path name h := by
    dsimp only at h
    split_ifs at h
    rw [← Option.some.inj h]
    unfold verbatim
    split_ifs <;> simp_all

theorem files_watchedDisk (present : Bool) :
    (watchedDisk present).files ["C:\\watched"] =
      if present then [("C:\\watched\\a.txt", ⟨1, 10⟩)] else [] := by
  cases present <;> rfl

theorem holds_watchedDisk_iff {present : Bool} {path : String} :
    (watchedDisk present).Holds ["C:\\watched"] path ↔
      present = true ∧ verbatim path = "\\\\?\\C:\\watched\\a.txt" := by
  unfold Disk.Holds
  rw [files_watchedDisk]
  cases present with
  | true =>
    simp [eq_comm, show verbatim "C:\\watched\\a.txt" = "\\\\?\\C:\\watched\\a.txt" from rfl]
  | false => simp

/-- The folder is watched as a run supposes. -/
theorem watched_watchedDisk (present : Bool) :
    Watched ["C:\\watched"] (watchedDisk present) where
  readable root hroot := by
    rw [List.mem_singleton.mp hroot]
    cases present with
    | true => exact ⟨rfl, rfl, fun _ _ => trivial, trivial⟩
    | false => exact ⟨rfl, trivial⟩
  few := by
    rw [files_watchedDisk]
    cases present <;> decide
  canonical path := by
    unfold verbatim
    split_ifs <;> simp_all
  held path hheld := by
    obtain ⟨rfl, hpath⟩ := holds_watchedDisk_iff.mp hheld
    simp [watchedDisk, hpath]
  missing path hmissing := by
    refine .inl (if_neg fun h => hmissing (holds_watchedDisk_iff.mpr ?_))
    simpa using h
  metadata file hfile := by
    rw [files_watchedDisk] at hfile
    cases present with
    | true =>
        rw [List.mem_singleton.mp hfile]
        exact ⟨⟨false, true, false, 1, some 10⟩, rfl, rfl, rfl⟩
    | false => cases hfile
  noMetadata path hmissing metadata hmetadata := by
    have hnone : (watchedDisk present).fs.metadata path = none := by
      refine if_neg fun h => hmissing (holds_watchedDisk_iff.mpr ?_)
      simpa using h
    rw [hnone] at hmetadata
    cases hmetadata

/-- The baseline thread has sent what it found. -/
def sentState : WatchState verbatim where
  disk := watchedDisk true
  monitor :=
    { FileMonitor.started (watchedDisk true).fs ["C:\\watched"] with
      baselineReceiver := some (enumerate (watchedDisk true).fs ["C:\\watched"]) }
  undelivered := []
  changed := []
  sent := true

/-- A drain has received the baseline. -/
def readyState : WatchState verbatim :=
  { sentState with
    monitor := (drain (watchedDisk true).fs .stored "unix:20" 512 sentState.monitor).2 }

/-- The file is removed, and the path under which that is notified. -/
def removedState (path : String) : WatchState verbatim :=
  { readyState with
    disk := watchedDisk false
    undelivered := [(.remove, path)]
    changed := [verbatim path] }

/-- The notification is in the queue. -/
def deliveredState (path : String) : WatchState verbatim :=
  { removedState path with
    monitor := enqueueEvent "unix:21" .remove [path] (removedState path).monitor
    undelivered := [] }

/-- A drain has processed it. -/
def drainedState (path : String) : WatchState verbatim :=
  { deliveredState path with
    monitor := (drain (watchedDisk false).fs .stored "unix:22" 512
      (deliveredState path).monitor).2 }

/-- The run to that state. -/
theorem watchRun_drainedState {path : String} (hpath : verbatim path = "\\\\?\\C:\\watched\\a.txt")
    {meets : WatchState verbatim → WatchAction verbatim → Prop}
    (hmeets : ∀ state action, (∀ order now limit, action ≠ .drain order now limit) →
      meets state action)
    (hready : meets sentState (.drain .stored "unix:20" 512))
    (hdrained : meets (deliveredState path) (.drain .stored "unix:22" 512)) :
    WatchRun ["C:\\watched"] meets (.started ["C:\\watched"] (watchedDisk true))
      (drainedState path) := by
  have hsent : WatchStep ["C:\\watched"] (.started ["C:\\watched"] (watchedDisk true))
      (.enumerated (enumerate (watchedDisk true).fs ["C:\\watched"])) sentState :=
    .enumerated rfl fun _ _ => rfl
  have hremoved : WatchStep ["C:\\watched"] readyState (.change .remove path (watchedDisk false))
      (removedState path) := by
    refine .change rfl (watched_watchedDisk false) (iff_of_true rfl ?_) fun file hother => ?_
    · rw [holds_watchedDisk_iff]
      exact fun h => Bool.false_ne_true h.1
    · show file ∈ (watchedDisk false).files _ ↔ file ∈ (watchedDisk true).files _
      rw [files_watchedDisk, files_watchedDisk]
      refine iff_of_false List.not_mem_nil fun hfile => hother ?_
      rw [List.mem_singleton.mp hfile, hpath]
      rfl
  have hroom : (removedState path).monitor.queue.length < fileEventCapacity := by
    have hempty : (removedState path).monitor.queue = [] := rfl
    rw [hempty]
    decide
  refine .step (.step (.step (.step (.step .start ?_ hsent) hready .drain) ?_ hremoved) ?_
    (.deliver rfl hroom)) hdrained .drain
  · exact hmeets _ _ nofun
  · exact hmeets _ _ nofun
  · exact hmeets _ _ nofun

theorem baseline_follows_verbatim : ∃ state : WatchState verbatim,
    state.changed = ["\\\\?\\C:\\watched\\a.txt"] ∧ state.monitor.baselineReady = true ∧
      BaselineFollows ["C:\\watched"] state := by
  have hready : processed (watchedDisk true).fs 512 sentState.monitor = [] := by decide
  have hdrained : processed (watchedDisk false).fs 512
      (deliveredState "\\\\?\\C:\\watched\\a.txt").monitor =
      [⟨"removed", "\\\\?\\C:\\watched\\a.txt", "read_directory_changes", "unix:21"⟩] := by decide
  refine ⟨drainedState "\\\\?\\C:\\watched\\a.txt", by decide, by decide, ?_⟩
  refine baseline_follows ["C:\\watched"] (watchedDisk true) (watched_watchedDisk true)
    (watchRun_drainedState rfl ?_ ⟨?_, ?_⟩ ⟨?_, ?_⟩)
  · intro state action hother
    cases action with
    | drain order now limit => exact absurd rfl (hother order now limit)
    | _ => trivial
  · intro activity hmem
    have hnone : activity ∈ processed (watchedDisk true).fs 512 sentState.monitor := hmem
    rw [hready] at hnone
    cases hnone
  · intro hnot
    exact absurd hnot (by decide)
  · intro activity hmem _
    have hone : activity ∈ processed (watchedDisk false).fs 512
      (deliveredState "\\\\?\\C:\\watched\\a.txt").monitor := hmem
    rw [hdrained, List.mem_singleton] at hone
    rw [hone]
    exact .inr rfl
  · intro hnot
    exact absurd hnot (by decide)

/-- **A stale entry**: the removal is notified under the plain path, and when it is processed, the
entry of the file stays in the baseline. -/
theorem baseline_keeps_removed_file :
    WatchRun ["C:\\watched"] (fun _ _ => True) (.started ["C:\\watched"] (watchedDisk true))
        (drainedState "C:\\watched\\a.txt") ∧
      "\\\\?\\C:\\watched\\a.txt" ∈ (drainedState "C:\\watched\\a.txt").monitor.baseline ∧
      ¬ BaselineFollows ["C:\\watched"] (drainedState "C:\\watched\\a.txt") := by
  have hstale : "\\\\?\\C:\\watched\\a.txt" ∈
      (drainedState "C:\\watched\\a.txt").monitor.baseline := by decide
  refine ⟨watchRun_drainedState rfl (fun _ _ _ => trivial) trivial trivial, hstale, fun h => ?_⟩
  obtain ⟨hsame, -⟩ := h rfl (by decide) (by decide)
  have hgone : "\\\\?\\C:\\watched\\a.txt" ∉ enumerate
      (drainedState "C:\\watched\\a.txt").disk.fs ["C:\\watched"] := by decide
  exact hgone ((hsame _).mp hstale)

end runs

end OpenGuard.Windows
