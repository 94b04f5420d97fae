import OpenGuard.Service.Interleaving
import Mathlib.Data.List.Chain

/-!
# The lifecycle rows of one user

While one user alone asks for snapshots, the rows of a request tell what changed since the request
before. A start is found by process id and path, a stop by the process id alone, so a process id
that now belongs to another program gives a start without a stop.

* `Shows`: a snapshot with distinct process ids shows a process with the path.
* `exactPair_iff`: the rows between two snapshots are exact unless a process id changed its path.
* `lifecycle_iff`: over a run they are exact, and starts and stops of a process id alternate,
  exactly when no process id changes its path between two requests.
-/

namespace OpenGuard.Service

open OpenGuard.Lib OpenGuard.Domain OpenGuard.Storage

/-- A snapshot of processes with distinct ids. -/
structure PolledSnapshot extends SystemSnapshot where
  distinct : (processes.map (·.pid)).Nodup

/-- A process of the snapshot has the id and the path. -/
def Shows (snapshot : SystemSnapshot) (pid : UInt32) (path : String) : Prop :=
  ∃ process ∈ snapshot.processes, process.pid = pid ∧ process.path = path

instance (snapshot : SystemSnapshot) (pid : UInt32) (path : String) :
    Decidable (Shows snapshot pid path) :=
  inferInstanceAs (Decidable (∃ process ∈ snapshot.processes, _))

/-- What the rows between two snapshots should tell: the processes and flows that are in one of them
only. -/
def pairDifferences (first second : SystemSnapshot) : List Transition :=
  ((second.processes.filter fun process => ¬Shows first process.pid process.path).map .started ++
      (first.processes.filter fun process => ¬Shows second process.pid process.path).map
        fun process => .stopped process.pid process.path) ++
    (((networkMap second).entries.filter fun flow =>
        ((networkMap first).lookup flow.1).isNone).map (fun flow => .connected flow.1 flow.2) ++
      ((networkMap first).entries.filter fun flow =>
        ((networkMap second).lookup flow.1).isNone).map fun flow => .closed flow.1 flow.2)

/-- A process id that is in both snapshots has the same path in both. -/
def KeepsPaths (first second : SystemSnapshot) : Prop :=
  ∀ process ∈ first.processes, ∀ process' ∈ second.processes, process.pid = process'.pid →
    process.path = process'.path

section pair

variable {first second : PolledSnapshot} {input : PollInput} {pid : UInt32} {path : String}

/-- With distinct process ids the map holds the processes of the snapshot. -/
theorem lookup_processMap (snapshot : PolledSnapshot) :
    (processMap snapshot.toSystemSnapshot).lookup pid = some path ↔
      Shows snapshot.toSystemSnapshot pid path := by
  rw [processMap, Table.lookup_collect_of_nodup]
  · simp [Shows]
  · rw [List.map_map]
    exact snapshot.distinct

theorem lookup_processMap_eq_none (snapshot : PolledSnapshot) :
    (processMap snapshot.toSystemSnapshot).lookup pid = none ↔
      ∀ process ∈ snapshot.processes, process.pid ≠ pid := by
  constructor
  · intro hnone process hmem hpid
    have hsome := (lookup_processMap snapshot).mpr ⟨process, hmem, hpid, rfl⟩
    rw [hnone] at hsome
    cases hsome
  · intro hother
    refine Option.eq_none_iff_forall_ne_some.mpr fun path hsome => ?_
    obtain ⟨process, hmem, hpid, -⟩ := (lookup_processMap snapshot).mp hsome
    exact hother process hmem hpid

/-- With distinct process ids, what changed under each id is what is in one snapshot only. -/
theorem differences_perm_pairDifferences :
    (differences first.toSystemSnapshot second.toSystemSnapshot).Perm
      (pairDifferences first.toSystemSnapshot second.toSystemSnapshot) := by
  unfold differences pairDifferences
  refine List.Perm.append_right _ (List.Perm.append ?_ ?_)
  · refine List.Perm.of_eq (congrArg _ (List.filter_congr fun process _ => ?_))
    rw [Bool.eq_iff_iff, bne_iff_ne, decide_eq_true_iff, Ne, lookup_processMap]
  · let entry (process : ProcessRecord) : Sigma fun _ : UInt32 => String :=
      ⟨process.pid, process.path⟩
    have hfirst : (first.processes.map entry).Perm (processMap first.toSystemSnapshot).entries := by
      refine (List.perm_ext_iff_of_nodup ?_ ?_).mpr ?_
      · refine List.Nodup.of_map Sigma.fst ?_
        rw [List.map_map]
        exact first.distinct
      · exact (processMap first.toSystemSnapshot).nodupKeys.nodup
      · rintro ⟨pid, path⟩
        rw [Table.mem_entries_iff, lookup_processMap]
        simp [Shows, entry]
    have hmap : (first.processes.filter fun process =>
          ¬Shows second.toSystemSnapshot process.pid process.path).map
            (fun process => Transition.stopped process.pid process.path) =
        ((first.processes.map entry).filter fun process =>
          ¬Shows second.toSystemSnapshot process.1 process.2).map
            fun process => Transition.stopped process.1 process.2 := by
      rw [List.filter_map, List.map_map]
      rfl
    rw [hmap]
    refine ((hfirst.symm.filter _).trans (List.Perm.of_eq ?_)).map _
    refine List.filter_congr fun process _ => ?_
    rw [Bool.eq_iff_iff, bne_iff_ne, decide_eq_true_iff, Ne, lookup_processMap]

/-- **The rows between two snapshots** are exact if and only if no process id changed its path. -/
theorem exactPair_iff :
    (snapshotTransitions false input (.of first.toSystemSnapshot) second.toSystemSnapshot).Perm
        (pairDifferences first.toSystemSnapshot second.toSystemSnapshot) ↔
      KeepsPaths first.toSystemSnapshot second.toSystemSnapshot := by
  have hperm : ∀ l : List Transition,
      l.Perm (pairDifferences first.toSystemSnapshot second.toSystemSnapshot) ↔
        l.Perm (differences first.toSystemSnapshot second.toSystemSnapshot) := fun l =>
    ⟨fun h => h.trans differences_perm_pairDifferences.symm,
      fun h => h.trans differences_perm_pairDifferences⟩
  rw [hperm, perm_differences_iff rfl]
  constructor
  · intro h process hmem process' hmem' hpid
    refine h.kept process.pid _ _ ((lookup_processMap first).mpr ⟨process, hmem, rfl, rfl⟩) ?_
    exact (lookup_processMap second).mpr ⟨process', hmem', hpid.symm, rfl⟩
  · intro h
    refine ⟨fun _ _ => .rfl, fun _ _ => rfl, ?_, fun _ _ _ => .rfl, fun _ _ => rfl⟩
    intro pid path path' hfirst hsecond
    obtain ⟨process, hmem, rfl, rfl⟩ := (lookup_processMap first).mp hfirst
    obtain ⟨process', hmem', hpid, rfl⟩ := (lookup_processMap second).mp hsecond
    exact h process hmem process' hmem' hpid.symm

end pair

/-! ## The requests of one user -/

/-- A request of the user. -/
structure OwnPoll where
  input : PollInput
  snapshot : PolledSnapshot

/-- The request, with the user. -/
def OwnPoll.poll (ownerSid : String) (own : OwnPoll) : Poll :=
  ⟨ownerSid, own.input, own.snapshot.toSystemSnapshot⟩

/-- The events that the requests record. -/
def runEvents : Served → List OwnPoll → List TimelineEvent
  | _, [] => []
  | served, own :: rest =>
      transitionEvents own.input own.snapshot.capturedAt
          (snapshotTransitions false own.input served own.snapshot.toSystemSnapshot) ++
        runEvents (.of own.snapshot.toSystemSnapshot) rest

/-- The starts and stops of a process id, in the order of the events. -/
def lifecycleActions (pid : UInt32) (events : List TimelineEvent) : List String :=
  (events.filter fun event => event.category == "process" && event.processId == some pid).map
    (·.action)

/-- The transitions of a request tell exactly what changed since the request before. -/
def ExactPair (first second : OwnPoll) : Prop :=
  (snapshotTransitions false second.input (.of first.snapshot.toSystemSnapshot)
      second.snapshot.toSystemSnapshot).Perm
    (pairDifferences first.snapshot.toSystemSnapshot second.snapshot.toSystemSnapshot)

/-- The lifecycle of all processes and flows is told exactly. -/
structure LifecycleExact (requests : List OwnPoll) : Prop where
  pairs : requests.IsChain ExactPair
  alternates : ∀ pid, (lifecycleActions pid (runEvents .initial requests)).IsChain (· ≠ ·)

/-- The start or stop of a process id. -/
def Transition.lifecycleOf (pid : UInt32) : Transition → Option String
  | started process => if process.pid = pid then some "started" else none
  | stopped pid' _ => if pid' = pid then some "stopped" else none
  | connected _ _ | closed _ _ => none

section run

variable {served : Served} {requests : List OwnPoll} {first second : PolledSnapshot}
  {input : PollInput} {pid : UInt32} {capturedAt : String}

/-- The rows after the requests are the recorded events, in order. -/
theorem rows_ownPolls (ownerSid : String) (rows : RowTable TimelineRow) (requests : List OwnPoll)
    (served : Served) :
    ((requests.map (OwnPoll.poll ownerSid)).foldl pollStep (served, rows)).2 =
      insertTimelines ownerSid (runEvents served requests) rows := by
  induction requests generalizing served rows with
  | nil => rfl
  | cons own rest ih =>
      have hrows := recordSnapshotTransitions_rows false own.input ownerSid
        own.snapshot.toSystemSnapshot (served, rows)
      rw [List.map_cons, List.foldl_cons, runEvents, insertTimelines, List.foldl_append]
      rw [insertTimelines] at hrows
      rw [← hrows]
      exact ih _ _

/-- An element with a key in a list of distinct keys. -/
theorem filterMap_key {α β κ : Type*} [DecidableEq κ] (f : α → κ) (k : κ) (c : β) {l : List α}
    (hnodup : (l.map f).Nodup) :
    l.filterMap (fun x => if f x = k then some c else none) =
      if k ∈ l.map f then [c] else [] := by
  induction l with
  | nil => rfl
  | cons x l ih =>
      rw [List.map_cons, List.nodup_cons] at hnodup
      rw [List.filterMap_cons]
      by_cases hx : f x = k
      · have hrest : k ∉ l.map f := hx ▸ hnodup.1
        rw [if_pos hx, ih hnodup.2, if_neg hrest, if_pos (by simp [hx])]
      · have hiff : k ∈ (x :: l).map f ↔ k ∈ l.map f := by
          rw [List.map_cons, List.mem_cons]
          exact or_iff_right (Ne.symm hx)
        rw [if_neg hx, ih hnodup.2]
        simp only [hiff]

theorem lifecycleActions_append (events rest : List TimelineEvent) :
    lifecycleActions pid (events ++ rest) =
      lifecycleActions pid events ++ lifecycleActions pid rest := by
  rw [lifecycleActions, List.filter_append, List.map_append]
  rfl

theorem lifecycleActions_transitionEvents (transitions : List Transition) :
    lifecycleActions pid (transitionEvents input capturedAt transitions) =
      transitions.filterMap (Transition.lifecycleOf pid) := by
  unfold transitionEvents
  induction transitions using List.reverseRecOn with
  | nil => rfl
  | append_singleton transitions transition ih =>
      rw [List.mapIdx_concat, lifecycleActions_append, ih, List.filterMap_append]
      refine congrArg _ ?_
      cases transition with
      | started process =>
          by_cases hpid : process.pid = pid <;>
            simp [lifecycleActions, Transition.event, Transition.lifecycleOf, hpid]
      | stopped pid' path =>
          by_cases hpid : pid' = pid <;>
            simp [lifecycleActions, Transition.event, Transition.lifecycleOf, hpid]
      | connected key endpoint => simp [lifecycleActions, Transition.event, Transition.lifecycleOf]
      | closed key endpoint => simp [lifecycleActions, Transition.event, Transition.lifecycleOf]

/-- A process has the id. -/
def HasPid (snapshot : PolledSnapshot) (pid : UInt32) : Prop :=
  ∃ process ∈ snapshot.processes, process.pid = pid

instance (snapshot : PolledSnapshot) (pid : UInt32) : Decidable (HasPid snapshot pid) :=
  inferInstanceAs (Decidable (∃ process ∈ snapshot.processes, _))

/-- What is recorded about a process id between two snapshots in which it keeps its path. -/
theorem lifecycle_pair (hkeeps : KeepsPaths first.toSystemSnapshot second.toSystemSnapshot) :
    (snapshotTransitions false input (.of first.toSystemSnapshot)
        second.toSystemSnapshot).filterMap (Transition.lifecycleOf pid) =
      if HasPid first pid then (if HasPid second pid then [] else ["stopped"])
      else (if HasPid second pid then ["started"] else []) := by
  have hnetwork : (networkTransitions input (.of first.toSystemSnapshot)
      second.toSystemSnapshot).filterMap (Transition.lifecycleOf pid) = [] := by
    refine List.filterMap_eq_nil_iff.mpr fun transition hmem => ?_
    cases transition with
    | connected | closed => rfl
    | started | stopped => exact absurd rfl (not_isProcess_of_mem hmem)
  have hstarted : pid ∈ (second.processes.filter fun process =>
      (processMap first.toSystemSnapshot).lookup process.pid != some process.path).map (·.pid) ↔
        HasPid second pid ∧ ¬HasPid first pid := by
    simp only [List.mem_map, List.mem_filter, bne_iff_ne, Ne, lookup_processMap]
    constructor
    · rintro ⟨process, ⟨hmem, hnew⟩, rfl⟩
      refine ⟨⟨process, hmem, rfl⟩, fun ⟨old, hold, hpid⟩ => hnew ⟨old, hold, hpid, ?_⟩⟩
      exact hkeeps old hold process hmem hpid
    · rintro ⟨⟨process, hmem, rfl⟩, hnone⟩
      exact ⟨process, ⟨hmem, fun ⟨old, hold, hpid, _⟩ => hnone ⟨old, hold, hpid⟩⟩, rfl⟩
  have hstopped : pid ∈ ((input.stoppedOrder.entries (processMap first.toSystemSnapshot)).filter
      fun process => ((processMap second.toSystemSnapshot).lookup process.1).isNone).map Sigma.fst ↔
        HasPid first pid ∧ ¬HasPid second pid := by
    simp only [List.mem_map, List.mem_filter, Option.isNone_iff_eq_none, IterOrder.mem_entries,
      lookup_processMap_eq_none]
    constructor
    · rintro ⟨⟨_, path⟩, ⟨hmem, hnone⟩, rfl⟩
      obtain ⟨old, hold, hpid, -⟩ := (lookup_processMap first).mp (Table.mem_entries_iff.mp hmem)
      exact ⟨⟨old, hold, hpid⟩, fun ⟨process, hprocess, hsame⟩ => hnone process hprocess hsame⟩
    · rintro ⟨⟨old, hold, rfl⟩, hnone⟩
      have hlookup := (lookup_processMap first).mpr ⟨old, hold, rfl, rfl⟩
      exact ⟨_, ⟨Table.mem_entries_iff.mpr hlookup, fun process hprocess hsame =>
        hnone ⟨process, hprocess, hsame⟩⟩, rfl⟩
  have hprocess : (processTransitions input (.of first.toSystemSnapshot)
      second.toSystemSnapshot).filterMap (Transition.lifecycleOf pid) =
        (if HasPid second pid ∧ ¬HasPid first pid then ["started"] else []) ++
          if HasPid first pid ∧ ¬HasPid second pid then ["stopped"] else [] := by
    rw [processTransitions, List.filterMap_append, List.filterMap_map, List.filterMap_map]
    refine congrArg₂ _ ?_ ?_
    · simp only [← hstarted]
      refine filterMap_key (fun process : ProcessRecord => process.pid) pid "started" ?_
      exact second.distinct.sublist (List.filter_sublist.map _)
    · simp only [← hstopped]
      refine filterMap_key (fun process : Sigma fun _ : UInt32 => String => process.1) pid
        "stopped" ?_
      refine List.Nodup.sublist (List.filter_sublist.map _) ?_
      exact ((input.stoppedOrder.perm _).map _).nodup_iff.mpr (AList.keys_nodup _)
  rw [snapshotTransitions_of_baselined rfl, List.filterMap_append, hnetwork, hprocess]
  by_cases hfirst : HasPid first pid <;> by_cases hsecond : HasPid second pid <;>
    simp [hfirst, hsecond]

/-- From one snapshot on, a process id that is there stops first, one that is not starts first, and
then the two alternate. -/
theorem alternates_from (own : OwnPoll)
    (hkeeps : (own :: requests).IsChain fun first second =>
      KeepsPaths first.snapshot.toSystemSnapshot second.snapshot.toSystemSnapshot) :
    let actions := lifecycleActions pid (runEvents (.of own.snapshot.toSystemSnapshot) requests)
    actions.IsChain (· ≠ ·) ∧
      ∀ action ∈ actions.head?,
        action = if HasPid own.snapshot pid then "stopped" else "started" := by
  induction requests generalizing own with
  | nil => exact ⟨.nil, by simp [lifecycleActions, runEvents]⟩
  | cons next rest ih =>
      obtain ⟨hnext, hrest⟩ := List.isChain_cons_cons.mp hkeeps
      obtain ⟨hchain, hhead⟩ := ih next hrest
      simp only [runEvents, lifecycleActions_append, lifecycleActions_transitionEvents,
        lifecycle_pair hnext]
      by_cases hown : HasPid own.snapshot pid <;> by_cases hafter : HasPid next.snapshot pid
      · simp only [hown, hafter, if_true, List.nil_append] at hhead ⊢
        exact ⟨hchain, hhead⟩
      · simp only [hown, hafter, if_true, if_false, List.singleton_append] at hhead ⊢
        refine ⟨List.isChain_cons.mpr ⟨fun action haction => ?_, hchain⟩, by simp⟩
        rw [hhead action haction]
        decide
      · simp only [hown, hafter, if_true, if_false, List.singleton_append] at hhead ⊢
        refine ⟨List.isChain_cons.mpr ⟨fun action haction => ?_, hchain⟩, by simp⟩
        rw [hhead action haction]
        decide
      · simp only [hown, hafter, if_false, List.nil_append] at hhead ⊢
        exact ⟨hchain, hhead⟩

end run

/-- **The polled lifecycle** of one user's requests: the rows are the recorded events, and these
tell every change exactly, with starts and stops that alternate, if and only if no process id has
another path in the next snapshot. -/
theorem lifecycle_iff (ownerSid : String) (rows : RowTable TimelineRow) (requests : List OwnPoll) :
    (polled rows (requests.map (OwnPoll.poll ownerSid))).2 =
        insertTimelines ownerSid (runEvents .initial requests) rows ∧
      (LifecycleExact requests ↔ requests.IsChain fun first second =>
        KeepsPaths first.snapshot.toSystemSnapshot second.snapshot.toSystemSnapshot) := by
  refine ⟨rows_ownPolls ownerSid rows requests .initial, ?_⟩
  have hpairs : requests.IsChain ExactPair ↔ requests.IsChain fun first second =>
      KeepsPaths first.snapshot.toSystemSnapshot second.snapshot.toSystemSnapshot :=
    ⟨fun h => h.imp fun _ _ => exactPair_iff.mp, fun h => h.imp fun _ _ => exactPair_iff.mpr⟩
  refine ⟨fun h => hpairs.mp h.pairs, fun hkeeps => ⟨hpairs.mpr hkeeps, fun pid => ?_⟩⟩
  cases requests with
  | nil => exact .nil
  | cons own rest =>
      have hstart : runEvents .initial (own :: rest) =
          runEvents (.of own.snapshot.toSystemSnapshot) rest := rfl
      rw [hstart]
      exact (alternates_from own hkeeps).1

/-- A request whose snapshot shows one process, always with the same id. -/
def reusedPoll (path : String) : OwnPoll :=
  ⟨default, { processSnapshot [(7, path)] with distinct := List.nodup_singleton _ }⟩

/-- A process id that is given to another program twice between requests: two starts without a
stop. -/
theorem reused_pid_starts_twice :
    let requests := [reusedPoll "C:\\a.exe", reusedPoll "C:\\b.exe", reusedPoll "C:\\c.exe"]
    lifecycleActions 7 (runEvents .initial requests) = ["started", "started"] ∧
      ¬LifecycleExact requests := by
  intro requests
  have hactions : lifecycleActions 7 (runEvents .initial requests) = ["started", "started"] := rfl
  refine ⟨hactions, fun hexact => ?_⟩
  have halternates := hexact.alternates 7
  rw [hactions] at halternates
  exact (List.isChain_cons_cons.mp halternates).1 rfl

end OpenGuard.Service
