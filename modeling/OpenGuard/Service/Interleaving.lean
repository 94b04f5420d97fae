import OpenGuard.Service.Transitions
import Mathlib.Data.List.Perm.Basic
import Mathlib.Data.List.Perm.Lattice

/-!
# Snapshots of several users

The service keeps one snapshot to compare with, whoever it was served to, and writes what it finds
for the user who asks. So what a user gets are the differences to the snapshot served last, which
are those to the user's own last snapshot only as far as the two look alike.

* `differences`: what changed between two snapshots.
* `perm_differences_iff`: when the comparison with another snapshot finds the same.
* `ownTransitions_iff`: when a user sees exactly the own transitions.
-/

namespace OpenGuard.Service

open OpenGuard.Lib OpenGuard.Domain OpenGuard.Storage

/-- What changed between two snapshots: under each process id the path that is shown, and the flows
by their keys. -/
def differences (previous current : SystemSnapshot) : List Transition :=
  ((current.processes.filter fun process =>
        (processMap previous).lookup process.pid != some process.path).map .started ++
      ((processMap previous).entries.filter fun process =>
        (processMap current).lookup process.1 != some process.2).map fun process =>
          .stopped process.1 process.2) ++
    (((networkMap current).entries.filter fun flow =>
        ((networkMap previous).lookup flow.1).isNone).map (fun flow => .connected flow.1 flow.2) ++
      ((networkMap previous).entries.filter fun flow =>
        ((networkMap current).lookup flow.1).isNone).map fun flow => .closed flow.1 flow.2)

/-- The snapshot served last tells of the current one what `previous` tells: the same processes and
flows came back, the same ones are gone, and no process id has another path now. -/
structure LooksAlike (served : Served) (previous current : SystemSnapshot) : Prop where
  returned : ∀ process ∈ current.processes,
    (served.activeProcesses.lookup process.pid = some process.path ↔
      (processMap previous).lookup process.pid = some process.path)
  gone : ∀ pid, (processMap current).lookup pid = none →
    served.activeProcesses.lookup pid = (processMap previous).lookup pid
  kept : ∀ pid path path', (processMap previous).lookup pid = some path →
    (processMap current).lookup pid = some path' → path = path'
  open_ : ∀ key endpoint, (networkMap current).lookup key = some endpoint →
    (served.activeNetwork.lookup key = none ↔ (networkMap previous).lookup key = none)
  closed : ∀ key, (networkMap current).lookup key = none →
    served.activeNetwork.lookup key = (networkMap previous).lookup key

section differences

variable {input : PollInput} {served : Served} {previous current : SystemSnapshot}
  {process : ProcessRecord} {pid : UInt32} {path key : String} {endpoint : NetworkEndpoint}

theorem started_mem_differences : .started process ∈ differences previous current ↔
    process ∈ current.processes ∧
      (processMap previous).lookup process.pid ≠ some process.path := by
  simp [differences]

theorem stopped_mem_differences : .stopped pid path ∈ differences previous current ↔
    (processMap previous).lookup pid = some path ∧
      (processMap current).lookup pid ≠ some path := by
  simp [differences, Table.mem_entries_iff]

theorem connected_mem_differences : .connected key endpoint ∈ differences previous current ↔
    (networkMap current).lookup key = some endpoint ∧ (networkMap previous).lookup key = none := by
  simp [differences, Table.mem_entries_iff]

theorem closed_mem_differences : .closed key endpoint ∈ differences previous current ↔
    (networkMap previous).lookup key = some endpoint ∧ (networkMap current).lookup key = none := by
  simp [differences, Table.mem_entries_iff]

/-- Two selections of the entries of two tables that select the same are the same up to order. -/
theorem perm_filter_entries {κ ν : Type*} [DecidableEq κ] {t u : Table κ ν}
    {p q : (Sigma fun _ : κ => ν) → Bool}
    (h : ∀ k v, t.lookup k = some v ∧ p ⟨k, v⟩ ↔ u.lookup k = some v ∧ q ⟨k, v⟩) :
    (t.entries.filter p).Perm (u.entries.filter q) := by
  have hnodup : ∀ t : Table κ ν, t.entries.Nodup := fun t => t.nodupKeys.nodup
  refine (List.perm_ext_iff_of_nodup ((hnodup t).filter p) ((hnodup u).filter q)).mpr ?_
  rintro ⟨k, v⟩
  rw [List.mem_filter, List.mem_filter, Table.mem_entries_iff, Table.mem_entries_iff]
  exact h k v

/-- **What the comparison with the snapshot served last finds** is what changed since another
snapshot, exactly when the two look alike to the current one. -/
theorem perm_differences_iff (hbaselined : served.snapshotBaselined) :
    (snapshotTransitions false input served current).Perm (differences previous current) ↔
      LooksAlike served previous current := by
  rw [snapshotTransitions_of_baselined hbaselined]
  constructor
  · intro h
    have hprocess : ∀ {t : Transition}, t.isProcess →
        (t ∈ processTransitions input served current ↔ t ∈ differences previous current) := by
      intro t ht
      rw [← h.mem_iff, List.mem_append]
      exact (or_iff_left fun hmem => not_isProcess_of_mem hmem ht).symm
    have hnetwork : ∀ {t : Transition}, ¬t.isProcess →
        (t ∈ networkTransitions input served current ↔ t ∈ differences previous current) := by
      intro t ht
      rw [← h.mem_iff, List.mem_append]
      exact (or_iff_right fun hmem => ht (isProcess_of_mem hmem)).symm
    have hstarted := fun process => hprocess (t := .started process) rfl
    have hstopped := fun pid path => hprocess (t := .stopped pid path) rfl
    have hconnected := fun key endpoint =>
      hnetwork (t := .connected key endpoint) Bool.false_ne_true
    have hclosed := fun key endpoint => hnetwork (t := .closed key endpoint) Bool.false_ne_true
    simp only [started_mem, started_mem_differences] at hstarted
    simp only [stopped_mem, stopped_mem_differences] at hstopped
    simp only [connected_mem, connected_mem_differences] at hconnected
    simp only [closed_mem, closed_mem_differences] at hclosed
    constructor
    · intro process hmem
      simpa [hmem, not_iff_not] using hstarted process
    · intro pid hnone
      ext path
      simpa [hnone] using hstopped pid path
    · intro pid path path' hprevious hcurrent
      by_contra hne
      have hgone := (hstopped pid path).mpr
        ⟨hprevious, fun hsame => hne (Option.some_inj.mp (hsame.symm.trans hcurrent))⟩
      rw [hcurrent] at hgone
      cases hgone.2
    · intro key endpoint hcurrent
      simpa [hcurrent] using hconnected key endpoint
    · intro key hnone
      ext endpoint
      simpa [hnone] using hclosed key endpoint
  · intro h
    unfold differences processTransitions networkTransitions
    refine List.Perm.append (List.Perm.append ?_ ?_) (List.Perm.append ?_ ?_)
    · refine (List.Perm.of_eq (List.filter_congr fun process hmem => ?_)).map _
      rw [Bool.eq_iff_iff, bne_iff_ne, bne_iff_ne]
      exact not_congr (h.returned process hmem)
    · refine (((input.stoppedOrder.perm _).filter _).trans (perm_filter_entries ?_)).map _
      intro pid path
      simp only [Option.isNone_iff_eq_none, bne_iff_ne]
      constructor
      · rintro ⟨hserved, hnone⟩
        rw [h.gone pid hnone] at hserved
        exact ⟨hserved, by simp [hnone]⟩
      · rintro ⟨hprevious, hchanged⟩
        cases hcurrent : (processMap current).lookup pid with
        | none => exact ⟨h.gone pid hcurrent ▸ hprevious, rfl⟩
        | some path' =>
            rw [hcurrent, h.kept pid path path' hprevious hcurrent] at hchanged
            exact absurd rfl hchanged
    · refine (((input.connectedOrder.perm _).filter _).trans (perm_filter_entries ?_)).map _
      intro key endpoint
      refine and_congr_right fun hcurrent => ?_
      rw [Option.isNone_iff_eq_none, Option.isNone_iff_eq_none]
      exact h.open_ key endpoint hcurrent
    · refine (((input.closedOrder.perm _).filter _).trans (perm_filter_entries ?_)).map _
      intro key endpoint
      rw [Option.isNone_iff_eq_none, and_congr_left_iff]
      intro hnone
      rw [h.closed key hnone]

end differences

/-- The current snapshot shows nothing that the snapshot served last did not show, and nothing of
that is gone. -/
structure NothingNew (served : Served) (current : SystemSnapshot) : Prop where
  returned : ∀ process ∈ current.processes,
    served.activeProcesses.lookup process.pid = some process.path
  gone : ∀ pid, (processMap current).lookup pid = none → served.activeProcesses.lookup pid = none
  open_ : ∀ key endpoint, (networkMap current).lookup key = some endpoint →
    served.activeNetwork.lookup key ≠ none
  closed : ∀ key, (networkMap current).lookup key = none → served.activeNetwork.lookup key = none

/-- The comparison finds nothing exactly when there is nothing new. -/
theorem snapshotTransitions_eq_nil_iff {input : PollInput} {served : Served}
    {current : SystemSnapshot} (hbaselined : served.snapshotBaselined) :
    snapshotTransitions false input served current = [] ↔ NothingNew served current := by
  rw [snapshotTransitions_of_baselined hbaselined, List.append_eq_nil_iff]
  constructor
  · rintro ⟨hprocess, hnetwork⟩
    have hnone : ∀ t, t ∉ processTransitions input served current := by simp [hprocess]
    have hnone' : ∀ t, t ∉ networkTransitions input served current := by simp [hnetwork]
    constructor
    · intro process hmem
      by_contra hchanged
      exact hnone _ (started_mem.mpr ⟨hmem, hchanged⟩)
    · intro pid hcurrent
      refine Option.eq_none_iff_forall_ne_some.mpr fun path hpath => ?_
      exact hnone _ (stopped_mem.mpr ⟨hpath, hcurrent⟩)
    · intro key endpoint hcurrent hserved
      exact hnone' _ (connected_mem.mpr ⟨hcurrent, hserved⟩)
    · intro key hcurrent
      refine Option.eq_none_iff_forall_ne_some.mpr fun endpoint hendpoint => ?_
      exact hnone' _ (closed_mem.mpr ⟨hendpoint, hcurrent⟩)
  · intro h
    constructor <;> refine List.eq_nil_iff_forall_not_mem.mpr fun transition hmem => ?_
    · cases transition with
      | started process =>
          obtain ⟨hcurrent, hchanged⟩ := started_mem.mp hmem
          exact hchanged (h.returned process hcurrent)
      | stopped pid path =>
          obtain ⟨hserved, hcurrent⟩ := stopped_mem.mp hmem
          rw [h.gone pid hcurrent] at hserved
          cases hserved
      | connected | closed => exact Bool.false_ne_true (isProcess_of_mem hmem)
    · cases transition with
      | connected key endpoint =>
          obtain ⟨hcurrent, hserved⟩ := connected_mem.mp hmem
          exact h.open_ key endpoint hcurrent hserved
      | closed key endpoint =>
          obtain ⟨hserved, hcurrent⟩ := closed_mem.mp hmem
          rw [h.closed key hcurrent] at hserved
          cases hserved
      | started | stopped => exact not_isProcess_of_mem hmem rfl

/-! ## Requests of several users -/

/-- A request for a snapshot. -/
structure Poll where
  ownerSid : String
  input : PollInput
  snapshot : SystemSnapshot

/-- A request, while the database works and no process events are traced. -/
def pollStep (state : Served × RowTable TimelineRow) (poll : Poll) :
    Served × RowTable TimelineRow :=
  recordSnapshotTransitions (fun _ => none) false poll.input poll.ownerSid poll.snapshot state

/-- The state after the requests to a service that was started. -/
def polled (rows : RowTable TimelineRow) (requests : List Poll) : Served × RowTable TimelineRow :=
  requests.foldl pollStep (.initial, rows)

/-- The last snapshot of the owner. -/
def ownPrevious (requests : List Poll) (ownerSid : String) : Option SystemSnapshot :=
  (requests.filter fun poll => poll.ownerSid == ownerSid).getLast?.map (·.snapshot)

/-- The transitions between the last snapshot of the owner and the one that is served now. -/
def ownDifferences (requests : List Poll) (poll : Poll) : List Transition :=
  match ownPrevious requests poll.ownerSid with
  | none => []
  | some previous => differences previous poll.snapshot

/-- The snapshot served last, to whichever user, looks like the last one of the owner; before the
first request of the owner, either nothing was served or nothing is new. -/
def SeesOwn (served : Served) (requests : List Poll) (poll : Poll) : Prop :=
  match ownPrevious requests poll.ownerSid with
  | none => served.snapshotBaselined → NothingNew served poll.snapshot
  | some previous => LooksAlike served previous poll.snapshot

/-- The service keeps the snapshot served last. -/
theorem served_polled (rows : RowTable TimelineRow) (requests : List Poll) :
    (polled rows requests).1 =
      (requests.getLast?.map fun poll => .of poll.snapshot).getD .initial := by
  induction requests using List.reverseRecOn with
  | nil => rfl
  | append_singleton requests poll ih =>
      rw [polled, List.foldl_concat, List.getLast?_concat]
      rfl

/-- **A user gets the own transitions**, for every order of the requests of all users: the rows of
a request are its transitions, and these are the differences between the own snapshots exactly when
the snapshot served last looks like the own last one. -/
theorem ownTransitions_iff (rows : RowTable TimelineRow) (requests : List Poll) (poll : Poll) :
    let state := polled rows requests
    let recorded := snapshotTransitions false poll.input state.1 poll.snapshot
    (polled rows (requests ++ [poll])).2 =
        insertTimelines poll.ownerSid
          (transitionEvents poll.input poll.snapshot.capturedAt recorded) state.2 ∧
      (recorded.Perm (ownDifferences requests poll) ↔ SeesOwn state.1 requests poll) := by
  intro state recorded
  constructor
  · rw [polled, List.foldl_concat]
    exact recordSnapshotTransitions_rows false poll.input poll.ownerSid poll.snapshot state
  · unfold ownDifferences SeesOwn
    cases hprevious : ownPrevious requests poll.ownerSid with
    | none =>
        dsimp only
        rw [List.perm_nil]
        by_cases hbaselined : state.1.snapshotBaselined
        · rw [snapshotTransitions_eq_nil_iff hbaselined, forall_prop_of_true hbaselined]
        · refine iff_of_true ?_ fun h => absurd h hbaselined
          simp [recorded, snapshotTransitions, hbaselined]
    | some previous =>
        refine perm_differences_iff ?_
        obtain ⟨own, hown, -⟩ := Option.map_eq_some_iff.mp hprevious
        have hmem : own ∈ requests := List.mem_of_mem_filter (List.mem_of_getLast? hown)
        show (polled rows requests).1.snapshotBaselined
        rw [served_polled, List.getLast?_eq_some_getLast (List.ne_nil_of_mem hmem)]
        rfl

/-- Without requests of others in between, the snapshot served last is the own one, so a user gets
the own transitions as long as no process id has another path. -/
theorem seesOwn_of_last {rows : RowTable TimelineRow} {requests : List Poll} {own poll : Poll}
    (howner : own.ownerSid = poll.ownerSid)
    (hkept : ∀ pid path path', (processMap own.snapshot).lookup pid = some path →
      (processMap poll.snapshot).lookup pid = some path' → path = path') :
    SeesOwn (polled rows (requests ++ [own])).1 (requests ++ [own]) poll := by
  have hprevious : ownPrevious (requests ++ [own]) poll.ownerSid = some own.snapshot := by
    rw [ownPrevious, List.filter_append, List.filter_cons_of_pos (by simpa using howner),
      List.filter_nil, List.getLast?_concat, Option.map_some]
  rw [SeesOwn, hprevious, served_polled, List.getLast?_concat]
  exact ⟨fun _ _ => .rfl, fun _ _ => rfl, hkept, fun _ _ _ => .rfl, fun _ _ => rfl⟩

/-- A snapshot with some processes and no flows. -/
def processSnapshot (processes : List (UInt32 × String)) : SystemSnapshot :=
  { (default : SystemSnapshot) with
    processes := processes.map fun process =>
      { (default : ProcessRecord) with pid := process.1, path := process.2 } }

/-- A request for such a snapshot. -/
def processPoll (ownerSid : String) (processes : List (UInt32 × String)) : Poll :=
  ⟨ownerSid, default, processSnapshot processes⟩

/-- A process starts, and another user asks first: the user who asks then is not told. -/
theorem transition_told_to_another :
    let requests := [processPoll "S-1-5-21-1" [], processPoll "S-1-5-21-2" [(7, "C:\\a.exe")]]
    let poll := processPoll "S-1-5-21-1" [(7, "C:\\a.exe")]
    snapshotTransitions false poll.input (polled .empty requests).1 poll.snapshot = [] ∧
      ¬(snapshotTransitions false poll.input (polled .empty requests).1 poll.snapshot).Perm
        (ownDifferences requests poll) := by
  intro requests poll
  have hnone : snapshotTransitions false poll.input (polled .empty requests).1 poll.snapshot = [] :=
    rfl
  have hdifferences : (ownDifferences requests poll).length = 1 := rfl
  refine ⟨hnone, fun hperm => ?_⟩
  rw [← hperm.length_eq, hnone] at hdifferences
  cases hdifferences

end OpenGuard.Service
