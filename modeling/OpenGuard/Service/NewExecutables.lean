import OpenGuard.Lib.Window
import OpenGuard.Service.Correlation

/-!
# New executables and their analysis

The protection loop marks an executable as known when it first meets it, and queues it for an
analysis. The queue holds 256 processes, and eight of them are analyzed in a cycle.

* `protectionCycle`: what a cycle does to the queue.
* `QueueInv`: every new executable is analyzed, in the queue, or was forgotten, and is so once;
  `queueInv_run`.
* `new_executables_iff`: none is forgotten just when the queue never has to hold more than 256.
* `burst_escapes`: 257 new executables in one snapshot.
-/

namespace OpenGuard.Service

open OpenGuard.Lib OpenGuard.Domain

/-! ## The loop -/

/-- A snapshot of the collector, which marks no process as new. -/
structure CollectedSnapshot extends SystemSnapshot where
  notNew : ∀ process ∈ processes, process.isNew = false

/-- The bounds of the loop.
Source: `main.rs`, `run_protection_loop`, `MAXIMUM_REALTIME_SCANS_PER_CYCLE` -/
def maximumPending : ℕ := 256

def maximumRealtimeScansPerCycle : ℕ := 8

/-- What the loop keeps of the snapshots and in its queue. Besides, the processes that were passed
to the analysis, and those that left the queue without it. -/
structure ProtectionState where
  observed : ObservationState
  pending : List ProcessRecord
  analyzed : List ProcessRecord
  forgotten : List ProcessRecord

/-- Source: `main.rs`, `run_protection_loop` -/
def ProtectionState.initial : ProtectionState := ⟨.initial, [], [], []⟩

/-- The processes of a snapshot that are new.
Source: `main.rs`, `run_protection_loop` -/
def newProcesses (observed : ObservationState) (snapshot : SystemSnapshot) : List ProcessRecord :=
  (applyBehaviorCorrelations (markSnapshot observed snapshot)).1.processes.filter (·.isNew)

/-- The queue before it is cut. -/
def extendedQueue (state : ProtectionState) (snapshot : SystemSnapshot) : List ProcessRecord :=
  state.pending ++ newProcesses state.observed snapshot

/-- A cycle, whose snapshot may fail. The oldest processes leave a queue that is too long, and then
the oldest of the others are analyzed.
Source: `main.rs`, `run_protection_loop` -/
def protectionCycle (state : ProtectionState) : Option CollectedSnapshot → ProtectionState
  | none => state
  | some snapshot =>
      let extended := extendedQueue state snapshot.toSystemSnapshot
      let excess := extended.length - maximumPending
      let queue := extended.drop excess
      { observed :=
          ⟨(markFirstObservations state.observed.baselined state.observed.knownIdentities
            snapshot.processes).2, true⟩
        pending := queue.drop maximumRealtimeScansPerCycle
        analyzed := state.analyzed ++ queue.take maximumRealtimeScansPerCycle
        forgotten := state.forgotten ++ extended.take excess }

/-- The state after some cycles. -/
def afterCycles (cycles : List (Option CollectedSnapshot)) : ProtectionState :=
  cycles.foldl protectionCycle .initial

/-! ## The new executables -/

/-- The identities of some processes. -/
def identities (processes : List ProcessRecord) : List String :=
  processes.map ProcessRecord.identity

/-- The identity appears in the snapshot. -/
def Appears (identity : String) (snapshot : CollectedSnapshot) : Prop :=
  identity ∈ identities snapshot.processes

/-- The snapshots that did not fail. -/
def snapshots (cycles : List (Option CollectedSnapshot)) : List CollectedSnapshot :=
  cycles.filterMap id

/-- The executable was first met after the first snapshot that did not fail. -/
def AppearsNew (identity : String) (cycles : List (Option CollectedSnapshot)) : Prop :=
  ∃ first later, snapshots cycles = first :: later ∧ identity ≠ "" ∧
    ¬Appears identity first ∧ ∃ snapshot ∈ later, Appears identity snapshot

section marking

variable {baselined : Bool} {known : Finset String} {processes : List ProcessRecord}
  {identity : String}

theorem mem_markFirstObservations : identity ∈ (markFirstObservations baselined known processes).2 ↔
    identity ∈ known ∨ identity ≠ "" ∧ identity ∈ identities processes := by
  induction processes generalizing known with
  | nil =>
      rw [markFirstObservations, identities, List.map_nil]
      simp
  | cons process rest ih =>
      unfold markFirstObservations
      rw [identities, List.map_cons, List.mem_cons]
      split_ifs with hempty
      · rw [ih, hempty]
        constructor
        · rintro (hknown | ⟨hsome, hrest⟩)
          · exact .inl hknown
          · exact .inr ⟨hsome, .inr hrest⟩
        · rintro (hknown | ⟨hsome, hfirst | hrest⟩)
          · exact .inl hknown
          · exact absurd hfirst hsome
          · exact .inr ⟨hsome, hrest⟩
      · rw [ih, Finset.mem_insert]
        constructor
        · rintro ((hfirst | hknown) | ⟨hsome, hrest⟩)
          · exact .inr ⟨by rwa [hfirst], .inl hfirst⟩
          · exact .inl hknown
          · exact .inr ⟨hsome, .inr hrest⟩
        · rintro (hknown | ⟨hsome, hfirst | hrest⟩)
          · exact .inl (.inr hknown)
          · exact .inl (.inl hfirst)
          · exact .inr ⟨hsome, hrest⟩

/-- The processes that are marked: the first ones with an identity that was not known. -/
theorem marked_spec (b : Bool) (known : Finset String)
    (hnotNew : ∀ process ∈ processes, process.isNew = false) :
    (identities ((markFirstObservations b known processes).1.filter (·.isNew))).Nodup ∧
      ∀ identity,
        identity ∈ identities ((markFirstObservations b known processes).1.filter (·.isNew)) ↔
        b = true ∧ identity ≠ "" ∧ identity ∉ known ∧ identity ∈ identities processes := by
  induction processes generalizing known with
  | nil => exact ⟨List.nodup_nil, fun identity => by simp [markFirstObservations, identities]⟩
  | cons process rest ih =>
      have hlater := fun known => ih known fun other hother =>
        hnotNew other (List.mem_cons_of_mem _ hother)
      unfold markFirstObservations
      split_ifs with hempty
      · -- a process without an identity is not marked
        rw [List.filter_cons_of_neg (by rw [hnotNew process List.mem_cons_self]; decide)]
        obtain ⟨hnodup, hmem⟩ := hlater known
        refine ⟨hnodup, fun identity => (hmem identity).trans ?_⟩
        rw [identities, identities, List.map_cons, List.mem_cons, hempty]
        refine and_congr_right fun _ => and_congr_right fun hsome => and_congr_right fun _ => ?_
        exact (or_iff_right hsome).symm
      obtain ⟨hnodup, hmem⟩ := hlater (insert process.identity known)
      by_cases hmarked : b = true ∧ process.identity ∉ known
      · obtain ⟨hbaselined, hunknown⟩ := hmarked
        rw [List.filter_cons_of_pos (by simp [hbaselined, hunknown])]
        refine ⟨List.nodup_cons.mpr ⟨fun hagain => ?_, hnodup⟩, fun identity => ?_⟩
        · exact ((hmem _).mp hagain).2.2.1 (Finset.mem_insert_self _ _)
        · rw [identities, List.map_cons, List.mem_cons, identities, List.map_cons, List.mem_cons]
          constructor
          · rintro (rfl | hagain)
            · exact ⟨hbaselined, hempty, hunknown, .inl rfl⟩
            · obtain ⟨-, hsome, hnot, hin⟩ := (hmem identity).mp hagain
              exact ⟨hbaselined, hsome, fun hin => hnot (Finset.mem_insert_of_mem hin), .inr hin⟩
          · rintro ⟨-, hsome, hnot, hfirst | hin⟩
            · exact .inl hfirst
            · by_cases hfirst : identity = process.identity
              · exact .inl hfirst
              · refine .inr ((hmem identity).mpr ⟨hbaselined, hsome, fun hagain => ?_, hin⟩)
                exact (Finset.mem_insert.mp hagain).elim hfirst hnot
      · rw [List.filter_cons_of_neg (by simpa using hmarked)]
        refine ⟨hnodup, fun identity => (hmem identity).trans ?_⟩
        refine and_congr_right fun hbaselined => and_congr_right fun _ => ?_
        have hknown : process.identity ∈ known := by
          by_contra hunknown
          exact hmarked ⟨hbaselined, hunknown⟩
        rw [Finset.insert_eq_of_mem hknown, identities, identities, List.map_cons, List.mem_cons]
        refine and_congr_right fun hnot => (or_iff_right fun hfirst => hnot ?_).symm
        rwa [hfirst]

end marking

/-- The correlation keeps the identities and the marks. -/
theorem identities_newProcesses (observed : ObservationState) (snapshot : SystemSnapshot) :
    identities (newProcesses observed snapshot) =
      identities ((markFirstObservations observed.baselined observed.knownIdentities
        snapshot.processes).1.filter (·.isNew)) := by
  unfold newProcesses identities applyBehaviorCorrelations markSnapshot
  rw [List.filter_map, List.map_map]
  rfl

/-! ## The queue -/

/-- The new executables are analyzed, in the queue or forgotten, each once, and the loop knows all
executables that it has met. -/
structure QueueInv (cycles : List (Option CollectedSnapshot)) (state : ProtectionState) :
    Prop where
  baselined : state.observed.baselined = true ↔ snapshots cycles ≠ []
  known : ∀ identity, identity ∈ state.observed.knownIdentities ↔
    identity ≠ "" ∧ ∃ snapshot ∈ snapshots cycles, Appears identity snapshot
  once : (identities (state.analyzed ++ state.forgotten ++ state.pending)).Nodup
  complete : ∀ identity,
    identity ∈ identities (state.analyzed ++ state.forgotten ++ state.pending) ↔
      AppearsNew identity cycles

section queue

variable {cycles : List (Option CollectedSnapshot)} {state : ProtectionState}
  {snapshot : CollectedSnapshot}

theorem snapshots_concat_some : snapshots (cycles ++ [some snapshot]) =
    snapshots cycles ++ [snapshot] := List.filterMap_append

theorem snapshots_concat_none : snapshots (cycles ++ [none]) = snapshots cycles :=
  List.filterMap_append.trans (List.append_nil _)

/-- The executables that one more snapshot shows for the first time. -/
theorem appearsNew_concat {identity : String} :
    AppearsNew identity (cycles ++ [some snapshot]) ↔
      AppearsNew identity cycles ∨
        snapshots cycles ≠ [] ∧ identity ≠ "" ∧
          (∀ earlier ∈ snapshots cycles, ¬Appears identity earlier) ∧
          Appears identity snapshot := by
  unfold AppearsNew
  rw [snapshots_concat_some]
  cases snapshots cycles with
  | nil =>
      constructor
      · rintro ⟨first, later, hsplit, -, -, other, hother, -⟩
        obtain ⟨-, rfl⟩ := List.cons.inj hsplit
        cases hother
      · rintro (⟨first, later, hsplit, -⟩ | ⟨hsome, -⟩)
        · cases hsplit
        · exact absurd rfl hsome
  | cons first later =>
      constructor
      · rintro ⟨_, _, hsplit, hsome, hfirst, other, hother, hin⟩
        obtain ⟨rfl, rfl⟩ := List.cons.inj hsplit
        by_cases hearlier : ∃ earlier ∈ later, Appears identity earlier
        · exact .inl ⟨first, later, rfl, hsome, hfirst, hearlier⟩
        · refine .inr ⟨List.cons_ne_nil _ _, hsome, fun earlier hmem happears => ?_, ?_⟩
          · rcases List.mem_cons.mp hmem with rfl | hmem
            · exact hfirst happears
            · exact hearlier ⟨earlier, hmem, happears⟩
          · rcases List.mem_append.mp hother with hother | hother
            · exact absurd ⟨other, hother, hin⟩ hearlier
            · rwa [← List.mem_singleton.mp hother]
      · rintro (⟨_, _, hsplit, hsome, hfirst, other, hother, hin⟩ | ⟨-, hsome, hnot, hin⟩)
        · obtain ⟨rfl, rfl⟩ := List.cons.inj hsplit
          exact ⟨first, later ++ [snapshot], rfl, hsome, hfirst, other,
            List.mem_append_left _ hother, hin⟩
        · exact ⟨first, later ++ [snapshot], rfl, hsome, hnot first List.mem_cons_self, snapshot,
            List.mem_append_right _ List.mem_cons_self, hin⟩

/-- What a cycle does to all that was ever queued: the new executables of the snapshot are added. -/
theorem all_protectionCycle : (identities ((protectionCycle state (some snapshot)).analyzed ++
      (protectionCycle state (some snapshot)).forgotten ++
      (protectionCycle state (some snapshot)).pending)).Perm
    (identities (state.analyzed ++ state.forgotten ++ state.pending) ++
      identities (newProcesses state.observed snapshot.toSystemSnapshot)) := by
  unfold identities
  rw [← List.map_append]
  refine List.Perm.map _ (List.perm_iff_count.mpr fun process => ?_)
  have hextended : (extendedQueue state snapshot.toSystemSnapshot).count process =
      state.pending.count process +
        (newProcesses state.observed snapshot.toSystemSnapshot).count process :=
    List.count_append
  have hsplit : ∀ n (queue : List ProcessRecord),
      (queue.take n).count process + (queue.drop n).count process = queue.count process := by
    intro n queue
    rw [← List.count_append, List.take_append_drop]
  have hexcess := hsplit ((extendedQueue state snapshot.toSystemSnapshot).length - maximumPending)
    (extendedQueue state snapshot.toSystemSnapshot)
  have hscanned := hsplit maximumRealtimeScansPerCycle
    ((extendedQueue state snapshot.toSystemSnapshot).drop
      ((extendedQueue state snapshot.toSystemSnapshot).length - maximumPending))
  simp only [protectionCycle, List.count_append]
  omega

theorem QueueInv.known_of_queued (h : QueueInv cycles state) {identity : String}
    (hqueued : identity ∈ identities (state.analyzed ++ state.forgotten ++ state.pending)) :
    identity ∈ state.observed.knownIdentities := by
  obtain ⟨first, later, hsplit, hsome, -, snapshot, hsnapshot, hin⟩ :=
    (h.complete identity).mp hqueued
  refine (h.known identity).mpr ⟨hsome, snapshot, ?_, hin⟩
  rw [hsplit]
  exact List.mem_cons_of_mem _ hsnapshot

/-- **What a cycle preserves.** -/
theorem queueInv_step (h : QueueInv cycles state) (cycle : Option CollectedSnapshot) :
    QueueInv (cycles ++ [cycle]) (protectionCycle state cycle) := by
  cases cycle with
  | none =>
      refine ⟨?_, fun identity => ?_, h.once, fun identity => (h.complete identity).trans ?_⟩
      · rw [snapshots_concat_none]
        exact h.baselined
      · rw [snapshots_concat_none]
        exact h.known identity
      · unfold AppearsNew
        rw [snapshots_concat_none]
  | some snapshot =>
      obtain ⟨hnodup, hmem⟩ := marked_spec state.observed.baselined
        state.observed.knownIdentities snapshot.notNew
      rw [← identities_newProcesses] at hnodup hmem
      refine ⟨?_, fun identity => ?_, ?_, fun identity => ?_⟩
      · rw [snapshots_concat_some]
        exact iff_of_true rfl (List.append_ne_nil_of_right_ne_nil _ (List.cons_ne_nil _ _))
      · rw [snapshots_concat_some]
        refine mem_markFirstObservations.trans ?_
        rw [h.known]
        constructor
        · rintro (⟨hsome, earlier, hmem, happears⟩ | ⟨hsome, happears⟩)
          · exact ⟨hsome, earlier, List.mem_append_left _ hmem, happears⟩
          · exact ⟨hsome, snapshot, List.mem_append_right _ List.mem_cons_self, happears⟩
        · rintro ⟨hsome, other, hmem, happears⟩
          rcases List.mem_append.mp hmem with hmem | hmem
          · exact .inl ⟨hsome, other, hmem, happears⟩
          · rw [List.mem_singleton.mp hmem] at happears
            exact .inr ⟨hsome, happears⟩
      · refine all_protectionCycle.nodup_iff.mpr (List.nodup_append.mpr ⟨h.once, hnodup, ?_⟩)
        intro identity hqueued other hnew hsame
        rw [← hsame] at hnew
        exact ((hmem identity).mp hnew).2.2.1 (h.known_of_queued hqueued)
      · rw [all_protectionCycle.mem_iff, List.mem_append, h.complete, hmem, appearsNew_concat,
          h.baselined, h.known]
        refine or_congr_right (and_congr_right fun _ => and_congr_right fun hsome => ?_)
        refine and_congr_left fun _ => ⟨fun hunknown earlier hmem happears => ?_, ?_⟩
        · exact hunknown ⟨hsome, earlier, hmem, happears⟩
        · rintro hnot ⟨-, earlier, hmem, happears⟩
          exact hnot earlier hmem happears

/-- **Every new executable** is analyzed, queued or forgotten, after any cycles. -/
theorem queueInv_afterCycles (cycles : List (Option CollectedSnapshot)) :
    QueueInv cycles (afterCycles cycles) := by
  induction cycles using List.reverseRecOn with
  | nil =>
      refine ⟨?_, ?_, List.nodup_nil, fun identity => iff_of_false List.not_mem_nil ?_⟩
      · simp [afterCycles, snapshots, ProtectionState.initial, ObservationState.initial]
      · simp [afterCycles, snapshots, ProtectionState.initial, ObservationState.initial]
      · simp [AppearsNew, snapshots]
  | append_singleton cycles cycle ih =>
      unfold afterCycles
      rw [List.foldl_append]
      exact queueInv_step ih cycle

end queue

/-! ## What escapes -/

/-- Each new executable was passed to the analysis or is in the queue, and none was passed twice. -/
def NoneEscapes (cycles : List (Option CollectedSnapshot)) (state : ProtectionState) : Prop :=
  (∀ identity, AppearsNew identity cycles →
    identity ∈ identities (state.analyzed ++ state.pending)) ∧
  (identities state.analyzed).Nodup

/-- With the new processes of each snapshot, the queue holds no more than 256. -/
def Fits (cycles : List (Option CollectedSnapshot)) : Prop :=
  ∀ past snapshot rest, cycles = past ++ some snapshot :: rest →
    (extendedQueue (afterCycles past) snapshot.toSystemSnapshot).length ≤ maximumPending

section escapes

variable {cycles : List (Option CollectedSnapshot)} {snapshot : CollectedSnapshot}

theorem afterCycles_concat (cycles : List (Option CollectedSnapshot))
    (cycle : Option CollectedSnapshot) :
    afterCycles (cycles ++ [cycle]) = protectionCycle (afterCycles cycles) cycle :=
  List.foldl_append

/-- A cycle forgets nothing if the queue fits. -/
theorem forgotten_of_fits {state : ProtectionState} (hforgotten : state.forgotten = [])
    (hfits : (extendedQueue state snapshot.toSystemSnapshot).length ≤ maximumPending) :
    (protectionCycle state (some snapshot)).forgotten = [] := by
  simp only [protectionCycle, hforgotten, Nat.sub_eq_zero_of_le hfits, List.take_zero,
    List.append_nil]

theorem forgotten_afterCycles (hfits : Fits cycles) : (afterCycles cycles).forgotten = [] := by
  induction cycles using List.reverseRecOn with
  | nil => rfl
  | append_singleton cycles cycle ih =>
      have hpast : Fits cycles := by
        intro past snapshot rest hsplit
        refine hfits past snapshot (rest ++ [cycle]) ?_
        rw [hsplit, List.append_assoc, List.cons_append]
      rw [afterCycles_concat]
      cases cycle with
      | none => exact ih hpast
      | some snapshot => exact forgotten_of_fits (ih hpast) (hfits cycles snapshot [] rfl)

theorem noneEscapes_of_forgotten (hforgotten : (afterCycles cycles).forgotten = []) :
    NoneEscapes cycles (afterCycles cycles) := by
  have hinv := queueInv_afterCycles cycles
  have honce := hinv.once
  have hcomplete := hinv.complete
  rw [hforgotten, List.append_nil] at honce hcomplete
  refine ⟨fun identity hnew => (hcomplete identity).mpr hnew, ?_⟩
  unfold identities at honce
  rw [List.map_append] at honce
  exact honce.of_append_left

/-- A process that is cut from the queue has an executable that escapes. -/
theorem escapes_of_overflow
    (hoverflow :
      maximumPending < (extendedQueue (afterCycles cycles) snapshot.toSystemSnapshot).length) :
    ¬NoneEscapes (cycles ++ [some snapshot]) (afterCycles (cycles ++ [some snapshot])) := by
  rintro ⟨hkept, -⟩
  have hinv := queueInv_afterCycles (cycles ++ [some snapshot])
  obtain ⟨process, hcut⟩ : ∃ process,
      process ∈ (afterCycles (cycles ++ [some snapshot])).forgotten := by
    rw [afterCycles_concat]
    refine List.exists_mem_of_length_pos ?_
    simp only [protectionCycle, List.length_append, List.length_take]
    omega
  have hforgotten : process.identity ∈
      identities (afterCycles (cycles ++ [some snapshot])).forgotten :=
    List.mem_map_of_mem hcut
  have hnew : AppearsNew process.identity (cycles ++ [some snapshot]) := by
    apply (hinv.complete _).mp
    unfold identities
    rw [List.map_append, List.map_append]
    exact List.mem_append_left _ (List.mem_append_right _ hforgotten)
  -- it would be queued twice
  have honce := hinv.once
  have hqueued := hkept _ hnew
  unfold identities at honce hqueued hforgotten
  rw [List.map_append, List.map_append, List.nodup_append] at honce
  rw [List.map_append] at hqueued
  rcases List.mem_append.mp hqueued with hanalyzed | hpending
  · exact (List.nodup_append.mp honce.1).2.2 _ hanalyzed _ hforgotten rfl
  · exact honce.2.2 _ (List.mem_append_right _ hforgotten) _ hpending rfl

/-- **New executables and the queue.** In all states of a run every new executable was analyzed,
once, or is in the queue, just when the queue never has to hold more than 256 processes. -/
theorem new_executables_iff (cycles : List (Option CollectedSnapshot)) :
    (∀ past rest, cycles = past ++ rest → NoneEscapes past (afterCycles past)) ↔ Fits cycles := by
  constructor
  · intro hnone past snapshot rest hsplit
    by_contra hlong
    refine escapes_of_overflow (Nat.lt_of_not_le hlong) (hnone (past ++ [some snapshot]) rest ?_)
    rw [hsplit, List.append_assoc, List.singleton_append]
  · intro hfits past rest hsplit
    have hpast : Fits past := by
      intro earlier snapshot later hearlier
      refine hfits earlier snapshot (later ++ rest) ?_
      rw [hsplit, hearlier, List.append_assoc, List.cons_append]
    exact noneEscapes_of_forgotten (forgotten_afterCycles hpast)

end escapes

/-! ## A burst -/

/-- A process for each number, with a longer identity each. -/
def burstProcess (number : ℕ) : ProcessRecord :=
  { (default : ProcessRecord) with
    identity := String.ofList (List.replicate (number + 1) 'a')
    isNew := false }

/-- As many processes, for the first time. -/
def burst (size : ℕ) : CollectedSnapshot :=
  { processes := (List.range size).map burstProcess
    endpoints := []
    capturedAt := ""
    coverage := []
    notNew := by
      intro process hprocess
      obtain ⟨number, -, rfl⟩ := List.mem_map.mp hprocess
      rfl }

theorem identities_burst (size : ℕ) : identities (burst size).processes =
    (List.range size).map fun number => String.ofList (List.replicate (number + 1) 'a') := by
  unfold identities burst
  rw [List.map_map]
  rfl

theorem nodup_identities_burst (size : ℕ) : (identities (burst size).processes).Nodup := by
  rw [identities_burst]
  refine List.Nodup.map (fun one other hsame => ?_) List.nodup_range
  have hlength := congrArg (fun text => text.toList.length) hsame
  simpa using hlength

/-- All of a burst are new after a snapshot without processes. -/
theorem length_extendedQueue_burst (size : ℕ) :
    (extendedQueue (afterCycles [some (burst 0)]) (burst size).toSystemSnapshot).length = size := by
  have hinv := queueInv_afterCycles [some (burst 0)]
  have hnone : ∀ identity, identity ∉ (afterCycles [some (burst 0)]).observed.knownIdentities := by
    intro identity hknown
    obtain ⟨-, snapshot, hmem, happears⟩ := (hinv.known identity).mp hknown
    rw [List.mem_singleton.mp hmem] at happears
    exact List.not_mem_nil happears
  obtain ⟨hnodup, hmem⟩ := marked_spec (afterCycles [some (burst 0)]).observed.baselined
    (afterCycles [some (burst 0)]).observed.knownIdentities (burst size).notNew
  rw [← identities_newProcesses] at hnodup hmem
  have hperm : (identities (newProcesses (afterCycles [some (burst 0)]).observed
      (burst size).toSystemSnapshot)).Perm (identities (burst size).processes) := by
    refine (List.perm_ext_iff_of_nodup hnodup (nodup_identities_burst size)).mpr fun identity => ?_
    refine (hmem identity).trans ⟨fun h => h.2.2.2, fun hin => ?_⟩
    refine ⟨rfl, ?_, hnone identity, hin⟩
    rw [identities_burst] at hin
    obtain ⟨number, -, rfl⟩ := List.mem_map.mp hin
    simp
  have hlength := hperm.length_eq
  rw [identities_burst, List.length_map, List.length_range] at hlength
  unfold identities at hlength
  rw [List.length_map] at hlength
  exact hlength

/-- **A burst of 257 new executables** after the first snapshot: one is known to the loop, and it is
neither analyzed nor in the queue. -/
theorem burst_escapes : ¬NoneEscapes ([some (burst 0)] ++ [some (burst 257)])
    (afterCycles ([some (burst 0)] ++ [some (burst 257)])) := by
  apply escapes_of_overflow
  rw [length_extendedQueue_burst]
  decide

end OpenGuard.Service
