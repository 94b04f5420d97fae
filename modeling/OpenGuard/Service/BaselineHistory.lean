import OpenGuard.Lib.Run
import OpenGuard.Service.Baseline
import OpenGuard.Storage.Database

/-!
# New executables over the life of the service

The rows of an owner in `seen_executables` are the identities of all snapshots that were taken for
the owner. A running service decides from a cached set instead, and the cache of a service that was
restarted is filled from the first snapshot after the restart, not from the rows.

* `flagged_markAgainstCache`, `flagged_of_cached`, `flagged_of_rows`: what each of the two branches
  flags.
* `Tracks`: the rows and the cached sets after a run are what the snapshots of the run contained;
  `tracks_run`.
* `followsHistory_iff`: a snapshot is flagged after the history of the owner exactly when what it
  contains again was also seen since the last restart.
-/

namespace OpenGuard.Service

open OpenGuard.Lib OpenGuard.Domain OpenGuard.Storage

/-! ## Snapshots and restarts -/

/-- What changes the baselines of a service. -/
inductive BaselineAction where
  /-- A snapshot is collected for an owner. -/
  | snapshot (ownerSid : String) (now : Clock) (snapshot : SystemSnapshot)
  /-- The service starts again on the same database. -/
  | restart

/-- The state of a service that starts for the first time. -/
def BaselineState.created : BaselineState :=
  ⟨Database.created.metadata, Database.created.seenExecutables, ∅⟩

/-- A database that answers. -/
def BaselineFaults.never : BaselineFaults := ⟨none, none, none, none⟩

/-- The state without the cached baselines, which a restart loses. -/
def BaselineState.restarted (state : BaselineState) : BaselineState :=
  { state with executableBaselines := ∅ }

/-- A step in which the calls of the database succeed.
Source: `main.rs`, `ServiceState::apply_executable_baseline` -/
def baselineStep (state : BaselineState) : BaselineAction → Option BaselineState
  | .snapshot ownerSid now snapshot =>
      match applyExecutableBaseline .never now ownerSid state snapshot with
      | (next, _, .ok _) => some next
      | (_, _, .error _) => none
  | .restart => some state.restarted

/-- A process of the snapshot has the identity. -/
def Contains (snapshot : SystemSnapshot) (identity : String) : Prop :=
  ∃ process ∈ snapshot.processes, process.identity = identity

namespace BaselineAction

/-- The action is a snapshot for the owner. -/
def IsOf (ownerSid : String) : BaselineAction → Prop
  | .snapshot owner _ _ => owner = ownerSid
  | .restart => False

/-- The action is a snapshot for the owner that contains the identity. -/
def Shows (ownerSid identity : String) : BaselineAction → Prop
  | .snapshot owner _ taken => owner = ownerSid ∧ Contains taken identity
  | .restart => False

theorem Shows.isOf {action : BaselineAction} {ownerSid identity : String}
    (h : action.Shows ownerSid identity) : action.IsOf ownerSid := by
  cases action with
  | snapshot owner now taken => exact h.1
  | restart => exact h

/-- The action is not a restart. -/
def isSnapshot : BaselineAction → Bool
  | .snapshot _ _ _ => true
  | .restart => false

end BaselineAction

/-- The actions since the last restart. -/
def sinceRestart (actions : List BaselineAction) : List BaselineAction :=
  actions.rtakeWhile BaselineAction.isSnapshot

/-- A snapshot was taken for the owner. -/
def Requested (actions : List BaselineAction) (ownerSid : String) : Prop :=
  ∃ action ∈ actions, action.IsOf ownerSid

/-- A snapshot for the owner contained the identity. -/
def Seen (actions : List BaselineAction) (ownerSid identity : String) : Prop :=
  ∃ action ∈ actions, action.Shows ownerSid identity

/-! ## What is flagged -/

/-- A process with the identity is flagged as new. -/
def Flagged (processes : List ProcessRecord) (identity : String) : Prop :=
  ∃ process ∈ processes, process.identity = identity ∧ process.isNew

/-- The processes of a snapshot after the flags are set. -/
def markedProcesses (now : Clock) (ownerSid : String) (state : BaselineState)
    (snapshot : SystemSnapshot) : List ProcessRecord :=
  (applyExecutableBaseline .never now ownerSid state snapshot).2.1.processes

section flagged

variable {now : Clock} {persistAll : Bool} {identities : Finset String} {identity ownerSid : String}
  {processes : List ProcessRecord} {state : BaselineState} {snapshot : SystemSnapshot}

/-- The loop over a cached set flags the first process of each identity that is not in the set. -/
theorem flagged_markAgainstCache :
    Flagged (markAgainstCache now persistAll identities processes).1 identity ↔
      identity ≠ "" ∧ (∃ process ∈ processes, process.identity = identity) ∧
        identity ∉ identities := by
  induction processes generalizing identities with
  | nil => simp [Flagged, markAgainstCache]
  | cons process rest ih =>
      unfold Flagged at ih ⊢
      simp only [markAgainstCache, List.mem_cons, exists_eq_or_imp, ih]
      by_cases hempty : process.identity = ""
      · simp only [hempty, bne_self_eq_false, Bool.false_and, Bool.false_eq_true, and_false,
          false_or, if_true]
        constructor
        · rintro ⟨hne, hrest, hnew⟩
          exact ⟨hne, Or.inr hrest, hnew⟩
        · rintro ⟨hne, hfirst | hrest, hnew⟩
          · exact absurd hfirst.symm hne
          · exact ⟨hne, hrest, hnew⟩
      · simp only [hempty, if_false, Finset.mem_insert, bne_iff_ne, ne_eq, not_false_eq_true,
          Bool.and_eq_true, decide_eq_true_eq, true_and]
        constructor
        · rintro (⟨rfl, hnew⟩ | ⟨hne, hrest, hnew⟩)
          · exact ⟨hempty, Or.inl rfl, hnew⟩
          · exact ⟨hne, Or.inr hrest, fun hmem => hnew (Or.inr hmem)⟩
        · rintro ⟨hne, hshown, hnew⟩
          by_cases hsame : process.identity = identity
          · exact Or.inl ⟨hsame, hsame ▸ hnew⟩
          · refine Or.inr ⟨hne, hshown.resolve_left hsame, ?_⟩
            rintro (heq | hmem)
            · exact hsame heq.symm
            · exact hnew hmem

/-- The loop adds the identities of all processes to the set. -/
theorem mem_identities_markAgainstCache (hne : identity ≠ "") :
    identity ∈ (markAgainstCache now persistAll identities processes).2.1 ↔
      identity ∈ identities ∨ ∃ process ∈ processes, process.identity = identity := by
  induction processes generalizing identities with
  | nil => simp [markAgainstCache]
  | cons process rest ih =>
      simp only [markAgainstCache, ih, List.mem_cons, exists_eq_or_imp]
      by_cases hempty : process.identity = ""
      · have hother : process.identity ≠ identity := fun heq => hne (heq ▸ hempty)
        simp [hempty, Ne.symm hne]
      · rw [if_neg hempty, Finset.mem_insert, eq_comm, or_comm (a := process.identity = identity),
          or_assoc]

/-- What is collected after one more process. -/
theorem mem_ite_cons {α : Type*} {c : Prop} [Decidable c] {x y : α} {l : List α} :
    x ∈ (if c then y :: l else l) ↔ c ∧ x = y ∨ x ∈ l := by
  split_ifs with h <;> simp [h]

/-- What is flagged is collected for the database. -/
theorem changed_of_flagged
    (h : Flagged (markAgainstCache now persistAll identities processes).1 identity) :
    ∃ changed ∈ (markAgainstCache now persistAll identities processes).2.2,
      changed.identity = identity := by
  induction processes generalizing identities with
  | nil => simp [Flagged, markAgainstCache] at h
  | cons process rest ih =>
      obtain ⟨marked, hmem, hidentity, hnew⟩ := h
      simp only [markAgainstCache, mem_ite_cons] at hmem ⊢
      rcases List.mem_cons.mp hmem with rfl | hmem
      · refine ⟨_, Or.inl ⟨?_, rfl⟩, hidentity⟩
        rw [Bool.or_eq_true]
        exact Or.inl hnew
      · obtain ⟨changed, hchanged, hsame⟩ := ih ⟨marked, hmem, hidentity, hnew⟩
        exact ⟨changed, Or.inr hchanged, hsame⟩

/-- What is collected for the database is in the snapshot. -/
theorem shown_of_changed {changed : SeenExecutable}
    (h : changed ∈ (markAgainstCache now persistAll identities processes).2.2) :
    ∃ process ∈ processes, process.identity = changed.identity := by
  induction processes generalizing identities with
  | nil => simp [markAgainstCache] at h
  | cons process rest ih =>
      simp only [markAgainstCache, mem_ite_cons] at h
      rcases h with ⟨-, rfl⟩ | h
      · exact ⟨process, List.mem_cons_self, rfl⟩
      · obtain ⟨shown, hshown, hsame⟩ := ih h
        exact ⟨shown, List.mem_cons_of_mem _ hshown, hsame⟩

/-- The key of the metadata that tells whether the owner has a baseline. -/
def baselineKey (ownerSid : String) : String := "baseline_initialized:" ++ ownerSid

/-- What a cached baseline flags: the identities outside the cached set. -/
theorem flagged_of_cached {baseline : ExecutableBaseline}
    (h : state.executableBaselines.lookup ownerSid = some baseline) :
    Flagged (markedProcesses now ownerSid state snapshot) identity ↔
      identity ≠ "" ∧ Contains snapshot identity ∧ identity ∉ baseline.identities := by
  have hmarked : markedProcesses now ownerSid state snapshot =
      (markAgainstCache now (decide (persistInterval ≤ now.instant - baseline.lastPersisted))
        baseline.identities snapshot.processes).1 := by
    unfold markedProcesses applyExecutableBaseline
    rw [h]
    dsimp only
    split_ifs
    · rfl
    · split <;> rfl
  rw [hmarked, flagged_markAgainstCache]
  rfl

/-- The identities that the database knows. -/
theorem mem_known (ownerSid : String) (ids : List String) (rows : SeenExecutables) :
    ∃ known, knownExecutableIdentities none ownerSid ids rows = .ok known ∧
      ∀ identity, identity ∈ known ↔
        identity ∈ ids ∧ identity ≠ "" ∧ (rows.lookup (ownerSid, identity)).isSome := by
  simp only [knownExecutableIdentities, call_none]
  split_ifs with hnone
  · refine ⟨[], rfl, fun identity => ?_⟩
    have hmem : identity ∉ (ids.filter (· != "")).dedup := hnone ▸ List.not_mem_nil
    simp only [List.mem_dedup, List.mem_filter, bne_iff_ne] at hmem
    simp only [List.not_mem_nil, false_iff]
    tauto
  · refine ⟨_, rfl, fun identity => ?_⟩
    simp only [List.mem_filter, List.mem_dedup, bne_iff_ne, and_assoc]

/-- What the database flags without a cached baseline: the identities without a row. -/
theorem flagged_of_rows (h : state.executableBaselines.lookup ownerSid = none)
    (hinitialized : state.metadata.lookup (baselineKey ownerSid) = some "1") :
    Flagged (markedProcesses now ownerSid state snapshot) identity ↔
      identity ≠ "" ∧ Contains snapshot identity ∧
        state.seenExecutables.lookup (ownerSid, identity) = none := by
  obtain ⟨known, hknown, hmem⟩ :=
    mem_known ownerSid (snapshot.processes.map (·.identity)) state.seenExecutables
  have hmarked : markedProcesses now ownerSid state snapshot =
      snapshot.processes.map fun process =>
        { process with
          isNew := process.identity != "" && !known.contains process.identity } := by
    unfold markedProcesses applyExecutableBaseline
    rw [h]
    simp only [BaselineFaults.never, getMetadata, call_none]
    unfold baselineKey at hinitialized
    simp only [hinitialized, hknown, beq_self_eq_true, Bool.true_and]
    split <;> rfl
  rw [hmarked]
  simp only [Flagged, List.mem_map, exists_exists_and_eq_and, Bool.and_eq_true, bne_iff_ne,
    Bool.not_eq_true', List.contains_eq_mem, decide_eq_false_iff_not, hmem, Contains]
  constructor
  · rintro ⟨process, hprocess, rfl, hne, hnew⟩
    refine ⟨hne, ⟨process, hprocess, rfl⟩, ?_⟩
    by_contra hrow
    exact hnew ⟨⟨process, hprocess, rfl⟩, hne, Option.isSome_iff_ne_none.mpr hrow⟩
  · rintro ⟨hne, ⟨process, hprocess, rfl⟩, hrow⟩
    refine ⟨process, hprocess, rfl, hne, ?_⟩
    simp [hrow]

end flagged

/-! ## What the rows and the cache hold -/

/-- The rows are the identities of all snapshots, and a cached set those of the snapshots since the
last restart. -/
structure Tracks (actions : List BaselineAction) (state : BaselineState) : Prop where
  rows : ∀ ownerSid identity, identity ≠ "" →
    ((state.seenExecutables.lookup (ownerSid, identity)).isSome ↔ Seen actions ownerSid identity)
  initialized : ∀ ownerSid, state.metadata.lookup (baselineKey ownerSid) = some "1" ↔
    Requested actions ownerSid
  cached : ∀ ownerSid, (state.executableBaselines.lookup ownerSid).isSome ↔
    Requested (sinceRestart actions) ownerSid
  identities : ∀ ownerSid baseline, state.executableBaselines.lookup ownerSid = some baseline →
    ∀ identity, identity ≠ "" →
      (identity ∈ baseline.identities ↔ Seen (sinceRestart actions) ownerSid identity)

section history

variable {actions : List BaselineAction} {ownerSid other identity : String} {now : Clock}
  {taken : SystemSnapshot} {action : BaselineAction}

theorem seen_concat : Seen (actions ++ [action]) ownerSid identity ↔
    Seen actions ownerSid identity ∨ action.Shows ownerSid identity := by
  simp [Seen, or_and_right, exists_or]

theorem requested_concat : Requested (actions ++ [action]) ownerSid ↔
    Requested actions ownerSid ∨ action.IsOf ownerSid := by
  simp [Requested, or_and_right, exists_or]

@[simp] theorem sinceRestart_restart : sinceRestart (actions ++ [.restart]) = [] :=
  List.rtakeWhile_concat_neg _ _ _ (by simp [BaselineAction.isSnapshot])

@[simp] theorem sinceRestart_snapshot :
    sinceRestart (actions ++ [.snapshot other now taken]) =
      sinceRestart actions ++ [.snapshot other now taken] :=
  List.rtakeWhile_concat_pos _ _ _ rfl

theorem Seen.of_sinceRestart (h : Seen (sinceRestart actions) ownerSid identity) :
    Seen actions ownerSid identity := by
  obtain ⟨action, hmem, hshows⟩ := h
  exact ⟨action, (List.rtakeWhile_suffix _ _).subset hmem, hshows⟩

theorem Requested.of_sinceRestart (h : Requested (sinceRestart actions) ownerSid) :
    Requested actions ownerSid := by
  obtain ⟨action, hmem, hof⟩ := h
  exact ⟨action, (List.rtakeWhile_suffix _ _).subset hmem, hof⟩

end history

section step

variable {actions : List BaselineAction} {ownerSid other identity : String} {now : Clock}
  {taken : SystemSnapshot} {state next : BaselineState} {baseline : ExecutableBaseline}

/-- What a snapshot leaves when the baseline of the owner is cached. -/
theorem baselineStep_cached (hcached : state.executableBaselines.lookup ownerSid = some baseline)
    (h : baselineStep state (.snapshot ownerSid now taken) = some next) :
    let marked := markAgainstCache now
      (decide (persistInterval ≤ now.instant - baseline.lastPersisted)) baseline.identities
      taken.processes
    next.metadata = state.metadata ∧
      (∃ lastPersisted, next.executableBaselines =
        state.executableBaselines.insert ownerSid ⟨marked.2.1, lastPersisted⟩) ∧
      ∀ other identity, (next.seenExecutables.lookup (other, identity)).isSome ↔
        (state.seenExecutables.lookup (other, identity)).isSome ∨
          other = ownerSid ∧ identity ≠ "" ∧
            ∃ changed ∈ marked.2.2, changed.identity = identity := by
  intro marked
  simp only [baselineStep, applyExecutableBaseline, hcached] at h
  by_cases hnone : marked.2.2 = []
  · rw [if_pos hnone] at h
    rw [← Option.some.inj h, hnone]
    exact ⟨rfl, ⟨_, rfl⟩, by simp⟩
  · rw [if_neg hnone] at h
    rcases hrecord : recordExecutables BaselineFaults.never.recordExecutables ownerSid marked.2.2
        state.seenExecutables with ⟨error | _, rows⟩
    · rw [hrecord] at h
      cases h
    · rw [hrecord] at h
      rw [← Option.some.inj h]
      exact ⟨rfl, ⟨_, rfl⟩, fun other identity => isSome_recordExecutables hrecord⟩

/-- What a snapshot leaves when the owner has no cached baseline. -/
theorem baselineStep_uncached (hcached : state.executableBaselines.lookup ownerSid = none)
    (h : baselineStep state (.snapshot ownerSid now taken) = some next) :
    next.metadata.lookup (baselineKey ownerSid) = some "1" ∧
      (∀ other, other ≠ ownerSid →
        next.metadata.lookup (baselineKey other) = state.metadata.lookup (baselineKey other)) ∧
      (∃ baseline, next.executableBaselines = state.executableBaselines.insert ownerSid baseline ∧
        ∀ identity, identity ≠ "" → (identity ∈ baseline.identities ↔ Contains taken identity)) ∧
      ∀ other identity, (next.seenExecutables.lookup (other, identity)).isSome ↔
        (state.seenExecutables.lookup (other, identity)).isSome ∨
          other = ownerSid ∧ identity ≠ "" ∧ Contains taken identity := by
  obtain ⟨known, hknown, -⟩ :=
    mem_known ownerSid (taken.processes.map (·.identity)) state.seenExecutables
  simp only [baselineStep, applyExecutableBaseline, hcached, BaselineFaults.never, getMetadata,
    call_none, hknown] at h
  generalize hinitialized :
    (state.metadata.lookup ("baseline_initialized:" ++ ownerSid) == some "1") = initialized at h
  generalize hmarked : (taken.processes.map fun process =>
    ({ process with
      isNew := initialized && process.identity != "" &&
        !known.contains process.identity } : ProcessRecord)) = marked at h
  -- the observations carry the identities of the snapshot
  have hobserved : ∀ identity, (∃ seen ∈ (marked.filter fun process =>
      process.identity != "").map (observation now), seen.identity = identity) ↔
        identity ≠ "" ∧ Contains taken identity := by
    intro identity
    simp only [← hmarked, List.mem_map, List.mem_filter, bne_iff_ne]
    constructor
    · rintro ⟨_, ⟨_, ⟨⟨process, hmem, rfl⟩, hne⟩, rfl⟩, rfl⟩
      exact ⟨hne, process, hmem, rfl⟩
    · rintro ⟨hne, process, hmem, rfl⟩
      exact ⟨_, ⟨_, ⟨⟨process, hmem, rfl⟩, hne⟩, rfl⟩, rfl⟩
  generalize hobservations :
    (marked.filter fun process => process.identity != "").map (observation now) =
      observations at h hobserved
  rcases hrecord : recordExecutables none ownerSid observations state.seenExecutables with
    ⟨error | _, rows⟩
  · rw [hrecord] at h
    cases h
  · rw [hrecord] at h
    have hrows : ∀ other identity, (rows.lookup (other, identity)).isSome ↔
        (state.seenExecutables.lookup (other, identity)).isSome ∨
          other = ownerSid ∧ identity ≠ "" ∧ Contains taken identity := by
      intro other identity
      rw [isSome_recordExecutables hrecord, hobserved, ← and_assoc (a := identity ≠ ""), and_self]
    have hidentities : ∀ identity, identity ≠ "" →
        (identity ∈ (observations.map (·.identity)).toFinset ↔ Contains taken identity) := by
      intro identity hne
      rw [List.mem_toFinset, List.mem_map, hobserved]
      exact and_iff_right hne
    cases initialized with
    | true =>
        rw [← Option.some.inj h]
        exact ⟨eq_of_beq hinitialized, fun _ _ => rfl, ⟨_, rfl, hidentities⟩, hrows⟩
    | false =>
        rw [← Option.some.inj h]
        refine ⟨AList.lookup_insert _, fun other hne => ?_, ⟨_, rfl, hidentities⟩, hrows⟩
        refine AList.lookup_insert_ne fun hkey => hne ?_
        exact (String.append_right_inj _).mp hkey

/-- A snapshot keeps the rows and the cached sets in step with the history. -/
theorem Tracks.snapshot (hstate : Tracks actions state)
    (h : baselineStep state (.snapshot ownerSid now taken) = some next) :
    Tracks (actions ++ [.snapshot ownerSid now taken]) next := by
  cases hcached : state.executableBaselines.lookup ownerSid with
  | some baseline =>
      obtain ⟨hmetadata, ⟨lastPersisted, hcache⟩, hrows⟩ := baselineStep_cached hcached h
      have hrequested : Requested (sinceRestart actions) ownerSid :=
        (hstate.cached ownerSid).mp (by simp [hcached])
      have hidentities := hstate.identities ownerSid baseline hcached
      constructor
      · intro other identity hne
        rw [hrows, seen_concat, hstate.rows other identity hne]
        constructor
        · rintro (hseen | ⟨rfl, -, changed, hmem, rfl⟩)
          · exact Or.inl hseen
          · exact Or.inr ⟨rfl, shown_of_changed hmem⟩
        · rintro (hseen | ⟨rfl, hshown⟩)
          · exact Or.inl hseen
          · by_cases hold : identity ∈ baseline.identities
            · exact Or.inl ((hidentities identity hne).mp hold).of_sinceRestart
            · refine Or.inr ⟨rfl, hne, changed_of_flagged ?_⟩
              exact flagged_markAgainstCache.mpr ⟨hne, hshown, hold⟩
      · intro other
        rw [hmetadata, hstate.initialized, requested_concat]
        exact (or_iff_left_of_imp fun hof => hof ▸ hrequested.of_sinceRestart).symm
      · intro other
        rw [hcache, sinceRestart_snapshot, requested_concat, ← hstate.cached,
          Table.isSome_lookup_insert]
        exact or_congr_right eq_comm
      · intro other cached hlookup identity hne
        rw [sinceRestart_snapshot, seen_concat]
        rw [hcache] at hlookup
        rcases Table.lookup_insert_eq_some_iff.mp hlookup with ⟨rfl, rfl⟩ | ⟨hother, hlookup⟩
        · rw [mem_identities_markAgainstCache hne, hidentities identity hne]
          exact or_congr_right (and_iff_right rfl).symm
        · rw [hstate.identities other cached hlookup identity hne]
          exact (or_iff_left fun hshows => hother hshows.1.symm).symm
  | none =>
      obtain ⟨hinitialized, hmetadata, ⟨baseline, hcache, hidentities⟩, hrows⟩ :=
        baselineStep_uncached hcached h
      have hfresh : ¬Requested (sinceRestart actions) ownerSid := fun hrequested => by
        simpa [hcached] using (hstate.cached ownerSid).mpr hrequested
      constructor
      · intro other identity hne
        rw [hrows, seen_concat, hstate.rows other identity hne]
        refine or_congr_right ⟨?_, ?_⟩
        · rintro ⟨rfl, -, hshown⟩
          exact ⟨rfl, hshown⟩
        · rintro ⟨rfl, hshown⟩
          exact ⟨rfl, hne, hshown⟩
      · intro other
        rw [requested_concat]
        by_cases hsame : other = ownerSid
        · rw [hsame]
          exact iff_of_true hinitialized (Or.inr rfl)
        · rw [hmetadata other hsame, hstate.initialized]
          exact (or_iff_left fun hof => hsame hof.symm).symm
      · intro other
        rw [hcache, sinceRestart_snapshot, requested_concat, ← hstate.cached,
          Table.isSome_lookup_insert]
        exact or_congr_right eq_comm
      · intro other cached hlookup identity hne
        rw [sinceRestart_snapshot, seen_concat]
        rw [hcache] at hlookup
        rcases Table.lookup_insert_eq_some_iff.mp hlookup with ⟨rfl, rfl⟩ | ⟨hother, hlookup⟩
        · rw [hidentities identity hne]
          refine ⟨fun hshown => Or.inr ⟨rfl, hshown⟩, ?_⟩
          rintro (⟨action, hmem, hshows⟩ | ⟨-, hshown⟩)
          · exact absurd ⟨action, hmem, hshows.isOf⟩ hfresh
          · exact hshown
        · rw [hstate.identities other cached hlookup identity hne]
          exact (or_iff_left fun hshows => hother hshows.1.symm).symm

/-- A restart keeps the rows. -/
theorem Tracks.restart (hstate : Tracks actions state) :
    Tracks (actions ++ [.restart]) state.restarted := by
  constructor
  · intro ownerSid identity hne
    rw [seen_concat]
    exact (hstate.rows ownerSid identity hne).trans (or_iff_left id).symm
  · intro ownerSid
    rw [requested_concat]
    exact (hstate.initialized ownerSid).trans (or_iff_left id).symm
  · simp [BaselineState.restarted, Requested]
  · intro ownerSid baseline hlookup
    simp [BaselineState.restarted] at hlookup

theorem tracks_created : Tracks [] .created := by
  constructor
  · intro ownerSid identity _
    have hrows : BaselineState.created.seenExecutables = ∅ := rfl
    exact iff_of_false (by simp [hrows]) (by simp [Seen])
  · intro ownerSid
    have hmetadata : BaselineState.created.metadata =
        AList.insert "schema_version" (toString databaseSchemaVersion) ∅ := rfl
    have hkey : baselineKey ownerSid ≠ "schema_version" := fun hsame => by
      have hhead : (baselineKey ownerSid).toList.head? = some 'b' :=
        head?_toList_append (by decide)
      rw [hsame] at hhead
      exact absurd hhead (by decide)
    refine iff_of_false ?_ (by simp [Requested])
    rw [hmetadata, AList.lookup_insert_ne hkey]
    simp
  · intro ownerSid
    exact iff_of_false (by simp [BaselineState.created]) (by simp [Requested, sinceRestart])
  · intro ownerSid baseline hlookup
    simp [BaselineState.created] at hlookup

/-- After every run the rows and the cached sets hold what the snapshots contained. -/
theorem tracks_run (h : run baselineStep .created actions = some state) : Tracks actions state := by
  refine run_history_invariant tracks_created (fun past state action next htracks hstep => ?_) h
  cases action with
  | snapshot ownerSid now taken => exact htracks.snapshot hstep
  | restart =>
      rw [← Option.some.inj hstep]
      exact htracks.restart

end step

/-! ## The flags and the history -/

/-- The flags of a snapshot follow the history of the owner: only identities are flagged that no
earlier snapshot of the owner contained, all of those are, and a restart in between would change
nothing. -/
structure FollowsHistory (actions : List BaselineAction) (ownerSid : String) (now : Clock)
    (state : BaselineState) (snapshot : SystemSnapshot) : Prop where
  onlyNew : ∀ identity, identity ≠ "" →
    Flagged (markedProcesses now ownerSid state snapshot) identity → ¬Seen actions ownerSid identity
  everyNew : ∀ identity, identity ≠ "" → Contains snapshot identity →
    ¬Seen actions ownerSid identity → Flagged (markedProcesses now ownerSid state snapshot) identity
  alike : ∀ identity, Flagged (markedProcesses now ownerSid state snapshot) identity ↔
    Flagged (markedProcesses now ownerSid state.restarted snapshot) identity

/-- The snapshot is the first of the owner since the last restart, or what it contains again was
also in a snapshot of the owner since then. -/
def Refreshed (actions : List BaselineAction) (ownerSid : String) (snapshot : SystemSnapshot) :
    Prop :=
  Requested (sinceRestart actions) ownerSid → ∀ identity, identity ≠ "" →
    Contains snapshot identity → Seen actions ownerSid identity →
      Seen (sinceRestart actions) ownerSid identity

section flags

variable {actions : List BaselineAction} {ownerSid identity : String} {now : Clock}
  {state : BaselineState} {snapshot : SystemSnapshot}

/-- What is flagged without a cached baseline is what no earlier snapshot contained. -/
theorem Tracks.flagged_of_rows (hstate : Tracks actions state)
    (hcached : state.executableBaselines.lookup ownerSid = none)
    (hrequested : Requested actions ownerSid) :
    Flagged (markedProcesses now ownerSid state snapshot) identity ↔
      identity ≠ "" ∧ Contains snapshot identity ∧ ¬Seen actions ownerSid identity := by
  rw [Service.flagged_of_rows hcached ((hstate.initialized ownerSid).mpr hrequested)]
  refine and_congr_right fun hne => and_congr_right fun _ => ?_
  rw [← hstate.rows ownerSid identity hne, Option.not_isSome_iff_eq_none]

/-- What is flagged with a cached baseline is what no snapshot since the restart contained. -/
theorem Tracks.flagged_of_cached (hstate : Tracks actions state)
    (hrequested : Requested (sinceRestart actions) ownerSid) :
    Flagged (markedProcesses now ownerSid state snapshot) identity ↔
      identity ≠ "" ∧ Contains snapshot identity ∧
        ¬Seen (sinceRestart actions) ownerSid identity := by
  obtain ⟨baseline, hcached⟩ :=
    Option.isSome_iff_exists.mp ((hstate.cached ownerSid).mpr hrequested)
  rw [Service.flagged_of_cached hcached]
  refine and_congr_right fun hne => and_congr_right fun _ => ?_
  rw [hstate.identities ownerSid baseline hcached identity hne]

/-- What is flagged after a restart is what no earlier snapshot contained. -/
theorem Tracks.flagged_restarted (hstate : Tracks actions state)
    (hrequested : Requested actions ownerSid) :
    Flagged (markedProcesses now ownerSid state.restarted snapshot) identity ↔
      identity ≠ "" ∧ Contains snapshot identity ∧ ¬Seen actions ownerSid identity := by
  have hseen : ¬Seen actions ownerSid identity ↔
      ¬Seen (actions ++ [.restart]) ownerSid identity := by
    rw [seen_concat]
    exact not_congr (or_iff_left id).symm
  rw [hseen]
  exact hstate.restart.flagged_of_rows rfl (requested_concat.mpr (Or.inl hrequested))

end flags

/-- **The flags follow the history** of an owner with a baseline exactly when the snapshot is the
first since the last restart or contains nothing that was last seen before it. -/
theorem followsHistory_iff (actions : List BaselineAction) (state : BaselineState)
    (ownerSid : String) (now : Clock) (snapshot : SystemSnapshot)
    (hrun : run baselineStep .created actions = some state)
    (hrequested : Requested actions ownerSid) :
    FollowsHistory actions ownerSid now state snapshot ↔
      Refreshed actions ownerSid snapshot := by
  have hstate := tracks_run hrun
  by_cases hsince : Requested (sinceRestart actions) ownerSid
  · constructor
    · intro hfollows _ identity hne hshown hseen
      by_contra hnew
      refine hfollows.onlyNew identity hne ?_ hseen
      exact (hstate.flagged_of_cached hsince).mpr ⟨hne, hshown, hnew⟩
    · intro hrefreshed
      have hflagged : ∀ identity, Flagged (markedProcesses now ownerSid state snapshot) identity ↔
          identity ≠ "" ∧ Contains snapshot identity ∧ ¬Seen actions ownerSid identity := by
        intro identity
        rw [hstate.flagged_of_cached hsince]
        refine and_congr_right fun hne => and_congr_right fun hshown => not_congr ?_
        exact ⟨Seen.of_sinceRestart, hrefreshed hsince identity hne hshown⟩
      constructor
      · exact fun identity _ h => ((hflagged identity).mp h).2.2
      · exact fun identity hne hshown hnew => (hflagged identity).mpr ⟨hne, hshown, hnew⟩
      · intro identity
        rw [hflagged, hstate.flagged_restarted hrequested]
  · have hcached : state.executableBaselines.lookup ownerSid = none := by
      rw [← Option.not_isSome_iff_eq_none, hstate.cached]
      exact hsince
    refine iff_of_true ⟨?_, ?_, ?_⟩ fun h => absurd h hsince
    · exact fun identity _ h => ((hstate.flagged_of_rows hcached hrequested).mp h).2.2
    · intro identity hne hshown hnew
      exact (hstate.flagged_of_rows hcached hrequested).mpr ⟨hne, hshown, hnew⟩
    · intro identity
      rw [hstate.flagged_of_rows hcached hrequested, hstate.flagged_restarted hrequested]

/-- A snapshot of processes that are known by their identities. -/
def snapshotOf (identities : List String) : SystemSnapshot :=
  { (default : SystemSnapshot) with
    processes := identities.map fun identity =>
      { (default : ProcessRecord) with identity := identity } }

/-- A request of the one user. -/
def takenOf (identities : List String) : BaselineAction :=
  .snapshot "S-1-5-21-1" ⟨0, 1760000000⟩ (snapshotOf identities)

theorem followsHistory_iff_second : ∃ state,
    run baselineStep .created [takenOf ["editor|1"]] = some state ∧
      (FollowsHistory [takenOf ["editor|1"]] "S-1-5-21-1" default state
          (snapshotOf ["editor|1", "mail|1"]) ↔
        Refreshed [takenOf ["editor|1"]] "S-1-5-21-1" (snapshotOf ["editor|1", "mail|1"])) := by
  obtain ⟨state, hstate⟩ := Option.isSome_iff_exists.mp
    (show (run baselineStep .created [takenOf ["editor|1"]]).isSome by decide +kernel)
  exact ⟨state, hstate, followsHistory_iff _ state _ _ _ hstate ⟨_, List.mem_cons_self, rfl⟩⟩

/-- The mail client is known before a restart and does not run at the first snapshot after it. -/
def restartTrace : List BaselineAction :=
  [takenOf ["editor|1", "mail|1"], .restart, takenOf ["editor|1"]]

/-- An executable that a user has run before is flagged as new after a restart. -/
theorem known_executable_flagged : ∃ state,
    run baselineStep .created restartTrace = some state ∧ Requested restartTrace "S-1-5-21-1" ∧
      ¬FollowsHistory restartTrace "S-1-5-21-1" ⟨0, 1760000000⟩ state
        (snapshotOf ["editor|1", "mail|1"]) := by
  obtain ⟨state, hstate⟩ := Option.isSome_iff_exists.mp
    (show (run baselineStep .created restartTrace).isSome by decide +kernel)
  refine ⟨state, hstate, ⟨_, List.mem_cons_self, rfl⟩, fun hfollows => ?_⟩
  have hsince : sinceRestart restartTrace = [takenOf ["editor|1"]] := rfl
  have hrequested : Requested (sinceRestart restartTrace) "S-1-5-21-1" :=
    hsince ▸ ⟨_, List.mem_cons_self, rfl⟩
  have hshown : Contains (snapshotOf ["editor|1", "mail|1"]) "mail|1" :=
    ⟨_, List.mem_cons_of_mem _ List.mem_cons_self, rfl⟩
  refine hfollows.onlyNew "mail|1" (by decide) ?_ ⟨_, List.mem_cons_self, rfl, hshown⟩
  refine ((tracks_run hstate).flagged_of_cached hrequested).mpr ⟨by decide, hshown, ?_⟩
  rw [hsince]
  rintro ⟨action, hmem, hshows⟩
  rw [List.mem_singleton.mp hmem] at hshows
  obtain ⟨-, process, hprocess, hidentity⟩ := hshows
  rw [List.mem_singleton.mp hprocess] at hidentity
  exact absurd hidentity (by decide)

end OpenGuard.Service
