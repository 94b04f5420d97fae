import OpenGuard.Service.BaselineHistory

/-!
# A baseline write that fails

The loop over a cached baseline inserts each identity into the cached set before the observations
are written, and an error of the write leaves the set as the loop made it.

* `mem_changed`: which processes the loop collects for the database.
* `result_of_cached`: what a call with a cached baseline leaves.
* `retriesWrite_iff`: a call whose write fails is retried by the next one exactly when the failing
  call met nothing new.
* `rows_of_retried_run`: **every cached identity has a row** after each run of failing and
  succeeding calls in which no write fails that has something new to write.
-/

namespace OpenGuard.Service

open OpenGuard.Lib OpenGuard.Domain OpenGuard.Storage

/-! ## Calls that may fail -/

/-- A call with what fails in it, or a restart. -/
inductive BaselineCall where
  | snapshot (faults : BaselineFaults) (now : Clock) (ownerSid : String)
      (snapshot : SystemSnapshot)
  | restart

/-- The state after a call, whether it fails or not.
Source: `main.rs`, `ServiceState::apply_executable_baseline` -/
def baselineCallStep (state : BaselineState) : BaselineCall → Option BaselineState
  | .snapshot faults now ownerSid snapshot =>
      some (applyExecutableBaseline faults now ownerSid state snapshot).1
  | .restart => some state.restarted

/-- A service that starts on a database. -/
def BaselineState.started (metadata : Metadata) (rows : SeenExecutables) : BaselineState :=
  ⟨metadata, rows, ∅⟩

/-- Every cached identity has a row. -/
def CachedHaveRows (state : BaselineState) : Prop :=
  ∀ ownerSid baseline, state.executableBaselines.lookup ownerSid = some baseline →
    ∀ identity ∈ baseline.identities,
      (state.seenExecutables.lookup (ownerSid, identity)).isSome

/-- When the write of a call with a cached baseline fails, the cached set is as before, and the
next call with the snapshot flags the same processes and, if it succeeds, has stored them. -/
def RetriesWrite (faults : BaselineFaults) (now : Clock) (ownerSid : String)
    (state : BaselineState) (snapshot : SystemSnapshot) : Prop :=
  ∀ baseline error failed flagged,
    state.executableBaselines.lookup ownerSid = some baseline →
    applyExecutableBaseline faults now ownerSid state snapshot = (failed, flagged, .error error) →
      (∃ kept, failed.executableBaselines.lookup ownerSid = some kept ∧
        kept.identities = baseline.identities) ∧
      ∀ again later next reported answer,
        applyExecutableBaseline again later ownerSid failed snapshot = (next, reported, answer) →
          reported = flagged ∧ (answer = .ok false → ∀ process ∈ flagged.processes, process.isNew →
            (next.seenExecutables.lookup (ownerSid, process.identity)).isSome)

/-! ## When the write fails -/

/-- Five minutes have passed since the baseline was written. -/
def persistAll (now : Clock) (baseline : ExecutableBaseline) : Bool :=
  decide (persistInterval ≤ now.instant - baseline.lastPersisted)

/-- The processes that the loop collects: all of them, or the first one of each identity that is
not in the set. -/
def Collected (persistAll : Bool) (identities : Finset String) (processes : List ProcessRecord)
    (process : ProcessRecord) : Prop :=
  ∃ before after, processes = before ++ process :: after ∧
    (persistAll ∨ process.identity ≠ "" ∧ process.identity ∉ identities ∧
      ∀ earlier ∈ before, earlier.identity ≠ process.identity)

/-- The database answers, and no collected process has a score that the table rejects. -/
def WriteSucceeds (faults : BaselineFaults) (now : Clock) (baseline : ExecutableBaseline)
    (snapshot : SystemSnapshot) : Prop :=
  faults.recordExecutables = none ∧
    ∀ process, Collected (persistAll now baseline) baseline.identities snapshot.processes process →
      process.identity ≠ "" → process.risk.score ≤ 100

/-- Every identity of the snapshot is in the cached set. -/
def NoNewIdentity (baseline : ExecutableBaseline) (snapshot : SystemSnapshot) : Prop :=
  ∀ process ∈ snapshot.processes, process.identity ≠ "" → process.identity ∈ baseline.identities

/-- The call has nothing new to write, or its write succeeds. -/
def NoNewIdentityOnFailure (state : BaselineState) : BaselineCall → Prop
  | .snapshot faults now ownerSid snapshot =>
      ∀ baseline, state.executableBaselines.lookup ownerSid = some baseline →
        NoNewIdentity baseline snapshot ∨ WriteSucceeds faults now baseline snapshot
  | .restart => True

section loop

variable {now : Clock} {all : Bool} {identities : Finset String} {identity : String}
  {process first : ProcessRecord} {processes : List ProcessRecord}
  {observed : SeenExecutable}

theorem collected_cons :
    Collected all identities (first :: processes) process ↔
      process = first ∧ (all ∨ first.identity ≠ "" ∧ first.identity ∉ identities) ∨
        Collected all
          (if first.identity = "" then identities else insert first.identity identities)
          processes process := by
  constructor
  · rintro ⟨before, after, hsplit, hmet⟩
    cases before with
    | nil =>
        obtain ⟨rfl, -⟩ := List.cons.inj hsplit
        exact Or.inl ⟨rfl, hmet.imp_right fun h => ⟨h.1, h.2.1⟩⟩
    | cons head before =>
        obtain ⟨rfl, htail⟩ := List.cons.inj hsplit
        refine Or.inr ⟨before, after, htail, hmet.imp_right ?_⟩
        rintro ⟨hne, hnew, hbefore⟩
        refine ⟨hne, ?_, fun earlier hmem => hbefore earlier (List.mem_cons_of_mem _ hmem)⟩
        split_ifs
        · exact hnew
        · rw [Finset.mem_insert, not_or]
          exact ⟨(hbefore first List.mem_cons_self).symm, hnew⟩
  · rintro (⟨rfl, hmet⟩ | ⟨before, after, rfl, hmet⟩)
    · exact ⟨[], processes, rfl, hmet.imp_right fun h => ⟨h.1, h.2, by simp⟩⟩
    · refine ⟨first :: before, after, rfl, hmet.imp_right ?_⟩
      rintro ⟨hne, hnew, hbefore⟩
      have hfirst : first.identity ≠ process.identity ∧ process.identity ∉ identities := by
        split_ifs at hnew with hempty
        · exact ⟨fun hsame => hne (hsame ▸ hempty), hnew⟩
        · rw [Finset.mem_insert, not_or] at hnew
          exact ⟨Ne.symm hnew.1, hnew.2⟩
      refine ⟨hne, hfirst.2, ?_⟩
      intro earlier hmem
      rcases List.mem_cons.mp hmem with rfl | hmem
      · exact hfirst.1
      · exact hbefore earlier hmem

/-- What the loop collects. -/
theorem mem_changed :
    observed ∈ (markAgainstCache now all identities processes).2.2 ↔
      ∃ process, Collected all identities processes process ∧
        observed = observation now process := by
  induction processes generalizing identities with
  | nil => simp [markAgainstCache, Collected]
  | cons first rest ih =>
      simp only [markAgainstCache, mem_ite_cons, ih, collected_cons, or_and_right, exists_or,
        Bool.or_eq_true, Bool.and_eq_true, bne_iff_ne, decide_eq_true_eq, and_assoc,
        exists_eq_left]
      exact or_congr_left or_comm

/-- The identities after the loop. -/
theorem mem_identities :
    identity ∈ (markAgainstCache now all identities processes).2.1 ↔
      identity ∈ identities ∨ identity ≠ "" ∧ ∃ process ∈ processes, process.identity = identity := by
  by_cases hne : identity = ""
  · subst hne
    simp only [ne_eq, not_true_eq_false, false_and, or_false]
    induction processes generalizing identities with
    | nil => rfl
    | cons process rest ih =>
        simp only [markAgainstCache, ih]
        split_ifs with hempty
        · rfl
        · rw [Finset.mem_insert]
          exact or_iff_right (Ne.symm hempty)
  · rw [mem_identities_markAgainstCache hne]
    exact or_congr_right (and_iff_right hne).symm

/-- The flags depend on the set alone. -/
theorem fst_markAgainstCache (later : Clock) (any : Bool) :
    (markAgainstCache now all identities processes).1 =
      (markAgainstCache later any identities processes).1 := by
  induction processes generalizing identities with
  | nil => rfl
  | cons process rest ih =>
      simp only [markAgainstCache, List.cons.injEq, true_and]
      exact ih

end loop

section call

variable {faults : BaselineFaults} {now : Clock} {ownerSid : String} {state : BaselineState}
  {snapshot reported : SystemSnapshot} {baseline : ExecutableBaseline} {next : BaselineState}
  {answer : Except StorageError Bool} {marked : List ProcessRecord} {identities : Finset String}
  {changed : List SeenExecutable}

/-- A batch is written when the database answers and accepts every score. -/
theorem recordExecutables_eq_ok_iff {fault : Fault} {observations : List SeenExecutable}
    {rows : SeenExecutables} :
    (∃ after, recordExecutables fault ownerSid observations rows = (.ok (), after)) ↔
      fault = none ∧ ∀ observed ∈ observations, observed.identity ≠ "" →
        observed.riskScore ≤ 100 := by
  cases fault with
  | some error => simp [recordExecutables]
  | none =>
      simp only [recordExecutables, call_none, true_and]
      split_ifs with hscores
      · simp only [List.all_eq_true, List.mem_filter, bne_iff_ne, and_imp,
          decide_eq_true_eq] at hscores
        exact iff_of_true ⟨_, rfl⟩ hscores
      · simp only [List.all_eq_true, List.mem_filter, bne_iff_ne, and_imp,
          decide_eq_true_eq] at hscores
        exact iff_of_false (by simp) hscores

/-- The write of a call with a cached baseline. -/
theorem writeSucceeds_iff :
    WriteSucceeds faults now baseline snapshot ↔
      ∃ after, recordExecutables faults.recordExecutables ownerSid
        (markAgainstCache now (persistAll now baseline) baseline.identities
          snapshot.processes).2.2 state.seenExecutables = (.ok (), after) := by
  rw [recordExecutables_eq_ok_iff, WriteSucceeds]
  refine and_congr_right fun _ => ?_
  simp only [mem_changed]
  constructor
  · rintro h observed ⟨process, hcollected, rfl⟩ hne
    exact h process hcollected hne
  · exact fun h process hcollected hne => h _ ⟨process, hcollected, rfl⟩ hne

/-- The rows after a batch that was written. -/
theorem isSome_of_recorded {fault : Fault} {observations : List SeenExecutable}
    {rows after : SeenExecutables} {other identity : String}
    (h : recordExecutables fault ownerSid observations rows = (.ok (), after)) :
    (after.lookup (other, identity)).isSome ↔ (rows.lookup (other, identity)).isSome ∨
      other = ownerSid ∧ identity ≠ "" ∧
        ∃ observation ∈ observations, observation.identity = identity := by
  obtain ⟨rfl, -⟩ := recordExecutables_eq_ok_iff.mp ⟨after, h⟩
  exact isSome_recordExecutables h

/-- What a call with a cached baseline leaves: the set of the loop in any case, and the rows of
what the loop collected if there was no error. -/
theorem result_of_cached (hcached : state.executableBaselines.lookup ownerSid = some baseline)
    (hloop : markAgainstCache now (persistAll now baseline) baseline.identities
      snapshot.processes = (marked, identities, changed))
    (hresult : applyExecutableBaseline faults now ownerSid state snapshot =
      (next, reported, answer)) :
    (∃ lastPersisted, next.executableBaselines =
      state.executableBaselines.insert ownerSid ⟨identities, lastPersisted⟩) ∧
    reported = { snapshot with processes := marked } ∧
    ((∃ error, answer = .error error) ↔
      changed ≠ [] ∧ ¬WriteSucceeds faults now baseline snapshot) ∧
    (∀ other identity, (state.seenExecutables.lookup (other, identity)).isSome →
      (next.seenExecutables.lookup (other, identity)).isSome) ∧
    ((∀ error, answer ≠ .error error) → ∀ observed ∈ changed, observed.identity ≠ "" →
      (next.seenExecutables.lookup (ownerSid, observed.identity)).isSome) := by
  have hwrites : WriteSucceeds faults now baseline snapshot ↔
      ∃ after, recordExecutables faults.recordExecutables ownerSid
        (markAgainstCache now (persistAll now baseline) baseline.identities
          snapshot.processes).2.2 state.seenExecutables = (.ok (), after) := writeSucceeds_iff
  unfold persistAll at hloop hwrites
  simp only [applyExecutableBaseline, hcached, hloop] at hresult
  simp only [hloop] at hwrites
  by_cases hnone : changed = []
  · rw [if_pos hnone] at hresult
    obtain ⟨rfl, rfl, rfl⟩ := hresult
    exact ⟨⟨_, rfl⟩, rfl, by simp [hnone], fun _ _ => id, by simp [hnone]⟩
  · rw [if_neg hnone] at hresult
    rcases hrecord : recordExecutables faults.recordExecutables ownerSid changed
        state.seenExecutables with ⟨error | _, rows⟩
    · have hfails : ¬WriteSucceeds faults now baseline snapshot := by
        rw [hwrites]
        rintro ⟨after, hafter⟩
        exact absurd (hrecord.symm.trans hafter) (by simp)
      rw [hrecord] at hresult
      obtain ⟨rfl, rfl, rfl⟩ := hresult
      exact ⟨⟨_, rfl⟩, rfl, iff_of_true ⟨_, rfl⟩ ⟨hnone, hfails⟩, fun _ _ => id, by simp⟩
    · have hsucceeds : WriteSucceeds faults now baseline snapshot := hwrites.mpr ⟨rows, hrecord⟩
      rw [hrecord] at hresult
      obtain ⟨rfl, rfl, rfl⟩ := hresult
      refine ⟨⟨_, rfl⟩, rfl, iff_of_false (by simp) fun h => h.2 hsucceeds, ?_, ?_⟩
      · exact fun other identity hrow => (isSome_of_recorded hrecord).mpr (Or.inl hrow)
      · intro _ observed hmem hne
        exact (isSome_of_recorded hrecord).mpr (Or.inr ⟨rfl, hne, observed, hmem, rfl⟩)

/-- The set of the loop: the cached one, and what the snapshot shows. -/
theorem mem_of_loop
    (hloop : markAgainstCache now (persistAll now baseline) baseline.identities
      snapshot.processes = (marked, identities, changed)) {identity : String} :
    identity ∈ identities ↔ identity ∈ baseline.identities ∨
      identity ≠ "" ∧ ∃ process ∈ snapshot.processes, process.identity = identity := by
  have hmem : identity ∈ (markAgainstCache now (persistAll now baseline) baseline.identities
      snapshot.processes).2.1 ↔ _ := mem_identities
  rwa [hloop] at hmem

/-- The set of the loop is the cached one when nothing is new. -/
theorem noNewIdentity_iff
    (hloop : markAgainstCache now (persistAll now baseline) baseline.identities
      snapshot.processes = (marked, identities, changed)) :
    NoNewIdentity baseline snapshot ↔ identities = baseline.identities := by
  rw [Finset.ext_iff]
  simp only [mem_of_loop hloop, or_iff_left_iff_imp]
  constructor
  · rintro h identity ⟨hne, process, hshown, rfl⟩
    exact h process hshown hne
  · exact fun h process hshown hne => h process.identity ⟨hne, process, hshown, rfl⟩

/-- What is new is collected. -/
theorem exists_changed
    (hloop : markAgainstCache now (persistAll now baseline) baseline.identities
      snapshot.processes = (marked, identities, changed)) {process : ProcessRecord}
    (hmem : process ∈ snapshot.processes) (hne : process.identity ≠ "")
    (hnew : process.identity ∉ baseline.identities) :
    ∃ observed ∈ changed, observed.identity = process.identity := by
  have hflagged : Flagged (markAgainstCache now (persistAll now baseline) baseline.identities
      snapshot.processes).1 process.identity :=
    flagged_markAgainstCache.mpr ⟨hne, ⟨process, hmem, rfl⟩, hnew⟩
  simpa only [hloop] using changed_of_flagged hflagged

/-- **A failed write is retried** exactly when the call met nothing new or its write succeeds. -/
theorem retriesWrite_iff :
    RetriesWrite faults now ownerSid state snapshot ↔
      NoNewIdentityOnFailure state (.snapshot faults now ownerSid snapshot) := by
  constructor
  · intro h baseline hcached
    by_contra hneither
    obtain ⟨hnew, hwrite⟩ := not_or.mp hneither
    rcases hloop : markAgainstCache now (persistAll now baseline) baseline.identities
      snapshot.processes with ⟨marked, identities, changed⟩
    rcases hresult : applyExecutableBaseline faults now ownerSid state snapshot with
      ⟨failed, flagged, answer⟩
    obtain ⟨⟨lastPersisted, hcache⟩, -, hfails, -, -⟩ := result_of_cached hcached hloop hresult
    have hchanged : changed ≠ [] := by
      simp only [NoNewIdentity, not_forall] at hnew
      obtain ⟨process, hmem, hne, hnew⟩ := hnew
      obtain ⟨observed, hobserved, -⟩ := exists_changed hloop hmem hne hnew
      exact List.ne_nil_of_mem hobserved
    obtain ⟨error, rfl⟩ := hfails.mpr ⟨hchanged, hwrite⟩
    obtain ⟨⟨kept, hkept, hsame⟩, -⟩ := h baseline error failed flagged hcached hresult
    rw [hcache, AList.lookup_insert, Option.some_inj] at hkept
    rw [← hkept] at hsame
    exact hnew ((noNewIdentity_iff hloop).mpr hsame)
  · intro h baseline error failed flagged hcached hresult
    rcases hloop : markAgainstCache now (persistAll now baseline) baseline.identities
      snapshot.processes with ⟨marked, identities, changed⟩
    obtain ⟨⟨lastPersisted, hcache⟩, hflagged, hfails, -, -⟩ :=
      result_of_cached hcached hloop hresult
    have hnothing : NoNewIdentity baseline snapshot :=
      (h baseline hcached).resolve_right (hfails.mp ⟨error, rfl⟩).2
    have hkept : failed.executableBaselines.lookup ownerSid =
        some ⟨baseline.identities, lastPersisted⟩ := by
      rw [hcache, AList.lookup_insert, (noNewIdentity_iff hloop).mp hnothing]
    refine ⟨⟨_, hkept, rfl⟩, ?_⟩
    intro again later next reported answer hretried
    obtain ⟨-, hreported, -⟩ := result_of_cached hkept rfl hretried
    have hmarked : marked = (markAgainstCache later
        (persistAll later ⟨baseline.identities, lastPersisted⟩) baseline.identities
        snapshot.processes).1 := by
      rw [fst_markAgainstCache now (persistAll now baseline), hloop]
    refine ⟨by rw [hreported, hflagged, hmarked], ?_⟩
    intro _ process hmem hflag
    rw [hflagged, hmarked] at hmem
    obtain ⟨hne, ⟨shown, hshown, hsame⟩, hnew⟩ :=
      flagged_markAgainstCache.mp ⟨process, hmem, rfl, hflag⟩
    exact absurd (hnothing shown hshown (hsame ▸ hne)) (hsame ▸ hnew)

end call

/-! ## Runs -/

section run

variable {faults : BaselineFaults} {now : Clock} {ownerSid : String} {state : BaselineState}
  {snapshot : SystemSnapshot}

/-- A call that meets nothing new when its write fails keeps a row for every cached identity. -/
theorem CachedHaveRows.cached {baseline : ExecutableBaseline} (hstate : CachedHaveRows state)
    (hcached : state.executableBaselines.lookup ownerSid = some baseline)
    (hmeet : NoNewIdentity baseline snapshot ∨ WriteSucceeds faults now baseline snapshot) :
    CachedHaveRows (applyExecutableBaseline faults now ownerSid state snapshot).1 := by
  rcases hloop : markAgainstCache now (persistAll now baseline) baseline.identities
    snapshot.processes with ⟨marked, identities, changed⟩
  rcases hresult : applyExecutableBaseline faults now ownerSid state snapshot with
    ⟨next, reported, answer⟩
  obtain ⟨⟨lastPersisted, hcache⟩, -, hfails, hkept, hstored⟩ :=
    result_of_cached hcached hloop hresult
  intro other cached hlookup identity hmem
  rw [hcache] at hlookup
  rcases Table.lookup_insert_eq_some_iff.mp hlookup with ⟨rfl, rfl⟩ | ⟨-, hlookup⟩
  · by_cases hold : identity ∈ baseline.identities
    · exact hkept other identity (hstate other baseline hcached identity hold)
    · -- what the call added to the set it has also written
      obtain ⟨hne, process, hshown, rfl⟩ := ((mem_of_loop hloop).mp hmem).resolve_left hold
      have hwrite := hmeet.resolve_left fun hnothing => hold (hnothing process hshown hne)
      obtain ⟨observed, hobserved, hsame⟩ := exists_changed hloop hshown hne hold
      rw [← hsame]
      refine hstored (fun error herror => ?_) observed hobserved (hsame ▸ hne)
      exact (hfails.mp ⟨error, herror⟩).2 hwrite
  · exact hkept other identity (hstate other cached hlookup identity hmem)

/-- A call without a cached baseline caches only what it has written. -/
theorem CachedHaveRows.uncached (hstate : CachedHaveRows state)
    (hcached : state.executableBaselines.lookup ownerSid = none) :
    CachedHaveRows (applyExecutableBaseline faults now ownerSid state snapshot).1 := by
  unfold applyExecutableBaseline
  rw [hcached]
  dsimp only
  rcases getMetadata faults.getMetadata ("baseline_initialized:" ++ ownerSid) state.metadata with
    error | value
  · exact hstate
  dsimp only
  generalize knownExecutableIdentities _ _ _ _ = answer
  rcases answer with error | known
  · exact hstate
  dsimp only
  generalize hobservations : List.map (observation now) _ = observations
  have hnamed : ∀ observed ∈ observations, observed.identity ≠ "" := by
    intro observed hobserved
    rw [← hobservations] at hobserved
    obtain ⟨process, hprocess, rfl⟩ := List.mem_map.mp hobserved
    exact bne_iff_ne.mp (List.mem_filter.mp hprocess).2
  rcases hrecord : recordExecutables faults.recordExecutables ownerSid observations
    state.seenExecutables with ⟨error | _, written⟩
  · exact hstate
  have hkept (other identity : String)
      (hrow : (state.seenExecutables.lookup (other, identity)).isSome) :
      (written.lookup (other, identity)).isSome :=
    (isSome_of_recorded hrecord).mpr (Or.inl hrow)
  dsimp only
  split
  · exact fun other cached hlookup identity hmem =>
      hkept other identity (hstate other cached hlookup identity hmem)
  · intro other cached hlookup identity hmem
    rcases Table.lookup_insert_eq_some_iff.mp hlookup with ⟨rfl, rfl⟩ | ⟨-, hlookup⟩
    · obtain ⟨observed, hobserved, hsame⟩ := List.mem_map.mp (List.mem_toFinset.mp hmem)
      refine (isSome_of_recorded hrecord).mpr (Or.inr ⟨rfl, ?_, observed, hobserved, hsame⟩)
      exact hsame ▸ hnamed observed hobserved
    · exact hkept other identity (hstate other cached hlookup identity hmem)

/-- The step lemma. -/
theorem CachedHaveRows.step {call : BaselineCall} {next : BaselineState}
    (hstate : CachedHaveRows state) (hmeet : NoNewIdentityOnFailure state call)
    (h : baselineCallStep state call = some next) : CachedHaveRows next := by
  cases call with
  | restart =>
      rw [← Option.some.inj h]
      intro ownerSid baseline hlookup
      simp [BaselineState.restarted] at hlookup
  | snapshot faults now ownerSid snapshot =>
      rw [← Option.some.inj h]
      cases hcached : state.executableBaselines.lookup ownerSid with
      | none => exact hstate.uncached hcached
      | some baseline => exact hstate.cached hcached (hmeet baseline hcached)

end run

/-- **Every cached identity has a row** after a run of failing and succeeding calls and restarts in
which no write fails that has something new to write, and the next call is retried under the same
condition. -/
theorem rows_of_retried_run (metadata : Metadata) (rows : SeenExecutables)
    (calls : List BaselineCall) (state : BaselineState)
    (hmeet : StepsMeet NoNewIdentityOnFailure baselineCallStep (.started metadata rows) calls)
    (hrun : run baselineCallStep (.started metadata rows) calls = some state) :
    CachedHaveRows state ∧
      ∀ faults now ownerSid snapshot, RetriesWrite faults now ownerSid state snapshot ↔
        NoNewIdentityOnFailure state (.snapshot faults now ownerSid snapshot) := by
  refine ⟨?_, fun _ _ _ _ => retriesWrite_iff⟩
  have hstart : CachedHaveRows (.started metadata rows) := by
    intro ownerSid baseline hlookup
    simp [BaselineState.started] at hlookup
  exact run_invariant_of_meets (fun _ _ _ hstate hmeet => hstate.step hmeet) hstart hmeet hrun

/-- A database whose write fails. -/
def writeFault : BaselineFaults :=
  { BaselineFaults.never with recordExecutables := some (.database "database is locked") }

/-- A call of the one user at the start of the service. -/
def callOf (faults : BaselineFaults) (identities : List String) : BaselineCall :=
  .snapshot faults ⟨0, 1760000000⟩ "S-1-5-21-1" (snapshotOf identities)

theorem rows_of_retried_run_second : ∃ state,
    run baselineCallStep (.started ∅ ∅) [callOf .never ["editor|1"], callOf .never ["mail|1"]] =
        some state ∧
      CachedHaveRows state := by
  obtain ⟨state, hstate⟩ := Option.isSome_iff_exists.mp
    (show (run baselineCallStep (.started ∅ ∅) [callOf .never ["editor|1"],
      callOf .never ["mail|1"]]).isSome by decide +kernel)
  refine ⟨state, hstate, (rows_of_retried_run ∅ ∅ _ state ?_ hstate).1⟩
  refine StepsMeet.of_forall fun call hcall other => ?_
  have hsnapshot : ∃ identities, call = callOf .never identities := by
    rcases List.mem_pair.mp hcall with rfl | rfl <;> exact ⟨_, rfl⟩
  obtain ⟨identities, rfl⟩ := hsnapshot
  intro baseline _
  refine Or.inr ⟨rfl, ?_⟩
  rintro process ⟨before, after, hsplit, -⟩ -
  have hmem : process ∈ (snapshotOf identities).processes := by
    rw [hsplit]
    simp
  obtain ⟨identity, -, rfl⟩ := List.mem_map.mp hmem
  exact (show (default : ProcessRecord).risk.score ≤ 100 by decide)

/-- The service has a baseline, and the write of the next snapshot fails. -/
def failedTrace : List BaselineCall :=
  [callOf .never ["editor|1"], callOf writeFault ["editor|1", "mail|1"]]

/-- An executable that was met when the write failed is cached and has no row. -/
theorem cached_without_row : ¬∀ metadata rows calls state,
    run baselineCallStep (.started metadata rows) calls = some state →
      CachedHaveRows state ∧
        ∀ faults now ownerSid snapshot, RetriesWrite faults now ownerSid state snapshot := by
  intro h
  obtain ⟨state, hstate⟩ := Option.isSome_iff_exists.mp
    (show (run baselineCallStep (.started ∅ ∅) failedTrace).isSome by decide +kernel)
  have hcached : ((run baselineCallStep (.started ∅ ∅) failedTrace).bind fun state =>
      (state.executableBaselines.lookup "S-1-5-21-1").map fun baseline =>
        (decide ("mail|1" ∈ baseline.identities),
          (state.seenExecutables.lookup ("S-1-5-21-1", "mail|1")).isSome)) =
      some (true, false) := by decide +kernel
  rw [hstate, Option.bind_some, Option.map_eq_some_iff] at hcached
  obtain ⟨baseline, hlookup, hpair⟩ := hcached
  obtain ⟨hmem, hrow⟩ := Prod.mk.inj hpair
  have hsome := (h ∅ ∅ failedTrace state hstate).1 "S-1-5-21-1" baseline hlookup "mail|1"
    (of_decide_eq_true hmem)
  rw [hrow] at hsome
  exact absurd hsome Bool.false_ne_true

end OpenGuard.Service
