import OpenGuard.Lib.Run
import OpenGuard.Service.ScanWorker

/-!
# Real-time scans

A file that was just written is scanned by a thread of its own, and at most two such threads work at
a time: a counter is raised before a thread is started, and the thread lowers it when it is done.

* `realtimeWorker`: what a thread does, `GivesBack`: whatever its calls return, it lowers the
  counter once, and then it is done.
* `realtimeStep`: the calls that start threads, and the calls of the threads in any order.
* `realtime_slots_iff`: the counter is the number of threads, at every moment of a run, just when
  every thread could be started.
* `slots_lost`: two threads that could not be started, and no file is scanned any more.
-/

namespace OpenGuard.Service

open OpenGuard.Lib OpenGuard.Domain OpenGuard.Storage OpenGuard.Detection

/-! ## The worker -/

/-- The calls of a thread. -/
inductive RealtimeOp where
  | scanFile (path : String)
  | pathKey (path : String)
  | pathExcluded (key : String)
  | allowedHash (sha256 : String)
  | recordScan (finding : ScanFinding)
  | recordEvent (event : SecurityEvent)
  | giveBack

abbrev RealtimeOp.Answer : RealtimeOp → Type
  | scanFile _ => Except ScanError ScanFinding
  | pathKey _ => String
  | pathExcluded _ => Except StorageError Bool
  | allowedHash _ => Except StorageError (Option String)
  | recordScan _ => Except StorageError ℕ
  | recordEvent _ => Except StorageError ℕ
  | giveBack => Unit

/-- A program of a thread. -/
abbrev RealtimeProgram := Program RealtimeOp RealtimeOp.Answer

/-- One call of a thread. -/
def realtimeAsk (op : RealtimeOp) : RealtimeProgram op.Answer := Program.perform op

/-- The event of a file that needs review.
Source: `main.rs`, `ServiceState::schedule_realtime_scan` -/
def realtimeEvent (finding : ScanFinding) : SecurityEvent where
  eventType := "realtime_file_detection"
  severity := Severity.fromScore finding.score
  title := "Real-time file detection needs review"
  detail := joinWith "; " finding.reasons
  processId := none
  path := finding.path
  createdAt := finding.scannedAt
  resolved := false

/-- The verdicts that are reported in real time.
Source: `main.rs`, `ServiceState::schedule_realtime_scan` -/
def needsReview (verdict : ScanVerdict) : Bool := verdict = .suspicious || verdict = .malicious

/-- A finding is written and reported, unless the policy of the owner covers the file. Errors of the
database are passed over.
Source: `main.rs`, `ServiceState::schedule_realtime_scan` -/
def reportRealtime (path : String) (finding : ScanFinding) : RealtimeProgram Unit := do
  let key ← realtimeAsk (.pathKey path)
  let excluded ← realtimeAsk (.pathExcluded key)
  let allowed ← realtimeAsk (.allowedHash finding.sha256)
  if excluded.toOption.getD false || (allowed.toOption.getD none).isSome then
    return ()
  else
    let _ ← realtimeAsk (.recordScan finding)
    if needsReview finding.verdict then
      let _ ← realtimeAsk (.recordEvent (realtimeEvent finding))
      return ()
    else
      return ()

/-- What a thread does.
Source: `main.rs`, `ServiceState::schedule_realtime_scan` -/
def realtimeWorker (path : String) : RealtimeProgram Unit := do
  match ← realtimeAsk (.scanFile path) with
  | Except.ok finding =>
      reportRealtime path finding
      realtimeAsk .giveBack
  | Except.error _ => realtimeAsk .giveBack

/-! ## The machine -/

/-- A thread that works: for whom, and what it has left to do. -/
structure RealtimeThread where
  ownerSid : String
  left : RealtimeProgram Unit

/-- The counter, the call that has raised it and not yet started its thread, the threads, and the
tables. -/
structure RealtimeState where
  realtimeScans : UInt64
  starting : Option (String × String)
  threads : List RealtimeThread
  exclusions : Exclusions
  hashAllowlist : HashAllowlist
  scanResults : RowTable ScanRow
  history : EventHistory

/-- What the environment does in one call of a thread. -/
structure RealtimeChoice where
  fault : Fault
  key : String
  scanned : Except ScanError ScanFinding

/-- What the calls of a thread do.
Source: `main.rs`, `ServiceState::schedule_realtime_scan` -/
def realtimeAnswer (ownerSid : String) :
    Program.Handler RealtimeOp RealtimeOp.Answer RealtimeState RealtimeChoice
  | .scanFile _, choice, state => (choice.scanned, state)
  | .pathKey _, choice, state => (choice.key, state)
  | .pathExcluded key, choice, state =>
      (pathExcluded choice.fault ownerSid key state.exclusions, state)
  | .allowedHash sha256, choice, state =>
      (allowedHash choice.fault ownerSid sha256 state.hashAllowlist, state)
  | .recordScan finding, choice, state =>
      let (answer, scanResults) := recordScan choice.fault ownerSid finding state.scanResults
      (answer, { state with scanResults })
  | .recordEvent event, choice, state =>
      let (answer, history) := recordEvent choice.fault ownerSid event state.history
      (answer, { state with history })
  | .giveBack, _, state => ((), { state with realtimeScans := state.realtimeScans - 1 })

/-- What the file system says of a file: whether it is one, and its size. -/
structure FileMetadata where
  isFile : Bool
  size : UInt64
  deriving DecidableEq

/-- The size up to which a file is scanned. -/
def realtimeMaximumBytes : UInt64 := 64 * 1024 * 1024

/-- The file is one that a thread would scan. -/
def isCandidate (metadata : Option FileMetadata) : Bool :=
  metadata.any fun metadata => metadata.isFile && metadata.size ≤ realtimeMaximumBytes

/-- What can happen next: a file is scheduled, the thread for it is started or cannot be, a thread
makes its next call. -/
inductive RealtimeAction where
  | schedule (ownerSid path : String) (metadata : Option FileMetadata)
  | spawn (started : Bool)
  | call (thread : ℕ) (choice : RealtimeChoice)

/-- A thread cannot be started. -/
def RealtimeAction.isFailedSpawn : RealtimeAction → Bool
  | .spawn started => !started
  | _ => false

/-- A file gets one of the two slots, if there is one.
Source: `main.rs`, `ServiceState::schedule_realtime_scan` -/
def scheduleRealtimeScan (ownerSid path : String) (metadata : Option FileMetadata)
    (state : RealtimeState) : RealtimeState :=
  if isCandidate metadata && state.realtimeScans < 2 then
    { state with
      realtimeScans := state.realtimeScans + 1
      starting := some (ownerSid, path) }
  else state

/-- The thread for the file is started. One that cannot be started is dropped, and nobody lowers the
counter.
Source: `main.rs`, `ServiceState::schedule_realtime_scan` -/
def spawnRealtimeScan (started : Bool) (ownerSid path : String) (state : RealtimeState) :
    RealtimeState :=
  { state with
    starting := none
    threads := if started then state.threads ++ [⟨ownerSid, realtimeWorker path⟩]
      else state.threads }

/-- A thread makes its next call, and is gone after the last one. -/
def callThread (thread : ℕ) (choice : RealtimeChoice) (state : RealtimeState) :
    Option RealtimeState :=
  match state.threads[thread]? with
  | some ⟨ownerSid, .call op next⟩ =>
      let (answer, state) := realtimeAnswer ownerSid op choice state
      match next answer with
      | .ret _ => some { state with threads := state.threads.eraseIdx thread }
      | left => some { state with threads := state.threads.set thread ⟨ownerSid, left⟩ }
  | _ => none

/-- One step. The call that schedules a file is over before the next one begins. -/
def realtimeStep (state : RealtimeState) : RealtimeAction → Option RealtimeState
  | .schedule ownerSid path metadata =>
      match state.starting with
      | none => some (scheduleRealtimeScan ownerSid path metadata state)
      | some _ => none
  | .spawn started =>
      state.starting.map fun call => spawnRealtimeScan started call.1 call.2 state
  | .call thread choice => callThread thread choice state

/-- The service after its start. -/
def RealtimeState.started (exclusions : Exclusions) (hashAllowlist : HashAllowlist)
    (scanResults : RowTable ScanRow) (history : EventHistory) : RealtimeState where
  realtimeScans := 0
  starting := none
  threads := []
  exclusions
  hashAllowlist
  scanResults
  history

/-! ## The slots -/

/-- Whatever is answered, the program lowers the counter once, as its last call. -/
inductive GivesBack : RealtimeProgram Unit → Prop where
  | last (next : Unit → RealtimeProgram Unit) (h : ∃ u, next () = .ret u) :
      GivesBack (.call .giveBack next)
  | earlier (op : RealtimeOp) (next : op.Answer → RealtimeProgram Unit) (hop : op ≠ .giveBack)
      (h : ∀ answer, GivesBack (next answer)) : GivesBack (.call op next)

theorem givesBack_last : GivesBack (realtimeAsk .giveBack) := .last _ ⟨(), rfl⟩

theorem givesBack_report (path : String) (finding : ScanFinding) :
    GivesBack (reportRealtime path finding >>= fun _ => realtimeAsk .giveBack) := by
  refine .earlier _ _ nofun fun key => .earlier _ _ nofun fun excluded =>
    .earlier _ _ nofun fun allowed => ?_
  show GivesBack (Program.bind _ (if _ then _ else _))
  split_ifs
  · exact givesBack_last
  · exact .earlier _ _ nofun fun written => .earlier _ _ nofun fun reported => givesBack_last
  · exact .earlier _ _ nofun fun written => givesBack_last

/-- **A thread gives its slot back**, however its calls end. -/
theorem givesBack_realtimeWorker (path : String) : GivesBack (realtimeWorker path) := by
  refine .earlier _ _ nofun fun scanned => ?_
  cases scanned with
  | ok finding => exact givesBack_report path finding
  | error error => exact givesBack_last

/-- The slots that were taken: by threads, by the call that starts one, and for threads that could
not be started. -/
structure SlotsTaken (failed : ℕ) (state : RealtimeState) : Prop where
  counter : state.realtimeScans.toNat =
    state.threads.length + state.starting.toList.length + failed
  atMost : state.realtimeScans.toNat ≤ 2
  owed : ∀ thread ∈ state.threads, GivesBack thread.left

section slots

variable {failed : ℕ} {state after : RealtimeState} {ownerSid path : String}
  {metadata : Option FileMetadata}

/-- Only giving a slot back changes the counter. -/
theorem realtimeAnswer_other {op : RealtimeOp} (hop : op ≠ .giveBack) (choice : RealtimeChoice)
    (ownerSid : String) (state : RealtimeState) :
    (realtimeAnswer ownerSid op choice state).2.realtimeScans = state.realtimeScans ∧
      (realtimeAnswer ownerSid op choice state).2.starting = state.starting ∧
      (realtimeAnswer ownerSid op choice state).2.threads = state.threads := by
  cases op with
  | giveBack => exact absurd rfl hop
  | _ => exact ⟨rfl, rfl, rfl⟩

theorem slotsTaken_schedule (h : SlotsTaken failed state) (hidle : state.starting = none) :
    SlotsTaken failed (scheduleRealtimeScan ownerSid path metadata state) := by
  unfold scheduleRealtimeScan
  split_ifs with hroom
  · rw [Bool.and_eq_true, decide_eq_true_eq, UInt64.lt_iff_toNat_lt] at hroom
    have hnext : (state.realtimeScans + 1).toNat = state.realtimeScans.toNat + 1 := by
      rw [UInt64.toNat_add]
      refine Nat.mod_eq_of_lt ?_
      have htwo : (2 : UInt64).toNat = 2 := rfl
      have hone : (1 : UInt64).toNat = 1 := rfl
      omega
    have hcounter := h.counter
    rw [hidle, Option.toList_none, List.length_nil] at hcounter
    refine ⟨?_, hnext.trans_le hroom.2, h.owed⟩
    show (state.realtimeScans + 1).toNat = state.threads.length + 1 + failed
    omega
  · exact h

/-- A call of a thread keeps the slots, and the last one gives the slot back. -/
theorem slotsTaken_call (h : SlotsTaken failed state) {thread : ℕ} {choice : RealtimeChoice}
    (hstep : callThread thread choice state = some after) : SlotsTaken failed after := by
  unfold callThread at hstep
  cases hthread : state.threads[thread]? with
  | none =>
      rw [hthread] at hstep
      cases hstep
  | some current =>
      obtain ⟨ownerSid, left⟩ := current
      have hback := h.owed _ (List.mem_of_getElem? hthread)
      obtain ⟨hlength, -⟩ := List.getElem?_eq_some_iff.mp hthread
      rw [hthread] at hstep
      have hcounter := h.counter
      cases hback with
      | last next hdone =>
          obtain ⟨u, hu⟩ := hdone
          simp only [realtimeAnswer, hu] at hstep
          cases hstep
          have hless : (state.realtimeScans - 1).toNat = state.realtimeScans.toNat - 1 := by
            refine UInt64.toNat_sub_of_le _ _ ?_
            rw [UInt64.le_iff_toNat_le]
            show 1 ≤ state.realtimeScans.toNat
            omega
          refine ⟨?_, ?_, fun other hother => h.owed other (List.mem_of_mem_eraseIdx hother)⟩
          · show (state.realtimeScans - 1).toNat = (state.threads.eraseIdx thread).length +
              state.starting.toList.length + failed
            rw [List.length_eraseIdx_of_lt hlength, hless]
            omega
          · exact hless.trans_le ((Nat.sub_le _ _).trans h.atMost)
      | earlier op next hop hnext =>
          have hother := realtimeAnswer_other hop choice ownerSid state
          generalize hanswer : realtimeAnswer ownerSid op choice state = answered at hother
          obtain ⟨answer, middle⟩ := answered
          obtain ⟨hscans, hstarting, hthreads⟩ := hother
          have hleft := hnext answer
          simp only [hanswer] at hstep
          cases hresult : next answer with
          | ret u =>
              rw [hresult] at hleft
              cases hleft
          | call op later =>
              rw [hresult] at hstep hleft
              cases hstep
              refine ⟨?_, ?_, fun other hmem => ?_⟩
              · show middle.realtimeScans.toNat = (middle.threads.set thread _).length +
                  middle.starting.toList.length + failed
                rw [List.length_set, hscans, hstarting, hthreads, hcounter]
              · exact (congrArg UInt64.toNat hscans).trans_le h.atMost
              · obtain hmem | rfl := List.mem_or_eq_of_mem_set hmem
                · rw [hthreads] at hmem
                  exact h.owed other hmem
                · exact hleft

/-- **What a step does to the slots.** -/
theorem slotsTaken_step {action : RealtimeAction} (h : SlotsTaken failed state)
    (hstep : realtimeStep state action = some after) :
    SlotsTaken (failed + if action.isFailedSpawn then 1 else 0) after := by
  cases action with
  | schedule ownerSid path metadata =>
      unfold realtimeStep at hstep
      cases hidle : state.starting with
      | some call =>
          rw [hidle] at hstep
          cases hstep
      | none =>
          rw [hidle] at hstep
          cases hstep
          exact slotsTaken_schedule h hidle
  | spawn started =>
      obtain ⟨⟨ownerSid, path⟩, hcall, rfl⟩ := Option.map_eq_some_iff.mp hstep
      have hcounter := h.counter
      rw [hcall, Option.toList_some, List.length_singleton] at hcounter
      unfold spawnRealtimeScan
      cases started with
      | false =>
          exact ⟨hcounter.trans (by simp [RealtimeAction.isFailedSpawn]; omega), h.atMost, h.owed⟩
      | true =>
          refine ⟨hcounter.trans (by simp [RealtimeAction.isFailedSpawn]), h.atMost, ?_⟩
          intro thread hthread
          rcases List.mem_append.mp hthread with hthread | hthread
          · exact h.owed thread hthread
          · rw [List.mem_singleton.mp hthread]
            exact givesBack_realtimeWorker path
  | call thread choice => exact slotsTaken_call h hstep

end slots

/-! ## Runs -/

/-- The number of threads that could not be started. -/
def failedSpawns (actions : List RealtimeAction) : ℕ := actions.countP RealtimeAction.isFailedSpawn

/-- No slot is lost: while no thread is being started, the counter is the number of threads, at most
two, and when all threads are done, every candidate gets a slot. -/
structure SlotsKept (state : RealtimeState) : Prop where
  counter : state.starting = none → state.realtimeScans.toNat = state.threads.length
  atMost : state.starting = none → state.realtimeScans.toNat ≤ 2
  scanned : state.starting = none → state.threads = [] → ∀ ownerSid path metadata,
    isCandidate metadata = true → ∃ after,
      realtimeStep state (.schedule ownerSid path metadata) = some after ∧
        after.starting = some (ownerSid, path)

section runs

variable {exclusions : Exclusions} {hashAllowlist : HashAllowlist} {scanResults : RowTable ScanRow}
  {history : EventHistory} {actions : List RealtimeAction} {state : RealtimeState}

/-- The slots after a run. -/
theorem slotsTaken_run (hrun : run realtimeStep
    (.started exclusions hashAllowlist scanResults history) actions = some state) :
    SlotsTaken (failedSpawns actions) state := by
  have hstart : SlotsTaken 0 (.started exclusions hashAllowlist scanResults history) :=
    ⟨rfl, Nat.zero_le _, nofun⟩
  refine run_history_invariant (I := fun actions => SlotsTaken (failedSpawns actions)) hstart ?_
    hrun
  intro actions before action after hbefore hstep
  have hnext := slotsTaken_step hbefore hstep
  rwa [failedSpawns, List.countP_append, List.countP_singleton]

theorem SlotsTaken.kept (h : SlotsTaken 0 state) : SlotsKept state where
  counter hidle := by
    rw [h.counter, hidle]
    rfl
  atMost _ := h.atMost
  scanned hidle hdone ownerSid path metadata hcandidate := by
    have hcounter := h.counter
    rw [hidle, hdone] at hcounter
    have hroom : state.realtimeScans < 2 := by
      rw [UInt64.lt_iff_toNat_lt, hcounter]
      decide
    refine ⟨scheduleRealtimeScan ownerSid path metadata state, ?_, ?_⟩
    · rw [realtimeStep, hidle]
    · rw [scheduleRealtimeScan, hcandidate, decide_eq_true hroom]
      rfl

/-- After a thread could not be started, its slot is lost. -/
theorem SlotsTaken.not_kept {failed : ℕ} (h : SlotsTaken failed state)
    (hidle : state.starting = none) (hfailed : 0 < failed) : ¬SlotsKept state := by
  intro hkept
  have hcounter := h.counter
  rw [hkept.counter hidle, hidle, Option.toList_none, List.length_nil] at hcounter
  omega

theorem starting_of_failedSpawn {action : RealtimeAction} {after : RealtimeState}
    (hfailed : action.isFailedSpawn = true) (hstep : realtimeStep state action = some after) :
    after.starting = none := by
  cases action with
  | spawn started =>
      obtain ⟨call, -, rfl⟩ := Option.map_eq_some_iff.mp hstep
      rfl
  | schedule ownerSid path metadata => cases hfailed
  | call thread choice => cases hfailed

end runs

/-- **The slots of a run**: none is lost at any moment, just when every thread could be started. -/
theorem realtime_slots_iff (exclusions : Exclusions) (hashAllowlist : HashAllowlist)
    (scanResults : RowTable ScanRow) (history : EventHistory) (actions : List RealtimeAction)
    (hruns : (run realtimeStep (.started exclusions hashAllowlist scanResults history)
      actions).isSome) :
    (∀ past rest state, actions = past ++ rest →
        run realtimeStep (.started exclusions hashAllowlist scanResults history) past = some state →
          SlotsKept state) ↔
      ∀ action ∈ actions, action.isFailedSpawn = false := by
  constructor
  · intro hkept action haction
    by_contra hfailed
    rw [Bool.not_eq_false] at hfailed
    obtain ⟨past, rest, rfl⟩ := List.append_of_mem haction
    rw [List.append_cons] at hruns hkept
    obtain ⟨last, hlast⟩ := Option.isSome_iff_exists.mp hruns
    obtain ⟨state, hpast, -⟩ := run_append_eq_some.mp hlast
    have htaken := slotsTaken_run hpast
    have hcount : 0 < failedSpawns (past ++ [action]) :=
      List.countP_pos_iff.mpr ⟨action, List.mem_append_right _ List.mem_cons_self, hfailed⟩
    obtain ⟨before, -, hlast⟩ := run_append_eq_some.mp hpast
    obtain ⟨after, hspawn, hafter⟩ := run_cons_eq_some.mp hlast
    obtain rfl := Option.some.inj hafter
    exact htaken.not_kept (starting_of_failedSpawn hfailed hspawn) hcount
      (hkept (past ++ [action]) rest after rfl hpast)
  · intro hstarted past rest state hsplit hrun
    have hnone : failedSpawns past = 0 := by
      refine List.countP_eq_zero.mpr fun action haction => ?_
      rw [hstarted action (by rw [hsplit]; exact List.mem_append_left _ haction)]
      exact Bool.false_ne_true
    have htaken := slotsTaken_run hrun
    rw [hnone] at htaken
    exact htaken.kept

/-- The service after its start, on empty tables. -/
def idleState : RealtimeState := .started ∅ ∅ .empty ⟨.empty, .empty⟩

/-- A file that is scanned. -/
def candidateFile : RealtimeAction :=
  .schedule "S-1" "C:\\files\\a.exe" (some ⟨true, 4⟩)

theorem realtime_slots_iff_started :
    (∀ past rest state, [candidateFile, .spawn true] = past ++ rest →
        run realtimeStep idleState past = some state → SlotsKept state) ↔
      ∀ action ∈ [candidateFile, .spawn true], action.isFailedSpawn = false :=
  realtime_slots_iff ∅ ∅ .empty ⟨.empty, .empty⟩ [candidateFile, .spawn true] rfl

/-- **Slots that are lost**: two threads could not be started, and the next file is passed over. -/
theorem slots_lost : ∃ state,
    run realtimeStep idleState [candidateFile, .spawn false, candidateFile, .spawn false] =
        some state ∧
      state.threads = [] ∧ ¬SlotsKept state ∧ realtimeStep state candidateFile = some state :=
  ⟨{ idleState with realtimeScans := 2 }, rfl, rfl,
    fun h => absurd (h.counter rfl) (by decide), rfl⟩

end OpenGuard.Service
