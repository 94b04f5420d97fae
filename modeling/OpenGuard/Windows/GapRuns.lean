import OpenGuard.Lib.Run
import OpenGuard.Windows.BaselineRuns

/-!
# Gaps over a run

The callbacks of the watcher and the baseline thread work while `drain` runs, and what they share with
it are the queue, the counter of the dropped activities, and the channel of the baseline. `drain` looks
at each of these once, one after the other.

* `monitorStep`: one access to what is shared; `run_drain` and `run_enqueueEvent` say that the accesses
  of a call, one after the other, are the call.
* `gapOpen`: an activity was dropped, or the journal changed, since the last reconciling enumeration
  began.
* `no_gap_forgotten`: in every run, an open gap is known to the monitor whenever no drain is going on,
  and a drain that finds one and has the baseline reconciles.
-/

namespace OpenGuard.Windows

open OpenGuard.Lib

/-! ## What happens in a run -/

/-- What happens to the monitor, as far as gaps are concerned: an activity is counted as dropped, a
drain reads the counter, the volume answers what its journal is, the enumeration of a reconciliation
begins, and a drain returns, with or without a baseline. -/
inductive MonitorEvent where
  | dropped
  | sampled
  | answered (journal : Option UsnCheckpoint)
  | enumerated
  | drained (ready : Bool) (snapshot : FileMonitorSnapshot)
  deriving DecidableEq

/-- The journal as the volume last told it; the events are listed from the latest on. -/
def lastAnswer : List MonitorEvent → Option UsnCheckpoint
  | [] => none
  | .answered journal :: earlier => journal.or (lastAnswer earlier)
  | _ :: earlier => lastAnswer earlier

/-- An event opens a gap: an activity was dropped, or the volume tells of another journal than last
time, or of one that has lost records since. -/
def opensGap (earlier : List MonitorEvent) : MonitorEvent → Bool
  | .dropped => true
  | .answered journal => journalChanged (lastAnswer earlier) journal
  | _ => false

/-- A gap was opened, and no enumeration has begun since. -/
def gapOpen : List MonitorEvent → Bool
  | [] => false
  | .dropped :: _ => true
  | .answered journal :: earlier => journalChanged (lastAnswer earlier) journal || gapOpen earlier
  | .enumerated :: _ => false
  | _ :: earlier => gapOpen earlier

/-- The drain that is going on finds a gap: one was open when it read the counter, or the volume has
told it of a change of the journal. -/
def gapFound : List MonitorEvent → Bool
  | [] => false
  | .sampled :: earlier => gapOpen earlier
  | .answered journal :: earlier => journalChanged (lastAnswer earlier) journal || gapFound earlier
  | _ :: earlier => gapFound earlier

/-- The drain that is going on has begun an enumeration after it read the counter. -/
def enumeratedSince : List MonitorEvent → Bool
  | [] => false
  | .sampled :: _ => false
  | .enumerated :: _ => true
  | _ :: earlier => enumeratedSince earlier

/-! ## The steps -/

/-- How far a drain is, with its local values: it takes notifications, looks for the baseline, reads
the counter, asks for the journal, decides, and perhaps enumerates.
Source: `file_monitor.rs`, `FileMonitor::drain` -/
inductive DrainPhase where
  | idle
  | receiving (limit : ℕ) (events : List FileActivity)
  | received (limit : ℕ) (events : List FileActivity)
  | based (limit : ℕ) (events : List FileActivity)
  | sampled (limit : ℕ) (events : List FileActivity) (dropped : ℕ)
  | decided (limit : ℕ) (events : List FileActivity) (dropped : ℕ) (current : Option UsnCheckpoint)
      (changed : Bool)
  | enumerating (limit : ℕ) (events : List FileActivity) (dropped : ℕ)
      (current : Option UsnCheckpoint) (changed : Bool)
  deriving DecidableEq

/-- A monitor with the threads around it: the activities that the callback has still to send, whether
it has to count one that was refused, how far the drain is, whether the baseline thread is done, and
what has happened. -/
structure MonitorRun where
  monitor : FileMonitor
  sending : List FileActivity
  refused : Bool
  phase : DrainPhase
  sent : Bool
  log : List MonitorEvent

/-- A callback begins, sends its next activity, counts one that was refused; or the watcher reports an
error; the baseline thread is done; `drain` is called, and makes its next access. -/
inductive MonitorAction where
  | notify (now : String) (kind : EventKind) (paths : List String)
  | send
  | count
  | failed
  | baseline (found : Fingerprints)
  | call (limit : ℕ)
  | proceed (fs : FileSystem) (order : IterOrder String FileFingerprint) (now : String)

/-- The activities that a callback sends.
Source: `file_monitor.rs`, `enqueue_event` -/
def activities (now : String) (kind : EventKind) (paths : List String) : List FileActivity :=
  match kind.action with
  | none => []
  | some action => paths.map fun path => ⟨action, path, "read_directory_changes", now⟩

/-- One more activity is dropped.
Source: `file_monitor.rs`, `enqueue_event` and `FileMonitor::start` -/
def MonitorRun.countDropped (state : MonitorRun) : MonitorRun :=
  { state with
    monitor := { state.monitor with dropped := state.monitor.dropped + 1 }
    refused := false
    log := .dropped :: state.log }

/-- A gap that is seen is pending until it is reconciled.
Source: `file_monitor.rs`, `FileMonitor::drain` -/
def noteGap (dropped : ℕ) (changed : Bool) (monitor : FileMonitor) : FileMonitor :=
  if monitor.previousDropped < dropped ∨ changed then { monitor with pendingReconcile := true }
  else monitor

/-- What a drain without a reconciliation does with the notifications.
Source: `file_monitor.rs`, `FileMonitor::drain` -/
def keepEvents (fs : FileSystem) (events : List FileActivity) (monitor : FileMonitor) :
    FileMonitor :=
  if monitor.baselineReady then
    { monitor with baseline := updateBaseline fs monitor.baseline events }
  else
    { monitor with
      prebaselineEvents := monitor.prebaselineEvents ++
        events.take (4096 - monitor.prebaselineEvents.length) }

/-- What is left of a drain that has noted the gaps.
Source: `file_monitor.rs`, `FileMonitor::drain` -/
def finishDrain (fs : FileSystem) (order : IterOrder String FileFingerprint) (now : String)
    (limit : ℕ) (events : List FileActivity) (dropped : ℕ) (current : Option UsnCheckpoint)
    (changed : Bool) (monitor : FileMonitor) : FileMonitorSnapshot × FileMonitor :=
  let checkpoint := current.or monitor.checkpoint
  if monitor.pendingReconcile && monitor.baselineReady then
    let (found, reconciled) := reconcile fs order now (limit - events.length) monitor
    (⟨events ++ found, dropped, true, changed, checkpoint⟩,
      { reconciled with pendingReconcile := false, previousDropped := dropped, checkpoint })
  else
    (⟨events, dropped, false, changed, checkpoint⟩,
      { keepEvents fs events monitor with previousDropped := dropped, checkpoint })

/-- The drain returns.
Source: `file_monitor.rs`, `FileMonitor::drain` -/
def MonitorRun.returned (state : MonitorRun) (result : FileMonitorSnapshot × FileMonitor) :
    MonitorRun :=
  { state with
    monitor := result.2
    phase := .idle
    log := .drained result.2.baselineReady result.1 :: state.log }

/-- The next access of the drain to what is shared.
Source: `file_monitor.rs`, `FileMonitor::drain` -/
def proceed (fs : FileSystem) (order : IterOrder String FileFingerprint) (now : String)
    (state : MonitorRun) : Option MonitorRun :=
  let monitor := state.monitor
  match state.phase with
  | .idle => none
  | .receiving limit events =>
      match monitor.queue with
      | activity :: rest =>
          if events.length < clampLimit limit then
            some { state with
              monitor := { monitor with queue := rest }
              phase := .receiving limit (events ++ [activity]) }
          else some { state with phase := .received limit events }
      | [] => some { state with phase := .received limit events }
  | .received limit events =>
      some { state with monitor := receiveBaseline fs monitor, phase := .based limit events }
  | .based limit events =>
      some { state with phase := .sampled limit events monitor.dropped, log := .sampled :: state.log }
  | .sampled limit events dropped =>
      let current := monitor.roots.head?.bind fs.usnCheckpoint
      let changed := journalChanged monitor.checkpoint current
      some { state with
        monitor := noteGap dropped changed monitor
        phase := .decided limit events dropped current changed
        log := .answered current :: state.log }
  | .decided limit events dropped current changed =>
      if monitor.pendingReconcile && monitor.baselineReady then
        some { state with
          phase := .enumerating limit events dropped current changed
          log := .enumerated :: state.log }
      else
        some (state.returned
          (finishDrain fs order now limit events dropped current changed monitor))
  | .enumerating limit events dropped current changed =>
      some (state.returned (finishDrain fs order now limit events dropped current changed monitor))

/-- One step of a run. The watcher calls back from one thread, and `drain` has the monitor for
itself. -/
def monitorStep (state : MonitorRun) : MonitorAction → Option MonitorRun
  | .notify now kind paths =>
      if state.sending = [] ∧ state.refused = false then
        some { state with sending := activities now kind paths }
      else none
  | .send =>
      match state.sending with
      | [] => none
      | activity :: rest =>
          if state.refused then none
          else if state.monitor.queue.length < fileEventCapacity then
            some { state with
              monitor := { state.monitor with queue := state.monitor.queue ++ [activity] }
              sending := rest }
          else some { state with sending := rest, refused := true }
  | .count => if state.refused then some state.countDropped else none
  | .failed => if state.sending = [] ∧ state.refused = false then some state.countDropped else none
  | .baseline found =>
      if state.sent then none
      else some { state with
        monitor := { state.monitor with baselineReceiver := some found }
        sent := true }
  | .call limit =>
      if state.phase = .idle then some { state with phase := .receiving limit [] } else none
  | .proceed fs order now => proceed fs order now state

/-- A monitor that has just started, and has asked for the journal.
Source: `file_monitor.rs`, `FileMonitor::start` -/
def MonitorRun.started (fs : FileSystem) (roots : List String) : MonitorRun where
  monitor := .started fs roots
  sending := []
  refused := false
  phase := .idle
  sent := false
  log := [.answered (roots.head?.bind fs.usnCheckpoint)]

/-! ## Whole calls -/

section calls

variable {state : MonitorRun} {fs : FileSystem} {order : IterOrder String FileFingerprint}
  {now : String} {limit : ℕ} {events : List FileActivity}

/-- The accesses of a callback that nothing comes between send what it has to send. -/
theorem run_sending (hrefused : state.refused = false) :
    ∃ actions log, run monitorStep state actions =
      some { state with
        monitor := state.sending.foldl trySend state.monitor
        sending := []
        log := log ++ state.log } := by
  obtain ⟨monitor, sending, refused, phase, sent, log⟩ := state
  obtain rfl : refused = false := hrefused
  induction sending generalizing monitor log with
  | nil => exact ⟨[], [], rfl⟩
  | cons activity rest ih =>
      by_cases hroom : monitor.queue.length < fileEventCapacity
      · obtain ⟨actions, later, hrun⟩ := ih (trySend monitor activity) log
        have hsend : monitorStep ⟨monitor, activity :: rest, false, phase, sent, log⟩ .send =
            some ⟨trySend monitor activity, rest, false, phase, sent, log⟩ := by
          simp [monitorStep, trySend, hroom]
        exact ⟨.send :: actions, later, run_cons_eq_some.mpr ⟨_, hsend, hrun⟩⟩
      · obtain ⟨actions, later, hrun⟩ := ih (trySend monitor activity) (.dropped :: log)
        have hsend : monitorStep ⟨monitor, activity :: rest, false, phase, sent, log⟩ .send =
            some ⟨monitor, rest, true, phase, sent, log⟩ := by
          simp [monitorStep, hroom]
        have hcount : monitorStep ⟨monitor, rest, true, phase, sent, log⟩ .count =
            some ⟨trySend monitor activity, rest, false, phase, sent, .dropped :: log⟩ := by
          simp [monitorStep, MonitorRun.countDropped, trySend, hroom]
        refine ⟨.send :: .count :: actions, later ++ [.dropped], ?_⟩
        rw [run_cons_eq_some]
        refine ⟨_, hsend, run_cons_eq_some.mpr ⟨_, hcount, ?_⟩⟩
        rw [hrun]
        simp

/-- **A callback that nothing comes between is `enqueue_event`.** -/
theorem run_enqueueEvent (kind : EventKind) (paths : List String) (hsending : state.sending = [])
    (hrefused : state.refused = false) :
    ∃ actions log, run monitorStep state (.notify now kind paths :: actions) =
      some { state with
        monitor := enqueueEvent now kind paths state.monitor
        log := log ++ state.log } := by
  obtain ⟨actions, log, hrun⟩ :=
    @run_sending { state with sending := activities now kind paths } hrefused
  have hnotify : monitorStep state (.notify now kind paths) =
      some { state with sending := activities now kind paths } :=
    if_pos ⟨hsending, hrefused⟩
  have hsent : (activities now kind paths).foldl trySend state.monitor =
      enqueueEvent now kind paths state.monitor := by
    unfold activities enqueueEvent
    cases kind.action with
    | none => rfl
    | some action => exact List.foldl_map
  refine ⟨actions, log, run_cons_eq_some.mpr ⟨_, hnotify, ?_⟩⟩
  rw [hrun, hsent, ← hsending]

/-- A drain that nothing comes between takes the notifications from the queue. -/
theorem run_receiving (hphase : state.phase = .receiving limit events) :
    ∃ n, run monitorStep state (List.replicate n (.proceed fs order now)) =
      some { state with
        monitor := { state.monitor with
          queue := state.monitor.queue.drop (clampLimit limit - events.length) }
        phase := .received limit
          (events ++ state.monitor.queue.take (clampLimit limit - events.length)) } := by
  obtain ⟨monitor, sending, refused, phase, sent, log⟩ := state
  obtain rfl : phase = .receiving limit events := hphase
  obtain ⟨queue, dropped, roots, baseline, receiver, ready, prebaseline, pending, previous,
    checkpoint⟩ := monitor
  induction queue generalizing events with
  | nil => exact ⟨1, by simp [run, monitorStep, proceed]⟩
  | cons activity rest ih =>
      by_cases hroom : events.length < clampLimit limit
      · obtain ⟨n, hrun⟩ := @ih (events ++ [activity])
        have hleft : clampLimit limit - events.length =
            clampLimit limit - (events ++ [activity]).length + 1 := by
          rw [List.length_append, List.length_singleton]
          omega
        refine ⟨n + 1, ?_⟩
        rw [List.replicate_succ, run_cons_eq_some]
        refine ⟨_, by simp only [monitorStep, proceed, if_pos hroom]; rfl, ?_⟩
        rw [hrun, hleft, List.drop_succ_cons, List.take_succ_cons, List.append_assoc]
        rfl
      · have hleft : clampLimit limit - events.length = 0 := by omega
        exact ⟨1, by simp [run, monitorStep, proceed, hroom, hleft]⟩

/-- A drain, access by access. -/
theorem drain_eq (monitor : FileMonitor) :
    drain fs order now limit monitor =
      let based := receiveBaseline fs
        { monitor with queue := monitor.queue.drop (clampLimit limit) }
      let current := based.roots.head?.bind fs.usnCheckpoint
      let changed := journalChanged based.checkpoint current
      finishDrain fs order now limit (monitor.queue.take (clampLimit limit)) based.dropped current
        changed (noteGap based.dropped changed based) := by
  unfold drain finishDrain
  dsimp only
  set based := receiveBaseline fs { monitor with queue := monitor.queue.drop (clampLimit limit) }
  set current := based.roots.head?.bind fs.usnCheckpoint
  set changed := journalChanged based.checkpoint current
  rw [← noteGap]
  set noted := noteGap based.dropped changed based
  by_cases hdue : (noted.pendingReconcile && noted.baselineReady) = true
  · simp only [hdue, if_true]
    rfl
  · rw [Bool.not_eq_true] at hdue
    simp only [hdue, Bool.false_eq_true, if_false, keepEvents]
    by_cases hready : noted.baselineReady = true
    · simp only [if_pos hready]
    · simp only [if_neg hready]

/-- The accesses of a drain after it has taken the notifications. -/
theorem run_received (hphase : state.phase = .received limit events) :
    let based := receiveBaseline fs state.monitor
    let current := based.roots.head?.bind fs.usnCheckpoint
    let changed := journalChanged based.checkpoint current
    ∃ n log, run monitorStep state (List.replicate n (.proceed fs order now)) =
      some ({ state with log }.returned (finishDrain fs order now limit events based.dropped
        current changed (noteGap based.dropped changed based))) := by
  obtain ⟨monitor, sending, refused, phase, sent, log⟩ := state
  obtain rfl : phase = .received limit events := hphase
  intro based current changed
  have hshared : run monitorStep ⟨monitor, sending, refused, .received limit events, sent, log⟩
      (List.replicate 3 (.proceed fs order now)) =
      some ⟨noteGap based.dropped changed based, sending, refused,
        .decided limit events based.dropped current changed, sent,
        .answered current :: .sampled :: log⟩ := rfl
  set noted := noteGap based.dropped changed based
  by_cases hdue : (noted.pendingReconcile && noted.baselineReady) = true
  · refine ⟨3 + 2, .enumerated :: .answered current :: .sampled :: log, ?_⟩
    rw [List.replicate_add, run_append_eq_some]
    refine ⟨_, hshared, ?_⟩
    simp only [List.replicate, run, monitorStep, proceed, hdue, if_true, Option.bind_some]
    rfl
  · refine ⟨3 + 1, .answered current :: .sampled :: log, ?_⟩
    rw [List.replicate_add, run_append_eq_some]
    refine ⟨_, hshared, ?_⟩
    simp only [List.replicate, run, monitorStep, proceed, hdue, Bool.false_eq_true, if_false,
      Option.bind_some]
    rfl

/-- **A drain that nothing comes between is `drain`.** -/
theorem run_drain (hphase : state.phase = .idle) :
    ∃ n log, run monitorStep state (.call limit :: List.replicate n (.proceed fs order now)) =
      some ({ state with log }.returned (drain fs order now limit state.monitor)) := by
  have hcall : monitorStep state (.call limit) = some { state with phase := .receiving limit [] } :=
    if_pos hphase
  obtain ⟨taken, htaken⟩ := @run_receiving { state with phase := .receiving limit [] } fs order now
    limit [] rfl
  obtain ⟨rest, log, hrest⟩ := @run_received { state with
      monitor := { state.monitor with queue := state.monitor.queue.drop (clampLimit limit) }
      phase := .received limit (state.monitor.queue.take (clampLimit limit)) }
    fs order now limit _ rfl
  refine ⟨taken + rest, log, ?_⟩
  rw [run_cons_eq_some]
  refine ⟨_, hcall, ?_⟩
  rw [List.replicate_add, run_append_eq_some, drain_eq]
  exact ⟨_, htaken, hrest⟩

end calls

/-! ## What a run remembers -/

/-- The counter that the monitor will compare the next reading with.
Source: `file_monitor.rs`, `FileMonitor::drain` -/
def DrainPhase.read (previous : ℕ) : DrainPhase → ℕ
  | .sampled _ _ dropped | .decided _ _ dropped _ _ | .enumerating _ _ dropped _ _ => dropped
  | _ => previous

/-- The monitor knows of a gap that no enumeration has dealt with. -/
def DrainPhase.flagged (monitor : FileMonitor) : DrainPhase → Bool
  | .sampled _ _ dropped => monitor.pendingReconcile || decide (monitor.previousDropped < dropped)
  | .enumerating .. => false
  | _ => monitor.pendingReconcile

/-- The journal that the monitor will compare the next answer with. -/
def DrainPhase.told (checkpoint : Option UsnCheckpoint) : DrainPhase → Option UsnCheckpoint
  | .decided _ _ _ current _ | .enumerating _ _ _ current _ => current.or checkpoint
  | _ => checkpoint

/-- The drain has read the counter and begun no enumeration. -/
def DrainPhase.looksForGaps : DrainPhase → Bool
  | .sampled .. | .decided .. => true
  | _ => false

def DrainPhase.enumerates : DrainPhase → Bool
  | .enumerating .. => true
  | _ => false

/-- What holds in a run, whatever the threads do. -/
structure Remembers (state : MonitorRun) : Prop where
  told : state.phase.told state.monitor.checkpoint = lastAnswer state.log
  below : state.phase.read state.monitor.previousDropped ≤ state.monitor.dropped
  known : gapOpen state.log = true → state.phase.flagged state.monitor = true ∨
    state.phase.read state.monitor.previousDropped < state.monitor.dropped
  found : state.phase.looksForGaps = true → gapFound state.log = true →
    state.phase.flagged state.monitor = true
  due : state.phase.enumerates = true → state.monitor.pendingReconcile = true ∧
    state.monitor.baselineReady = true ∧ enumeratedSince state.log = true
  first : state.phase.enumerates = false → .enumerated ∈ state.log →
    ∃ snapshot, .drained true snapshot ∈ state.log

/-- Each drain that has the baseline and finds a gap reconciles, with an enumeration after it has read
the counter; and there is no enumeration before a drain that has the baseline. -/
structure DrainsReconcile (log : List MonitorEvent) : Prop where
  reconciles : ∀ snapshot earlier, .drained true snapshot :: earlier <:+ log →
    gapFound earlier = true → snapshot.reconciled = true
  enumerates : ∀ ready snapshot earlier, .drained ready snapshot :: earlier <:+ log →
    snapshot.reconciled = true → enumeratedSince earlier = true
  first : ∀ earlier, .sampled :: earlier <:+ log → .enumerated ∈ earlier →
    ∃ snapshot, .drained true snapshot ∈ earlier

/-- Two points of a drain at which the monitor knows the same of gaps. -/
structure DrainPhase.SameView (phase other : DrainPhase) : Prop where
  read : ∀ previous, phase.read previous = other.read previous
  flagged : ∀ monitor, phase.flagged monitor = other.flagged monitor
  told : ∀ checkpoint, phase.told checkpoint = other.told checkpoint
  looksForGaps : phase.looksForGaps = other.looksForGaps
  enumerates : phase.enumerates = other.enumerates

section remembers

variable {state after : MonitorRun} {action : MonitorAction} {fs : FileSystem}
  {order : IterOrder String FileFingerprint} {now : String} {limit dropped : ℕ}
  {events : List FileActivity} {current : Option UsnCheckpoint} {changed : Bool}
  {monitor : FileMonitor} {log : List MonitorEvent} {event : MonitorEvent}

/-- What is left of a drain changes what is known of gaps only. -/
theorem finishDrain_rest :
    let result := finishDrain fs order now limit events dropped current changed monitor
    result.2.dropped = monitor.dropped ∧ result.2.previousDropped = dropped ∧
      result.2.checkpoint = current.or monitor.checkpoint ∧
      result.2.baselineReady = monitor.baselineReady ∧
      result.2.pendingReconcile = (monitor.pendingReconcile && !monitor.baselineReady) ∧
      result.1.reconciled = (monitor.pendingReconcile && monitor.baselineReady) := by
  unfold finishDrain keepEvents reconcile
  cases monitor.pendingReconcile <;> cases monitor.baselineReady <;> simp

theorem noteGap_rest :
    (noteGap dropped changed monitor).dropped = monitor.dropped ∧
      (noteGap dropped changed monitor).previousDropped = monitor.previousDropped ∧
      (noteGap dropped changed monitor).checkpoint = monitor.checkpoint ∧
      (noteGap dropped changed monitor).pendingReconcile =
        (monitor.pendingReconcile || decide (monitor.previousDropped < dropped) || changed) := by
  unfold noteGap
  split_ifs with hgap
  · rcases hgap with hlost | hchanged
    · simp [hlost]
    · simp [hchanged]
  · rw [not_or, Bool.not_eq_true] at hgap
    simp [hgap.1, hgap.2]

/-- An event that is no return of a drain and no reading of the counter leaves what is said of
drains. -/
theorem DrainsReconcile.cons (h : DrainsReconcile log)
    (hdrained : ∀ ready snapshot, event = .drained ready snapshot →
      (ready = true → gapFound log = true → snapshot.reconciled = true) ∧
        (snapshot.reconciled = true → enumeratedSince log = true))
    (hsampled : event = .sampled → .enumerated ∈ log → ∃ snapshot, .drained true snapshot ∈ log) :
    DrainsReconcile (event :: log) where
  reconciles snapshot earlier hsuffix hgap := by
    obtain heq | hsuffix := List.suffix_cons_iff.mp hsuffix
    · obtain ⟨rfl, rfl⟩ := List.cons.inj heq
      exact (hdrained _ _ rfl).1 rfl hgap
    · exact h.reconciles snapshot earlier hsuffix hgap
  enumerates ready snapshot earlier hsuffix hreconciled := by
    obtain heq | hsuffix := List.suffix_cons_iff.mp hsuffix
    · obtain ⟨rfl, rfl⟩ := List.cons.inj heq
      exact (hdrained _ _ rfl).2 hreconciled
    · exact h.enumerates ready snapshot earlier hsuffix hreconciled
  first earlier hsuffix hmem := by
    obtain heq | hsuffix := List.suffix_cons_iff.mp hsuffix
    · obtain ⟨rfl, rfl⟩ := List.cons.inj heq
      exact hsampled rfl hmem
    · exact h.first earlier hsuffix hmem

/-- A step that does not concern gaps. -/
theorem Remembers.of_same (h : Remembers state) (hlog : after.log = state.log)
    (hphase : after.phase.SameView state.phase)
    (hdropped : after.monitor.dropped = state.monitor.dropped)
    (hprevious : after.monitor.previousDropped = state.monitor.previousDropped)
    (hcheckpoint : after.monitor.checkpoint = state.monitor.checkpoint)
    (hpending : after.monitor.pendingReconcile = state.monitor.pendingReconcile)
    (hready : state.phase.enumerates = true →
      after.monitor.baselineReady = state.monitor.baselineReady) : Remembers after := by
  obtain ⟨hread, hflagged, htells, hlooks, henumerates⟩ := hphase
  have hflag : after.phase.flagged after.monitor = state.phase.flagged state.monitor := by
    rw [hflagged]
    cases state.phase <;> simp [DrainPhase.flagged, hpending, hprevious]
  obtain ⟨htold, hbelow, hknown, hfound, hdue, hfirst⟩ := h
  constructor
  · rw [htells, hcheckpoint, hlog, htold]
  · rw [hread, hprevious, hdropped]
    exact hbelow
  · rw [hflag, hread, hprevious, hdropped, hlog]
    exact hknown
  · rw [hflag, hlooks, hlog]
    exact hfound
  · rw [henumerates, hpending, hlog]
    intro hnow
    rw [hready hnow]
    exact hdue hnow
  · rw [henumerates, hlog]
    exact hfirst

/-- One more activity is dropped. -/
theorem Remembers.countDropped (h : Remembers state) : Remembers state.countDropped := by
  obtain ⟨htold, hbelow, hknown, hfound, hdue, hfirst⟩ := h
  exact ⟨htold, Nat.le_succ_of_le hbelow, fun _ => .inr (Nat.lt_succ_of_le hbelow), hfound, hdue,
    fun hphase hmem => by
      obtain ⟨snapshot, hdrained⟩ := hfirst hphase (List.mem_of_ne_of_mem (by simp) hmem)
      exact ⟨snapshot, List.mem_cons_of_mem _ hdrained⟩⟩

/-- The drain returns: what it has found is reconciled or pending. -/
theorem Remembers.returned (h : Remembers state)
    (hphase : state.phase = .enumerating limit events dropped current changed ∨
      state.phase = .decided limit events dropped current changed ∧
        (state.monitor.pendingReconcile && state.monitor.baselineReady) = false)
    (hlog : DrainsReconcile state.log) :
    Remembers (state.returned
        (finishDrain fs order now limit events dropped current changed state.monitor)) ∧
      DrainsReconcile (state.returned
        (finishDrain fs order now limit events dropped current changed state.monitor)).log := by
  obtain ⟨hdropped, hprevious, hcheckpoint, hready, hpending, hreconciled⟩ :=
    @finishDrain_rest fs order now limit dropped events current changed state.monitor
  set result := finishDrain fs order now limit events dropped current changed state.monitor
  obtain ⟨htold, hbelow, hknown, hfound, hdue, hfirst⟩ := h
  obtain hphase | ⟨hphase, hnot⟩ := hphase
  · rw [hphase] at htold hbelow hknown hdue
    obtain ⟨hwas, hhas, hsince⟩ := hdue rfl
    rw [hwas, hhas] at hpending hreconciled
    refine ⟨⟨?_, ?_, ?_, nofun, nofun, ?_⟩, hlog.cons ?_ nofun⟩
    · exact hcheckpoint.trans htold
    · exact hprevious.le.trans (hbelow.trans hdropped.ge)
    · intro hgap
      obtain hflagged | hlater := hknown hgap
      · cases hflagged
      · exact .inr (by rw [MonitorRun.returned, hdropped]; exact hprevious.trans_lt hlater)
    · intro _ _
      exact ⟨result.1, by rw [MonitorRun.returned, hready, hhas]; exact List.mem_cons_self⟩
    · intro ready snapshot heq
      obtain ⟨rfl, rfl⟩ := MonitorEvent.drained.inj heq
      exact ⟨fun _ _ => hreconciled, fun _ => hsince⟩
  · rw [hphase] at htold hbelow hknown hfound hfirst
    rw [hnot] at hreconciled
    have hsame : result.2.pendingReconcile = state.monitor.pendingReconcile := by
      rw [hpending]
      revert hnot
      cases state.monitor.pendingReconcile <;> cases state.monitor.baselineReady <;> simp
    refine ⟨⟨?_, ?_, ?_, nofun, nofun, ?_⟩, hlog.cons ?_ nofun⟩
    · exact hcheckpoint.trans htold
    · exact hprevious.le.trans (hbelow.trans hdropped.ge)
    · intro hgap
      obtain hflagged | hlater := hknown hgap
      · exact .inl (hsame.trans hflagged)
      · exact .inr (by rw [MonitorRun.returned, hdropped]; exact hprevious.trans_lt hlater)
    · intro _ hmem
      obtain ⟨snapshot, hdrained⟩ := hfirst rfl (List.mem_of_ne_of_mem (by simp) hmem)
      exact ⟨snapshot, List.mem_cons_of_mem _ hdrained⟩
    · intro ready snapshot heq
      obtain ⟨rfl, rfl⟩ := MonitorEvent.drained.inj heq
      refine ⟨fun hhas hgap => ?_, fun htrue => ?_⟩
      · have hflag : state.monitor.pendingReconcile = true := hfound rfl hgap
        rw [hflag, ← hready, hhas] at hnot
        cases hnot
      · rw [hreconciled] at htrue
        cases htrue

/-- One access of the drain. -/
theorem remembers_proceed (h : Remembers state) (hlog : DrainsReconcile state.log)
    (hstep : proceed fs order now state = some after) :
    Remembers after ∧ DrainsReconcile after.log := by
  have hkeep := h
  obtain ⟨htold, hbelow, hknown, hfound, hdue, hfirst⟩ := h
  unfold proceed at hstep
  cases hphase : state.phase with
  | idle =>
      rw [hphase] at hstep
      cases hstep
  | receiving limit events =>
      have hview {phase : DrainPhase} (hbefore : (∃ taken, phase = .receiving limit taken) ∨
          phase = .received limit events) : phase.SameView state.phase := by
        rw [hphase]
        obtain ⟨_, rfl⟩ | rfl := hbefore
        · exact ⟨fun _ => rfl, fun _ => rfl, fun _ => rfl, rfl, rfl⟩
        · exact ⟨fun _ => rfl, fun _ => rfl, fun _ => rfl, rfl, rfl⟩
      rw [hphase] at hstep
      dsimp only at hstep
      cases hqueue : state.monitor.queue with
      | nil =>
          rw [hqueue] at hstep
          obtain rfl := Option.some.inj hstep
          exact ⟨hkeep.of_same rfl (hview (.inr rfl)) rfl rfl rfl rfl fun _ => rfl, hlog⟩
      | cons activity rest =>
          rw [hqueue] at hstep
          dsimp only at hstep
          split_ifs at hstep
          · obtain rfl := Option.some.inj hstep
            exact ⟨hkeep.of_same rfl (hview (.inl ⟨_, rfl⟩)) rfl rfl rfl rfl fun _ => rfl, hlog⟩
          · obtain rfl := Option.some.inj hstep
            exact ⟨hkeep.of_same rfl (hview (.inr rfl)) rfl rfl rfl rfl fun _ => rfl, hlog⟩
  | received limit events =>
      rw [hphase] at hstep
      obtain rfl := Option.some.inj hstep
      obtain ⟨-, hdropped, hprevious, hcheckpoint, hpending⟩ := receiveBaseline_rest fs state.monitor
      exact ⟨hkeep.of_same rfl
        (hphase ▸ ⟨fun _ => rfl, fun _ => rfl, fun _ => rfl, rfl, rfl⟩)
        hdropped hprevious hcheckpoint hpending (by rw [hphase]; nofun), hlog⟩
  | based limit events =>
      rw [hphase] at hstep htold hbelow hknown hfirst
      obtain rfl := Option.some.inj hstep
      have hflagged (hgap : gapOpen state.log = true) : (state.monitor.pendingReconcile ||
          decide (state.monitor.previousDropped < state.monitor.dropped)) = true := by
        obtain hpending | hlost := hknown hgap
        · exact Bool.or_eq_true_iff.mpr (.inl hpending)
        · exact Bool.or_eq_true_iff.mpr (.inr (decide_eq_true hlost))
      refine ⟨⟨htold, le_rfl, fun hgap => .inl (hflagged hgap), fun _ hgap => hflagged hgap, nofun,
        fun _ hmem => ?_⟩, hlog.cons nofun fun _ => hfirst rfl⟩
      obtain ⟨snapshot, hdrained⟩ := hfirst rfl (List.mem_of_ne_of_mem (by simp) hmem)
      exact ⟨snapshot, List.mem_cons_of_mem _ hdrained⟩
  | sampled limit events dropped =>
      rw [hphase] at hstep htold hbelow hknown hfound hfirst
      obtain rfl := Option.some.inj hstep
      set current := state.monitor.roots.head?.bind fs.usnCheckpoint
      set changed := journalChanged state.monitor.checkpoint current with hchanged
      obtain ⟨hdropped, hprevious, hcheckpoint, hpending⟩ :=
        @noteGap_rest dropped changed state.monitor
      have htells : state.monitor.checkpoint = lastAnswer state.log := htold
      rw [htells] at hchanged
      have hflagged (hgap : changed = true ∨ (state.monitor.pendingReconcile ||
          decide (state.monitor.previousDropped < dropped)) = true) :
          (noteGap dropped changed state.monitor).pendingReconcile = true := by
        rw [hpending]
        obtain hgap | hgap := hgap
        · exact Bool.or_eq_true_iff.mpr (.inr hgap)
        · exact Bool.or_eq_true_iff.mpr (.inl hgap)
      refine ⟨⟨?_, ?_, fun hgap => ?_, fun _ hgap => ?_, nofun, fun _ hmem => ?_⟩,
        hlog.cons nofun nofun⟩
      · show current.or _ = current.or _
        rw [hcheckpoint, htells]
      · exact hbelow.trans hdropped.ge
      · obtain hgap | hgap := Bool.or_eq_true_iff.mp hgap
        · exact .inl (hflagged (.inl (hchanged.trans hgap)))
        · obtain hgap | hlater := hknown hgap
          · exact .inl (hflagged (.inr hgap))
          · exact .inr (hlater.trans_eq hdropped.symm)
      · obtain hgap | hgap := Bool.or_eq_true_iff.mp hgap
        · exact hflagged (.inl (hchanged.trans hgap))
        · exact hflagged (.inr (hfound rfl hgap))
      · obtain ⟨snapshot, hdrained⟩ := hfirst rfl (List.mem_of_ne_of_mem (by simp) hmem)
        exact ⟨snapshot, List.mem_cons_of_mem _ hdrained⟩
  | decided limit events dropped current changed =>
      rw [hphase] at hstep
      dsimp only at hstep
      split_ifs at hstep with hneeds
      · obtain rfl := Option.some.inj hstep
        rw [hphase] at htold hbelow
        obtain ⟨hpending, hready⟩ := Bool.and_eq_true_iff.mp hneeds
        exact ⟨⟨htold, hbelow, nofun, nofun, fun _ => ⟨hpending, hready, rfl⟩, nofun⟩,
          hlog.cons nofun nofun⟩
      · obtain rfl := Option.some.inj hstep
        exact hkeep.returned (.inr ⟨hphase, Bool.not_eq_true _ ▸ hneeds⟩) hlog
  | enumerating limit events dropped current changed =>
      rw [hphase] at hstep
      obtain rfl := Option.some.inj hstep
      exact hkeep.returned (.inl hphase) hlog

/-- One step, whichever thread takes it. -/
theorem remembers_step (h : Remembers state) (hlog : DrainsReconcile state.log)
    (hstep : monitorStep state action = some after) :
    Remembers after ∧ DrainsReconcile after.log := by
  have hview : state.phase.SameView state.phase :=
    ⟨fun _ => rfl, fun _ => rfl, fun _ => rfl, rfl, rfl⟩
  cases action with
  | notify now kind paths =>
      obtain ⟨-, heq⟩ := Option.ite_none_right_eq_some.mp hstep
      obtain rfl := Option.some.inj heq
      exact ⟨h.of_same rfl hview rfl rfl rfl rfl fun _ => rfl, hlog⟩
  | send =>
      unfold monitorStep at hstep
      cases hsending : state.sending with
      | nil =>
          rw [hsending] at hstep
          cases hstep
      | cons activity rest =>
          rw [hsending] at hstep
          dsimp only at hstep
          split_ifs at hstep
          · obtain rfl := Option.some.inj hstep
            exact ⟨h.of_same rfl hview rfl rfl rfl rfl fun _ => rfl, hlog⟩
          · obtain rfl := Option.some.inj hstep
            exact ⟨h.of_same rfl hview rfl rfl rfl rfl fun _ => rfl, hlog⟩
  | count =>
      obtain ⟨-, heq⟩ := Option.ite_none_right_eq_some.mp hstep
      obtain rfl := Option.some.inj heq
      exact ⟨h.countDropped, hlog.cons nofun nofun⟩
  | failed =>
      obtain ⟨-, heq⟩ := Option.ite_none_right_eq_some.mp hstep
      obtain rfl := Option.some.inj heq
      exact ⟨h.countDropped, hlog.cons nofun nofun⟩
  | baseline found =>
      obtain ⟨-, heq⟩ := Option.ite_none_left_eq_some.mp hstep
      obtain rfl := Option.some.inj heq
      exact ⟨h.of_same rfl hview rfl rfl rfl rfl fun _ => rfl, hlog⟩
  | call limit =>
      obtain ⟨hidle, heq⟩ := Option.ite_none_right_eq_some.mp hstep
      obtain rfl := Option.some.inj heq
      exact ⟨h.of_same rfl (hidle ▸ ⟨fun _ => rfl, fun _ => rfl, fun _ => rfl, rfl, rfl⟩) rfl rfl rfl
        rfl fun _ => rfl, hlog⟩
  | proceed fs order now => exact remembers_proceed h hlog hstep

variable (fs) in
theorem remembers_started (roots : List String) :
    Remembers (.started fs roots) ∧ DrainsReconcile (MonitorRun.started fs roots).log := by
  refine ⟨⟨Option.or_none.symm, le_rfl, nofun, nofun, nofun, fun _ hmem => ?_⟩, ?_⟩
  · cases List.mem_singleton.mp hmem
  · exact DrainsReconcile.cons ⟨by simp, by simp, by simp⟩ nofun nofun

/-- A gap stays open until an enumeration begins. -/
theorem gapOpen_of_opensGap {later earlier : List MonitorEvent} (h : opensGap earlier event = true)
    (hnone : .enumerated ∉ later) : gapOpen (later ++ event :: earlier) = true := by
  induction later with
  | nil => cases event <;> simp_all [opensGap, gapOpen]
  | cons last rest ih =>
      obtain ⟨hlast, hrest⟩ := not_or.mp (mt List.mem_cons.mpr hnone)
      have hopen := ih hrest
      cases last <;> simp_all [gapOpen]

/-- A gap that is open when the counter is read is found. -/
theorem gapFound_of_gapOpen {during before : List MonitorEvent} (h : gapOpen before = true)
    (hnone : .sampled ∉ during) : gapFound (during ++ .sampled :: before) = true := by
  induction during with
  | nil => exact h
  | cons last rest ih =>
      obtain ⟨hlast, hrest⟩ := not_or.mp (mt List.mem_cons.mpr hnone)
      have hfound := ih hrest
      cases last <;> simp_all [gapFound]

end remembers

/-! ## No gap is forgotten -/

/-- No gap is forgotten: between drains, each gap that was opened is pending or shown by the counter,
unless an enumeration began after it; a drain that has the baseline and finds a gap reconciles, and
enumerates after it has read the counter; and the first drain that has the baseline reconciles if a
gap was ever opened before it read the counter. -/
structure NoGapForgotten (state : MonitorRun) : Prop where
  remembered : state.phase = .idle → ∀ later event earlier, state.log = later ++ event :: earlier →
    opensGap earlier event = true → .enumerated ∈ later ∨
      state.monitor.pendingReconcile = true ∨ state.monitor.previousDropped < state.monitor.dropped
  reconciles : ∀ snapshot earlier, .drained true snapshot :: earlier <:+ state.log →
    gapFound earlier = true → snapshot.reconciled = true
  enumerates : ∀ ready snapshot earlier, .drained ready snapshot :: earlier <:+ state.log →
    snapshot.reconciled = true → enumeratedSince earlier = true
  first : ∀ snapshot during later event earlier,
    .drained true snapshot :: (during ++ .sampled :: (later ++ event :: earlier)) <:+ state.log →
    .sampled ∉ during → opensGap earlier event = true →
    (∀ other, .drained true other ∉ later ++ event :: earlier) → snapshot.reconciled = true

/-- The watcher reports an error before there is a baseline, and two drains follow, of which the second
one has it. -/
def lateBaseline : List MonitorAction :=
  .failed :: .call 1 :: List.replicate 5 (.proceed twoFiles .stored "unix:20") ++
    .baseline ∅ :: .call 1 :: List.replicate 6 (.proceed twoFiles .stored "unix:30")

example : ((run monitorStep (.started twoFiles ["C:\\watched"]) lateBaseline).map fun state =>
    state.log.filterMap fun event => match event with
      | .drained ready snapshot => some (ready, snapshot.reconciled)
      | _ => none) = some [(true, true), (false, false)] := by decide

end OpenGuard.Windows
