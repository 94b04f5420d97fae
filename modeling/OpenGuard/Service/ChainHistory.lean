import OpenGuard.Service.BehaviorChain

/-!
# Behaviour chains and the history of events

A chain is a window on the history: the signals it holds are the newest of the classified events of
its process, whatever was pruned, truncated or evicted in between.

* `observationsOf`: the classified events of a process, in the order they came in.
* `Remembers`: every chain holds a suffix of them; `remembers_engineAfter`.
* `alert_has_evidence`: an alert is backed by an event for each signal its rule requires, and names
  the remote address of the latest network event held.
-/

namespace OpenGuard.Service

open OpenGuard.Lib OpenGuard.Domain OpenGuard.Windows BehaviorChainEngine

/-! ## The history -/

/-- The events that came in, each with the time of its batch. -/
abbrev History := List (ℕ × SysmonEvent)

/-- An event that is a signal. -/
structure Observation where
  time : ℕ
  event : SysmonEvent
  kind : SignalKind

/-- The signal the engine makes of it. -/
def Observation.signal (observation : Observation) : Signal :=
  ⟨observation.kind, observation.time, observation.event.detail,
    observation.event.remoteAddress⟩

/-- The signal of a process that an event is, if it is one. -/
def observationOf (correlationId : String) (entry : ℕ × SysmonEvent) : Option Observation :=
  if stableCorrelationId entry.2 = some correlationId then
    (classify entry.2).map fun kind => ⟨entry.1, entry.2, kind⟩
  else none

/-- The classified events of a process, in the order they came in. -/
def observationsOf (correlationId : String) (history : History) : List Observation :=
  history.filterMap (observationOf correlationId)

/-- Times do not go back. -/
def IsOrdered (history : History) : Prop := history.Pairwise fun x y => x.1 ≤ y.1

section history

variable {history : History} {correlationId : String} {observation : Observation} {now : ℕ}
  {event : SysmonEvent} {kind : SignalKind}

theorem observationOf_eq_some_iff {entry : ℕ × SysmonEvent} :
    observationOf correlationId entry = some observation ↔
      entry = (observation.time, observation.event) ∧
        stableCorrelationId observation.event = some correlationId ∧
        classify observation.event = some observation.kind := by
  obtain ⟨time, event⟩ := entry
  obtain ⟨time', event', kind'⟩ := observation
  unfold observationOf
  by_cases hid : stableCorrelationId event = some correlationId
  · rw [if_pos hid, Option.map_eq_some_iff]
    constructor
    · rintro ⟨kind, hkind, heq⟩
      cases heq
      exact ⟨rfl, hid, hkind⟩
    · rintro ⟨heq, -, hkind⟩
      cases heq
      exact ⟨kind', hkind, rfl⟩
  · rw [if_neg hid]
    constructor
    · intro h
      cases h
    · rintro ⟨heq, hid', -⟩
      cases heq
      exact absurd hid' hid

/-- What an observation says about the history. -/
theorem mem_observationsOf (h : observation ∈ observationsOf correlationId history) :
    (observation.time, observation.event) ∈ history ∧
      stableCorrelationId observation.event = some correlationId ∧
      classify observation.event = some observation.kind := by
  obtain ⟨entry, hmem, hentry⟩ := List.mem_filterMap.mp h
  obtain ⟨rfl, hid, hkind⟩ := observationOf_eq_some_iff.mp hentry
  exact ⟨hmem, hid, hkind⟩

/-- A classified event of the process is its next observation. -/
theorem observationsOf_concat (hid : stableCorrelationId event = some correlationId)
    (hkind : classify event = some kind) :
    observationsOf correlationId (history ++ [(now, event)]) =
      observationsOf correlationId history ++ [⟨now, event, kind⟩] := by
  have hentry : observationOf correlationId (now, event) = some ⟨now, event, kind⟩ :=
    observationOf_eq_some_iff.mpr ⟨rfl, hid, hkind⟩
  rw [observationsOf, List.filterMap_append, List.filterMap_cons_some hentry]
  rfl

/-- Any other event is none. -/
theorem observationsOf_concat_of_not
    (h : ¬ (stableCorrelationId event = some correlationId ∧ (classify event).isSome)) :
    observationsOf correlationId (history ++ [(now, event)]) =
      observationsOf correlationId history := by
  have hentry : observationOf correlationId (now, event) = none := by
    rw [Option.eq_none_iff_forall_ne_some]
    intro observation hsome
    obtain ⟨heq, hid, hkind⟩ := observationOf_eq_some_iff.mp hsome
    cases heq
    exact h ⟨hid, by simp [hkind]⟩
  rw [observationsOf, List.filterMap_append, List.filterMap_cons_none hentry, List.filterMap_nil,
    List.append_nil, observationsOf]

/-- The signals of a process are in the order of their times. -/
theorem pairwise_signals (h : IsOrdered history) (correlationId : String) :
    ((observationsOf correlationId history).map Observation.signal).Pairwise
      fun x y => x.observedAt ≤ y.observedAt := by
  rw [List.pairwise_map, observationsOf]
  refine List.Pairwise.filterMap _ ?_ h
  intro x y hxy x' hx y' hy
  obtain ⟨rfl, -⟩ := observationOf_eq_some_iff.mp hx
  obtain ⟨rfl, -⟩ := observationOf_eq_some_iff.mp hy
  exact hxy

/-- What a window on the signals holds are the signals of the newest observations. -/
theorem exists_held_of_isSuffix {signals : List Signal}
    (h : signals <:+ (observationsOf correlationId history).map Observation.signal) :
    ∃ held, held <:+ observationsOf correlationId history ∧
      signals = held.map Observation.signal := by
  obtain ⟨dropped, heq⟩ := h
  obtain ⟨before, held, hsplit, -, hheld⟩ := List.map_eq_append_iff.mp heq.symm
  exact ⟨held, ⟨before, hsplit.symm⟩, hheld.symm⟩

end history

/-! ## The invariant -/

/-- Every chain is a window on the signals of its process. -/
def Remembers (history : History) (engine : BehaviorChainEngine) : Prop :=
  ∀ correlationId chain, engine.chains.lookup correlationId = some chain →
    chain.signals <:+ (observationsOf correlationId history).map Observation.signal

/-- No signal is older than the window. -/
def IsRecent (now : ℕ) (engine : BehaviorChainEngine) : Prop :=
  ∀ correlationId chain, engine.chains.lookup correlationId = some chain →
    ∀ signal ∈ chain.signals, now - signal.observedAt ≤ chainWindow

section invariant

variable {history : History} {engine : BehaviorChainEngine} {now : ℕ} {event : SysmonEvent}
  {events : List SysmonEvent} {correlationId : String} {chain : Chain}

/-- A chain that survives the pruning is an old one less its oldest signals. -/
theorem lookup_prune (h : (engine.prune now).chains.lookup correlationId = some chain) :
    ∃ old, engine.chains.lookup correlationId = some old ∧
      chain = { old with
        signals := old.signals.filter fun signal => now - signal.observedAt ≤ chainWindow } := by
  rw [prune, Table.lookup_filterMap] at h
  obtain ⟨old, hold, hchain⟩ := Option.bind_eq_some_iff.mp h
  refine ⟨old, hold, ?_⟩
  dsimp only at hchain
  split_ifs at hchain
  cases hchain
  rfl

/-- Pruning drops the oldest signals. -/
theorem remembers_prune (hordered : IsOrdered history) (h : Remembers history engine) :
    Remembers history (engine.prune now) := by
  intro correlationId chain hchain
  obtain ⟨old, hold, rfl⟩ := lookup_prune hchain
  have hsuffix := h correlationId old hold
  refine (filter_isSuffix ?_).trans hsuffix
  refine ((pairwise_signals hordered correlationId).sublist hsuffix.sublist).imp ?_
  intro x y hxy hx
  simp only [decide_eq_true_eq] at hx ⊢
  omega

theorem isRecent_prune : IsRecent now (engine.prune now) := by
  intro correlationId chain hchain signal hsignal
  obtain ⟨old, -, rfl⟩ := lookup_prune hchain
  simpa using (List.mem_filter.mp hsignal).2

/-- The chains after an event: that of its process has one more signal, the others are the same. -/
theorem lookup_ingestEvent
    (h : (ingestEvent now engine event).1.chains.lookup correlationId = some chain) :
    (∃ kind, stableCorrelationId event = some correlationId ∧ classify event = some kind ∧
        chain = observe now event kind (engine.chains.lookup correlationId)) ∨
      (¬ (stableCorrelationId event = some correlationId ∧ (classify event).isSome) ∧
        engine.chains.lookup correlationId = some chain) := by
  unfold ingestEvent at h
  cases hkind : classify event with
  | none =>
      right
      simp only [hkind] at h
      exact ⟨by simp, h⟩
  | some kind =>
      cases hid : stableCorrelationId event with
      | none =>
          right
          simp only [hkind, hid] at h
          exact ⟨by simp, h⟩
      | some id =>
          simp only [hkind, hid] at h
          rcases Table.lookup_insert_eq_some_iff.mp h with ⟨rfl, rfl⟩ | ⟨hne, h⟩
          · exact Or.inl ⟨kind, rfl, rfl, rfl⟩
          · exact Or.inr ⟨fun hsame => hne (Option.some.inj hsame.1).symm, h⟩

/-- An event enters the chain of its process and the history alike. -/
theorem remembers_ingestEvent (h : Remembers history engine) :
    Remembers (history ++ [(now, event)]) (ingestEvent now engine event).1 := by
  intro correlationId chain hchain
  rcases lookup_ingestEvent hchain with ⟨kind, hid, hkind, rfl⟩ | ⟨hother, hold⟩
  · rw [observationsOf_concat hid hkind, List.map_append]
    apply pushBack_isSuffix
    cases hold : engine.chains.lookup correlationId with
    | none => exact List.nil_suffix
    | some old => exact h correlationId old hold
  · rw [observationsOf_concat_of_not hother]
    exact h correlationId chain hold

theorem isRecent_ingestEvent (h : IsRecent now engine) :
    IsRecent now (ingestEvent now engine event).1 := by
  intro correlationId chain hchain signal hsignal
  rcases lookup_ingestEvent hchain with ⟨kind, -, -, rfl⟩ | ⟨-, hold⟩
  · rcases mem_of_mem_pushBack hsignal with hsignal | rfl
    · cases hold : engine.chains.lookup correlationId with
      | none =>
          rw [hold] at hsignal
          cases hsignal
      | some old =>
          rw [hold] at hsignal
          exact h correlationId old hold signal hsignal
    · simp
  · exact h correlationId chain hold signal hsignal

/-- The events of a batch enter the chains and the history. -/
theorem remembers_ingestEvents (h : Remembers history engine) :
    Remembers (history ++ events.map (now, ·)) (ingestEvents now engine events).1 := by
  induction events generalizing engine history with
  | nil => simpa [ingestEvents] using h
  | cons event events ih =>
      have hfirst : Remembers (history ++ [(now, event)]) (ingestEvent now engine event).1 :=
        remembers_ingestEvent h
      have hnext := ih hfirst
      rw [List.append_assoc] at hnext
      exact hnext

theorem isRecent_ingestEvents (h : IsRecent now engine) :
    IsRecent now (ingestEvents now engine events).1 := by
  induction events generalizing engine with
  | nil => exact h
  | cons event events ih => exact ih (isRecent_ingestEvent h)

/-- Evicting chains leaves the others as they are. -/
theorem remembers_evict (order : IterOrder String Chain) (fuel : ℕ) (h : Remembers history engine) :
    Remembers history (evict order fuel engine) := by
  induction fuel generalizing engine with
  | zero => exact h
  | succ fuel ih =>
      unfold evict
      split
      · cases (order.entries engine.chains).argmin fun entry => entry.2.lastSeen with
        | none => exact h
        | some oldest =>
            apply ih
            intro correlationId chain hchain
            have hne : correlationId ≠ oldest.1 := by
              rintro rfl
              rw [AList.lookup_erase] at hchain
              cases hchain
            rw [AList.lookup_erase_ne hne] at hchain
            exact h correlationId chain hchain
      · exact h

end invariant

/-! ## Runs -/

/-- One call of `ingest_at`, with the order in which its eviction meets the chains. -/
structure IngestCall where
  order : IterOrder String Chain
  now : ℕ
  events : List SysmonEvent

/-- The engine after a run of calls. -/
def engineAfter (calls : List IngestCall) : BehaviorChainEngine :=
  calls.foldl (fun engine call => (ingestAt call.order call.events call.now engine).1) .initial

/-- The events of a run of calls. -/
def historyOf (calls : List IngestCall) : History :=
  calls.flatMap fun call => call.events.map (call.now, ·)

/-- The times of the calls do not go back. -/
def TimesOrdered (calls : List IngestCall) : Prop := calls.Pairwise fun x y => x.now ≤ y.now

section runs

variable {calls : List IngestCall} {call : IngestCall}

theorem isOrdered_historyOf (h : TimesOrdered calls) : IsOrdered (historyOf calls) := by
  unfold historyOf IsOrdered
  rw [List.pairwise_flatMap]
  refine ⟨?_, h.imp ?_⟩
  · intro call _
    rw [List.pairwise_map]
    exact List.pairwise_of_forall fun _ _ => Nat.le_refl _
  · intro x y hxy entry₁ h₁ entry₂ h₂
    obtain ⟨_, -, rfl⟩ := List.mem_map.mp h₁
    obtain ⟨_, -, rfl⟩ := List.mem_map.mp h₂
    exact hxy

/-- No event is later than the call that is going on. -/
theorem historyOf_append_le {now : ℕ} {events : List SysmonEvent}
    (h : ∀ call ∈ calls, call.now ≤ now) :
    ∀ entry ∈ historyOf calls ++ events.map (now, ·), entry.1 ≤ now := by
  intro entry hentry
  rcases List.mem_append.mp hentry with hentry | hentry
  · obtain ⟨call, hmem, hentry⟩ := List.mem_flatMap.mp hentry
    obtain ⟨_, -, rfl⟩ := List.mem_map.mp hentry
    exact h call hmem
  · obtain ⟨_, -, rfl⟩ := List.mem_map.mp hentry
    exact Nat.le_refl _

/-- **Every chain is a window on the history**, after every run of calls. -/
theorem remembers_engineAfter (h : TimesOrdered calls) :
    Remembers (historyOf calls) (engineAfter calls) := by
  induction calls using List.reverseRecOn with
  | nil =>
      intro correlationId chain hchain
      cases hchain
  | append_singleton calls call ih =>
      have hbefore : TimesOrdered calls := (List.pairwise_append.mp h).1
      have hpruned : Remembers (historyOf calls) ((engineAfter calls).prune call.now) :=
        remembers_prune (isOrdered_historyOf hbefore) (ih hbefore)
      rw [engineAfter, List.foldl_concat, historyOf, List.flatMap_append, List.flatMap_singleton]
      exact remembers_evict _ _ (remembers_ingestEvents hpruned)

/-- What backs an alert for a rule, given the events up to the one that raised it, the time of its
batch, and the chain of its process: the alert is built from the chain and for no other rule; for
each signal that the rule requires there is an event of the process within the window; and the
remote address is that of the latest network event among the events that the chain holds. -/
structure AlertEvidence (history : History) (now : ℕ) (chain : Chain) (rule : Rule)
    (alert : BehaviorAlert) : Prop where
  built : alert = buildAlert rule alert.correlationId chain
  only : ∀ other : Rule, other.eventType = alert.eventType → other = rule
  required : ∀ kind ∈ rule.requires, ∃ time event, (time, event) ∈ history ∧ time ≤ now ∧
    now - time ≤ chainWindow ∧ stableCorrelationId event = some alert.correlationId ∧
    classify event = some kind
  remote : ∃ held latest, held <:+ observationsOf alert.correlationId history ∧
    chain.signals = held.map Observation.signal ∧
    held.reverse.find? (·.kind == .network) = some latest ∧
    alert.remoteAddress = latest.event.remoteAddress

/-- The evidence of an alert for a rule that matches a recent chain. -/
theorem alertEvidence_of_chain {history : History} {now : ℕ} {correlationId : String}
    {chain : Chain} {rule : Rule} (htimes : ∀ entry ∈ history, entry.1 ≤ now)
    (hsuffix : chain.signals <:+ (observationsOf correlationId history).map Observation.signal)
    (hrecent : ∀ signal ∈ chain.signals, now - signal.observedAt ≤ chainWindow)
    (hrule : rule ∈ matchingRules chain) :
    AlertEvidence history now chain rule (buildAlert rule correlationId chain) := by
  have hmatch := mem_matchingRules_iff.mp hrule
  obtain ⟨held, hheld, hsignals⟩ := exists_held_of_isSuffix hsuffix
  refine ⟨rfl, fun other hother => Rule.eventType_injective hother, ?_, ?_⟩
  · intro kind hkind
    obtain ⟨signal, hmem, rfl⟩ := hmatch kind hkind
    have hwindow := hrecent signal hmem
    rw [hsignals] at hmem
    obtain ⟨observation, hobservation, rfl⟩ := List.mem_map.mp hmem
    obtain ⟨hhistory, hid, hclassified⟩ := mem_observationsOf (hheld.subset hobservation)
    exact ⟨observation.time, observation.event, hhistory, htimes _ hhistory, hwindow, hid,
      hclassified⟩
  · obtain ⟨signal, hmem, hnetwork⟩ := hmatch .network rule.network_mem_requires
    rw [hsignals] at hmem
    obtain ⟨observation, hobservation, rfl⟩ := List.mem_map.mp hmem
    have hfind : (held.reverse.find? (·.kind == .network)).isSome := by
      rw [List.find?_isSome]
      exact ⟨observation, List.mem_reverse.mpr hobservation, beq_iff_eq.mpr hnetwork⟩
    obtain ⟨latest, hlatest⟩ := Option.isSome_iff_exists.mp hfind
    refine ⟨held, latest, hheld, hsignals, hlatest, ?_⟩
    have hsignal : chain.signals.reverse.find? (·.kind == .network) = some latest.signal := by
      rw [hsignals, ← List.map_reverse, List.find?_map]
      exact congrArg (Option.map Observation.signal) hlatest
    simp only [buildAlert, hsignal]
    rfl

/-- The alert of a call is raised by one of its events, for the process of that event, and backed by
the events up to that one. -/
def IsBacked (calls : List IngestCall) (call : IngestCall) (alert : BehaviorAlert) : Prop :=
  ∃ rule before event after chain,
    call.events = before ++ event :: after ∧
    stableCorrelationId event = some alert.correlationId ∧
    (ingestEvents call.now ((engineAfter calls).prune call.now)
      (before ++ [event])).1.chains.lookup alert.correlationId = some chain ∧
    AlertEvidence (historyOf calls ++ (before ++ [event]).map (call.now, ·)) call.now chain rule
      alert

/-- **Every alert has its evidence**, after every run of calls whose times do not go back. -/
theorem alert_has_evidence (calls : List IngestCall) (call : IngestCall)
    (htimes : TimesOrdered (calls ++ [call])) (alert : BehaviorAlert)
    (halert : alert ∈ (ingestAt call.order call.events call.now (engineAfter calls)).2) :
    IsBacked calls call alert := by
  obtain ⟨hbefore, -, hlast⟩ := List.pairwise_append.mp htimes
  obtain ⟨before, event, after, hsplit, hraised⟩ := exists_split_of_mem_ingestEvents halert
  obtain ⟨rule, chain, hid, hchain, hrule, hbuilt⟩ := mem_ingestEvent_alerts hraised
  have hengine : (ingestEvents call.now ((engineAfter calls).prune call.now)
      (before ++ [event])).1.chains.lookup alert.correlationId = some chain := by
    rw [ingestEvents_append, ingestEvents_singleton]
    exact hchain
  have hpruned : Remembers (historyOf calls) ((engineAfter calls).prune call.now) :=
    remembers_prune (isOrdered_historyOf hbefore) (remembers_engineAfter hbefore)
  have hsuffix := remembers_ingestEvents hpruned _ chain hengine
  have hrecent := isRecent_ingestEvents isRecent_prune _ chain hengine
  refine ⟨rule, before, event, after, chain, hsplit, hid, hengine, ?_⟩
  have hordered : ∀ entry ∈ historyOf calls ++ (before ++ [event]).map (call.now, ·),
      entry.1 ≤ call.now :=
    historyOf_append_le fun earlier hmem => hlast earlier hmem call List.mem_cons_self
  have hevidence := alertEvidence_of_chain hordered hsuffix hrecent hrule
  rwa [← hbuilt] at hevidence

/-- A process reads the memory of `lsass.exe`. -/
def sampleAccess : SysmonEvent where
  eventId := 10
  occurredAt := "2026-08-08T12:00:00Z"
  fields := Table.collect [("SourceProcessGuid", "A"), ("SourceImage", "C:\\Users\\me\\tool.exe"),
    ("TargetImage", "C:\\Windows\\System32\\lsass.exe"), ("GrantedAccess", "0x1010")]

/-- The same process connects to a public address. -/
def sampleConnection : SysmonEvent where
  eventId := 3
  occurredAt := "2026-08-08T12:00:02Z"
  fields := Table.collect [("ProcessGuid", "A"), ("Image", "C:\\Users\\me\\tool.exe"),
    ("DestinationIp", "203.0.113.8")]

/-- The access comes in first, the connection two seconds later. -/
def sampleAccessCall : IngestCall := ⟨default, 0, [sampleAccess]⟩

/-- The call that raises the alert. -/
def sampleConnectionCall : IngestCall := ⟨default, 2000000000, [sampleConnection]⟩

theorem sampleConnectionCall_alerts_ne_nil :
    (ingestAt sampleConnectionCall.order sampleConnectionCall.events sampleConnectionCall.now
      (engineAfter [sampleAccessCall])).2 ≠ [] := by decide +kernel

/-- The alert it raises. -/
def sampleAlert : BehaviorAlert :=
  (ingestAt sampleConnectionCall.order sampleConnectionCall.events sampleConnectionCall.now
    (engineAfter [sampleAccessCall])).2.head sampleConnectionCall_alerts_ne_nil

/-- `alert_has_evidence` for the sample alert. -/
theorem alert_has_evidence_sampleAlert :
    sampleAlert.eventType = "credential_access_network_chain" ∧
      IsBacked [sampleAccessCall] sampleConnectionCall sampleAlert :=
  ⟨by decide +kernel, alert_has_evidence [sampleAccessCall] sampleConnectionCall
    (by unfold TimesOrdered; decide +kernel) sampleAlert (List.head_mem _)⟩

end runs

end OpenGuard.Service
