import OpenGuard.Service.ChainCooldown

/-!
# Completeness of the rules

While no chain is evicted, what the engine holds of a process is a function of the history: the
newest of the signals in the window. If the process has never more signals in a window than a chain
can hold, that is all of them, and a rule whose signals are all there is reported or cools down.

* `HoldsWindow`: the signals held are the newest of those in the window.
* `Logged`: a cooldown was started by an alert.
* `alerts_are_complete`: no rule that matches the events of a window is missed.
-/

namespace OpenGuard.Service

open OpenGuard.Lib OpenGuard.Domain OpenGuard.Windows BehaviorChainEngine

/-! ## The signals held -/

/-- The signals held of a process. -/
def BehaviorChainEngine.held (engine : BehaviorChainEngine) (correlationId : String) :
    List Signal := ((engine.chains.lookup correlationId).map (·.signals)).getD []

/-- The newest signals of a process in the window, as many as a chain can hold. -/
def windowSignals (now : ℕ) (correlationId : String) (history : History) : List Signal :=
  ((recentObservations now correlationId history).map Observation.signal).rtake
    maximumSignalsPerChain

/-- Of every process the engine holds the newest signals in the window. -/
def HoldsWindow (now : ℕ) (history : History) (engine : BehaviorChainEngine) : Prop :=
  ∀ correlationId, engine.held correlationId = windowSignals now correlationId history

section held

variable {now earlier : ℕ} {history : History} {engine : BehaviorChainEngine}
  {event : SysmonEvent} {events : List SysmonEvent} {correlationId : String} {kind : SignalKind}
  {calls : List IngestCall} {call : IngestCall}

/-- Pruning drops the signals that are too old. -/
theorem held_prune :
    (engine.prune now).held correlationId =
      (engine.held correlationId).filter fun signal => now - signal.observedAt ≤ chainWindow := by
  unfold BehaviorChainEngine.held prune
  rw [Table.lookup_filterMap]
  cases engine.chains.lookup correlationId with
  | none => simp
  | some chain =>
      dsimp only [Option.bind_some, Option.map_some, Option.getD_some]
      split_ifs with hnil
      · exact hnil.symm
      · rfl

/-- A classified event of the process enters at the back. -/
theorem held_ingestEvent (hid : stableCorrelationId event = some correlationId)
    (hkind : classify event = some kind) :
    (ingestEvent now engine event).1.held correlationId =
      pushBack maximumSignalsPerChain (engine.held correlationId)
        (Observation.signal ⟨now, event, kind⟩) := by
  rw [ingestEvent_of_classified hid hkind]
  unfold BehaviorChainEngine.held
  simp only [AList.lookup_insert, Option.map_some, Option.getD_some]
  cases engine.chains.lookup correlationId <;> rfl

/-- Any other event changes nothing. -/
theorem held_ingestEvent_of_not
    (h : ¬ (stableCorrelationId event = some correlationId ∧ (classify event).isSome)) :
    (ingestEvent now engine event).1.held correlationId = engine.held correlationId := by
  rcases ingestEvent_cases now engine event with ⟨-, hsame⟩ | ⟨other, kind, hother, hkind⟩
  · rw [hsame]
  · have hne : correlationId ≠ other := by
      rintro rfl
      exact h ⟨hother, by simp [hkind]⟩
    rw [ingestEvent_of_classified hother hkind]
    simp [BehaviorChainEngine.held, AList.lookup_insert_ne hne]

/-- The classified events of the process in a batch enter one after the other. -/
theorem held_ingestEvents (events : List SysmonEvent) :
    (ingestEvents now engine events).1.held correlationId =
      ((observationsOf correlationId (events.map (now, ·))).map Observation.signal).foldl
        (pushBack maximumSignalsPerChain) (engine.held correlationId) := by
  induction events using List.reverseRecOn with
  | nil => rfl
  | append_singleton events event ih =>
      rw [ingestEvents_append, List.map_append, List.map_singleton]
      change (ingestEvent now (ingestEvents now engine events).1 event).1.held _ = _
      by_cases hevent : stableCorrelationId event = some correlationId ∧ (classify event).isSome
      · obtain ⟨hid, hclass⟩ := hevent
        obtain ⟨kind, hkind⟩ := Option.isSome_iff_exists.mp hclass
        rw [held_ingestEvent hid hkind, ih, observationsOf_concat hid hkind, List.map_append,
          List.map_singleton, List.foldl_concat]
      · rw [held_ingestEvent_of_not hevent, ih, observationsOf_concat_of_not hevent]

/-- After a batch no longer than a chain, every signal of the batch is held. -/
theorem mem_held_ingestEvents {events : List SysmonEvent}
    (hlength : events.length ≤ maximumSignalsPerChain) (hmem : event ∈ events)
    (hid : stableCorrelationId event = some correlationId) (hkind : classify event = some kind) :
    Observation.signal ⟨now, event, kind⟩ ∈
      (ingestEvents now engine events).1.held correlationId := by
  rw [held_ingestEvents]
  have hfits : ((observationsOf correlationId (events.map (now, ·))).map
      Observation.signal).length ≤ maximumSignalsPerChain := by
    rw [List.length_map, observationsOf]
    refine (List.length_filterMap_le _ _).trans ?_
    rwa [List.length_map]
  refine (isSuffix_foldl_pushBack _ hfits).mem (List.mem_map_of_mem ?_)
  exact List.mem_filterMap.mpr ⟨(now, event), List.mem_map_of_mem hmem,
    observationOf_eq_some_iff.mpr ⟨rfl, hid, hkind⟩⟩

/-- What is recent now was recent before. -/
theorem filter_recentObservations (hle : earlier ≤ now) :
    (recentObservations earlier correlationId history).filter
        (fun observation => now - observation.time ≤ chainWindow) =
      recentObservations now correlationId history := by
  unfold recentObservations
  rw [List.filter_filter]
  apply List.filter_congr
  intro observation _
  simp only [← Bool.decide_and, decide_eq_decide]
  omega

/-- The pruning at a later time moves the window on. -/
theorem HoldsWindow.prune (hordered : IsOrdered history) (h : HoldsWindow earlier history engine)
    (hle : earlier ≤ now) : HoldsWindow now history (engine.prune now) := by
  intro correlationId
  rw [held_prune, h correlationId, windowSignals, windowSignals, filter_rtake, List.filter_map]
  · congr 2
    exact filter_recentObservations hle
  · have hsignals := pairwise_signals hordered correlationId
    have hrecent : ((recentObservations earlier correlationId history).map
        Observation.signal).Pairwise fun x y => x.observedAt ≤ y.observedAt :=
      hsignals.sublist (List.filter_sublist.map _)
    refine hrecent.imp fun hxy hx => ?_
    simp only [decide_eq_true_eq] at hx ⊢
    omega

/-- An event enters what is held and the history alike. -/
theorem HoldsWindow.ingestEvent (event : SysmonEvent) (h : HoldsWindow now history engine) :
    HoldsWindow now (history ++ [(now, event)]) (ingestEvent now engine event).1 := by
  intro correlationId
  by_cases hevent : stableCorrelationId event = some correlationId ∧ (classify event).isSome
  · obtain ⟨hid, hclass⟩ := hevent
    obtain ⟨kind, hkind⟩ := Option.isSome_iff_exists.mp hclass
    rw [held_ingestEvent hid hkind, h correlationId, windowSignals, pushBack_rtake, windowSignals,
      recentObservations, recentObservations, observationsOf_concat hid hkind]
    simp
  · rw [held_ingestEvent_of_not hevent, h correlationId, windowSignals, windowSignals,
      recentObservations, recentObservations, observationsOf_concat_of_not hevent]

theorem HoldsWindow.ingestEvents (events : List SysmonEvent) (h : HoldsWindow now history engine) :
    HoldsWindow now (history ++ events.map (now, ·)) (ingestEvents now engine events).1 := by
  induction events generalizing history engine with
  | nil => simpa [BehaviorChainEngine.ingestEvents] using h
  | cons event events ih =>
      have hrest := ih (h.ingestEvent event)
      rw [List.append_assoc] at hrest
      simpa [ingestEvents_cons] using hrest

/-- The signals held after a run, when the next call has pruned. -/
theorem holdsWindow_engineAfter (htimes : TimesOrdered calls) (hfits : NeverEvicts calls)
    (hnow : ∀ call ∈ calls, call.now ≤ now) :
    HoldsWindow now (historyOf calls) ((engineAfter calls).prune now) := by
  induction calls using List.reverseRecOn generalizing now with
  | nil =>
      intro correlationId
      simp [windowSignals, recentObservations, observationsOf, historyOf, engineAfter,
        BehaviorChainEngine.held, BehaviorChainEngine.initial, BehaviorChainEngine.prune]
  | append_singleton calls call ih =>
      obtain ⟨hbefore, -, hlast⟩ := List.pairwise_append.mp htimes
      obtain ⟨hfitsBefore, hfitsCall⟩ := neverEvicts_concat.mp hfits
      have hpruned := ih hbefore hfitsBefore fun earlier hmem =>
        hlast earlier hmem call List.mem_cons_self
      have hfilled := hpruned.ingestEvents call.events
      rw [← historyOf_concat] at hfilled
      rw [engineAfter_concat, next_of_fits hfitsCall]
      exact hfilled.prune (isOrdered_historyOf htimes) (hnow call (by simp))

end held

/-! ## The cooldowns -/

/-- Every cooldown was started by an alert. -/
def Logged (log : AlertLog) (reported : Table (String × Rule) ℕ) : Prop :=
  ∀ key last, reported.lookup key = some last →
    ∃ entry ∈ log, entry.1 = last ∧ entry.2.IsFor key.1 key.2

section logged

variable {log : AlertLog} {now : ℕ} {engine : BehaviorChainEngine} {event : SysmonEvent}
  {events : List SysmonEvent} {calls : List IngestCall}

theorem Logged.ingestEvent (now : ℕ) (event : SysmonEvent) (h : Logged log engine.reported) :
    Logged (log ++ stamped now (ingestEvent now engine event).2)
      (ingestEvent now engine event).1.reported := by
  rcases ingestEvent_cases now engine event with ⟨-, hsame⟩ | ⟨id, kind, hid, hkind⟩
  · simpa [hsame, stamped] using h
  · rw [ingestEvent_of_classified hid hkind]
    intro key last hlast
    rcases lookup_report hlast with hold | ⟨rfl, hkey, halert⟩
    · obtain ⟨entry, hentry, hfor⟩ := h key last hold
      exact ⟨entry, List.mem_append_left _ hentry, hfor⟩
    · refine ⟨_, List.mem_append_right _ (List.mem_map_of_mem halert), rfl, ?_⟩
      exact isFor_buildAlert_iff.mpr ⟨hkey.symm, rfl⟩

theorem Logged.ingestEvents (now : ℕ) (events : List SysmonEvent) (h : Logged log engine.reported) :
    Logged (log ++ stamped now (ingestEvents now engine events).2)
      (ingestEvents now engine events).1.reported := by
  induction events generalizing log engine with
  | nil => simpa [BehaviorChainEngine.ingestEvents, stamped] using h
  | cons event events ih =>
      have hrest := ih (h.ingestEvent now event)
      rw [List.append_assoc] at hrest
      simpa [ingestEvents_cons, stamped] using hrest

theorem Logged.prune (now : ℕ) (h : Logged log engine.reported) :
    Logged log (engine.prune now).reported := by
  intro key last hlast
  apply h key last
  rw [BehaviorChainEngine.prune, Table.lookup_retain] at hlast
  exact Option.eq_some_of_filter_eq_some hlast

theorem logged_engineAfter (hfits : NeverEvicts calls) :
    Logged (alertLog calls) (engineAfter calls).reported := by
  induction calls using List.reverseRecOn with
  | nil =>
      intro key last hlast
      simp [engineAfter, BehaviorChainEngine.initial] at hlast
  | append_singleton calls call ih =>
      obtain ⟨hfitsBefore, hfitsCall⟩ := neverEvicts_concat.mp hfits
      rw [alertLog_concat, engineAfter_concat, next_of_fits hfitsCall]
      exact ((ih hfitsBefore).prune call.now).ingestEvents call.now call.events

end logged

/-! ## Completeness -/

/-- The process never has more than `MAXIMUM_SIGNALS_PER_CHAIN` classified events within a
`CHAIN_WINDOW`. -/
def RateBounded (correlationId : String) (history : History) : Prop :=
  ∀ start, ((observationsOf correlationId history).filter fun observation =>
    start ≤ observation.time ∧ observation.time ≤ start + chainWindow).length ≤
      maximumSignalsPerChain

/-- All signals that a rule requires are among the events of a process in the window. -/
def Completes (now : ℕ) (correlationId : String) (history : History) (rule : Rule) : Prop :=
  ∀ kind ∈ rule.requires, ∃ observation ∈ recentObservations now correlationId history,
    observation.kind = kind

section complete

variable {now : ℕ} {history rest : History} {engine : BehaviorChainEngine} {event : SysmonEvent}
  {correlationId : String} {rule : Rule}

theorem RateBounded.of_append (rest : History) (h : RateBounded correlationId (history ++ rest)) :
    RateBounded correlationId history := by
  intro start
  refine le_trans (List.Sublist.length_le ?_) (h start)
  apply List.Sublist.filter
  rw [observationsOf, observationsOf, List.filterMap_append]
  exact List.sublist_append_left _ _

/-- No signal in the window is left out. -/
theorem windowSignals_of_rateBounded (htimes : ∀ entry ∈ history, entry.1 ≤ now)
    (hrate : RateBounded correlationId history) :
    windowSignals now correlationId history =
      (recentObservations now correlationId history).map Observation.signal := by
  apply rtake_of_length_le
  rw [List.length_map]
  refine le_trans (List.Sublist.length_le ?_) (hrate (now - chainWindow))
  rw [recentObservations, List.filter_congr]
  intro observation hmem
  have hle := htimes _ (mem_observationsOf hmem).1
  simp only [decide_eq_decide]
  dsimp only at hle
  omega

/-- A rule whose signals are all in the window is reported by the event that completes it, unless
it is cooling down. -/
theorem reported_or_cooling (hheld : HoldsWindow now history engine)
    (htimes : ∀ entry ∈ history, entry.1 ≤ now)
    (hrate : RateBounded correlationId (history ++ [(now, event)]))
    (hid : stableCorrelationId event = some correlationId) (hclass : (classify event).isSome)
    (hrule : Completes now correlationId (history ++ [(now, event)]) rule) :
    (∃ alert ∈ (ingestEvent now engine event).2, alert.IsFor correlationId rule) ∨
      ∃ last, engine.reported.lookup (correlationId, rule) = some last ∧
        now - last < alertCooldown := by
  obtain ⟨kind, hkind⟩ := Option.isSome_iff_exists.mp hclass
  have hafter := hheld.ingestEvent event correlationId
  rw [windowSignals_of_rateBounded (by simpa [or_imp, forall_and] using htimes) hrate,
    ingestEvent_of_classified hid hkind] at hafter
  simp only [BehaviorChainEngine.held, AList.lookup_insert, Option.map_some,
    Option.getD_some] at hafter
  rw [ingestEvent_of_classified hid hkind]
  have hmatches : rule ∈ matchingRules
      (observe now event kind (engine.chains.lookup correlationId)) := by
    refine mem_matchingRules_iff.mpr fun required hrequired => ?_
    obtain ⟨observation, hmem, hobservation⟩ := hrule required hrequired
    rw [hafter]
    exact ⟨observation.signal, List.mem_map_of_mem hmem, hobservation⟩
  rcases report_or_cooling hmatches with halert | hcooling
  · exact Or.inl ⟨_, halert, isFor_buildAlert_iff.mpr ⟨rfl, rfl⟩⟩
  · exact Or.inr hcooling

/-- **Alerts are complete.** Take a run whose times do not go back and that evicts no chain, and an
event of its last call that is a signal of a process which never has too many signals in a window.
If, with the events before it, all signals a rule requires are in the window, then the call returns
an alert for the process and the rule, or one was returned less than `ALERT_COOLDOWN` before. -/
theorem alerts_are_complete (calls : List IngestCall) (call : IngestCall)
    (before after : List SysmonEvent) (event : SysmonEvent) (correlationId : String) (rule : Rule)
    (htimes : TimesOrdered (calls ++ [call])) (hfits : NeverEvicts (calls ++ [call]))
    (hrate : RateBounded correlationId (historyOf (calls ++ [call])))
    (hsplit : call.events = before ++ event :: after)
    (hid : stableCorrelationId event = some correlationId) (hclass : (classify event).isSome)
    (hrule : Completes call.now correlationId
      (historyOf calls ++ (before ++ [event]).map (call.now, ·)) rule) :
    (∃ alert ∈ (engineAfter calls).alerts call, alert.IsFor correlationId rule) ∨
      ∃ entry ∈ alertLog calls, entry.2.IsFor correlationId rule ∧
        call.now - entry.1 < alertCooldown := by
  obtain ⟨hbefore, -, hlast⟩ := List.pairwise_append.mp htimes
  have hfitsBefore := (neverEvicts_concat.mp hfits).1
  have hearlier : ∀ earlier ∈ calls, earlier.now ≤ call.now := fun earlier hmem =>
    hlast earlier hmem call List.mem_cons_self
  -- the engine when the event is next
  have hheld := (holdsWindow_engineAfter hbefore hfitsBefore hearlier).ingestEvents before
  have hlogged := ((logged_engineAfter hfitsBefore).prune call.now).ingestEvents call.now before
  have halerts : (engineAfter calls).alerts call =
      (ingestEvents call.now ((engineAfter calls).prune call.now) before).2 ++
        ((ingestEvent call.now (ingestEvents call.now ((engineAfter calls).prune call.now)
          before).1 event).2 ++ (ingestEvents call.now (ingestEvent call.now (ingestEvents call.now
            ((engineAfter calls).prune call.now) before).1 event).1 after).2) := by
    rw [BehaviorChainEngine.alerts, ingestAt, hsplit, ingestEvents_append, ingestEvents_cons]
  have htimesBefore : ∀ entry ∈ historyOf calls ++ before.map (call.now, ·),
      entry.1 ≤ call.now := historyOf_append_le hearlier
  have hhistory : historyOf calls ++ (before ++ [event]).map (call.now, ·) =
      (historyOf calls ++ before.map (call.now, ·)) ++ [(call.now, event)] := by simp
  have hrateEvent : RateBounded correlationId
      ((historyOf calls ++ before.map (call.now, ·)) ++ [(call.now, event)]) := by
    apply RateBounded.of_append (after.map (call.now, ·))
    simpa [historyOf_concat, hsplit] using hrate
  rw [hhistory] at hrule
  rcases reported_or_cooling hheld htimesBefore hrateEvent hid hclass hrule with
    ⟨alert, halert, hfor⟩ | ⟨last, hcooldown, hlt⟩
  · refine Or.inl ⟨alert, ?_, hfor⟩
    rw [halerts]
    exact List.mem_append_right _ (List.mem_append_left _ halert)
  · obtain ⟨entry, hentry, rfl, hfor⟩ := hlogged _ _ hcooldown
    rcases List.mem_append.mp hentry with hentry | hentry
    · exact Or.inr ⟨entry, hentry, hfor, hlt⟩
    · obtain ⟨alert, halert, rfl⟩ := List.mem_map.mp hentry
      refine Or.inl ⟨alert, ?_, hfor⟩
      rw [halerts]
      exact List.mem_append_left _ halert

/-- `alerts_are_complete` for a connection after an access. -/
theorem alerts_are_complete_sample :
    (∃ alert ∈ (engineAfter [sampleAccessCall]).alerts sampleConnectionCall,
        alert.IsFor "sysmon-A" .credentialExfiltration) ∨
      ∃ entry ∈ alertLog [sampleAccessCall], entry.2.IsFor "sysmon-A" .credentialExfiltration ∧
        sampleConnectionCall.now - entry.1 < alertCooldown := by
  apply alerts_are_complete [sampleAccessCall] sampleConnectionCall [] [] sampleConnection
  · unfold TimesOrdered
    decide +kernel
  · exact neverEvicts_of_length_le (by decide)
  · intro start
    refine (List.length_filter_le _ _).trans (le_trans (List.length_filterMap_le _ _) ?_)
    decide
  · rfl
  · rfl
  · rfl
  · unfold Completes
    decide +kernel

end complete

end OpenGuard.Service
