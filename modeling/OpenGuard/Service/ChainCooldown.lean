import OpenGuard.Service.ChainProjection
import OpenGuard.Service.ChainStore
import Mathlib.Algebra.Order.BigOperators.Group.List

/-!
# The cooldown of alerts

An alert starts a cooldown for its process and rule, which outlives the chain when that is pruned,
but not when it is evicted.

* `Cooling`: the cooldown table knows every alert that may not be repeated yet.
* `alerts_cool_down`: while no running cooldown is evicted, alerts for a process and a rule keep
  their distance.
* `cooldown_evicted`: a flood of other processes makes an alert repeat.
-/

namespace OpenGuard.Service

open OpenGuard.Lib OpenGuard.Domain OpenGuard.Windows BehaviorChainEngine

/-- Alerts, each with the time of its call. -/
abbrev AlertLog := List (ℕ × BehaviorAlert)

/-- The alerts of a batch, with its time. -/
def stamped (now : ℕ) (alerts : List BehaviorAlert) : AlertLog := alerts.map (now, ·)

/-- The alerts of a run in the order in which they are returned. -/
def alertLog (calls : List IngestCall) : AlertLog :=
  (transcript .initial calls).flatMap fun batch => stamped batch.1 batch.2

/-- Alerts for the same process and the same rule are at least `ALERT_COOLDOWN` apart. -/
def Spaced (log : AlertLog) : Prop :=
  log.Pairwise fun x y => ∀ correlationId rule, x.2.IsFor correlationId rule →
    y.2.IsFor correlationId rule → x.1 + alertCooldown ≤ y.1

/-- The alerts so far are spaced, and those that may not be repeated at `now` are in the cooldown
table. -/
structure Cooling (log : AlertLog) (reported : Table (String × Rule) ℕ) (now : ℕ) : Prop where
  spaced : Spaced log
  past : ∀ entry ∈ log, entry.1 ≤ now
  known : ∀ entry ∈ log, ∀ correlationId rule, entry.2.IsFor correlationId rule →
    now - entry.1 < alertCooldown →
    ∃ last, reported.lookup (correlationId, rule) = some last ∧ entry.1 ≤ last

/-! ## One call -/

section call

variable {log : AlertLog} {reported : Table (String × Rule) ℕ} {now earlier : ℕ}
  {correlationId : String} {rule : Rule} {chain : Chain} {rules : List Rule}
  {engine : BehaviorChainEngine} {event : SysmonEvent} {events : List SysmonEvent}
  {call : IngestCall}

/-- An alert that is not cooling down is returned and cools down from now on. -/
theorem Cooling.push (chain : Chain) (h : Cooling log reported now)
    (hready : ¬ ∃ last, reported.lookup (correlationId, rule) = some last ∧
      now - last < alertCooldown) :
    Cooling (log ++ [(now, buildAlert rule correlationId chain)])
      (reported.insert (correlationId, rule) now) now where
  spaced := by
    refine List.pairwise_append.mpr ⟨h.spaced, List.pairwise_singleton _ _, ?_⟩
    intro entry hentry new hnew id other hentryFor hnewFor
    rw [List.mem_singleton] at hnew
    subst hnew
    obtain ⟨rfl, rfl⟩ := isFor_buildAlert_iff.mp hnewFor
    by_contra hclose
    have hpast := h.past entry hentry
    obtain ⟨last, hlast, hle⟩ := h.known entry hentry _ _ hentryFor (by omega)
    exact hready ⟨last, hlast, by omega⟩
  past entry hentry := by
    rcases List.mem_append.mp hentry with hentry | hentry
    · exact h.past entry hentry
    · rw [List.mem_singleton.mp hentry]
  known entry hentry id other hfor hlt := by
    by_cases hkey : (id, other) = (correlationId, rule)
    · refine ⟨now, by rw [hkey, AList.lookup_insert], ?_⟩
      rcases List.mem_append.mp hentry with hentry | hentry
      · exact h.past entry hentry
      · rw [List.mem_singleton.mp hentry]
    · rw [AList.lookup_insert_ne hkey]
      rcases List.mem_append.mp hentry with hentry | hentry
      · exact h.known entry hentry id other hfor hlt
      · rw [List.mem_singleton.mp hentry] at hfor
        obtain ⟨rfl, rfl⟩ := isFor_buildAlert_iff.mp hfor
        exact absurd rfl hkey

theorem Cooling.report (h : Cooling log reported now) :
    Cooling (log ++ stamped now (report now correlationId chain rules reported).2)
      (report now correlationId chain rules reported).1 now := by
  induction rules generalizing log reported with
  | nil => simpa [BehaviorChainEngine.report, stamped] using h
  | cons rule rules ih =>
      unfold BehaviorChainEngine.report
      split_ifs with hcooling
      · exact ih h
      · have hready : ¬ ∃ last, reported.lookup (correlationId, rule) = some last ∧
            now - last < alertCooldown := by
          rintro ⟨last, hlast, hlt⟩
          exact hcooling (by simp [hlast, hlt])
        have hrest := ih (h.push chain hready)
        rwa [List.append_assoc] at hrest

theorem Cooling.ingestEvent (event : SysmonEvent) (h : Cooling log engine.reported now) :
    Cooling (log ++ stamped now (ingestEvent now engine event).2)
      (ingestEvent now engine event).1.reported now := by
  rcases ingestEvent_cases now engine event with ⟨-, hsame⟩ | ⟨id, kind, hid, hkind⟩
  · simpa [hsame, stamped] using h
  · rw [ingestEvent_of_classified hid hkind]
    exact h.report

theorem Cooling.ingestEvents (h : Cooling log engine.reported now) :
    Cooling (log ++ stamped now (ingestEvents now engine events).2)
      (ingestEvents now engine events).1.reported now := by
  induction events generalizing log engine with
  | nil => simpa [BehaviorChainEngine.ingestEvents, stamped] using h
  | cons event events ih =>
      have hrest := ih (h.ingestEvent event)
      rw [List.append_assoc] at hrest
      simpa [ingestEvents_cons, stamped] using hrest

/-- The pruning only drops cooldowns that are over. -/
theorem Cooling.prune (h : Cooling log engine.reported earlier) (hle : earlier ≤ now) :
    Cooling log (engine.prune now).reported now where
  spaced := h.spaced
  past entry hentry := (h.past entry hentry).trans hle
  known entry hentry id other hfor hlt := by
    obtain ⟨last, hlast, hentryLast⟩ := h.known entry hentry id other hfor (by omega)
    refine ⟨last, ?_, hentryLast⟩
    rw [BehaviorChainEngine.prune, Table.lookup_retain, hlast, Option.filter_some, if_pos]
    exact decide_eq_true (by omega)

/-- The call evicts no chain of a process for which an alert was returned less than
`ALERT_COOLDOWN` before. -/
def KeepsCooldowns (engine : BehaviorChainEngine) (call : IngestCall) : Prop :=
  ∀ correlationId rule last, correlationId ∈ (engine.filled call).chains →
    correlationId ∉ ((engine.filled call).enforceCapacity call.order).chains →
    (engine.filled call).reported.lookup (correlationId, rule) = some last →
    alertCooldown ≤ call.now - last

theorem Cooling.next (h : Cooling log engine.reported earlier) (hle : earlier ≤ call.now)
    (hkeeps : KeepsCooldowns engine call) :
    Cooling (log ++ stamped call.now (engine.alerts call)) (engine.next call).reported
      call.now := by
  have hfilled : Cooling (log ++ stamped call.now (engine.alerts call))
      (engine.filled call).reported call.now := (h.prune hle).ingestEvents
  refine ⟨hfilled.spaced, hfilled.past, ?_⟩
  intro entry hentry id other hfor hlt
  obtain ⟨last, hlast, hentryLast⟩ := hfilled.known entry hentry id other hfor hlt
  refine ⟨last, ?_, hentryLast⟩
  have hevicted := evictedFrom_enforceCapacity (engine.filled call) call.order
  apply (hevicted.reported (id, other) _).trans hlast
  intro hmem
  by_contra hgone
  have hover := hkeeps id other last hmem hgone hlast
  omega

end call

/-! ## Runs -/

section runs

variable {calls : List IngestCall} {call : IngestCall}

theorem alertLog_concat :
    alertLog (calls ++ [call]) =
      alertLog calls ++ stamped call.now ((engineAfter calls).alerts call) := by
  simp [alertLog, transcript_initial_concat]

/-- Spaced alerts of the first and the last call of a run. -/
theorem Spaced.apart {first last : IngestCall} (more : List IngestCall)
    (h : Spaced (alertLog (first :: more ++ [last]))) {alert again : BehaviorAlert}
    (halert : alert ∈ BehaviorChainEngine.initial.alerts first)
    (hagain : again ∈ (engineAfter (first :: more)).alerts last) {correlationId : String}
    {rule : Rule} (halertFor : alert.IsFor correlationId rule)
    (hagainFor : again.IsFor correlationId rule) : first.now + alertCooldown ≤ last.now := by
  rw [alertLog_concat] at h
  refine (List.pairwise_append.mp h).2.2 (first.now, alert) ?_ (last.now, again)
    (List.mem_map_of_mem hagain) correlationId rule halertFor hagainFor
  rw [alertLog, transcript, List.flatMap_cons]
  exact List.mem_append_left _ (List.mem_map_of_mem halert)

/-- The cooldown table after a run that evicts no running cooldown. -/
theorem cooling_engineAfter (htimes : TimesOrdered calls)
    (hkeeps : StepsMeet KeepsCooldowns callStep .initial calls) {now : ℕ}
    (hnow : ∀ call ∈ calls, call.now ≤ now) :
    Cooling (alertLog calls) (engineAfter calls).reported now := by
  induction calls using List.reverseRecOn generalizing now with
  | nil => exact ⟨List.Pairwise.nil, by simp [alertLog, transcript], by simp [alertLog, transcript]⟩
  | append_singleton calls call ih =>
      obtain ⟨hbefore, -, hlast⟩ := List.pairwise_append.mp htimes
      obtain ⟨hkeepsBefore, hkeepsCall⟩ := stepsMeet_concat.mp hkeeps
      have hearlier := ih hbefore hkeepsBefore fun earlier hmem =>
        hlast earlier hmem call List.mem_cons_self
      have hcall := hearlier.next (Nat.le_refl _) (hkeepsCall _ run_callStep)
      rw [alertLog_concat, engineAfter_concat]
      have hle : call.now ≤ now := hnow call (by simp)
      refine ⟨hcall.spaced, fun entry hentry => (hcall.past entry hentry).trans hle, ?_⟩
      intro entry hentry id rule hfor hlt
      exact hcall.known entry hentry id rule hfor (by omega)

/-- A run that evicts nothing evicts no running cooldown. -/
theorem keepsCooldowns_of_neverEvicts (h : NeverEvicts calls) :
    StepsMeet KeepsCooldowns callStep .initial calls := by
  induction calls using List.reverseRecOn with
  | nil => trivial
  | append_singleton calls call ih =>
      obtain ⟨hbefore, hfits⟩ := neverEvicts_concat.mp h
      refine stepsMeet_concat.mpr ⟨ih hbefore, ?_⟩
      intro engine hrun
      rw [run_callStep, Option.some_inj] at hrun
      subst hrun
      intro correlationId rule last hmem hgone
      refine absurd ?_ hgone
      exact (enforceCapacity_of_size_le call.order hfits).symm ▸ hmem

/-- **Alerts cool down.** In every run whose times do not go back and that evicts no running
cooldown, alerts for the same process and the same rule are at least `ALERT_COOLDOWN` apart. -/
theorem alerts_cool_down (calls : List IngestCall) (htimes : TimesOrdered calls)
    (hkeeps : StepsMeet KeepsCooldowns callStep .initial calls) : Spaced (alertLog calls) := by
  obtain ⟨now, hnow⟩ : ∃ now, ∀ call ∈ calls, call.now ≤ now := by
    refine ⟨(calls.map (·.now)).sum, fun call hcall => ?_⟩
    exact List.le_sum_of_mem (List.mem_map_of_mem hcall)
  exact (cooling_engineAfter htimes hkeeps hnow).spaced

/-- `alerts_cool_down` for an access and a connection. -/
theorem alerts_cool_down_sample : Spaced (alertLog [sampleAccessCall, sampleConnectionCall]) :=
  alerts_cool_down _ (by unfold TimesOrdered; decide +kernel)
    (keepsCooldowns_of_neverEvicts (neverEvicts_of_length_le (by decide)))

end runs

/-! ## A flood of other processes -/

section flood

variable {engine : BehaviorChainEngine} {call : IngestCall} {correlationId : String} {old : Chain}

/-- With too many chains, the one that was seen before all the others is evicted. -/
theorem notMem_next_of_oldest (hsize : maximumChains < (engine.filled call).chains.size)
    (hold : (engine.filled call).chains.lookup correlationId = some old)
    (holdest : ∀ other chain, other ≠ correlationId →
      (engine.filled call).chains.lookup other = some chain → old.lastSeen < chain.lastSeen) :
    correlationId ∉ (engine.next call).chains := by
  intro hkept
  have hevicted := evictedFrom_enforceCapacity (engine.filled call) call.order
  obtain ⟨gone, hmem, hgone⟩ : ∃ gone, gone ∈ (engine.filled call).chains ∧
      gone ∉ (engine.next call).chains := by
    by_contra hnone
    simp only [not_exists, not_and, not_not] at hnone
    have hle := Table.size_le_of_subset hnone
    have hbound := size_chains_enforceCapacity (engine.filled call) call.order
    exact absurd (hle.trans hbound) (Nat.not_le.mpr hsize)
  have hne : gone ≠ correlationId := by
    rintro rfl
    exact hgone hkept
  obtain ⟨chain, hchain⟩ := Table.exists_lookup_of_mem hmem
  obtain ⟨kept, hlookup⟩ := Table.exists_lookup_of_mem hkept
  have hsame : old = kept := by
    rw [← Option.some_inj, ← hold]
    exact hevicted.chains correlationId kept hlookup
  have hle := hevicted.oldest gone chain correlationId kept hchain hgone hlookup
  have hlt := holdest gone chain hne hchain
  rw [← hsame] at hle
  omega

/-- Nothing is left of an evicted process. -/
theorem agreeOn_initial_of_evicted (hmem : correlationId ∈ (engine.filled call).chains)
    (hgone : correlationId ∉ (engine.next call).chains) :
    AgreeOn correlationId (engine.next call) .initial where
  chain := by
    rw [AList.lookup_eq_none.mpr hgone]
    rfl
  reported rule := by
    have hevicted := evictedFrom_enforceCapacity (engine.filled call) call.order
    exact hevicted.forgotten (correlationId, rule) hmem hgone

/-- A classified event opens a chain for its process. -/
theorem mem_chains_of_mem_events {now : ℕ} {events : List SysmonEvent} {event : SysmonEvent}
    (hmem : event ∈ events) (hid : stableCorrelationId event = some correlationId)
    (hkind : (classify event).isSome) :
    correlationId ∈ (ingestEvents now engine events).1.chains := by
  obtain ⟨before, after, rfl⟩ := List.append_of_mem hmem
  obtain ⟨kind, hkind⟩ := Option.isSome_iff_exists.mp hkind
  rw [ingestEvents_append, ingestEvents_cons]
  apply mem_chains_ingestEvents
  rw [ingestEvent_of_classified hid hkind]
  simp

/-- Another process injects code. -/
def floodEvent (number : ℕ) : SysmonEvent where
  eventId := 8
  occurredAt := "2026-08-08T12:00:01Z"
  fields := Table.collect [("SourceProcessGuid", "B" ++ toString number),
    ("SourceImage", "C:\\Users\\me\\other.exe")]

/-- The process of a flood event. -/
def floodId (number : ℕ) : String := "sysmon-" ++ ("B" ++ toString number)

theorem floodId_injective : Function.Injective floodId := by
  intro m n h
  have hchars := congrArg String.toList h
  simp only [floodId, String.toList_append, List.append_cancel_left_eq] at hchars
  exact toString_nat_injective (String.toList_injective hchars)

theorem floodId_ne (number : ℕ) : "sysmon-A" ≠ floodId number := by
  intro h
  have hchars := congrArg String.toList h
  simp [floodId] at hchars

theorem stableCorrelationId_floodEvent (number : ℕ) :
    stableCorrelationId (floodEvent number) = some (floodId number) := by
  simp [stableCorrelationId, SysmonEvent.field, floodEvent, floodId, Table.lookup_collect]

theorem classify_floodEvent (number : ℕ) : classify (floodEvent number) = some .injection := by
  simp [classify, floodEvent]

/-- Events of as many other processes. -/
def floodCall (size : ℕ) : IngestCall := ⟨default, 1, (List.range size).map floodEvent⟩

/-- A credential access with a connection. -/
def attackCall (now : ℕ) : IngestCall := ⟨default, now, [sampleAccess, sampleConnection]⟩

theorem eventsOf_floodCall (size : ℕ) : eventsOf "sysmon-A" (floodCall size).events = [] := by
  apply List.filter_eq_nil_iff.mpr
  intro event hmem
  obtain ⟨number, -, rfl⟩ := List.mem_map.mp hmem
  simp [stableCorrelationId_floodEvent, Ne.symm (floodId_ne number)]

/-- A flood leaves the chain of the process alone and adds one for each of its events. -/
theorem floodCall_fills {before : BehaviorChainEngine} (size : ℕ)
    (hkeys : (before.prune 1).chains.keys = ["sysmon-A"])
    (hold : (before.prune 1).chains.lookup "sysmon-A" = some old) :
    size < (before.filled (floodCall size)).chains.size ∧
      (before.filled (floodCall size)).chains.lookup "sysmon-A" = some old ∧
      ∀ other chain, other ≠ "sysmon-A" →
        (before.filled (floodCall size)).chains.lookup other = some chain →
        chain.lastSeen = 1 := by
  have hagree : AgreeOn "sysmon-A" (before.filled (floodCall size)) (before.prune 1) := by
    have hevents := (agreeOn_ingestEvents 1 (floodCall size).events
      (AgreeOn.refl "sysmon-A" (before.prune 1))).1
    rwa [eventsOf_floodCall] at hevents
  have hlookup := hagree.chain.trans hold
  refine ⟨?_, hlookup, ?_⟩
  · have hnodup : ("sysmon-A" :: (List.range size).map floodId).Nodup := by
      refine List.nodup_cons.mpr ⟨?_, List.nodup_range.map floodId_injective⟩
      intro hmem
      obtain ⟨number, -, heq⟩ := List.mem_map.mp hmem
      exact floodId_ne number heq.symm
    have hlength := Table.length_le_size (t := (before.filled (floodCall size)).chains) hnodup ?_
    · rw [List.length_cons, List.length_map, List.length_range] at hlength
      exact hlength
    · intro id hid
      rcases List.mem_cons.mp hid with rfl | hid
      · exact Table.mem_of_lookup_eq_some hlookup
      · obtain ⟨number, hnumber, rfl⟩ := List.mem_map.mp hid
        exact mem_chains_of_mem_events (List.mem_map_of_mem hnumber)
          (stableCorrelationId_floodEvent number) (by simp [classify_floodEvent])
  · refine ingestEvents_invariant (P := fun engine => ∀ other chain, other ≠ "sysmon-A" →
      engine.chains.lookup other = some chain → chain.lastSeen = 1) ?_ ?_
    · intro engine event h other chain hne hchain
      rcases lookup_ingestEvent hchain with ⟨kind, -, -, rfl⟩ | ⟨-, hchain⟩
      · rfl
      · exact h other chain hne hchain
    · intro other chain hne hchain
      have hmem := AList.mem_keys.mp (Table.mem_of_lookup_eq_some hchain)
      rw [show (floodCall size).now = 1 from rfl, hkeys, List.mem_singleton] at hmem
      exact absurd hmem hne

theorem attackCall_leaves :
    ((engineAfter [attackCall 0]).prune 1).chains.keys = ["sysmon-A"] ∧
      (((engineAfter [attackCall 0]).prune 1).chains.lookup "sysmon-A").map (·.lastSeen) =
        some 0 := by decide +kernel

/-- The flood evicts the process, its cooldown with it. -/
theorem agreeOn_initial_floodCall {size : ℕ} (h : maximumChains ≤ size) :
    AgreeOn "sysmon-A" (engineAfter [attackCall 0, floodCall size]) .initial := by
  obtain ⟨hkeys, hseen⟩ := attackCall_leaves
  obtain ⟨old, hold, hzero⟩ := Option.map_eq_some_iff.mp hseen
  obtain ⟨hsize, hlookup, hnewer⟩ := floodCall_fills size hkeys hold
  refine agreeOn_initial_of_evicted (Table.mem_of_lookup_eq_some hlookup) ?_
  refine notMem_next_of_oldest (h.trans_lt hsize) hlookup fun other chain hne hchain => ?_
  rw [hzero, hnewer other chain hne hchain]
  exact Nat.one_pos

/-- The attack raises an alert in an engine that knows nothing. -/
theorem attackCall_alerts (now : ℕ) (h : now = 0 ∨ now = 2) :
    ∃ alert ∈ BehaviorChainEngine.initial.alerts (attackCall now),
      alert.IsFor "sysmon-A" .credentialExfiltration := by
  have hany : (BehaviorChainEngine.initial.alerts (attackCall now)).any (fun alert =>
      alert.correlationId == "sysmon-A" &&
        alert.eventType == Rule.credentialExfiltration.eventType) = true := by
    rcases h with rfl | rfl <;> decide +kernel
  obtain ⟨alert, hmem, hfor⟩ := List.any_eq_true.mp hany
  exact ⟨alert, hmem, by simpa [BehaviorAlert.IsFor] using hfor⟩

/-- The attack, the flood, and the attack again. -/
def floodRun : List IngestCall := [attackCall 0, floodCall maximumChains, attackCall 2]

/-- A flood of other processes makes an alert repeat after two nanoseconds. -/
theorem cooldown_evicted : TimesOrdered floodRun ∧ ¬ Spaced (alertLog floodRun) := by
  refine ⟨by simp [TimesOrdered, floodRun, attackCall, floodCall], fun hspaced => ?_⟩
  obtain ⟨first, hfirst, hfirstFor⟩ := attackCall_alerts 0 (Or.inl rfl)
  -- after the flood the engine knows as little of the process as at the start
  obtain ⟨again, hagain, hagainFor⟩ : ∃ alert ∈ (engineAfter [attackCall 0,
      floodCall maximumChains]).alerts (attackCall 2),
      alert.IsFor "sysmon-A" .credentialExfiltration := by
    obtain ⟨alert, hmem, hfor⟩ := attackCall_alerts 2 (Or.inr rfl)
    have halerts := (agreeOn_filled (agreeOn_initial_floodCall (Nat.le_refl maximumChains))
      (SameCallFor.refl "sysmon-A" (attackCall 2))).2
    have hmine : alert ∈ alertsFor "sysmon-A"
        (BehaviorChainEngine.initial.alerts (attackCall 2)) :=
      List.mem_filter.mpr ⟨hmem, by simpa using hfor.1⟩
    rw [← halerts] at hmine
    exact ⟨alert, (List.mem_filter.mp hmine).1, hfor⟩
  have hapart := hspaced.apart [floodCall maximumChains] hfirst hagain hfirstFor hagainFor
  exact absurd hapart (by decide)

end flood

end OpenGuard.Service
