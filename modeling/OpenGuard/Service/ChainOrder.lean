import OpenGuard.Service.ChainStore

/-!
# The order of the signals of a chain

Two rules are reported as an access or an injection *followed by* outbound activity, but a rule only
looks at which signals are held.

* `FollowedBy`: outbound activity comes after a signal of a kind.
* `Raises`: an event raises an alert for a rule; `exists_alert_iff_raises`.
* `alerts_follow_iff`: the alerts of a run keep the order that their titles state exactly when the
  events that raise them do.
* `order_ignored`: a connection that comes before the access raises the alert.
-/

namespace OpenGuard.Service

open OpenGuard.Lib OpenGuard.Domain OpenGuard.Windows BehaviorChainEngine

/-- The signal that, in the title of a rule, outbound activity follows. -/
def Rule.precursor : Rule → Option SignalKind
  | credentialExfiltration => some .credentialAccess
  | injectionBeacon => some .injection
  | dropPersistenceBeacon => none

/-- Outbound activity comes after a signal of the kind. -/
def FollowedBy (kind : SignalKind) (observations : List Observation) : Prop :=
  [kind, SignalKind.network].Sublist (observations.map (·.kind))

/-! ## Where signals come from -/

/-- Every signal held was observed. -/
def Recalls (history : History) (engine : BehaviorChainEngine) : Prop :=
  ∀ correlationId chain, engine.chains.lookup correlationId = some chain →
    chain.signals ⊆ (observationsOf correlationId history).map Observation.signal

section recalls

variable {history : History} {engine : BehaviorChainEngine} {now : ℕ} {calls : List IngestCall}

theorem recalls_prune (now : ℕ) (h : Recalls history engine) :
    Recalls history (engine.prune now) := by
  intro correlationId chain hchain
  obtain ⟨old, hold, rfl⟩ := lookup_prune hchain
  exact fun signal hsignal => h correlationId old hold (List.mem_of_mem_filter hsignal)

theorem recalls_ingestEvent (now : ℕ) (event : SysmonEvent) (h : Recalls history engine) :
    Recalls (history ++ [(now, event)]) (ingestEvent now engine event).1 := by
  intro correlationId chain hchain signal hsignal
  rcases lookup_ingestEvent hchain with ⟨kind, hid, hkind, rfl⟩ | ⟨hother, hold⟩
  · rw [observationsOf_concat hid hkind, List.map_append]
    rcases mem_of_mem_pushBack hsignal with hsignal | rfl
    · cases hold : engine.chains.lookup correlationId with
      | none => simp [hold] at hsignal
      | some old =>
          rw [hold] at hsignal
          exact List.mem_append_left _ (h correlationId old hold hsignal)
    · exact List.mem_append_right _ List.mem_cons_self
  · rw [observationsOf_concat_of_not hother]
    exact h correlationId chain hold hsignal

theorem recalls_ingestEvents (now : ℕ) (events : List SysmonEvent) (h : Recalls history engine) :
    Recalls (history ++ events.map (now, ·)) (ingestEvents now engine events).1 := by
  induction events generalizing history engine with
  | nil => simpa [ingestEvents] using h
  | cons event events ih =>
      have hrest := ih (recalls_ingestEvent now event h)
      rw [List.append_assoc] at hrest
      simpa [ingestEvents_cons] using hrest

/-- After every run the signals held were observed, also when times go back. -/
theorem recalls_engineAfter (calls : List IngestCall) :
    Recalls (historyOf calls) (engineAfter calls) := by
  induction calls using List.reverseRecOn with
  | nil =>
      intro correlationId chain hchain
      simp [engineAfter, BehaviorChainEngine.initial] at hchain
  | append_singleton calls call ih =>
      have hfilled := recalls_ingestEvents call.now call.events (recalls_prune call.now ih)
      rw [historyOf_concat, engineAfter_concat]
      intro correlationId chain hchain
      apply hfilled correlationId chain
      exact (evictedFrom_enforceCapacity _ call.order).chains correlationId chain hchain

end recalls

/-! ## What raises an alert -/

/-- The event raises an alert for a process and a rule: with its signal the rule matches the chain
of the process, and no cooldown is running. -/
def Raises (now : ℕ) (engine : BehaviorChainEngine) (event : SysmonEvent) (correlationId : String)
    (rule : Rule) : Prop :=
  stableCorrelationId event = some correlationId ∧
    (∃ kind, classify event = some kind ∧
      rule ∈ matchingRules (observe now event kind (engine.chains.lookup correlationId))) ∧
    ¬ ∃ last, engine.reported.lookup (correlationId, rule) = some last ∧
      now - last < alertCooldown

section raises

variable {now : ℕ} {engine : BehaviorChainEngine} {event : SysmonEvent} {correlationId : String}
  {rule : Rule} {chain : Chain} {rules : List Rule} {reported : Table (String × Rule) ℕ}

/-- A rule that is reported was not cooling down. -/
theorem not_cooling_of_mem_report
    (h : buildAlert rule correlationId chain ∈ (report now correlationId chain rules reported).2) :
    ¬ ∃ last, reported.lookup (correlationId, rule) = some last ∧ now - last < alertCooldown := by
  induction rules generalizing reported with
  | nil => simp [report] at h
  | cons first rules ih =>
      unfold report at h
      split_ifs at h with hcooling
      · exact ih h
      · by_cases hfirst : rule = first
        · subst hfirst
          rintro ⟨last, hlast, hlt⟩
          exact hcooling (by simp [hlast, hlt])
        · have hne : (correlationId, rule) ≠ (correlationId, first) := by simp [hfirst]
          rcases List.mem_cons.mp h with hsame | h
          · have htype : rule.eventType = first.eventType := congrArg BehaviorAlert.eventType hsame
            exact absurd (Rule.eventType_injective htype) hfirst
          · have hrest := ih h
            rwa [AList.lookup_insert_ne hne] at hrest

/-- The alerts of an event are those it raises. -/
theorem exists_alert_iff_raises :
    (∃ alert ∈ (ingestEvent now engine event).2, alert.IsFor correlationId rule) ↔
      Raises now engine event correlationId rule := by
  constructor
  · rintro ⟨alert, halert, hfor⟩
    obtain ⟨other, chain, hid, hchain, hrule, hbuilt⟩ := mem_ingestEvent_alerts halert
    rw [hbuilt] at hfor
    obtain ⟨hsame, rfl⟩ := isFor_buildAlert_iff.mp hfor
    rw [hsame] at hid hchain hbuilt
    rcases lookup_ingestEvent hchain with ⟨kind, -, hkind, rfl⟩ | ⟨hother, -⟩
    · refine ⟨hid, ⟨kind, hkind, hrule⟩, ?_⟩
      rw [ingestEvent_of_classified hid hkind, hbuilt] at halert
      exact not_cooling_of_mem_report halert
    · rcases ingestEvent_cases now engine event with ⟨-, hnone⟩ | ⟨_, kind, -, hkind⟩
      · simp [hnone] at halert
      · exact absurd ⟨hid, by simp [hkind]⟩ hother
  · rintro ⟨hid, ⟨kind, hkind, hrule⟩, hready⟩
    rw [ingestEvent_of_classified hid hkind]
    exact ⟨_, (report_or_cooling hrule).resolve_right hready,
      isFor_buildAlert_iff.mpr ⟨rfl, rfl⟩⟩

end raises

/-! ## Order -/

/-- The engine when an event of a call is next. -/
def engineAt (calls : List IngestCall) (now : ℕ) (before : List SysmonEvent) :
    BehaviorChainEngine := (ingestEvents now ((engineAfter calls).prune now) before).1

/-- Where the title of an alert puts a signal before outbound activity, there is such an order among
the events of the process in the window, up to the call that returns the alert. -/
def AlertsFollow (calls : List IngestCall) : Prop :=
  ∀ earlier call later, calls = earlier ++ call :: later →
    ∀ (rule : Rule) kind, rule.precursor = some kind →
      ∀ alert ∈ (engineAfter earlier).alerts call, ∀ correlationId,
        alert.IsFor correlationId rule →
          FollowedBy kind
            (recentObservations call.now correlationId (historyOf (earlier ++ [call])))

/-- An event that raises such an alert is outbound activity itself, or some follows in the same
call, or some had already followed such a signal in the window. -/
def RaisedInOrder (calls : List IngestCall) : Prop :=
  ∀ earlier call later before event after, calls = earlier ++ call :: later →
    call.events = before ++ event :: after →
    ∀ (rule : Rule) kind, rule.precursor = some kind → ∀ correlationId,
      Raises call.now (engineAt earlier call.now before) event correlationId rule →
        classify event = some .network ∨
          (∃ other ∈ after, stableCorrelationId other = some correlationId ∧
            classify other = some .network) ∨
          FollowedBy kind (recentObservations call.now correlationId
            (historyOf earlier ++ before.map (call.now, ·)))

section order

variable {calls : List IngestCall} {call : IngestCall} {now : ℕ} {history rest : History}
  {correlationId : String} {before after : List SysmonEvent} {event : SysmonEvent} {rule : Rule}
  {kind : SignalKind}

/-- A pair in the order of a list, given where its first item is. -/
theorem pair_sublist_iff {α : Type*} {a b item : α} {front back : List α} (hne : a ≠ b)
    (ha : a ∈ front ++ [item]) :
    [a, b].Sublist (front ++ item :: back) ↔ item = b ∨ b ∈ back ∨ [a, b].Sublist front := by
  constructor
  · intro h
    obtain ⟨first, second, hsplit, hfront, hback⟩ := List.sublist_append_iff.mp h
    rcases first with _ | ⟨c, _ | ⟨d, first⟩⟩
    · have hmem : b ∈ back := by
        rw [List.nil_append] at hsplit
        rw [← hsplit] at hback
        rcases List.sublist_cons_iff.mp hback with hback | ⟨tail, htail, hback⟩
        · exact hback.subset (by simp)
        · rw [List.cons.injEq] at htail
          rw [← htail.2] at hback
          exact hback.subset (by simp)
      exact Or.inr (Or.inl hmem)
    · rw [List.singleton_append, List.cons.injEq] at hsplit
      rw [← hsplit.2, List.singleton_sublist, List.mem_cons] at hback
      rcases hback with rfl | hback
      · exact Or.inl rfl
      · exact Or.inr (Or.inl hback)
    · simp only [List.cons_append, List.cons.injEq, List.nil_eq, List.append_eq_nil_iff] at hsplit
      obtain ⟨rfl, rfl, rfl, -⟩ := hsplit
      exact Or.inr (Or.inr hfront)
  · rintro (rfl | hb | hfront)
    · have hmem : a ∈ front := by simpa [hne] using ha
      exact List.Sublist.append (List.singleton_sublist.mpr hmem)
        (List.singleton_sublist.mpr List.mem_cons_self)
    · have hsplit : front ++ item :: back = (front ++ [item]) ++ back := by simp
      rw [hsplit]
      exact List.Sublist.append (List.singleton_sublist.mpr ha) (List.singleton_sublist.mpr hb)
    · exact hfront.trans (List.sublist_append_left _ _)

theorem recentObservations_append :
    recentObservations now correlationId (history ++ rest) =
      recentObservations now correlationId history ++
        recentObservations now correlationId rest := by
  simp [recentObservations, observationsOf]

/-- A classified event of the running call is recent. -/
theorem recentObservations_cons (hid : stableCorrelationId event = some correlationId)
    (hkind : classify event = some kind) :
    recentObservations now correlationId ((now, event) :: rest) =
      ⟨now, event, kind⟩ :: recentObservations now correlationId rest := by
  have hentry : observationOf correlationId (now, event) = some ⟨now, event, kind⟩ :=
    observationOf_eq_some_iff.mpr ⟨rfl, hid, hkind⟩
  simp [recentObservations, observationsOf, List.filterMap_cons_some hentry]

theorem mem_kinds_recentObservations :
    kind ∈ (recentObservations now correlationId (after.map (now, ·))).map (·.kind) ↔
      ∃ other ∈ after, stableCorrelationId other = some correlationId ∧
        classify other = some kind := by
  constructor
  · intro h
    obtain ⟨observation, hmem, rfl⟩ := List.mem_map.mp h
    obtain ⟨hhistory, hid, hclassified⟩ := mem_observationsOf (List.mem_of_mem_filter hmem)
    obtain ⟨other, hother, heq⟩ := List.mem_map.mp hhistory
    cases heq
    exact ⟨_, hother, hid, hclassified⟩
  · rintro ⟨other, hother, hid, hclassified⟩
    refine List.mem_map.mpr ⟨⟨now, other, kind⟩, List.mem_filter.mpr ⟨?_, by simp⟩, rfl⟩
    exact List.mem_filterMap.mpr ⟨(now, other), List.mem_map_of_mem hother,
      observationOf_eq_some_iff.mpr ⟨rfl, hid, hclassified⟩⟩

/-- The signals of a precursor and of outbound activity differ. -/
theorem Rule.precursor_ne_network (h : rule.precursor = some kind) : kind ≠ .network := by
  rintro rfl
  cases rule <;> simp [Rule.precursor] at h

theorem Rule.precursor_mem_requires (h : rule.precursor = some kind) : kind ∈ rule.requires := by
  cases rule with
  | credentialExfiltration =>
      rw [← Option.some_inj.mp h]
      decide
  | injectionBeacon =>
      rw [← Option.some_inj.mp h]
      decide
  | dropPersistenceBeacon => simp [Rule.precursor] at h

/-- With the event that raises an alert, the signals that its rule requires are in the window. -/
theorem mem_kinds_of_raises
    (hraises : Raises call.now (engineAt calls call.now before) event correlationId rule)
    {required : SignalKind} (hrequired : required ∈ rule.requires)
    (hkind : classify event = some kind) :
    required ∈ (recentObservations call.now correlationId
      (historyOf calls ++ before.map (call.now, ·))).map (·.kind) ++ [kind] := by
  obtain ⟨-, ⟨same, hsame, hrule⟩, -⟩ := hraises
  obtain rfl : same = kind := Option.some_inj.mp (hsame.symm.trans hkind)
  obtain ⟨signal, hsignal, rfl⟩ := mem_matchingRules_iff.mp hrule required hrequired
  rcases mem_of_mem_pushBack hsignal with hold | rfl
  · apply List.mem_append_left
    cases hchain : (engineAt calls call.now before).chains.lookup correlationId with
    | none => simp [hchain] at hold
    | some chain =>
        rw [hchain] at hold
        have hrecalls := recalls_ingestEvents call.now before
          (recalls_prune call.now (recalls_engineAfter calls))
        obtain ⟨observation, hmem, rfl⟩ := List.mem_map.mp (hrecalls _ chain hchain hold)
        have hrecent := isRecent_ingestEvents isRecent_prune _ chain hchain _ hold
        exact List.mem_map.mpr ⟨observation, List.mem_filter.mpr ⟨hmem, decide_eq_true hrecent⟩,
          rfl⟩
  · simp

/-- When the alerts that an event raises have the order of their title. -/
theorem followedBy_iff (hsplit : call.events = before ++ event :: after)
    (hraises : Raises call.now (engineAt calls call.now before) event correlationId rule)
    {precursor : SignalKind} (hprecursor : rule.precursor = some precursor) :
    FollowedBy precursor
        (recentObservations call.now correlationId (historyOf (calls ++ [call]))) ↔
      classify event = some .network ∨
        (∃ other ∈ after, stableCorrelationId other = some correlationId ∧
          classify other = some .network) ∨
        FollowedBy precursor (recentObservations call.now correlationId
          (historyOf calls ++ before.map (call.now, ·))) := by
  obtain ⟨hid, ⟨kind, hkind, hrule⟩, hready⟩ := hraises
  have hprecedes := mem_kinds_of_raises ⟨hid, ⟨kind, hkind, hrule⟩, hready⟩
    (Rule.precursor_mem_requires hprecursor) hkind
  have hobservations : recentObservations call.now correlationId (historyOf (calls ++ [call])) =
      recentObservations call.now correlationId (historyOf calls ++ before.map (call.now, ·)) ++
        ⟨call.now, event, kind⟩ ::
          recentObservations call.now correlationId (after.map (call.now, ·)) := by
    rw [historyOf_concat, hsplit, List.map_append, List.map_cons, ← List.append_assoc,
      recentObservations_append, recentObservations_cons hid hkind]
  rw [FollowedBy, hobservations, List.map_append, List.map_cons,
    pair_sublist_iff (Rule.precursor_ne_network hprecursor) hprecedes,
    mem_kinds_recentObservations, hkind, Option.some_inj, FollowedBy]

/-- **The order of the alerts.** In every run the alerts that are called an access or an injection
followed by outbound activity have that order in the window exactly when the events that raise them
do. -/
theorem alerts_follow_iff (calls : List IngestCall) : AlertsFollow calls ↔ RaisedInOrder calls := by
  constructor
  · intro h earlier call later before event after hcalls hsplit rule kind hrule id hraises
    refine (followedBy_iff hsplit hraises hrule).mp ?_
    obtain ⟨alert, halert, hfor⟩ := exists_alert_iff_raises.mpr hraises
    refine h earlier call later hcalls rule kind hrule alert ?_ id hfor
    rw [BehaviorChainEngine.alerts, ingestAt, hsplit, ingestEvents_append, ingestEvents_cons]
    exact List.mem_append_right _ (List.mem_append_left _ halert)
  · intro h earlier call later hcalls rule kind hrule alert halert id hfor
    obtain ⟨before, event, after, hsplit, hraised⟩ := exists_split_of_mem_ingestEvents halert
    have hraises := exists_alert_iff_raises.mp ⟨alert, hraised, hfor⟩
    exact (followedBy_iff hsplit hraises hrule).mpr
      (h earlier call later before event after hcalls hsplit rule kind hrule id hraises)

/-- The connection comes before the access. -/
def reversedCall : IngestCall := ⟨default, 0, [sampleConnection, sampleAccess]⟩

/-- A connection that comes before the access raises the alert all the same. -/
theorem order_ignored : ¬ AlertsFollow [reversedCall] := by
  intro h
  have hany : ((engineAfter []).alerts reversedCall).any (fun alert =>
      alert.correlationId == "sysmon-A" &&
        alert.eventType == Rule.credentialExfiltration.eventType) = true := by decide +kernel
  obtain ⟨alert, halert, hfor⟩ := List.any_eq_true.mp hany
  have hfollows := h [] reversedCall [] rfl .credentialExfiltration .credentialAccess rfl alert
    halert "sysmon-A" (by simpa [BehaviorAlert.IsFor] using hfor)
  revert hfollows
  unfold FollowedBy
  decide +kernel

end order

end OpenGuard.Service
