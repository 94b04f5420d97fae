import OpenGuard.Service.ChainCompleteness
import Mathlib.Data.List.ProdSigma

/-!
# The size of the cooldown table

Capacity eviction forgets the cooldowns of a process with its chain. The pruning does not: a chain
goes when its window is over and its cooldowns stay for an hour.

* `CooldownsFollow`: every cooldown is of a process that has a chain; `size_reported_le` bounds the
  table then.
* `cooldown_table_bounded`: as long as the pruning drops no chain of a process that is cooling down,
  the table has at most three entries for each chain that there may be.
* `cooldowns_outlive_chains`: processes that alert and fall silent fill it beyond that.
-/

namespace OpenGuard.Service

open OpenGuard.Lib OpenGuard.Domain OpenGuard.Windows BehaviorChainEngine

/-- The rules, in the order in which they are tried. -/
def Rule.every : List Rule := [.credentialExfiltration, .injectionBeacon, .dropPersistenceBeacon]

theorem Rule.mem_every (rule : Rule) : rule ∈ Rule.every := by
  cases rule <;> decide

/-- Every cooldown is of a process that has a chain. -/
def CooldownsFollow (engine : BehaviorChainEngine) : Prop :=
  ∀ key ∈ engine.reported, key.1 ∈ engine.chains

/-- The pruning of the call drops no chain, because its signals are older than `CHAIN_WINDOW`, of a
process that it keeps a cooldown of. -/
def PrunesTogether (engine : BehaviorChainEngine) (call : IngestCall) : Prop :=
  ∀ key chain last, engine.chains.lookup key.1 = some chain →
    engine.reported.lookup key = some last → call.now - last ≤ alertCooldown →
    ∃ signal ∈ chain.signals, call.now - signal.observedAt ≤ chainWindow

/-! ## One call -/

section call

variable {engine before after : BehaviorChainEngine} {now last : ℕ} {event : SysmonEvent}
  {events : List SysmonEvent} {call : IngestCall} {correlationId : String} {chain : Chain}
  {rule : Rule} {rules : List Rule} {reported : Table (String × Rule) ℕ} {key : String × Rule}

/-- Three cooldowns for each chain at most. -/
theorem size_reported_le (h : CooldownsFollow engine) :
    engine.reported.size ≤ 3 * engine.chains.size := by
  have hkeys : ∀ key ∈ engine.reported, key ∈ engine.chains.keys ×ˢ Rule.every := by
    intro key hkey
    exact List.pair_mem_product.mpr ⟨AList.mem_keys.mp (h key hkey), Rule.mem_every key.2⟩
  have hlength := Table.size_le_length hkeys
  rw [List.length_product, ← Table.size_eq_length_keys, Nat.mul_comm] at hlength
  exact hlength

/-- A cooldown that the pruning keeps ran before and is not over. -/
theorem lookup_reported_prune :
    (engine.prune now).reported.lookup key = some last ↔
      engine.reported.lookup key = some last ∧ now - last ≤ alertCooldown := by
  rw [prune, Table.lookup_retain, Option.filter_eq_some_iff, decide_eq_true_iff]

/-- A chain with a signal in the window survives the pruning. -/
theorem mem_chains_prune (hchain : engine.chains.lookup correlationId = some chain)
    (h : ∃ signal ∈ chain.signals, now - signal.observedAt ≤ chainWindow) :
    correlationId ∈ (engine.prune now).chains := by
  obtain ⟨signal, hsignal, hrecent⟩ := h
  have hne : (chain.signals.filter fun signal => now - signal.observedAt ≤ chainWindow) ≠ [] := by
    intro hnil
    exact List.filter_eq_nil_iff.mp hnil signal hsignal (by simpa using hrecent)
  apply AList.lookup_isSome.mp
  rw [prune, Table.lookup_filterMap, hchain, Option.bind_some]
  dsimp only
  rw [if_neg hne, Option.isSome_some]

theorem CooldownsFollow.prune (h : CooldownsFollow engine) (hmeets : PrunesTogether engine call) :
    CooldownsFollow (engine.prune call.now) := by
  intro key hkey
  obtain ⟨last, hlast⟩ := Table.exists_lookup_of_mem hkey
  obtain ⟨hold, hcooling⟩ := lookup_reported_prune.mp hlast
  have hmem := h key (Table.mem_of_lookup_eq_some hold)
  obtain ⟨chain, hchain⟩ := Table.exists_lookup_of_mem hmem
  exact mem_chains_prune hchain (hmeets key chain last hchain hold hcooling)

theorem CooldownsFollow.ingestEvent (event : SysmonEvent) (h : CooldownsFollow engine) :
    CooldownsFollow (ingestEvent now engine event).1 := by
  rcases ingestEvent_cases now engine event with ⟨-, hsame⟩ | ⟨id, kind, hid, hkind⟩
  · rwa [hsame]
  · intro key hkey
    obtain ⟨last, hlast⟩ := Table.exists_lookup_of_mem hkey
    rw [ingestEvent_of_classified hid hkind] at hlast ⊢
    apply (AList.mem_insert _).mpr
    rcases lookup_report hlast with hold | ⟨-, heq, -⟩
    · exact Or.inr (h key (Table.mem_of_lookup_eq_some hold))
    · exact Or.inl heq

theorem CooldownsFollow.ingestEvents (h : CooldownsFollow engine) :
    CooldownsFollow (ingestEvents now engine events).1 :=
  ingestEvents_invariant (fun _ event hs => hs.ingestEvent event) h

/-- An eviction takes the cooldowns of a process with its chain. -/
theorem CooldownsFollow.evicted (h : CooldownsFollow before) (hevicted : EvictedFrom before after) :
    CooldownsFollow after := by
  intro key hkey
  by_contra hgone
  obtain ⟨last, hlast⟩ := Table.exists_lookup_of_mem hkey
  by_cases hmem : key.1 ∈ before.chains
  · rw [hevicted.forgotten key hmem hgone] at hlast
    cases hlast
  · rw [hevicted.reported key fun hbefore => absurd hbefore hmem] at hlast
    exact hmem (h key (Table.mem_of_lookup_eq_some hlast))

theorem CooldownsFollow.next (h : CooldownsFollow engine) (hmeets : PrunesTogether engine call) :
    CooldownsFollow (engine.next call) :=
  (h.prune hmeets).ingestEvents.evicted (evictedFrom_enforceCapacity _ call.order)

end call

/-! ## Runs -/

section runs

variable {calls : List IngestCall} {call : IngestCall}

theorem cooldownsFollow_engineAfter (h : StepsMeet PrunesTogether callStep .initial calls) :
    CooldownsFollow (engineAfter calls) := by
  refine run_invariant_of_meets ?_ ?_ h run_callStep
  · intro engine call next hfollow hmeets hnext
    rw [callStep, Option.some_inj] at hnext
    exact hnext ▸ hfollow.next hmeets
  · intro key hkey
    exact absurd hkey (AList.notMem_empty key)

theorem size_chains_engineAfter : (engineAfter calls).chains.size ≤ maximumChains := by
  induction calls using List.reverseRecOn with
  | nil => decide
  | append_singleton calls call _ =>
      rw [engineAfter_concat]
      exact size_chains_enforceCapacity _ call.order

/-- **The cooldown table is bounded.** In every run whose calls prune no chain of a process that is
cooling down, the table has at most `3 * MAXIMUM_CHAINS` entries after each call. -/
theorem cooldown_table_bounded (calls : List IngestCall)
    (hmeets : StepsMeet PrunesTogether callStep .initial calls) (before : List IngestCall)
    (hbefore : before <+: calls) : (engineAfter before).reported.size ≤ 3 * maximumChains := by
  obtain ⟨after, rfl⟩ := hbefore
  have hfollow := cooldownsFollow_engineAfter hmeets.of_append
  exact (size_reported_le hfollow).trans (Nat.mul_le_mul_left 3 size_chains_engineAfter)

/-- At first every signal is in the window. -/
theorem prunesTogether_of_le (htimes : TimesOrdered calls) (hnow : call.now ≤ chainWindow) :
    PrunesTogether (engineAfter calls) call := by
  intro key chain last hchain _ _
  have hwell := allWellFormed_engineAfter htimes key.1 chain hchain
  obtain ⟨signal, hsignal⟩ := List.exists_mem_of_ne_nil _ hwell.signals_ne_nil
  exact ⟨signal, hsignal, (Nat.sub_le _ _).trans hnow⟩

theorem stepsMeet_of_le (htimes : TimesOrdered calls)
    (hnow : ∀ call ∈ calls, call.now ≤ chainWindow) :
    StepsMeet PrunesTogether callStep .initial calls := by
  induction calls using List.reverseRecOn with
  | nil => trivial
  | append_singleton calls call ih =>
      have hbefore : TimesOrdered calls := (List.pairwise_append.mp htimes).1
      refine stepsMeet_concat.mpr ⟨ih hbefore fun earlier hmem => ?_, ?_⟩
      · exact hnow earlier (List.mem_append_left _ hmem)
      · intro engine hrun
        rw [run_callStep, Option.some_inj] at hrun
        exact hrun ▸ prunesTogether_of_le hbefore (hnow call (by simp))

/-- `cooldown_table_bounded` for the flood, which evicts the attacker. -/
theorem cooldown_table_bounded_floodRun :
    (engineAfter floodRun).reported.size ≤ 3 * maximumChains :=
  cooldown_table_bounded floodRun
    (stepsMeet_of_le (by simp [TimesOrdered, floodRun, attackCall, floodCall])
      (by simp [floodRun, attackCall, floodCall, chainWindow]))
    floodRun (List.prefix_refl _)

end runs

/-! ## Processes that fall silent -/

/-- Every rule that matches a chain is in the cooldown table. -/
def RecordsMatches (engine : BehaviorChainEngine) : Prop :=
  ∀ correlationId chain, engine.chains.lookup correlationId = some chain →
    ∀ rule ∈ matchingRules chain, (correlationId, rule) ∈ engine.reported

section records

variable {engine : BehaviorChainEngine} {now : ℕ} {event : SysmonEvent} {events : List SysmonEvent}
  {correlationId : String} {chain : Chain} {rule : Rule} {rules : List Rule}
  {reported : Table (String × Rule) ℕ} {key : String × Rule}

theorem mem_report_of_mem (h : key ∈ reported) :
    key ∈ (report now correlationId chain rules reported).1 := by
  induction rules generalizing reported with
  | nil => exact h
  | cons rule rules ih =>
      unfold report
      split_ifs with hcooling
      · exact ih h
      · exact ih ((AList.mem_insert _).mpr (Or.inr h))

/-- A rule that matches starts a cooldown or is cooling down. -/
theorem mem_report (h : rule ∈ rules) :
    (correlationId, rule) ∈ (report now correlationId chain rules reported).1 := by
  induction rules generalizing reported with
  | nil => cases h
  | cons first rules ih =>
      unfold report
      split_ifs with hcooling
      · rcases List.mem_cons.mp h with rfl | h
        · obtain ⟨last, hlast, -⟩ := (Option.any_eq_true _ _).mp hcooling
          exact mem_report_of_mem (Table.mem_of_lookup_eq_some hlast)
        · exact ih h
      · rcases List.mem_cons.mp h with rfl | h
        · exact mem_report_of_mem ((AList.mem_insert _).mpr (Or.inl rfl))
        · exact ih h

/-- A batch forgets no cooldown. -/
theorem mem_reported_ingestEvents (h : key ∈ engine.reported) :
    key ∈ (ingestEvents now engine events).1.reported := by
  refine ingestEvents_invariant (P := fun engine => key ∈ engine.reported) ?_ h
  intro engine event hmem
  rcases ingestEvent_cases now engine event with ⟨-, hsame⟩ | ⟨id, kind, hid, hkind⟩
  · rwa [hsame]
  · rw [ingestEvent_of_classified hid hkind]
    exact mem_report_of_mem hmem

theorem RecordsMatches.ingestEvents (h : RecordsMatches engine) :
    RecordsMatches (ingestEvents now engine events).1 := by
  refine ingestEvents_invariant (fun engine event hrecords => ?_) h
  rcases ingestEvent_cases now engine event with ⟨-, hsame⟩ | ⟨id, kind, hid, hkind⟩
  · rwa [hsame]
  · rw [ingestEvent_of_classified hid hkind]
    intro correlationId chain hchain rule hrule
    rcases Table.lookup_insert_eq_some_iff.mp hchain with ⟨rfl, rfl⟩ | ⟨-, hold⟩
    · exact mem_report hrule
    · exact mem_report_of_mem (hrecords correlationId chain hold rule hrule)

theorem recordsMatches_of_no_chains (h : ∀ id, id ∉ engine.chains) : RecordsMatches engine :=
  fun id _ hchain => absurd (Table.mem_of_lookup_eq_some hchain) (h id)

/-- The chains after a batch are old ones or those of its events. -/
theorem mem_chains_of_ingestEvents
    (h : correlationId ∈ (ingestEvents now engine events).1.chains) :
    correlationId ∈ engine.chains ∨
      ∃ event ∈ events, stableCorrelationId event = some correlationId := by
  by_contra hnone
  simp only [not_or, not_exists, not_and] at hnone
  have hevents : eventsOf correlationId events = [] :=
    List.filter_eq_nil_iff.mpr fun event hmem => by simpa using hnone.2 event hmem
  have hagree := (agreeOn_ingestEvents now events (AgreeOn.refl correlationId engine)).1
  rw [hevents] at hagree
  rw [← AList.lookup_isSome, hagree.chain] at h
  exact hnone.1 (AList.lookup_isSome.mp h)

end records

section silent

variable {engine : BehaviorChainEngine} {now number : ℕ} {numbers : List ℕ} {rule : Rule}
  {kind : SignalKind} {key : String × Rule}

/-- An event with the GUID of one of many processes. -/
def guidEvent (number : ℕ) (eventId : UInt32) (fields : List (String × String)) :
    SysmonEvent where
  eventId := eventId
  occurredAt := "2026-08-08T12:00:01Z"
  fields := Table.collect (fields ++ [("ProcessGuid", "B" ++ toString number)])

/-- What a process does to match every rule. -/
def intrusion (number : ℕ) : List SysmonEvent :=
  [guidEvent number 10 [("TargetImage", "C:\\Windows\\System32\\lsass.exe"),
      ("GrantedAccess", "0x1010")],
    guidEvent number 8 [],
    guidEvent number 11 [("TargetFilename", "C:\\Users\\me\\other.dll")],
    guidEvent number 13 [("TargetObject",
      "HKLM\\Software\\Microsoft\\Windows\\CurrentVersion\\Run\\other")],
    guidEvent number 3 [("DestinationIp", "203.0.113.8")]]

theorem field_guidEvent {eventId : UInt32} {fields : List (String × String)} {name : String}
    (h : name ≠ "ProcessGuid") :
    (guidEvent number eventId fields).field name =
      ((Table.collect fields).lookup name).getD "" := by
  rw [SysmonEvent.field, guidEvent, Table.lookup_collect, Table.lookup_collect,
    List.reverse_append, List.reverse_singleton, List.singleton_append,
    List.find?_cons_of_neg (by simpa using h.symm)]

theorem stableCorrelationId_guidEvent {eventId : UInt32} {fields : List (String × String)} :
    stableCorrelationId (guidEvent number eventId fields) = some (floodId number) := by
  simp [stableCorrelationId, SysmonEvent.field, guidEvent, floodId, Table.lookup_collect]

/-- The kind of an event is the same for all processes. -/
theorem classify_guidEvent (number : ℕ) (eventId : UInt32) (fields : List (String × String)) :
    classify (guidEvent number eventId fields) = classify (guidEvent 0 eventId fields) := by
  have heventId : ∀ number, (guidEvent number eventId fields).eventId = eventId := fun _ => rfl
  simp [classify, SysmonEvent.targetPath, SysmonEvent.firstField, field_guidEvent, heventId]

theorem intrusion_classify (number : ℕ) :
    (intrusion number).map classify = [some .credentialAccess, some .injection, some .fileDrop,
      some .persistence, some .network] := by
  simp only [intrusion, List.map_cons, List.map_nil, classify_guidEvent number]
  decide

/-- The signals of an intrusion are of every kind. -/
theorem exists_mem_intrusion (number : ℕ) (kind : SignalKind) :
    ∃ event ∈ intrusion number, classify event = some kind := by
  have hmem : some kind ∈ (intrusion number).map classify := by
    rw [intrusion_classify]
    cases kind <;> decide
  exact List.mem_map.mp hmem

theorem stableCorrelationId_of_mem_intrusion {event : SysmonEvent} (h : event ∈ intrusion number) :
    stableCorrelationId event = some (floodId number) := by
  simp only [intrusion, List.mem_cons, List.not_mem_nil, or_false] at h
  rcases h with rfl | rfl | rfl | rfl | rfl <;> exact stableCorrelationId_guidEvent

/-- After an intrusion all rules are in the cooldown table. -/
theorem mem_reported_intrusion (h : RecordsMatches engine) (rule : Rule) :
    (floodId number, rule) ∈ (ingestEvents now engine (intrusion number)).1.reported := by
  have hheld : ∀ kind, ∃ signal ∈ (ingestEvents now engine (intrusion number)).1.held
      (floodId number), signal.kind = kind := by
    intro kind
    obtain ⟨event, hevent, hkind⟩ := exists_mem_intrusion number kind
    have hid := stableCorrelationId_of_mem_intrusion hevent
    exact ⟨_, mem_held_ingestEvents (by decide : 5 ≤ 32) hevent hid hkind, rfl⟩
  cases hchain : (ingestEvents now engine (intrusion number)).1.chains.lookup (floodId number) with
  | none => simp [BehaviorChainEngine.held, hchain] at hheld
  | some chain =>
      refine h.ingestEvents (floodId number) chain hchain rule (mem_matchingRules_iff.mpr ?_)
      intro kind _
      simpa [BehaviorChainEngine.held, hchain] using hheld kind

/-- A batch of intrusions. -/
def intrusionCall (now : ℕ) (numbers : List ℕ) : IngestCall :=
  ⟨default, now, numbers.flatMap intrusion⟩

/-- Without chains before, all processes of the batch are put into the cooldown table. -/
theorem mem_reported_intrusionCall (hchains : ∀ id, id ∉ (engine.prune now).chains)
    (hnumber : number ∈ numbers) (rule : Rule) :
    (floodId number, rule) ∈ (engine.filled (intrusionCall now numbers)).reported := by
  obtain ⟨before, after, rfl⟩ := List.append_of_mem hnumber
  have hstart : RecordsMatches
      (ingestEvents now (engine.prune now) (before.flatMap intrusion)).1 :=
    (recordsMatches_of_no_chains hchains).ingestEvents
  have hrecords : (floodId number, rule) ∈ (ingestEvents now _ (intrusion number)).1.reported :=
    mem_reported_intrusion hstart rule
  rw [BehaviorChainEngine.filled, intrusionCall]
  simp only [List.flatMap_append, List.flatMap_cons, ingestEvents_append]
  exact mem_reported_ingestEvents hrecords

/-- The batch has a chain for each of its processes at most. -/
theorem fitsCapacity_intrusionCall (hchains : ∀ id, id ∉ (engine.prune now).chains)
    (hlength : numbers.length ≤ maximumChains) :
    FitsCapacity engine (intrusionCall now numbers) := by
  have hkeys : ∀ id ∈ (engine.filled (intrusionCall now numbers)).chains,
      id ∈ numbers.map floodId := by
    intro id hid
    rcases mem_chains_of_ingestEvents hid with hold | ⟨event, hevent, heventId⟩
    · exact absurd hold (hchains id)
    · obtain ⟨number, hnumber, hintrusion⟩ := List.mem_flatMap.mp hevent
      rw [stableCorrelationId_of_mem_intrusion hintrusion, Option.some_inj] at heventId
      exact heventId ▸ List.mem_map_of_mem hnumber
  have hsize := Table.size_le_length hkeys
  rw [List.length_map] at hsize
  exact hsize.trans hlength

theorem notMem_chains_prune_initial (now : ℕ) (id : String) :
    id ∉ (BehaviorChainEngine.initial.prune now).chains := by
  rw [← AList.lookup_isSome, prune, Table.lookup_filterMap]
  simp [BehaviorChainEngine.initial]

theorem engineAfter_intrusionCall (hlength : numbers.length ≤ maximumChains) :
    engineAfter [intrusionCall now numbers] =
      BehaviorChainEngine.initial.filled (intrusionCall now numbers) := by
  rw [← List.nil_append [intrusionCall now numbers], engineAfter_concat]
  exact next_of_fits (fitsCapacity_intrusionCall (notMem_chains_prune_initial now) hlength)

/-- After the window of the first batch its chains are gone. -/
theorem notMem_chains_prune (numbers : List ℕ) (id : String) :
    id ∉ ((engineAfter [intrusionCall 0 numbers]).prune (chainWindow + 1)).chains := by
  intro hmem
  obtain ⟨chain, hchain⟩ := Table.exists_lookup_of_mem hmem
  obtain ⟨signal, hsignal⟩ := List.exists_mem_of_ne_nil _ (settled_prune.nonempty id chain hchain)
  have hrecent := settled_prune.recent id chain hchain signal hsignal
  obtain ⟨old, hold, rfl⟩ := lookup_prune hchain
  have hordered : TimesOrdered [intrusionCall 0 numbers] := List.pairwise_singleton _ _
  have hremembers := remembers_engineAfter hordered id old hold
  have hobserved := hremembers.mem (List.mem_of_mem_filter hsignal)
  obtain ⟨observation, hobservation, rfl⟩ := List.mem_map.mp hobserved
  have hzero : observation.time = 0 := by
    have hentry := (mem_observationsOf hobservation).1
    simp only [historyOf, List.flatMap_singleton, List.mem_map, Prod.mk.injEq] at hentry
    obtain ⟨event, -, htime, -⟩ := hentry
    exact htime.symm
  simp [Observation.signal, hzero] at hrecent

/-- A second batch after the window forgets no process of the first one. -/
theorem mem_reported_of_silent {other : ℕ} (hlength : numbers.length ≤ maximumChains)
    (hnumber : number ∈ numbers ∨ number = other) (rule : Rule) :
    (floodId number, rule) ∈ ((engineAfter [intrusionCall 0 numbers]).filled
      (intrusionCall (chainWindow + 1) [other])).reported := by
  rcases hnumber with hnumber | rfl
  · have hfirst : (floodId number, rule) ∈ (engineAfter [intrusionCall 0 numbers]).reported := by
      rw [engineAfter_intrusionCall hlength]
      exact mem_reported_intrusionCall (notMem_chains_prune_initial 0) hnumber rule
    obtain ⟨last, hlast⟩ := Table.exists_lookup_of_mem hfirst
    have hcooling : chainWindow + 1 - last ≤ alertCooldown := by
      simp only [chainWindow, alertCooldown]
      omega
    have hkept := Table.mem_of_lookup_eq_some (lookup_reported_prune.mpr ⟨hlast, hcooling⟩)
    rw [BehaviorChainEngine.filled]
    exact mem_reported_ingestEvents hkept
  · exact mem_reported_intrusionCall (notMem_chains_prune numbers) List.mem_cons_self rule

/-- As many processes as there may be chains alert at once, and one more when they have been silent
for longer than `CHAIN_WINDOW`. -/
def silentRun : List IngestCall :=
  [intrusionCall 0 (List.range maximumChains), intrusionCall (chainWindow + 1) [maximumChains]]

theorem engineAfter_silentRun :
    engineAfter silentRun = (engineAfter [intrusionCall 0 (List.range maximumChains)]).filled
      (intrusionCall (chainWindow + 1) [maximumChains]) := by
  rw [silentRun, ← List.singleton_append, engineAfter_concat]
  exact next_of_fits (fitsCapacity_intrusionCall (notMem_chains_prune _) (by decide))

/-- **Cooldowns outlive chains.** After the second batch the table has more than
`3 * MAXIMUM_CHAINS` entries. -/
theorem cooldowns_outlive_chains : TimesOrdered silentRun ∧
    ¬ (engineAfter silentRun).reported.size ≤ 3 * maximumChains := by
  refine ⟨by simp [TimesOrdered, silentRun, intrusionCall], Nat.not_le.mpr ?_⟩
  have hnodup : ((List.range (maximumChains + 1)).map floodId ×ˢ Rule.every).Nodup :=
    (List.nodup_range.map floodId_injective).product (by decide)
  have hlength := Table.length_le_size (t := (engineAfter silentRun).reported) hnodup ?_
  · rw [List.length_product, List.length_map, List.length_range] at hlength
    change (maximumChains + 1) * 3 ≤ _ at hlength
    omega
  · rintro ⟨id, rule⟩ hkey
    obtain ⟨hid, -⟩ := List.pair_mem_product.mp hkey
    obtain ⟨number, hnumber, rfl⟩ := List.mem_map.mp hid
    rw [engineAfter_silentRun]
    apply mem_reported_of_silent (by simp)
    rw [List.mem_range] at hnumber ⊢
    omega

end silent

end OpenGuard.Service
