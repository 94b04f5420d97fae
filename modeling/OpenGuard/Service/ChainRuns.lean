import OpenGuard.Lib.Run
import OpenGuard.Service.ChainHistory

/-!
# Runs of the behaviour-chain engine

A run is a list of calls of `ingest_at`. What a run returns is a list of alerts for each call, and
many facts hold only while no chain has to be evicted.

* `transcript`: the alerts that the calls of a run return, with the times of the calls.
* `NeverEvicts`: no call reaches `enforce_capacity` with too many chains.
* `lookup_report`, `report_or_cooling`: what the loop over the matching rules does to the cooldown
  table and to the alerts.
* `ingestAt_append`: a batch that is split at one instant gives the same state and alerts.
-/

namespace OpenGuard.Service

open OpenGuard.Lib OpenGuard.Domain OpenGuard.Windows BehaviorChainEngine

/-! ## Calls -/

/-- The engine after a call. -/
def BehaviorChainEngine.next (engine : BehaviorChainEngine) (call : IngestCall) :
    BehaviorChainEngine := (ingestAt call.order call.events call.now engine).1

/-- The alerts of a call. -/
def BehaviorChainEngine.alerts (engine : BehaviorChainEngine) (call : IngestCall) :
    List BehaviorAlert := (ingestAt call.order call.events call.now engine).2

/-- The engine when a call has gone through its events and `enforce_capacity` is next. -/
def BehaviorChainEngine.filled (engine : BehaviorChainEngine) (call : IngestCall) :
    BehaviorChainEngine := (ingestEvents call.now (engine.prune call.now) call.events).1

/-- A call as a step of the machine. -/
def callStep (engine : BehaviorChainEngine) (call : IngestCall) : Option BehaviorChainEngine :=
  some (engine.next call)

/-- The alerts that each call of a run returns, with the time of the call. -/
def transcript : BehaviorChainEngine → List IngestCall → List (ℕ × List BehaviorAlert)
  | _, [] => []
  | engine, call :: rest => (call.now, engine.alerts call) :: transcript (engine.next call) rest

/-- The call reaches `enforce_capacity` with at most `MAXIMUM_CHAINS` chains. -/
def FitsCapacity (engine : BehaviorChainEngine) (call : IngestCall) : Prop :=
  (engine.filled call).chains.size ≤ maximumChains

/-- No call of the run reaches `enforce_capacity` with more than `MAXIMUM_CHAINS` chains. -/
def NeverEvicts (calls : List IngestCall) : Prop :=
  StepsMeet FitsCapacity callStep .initial calls

/-- The alert is for the process and for the rule. -/
def BehaviorAlert.IsFor (correlationId : String) (rule : Rule) (alert : BehaviorAlert) : Prop :=
  alert.correlationId = correlationId ∧ alert.eventType = rule.eventType

section calls

variable {engine : BehaviorChainEngine} {calls : List IngestCall} {call : IngestCall}

theorem engineAfter_concat : engineAfter (calls ++ [call]) = (engineAfter calls).next call :=
  List.foldl_concat ..

theorem historyOf_concat :
    historyOf (calls ++ [call]) = historyOf calls ++ call.events.map (call.now, ·) := by
  simp [historyOf]

theorem run_callStep :
    run callStep engine calls = some (calls.foldl BehaviorChainEngine.next engine) := by
  induction calls generalizing engine with
  | nil => rfl
  | cons call calls ih =>
      rw [run_cons, callStep, Option.bind_some, ih]
      rfl

theorem neverEvicts_concat :
    NeverEvicts (calls ++ [call]) ↔
      NeverEvicts calls ∧ FitsCapacity (engineAfter calls) call := by
  unfold NeverEvicts
  rw [stepsMeet_concat, run_callStep]
  simp only [Option.some_inj, forall_eq']
  exact Iff.rfl

theorem transcript_concat :
    transcript engine (calls ++ [call]) =
      transcript engine calls ++
        [(call.now, (calls.foldl BehaviorChainEngine.next engine).alerts call)] := by
  induction calls generalizing engine with
  | nil => rfl
  | cons first calls ih => simp [transcript, ih]

theorem transcript_initial_concat :
    transcript .initial (calls ++ [call]) =
      transcript .initial calls ++ [(call.now, (engineAfter calls).alerts call)] :=
  transcript_concat

/-- Without too many chains `enforce_capacity` does nothing. -/
theorem enforceCapacity_of_size_le (order : IterOrder String Chain)
    (h : engine.chains.size ≤ maximumChains) : engine.enforceCapacity order = engine := by
  unfold enforceCapacity
  cases engine.chains.size with
  | zero => rfl
  | succ fuel => rw [evict, if_neg (Nat.not_lt.mpr h)]

theorem next_of_fits (h : FitsCapacity engine call) : engine.next call = engine.filled call :=
  enforceCapacity_of_size_le call.order h

end calls

/-! ## Reports -/

section reports

variable {now last : ℕ} {correlationId : String} {chain : Chain} {rules : List Rule} {rule : Rule}
  {reported : Table (String × Rule) ℕ} {key : String × Rule}

theorem isFor_buildAlert_iff {id : String} {other : Rule} :
    (buildAlert rule correlationId chain).IsFor id other ↔ correlationId = id ∧ rule = other := by
  simp [BehaviorAlert.IsFor, buildAlert, Rule.eventType_injective.eq_iff]

/-- A cooldown that runs after the loop ran before or was started by an alert. -/
theorem lookup_report
    (h : (report now correlationId chain rules reported).1.lookup key = some last) :
    reported.lookup key = some last ∨
      last = now ∧ key.1 = correlationId ∧
        buildAlert key.2 correlationId chain ∈
          (report now correlationId chain rules reported).2 := by
  induction rules generalizing reported with
  | nil => exact Or.inl h
  | cons rule rules ih =>
      unfold report at h ⊢
      split_ifs at h ⊢ with hcooling
      · exact ih h
      · rcases ih h with hlookup | ⟨hlast, hkey, halert⟩
        · rcases Table.lookup_insert_eq_some_iff.mp hlookup with ⟨rfl, rfl⟩ | ⟨-, hold⟩
          · exact Or.inr ⟨rfl, rfl, List.mem_cons_self⟩
          · exact Or.inl hold
        · exact Or.inr ⟨hlast, hkey, List.mem_cons_of_mem _ halert⟩

/-- The loop leaves the other processes alone. -/
theorem lookup_report_of_ne (h : key.1 ≠ correlationId) :
    (report now correlationId chain rules reported).1.lookup key = reported.lookup key := by
  induction rules generalizing reported with
  | nil => rfl
  | cons rule rules ih =>
      unfold report
      split_ifs with hcooling
      · exact ih
      · apply ih.trans
        apply AList.lookup_insert_ne
        rintro rfl
        exact h rfl

/-- A rule that matches is reported or cools down. -/
theorem report_or_cooling (h : rule ∈ rules) :
    buildAlert rule correlationId chain ∈ (report now correlationId chain rules reported).2 ∨
      ∃ last, reported.lookup (correlationId, rule) = some last ∧ now - last < alertCooldown := by
  induction rules generalizing reported with
  | nil => simp at h
  | cons first rules ih =>
      unfold report
      split_ifs with hcooling
      · by_cases hfirst : rule = first
        · subst hfirst
          obtain ⟨last, hlast, hlt⟩ := (Option.any_eq_true _ _).mp hcooling
          exact Or.inr ⟨last, hlast, by simpa using hlt⟩
        · exact ih (List.mem_of_ne_of_mem hfirst h)
      · by_cases hfirst : rule = first
        · exact Or.inl (hfirst ▸ List.mem_cons_self)
        · have hne : (correlationId, rule) ≠ (correlationId, first) := by simp [hfirst]
          rcases ih (List.mem_of_ne_of_mem hfirst h) with halert | ⟨last, hlast, hlt⟩
          · exact Or.inl (List.mem_cons_of_mem _ halert)
          · rw [AList.lookup_insert_ne hne] at hlast
            exact Or.inr ⟨last, hlast, hlt⟩

end reports

/-! ## One event -/

section events

variable {now : ℕ} {engine : BehaviorChainEngine} {event : SysmonEvent} {events : List SysmonEvent}
  {correlationId : String} {kind : SignalKind}

/-- A classified event of a process enters its chain, and the rules that match are reported. -/
theorem ingestEvent_of_classified (hid : stableCorrelationId event = some correlationId)
    (hkind : classify event = some kind) :
    ingestEvent now engine event =
      let chain := observe now event kind (engine.chains.lookup correlationId)
      let result := report now correlationId chain (matchingRules chain) engine.reported
      (⟨engine.chains.insert correlationId chain, result.1⟩, result.2) := by
  simp [ingestEvent, hid, hkind]

/-- All that an event can do: nothing, or what a classified event of a process does. -/
theorem ingestEvent_cases (now : ℕ) (engine : BehaviorChainEngine) (event : SysmonEvent) :
    ((∀ correlationId, ¬ (stableCorrelationId event = some correlationId ∧
          (classify event).isSome)) ∧ ingestEvent now engine event = (engine, [])) ∨
      ∃ correlationId kind, stableCorrelationId event = some correlationId ∧
        classify event = some kind := by
  unfold ingestEvent
  cases hkind : classify event with
  | none => simp
  | some kind =>
      cases hid : stableCorrelationId event with
      | none => simp
      | some correlationId => exact Or.inr ⟨correlationId, kind, rfl, rfl⟩

theorem ingestEvents_cons :
    ingestEvents now engine (event :: events) =
      ((ingestEvents now (ingestEvent now engine event).1 events).1,
        (ingestEvent now engine event).2 ++
          (ingestEvents now (ingestEvent now engine event).1 events).2) := rfl

/-- What every event preserves, a batch preserves. -/
theorem ingestEvents_invariant {P : BehaviorChainEngine → Prop}
    (hstep : ∀ engine event, P engine → P (ingestEvent now engine event).1)
    (h : P engine) : P (ingestEvents now engine events).1 := by
  induction events generalizing engine with
  | nil => exact h
  | cons event events ih => exact ih (hstep engine event h)

/-- The process of an event keeps the chains of the others. -/
theorem mem_chains_ingestEvent {id : String} (h : id ∈ engine.chains) :
    id ∈ (ingestEvent now engine event).1.chains := by
  rcases ingestEvent_cases now engine event with ⟨-, hsame⟩ | ⟨correlationId, kind, hid, hkind⟩
  · rwa [hsame]
  · rw [ingestEvent_of_classified hid hkind]
    exact (AList.mem_insert _).mpr (Or.inr h)

theorem mem_chains_ingestEvents {id : String} (h : id ∈ engine.chains) :
    id ∈ (ingestEvents now engine events).1.chains :=
  ingestEvents_invariant (P := fun engine => id ∈ engine.chains)
    (fun _ _ hmem => mem_chains_ingestEvent hmem) h

theorem size_chains_ingestEvents_le :
    (ingestEvents now engine events).1.chains.size ≤ engine.chains.size + events.length := by
  induction events generalizing engine with
  | nil => simp [ingestEvents]
  | cons event events ih =>
      have hone : (ingestEvent now engine event).1.chains.size ≤ engine.chains.size + 1 := by
        rcases ingestEvent_cases now engine event with ⟨-, hsame⟩ | ⟨id, kind, hid, hkind⟩
        · simp [hsame]
        · rw [ingestEvent_of_classified hid hkind]
          exact Table.size_insert_le _ _ _
      have hrest := @ih (ingestEvent now engine event).1
      simp only [ingestEvents_cons, List.length_cons]
      omega

theorem observe_signals_ne_nil {old : Option Chain} :
    (observe now event kind old).signals ≠ [] := by
  intro hnil
  have hlast : (observe now event kind old).signals.getLast? = some
      ⟨kind, now, event.detail, event.remoteAddress⟩ := getLast?_pushBack (by decide)
  simp [hnil] at hlast

end events

/-! ## Few events -/

section few

variable {engine : BehaviorChainEngine} {calls : List IngestCall} {call : IngestCall}

theorem size_chains_evict_le (order : IterOrder String Chain) (fuel : ℕ) :
    (evict order fuel engine).chains.size ≤ engine.chains.size := by
  induction fuel generalizing engine with
  | zero => simp [evict]
  | succ fuel ih =>
      unfold evict
      split
      · cases (order.entries engine.chains).argmin fun entry => entry.2.lastSeen with
        | none => simp
        | some oldest => exact ih.trans (Table.size_erase_le _ _)
      · simp

theorem size_chains_filled_le :
    (engine.filled call).chains.size ≤ engine.chains.size + call.events.length :=
  size_chains_ingestEvents_le.trans (Nat.add_le_add_right (Table.size_filterMap_le _ _) _)

theorem size_chains_engineAfter_le :
    (engineAfter calls).chains.size ≤ (historyOf calls).length := by
  induction calls using List.reverseRecOn with
  | nil => simp [engineAfter, BehaviorChainEngine.initial, Table.size, historyOf]
  | append_singleton calls call ih =>
      rw [engineAfter_concat, historyOf_concat, List.length_append, List.length_map]
      exact (size_chains_evict_le _ _).trans (size_chains_filled_le.trans (by omega))

/-- A run with no more events than there may be chains evicts none. -/
theorem neverEvicts_of_length_le (h : (historyOf calls).length ≤ maximumChains) :
    NeverEvicts calls := by
  induction calls using List.reverseRecOn with
  | nil => trivial
  | append_singleton calls call ih =>
      rw [historyOf_concat, List.length_append, List.length_map] at h
      refine neverEvicts_concat.mpr ⟨ih (by omega), ?_⟩
      refine size_chains_filled_le.trans ((Nat.add_le_add_right ?_ _).trans h)
      exact size_chains_engineAfter_le

end few

/-! ## Splitting a batch -/

/-- Nothing is there that a pruning at this time would drop. -/
structure Settled (now : ℕ) (engine : BehaviorChainEngine) : Prop where
  recent : IsRecent now engine
  nonempty : ∀ correlationId chain, engine.chains.lookup correlationId = some chain →
    chain.signals ≠ []
  cooling : ∀ key last, engine.reported.lookup key = some last → now - last ≤ alertCooldown

section split

variable {now : ℕ} {engine : BehaviorChainEngine} {event : SysmonEvent}
  {events rest : List SysmonEvent}

theorem settled_prune : Settled now (engine.prune now) where
  recent := isRecent_prune
  nonempty correlationId chain hchain := by
    rw [prune, Table.lookup_filterMap] at hchain
    obtain ⟨old, -, hkept⟩ := Option.bind_eq_some_iff.mp hchain
    dsimp only at hkept
    split_ifs at hkept with hnil
    cases hkept
    exact hnil
  cooling key last hlast := by
    rw [prune, Table.lookup_retain, Option.filter_eq_some_iff] at hlast
    simpa using hlast.2

theorem settled_ingestEvent (h : Settled now engine) :
    Settled now (ingestEvent now engine event).1 := by
  refine ⟨isRecent_ingestEvent h.recent, ?_, ?_⟩
  · intro correlationId chain hchain
    rcases lookup_ingestEvent hchain with ⟨kind, -, -, rfl⟩ | ⟨-, hold⟩
    · exact observe_signals_ne_nil
    · exact h.nonempty correlationId chain hold
  · intro key last hlast
    rcases ingestEvent_cases now engine event with ⟨-, hsame⟩ | ⟨correlationId, kind, hid, hkind⟩
    · rw [hsame] at hlast
      exact h.cooling key last hlast
    · rw [ingestEvent_of_classified hid hkind] at hlast
      rcases lookup_report hlast with hold | ⟨rfl, -⟩
      · exact h.cooling key last hold
      · simp

theorem settled_ingestEvents (h : Settled now engine) :
    Settled now (ingestEvents now engine events).1 :=
  ingestEvents_invariant (fun _ _ hs => settled_ingestEvent hs) h

/-- A second pruning at the same time changes nothing. -/
theorem prune_of_settled (h : Settled now engine) : engine.prune now = engine := by
  unfold prune
  rw [Table.retain_eq_self, Table.filterMap_eq_self]
  · intro correlationId chain hchain
    have hsignals : (chain.signals.filter fun signal => now - signal.observedAt ≤ chainWindow) =
        chain.signals := by
      apply List.filter_eq_self.mpr
      intro signal hsignal
      simpa using h.recent correlationId chain hchain signal hsignal
    dsimp only
    rw [hsignals, if_neg (h.nonempty correlationId chain hchain)]
  · intro key last hlast
    simpa using h.cooling key last hlast

/-- **A batch can be split.** If the whole batch does not reach `enforce_capacity` with too many
chains, two calls at the same instant with its parts leave the same state and return the same
alerts as one call, from any state. -/
theorem ingestAt_append (order order₁ order₂ : IterOrder String Chain)
    (events rest : List SysmonEvent) (now : ℕ) (engine : BehaviorChainEngine)
    (h : (ingestEvents now (engine.prune now) (events ++ rest)).1.chains.size ≤ maximumChains) :
    ingestAt order (events ++ rest) now engine =
      let first := ingestAt order₁ events now engine
      let second := ingestAt order₂ rest now first.1
      (second.1, first.2 ++ second.2) := by
  have hsettled : Settled now (ingestEvents now (engine.prune now) events).1 :=
    settled_ingestEvents settled_prune
  -- the chains of the first part are among those of the whole batch
  have hfirst : (ingestEvents now (engine.prune now) events).1.chains.size ≤ maximumChains := by
    refine (Table.size_le_of_subset fun id hid => ?_).trans h
    rw [ingestEvents_append]
    exact mem_chains_ingestEvents hid
  rw [ingestEvents_append] at h
  unfold ingestAt
  simp only [ingestEvents_append, enforceCapacity_of_size_le _ hfirst, prune_of_settled hsettled,
    enforceCapacity_of_size_le _ h]

/-- `ingestAt_append` for an access and a connection that come in together. -/
theorem ingestAt_append_sample :
    ingestAt default ([sampleAccess] ++ [sampleConnection]) 2000000000 .initial =
      let first := ingestAt default [sampleAccess] 2000000000 .initial
      let second := ingestAt default [sampleConnection] 2000000000 first.1
      (second.1, first.2 ++ second.2) :=
  ingestAt_append default default default [sampleAccess] [sampleConnection] 2000000000 .initial
    (by decide +kernel)

end split

end OpenGuard.Service
