import OpenGuard.Service.ChainRuns

/-!
# What the chain store holds

Four places keep the store within its bounds: a signal that enters takes the place of the oldest,
the pruning drops what is older than the window, and `enforce_capacity` evicts whole chains.

* `EvictedFrom`: what an eviction leaves; `evictedFrom_enforceCapacity`.
* `Chain.WellFormed`: the bounds of one chain.
* `chain_store_invariant`: what holds of the store after every call of a run.
-/

namespace OpenGuard.Service

open OpenGuard.Lib OpenGuard.Domain OpenGuard.Windows BehaviorChainEngine

/-! ## Eviction -/

/-- The second engine is the first one less some of the least recently seen chains and their
cooldowns. -/
structure EvictedFrom (before after : BehaviorChainEngine) : Prop where
  chains : ∀ correlationId chain, after.chains.lookup correlationId = some chain →
    before.chains.lookup correlationId = some chain
  oldest : ∀ evicted old kept chain, before.chains.lookup evicted = some old →
    evicted ∉ after.chains → after.chains.lookup kept = some chain →
    old.lastSeen ≤ chain.lastSeen
  reported : ∀ key, (key.1 ∈ before.chains → key.1 ∈ after.chains) →
    after.reported.lookup key = before.reported.lookup key
  forgotten : ∀ key, key.1 ∈ before.chains → key.1 ∉ after.chains →
    after.reported.lookup key = none

section evict

variable {engine before middle after : BehaviorChainEngine} {fuel : ℕ}

theorem EvictedFrom.refl (engine : BehaviorChainEngine) : EvictedFrom engine engine where
  chains _ _ h := h
  oldest _ _ _ _ hold hgone := absurd (Table.mem_of_lookup_eq_some hold) hgone
  reported _ _ := rfl
  forgotten _ hmem hgone := absurd hmem hgone

theorem EvictedFrom.mem (h : EvictedFrom before after) {correlationId : String}
    (hmem : correlationId ∈ after.chains) : correlationId ∈ before.chains := by
  obtain ⟨chain, hchain⟩ := Table.exists_lookup_of_mem hmem
  exact Table.mem_of_lookup_eq_some (h.chains correlationId chain hchain)

theorem EvictedFrom.trans (h₁ : EvictedFrom before middle) (h₂ : EvictedFrom middle after) :
    EvictedFrom before after where
  chains correlationId chain hchain := h₁.chains _ _ (h₂.chains _ _ hchain)
  oldest evicted old kept chain hold hgone hkept := by
    by_cases hmiddle : evicted ∈ middle.chains
    · obtain ⟨chain', hchain'⟩ := Table.exists_lookup_of_mem hmiddle
      have hsame := h₁.chains evicted chain' hchain'
      rw [hold, Option.some_inj] at hsame
      exact hsame ▸ h₂.oldest evicted chain' kept chain hchain' hgone hkept
    · exact h₁.oldest evicted old kept chain hold hmiddle (h₂.chains kept chain hkept)
  reported key hkept := by
    rw [h₂.reported key fun hmiddle => hkept (h₁.mem hmiddle),
      h₁.reported key fun hbefore => h₂.mem (hkept hbefore)]
  forgotten key hbefore hgone := by
    by_cases hmiddle : key.1 ∈ middle.chains
    · exact h₂.forgotten key hmiddle hgone
    · rw [h₂.reported key fun hmem => absurd hmem hmiddle]
      exact h₁.forgotten key hbefore hmiddle

/-- One turn of the loop: with too many chains, a least recently seen one goes. -/
theorem evict_turn (order : IterOrder String Chain) (fuel : ℕ)
    (h : maximumChains < engine.chains.size) :
    ∃ oldest chain, engine.chains.lookup oldest = some chain ∧
      (∀ other chain', engine.chains.lookup other = some chain' →
        chain.lastSeen ≤ chain'.lastSeen) ∧
      evict order (fuel + 1) engine = evict order fuel
        ⟨engine.chains.erase oldest, engine.reported.retain fun key _ => key.1 != oldest⟩ := by
  have hne : order.entries engine.chains ≠ [] := by
    intro hnil
    have hlength := (order.perm engine.chains).length_eq
    rw [hnil] at hlength
    simp only [Table.size, ← hlength, List.length_nil] at h
    omega
  obtain ⟨⟨oldest, chain⟩, hargmin⟩ := Option.ne_none_iff_exists'.mp
    (List.argmin_eq_none.not.mpr hne :
      (order.entries engine.chains).argmin (fun entry => entry.2.lastSeen) ≠ none)
  refine ⟨oldest, chain, ?_, ?_, ?_⟩
  · exact Table.mem_entries_iff.mp (order.mem_entries.mp (List.argmin_mem hargmin))
  · intro other chain' hother
    have hmem := order.mem_entries.mpr (Table.mem_entries_iff.mpr hother)
    exact List.le_of_mem_argmin (f := fun entry : Sigma fun _ => Chain => entry.2.lastSeen)
      hmem hargmin
  · rw [evict, if_pos h, hargmin]

/-- What one eviction leaves. -/
theorem evictedFrom_erase {oldest : String} {chain : Chain}
    (hmem : engine.chains.lookup oldest = some chain)
    (hleast : ∀ other chain', engine.chains.lookup other = some chain' →
      chain.lastSeen ≤ chain'.lastSeen) :
    EvictedFrom engine
      ⟨engine.chains.erase oldest, engine.reported.retain fun key _ => key.1 != oldest⟩ where
  chains correlationId kept hkept := by
    have hne : correlationId ≠ oldest := by
      rintro rfl
      simp at hkept
    rwa [AList.lookup_erase_ne hne] at hkept
  oldest evicted old kept chain' hold hgone hkept := by
    have heq : evicted = oldest := by
      by_contra hne
      exact hgone (AList.mem_erase.mpr ⟨hne, Table.mem_of_lookup_eq_some hold⟩)
    have hne : kept ≠ oldest := by
      rintro rfl
      simp at hkept
    rw [heq, hmem, Option.some_inj] at hold
    rw [AList.lookup_erase_ne hne] at hkept
    exact hold ▸ hleast kept chain' hkept
  reported key hkept := by
    have hne : key.1 ≠ oldest := by
      intro heq
      have hgone := hkept (heq ▸ Table.mem_of_lookup_eq_some hmem)
      exact (AList.mem_erase.mp hgone).1 heq
    rw [Table.lookup_retain_key, if_pos (bne_iff_ne.mpr hne)]
  forgotten key hbefore hgone := by
    have heq : key.1 = oldest := by
      by_contra hne
      exact hgone (AList.mem_erase.mpr ⟨hne, hbefore⟩)
    rw [Table.lookup_retain_key, if_neg (by simp [heq])]

/-- What the loop leaves. -/
theorem evictedFrom_evict (order : IterOrder String Chain) (fuel : ℕ) :
    EvictedFrom engine (evict order fuel engine) := by
  induction fuel generalizing engine with
  | zero => exact EvictedFrom.refl engine
  | succ fuel ih =>
      by_cases h : maximumChains < engine.chains.size
      · obtain ⟨oldest, chain, hmem, hleast, heq⟩ := evict_turn order fuel h
        rw [heq]
        exact (evictedFrom_erase hmem hleast).trans ih
      · rw [evict, if_neg h]
        exact EvictedFrom.refl engine

theorem evictedFrom_enforceCapacity (engine : BehaviorChainEngine)
    (order : IterOrder String Chain) : EvictedFrom engine (engine.enforceCapacity order) :=
  evictedFrom_evict order _

/-- The loop ends with no more chains than there may be. -/
theorem size_chains_evict (order : IterOrder String Chain)
    (h : engine.chains.size ≤ maximumChains + fuel) :
    (evict order fuel engine).chains.size ≤ maximumChains := by
  induction fuel generalizing engine with
  | zero => exact h
  | succ fuel ih =>
      by_cases hlt : maximumChains < engine.chains.size
      · obtain ⟨oldest, chain, hmem, -, heq⟩ := evict_turn order fuel hlt
        rw [heq]
        apply ih
        have hsize := Table.size_erase (Table.mem_of_lookup_eq_some hmem)
        change Table.size (engine.chains.erase oldest) ≤ maximumChains + fuel
        omega
      · rw [evict, if_neg hlt]
        exact Nat.not_lt.mp hlt

theorem size_chains_enforceCapacity (engine : BehaviorChainEngine)
    (order : IterOrder String Chain) : (engine.enforceCapacity order).chains.size ≤ maximumChains :=
  size_chains_evict order (Nat.le_add_left _ _)

end evict

/-! ## One chain -/

/-- A chain has at least one signal and not too many, and was last seen with the newest. -/
structure Chain.WellFormed (chain : Chain) : Prop where
  length_le : chain.signals.length ≤ maximumSignalsPerChain
  newest : chain.signals.getLast?.map (·.observedAt) = some chain.lastSeen

/-- Every chain is well formed. -/
def AllWellFormed (engine : BehaviorChainEngine) : Prop :=
  ∀ correlationId chain, engine.chains.lookup correlationId = some chain → chain.WellFormed

section wellFormed

variable {engine : BehaviorChainEngine} {history : History} {now : ℕ} {event : SysmonEvent}
  {kind : SignalKind} {chain : Chain} {correlationId : String}

theorem Chain.WellFormed.signals_ne_nil (h : chain.WellFormed) : chain.signals ≠ [] := by
  intro hnil
  have hnewest := h.newest
  simp [hnil] at hnewest

theorem wellFormed_observe {old : Option Chain} : (observe now event kind old).WellFormed where
  length_le := length_pushBack_le
  newest := by
    rw [observe, getLast?_pushBack (by decide)]
    rfl

theorem allWellFormed_ingestEvent (h : AllWellFormed engine) :
    AllWellFormed (ingestEvent now engine event).1 := by
  intro correlationId chain hchain
  rcases lookup_ingestEvent hchain with ⟨kind, -, -, rfl⟩ | ⟨-, hold⟩
  · exact wellFormed_observe
  · exact h correlationId chain hold

/-- The pruning keeps the newest signal of every chain that it keeps. -/
theorem allWellFormed_prune (hordered : IsOrdered history) (hremembers : Remembers history engine)
    (h : AllWellFormed engine) : AllWellFormed (engine.prune now) := by
  intro correlationId chain hchain
  have hne := settled_prune.nonempty correlationId chain hchain
  obtain ⟨old, hold, rfl⟩ := lookup_prune hchain
  have hwell := h correlationId old hold
  have hsuffix : (old.signals.filter fun signal => now - signal.observedAt ≤ chainWindow) <:+
      old.signals := by
    apply filter_isSuffix
    refine ((pairwise_signals hordered correlationId).sublist
      (hremembers correlationId old hold).sublist).imp ?_
    intro x y hxy hx
    simp only [decide_eq_true_eq] at hx ⊢
    omega
  refine ⟨hsuffix.length_le.trans hwell.length_le, ?_⟩
  rw [← hwell.newest, List.getLast?_eq_some_getLast hne,
    List.getLast?_eq_some_getLast hwell.signals_ne_nil, hsuffix.getLast hne]

end wellFormed

/-! ## The store after a run -/

/-- The classified events of a process that are not older than the window. -/
def recentObservations (now : ℕ) (correlationId : String) (history : History) :
    List Observation :=
  (observationsOf correlationId history).filter fun observation =>
    now - observation.time ≤ chainWindow

/-- What holds of the store when the last call came at `now`: it has at most `MAXIMUM_CHAINS`
chains, each of which holds between one and `MAXIMUM_SIGNALS_PER_CHAIN` signals, oldest first, none
older than the window, was last seen with the newest of them, and is a window on the classified
events of its process in the window. -/
structure StoreInvariant (history : History) (now : ℕ) (engine : BehaviorChainEngine) : Prop where
  capacity : engine.chains.size ≤ maximumChains
  nonempty : ∀ correlationId chain, engine.chains.lookup correlationId = some chain →
    1 ≤ chain.signals.length
  bounded : ∀ correlationId chain, engine.chains.lookup correlationId = some chain →
    chain.signals.length ≤ maximumSignalsPerChain
  ordered : ∀ correlationId chain, engine.chains.lookup correlationId = some chain →
    chain.signals.Pairwise fun x y => x.observedAt ≤ y.observedAt
  recent : IsRecent now engine
  newest : ∀ correlationId chain, engine.chains.lookup correlationId = some chain →
    chain.signals.getLast?.map (·.observedAt) = some chain.lastSeen
  suffix : ∀ correlationId chain, engine.chains.lookup correlationId = some chain →
    chain.signals <:+ (recentObservations now correlationId history).map Observation.signal

section runs

variable {calls : List IngestCall} {call : IngestCall}

theorem settled_filled : Settled call.now ((engineAfter calls).filled call) :=
  settled_ingestEvents settled_prune

theorem evictedFrom_next : EvictedFrom ((engineAfter calls).filled call)
    (engineAfter (calls ++ [call])) := by
  rw [engineAfter_concat]
  exact evictedFrom_enforceCapacity _ call.order

theorem allWellFormed_filled (call : IngestCall) (hordered : TimesOrdered calls)
    (h : AllWellFormed (engineAfter calls)) : AllWellFormed ((engineAfter calls).filled call) :=
  ingestEvents_invariant (fun _ _ hs => allWellFormed_ingestEvent hs)
    (allWellFormed_prune (isOrdered_historyOf hordered) (remembers_engineAfter hordered) h)

theorem allWellFormed_engineAfter (h : TimesOrdered calls) : AllWellFormed (engineAfter calls) := by
  induction calls using List.reverseRecOn with
  | nil =>
      intro correlationId chain hchain
      simp [engineAfter, BehaviorChainEngine.initial] at hchain
  | append_singleton calls call ih =>
      have hbefore : TimesOrdered calls := (List.pairwise_append.mp h).1
      intro correlationId chain hchain
      apply allWellFormed_filled call hbefore (ih hbefore) correlationId chain
      exact evictedFrom_next.chains correlationId chain hchain

/-- **The chain store keeps its bounds.** After every call of a run whose times do not go back the
store satisfies its invariant, and what the call evicted was last seen no later than what it
kept. -/
theorem chain_store_invariant (calls : List IngestCall) (call : IngestCall)
    (htimes : TimesOrdered (calls ++ [call])) :
    StoreInvariant (historyOf (calls ++ [call])) call.now (engineAfter (calls ++ [call])) ∧
      ∀ evicted old kept chain,
        ((engineAfter calls).filled call).chains.lookup evicted = some old →
        evicted ∉ (engineAfter (calls ++ [call])).chains →
        (engineAfter (calls ++ [call])).chains.lookup kept = some chain →
        old.lastSeen ≤ chain.lastSeen := by
  have hbefore : TimesOrdered calls := (List.pairwise_append.mp htimes).1
  have hwell := allWellFormed_engineAfter htimes
  have hremembers := remembers_engineAfter htimes
  have hrecent : IsRecent call.now (engineAfter (calls ++ [call])) := by
    intro correlationId chain hchain
    exact settled_filled.recent correlationId chain (evictedFrom_next.chains _ _ hchain)
  refine ⟨⟨?_, ?_, ?_, ?_, hrecent, ?_, ?_⟩, evictedFrom_next.oldest⟩
  · rw [engineAfter_concat]
    exact size_chains_enforceCapacity _ call.order
  · intro correlationId chain hchain
    exact List.length_pos_iff.mpr (hwell correlationId chain hchain).signals_ne_nil
  · intro correlationId chain hchain
    exact (hwell correlationId chain hchain).length_le
  · intro correlationId chain hchain
    exact (pairwise_signals (isOrdered_historyOf htimes) correlationId).sublist
      (hremembers correlationId chain hchain).sublist
  · intro correlationId chain hchain
    exact (hwell correlationId chain hchain).newest
  · intro correlationId chain hchain
    have hsuffix := hremembers correlationId chain hchain
    obtain ⟨held, hheld, hsignals⟩ := exists_held_of_isSuffix hsuffix
    rw [hsignals]
    apply List.IsSuffix.map
    apply isSuffix_filter hheld
    intro observation hobservation
    have hsignal : observation.signal ∈ chain.signals := by
      rw [hsignals]
      exact List.mem_map_of_mem hobservation
    exact decide_eq_true (hrecent correlationId chain hchain _ hsignal)

/-- `chain_store_invariant` for an access followed by a connection. -/
theorem chain_store_invariant_sample :
    StoreInvariant (historyOf ([sampleAccessCall] ++ [sampleConnectionCall])) 2000000000
      (engineAfter ([sampleAccessCall] ++ [sampleConnectionCall])) :=
  (chain_store_invariant [sampleAccessCall] sampleConnectionCall
    (by unfold TimesOrdered; decide +kernel)).1

end runs

end OpenGuard.Service
